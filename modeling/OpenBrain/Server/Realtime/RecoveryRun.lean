import OpenBrain.Core.LTS
import OpenBrain.Server.Realtime.Budgets
import OpenBrain.Server.Realtime.RecoveryWal

/-!
# Runs of the recovery store

A store with its journal over any number of restarts, each of them a replay of the journal and a
rewrite of it. The log is kept by the run and not by the code: every append that was accepted.
What is said of the items of a store is said of a predicate on keys and items that an item and
its later states share (`Lasting`); `Sound` is kept by every operation and by the replay.
-/
namespace OpenBrain.Server.Realtime
open OpenBrain.Core OpenBrain.Core.Ecma List

/-! ## Rows read back -/

/-- `JSON.parse(JSON.stringify(n))` -/
def Number.reread : Number → JsonValue
  | .finite d => if d.1.coeff = 0 then .num (Number.ofDec (Dec.make false 0 0)) else .num (.finite d)
  | .inf _ | .nan => .null

mutual

/-- `JSON.parse(JSON.stringify(value))` -/
def reread : JsonValue → JsonValue
  | .null => .null
  | .bool b => .bool b
  | .num n => Number.reread n
  | .str s => .str s
  | .arr xs => .arr (rereadElems xs)
  | .obj ms => .obj (rereadMembers ms)

def rereadElems : List JsonValue → List JsonValue
  | [] => []
  | x :: xs => reread x :: rereadElems xs

def rereadMembers : Members Number → Members Number
  | [] => []
  | (k, x) :: ms => (k, reread x) :: rereadMembers ms

end

def RecoveryWalItem.reread (item : RecoveryWalItem) : RecoveryWalItem :=
  { item with metadata := rereadMembers item.metadata }

def RecoveryWalRecord.reread : RecoveryWalRecord → RecoveryWalRecord
  | .append scope item => .append scope item.reread
  | record => record

/-- A store that begins with the rows of a journal.
mirrors recovery-wal.ts:442-449 -/
def RecoveryWalStore.load (dates : Dates) (budget : RecoveryWalBudget)
    (rows : List RecoveryWalRecord) : RecoveryWalStore :=
  (RecoveryWalStore.replayRows dates (.new budget) rows).enforceReplayBudgets

def RecoveryWalBudget.limits (budget : RecoveryWalBudget) : Sessions.Limits :=
  ⟨budget.max_sessions, budget.max_items_per_session, budget.max_global_items⟩

/-! ## The system -/

variable {dates : Dates}

/-- An append that was accepted, with the number its id was generated from. -/
structure LogEntry where
  scope : WorkingSetScope
  item : RecoveryWalItem
  number : Option Number

/-- A store, the rows of its journal as they read back, and the log. -/
structure RecoveryRun where
  store : RecoveryWalStore
  journal : List RecoveryWalRecord
  log : List LogEntry

inductive RecoveryOp (dates : Dates) where
  | append (scope : WorkingSetScope) (input : RecoveryWalItemInput) (now : Date dates)
  | mark (scope : WorkingSetScope) (id : Str) (decision : RecoveryWalMarkDecision)
      (now : Date dates)
  | restart (budget : RecoveryWalBudget)

def logged (scope : WorkingSetScope) (input : RecoveryWalItemInput) (nextId : Number) :
    Except Str RecoveryWalAppendResult → List LogEntry
  | .ok ⟨.ok item, _⟩ => [⟨scope, item, if input.id.isNone then some nextId else none⟩]
  | _ => []

def RecoveryRun.step (s : RecoveryRun) : RecoveryOp dates → Option RecoveryRun
  | .append scope input now =>
    let r := s.store.append scope input now
    some ⟨r.1, s.journal ++ r.2.1.map .reread, s.log ++ logged scope input s.store.nextId r.2.2⟩
  | .mark scope id decision now =>
    let r := s.store.mark scope id decision now
    some ⟨r.1, s.journal ++ r.2.1.map .reread, s.log⟩
  | .restart budget =>
    let store := RecoveryWalStore.load dates budget s.journal
    some ⟨store, store.compacted.map .reread, s.log⟩

def recoveryRuns (dates : Dates) : LTS RecoveryRun (RecoveryOp dates) :=
  .ofFn (fun s => ∃ budget, s = ⟨.new budget, [], []⟩) RecoveryRun.step

/-! ## What the operations do -/

namespace RecoveryWalItem

/-- What no mark changes of an item, and no reading of its row. -/
def SameRecord (a b : RecoveryWalItem) : Prop :=
  a.id = b.id ∧ a.content = b.content ∧ a.trace_id = b.trace_id ∧ a.source_ref = b.source_ref ∧
    a.created_at = b.created_at ∧ a.expires_at = b.expires_at

theorem SameRecord.refl (a : RecoveryWalItem) : a.SameRecord a := ⟨rfl, rfl, rfl, rfl, rfl, rfl⟩

theorem SameRecord.trans {a b c : RecoveryWalItem} (h : a.SameRecord b) (h' : b.SameRecord c) :
    a.SameRecord c := by
  obtain ⟨h1, h2, h3, h4, h5, h6⟩ := h
  obtain ⟨h1', h2', h3', h4', h5', h6'⟩ := h'
  exact ⟨h1.trans h1', h2.trans h2', h3.trans h3', h4.trans h4', h5.trans h5', h6.trans h6'⟩

theorem sameRecord_reread (item : RecoveryWalItem) : item.SameRecord item.reread := .refl item

end RecoveryWalItem

namespace RecoveryWalStore
variable {store : RecoveryWalStore} {now : Date dates} {T : Str → RecoveryWalItem → Prop}

/-- The store after an item has been pushed on the session of a key, and the rows of what was
trimmed for it. -/
def push (store : RecoveryWalStore) (n : WorkingSetScope) (key : Str) (item : RecoveryWalItem)
    (nextId : Number) (now : Int) : RecoveryWalStore × List RecoveryWalRecord :=
  let session := (store.sessions.lookup key).getD ⟨n, [], now⟩
  trim { store with nextId := nextId } key ⟨session.scope, session.items ++ [item], now⟩

/-- The counter after an append that got as far as to give an id. -/
def counted (store : RecoveryWalStore) (input : RecoveryWalItemInput) : Number :=
  if input.id.isNone then Number.succ store.nextId else store.nextId

theorem newItem_ok {input : RecoveryWalItemInput}
    {accepted : RecoveryWalStatus × Str × Members Number} {id : Str} {ttl_ms : Int}
    {item : RecoveryWalItem} (h : newItem input accepted id now ttl_ms = .ok item) :
    item.id = id ∧ item.content = accepted.2.1 ∧ item.metadata = accepted.2.2 := by
  unfold newItem at h
  split at h
  · cases h
    exact ⟨rfl, rfl, rfl⟩
  · cases h

/-- An append writes what has expired and, if it accepts the item, pushes it. -/
theorem append_cases (store : RecoveryWalStore) (scope : WorkingSetScope)
    (input : RecoveryWalItemInput) (now : Date dates) :
    (∃ counters nextId, store.append scope input now =
        ({ (store.purgeExpired now).1 with counters := counters, nextId := nextId },
          (store.purgeExpired now).2, (store.append scope input now).2.2) ∧
      (nextId = store.nextId ∨
        (∃ accepted, rejectionFor store.budget input = .ok accepted) ∧
          nextId = store.counted input) ∧
      ∀ item counters, (store.append scope input now).2.2 ≠ .ok ⟨.ok item, counters⟩) ∨
    ∃ n key accepted item, scopeAndKey scope = .ok (n, key) ∧
      rejectionFor store.budget input = .ok accepted ∧
      newItem input accepted (input.id.getD (rwId store.nextId)) now store.budget.ttl_ms =
        .ok item ∧
      store.append scope input now =
        let pushed := (store.purgeExpired now).1.push n key item (store.counted input) now.ms
        (pushed.1, (store.purgeExpired now).2 ++ pushed.2 ++ [.append n item],
          .ok ⟨.ok item, pushed.1.counters⟩) := by
  unfold append
  dsimp only
  split
  · exact .inl ⟨_, _, rfl, .inl rfl, fun item counters h => nomatch h⟩
  · rename_i accepted haccepted
    split
    · exact .inl ⟨_, _, rfl, .inl rfl, fun item counters h => nomatch h⟩
    · rename_i n key hscope
      split
      · exact .inl ⟨_, _, rfl, .inr ⟨⟨accepted, haccepted⟩, rfl⟩, fun item counters h => nomatch h⟩
      · rename_i item hitem
        exact .inr ⟨n, key, accepted, item, hscope, haccepted, hitem, rfl⟩

/-- A mark writes what has expired and, if it finds the item, purges or changes it. -/
theorem mark_cases (store : RecoveryWalStore) (scope : WorkingSetScope) (id : Str)
    (decision : RecoveryWalMarkDecision) (now : Date dates) :
    ((store.mark scope id decision now).1 = (store.purgeExpired now).1 ∧
      (store.mark scope id decision now).2.1 = (store.purgeExpired now).2) ∨
    ∃ n key session item counters, scopeAndKey scope = .ok (n, key) ∧
      (store.purgeExpired now).1.sessions.lookup key = some session ∧
      session.items.find? (fun candidate => candidate.id == id) = some item ∧
      (((store.mark scope id decision now).1 =
          { (store.purgeExpired now).1 with
            sessions := (store.purgeExpired now).1.sessions.setItems key session
              (session.items.filter fun candidate => candidate.id != item.id)
            counters := counters } ∧
        (store.mark scope id decision now).2.1 =
          (store.purgeExpired now).2 ++ [.purge n (some item.id)]) ∨
      ∃ action status,
        (store.mark scope id decision now).1 =
          { (store.purgeExpired now).1 with
            sessions := Assoc.set (store.purgeExpired now).1.sessions key
              ⟨session.scope, updateItem id (decided · action status now) session.items, now.ms⟩
            counters := counters } ∧
        (store.mark scope id decision now).2.1 = (store.purgeExpired now).2 ++
          [.mark n id action status (decided item action status now).reviewed_at now.text]) := by
  unfold mark
  dsimp only
  split
  · exact .inl ⟨rfl, rfl⟩
  · exact .inl ⟨rfl, rfl⟩
  · rename_i action status _ _
    split
    · exact .inl ⟨rfl, rfl⟩
    · rename_i n key hscope
      split
      · exact .inl ⟨rfl, rfl⟩
      · rename_i session hsession
        split
        · exact .inl ⟨rfl, rfl⟩
        · rename_i item hitem
          refine .inr ⟨n, key, session, item, ?_⟩
          split
          · exact ⟨_, hscope, hsession, hitem, .inl ⟨rfl, rfl⟩⟩
          · exact ⟨_, hscope, hsession, hitem, .inr ⟨action, status, rfl, rfl⟩⟩

/-- A row of what is no append. -/
def Aside (row : RecoveryWalRecord) : Prop := ∀ scope item, row ≠ .append scope item

theorem aside_purgeExpired (store : RecoveryWalStore) (now : Date dates) :
    ∀ row ∈ (store.purgeExpired now).2, Aside row := by
  intro row hrow scope item heq
  obtain ⟨e, -, rfl⟩ := mem_map.mp hrow
  cases heq

theorem aside_push (store : RecoveryWalStore) (n : WorkingSetScope) (key : Str)
    (item : RecoveryWalItem) (nextId : Number) (now : Int) :
    ∀ row ∈ (store.push n key item nextId now).2, Aside row := by
  intro row hrow scope i heq
  subst heq
  rcases mem_append.mp hrow with hrow | hrow
  · rcases mem_append.mp hrow with hrow | hrow
    · obtain ⟨e, -, h⟩ := mem_map.mp hrow
      cases h
    · obtain ⟨e, -, h⟩ := mem_map.mp hrow
      cases h
  · obtain ⟨e, -, h⟩ := mem_map.mp hrow
    cases h

theorem aside_mark (store : RecoveryWalStore) (scope : WorkingSetScope) (id : Str)
    (decision : RecoveryWalMarkDecision) (now : Date dates) :
    ∀ row ∈ (store.mark scope id decision now).2.1, Aside row := by
  intro row hrow
  rcases mark_cases store scope id decision now with
    ⟨-, heq⟩ | ⟨n, key, session, item, counters, -, -, -, ⟨-, heq⟩ | ⟨action, status, -, heq⟩⟩ <;>
    rw [heq] at hrow
  · exact aside_purgeExpired store now row hrow
  · rcases mem_append.mp hrow with hrow | hrow
    · exact aside_purgeExpired store now row hrow
    · rw [mem_singleton.mp hrow]
      exact fun scope item h => nomatch h
  · rcases mem_append.mp hrow with hrow | hrow
    · exact aside_purgeExpired store now row hrow
    · rw [mem_singleton.mp hrow]
      exact fun scope item h => nomatch h

theorem nextId_mark (store : RecoveryWalStore) (scope : WorkingSetScope) (id : Str)
    (decision : RecoveryWalMarkDecision) (now : Date dates) :
    (store.mark scope id decision now).1.nextId = store.nextId := by
  rcases mark_cases store scope id decision now with
    ⟨heq, -⟩ | ⟨n, key, session, item, counters, -, -, -, ⟨heq, -⟩ | ⟨action, status, heq, -⟩⟩ <;>
    rw [heq] <;> rfl

/-! ## What they keep -/

/-- What holds of an item holds of it after a mark. -/
def Lasting (T : Str → RecoveryWalItem → Prop) : Prop :=
  ∀ key item status last_action reviewed_at updated_at, T key item → T key
    { item with
      status := status
      last_action := last_action
      reviewed_at := reviewed_at
      updated_at := updated_at }

/-- Sessions under the keys of their scopes, and `T` of every item and its key. -/
structure Sound (T : Str → RecoveryWalItem → Prop) (m : Sessions RecoveryWalItem) : Prop where
  keyed : Sessions.Keyed m
  traced : Sessions.Traced T m

theorem mem_updateItem {id : Str} {f : RecoveryWalItem → RecoveryWalItem}
    {items : List RecoveryWalItem} {i : RecoveryWalItem} (h : i ∈ updateItem id f items) :
    ∃ j ∈ items, i = j ∨ i = f j := by
  induction items with
  | nil => cases h
  | cons item items ih =>
    unfold updateItem at h
    split at h
    · rcases mem_cons.mp h with rfl | h
      · exact ⟨item, mem_cons_self, .inr rfl⟩
      · exact ⟨i, mem_cons_of_mem _ h, .inl rfl⟩
    · rcases mem_cons.mp h with rfl | h
      · exact ⟨_, mem_cons_self, .inl rfl⟩
      · obtain ⟨j, hj, hij⟩ := ih h
        exact ⟨j, mem_cons_of_mem _ hj, hij⟩

section Sound
variable {m m' : Sessions RecoveryWalItem} {key : Str} {session : Session RecoveryWalItem}

theorem Sound.mono {T' : Str → RecoveryWalItem → Prop} (hTT : ∀ key item, T key item → T' key item)
    (h : Sound T m) : Sound T' m :=
  ⟨h.keyed, fun e he i hi => hTT _ _ (h.traced e he i hi)⟩

theorem Sound.shrinks (h : Sound T m) (hm : Sessions.Shrinks m m') : Sound T m' :=
  ⟨hm.keyed h.keyed, hm.traced h.traced⟩

theorem Sound.set (h : Sound T m) (hkey : workingSetScopeKey session.scope = .ok key)
    (hitems : ∀ i ∈ session.items, T key i) : Sound T (Assoc.set m key session) :=
  ⟨Sessions.keyed_set h.keyed hkey, Sessions.traced_set h.keyed.keys h.traced hitems⟩

/-- The items of a session change into later states of themselves. -/
theorem Sound.update (h : Sound T m) (hmem : (key, session) ∈ m) (id : Str)
    {f : RecoveryWalItem → RecoveryWalItem} (hf : ∀ i, T key i → T key (f i)) (now : Int) :
    Sound T (Assoc.set m key ⟨session.scope, updateItem id f session.items, now⟩) := by
  refine h.set (h.keyed.key _ hmem) ?_
  intro i hi
  obtain ⟨j, hj, rfl | rfl⟩ := mem_updateItem hi
  · exact h.traced _ hmem i hj
  · exact hf j (h.traced _ hmem j hj)

theorem push_sessions (store : RecoveryWalStore) (n : WorkingSetScope) (key : Str)
    (item : RecoveryWalItem) (nextId : Number) (now : Int) :
    (store.push n key item nextId now).1.sessions =
      let session := (store.sessions.lookup key).getD ⟨n, [], now⟩
      Sessions.trimmed store.budget.limits (Assoc.set store.sessions key
        (Sessions.pushed store.budget.limits session.scope session.items item now)) := rfl

theorem Sound.push (h : Sound T store.sessions) {n : WorkingSetScope}
    (hkey : workingSetScopeKey n = .ok key) {item : RecoveryWalItem} (hitem : T key item)
    (nextId : Number) (now : Int) : Sound T (store.push n key item nextId now).1.sessions := by
  rw [push_sessions]
  exact ⟨Sessions.keyed_push _ h.keyed hkey item now,
    Sessions.traced_push h.keyed.keys h.traced hitem n⟩

theorem Sound.purgeExpired (h : Sound T store.sessions) (now : Date dates) :
    Sound T (store.purgeExpired now).1.sessions :=
  h.shrinks (Sessions.shrinks_keep _ _)

theorem Sound.mark (hT : Lasting T) (h : Sound T store.sessions) (scope : WorkingSetScope)
    (id : Str) (decision : RecoveryWalMarkDecision) (now : Date dates) :
    Sound T (store.mark scope id decision now).1.sessions := by
  have hpurged := h.purgeExpired now
  rcases mark_cases store scope id decision now with
    ⟨heq, -⟩ | ⟨n, key, session, item, counters, -, hlookup, -, ⟨heq, -⟩ | ⟨action, status, heq, -⟩⟩
  · rw [heq]
    exact hpurged
  · rw [heq]
    exact hpurged.shrinks (Sessions.shrinks_setItems hpurged.keyed.keys
      (Sessions.mem_of_lookup hlookup) filter_sublist.subset)
  · rw [heq]
    refine hpurged.update (Sessions.mem_of_lookup hlookup) id ?_ now.ms
    exact fun i => hT key i _ _ _ _

/-! ### Replay -/

/-- `T` of the item of an append and the key of its scope. -/
def Recorded (T : Str → RecoveryWalItem → Prop) (row : RecoveryWalRecord) : Prop :=
  ∀ scope item, row = .append scope item → ∀ key, workingSetScopeKey scope = .ok key → T key item

theorem Recorded.mono {T' : Str → RecoveryWalItem → Prop} (hTT : ∀ key item, T key item → T' key item)
    {row : RecoveryWalRecord} (h : Recorded T row) : Recorded T' row :=
  fun scope item heq key hkey => hTT key item (h scope item heq key hkey)

/-- The row of what is no append says nothing of an item. -/
theorem Aside.recorded {row : RecoveryWalRecord} (h : Aside row) : Recorded T row.reread := by
  intro scope item heq
  cases row with
  | append scope' item' => exact absurd rfl (h scope' item')
  | mark _ _ _ _ _ _ => cases heq
  | purge _ _ => cases heq

theorem budget_apply (dates : Dates) (store : RecoveryWalStore) (row : RecoveryWalRecord) :
    (applyWalRecord dates store row).budget = store.budget := by
  unfold applyWalRecord
  split
  · split
    · rfl
    · unfold applyAppendRecord
      split
      · rfl
      · rfl
  · split
    · rfl
    · split
      · rfl
      · rfl
  · split
    · rfl
    · split
      · rfl
      · split
        · rfl
        · rfl

theorem budget_replay (dates : Dates) (store : RecoveryWalStore) (rows : List RecoveryWalRecord) :
    (replayRows dates store rows).budget = store.budget := by
  induction rows generalizing store with
  | nil => rfl
  | cons row rows ih => exact (ih (applyWalRecord dates store row)).trans (budget_apply dates store row)

/-- `T` of the item of an append that a budget lets in, and the key of its scope. -/
def Admits (T : Str → RecoveryWalItem → Prop) (budget : RecoveryWalBudget)
    (row : RecoveryWalRecord) : Prop :=
  ∀ scope item, row = .append scope item → isReplayItemWithinBudget budget item = true →
    ∀ key, workingSetScopeKey scope = .ok key → T key item

theorem Recorded.admits {row : RecoveryWalRecord} (h : Recorded T row)
    (budget : RecoveryWalBudget) : Admits T budget row :=
  fun scope item heq _ => h scope item heq

theorem Sound.apply (hT : Lasting T) (h : Sound T store.sessions) {row : RecoveryWalRecord}
    (hrow : Admits T store.budget row) : Sound T (applyWalRecord dates store row).sessions := by
  unfold applyWalRecord
  split
  · rename_i scope item
    split
    · exact h
    · rename_i key hkey
      unfold applyAppendRecord
      split
      · rename_i hfits
        refine h.set (Sessions.key_of_lookup h.keyed hkey) ?_
        intro i hi
        rcases mem_append.mp hi with hi | hi
        · cases hlookup : store.sessions.lookup key with
          | none =>
            rw [hlookup] at hi
            cases hi
          | some session =>
            rw [hlookup] at hi
            exact h.traced _ (Sessions.mem_of_lookup hlookup) i hi
        · rw [mem_singleton.mp hi]
          exact hrow scope item rfl hfits key hkey
      · exact h
  · split
    · exact h
    · split
      · exact h
      · rename_i hlookup
        refine h.shrinks (Sessions.shrinks_setItems h.keyed.keys
          (Sessions.mem_of_lookup hlookup) ?_)
        split
        · exact nil_subset _
        · exact nil_subset _
        · exact filter_sublist.subset
  · split
    · exact h
    · split
      · exact h
      · rename_i hlookup
        split
        · refine h.update (Sessions.mem_of_lookup hlookup) _ ?_ _
          exact fun i => hT _ i _ _ _ _
        · exact h

theorem Sound.replay (dates : Dates) (hT : Lasting T) (h : Sound T store.sessions) {rows : List RecoveryWalRecord}
    (hrows : ∀ row ∈ rows, Admits T store.budget row) :
    Sound T (replayRows dates store rows).sessions := by
  induction rows generalizing store with
  | nil => exact h
  | cons row rows ih =>
    refine ih (h.apply hT (hrows row mem_cons_self)) ?_
    intro row' hrow'
    rw [budget_apply]
    exact hrows row' (mem_cons_of_mem _ hrow')

/-- The sessions after the first loop of `enforceReplayBudgets`. -/
def cut (limit : Int) (m : Sessions RecoveryWalItem) : Sessions RecoveryWalItem :=
  (m.map fun e => (e.1, { e.2 with
    items := e.2.items.drop (Sessions.overflow limit e.2.items) })).filter fun e =>
      !e.2.items.isEmpty

theorem enforce_sessions (store : RecoveryWalStore) :
    store.enforceReplayBudgets.sessions = Sessions.trimmed store.budget.limits
      (cut store.budget.max_items_per_session store.sessions) := rfl

theorem shrinks_cut (limit : Int) (m : Sessions RecoveryWalItem) :
    Sessions.Shrinks m (cut limit m) :=
  (Sessions.shrinks_map (fun items => drop_subset (Sessions.overflow limit items) items)
    m).trans (Sessions.shrinks_filter _ _)

theorem shrinks_enforce (store : RecoveryWalStore) (hm : (store.sessions.map Prod.fst).Nodup) :
    Sessions.Shrinks store.sessions store.enforceReplayBudgets.sessions := by
  have hcut := shrinks_cut store.budget.max_items_per_session store.sessions
  rw [enforce_sessions]
  exact hcut.trans (Sessions.shrinks_trimmed store.budget.limits (hcut.keys.nodup hm))

theorem sound_new (T : Str → RecoveryWalItem → Prop) (budget : RecoveryWalBudget) :
    Sound T (RecoveryWalStore.new budget).sessions :=
  ⟨⟨nodup_nil, fun _ he => nomatch he⟩, fun _ he => nomatch he⟩

theorem Sound.load (dates : Dates) (hT : Lasting T) (budget : RecoveryWalBudget) {rows : List RecoveryWalRecord}
    (hrows : ∀ row ∈ rows, Admits T budget row) : Sound T (load dates budget rows).sessions := by
  have hreplay := (sound_new T budget).replay dates hT hrows
  exact hreplay.shrinks (shrinks_enforce _ hreplay.keyed.keys)

theorem Sound.compacted (hread : ∀ key item, T key item → T key item.reread)
    (h : Sound T store.sessions) :
    ∀ row ∈ store.compacted.map .reread, Recorded T row := by
  intro row hrow scope item hitem key hkey
  obtain ⟨written, hwritten, rfl⟩ := mem_map.mp hrow
  obtain ⟨e, he, hwritten⟩ := mem_flatMap.mp hwritten
  obtain ⟨i, hi, rfl⟩ := mem_map.mp hwritten
  cases hitem
  rw [h.keyed.key e he] at hkey
  cases hkey
  exact hread _ i (h.traced e he i hi)

end Sound

end RecoveryWalStore

/-! ## Small runs -/

def recoveryScope (channel : String) : WorkingSetScope :=
  ⟨units "ns", units "agent", units "discord", units "server", units channel, none, units "main"⟩

def plainInput : RecoveryWalItemInput := ⟨none, units "hello", none, none, none, .absent⟩

def recoveryDate : Date utcDates := utcDate 1785000000000 isSome_iso_sample

end OpenBrain.Server.Realtime
