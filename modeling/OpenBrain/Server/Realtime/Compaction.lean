import OpenBrain.Server.Realtime.RecoveryRun

/-!
# Compaction of a journal (`compactWal`)

A compacted journal has an append row for every item and nothing else. What a replay of it makes
of a session is its items, with the time of the last of them; of the counter, what the ids say;
of the counters of the store, nothing. A store that lost no more than that (`Restorable`) comes
back as it was but for its counters (`load_compacted`), and so answers every later call alike.
-/
namespace OpenBrain.Server.Realtime
open OpenBrain.Core OpenBrain.Core.Ecma List

variable {dates : Dates}

/-! ## Calls and their answers -/

inductive RecoveryCall (dates : Dates) where
  | append (scope : WorkingSetScope) (input : RecoveryWalItemInput) (now : Date dates)
  | mark (scope : WorkingSetScope) (id : Str) (decision : RecoveryWalMarkDecision)
      (now : Date dates)
  | fragment (scope : WorkingSetScope) (now : Date dates)

inductive RecoveryAnswer where
  | append (result : Except Str RecoveryWalAppendResult)
  | mark (result : Except Str RecoveryWalMarkResult)
  | fragment (result : Except Str RecoveryWalFragment)

namespace RecoveryWalStore

def answer (sha256 : Str → Str) (store : RecoveryWalStore) :
    RecoveryCall dates → RecoveryWalStore × RecoveryAnswer
  | .append scope input now =>
    let r := store.append scope input now
    (r.1, .append r.2.2)
  | .mark scope id decision now =>
    let r := store.mark scope id decision now
    (r.1, .mark r.2.2)
  | .fragment scope now => (store, .fragment (store.buildContextPackFragment sha256 scope now))

def answers (sha256 : Str → Str) : RecoveryWalStore → List (RecoveryCall dates) →
    List RecoveryAnswer
  | _, [] => []
  | store, call :: calls =>
    let r := store.answer sha256 call
    r.2 :: r.1.answers sha256 calls

/-- A store that begins with the journal that `compactWal` writes. -/
def reload (dates : Dates) (store : RecoveryWalStore) : RecoveryWalStore :=
  load dates store.budget (store.compacted.map .reread)

end RecoveryWalStore

def noCounters : RecoveryWalCounters := ⟨0, 0, 0, 0, 0⟩

def RecoveryAnswer.uncounted : RecoveryAnswer → RecoveryAnswer
  | .append result => .append (result.map fun r => ⟨r.outcome, noCounters⟩)
  | .mark result => .mark (result.map fun r => ⟨r.outcome, noCounters⟩)
  | .fragment result => .fragment (result.map fun r => { r with counters := noCounters })

namespace RecoveryWalStore

/-! ## Counters -/

section Counters
variable {store : RecoveryWalStore} {now : Date dates}

def recount (store : RecoveryWalStore) (counters : RecoveryWalCounters) : RecoveryWalStore :=
  { store with counters := counters }

theorem answer_recount (sha256 : Str → Str) (store : RecoveryWalStore)
    (counters : RecoveryWalCounters) (call : RecoveryCall dates) :
    (∃ counters', ((store.recount counters).answer sha256 call).1 =
      (store.answer sha256 call).1.recount counters') ∧
    ((store.recount counters).answer sha256 call).2.uncounted =
      (store.answer sha256 call).2.uncounted := by
  cases call with
  | append scope input now =>
    unfold answer append recount
    dsimp only [purgeExpired]
    split
    · exact ⟨⟨_, rfl⟩, rfl⟩
    · split
      · exact ⟨⟨_, rfl⟩, rfl⟩
      · split
        · exact ⟨⟨_, rfl⟩, rfl⟩
        · exact ⟨⟨_, rfl⟩, rfl⟩
  | mark scope id decision now =>
    unfold answer mark recount
    dsimp only [purgeExpired]
    split
    · exact ⟨⟨_, rfl⟩, rfl⟩
    · exact ⟨⟨_, rfl⟩, rfl⟩
    · split
      · exact ⟨⟨_, rfl⟩, rfl⟩
      · split
        · exact ⟨⟨_, rfl⟩, rfl⟩
        · split
          · exact ⟨⟨_, rfl⟩, rfl⟩
          · split
            · exact ⟨⟨_, rfl⟩, rfl⟩
            · exact ⟨⟨_, rfl⟩, rfl⟩
  | fragment scope now =>
    refine ⟨⟨counters, rfl⟩, ?_⟩
    unfold answer buildContextPackFragment recount
    dsimp only
    cases scopeAndKey scope with
    | error e => rfl
    | ok r =>
      dsimp only [bind, Except.bind]
      generalize Sessions.scopeDenialsFor sha256 _ r.1 r.2 store.sessions = denials
      cases denials with
      | error e => rfl
      | ok denials => rfl

theorem answers_recount (sha256 : Str → Str) (store : RecoveryWalStore)
    (counters : RecoveryWalCounters) (calls : List (RecoveryCall dates)) :
    ((store.recount counters).answers sha256 calls).map RecoveryAnswer.uncounted =
      (store.answers sha256 calls).map RecoveryAnswer.uncounted := by
  induction calls generalizing store counters with
  | nil => rfl
  | cons call calls ih =>
    obtain ⟨⟨counters', hstore⟩, hanswer⟩ := answer_recount sha256 store counters call
    unfold answers
    dsimp only
    rw [map_cons, map_cons, hanswer, hstore, ih]

end Counters

/-! ## Replaying a compacted journal -/

section Replay
variable {budget : RecoveryWalBudget} {counters : RecoveryWalCounters} {key : Str}
  {scope : WorkingSetScope}

/-- The time of a session whose items are appended one by one. -/
def lastUpdate (dates : Dates) (t : Int) (items : List RecoveryWalItem) : Int :=
  items.foldl (fun _ item => (dates.parse item.updated_at).getD 0) t

def trackItems (nextId : Number) (items : List RecoveryWalItem) : Number :=
  items.foldl (fun n item => trackNextId n item.id) nextId

theorem apply_append (dates : Dates) (store : RecoveryWalStore)
    (hkey : workingSetScopeKey scope = .ok key) (item : RecoveryWalItem) :
    applyWalRecord dates store (.append scope item) =
      applyAppendRecord dates store key scope item := by
  unfold applyWalRecord
  dsimp only
  rw [hkey]

theorem replay_items (hkey : workingSetScopeKey scope = .ok key) {front : Sessions RecoveryWalItem}
    (hfront : key ∉ front.map Prod.fst) {items : List RecoveryWalItem}
    (hfits : ∀ i ∈ items, isReplayItemWithinBudget budget i = true)
    (old : List RecoveryWalItem) (t : Int) (nextId : Number) :
    replayRows dates ⟨budget, front ++ [(key, ⟨scope, old, t⟩)], counters, nextId⟩
        (items.map (.append scope ·)) =
      ⟨budget, front ++ [(key, ⟨scope, old ++ items, lastUpdate dates t items⟩)], counters,
        trackItems nextId items⟩ := by
  induction items generalizing old t nextId with
  | nil =>
    rw [append_nil]
    rfl
  | cons item items ih =>
    have hlookup : (front ++ [(key, (⟨scope, old, t⟩ : Session RecoveryWalItem))]).lookup key =
        some ⟨scope, old, t⟩ := by
      rw [lookup_append, Assoc.lookup_of_notMem hfront, lookup_cons_self]
      rfl
    have hfirst : applyWalRecord dates
          ⟨budget, front ++ [(key, ⟨scope, old, t⟩)], counters, nextId⟩ (.append scope item) =
        ⟨budget, front ++ [(key, ⟨scope, old ++ [item], (dates.parse item.updated_at).getD 0⟩)],
          counters, trackNextId nextId item.id⟩ := by
      rw [apply_append dates _ hkey]
      unfold applyAppendRecord
      dsimp only
      rw [if_pos (hfits item mem_cons_self), hlookup]
      dsimp only [Option.getD_some]
      rw [Sessions.set_split hfront]
    show replayRows dates (applyWalRecord dates _ (.append scope item)) _ = _
    rw [hfirst, ih fun i hi => hfits i (mem_cons_of_mem _ hi), append_assoc]
    rfl

theorem replay_session (hkey : workingSetScopeKey scope = .ok key)
    {front : Sessions RecoveryWalItem} (hfront : key ∉ front.map Prod.fst)
    {items : List RecoveryWalItem} (hne : items ≠ [])
    (hfits : ∀ i ∈ items, isReplayItemWithinBudget budget i = true) (nextId : Number) :
    replayRows dates ⟨budget, front, counters, nextId⟩ (items.map (.append scope ·)) =
      ⟨budget, front ++ [(key, ⟨scope, items, lastUpdate dates 0 items⟩)], counters,
        trackItems nextId items⟩ := by
  cases items with
  | nil => exact absurd rfl hne
  | cons item items =>
    have hfirst : applyWalRecord dates ⟨budget, front, counters, nextId⟩ (.append scope item) =
        ⟨budget, front ++ [(key, ⟨scope, [item], (dates.parse item.updated_at).getD 0⟩)],
          counters, trackNextId nextId item.id⟩ := by
      rw [apply_append dates _ hkey]
      unfold applyAppendRecord
      dsimp only
      rw [if_pos (hfits item mem_cons_self), Assoc.lookup_of_notMem hfront]
      dsimp only [Option.getD_none]
      rw [Assoc.set_of_notMem hfront]
      rfl
    show replayRows dates (applyWalRecord dates _ (.append scope item)) _ = _
    rw [hfirst, replay_items hkey hfront fun i hi => hfits i (mem_cons_of_mem _ hi)]
    rfl

theorem replay_sessions {front back : Sessions RecoveryWalItem}
    (hkeys : ∀ e ∈ back, workingSetScopeKey e.2.scope = .ok e.1)
    (hnodup : ((front ++ back).map Prod.fst).Nodup) (hfilled : Sessions.Filled back)
    (hfits : ∀ e ∈ back, ∀ i ∈ e.2.items, isReplayItemWithinBudget budget i = true)
    (hrecent : ∀ e ∈ back, lastUpdate dates 0 e.2.items = e.2.updated_at_ms) (nextId : Number) :
    replayRows dates ⟨budget, front, counters, nextId⟩
        (back.flatMap fun e => e.2.items.map fun item => .append e.2.scope item) =
      ⟨budget, front ++ back, counters, trackItems nextId (back.flatMap fun e => e.2.items)⟩ := by
  induction back generalizing front nextId with
  | nil =>
    rw [append_nil]
    rfl
  | cons e back ih =>
    have hmem : e ∈ e :: back := mem_cons_self
    have hnew : e.1 ∉ front.map Prod.fst := by
      rw [map_append, nodup_append] at hnodup
      exact fun hin => hnodup.2.2 _ hin e.1 (mem_map_of_mem hmem) rfl
    have hfirst : replayRows dates ⟨budget, front, counters, nextId⟩ _ = _ :=
      replay_session (hkeys e hmem) hnew (hfilled e hmem) (hfits e hmem) nextId
    rw [hrecent e hmem] at hfirst
    have hnodup' : ((front ++ [e] ++ back).map Prod.fst).Nodup := by
      rw [append_assoc]
      exact hnodup
    have hrest := ih (fun e' he' => hkeys e' (mem_cons_of_mem e he')) hnodup'
      (fun e' he' => hfilled e' (mem_cons_of_mem e he'))
      (fun e' he' => hfits e' (mem_cons_of_mem e he'))
      (fun e' he' => hrecent e' (mem_cons_of_mem e he')) (trackItems nextId e.2.items)
    rw [flatMap_cons, flatMap_cons]
    unfold replayRows trackItems at hfirst hrest ⊢
    rw [foldl_append, foldl_append, hfirst, hrest, append_assoc]
    rfl

end Replay

/-! ## What comes back -/

/-- A store whose rows say all of it but its counters: no session is empty, each was last written
to at the time of its last item, the counter is what the ids put it to, and the metadata reads
back as it is. -/
structure Restorable (dates : Dates) (store : RecoveryWalStore) : Prop where
  filled : ∀ e ∈ store.sessions, e.2.items ≠ []
  recent : ∀ e ∈ store.sessions, lastUpdate dates 0 e.2.items = e.2.updated_at_ms
  counted : trackItems (Number.ofDec (Dec.make false 1 0))
    (store.sessions.flatMap fun e => e.2.items) = store.nextId
  metadata : ∀ e ∈ store.sessions, ∀ i ∈ e.2.items, rereadMembers i.metadata = i.metadata

structure Bounded (store : RecoveryWalStore) : Prop where
  sound : Sound (fun _ i => isReplayItemWithinBudget store.budget i = true) store.sessions
  fit : Sessions.Fit store.budget.limits store.sessions

/-! ### Every store is within its budget -/

section Bounded
variable {store : RecoveryWalStore} {now : Date dates}

theorem fits_of_accepted {budget : RecoveryWalBudget} {input : RecoveryWalItemInput}
    {accepted : RecoveryWalStatus × Str × Members Number}
    (h : rejectionFor budget input = .ok accepted) {id : Str} {ttl_ms : Int}
    {item : RecoveryWalItem} (hitem : newItem input accepted id now ttl_ms = .ok item) :
    isReplayItemWithinBudget budget item = true := by
  obtain ⟨-, hcontent, hmetadata⟩ := newItem_ok hitem
  unfold isReplayItemWithinBudget
  rw [hcontent, hmetadata, Bool.and_eq_true, decide_eq_true_eq, decide_eq_true_eq]
  unfold rejectionFor at h
  split at h
  · cases h
  · dsimp only at h
    split at h
    · cases h
    · split at h
      · cases h
      · rename_i hsize
        split at h
        · cases h
        · rename_i metadata chars hserialized
          split at h
          · cases h
          · rename_i hchars
            cases h
            refine ⟨Int.not_lt.mp hsize, ?_⟩
            rw [← MetadataInput.serialized_ok hserialized]
            exact Int.not_lt.mp hchars

theorem length_updateItem (id : Str) (f : RecoveryWalItem → RecoveryWalItem)
    (items : List RecoveryWalItem) : (updateItem id f items).length = items.length := by
  induction items with
  | nil => rfl
  | cons item items ih =>
    unfold updateItem
    split
    · rfl
    · rw [length_cons, length_cons, ih]

theorem Bounded.purgeExpired (h : store.Bounded) (now : Date dates) :
    (store.purgeExpired now).1.Bounded := by
  refine ⟨h.sound.purgeExpired now, h.fit.mono ?_ ?_ ?_⟩
  · exact Sessions.globalItemCount_keep _ _
  · exact (Sessions.shrinks_keep _ _).length
  · exact Sessions.shorter_keep _ _

theorem Bounded.push (h : store.Bounded) {n : WorkingSetScope} {key : Str}
    (hkey : workingSetScopeKey n = .ok key) {item : RecoveryWalItem}
    (hitem : isReplayItemWithinBudget store.budget item = true) (nextId : Number) (now : Int) :
    (store.push n key item nextId now).1.Bounded := by
  refine ⟨h.sound.push hkey hitem nextId now, ?_⟩
  rw [push_sessions]
  show Sessions.Fit store.budget.limits _
  refine Sessions.fit_trimmed (Assoc.nodup_set h.sound.keyed.keys _ _) ?_
  intro e he
  rcases (Sessions.mem_set h.sound.keyed.keys).mp he with rfl | ⟨he, -⟩
  · unfold Sessions.pushed Sessions.overflow
    dsimp only
    rw [List.length_drop]
    omega
  · exact h.fit.items e he

theorem Bounded.append (h : store.Bounded) (scope : WorkingSetScope)
    (input : RecoveryWalItemInput) : (store.append scope input now).1.Bounded := by
  have hpurged := h.purgeExpired now
  rcases append_cases store scope input now with
    ⟨counters, nextId, heq, -, -⟩ | ⟨n, key, accepted, item, hscope, haccepted, hitem, heq⟩
  · rw [heq]
    exact ⟨hpurged.sound, hpurged.fit⟩
  · obtain ⟨hnorm, rfl⟩ := scopeAndKey_ok hscope
    rw [heq]
    exact hpurged.push (key_of_normalize (normalize_normalized hnorm))
      (fits_of_accepted haccepted hitem) _ _

theorem Bounded.mark (h : store.Bounded) (scope : WorkingSetScope) (id : Str)
    (decision : RecoveryWalMarkDecision) : (store.mark scope id decision now).1.Bounded := by
  have hpurged := h.purgeExpired now
  have hnodup := hpurged.sound.keyed.keys
  have hsound := h.sound.mark (fun _ _ _ _ _ _ hi => hi) scope id decision now
  rcases mark_cases store scope id decision now with
    ⟨heq, -⟩ | ⟨n, key, session, item, counters, -, hlookup, -, ⟨heq, -⟩ | ⟨action, status, heq, -⟩⟩
  · rw [heq]
    exact hpurged
  · have hmem := Sessions.mem_of_lookup hlookup
    rw [heq] at hsound ⊢
    refine ⟨hsound, hpurged.fit.mono ?_ ?_ ?_⟩
    · have hcount := Sessions.globalItemCount_setItems hnodup hmem
        (session.items.filter fun candidate => candidate.id != item.id)
      have hfewer := length_filter_le (fun candidate => candidate.id != item.id) session.items
      dsimp only
      omega
    · exact (Sessions.shrinks_setItems hnodup hmem filter_sublist.subset).length
    · exact Sessions.shorter_setItems hnodup hmem (length_filter_le _ _)
  · have hmem := Sessions.mem_of_lookup hlookup
    rw [heq] at hsound ⊢
    have hsame := length_updateItem id (decided · action status now) session.items
    refine ⟨hsound, hpurged.fit.mono ?_ ?_ ?_⟩
    · have hcount := Sessions.globalItemCount_set hnodup hmem
        ⟨session.scope, updateItem id (decided · action status now) session.items, now.ms⟩
      dsimp only at hcount ⊢
      omega
    · refine Nat.le_of_eq ?_
      dsimp only
      rw [← length_map, Assoc.keys_set, if_pos (mem_map.mpr ⟨_, hmem, rfl⟩),
        length_map]
    · exact Sessions.shorter_set hnodup hmem (Nat.le_of_eq hsame)

theorem bounded_load (dates : Dates) (budget : RecoveryWalBudget) (rows : List RecoveryWalRecord) :
    (load dates budget rows).Bounded := by
  have hbudget : (replayRows dates (new budget) rows).budget = budget := budget_replay dates _ rows
  have hsame : (load dates budget rows).budget = budget := hbudget
  have hreplay : Sound (fun _ i => isReplayItemWithinBudget budget i = true)
      (replayRows dates (new budget) rows).sessions :=
    (sound_new _ budget).replay dates (fun _ _ _ _ _ _ hi => hi) fun row _ scope item _ hfits _ _ =>
      hfits
  have hload := hreplay.shrinks (shrinks_enforce _ hreplay.keyed.keys)
  refine ⟨?_, ?_⟩
  · rw [hsame]
    exact hload
  · rw [hsame]
    unfold load
    rw [enforce_sessions, hbudget]
    refine Sessions.fit_trimmed ?_ ?_
    · exact (shrinks_cut _ _).keys.nodup hreplay.keyed.keys
    · intro e he
      obtain ⟨e', -, rfl⟩ := mem_map.mp (mem_of_mem_filter he)
      unfold Sessions.overflow RecoveryWalBudget.limits
      dsimp only
      rw [List.length_drop]
      omega

end Bounded

theorem trimmed_eq {m : Sessions RecoveryWalItem} {limits : Sessions.Limits}
    (h : Sessions.Fit limits m) : (m.trimGlobal limits.global m.rounds) = (m, []) ∧
      (m.trimSessions limits.sessions m.length) = (m, []) := by
  rcases h.whole with rfl | ⟨hglobal, hsessions⟩
  · exact ⟨rfl, rfl⟩
  · exact ⟨Sessions.trimGlobal_of_le hglobal _, Sessions.trimSessions_of_le hsessions _⟩

/-- A budget takes nothing of what is within it. -/
theorem enforce_eq {store : RecoveryWalStore} (h : Sessions.Fit store.budget.limits store.sessions)
    (hfilled : ∀ e ∈ store.sessions, e.2.items ≠ []) : store.enforceReplayBudgets = store := by
  have hover : ∀ e ∈ store.sessions,
      Sessions.overflow store.budget.max_items_per_session e.2.items = 0 := by
    intro e he
    have hmax := h.items e he
    have hpos := length_pos_iff.mpr (hfilled e he)
    unfold Sessions.overflow RecoveryWalBudget.limits at *
    dsimp only at hmax
    omega
  have hsum : (store.sessions.map fun e =>
      Sessions.overflow store.budget.max_items_per_session e.2.items).sum = 0 := by
    rw [map_congr_left hover]
    simp
  have hmap : (store.sessions.map fun e => (e.1, { e.2 with
      items := e.2.items.drop
        (Sessions.overflow store.budget.max_items_per_session e.2.items) })) = store.sessions := by
    refine (map_congr_left ?_).trans (List.map_id _)
    intro e he
    rw [hover e he]
    rfl
  have hfilter : (store.sessions.filter fun e => !e.2.items.isEmpty) = store.sessions := by
    rw [filter_eq_self]
    intro e he
    simpa using hfilled e he
  obtain ⟨hglobal, hsessions⟩ := trimmed_eq h
  unfold RecoveryWalBudget.limits at hglobal hsessions
  dsimp only at hglobal hsessions
  unfold enforceReplayBudgets
  dsimp only
  rw [hmap, hfilter, hsum, hglobal]
  dsimp only
  rw [hsessions]
  rfl

theorem load_compacted {store : RecoveryWalStore} (h : store.Bounded)
    (hr : store.Restorable dates) : store.reload dates = store.recount noCounters := by
  have hrows : store.compacted.map RecoveryWalRecord.reread = store.compacted := by
    refine (map_congr_left ?_).trans (List.map_id _)
    intro row hrow
    obtain ⟨e, he, hrow⟩ := mem_flatMap.mp hrow
    obtain ⟨i, hi, rfl⟩ := mem_map.mp hrow
    unfold RecoveryWalRecord.reread RecoveryWalItem.reread
    dsimp only
    rw [hr.metadata e he i hi]
    rfl
  have hnodup : (([] ++ store.sessions).map Prod.fst).Nodup := h.sound.keyed.keys
  have hreplay : replayRows dates ⟨store.budget, [], noCounters, _⟩ _ = _ :=
    replay_sessions h.sound.keyed.key hnodup hr.filled h.sound.traced hr.recent
      (Number.ofDec (Dec.make false 1 0))
  rw [hr.counted] at hreplay
  unfold reload load
  rw [hrows]
  unfold compacted new
  refine (congrArg enforceReplayBudgets hreplay).trans ?_
  exact enforce_eq h.fit hr.filled

/-- Every later call is answered alike by the store and by what comes back of it. -/
def Lossless (dates : Dates) (sha256 : Str → Str) (store : RecoveryWalStore) : Prop :=
  ∀ calls : List (RecoveryCall dates), (store.reload dates).answers sha256 calls =
    store.answers sha256 calls

end RecoveryWalStore

theorem bounded_of_reachable {s : RecoveryRun} (hs : (recoveryRuns dates).Reachable s) :
    s.store.Bounded := by
  refine LTS.InductiveOn.reachable (I := fun s : RecoveryRun => s.store.Bounded) ⟨?_, ?_⟩ hs
  · rintro s ⟨budget, rfl⟩
    exact ⟨RecoveryWalStore.sound_new _ budget, ⟨fun _ he => (nomatch he), .inl rfl⟩⟩
  · intro s op s' h _ hstep
    cases op with
    | append scope input now =>
      cases hstep
      exact h.append scope input
    | mark scope id decision now =>
      cases hstep
      exact h.mark scope id decision
    | restart budget =>
      cases hstep
      exact RecoveryWalStore.bounded_load dates budget s.journal

theorem counters_of_lossless {s : RecoveryRun} (hs : (recoveryRuns dates).Reachable s)
    {sha256 : Str → Str} (now : Date dates) {counters : RecoveryWalCounters}
    (h : (s.store.recount counters).answers sha256 [.fragment (recoveryScope "1") now] =
      s.store.answers sha256 [.fragment (recoveryScope "1") now]) :
    s.store.counters = counters := by
  have hscope : scopeAndKey (recoveryScope "1") =
      .ok (recoveryScope "1", scopeText (recoveryScope "1")) := by
    rfl
  obtain ⟨hnorm, hkey⟩ := scopeAndKey_ok hscope
  obtain ⟨denials, hdenials⟩ := Sessions.denials_ok sha256
    (fun session => session.items.any (isPendingAt dates · now.ms))
    (bounded_of_reachable hs).sound.keyed hnorm (scopeText (recoveryScope "1"))
  have hfragment := RecoveryAnswer.fragment.inj (List.cons.inj h).1
  unfold RecoveryWalStore.recount RecoveryWalStore.buildContextPackFragment at hfragment
  rw [hscope] at hfragment
  dsimp only [bind, Except.bind] at hfragment
  rw [hdenials] at hfragment
  exact (congrArg RecoveryWalFragment.counters (Except.ok.inj hfragment)).symm

/-- What comes back of a restorable store answers like it but for the counters, and like it in
all if nothing has been counted. -/
theorem compaction_lossless {s : RecoveryRun} (hs : (recoveryRuns dates).Reachable s)
    (hr : s.store.Restorable dates) (sha256 : Str → Str) (now : Date dates) :
    (s.store.Lossless dates sha256 ↔ s.store.counters = noCounters) ∧
      ∀ calls : List (RecoveryCall dates),
        ((s.store.reload dates).answers sha256 calls).map RecoveryAnswer.uncounted =
          (s.store.answers sha256 calls).map RecoveryAnswer.uncounted := by
  have hload := RecoveryWalStore.load_compacted (bounded_of_reachable hs) hr
  refine ⟨⟨?_, ?_⟩, ?_⟩
  · intro hlossless
    have hcall := hlossless [.fragment (recoveryScope "1") now]
    rw [hload] at hcall
    exact counters_of_lossless hs now hcall
  · intro hcounters calls
    rw [hload, ← hcounters]
    rfl
  · intro calls
    rw [hload]
    exact RecoveryWalStore.answers_recount sha256 s.store noCounters calls

/-! ## Runs -/

/-- Two sessions of one item each come back as they were. -/
theorem compaction_lossless_two : ∃ s, (recoveryRuns utcDates).Reachable s ∧
    s.store.sessions.length = 2 ∧ s.store.Lossless utcDates id := by
  have hrun : (LTS.exec RecoveryRun.step ⟨.new DEFAULT_RECOVERY_WAL_BUDGET, [], []⟩
      [.append (recoveryScope "1") plainInput recoveryDate,
        .append (recoveryScope "2") plainInput recoveryDate]).any (fun s =>
        (s.store.sessions.all fun e => !e.2.items.isEmpty &&
          decide (RecoveryWalStore.lastUpdate utcDates 0 e.2.items = e.2.updated_at_ms) &&
          e.2.items.all fun i => i.metadata.isEmpty) &&
        decide (RecoveryWalStore.trackItems (Number.ofDec (Dec.make false 1 0))
          (s.store.sessions.flatMap fun e => e.2.items) = s.store.nextId) &&
        decide (s.store.counters.dropped = 0 ∧ s.store.counters.expired = 0 ∧
          s.store.counters.trimmed = 0 ∧ s.store.counters.marked = 0 ∧
          s.store.counters.purged = 0) &&
        decide (s.store.sessions.length = 2)) = true := by
    decide +kernel
  obtain ⟨s, hs, h⟩ := (Option.any_eq_true _ _).mp hrun
  simp only [Bool.and_eq_true, all_eq_true, decide_eq_true_eq, Bool.not_eq_true',
    isEmpty_eq_false_iff, List.isEmpty_iff] at h
  obtain ⟨⟨⟨hsessions, hcounted⟩, h1, h2, h3, h4, h5⟩, hlength⟩ := h
  have hreach : (recoveryRuns utcDates).Reachable s :=
    ⟨_, _, ⟨DEFAULT_RECOVERY_WAL_BUDGET, rfl⟩, LTS.runOn_of_exec_any hs⟩
  have hr : s.store.Restorable utcDates :=
    { filled := fun e he => (hsessions e he).1.1
      recent := fun e he => (hsessions e he).1.2
      counted := hcounted
      metadata := fun e he i hi => by
        rw [(hsessions e he).2 i hi]
        rfl }
  have hcounters : s.store.counters = noCounters := by
    cases hc : s.store.counters with
    | mk dropped expired trimmed marked purged =>
      rw [hc] at h1 h2 h3 h4 h5
      subst h1 h2 h3 h4 h5
      rfl
  exact ⟨s, hreach, hlength,
    (compaction_lossless hreach hr id recoveryDate).1.mpr hcounters⟩

def RecoveryAnswer.itemCount : RecoveryAnswer → Nat
  | .fragment (.ok f) => f.items.length
  | _ => 0

/-- With room for two sessions, the mark of an older item makes its session the newer one; what
comes back has the time of the last item again, and the next session puts it out. -/
theorem marked_session_lost :
    ¬ ∀ s, (recoveryRuns utcDates).Reachable s → s.store.Lossless utcDates id := by
  intro hall
  let budget : RecoveryWalBudget := ⟨86400000, 2, 50, 2048, 8000, 2000, 1000⟩
  let second : Date utcDates := utcDate 1785000001000 (by decide +kernel)
  let third : Date utcDates := utcDate 1785000002000 (by decide +kernel)
  let fourth : Date utcDates := utcDate 1785000003000 (by decide +kernel)
  let calls : List (RecoveryCall utcDates) :=
    [.append (recoveryScope "3") plainInput fourth, .fragment (recoveryScope "1") fourth]
  have hrun : (LTS.exec RecoveryRun.step ⟨.new budget, [], []⟩
      [.append (recoveryScope "1") plainInput recoveryDate,
        .append (recoveryScope "1") plainInput recoveryDate,
        .append (recoveryScope "2") plainInput second,
        .mark (recoveryScope "1") (units "rw-1") ⟨units "defer", units "active", false⟩ third,
        .restart budget]).any (fun s =>
      decide (((s.store.reload utcDates).answers id calls).map RecoveryAnswer.itemCount ≠
        (s.store.answers id calls).map RecoveryAnswer.itemCount)) = true := by
    decide +kernel
  obtain ⟨s, hs, h⟩ := (Option.any_eq_true _ _).mp hrun
  have hlossless := hall s ⟨_, _, ⟨budget, rfl⟩, LTS.runOn_of_exec_any hs⟩ calls
  exact of_decide_eq_true h (congrArg (List.map RecoveryAnswer.itemCount) hlossless)

end OpenBrain.Server.Realtime
