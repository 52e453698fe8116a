import OpenBrain.Core.LTS
import OpenBrain.Server.Realtime.Budgets
import OpenBrain.Server.Realtime.WorkingSet

/-!
# Runs of the working set

A store is written to at times that do not go back, and read at any. What every call keeps is
`Kept`: the sessions are within the limits at each time from the last write on, and every item
passed the checks of its size.
-/
namespace OpenBrain.Server.Realtime
open OpenBrain.Core OpenBrain.Core.Ecma

def WorkingSetBudget.limits (budget : WorkingSetBudget) : Sessions.Limits :=
  ⟨budget.max_sessions, budget.max_items_per_session, budget.max_global_items⟩

def WorkingSetBudget.Positive (budget : WorkingSetBudget) : Prop :=
  0 < budget.ttl_ms ∧ 0 < budget.max_sessions ∧ 0 < budget.max_items_per_session ∧
    0 < budget.max_global_items ∧ 0 < budget.max_item_chars ∧ 0 < budget.max_metadata_chars

instance (budget : WorkingSetBudget) : Decidable budget.Positive := by
  unfold WorkingSetBudget.Positive
  infer_instance

/-- An item within the character budgets. -/
def WorkingSetItem.Fits (budget : WorkingSetBudget) (item : WorkingSetItem) : Prop :=
  (item.content.length : Int) ≤ budget.max_item_chars ∧
    ((stringify (.obj item.metadata)).length : Int) ≤ budget.max_metadata_chars

structure WorkingSetStore.Within (budget : WorkingSetBudget) (store : WorkingSetStore) : Prop where
  sessions : (store.sessions.length : Int) ≤ budget.max_sessions
  items : ∀ e ∈ store.sessions, (e.2.items.length : Int) ≤ budget.max_items_per_session
  global : (store.sessions.globalItemCount : Int) ≤ budget.max_global_items
  chars : ∀ e ∈ store.sessions, ∀ item ∈ e.2.items, item.Fits budget
  filled : ∀ e ∈ store.sessions, e.2.items ≠ []

/-! ## The system -/

variable {dates : Dates}

/-- A store, and the time of the last call that wrote to it. -/
structure WorkingSetRun where
  store : WorkingSetStore
  clock : Option Int

inductive WorkingSetOp (dates : Dates) where
  | append (scope : WorkingSetScope) (input : WorkingSetItemInput) (now : Date dates)
  | read (scope : WorkingSetScope) (now : Date dates)

def WorkingSetRun.step (sha256 : Str → Str) (s : WorkingSetRun) :
    WorkingSetOp dates → Option WorkingSetRun
  | .append scope input now => some ⟨(s.store.append scope input now).1, some now.ms⟩
  | .read scope now => some ⟨(s.store.buildContextPackFragment sha256 scope now).1, s.clock⟩

def workingSetRuns (dates : Dates) (sha256 : Str → Str) (budget : WorkingSetBudget) :
    LTS WorkingSetRun (WorkingSetOp dates) :=
  .ofFn (fun s => s = ⟨.new budget, none⟩) (WorkingSetRun.step sha256)

/-- The time is not before the last write. -/
def WorkingSetRun.NotBefore (s : WorkingSetRun) (now : Int) : Prop :=
  ∀ t ∈ s.clock, t ≤ now

/-- The clock of the writes does not go back. -/
def WorkingSetRun.Timely (s : WorkingSetRun) : WorkingSetOp dates → Prop
  | .append _ _ now => s.NotBefore now.ms
  | .read _ _ => True

instance (s : WorkingSetRun) (now : Int) : Decidable (s.NotBefore now) := by
  unfold WorkingSetRun.NotBefore
  infer_instance

instance (s : WorkingSetRun) (op : WorkingSetOp dates) : Decidable (s.Timely op) := by
  unfold WorkingSetRun.Timely
  split <;> infer_instance

/-! ## What a call does -/

namespace WorkingSetStore
variable {store : WorkingSetStore} {budget : WorkingSetBudget} {clock : Int} {now : Date dates}

/-- The sessions within the limits at a time, and every item within its sizes. -/
structure Kept (budget : WorkingSetBudget) (clock : Int) (store : WorkingSetStore) : Prop where
  same : store.budget = budget
  limits : Sessions.Within budget.limits clock store.sessions
  chars : Sessions.Traced (fun _ item => WorkingSetItem.Fits budget item) store.sessions

theorem Kept.within (h : Kept budget clock store) : store.Within budget :=
  ⟨h.limits.sessions, h.limits.items, h.limits.global, h.chars, h.limits.filled⟩

theorem Kept.purgeExpired (h : Kept budget clock store) (now : Date dates) :
    Kept budget clock (store.purgeExpired now) := by
  have hshrinks := Sessions.shrinks_keep (·.liveAt dates now.ms) store.sessions
  refine ⟨h.same, ⟨h.limits.toTidy.keep _, ?_, ?_⟩, hshrinks.traced h.chars⟩
  · have hlen := hshrinks.length
    have hsessions := h.limits.sessions
    show ((store.sessions.keep (·.liveAt dates now.ms)).length : Int) ≤ _
    omega
  · have hcount := Sessions.globalItemCount_keep (·.liveAt dates now.ms) store.sessions
    have hglobal := h.limits.global
    show ((store.sessions.keep (·.liveAt dates now.ms)).globalItemCount : Int) ≤ _
    omega

theorem screen_ok {input : WorkingSetItemInput} {accepted : Str × Members Number}
    (h : screenWorkingSetInput budget input = .ok accepted) :
    (accepted.1.length : Int) ≤ budget.max_item_chars ∧
      ((stringify (.obj accepted.2)).length : Int) ≤ budget.max_metadata_chars := by
  unfold screenWorkingSetInput at h
  dsimp only at h
  split at h
  · cases h
  · split at h
    · cases h
    · split at h
      · cases h
      · rename_i hcontent
        split at h
        · cases h
        · rename_i metadata chars hmetadata
          split at h
          · cases h
          · rename_i hchars
            cases h
            refine ⟨Int.not_lt.mp hcontent, ?_⟩
            rw [← MetadataInput.serialized_ok hmetadata]
            exact Int.not_lt.mp hchars

/-- The item that is built: its sizes are those screened, and it lives for the time to live. -/
theorem build_ok {input : WorkingSetItemInput} {accepted : Str × Members Number} {id : Str}
    {ttlMs : Int} {item : WorkingSetItem}
    (h : buildWorkingSetItem input accepted id now ttlMs = .ok item) :
    item.content = accepted.1 ∧ item.metadata = accepted.2 ∧
      dates.parse item.expires_at = some (now.ms + ttlMs) := by
  unfold buildWorkingSetItem at h
  split at h
  · rename_i expires_at hiso
    cases h
    exact ⟨rfl, rfl, dates.parse_iso _ _ hiso⟩
  · cases h

def push (store : WorkingSetStore) (n : WorkingSetScope) (key : Str) (item : WorkingSetItem)
    (nextId : Nat) (now : Int) : WorkingSetStore :=
  let session := (store.sessions.lookup key).getD ⟨n, [], now⟩
  trim { store with nextId := nextId } key ⟨session.scope, session.items ++ [item], now⟩

theorem push_sessions (n : WorkingSetScope) (key : Str) (item : WorkingSetItem) (nextId : Nat)
    (now : Int) : (store.push n key item nextId now).sessions =
      let session := (store.sessions.lookup key).getD ⟨n, [], now⟩
      Sessions.trimmed store.budget.limits (Assoc.set store.sessions key
        (Sessions.pushed store.budget.limits session.scope session.items item now)) := rfl

/-- An append evicts what has expired and, if it accepts the item, pushes it. -/
theorem append_cases (store : WorkingSetStore) (scope : WorkingSetScope)
    (input : WorkingSetItemInput) (now : Date dates) :
    (∃ counters nextId, (store.append scope input now).1 =
        { store.purgeExpired now with counters := counters, nextId := nextId } ∧
      ∀ item counters, (store.append scope input now).2 ≠ .ok ⟨.ok item, counters⟩) ∨
    ∃ n key item nextId, scopeAndKey scope = .ok (n, key) ∧ item.Fits store.budget ∧
      dates.parse item.expires_at = some (now.ms + store.budget.ttl_ms) ∧
      (store.append scope input now).1 =
        (store.purgeExpired now).push n key item nextId now.ms ∧
      (store.append scope input now).2 =
        .ok ⟨.ok item, ((store.purgeExpired now).push n key item nextId now.ms).counters⟩ := by
  unfold append
  dsimp only
  split
  · exact .inl ⟨_, _, rfl, fun item counters h => nomatch h⟩
  · rename_i accepted hscreen
    obtain ⟨hcontent, hmetadata⟩ := screen_ok hscreen
    split
    · exact .inl ⟨_, _, rfl, fun item counters h => nomatch h⟩
    · rename_i n key hscope
      split
      · exact .inl ⟨_, _, rfl, fun item counters h => nomatch h⟩
      · rename_i item hbuild
        obtain ⟨hc, hm, hexpires⟩ := build_ok hbuild
        refine .inr ⟨n, key, item, _, hscope, ⟨?_, ?_⟩, hexpires, rfl, rfl⟩
        · rw [hc]
          exact hcontent
        · rw [hm]
          exact hmetadata

theorem Kept.push (h : Kept budget clock store) (hb : budget.Positive) {t : Int} (ht : clock ≤ t)
    {scope n : WorkingSetScope} {key : Str} (hscope : scopeAndKey scope = .ok (n, key))
    {item : WorkingSetItem} (hitem : item.Fits budget) (nextId : Nat) :
    Kept budget t (store.push n key item nextId t) ∧
      ∃ s, (key, s) ∈ (store.push n key item nextId t).sessions ∧ item ∈ s.items := by
  obtain ⟨hnorm, rfl⟩ := scopeAndKey_ok hscope
  have hkey := key_of_normalize (normalize_normalized hnorm)
  obtain ⟨-, hsessions, hitems, hglobal, -, -⟩ := hb
  obtain ⟨hwithin, hthere⟩ :=
    Sessions.within_push ⟨hsessions, hitems, hglobal⟩ h.limits ht hkey item
  rw [push_sessions, h.same]
  refine ⟨⟨h.same, ?_, ?_⟩, hthere⟩
  · rw [push_sessions, h.same]
    exact hwithin
  · rw [push_sessions, h.same]
    exact Sessions.traced_push h.limits.keyed.keys h.chars hitem n

theorem fragment_of (sha256 : Str → Str) (hm : Sessions.Keyed store.sessions)
    {scope n : WorkingSetScope} {key : Str} (hscope : scopeAndKey scope = .ok (n, key))
    {s : Session WorkingSetItem} (hs : (key, s) ∈ store.sessions) {item : WorkingSetItem}
    (hitem : item ∈ s.items) (hlive : item.liveAt dates now.ms = true) :
    ∃ fragment, (store.buildContextPackFragment sha256 scope now).2 = .ok fragment ∧
      item ∈ fragment.items := by
  have hkept : Sessions.Keyed (store.sessions.keep (·.liveAt dates now.ms)) :=
    (Sessions.shrinks_keep _ _).keyed hm
  have hlookup := Sessions.lookup_of_mem hkept.keys (Sessions.mem_keep hs hitem hlive)
  obtain ⟨hnorm, -⟩ := scopeAndKey_ok hscope
  obtain ⟨denials, hdenials⟩ := Sessions.denials_ok sha256 (fun _ => true) hkept
    (normalize_normalized hnorm) key
  refine ⟨⟨n, s.items.filter (·.liveAt dates now.ms), (store.purgeExpired now).counters, denials⟩,
    ?_, List.mem_filter.mpr ⟨hitem, hlive⟩⟩
  unfold buildContextPackFragment purgeExpired
  dsimp only
  rw [hscope]
  dsimp only [bind, Except.bind]
  rw [hdenials, hlookup]
  rfl

end WorkingSetStore

/-! ## Over a run -/

section Run
variable {sha256 : Str → Str} {budget : WorkingSetBudget} {s s' : WorkingSetRun}

/-- The store is within the limits at every time not before the last write. -/
def WorkingSetRun.Sound (budget : WorkingSetBudget) (s : WorkingSetRun) : Prop :=
  ∀ t, s.NotBefore t → WorkingSetStore.Kept budget t s.store

theorem sound_init (hb : budget.Positive) : WorkingSetRun.Sound budget ⟨.new budget, none⟩ := by
  obtain ⟨-, hsessions, -, hglobal, -, -⟩ := hb
  intro t _
  refine ⟨rfl, ⟨⟨⟨List.nodup_nil, ?_⟩, ?_, ?_, ?_⟩, ?_, ?_⟩, ?_⟩
  · exact fun _ he => nomatch he
  · exact fun _ he => nomatch he
  · exact fun _ he => nomatch he
  · exact fun _ he => nomatch he
  · exact Int.le_of_lt hsessions
  · exact Int.le_of_lt hglobal
  · exact fun _ he => nomatch he

theorem WorkingSetStore.Kept.recount {clock : Int} {store : WorkingSetStore}
    (h : store.Kept budget clock) (counters : WorkingSetCounters) (nextId : Nat) :
    { store with counters := counters, nextId := nextId }.Kept budget clock :=
  ⟨h.same, h.limits, h.chars⟩

theorem sound_append (hb : budget.Positive) (hs : s.Sound budget) {now : Date dates}
    (hnow : s.NotBefore now.ms) (scope : WorkingSetScope) (input : WorkingSetItemInput) :
    (s.store.append scope input now).1.Kept budget now.ms := by
  have hpurged := (hs now.ms hnow).purgeExpired now
  rcases WorkingSetStore.append_cases s.store scope input now with
    ⟨counters, nextId, h, -⟩ | ⟨n, key, item, nextId, hscope, hfits, -, h, -⟩
  · rw [h]
    exact hpurged.recount counters nextId
  · rw [h]
    rw [(hs now.ms hnow).same] at hfits
    exact (hpurged.push hb (Int.le_refl _) hscope hfits nextId).1

theorem sound_step (hb : budget.Positive) {op : WorkingSetOp dates} (hs : s.Sound budget)
    (htimely : s.Timely op) (h : s.step sha256 op = some s') : s'.Sound budget := by
  cases op with
  | append scope input now =>
    cases h
    intro t ht
    have hkept := sound_append hb hs htimely scope input
    exact ⟨hkept.same, { hkept.limits with past := (hkept.limits.later (ht _ rfl)).past },
      hkept.chars⟩
  | read scope now =>
    cases h
    intro t ht
    exact (hs t ht).purgeExpired now

theorem sound_of_runs (hb : budget.Positive)
    (hs : (workingSetRuns dates sha256 budget).ReachableOn WorkingSetRun.Timely s) :
    s.Sound budget := by
  refine LTS.InductiveOn.reachable (I := WorkingSetRun.Sound budget) ⟨?_, ?_⟩ hs
  · rintro s rfl
    exact sound_init hb
  · intro s op s' hsound htimely hstep
    exact sound_step hb hsound htimely hstep

/-- After each append that is accepted the store is within every budget, and the item is in the
fragment of its scope until it expires. -/
theorem newest_survives (hb : budget.Positive)
    (hs : (workingSetRuns dates sha256 budget).ReachableOn WorkingSetRun.Timely s)
    {scope : WorkingSetScope} {input : WorkingSetItemInput} {now : Date dates}
    (htimely : s.Timely (.append scope input now)) {item : WorkingSetItem}
    {counters : WorkingSetCounters}
    (haccepted : (s.store.append scope input now).2 = .ok ⟨.ok item, counters⟩) :
    (s.store.append scope input now).1.Within budget ∧
      ∀ read : Date dates, now.ms ≤ read.ms → read.ms < now.ms + budget.ttl_ms →
        ∃ fragment, ((s.store.append scope input now).1.buildContextPackFragment sha256 scope
            read).2 = .ok fragment ∧ item ∈ fragment.items := by
  have hsound := sound_of_runs hb hs
  have hkept := hsound now.ms htimely
  refine ⟨(sound_append hb hsound htimely scope input).within, ?_⟩
  intro read _ hread
  rcases WorkingSetStore.append_cases s.store scope input now with
    ⟨_, _, -, hnot⟩ | ⟨n, key, item', nextId, hscope, hfits, hexpires, hstore, hresult⟩
  · exact absurd haccepted (hnot item counters)
  · rw [hresult] at haccepted
    cases haccepted
    rw [hkept.same] at hfits hexpires
    obtain ⟨hafter, session, hsession, hitem⟩ :=
      (hkept.purgeExpired now).push hb (Int.le_refl _) hscope hfits nextId
    rw [hstore]
    refine WorkingSetStore.fragment_of sha256 hafter.limits.keyed hscope hsession hitem ?_
    unfold WorkingSetItem.liveAt
    rw [hexpires]
    simpa using hread

def channelScope (n : Nat) : WorkingSetScope :=
  ⟨units "ns", units "agent", units "discord", units "server", decimal n, none, units "main"⟩

/-- One session of one item: the item of the second channel takes the place of the first's. -/
theorem newest_survives_second :
    let budget : WorkingSetBudget := ⟨60000, 1, 1, 1, 10, 2⟩
    let input : WorkingSetItemInput :=
      ⟨none, units "recent_event", units "hello", none, none, none, none, none, .absent⟩
    let first := utcDate 1785000000000 isSome_iso_sample
    let second := utcDate 1785000000001 (by decide +kernel)
    ∃ s item counters,
      (workingSetRuns utcDates id budget).RunOn WorkingSetRun.Timely ⟨.new budget, none⟩
        [.append (channelScope 1) input first] s ∧
      (s.store.append (channelScope 2) input second).2 = .ok ⟨.ok item, counters⟩ ∧
      (s.store.append (channelScope 2) input second).1.Within budget ∧
      ∃ fragment, ((s.store.append (channelScope 2) input second).1.buildContextPackFragment id
        (channelScope 2) second).2 = .ok fragment ∧ item ∈ fragment.items := by
  intro budget input first second
  have hrun : (LTS.exec (LTS.guardStep WorkingSetRun.Timely (WorkingSetRun.step id))
      ⟨.new budget, none⟩ [.append (channelScope 1) input first]).any (fun s =>
        decide (s.Timely (.append (channelScope 2) input second)) &&
          ((s.store.append (channelScope 2) input second).2.toOption.bind
            (·.outcome.toOption)).isSome) = true := by
    decide +kernel
  obtain ⟨s, hs, h⟩ := (Option.any_eq_true _ _).mp hrun
  rw [Bool.and_eq_true, decide_eq_true_iff] at h
  obtain ⟨htimely, hsome⟩ := h
  have hs : (workingSetRuns utcDates id budget).RunOn WorkingSetRun.Timely _ _ s :=
    LTS.runOn_of_exec hs
  cases hresult : (s.store.append (channelScope 2) input second).2 with
  | error e =>
    rw [hresult] at hsome
    cases hsome
  | ok result =>
    obtain ⟨outcome, counters⟩ := result
    cases outcome with
    | error reason =>
      rw [hresult] at hsome
      cases hsome
    | ok item =>
      obtain ⟨hwithin, hread⟩ := newest_survives (by decide) ⟨_, _, rfl, hs⟩ htimely hresult
      exact ⟨s, item, counters, hs, hresult, hwithin,
        hread second (Int.le_refl _) (by decide)⟩

end Run

end OpenBrain.Server.Realtime
