import OpenBrain.Clients.Spool.RetryState

/-!
# Retry counts under concurrent drainers

A commit merges the counts of its pass into the retry state it finds. `State.failures` is
the count the file holds for a unit, `State.counted` what a drainer reads of it: the loader
clamps a count at a million, so a file that holds a million and one is read, and written
back, as a million. Up to the clamp no count of a unit that stays in the spool goes down
(`retry_counts_kept`); with nothing said about the clamp one can (`retry_count_lost`).
-/
namespace OpenBrain.Clients.Spool
open OpenBrain.Core OpenBrain.Core.Ecma List

/-- The count an entry of the file holds; an entry that is not read holds none. -/
def RawUnit.count (unit : RawUnit) : Nat := unit.consecutive_failures.toNat

/-- The persisted `consecutive_failures` of a unit. -/
def RetryFile.failures (file : RetryFile) (unitKey : Str) : Nat :=
  (((file.units.lookup unitKey).getD none).map RawUnit.count).getD 0

def State.failures (s : State) (unitKey : Str) : Nat :=
  (s.files.retry.map fun file => file.failures unitKey).getD 0

def RetryState.counted (state : RetryState) (unitKey : Str) : Nat :=
  ((state.units.lookup unitKey).map UnitRetryState.consecutive_failures).getD 0

def State.counted (s : State) (unitKey : Str) : Nat :=
  (loadRetryState s.files.retry).counted unitKey

/-- If the step is a commit that writes the spool, it keeps a unit of this key in it. -/
def stays (unitKey : Str) (s : State) : Label → Prop
  | .commit p k => ∀ pass, s.drainers p = some pass → pass.hasChanges = true → 3 ≤ k →
      unitKey ∈ pass.remainingKeys (parseUnits s.files.spool)
  | _ => True

/-! ## What is read of the file -/

theorem counted_loadRetryState (file : RetryFile) (unitKey : Str) :
    (loadRetryState (some file)).counted unitKey =
      min (file.failures unitKey) MAX_RETRY_STATE_FAILURES := by
  show ((List.lookup unitKey (Assoc.mapValues collectRetryUnit file.units)).map _).getD 0 = _
  rw [Assoc.lookup_mapValues _ file.keys]
  unfold RetryFile.failures
  cases file.units.lookup unitKey with
  | none => rfl
  | some entry =>
    cases entry with
    | none => rfl
    | some unit =>
      show ((collectRetryUnit (some unit)).map _).getD 0 = min unit.count _
      unfold collectRetryUnit RawUnit.count
      rw [Option.bind_some]
      split
      · have hzero : unit.consecutive_failures.toNat = 0 := by omega
        rw [hzero]
        rfl
      · rfl

theorem counted_eq (s : State) (unitKey : Str) :
    s.counted unitKey = min (s.failures unitKey) MAX_RETRY_STATE_FAILURES := by
  unfold State.counted State.failures
  cases s.files.retry with
  | none => rfl
  | some file => exact counted_loadRetryState file unitKey

/-- What is written is what the file then holds. -/
theorem failures_writeRetryState (state : RetryState) (unitKey : Str) :
    (writeRetryState state).failures unitKey = state.counted unitKey := by
  unfold RetryFile.failures RetryState.counted
  rw [units_writeRetryState, Assoc.lookup_mapValues _ state.keys]
  cases state.units.lookup unitKey with
  | none => rfl
  | some unit => rfl

/-! ## What a commit writes -/

section Commit
variable {pass : ReplayPass} {files : Files} {k : Nat}

theorem retry_commit : (pass.commit files k).retry =
    if pass.hasChanges = true ∧ 4 ≤ k then
      some (writeRetryState
        (pass.nextState (parseUnits files.spool) (loadRetryState files.retry)))
    else files.retry := by
  unfold ReplayPass.commit
  by_cases hchanges : pass.hasChanges = true
  · rw [if_pos hchanges]
    unfold ReplayPass.commitWrites
    dsimp only
    match k with
    | 0 =>
      rw [if_neg (by omega)]
      rfl
    | 1 =>
      rw [if_neg (by omega)]
      simp only [take_succ_cons, take_zero, foldl_cons, foldl_nil]
      split
      · rfl
      · rfl
    | 2 | 3 =>
      rw [if_neg (by omega)]
      simp only [take_succ_cons, take_zero, foldl_cons, foldl_nil]
      split
      · split <;> rfl
      · split <;> rfl
    | k + 4 =>
      rw [if_pos ⟨hchanges, Nat.le_add_left 4 k⟩]
      simp only [take_succ_cons, take_nil, foldl_cons, foldl_nil]
      split
      · split <;> rfl
      · split <;> rfl
  · rw [if_neg hchanges, if_neg fun h => hchanges h.1]

theorem spool_commit (h : pass.hasChanges = true) (hk : 4 ≤ k) :
    (pass.commit files k).spool = pass.remainingLines (parseUnits files.spool) := by
  unfold ReplayPass.commit
  rw [if_pos h]
  obtain ⟨k, rfl⟩ := Nat.exists_eq_add_of_le' hk
  unfold ReplayPass.commitWrites
  simp only [take_succ_cons, take_nil, foldl_cons, foldl_nil]

/-- The count of a merged key is at least the current one. -/
theorem le_mergeRetryUnit (update : Option UnitRetryState) (current prior : Option UnitRetryState) :
    (current.map UnitRetryState.consecutive_failures).getD 0 ≤
      ((mergeRetryUnit update (current.or prior)).map UnitRetryState.consecutive_failures).getD 0 := by
  cases current with
  | none => exact Nat.zero_le _
  | some current =>
    rw [Option.some_or]
    cases update with
    | none => exact Nat.le_refl _
    | some update =>
      unfold mergeRetryUnit
      dsimp only
      split
      · assumption
      · exact Nat.le_refl _

theorem counted_nextState {liveUnits : List SpoolUnit} (currentState : RetryState) {unitKey : Str}
    (h : unitKey ∈ pass.remainingKeys liveUnits) :
    currentState.counted unitKey ≤ (pass.nextState liveUnits currentState).counted unitKey := by
  unfold RetryState.counted
  show _ ≤ ((List.lookup unitKey (mergeRetryUnits _ _ _ _)).map _).getD 0
  unfold mergeRetryUnits
  rw [Assoc.lookup_ofKeys _ h]
  exact le_mergeRetryUnit _ _ _

theorem mem_remainingKeys {liveUnits : List SpoolUnit} {unitKey : Str}
    (h : unitKey ∈ pass.remainingKeys liveUnits) :
    ∃ unit ∈ pass.remaining liveUnits, unit.key = some unitKey := by
  unfold ReplayPass.remainingKeys at h
  rw [mem_reverse, mem_dedup, mem_reverse, mem_filterMap] at h
  exact h

theorem lines_infix {units : List SpoolUnit} {unit : SpoolUnit} (h : unit ∈ units) :
    unit.lines <:+: units.flatMap SpoolUnit.lines := by
  obtain ⟨before, after, rfl⟩ := append_of_mem h
  refine ⟨before.flatMap SpoolUnit.lines, after.flatMap SpoolUnit.lines, ?_⟩
  rw [flatMap_append, flatMap_cons, append_assoc]

theorem entry_present {liveUnits : List SpoolUnit} {currentState : RetryState}
    {entry : Str × UnitRetryState} (h : entry ∈ (pass.nextState liveUnits currentState).units) :
    ∃ unit ∈ liveUnits, unit.key = some entry.1 ∧ pass.keeps unit = true ∧
      unit.lines <:+: pass.remainingLines liveUnits := by
  have hkey := (Assoc.keys_ofKeys _ _).subset (mem_map_of_mem h)
  obtain ⟨unit, hunit, heq⟩ := mem_remainingKeys hkey
  have hlive := mem_filter.mp hunit
  exact ⟨unit, hlive.1, heq, hlive.2, lines_infix hunit⟩

end Commit

/-! ## Runs -/

/-- The retry state is written by commits alone. -/
theorem counted_step {unitKey : Str} {s s' : State} {l : Label} (hstays : stays unitKey s l)
    (h : step s l = some s') : s.counted unitKey ≤ s'.counted unitKey := by
  cases l with
  | append lines =>
    cases h
    exact Nat.le_refl _
  | snapshot p quarantineThreshold now =>
    dsimp only [step] at h
    split at h
    · cases h
    · cases h
      exact Nat.le_refl _
  | attempt p attempt =>
    obtain ⟨pass, _, h⟩ := Option.bind_eq_some_iff.mp h
    obtain ⟨pass', _, rfl⟩ := Option.map_eq_some_iff.mp h
    exact Nat.le_refl _
  | commit p k =>
    obtain ⟨pass, hpass, h⟩ := Option.bind_eq_some_iff.mp h
    split at h
    · cases h
      show _ ≤ (loadRetryState (pass.commit s.files k).retry).counted unitKey
      rw [retry_commit]
      split
      · rename_i hwrites
        have hnext := counted_nextState (loadRetryState s.files.retry)
          (hstays pass hpass hwrites.1 (by omega))
        have hread := counted_loadRetryState (writeRetryState
          (pass.nextState (parseUnits s.files.spool) (loadRetryState s.files.retry))) unitKey
        rw [hread, failures_writeRetryState]
        refine Nat.le_min.mpr ⟨hnext, ?_⟩
        rw [counted_eq]
        exact Nat.min_le_right _ _
      · exact Nat.le_refl _
    · cases h

theorem counted_run {unitKey : Str} {s s' : State} {ls : List Label}
    (h : system.RunOn (stays unitKey) s ls s') : s.counted unitKey ≤ s'.counted unitKey := by
  have hstep : ∀ t l t', s.counted unitKey ≤ t.counted unitKey → stays unitKey t l →
      system.step t l t' → s.counted unitKey ≤ t'.counted unitKey := by
    intro t l t' ht hstays hs
    exact Nat.le_trans ht (counted_step hstays hs)
  exact h.keeps hstep (Nat.le_refl _)

/-- Over every run in which each commit keeps a unit of the key, its persisted count does
not go below the earlier one, up to a million; and every commit that completes leaves
entries of units it keeps only, whose lines are in the spool it wrote. -/
theorem retry_counts_kept (unitKey : Str) (s s' : State) :
    (∀ ls, system.RunOn (stays unitKey) s ls s' →
      min (s.failures unitKey) MAX_RETRY_STATE_FAILURES ≤ s'.failures unitKey) ∧
    (∀ p k pass, s.drainers p = some pass → pass.hasChanges = true → 4 ≤ k →
      step s (.commit p k) = some s' → ∃ file, s'.files.retry = some file ∧
        ∀ entry ∈ file.units, ∃ unit ∈ parseUnits s.files.spool, unit.key = some entry.1 ∧
          pass.keeps unit = true ∧ unit.lines <:+: s'.files.spool) := by
  refine ⟨?_, ?_⟩
  · intro ls h
    have hcounted := counted_run h
    rw [counted_eq, counted_eq] at hcounted
    exact Nat.le_trans hcounted (Nat.min_le_left _ _)
  · intro p k pass hpass hchanges hk h
    obtain ⟨pass', hpass', h⟩ := Option.bind_eq_some_iff.mp h
    rw [hpass] at hpass'
    cases hpass'
    split at h
    · cases h
      refine ⟨writeRetryState (pass.nextState (parseUnits s.files.spool)
        (loadRetryState s.files.retry)), ?_, ?_⟩
      · show (pass.commit s.files k).retry = _
        rw [retry_commit, if_pos ⟨hchanges, hk⟩]
      · intro entry hentry
        show ∃ unit ∈ parseUnits s.files.spool, _ ∧ _ ∧ _ <:+: (pass.commit s.files k).spool
        rw [spool_commit hchanges hk]
        rw [units_writeRetryState] at hentry
        have hkey : entry.1 ∈ (pass.nextState (parseUnits s.files.spool)
            (loadRetryState s.files.retry)).units.map Prod.fst :=
          (Assoc.keys_mapValues _ _).subset (mem_map_of_mem hentry)
        obtain ⟨old, hold, heq⟩ := mem_map.mp hkey
        rw [← heq]
        exact entry_present hold
    · cases h

section Clamped

instance decidableStays (unitKey : Str) : (s : State) → (l : Label) → Decidable (stays unitKey s l)
  | s, .commit p k =>
    match h : s.drainers p with
    | none => .isTrue fun pass hpass => by
      rw [h] at hpass
      cases hpass
    | some pass =>
      decidable_of_iff (pass.hasChanges = true → 3 ≤ k →
          unitKey ∈ pass.remainingKeys (parseUnits s.files.spool)) ⟨fun hk q hq => by
        rw [h] at hq
        cases hq
        exact hk, fun hk => hk pass h⟩
  | _, .append _ | _, .snapshot _ _ _ | _, .attempt _ _ => .isTrue trivial

def line (key : String) : Str :=
  units ("\x7b\"created_at\":0,\"idempotency_key\":\"" ++ key ++
    "\",\"operation\":\"op\",\"payload\":\x7b\x7d\x7d")

def lineKey (key : String) : Str := unitKeyOf (none, [units key])

def epoch : Double := ⟨⟨false, 0, 0, Dec.zero_normal⟩, Double.zero_fixed⟩

/-- Two units, the first of which has failed a million times. -/
def patient : State where
  files := ⟨[line "a", line "b"], [],
    some ⟨none, [(lineKey "a", some ⟨1000000, epoch, epoch, units "Error"⟩)], by simp⟩⟩
  drainers _ := none

def failFirst : List Label :=
  [.snapshot 0 (some 2000000) epoch, .attempt 0 (.failed (units "Error")), .attempt 0 .retained,
    .commit 0 4]

def failSecond : List Label :=
  [.snapshot 0 (some 2000000) epoch, .attempt 0 .retained, .attempt 0 (.failed (units "Error")),
    .commit 0 4]

theorem twoPasses_eq : (LTS.exec step patient failFirst).any (fun s =>
    (LTS.exec (LTS.guardStep (stays (lineKey "a")) step) s failSecond).any fun t =>
      s.failures (lineKey "a") == 1000001 && t.failures (lineKey "a") == 1000000) = true := by
  decide +kernel

theorem retry_counts_kept_clamped : ∃ s t : State, s.failures (lineKey "a") = 1000001 ∧
    MAX_RETRY_STATE_FAILURES ≤ t.failures (lineKey "a") := by
  obtain ⟨s, hs, h⟩ := (Option.any_eq_true _ _).mp twoPasses_eq
  obtain ⟨t, ht, h⟩ := (Option.any_eq_true _ _).mp h
  rw [Bool.and_eq_true, beq_iff_eq, beq_iff_eq] at h
  have hkept := (retry_counts_kept (lineKey "a") s t).1 failSecond (LTS.runOn_of_exec ht)
  rw [h.1] at hkept
  exact ⟨s, t, h.1, hkept⟩

theorem retry_count_lost : ¬ ∀ (unitKey : Str) (s s' : State) (ls : List Label),
    system.Reachable s → system.RunOn (stays unitKey) s ls s' →
      s.failures unitKey ≤ s'.failures unitKey := by
  intro hclaim
  obtain ⟨s, hs, h⟩ := (Option.any_eq_true _ _).mp twoPasses_eq
  obtain ⟨t, ht, h⟩ := (Option.any_eq_true _ _).mp h
  rw [Bool.and_eq_true, beq_iff_eq, beq_iff_eq] at h
  have hreach : system.Reachable s :=
    ⟨patient, failFirst, fun _ => rfl, LTS.runOn_of_exec_any hs⟩
  have hle := hclaim (lineKey "a") s t failSecond hreach (LTS.runOn_of_exec ht)
  omega

end Clamped

end OpenBrain.Clients.Spool
