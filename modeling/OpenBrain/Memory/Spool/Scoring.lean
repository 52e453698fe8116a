import OpenBrain.Memory.Spool.Drainer

/-!
# What a pass scores

`Scored pass done` ties the three collections of a pass to the attempts made so far: the
replayed signatures, the failures below the threshold and those that reached it.
`dispatchAll_scored` is the induction over the dispatches of a pass; `fate_stays` and
`count_retryState` say what the commit then does with a unit and with its count.
-/
namespace OpenBrain.Memory.Spool
open OpenBrain.Core OpenBrain.Core.Py List

def ReplayedIn (done : List (SpoolUnit × Attempt)) (unit_key : Str) : Prop :=
  ∃ u, (u, Attempt.replayed) ∈ done ∧ u.key = some unit_key

def FailedIn (done : List (SpoolUnit × Attempt)) (unit_key : Str) : Prop :=
  ∃ u, (u, Attempt.failed) ∈ done ∧ u.key = some unit_key

def Pass.prior (pass : Pass) (unit_key : Str) : Nat :=
  ((pass.prior_state.units.lookup unit_key).map UnitRetryState.consecutive_failures).getD 0

structure Scored (pass : Pass) (done : List (SpoolUnit × Attempt)) : Prop where
  replayed : ∀ σ, σ ∈ pass.replayed_units ↔ ReplayedIn done (unitKey σ)
  quarantined : ∀ k, (pass.quarantine_updates.lookup k).isSome = true ↔
    FailedIn done k ∧ pass.quarantine_threshold ≤ pass.prior k + 1
  failed : ∀ k n, (pass.failed_updates.lookup k).map UnitRetryState.consecutive_failures = some n ↔
    FailedIn done k ∧ pass.prior k + 1 < pass.quarantine_threshold ∧ n = pass.prior k + 1

/-! ## Verdicts -/

section Verdict
variable {done : List (SpoolUnit × Attempt)} {k : Str}

theorem any_replayed : (done.any fun d => d.1.key == some k && d.2 == .replayed) = true ↔
    ReplayedIn done k := by
  rw [any_eq_true]
  constructor
  · intro ⟨⟨u, a⟩, hmem, h⟩
    rw [Bool.and_eq_true, beq_iff_eq, beq_iff_eq] at h
    obtain ⟨hk, rfl⟩ := h
    exact ⟨u, hmem, hk⟩
  · intro ⟨u, hmem, hk⟩
    exact ⟨_, hmem, by simp [hk]⟩

theorem any_failed : (done.any fun d => d.1.key == some k && d.2 == .failed) = true ↔
    FailedIn done k := by
  rw [any_eq_true]
  constructor
  · intro ⟨⟨u, a⟩, hmem, h⟩
    rw [Bool.and_eq_true, beq_iff_eq, beq_iff_eq] at h
    obtain ⟨hk, rfl⟩ := h
    exact ⟨u, hmem, hk⟩
  · intro ⟨u, hmem, hk⟩
    exact ⟨_, hmem, by simp [hk]⟩

theorem verdict_replayed : verdict done k = .replayed ↔ ReplayedIn done k := by
  unfold verdict
  rw [← any_replayed]
  split
  · simp_all
  · split <;> simp_all

theorem verdict_failed : verdict done k = .failed ↔ ¬ ReplayedIn done k ∧ FailedIn done k := by
  unfold verdict
  rw [← any_replayed, ← any_failed]
  split
  · simp_all
  · split <;> simp_all

end Verdict

/-! ## One dispatch -/

theorem nextFailure_count (prior : Option UnitRetryState) (now : Double) (category : Str) :
    (nextFailure prior now category).consecutive_failures =
      (prior.map UnitRetryState.consecutive_failures).getD 0 + 1 := by
  cases prior with
  | none => rfl
  | some prior => rfl

/-- What a dispatch does to the pass: the first unit has `n` records and signature `σ`. -/
inductive Dispatched (pass : Pass) (n : Nat) (σ : Signature) : Dispatch → Pass → Prop
  | part (result : PyJson) : pass.unit_results.length + 1 < n →
      Dispatched pass n σ (.ok result)
        { pass with unit_results := pass.unit_results ++ [result] }
  | replayed (result : PyJson) (outcome : SpoolUnitOutcome) :
      ¬ pass.unit_results.length + 1 < n →
      Dispatched pass n σ (.ok result)
        { pass.next outcome with
          replayed_units := σ :: pass.replayed_units
          results := pass.results ++ (pass.unit_results ++ [result]) }
  | retained (outcome : SpoolUnitOutcome) : Dispatched pass n σ .retained (pass.next outcome)
  | crossed (category : Str) (update : UnitRetryState) (outcome : SpoolUnitOutcome) :
      update.consecutive_failures = pass.prior (unitKey σ) + 1 →
      pass.quarantine_threshold ≤ update.consecutive_failures →
      Dispatched pass n σ (.failed category)
        { pass.next outcome with
          quarantine_updates := Assoc.set pass.quarantine_updates (unitKey σ) update }
  | failed (category : Str) (update : UnitRetryState) (outcome : SpoolUnitOutcome) :
      update.consecutive_failures = pass.prior (unitKey σ) + 1 →
      update.consecutive_failures < pass.quarantine_threshold →
      Dispatched pass n σ (.failed category)
        { pass.next outcome with
          failed_updates := Assoc.set pass.failed_updates (unitKey σ) update }

theorem dispatch_cases {pass pass' : Pass} {o : Dispatch} {d : Option SpoolUnit}
    (h : pass.dispatch o = some (pass', d)) : ∃ unit todo σ, pass.todo = unit :: todo ∧
      unit.signature = some σ ∧ Dispatched pass (unit.records.getD []).length σ o pass' := by
  unfold Pass.dispatch at h
  cases htodo : pass.todo with
  | nil =>
    rw [htodo] at h
    cases h
  | cons unit todo =>
    rw [htodo] at h
    dsimp only at h
    cases hr : unit.records with
    | none =>
      rw [hr] at h
      cases h
    | some records =>
      cases hs : unit.signature with
      | none =>
        rw [hr, hs] at h
        cases h
      | some σ =>
        rw [hr, hs] at h
        refine ⟨unit, todo, σ, rfl, hs, ?_⟩
        rw [hr, Option.getD_some]
        cases o with
        | ok result =>
          dsimp only at h
          rw [length_append, length_singleton] at h
          split at h
          · rw [← htodo] at h
            cases h
            exact .part result (by assumption)
          · cases h
            exact .replayed result _ (by assumption)
        | retained =>
          cases h
          exact .retained _
        | failed category =>
          dsimp only at h
          have hcount := nextFailure_count (pass.prior_state.units.lookup (unitKey σ)) pass.now
            category
          split at h
          · rename_i hcrossed
            rw [decide_eq_true_eq] at hcrossed
            cases h
            exact .crossed category _ _ hcount hcrossed
          · rename_i hcrossed
            rw [decide_eq_true_eq] at hcrossed
            cases h
            exact .failed category _ _ hcount (Nat.lt_of_not_le hcrossed)

/-! ## One attempt -/

section Score
variable {pass : Pass} {done : List (SpoolUnit × Attempt)} {unit : SpoolUnit} {σ : Signature}

theorem key_of_signature (hs : unit.signature = some σ) : unit.key = some (unitKey σ) := by
  unfold SpoolUnit.key
  rw [hs]
  rfl

theorem replayedIn_concat {a : Attempt} (hs : unit.signature = some σ) (k : Str) :
    ReplayedIn (done ++ [(unit, a)]) k ↔
      ReplayedIn done k ∨ (a = .replayed ∧ k = unitKey σ) := by
  have hkey := key_of_signature hs
  unfold ReplayedIn
  constructor
  · intro ⟨u, hmem, hk⟩
    rcases mem_append.mp hmem with hmem | hmem
    · exact .inl ⟨u, hmem, hk⟩
    · cases mem_singleton.mp hmem
      rw [hkey] at hk
      exact .inr ⟨rfl, (Option.some.inj hk).symm⟩
  · rintro (⟨u, hmem, hk⟩ | ⟨rfl, rfl⟩)
    · exact ⟨u, mem_append_left _ hmem, hk⟩
    · exact ⟨unit, mem_append_right _ mem_cons_self, hkey⟩

theorem failedIn_concat {a : Attempt} (hs : unit.signature = some σ) (k : Str) :
    FailedIn (done ++ [(unit, a)]) k ↔ FailedIn done k ∨ (a = .failed ∧ k = unitKey σ) := by
  have hkey := key_of_signature hs
  unfold FailedIn
  constructor
  · intro ⟨u, hmem, hk⟩
    rcases mem_append.mp hmem with hmem | hmem
    · exact .inl ⟨u, hmem, hk⟩
    · cases mem_singleton.mp hmem
      rw [hkey] at hk
      exact .inr ⟨rfl, (Option.some.inj hk).symm⟩
  · rintro (⟨u, hmem, hk⟩ | ⟨rfl, rfl⟩)
    · exact ⟨u, mem_append_left _ hmem, hk⟩
    · exact ⟨unit, mem_append_right _ mem_cons_self, hkey⟩

theorem replayedIn_other {a : Attempt} (hs : unit.signature = some σ) (ha : a ≠ .replayed)
    (k : Str) : ReplayedIn (done ++ [(unit, a)]) k ↔ ReplayedIn done k := by
  rw [replayedIn_concat hs]
  simp [ha]

theorem failedIn_other {a : Attempt} (hs : unit.signature = some σ) (ha : a ≠ .failed) (k : Str) :
    FailedIn (done ++ [(unit, a)]) k ↔ FailedIn done k := by
  rw [failedIn_concat hs]
  simp [ha]

theorem Scored.congr {pass' : Pass} (h : Scored pass done)
    (hreplayed : pass'.replayed_units = pass.replayed_units)
    (hquarantine : pass'.quarantine_updates = pass.quarantine_updates)
    (hfailed : pass'.failed_updates = pass.failed_updates)
    (hprior : pass'.prior_state = pass.prior_state)
    (hthreshold : pass'.quarantine_threshold = pass.quarantine_threshold) : Scored pass' done := by
  have hp : pass'.prior = pass.prior := by
    unfold Pass.prior
    rw [hprior]
  refine ⟨?_, ?_, ?_⟩
  · rw [hreplayed]
    exact h.replayed
  · rw [hquarantine, hthreshold, hp]
    exact h.quarantined
  · rw [hfailed, hthreshold, hp]
    exact h.failed

theorem Scored.replay (h : Scored pass done) (hs : unit.signature = some σ)
    (outcome : SpoolUnitOutcome) (results : List PyJson) :
    Scored { pass.next outcome with
      replayed_units := σ :: pass.replayed_units
      results := results } (done ++ [(unit, .replayed)]) := by
  refine ⟨?_, ?_, ?_⟩
  · intro τ
    rw [replayedIn_concat hs, ← h.replayed τ]
    show τ ∈ σ :: pass.replayed_units ↔ _
    rw [mem_cons, or_comm]
    constructor
    · rintro (hmem | rfl)
      · exact .inl hmem
      · exact .inr ⟨rfl, rfl⟩
    · rintro (hmem | ⟨-, heq⟩)
      · exact .inl hmem
      · exact .inr (unitKey_injective heq)
  · intro k
    rw [failedIn_other hs (by simp)]
    exact h.quarantined k
  · intro k n
    rw [failedIn_other hs (by simp)]
    exact h.failed k n

theorem Scored.retain (h : Scored pass done) (hs : unit.signature = some σ)
    (outcome : SpoolUnitOutcome) : Scored (pass.next outcome) (done ++ [(unit, .retained)]) := by
  refine ⟨?_, ?_, ?_⟩
  · intro τ
    rw [replayedIn_other hs (by simp)]
    exact h.replayed τ
  · intro k
    rw [failedIn_other hs (by simp)]
    exact h.quarantined k
  · intro k n
    rw [failedIn_other hs (by simp)]
    exact h.failed k n

theorem Scored.cross (h : Scored pass done) (hs : unit.signature = some σ)
    (outcome : SpoolUnitOutcome) {update : UnitRetryState}
    (hcount : update.consecutive_failures = pass.prior (unitKey σ) + 1)
    (hcrossed : pass.quarantine_threshold ≤ update.consecutive_failures) :
    Scored { pass.next outcome with
      quarantine_updates := Assoc.set pass.quarantine_updates (unitKey σ) update }
      (done ++ [(unit, .failed)]) := by
  refine ⟨?_, ?_, ?_⟩
  · intro τ
    rw [replayedIn_other hs (by simp)]
    exact h.replayed τ
  · intro k
    rw [failedIn_concat hs]
    show (List.lookup k (Assoc.set pass.quarantine_updates (unitKey σ) update)).isSome = true ↔
      _ ∧ pass.quarantine_threshold ≤ pass.prior k + 1
    rw [Assoc.lookup_set]
    by_cases hk : k = unitKey σ
    · subst hk
      rw [if_pos rfl, ← hcount]
      simpa using hcrossed
    · rw [if_neg hk, h.quarantined k]
      simp [hk]
  · intro k n
    rw [failedIn_concat hs]
    show (pass.failed_updates.lookup k).map _ = some n ↔
      _ ∧ pass.prior k + 1 < pass.quarantine_threshold ∧ n = pass.prior k + 1
    rw [h.failed]
    constructor
    · intro ⟨hf, hlt⟩
      exact ⟨.inl hf, hlt⟩
    · rintro ⟨hf | ⟨-, rfl⟩, hlt, hn⟩
      · exact ⟨hf, hlt, hn⟩
      · omega

theorem Scored.fail (h : Scored pass done) (hs : unit.signature = some σ)
    (outcome : SpoolUnitOutcome) {update : UnitRetryState}
    (hcount : update.consecutive_failures = pass.prior (unitKey σ) + 1)
    (hbelow : update.consecutive_failures < pass.quarantine_threshold) :
    Scored { pass.next outcome with
      failed_updates := Assoc.set pass.failed_updates (unitKey σ) update }
      (done ++ [(unit, .failed)]) := by
  refine ⟨?_, ?_, ?_⟩
  · intro τ
    rw [replayedIn_other hs (by simp)]
    exact h.replayed τ
  · intro k
    rw [failedIn_concat hs]
    show (pass.quarantine_updates.lookup k).isSome = true ↔
      _ ∧ pass.quarantine_threshold ≤ pass.prior k + 1
    rw [h.quarantined]
    constructor
    · intro ⟨hf, hle⟩
      exact ⟨.inl hf, hle⟩
    · rintro ⟨hf | ⟨-, rfl⟩, hle⟩
      · exact ⟨hf, hle⟩
      · omega
  · intro k n
    rw [failedIn_concat hs]
    show (List.lookup k (Assoc.set pass.failed_updates (unitKey σ) update)).map _ = some n ↔
      _ ∧ pass.prior k + 1 < pass.quarantine_threshold ∧ n = pass.prior k + 1
    rw [Assoc.lookup_set]
    by_cases hk : k = unitKey σ
    · subst hk
      rw [if_pos rfl, ← hcount, Option.map_some, Option.some.injEq]
      constructor
      · intro hn
        exact ⟨.inr ⟨rfl, rfl⟩, hbelow, hn.symm⟩
      · intro ⟨_, _, hn⟩
        exact hn.symm
    · rw [if_neg hk, h.failed]
      simp [hk]

end Score

/-! ## All the dispatches of a pass -/

theorem dispatchAll_scored {os : List Dispatch} {pass pass' : Pass}
    {done : List (SpoolUnit × Attempt)} (h : dispatchAll pass os = some pass')
    (hend : pass'.todo = []) (hscored : Scored pass done)
    (hrecords : ∀ u ∈ pass.todo, 0 < (u.records.getD []).length)
    (hpart : ∀ u ∈ pass.todo.head?, pass.unit_results.length < (u.records.getD []).length) :
    ∃ as, attempts pass.todo pass.unit_results.length os = some as ∧
      Scored pass' (done ++ pass.todo.zip as) ∧ pass'.prior_state = pass.prior_state ∧
      pass'.quarantine_threshold = pass.quarantine_threshold ∧ pass'.now = pass.now := by
  induction os generalizing pass done with
  | nil =>
    cases h
    rw [hend]
    exact ⟨[], rfl, by simpa using hscored, rfl, rfl, rfl⟩
  | cons o os ih =>
    obtain ⟨⟨p, d⟩, hd, h⟩ := Option.bind_eq_some_iff.mp h
    obtain ⟨unit, todo, σ, htodo, hs, hcases⟩ := dispatch_cases hd
    have hunit := hpart unit (by rw [htodo]; rfl)
    have hnext : ∀ u ∈ todo, 0 < (u.records.getD []).length :=
      fun u hu => hrecords u (by rw [htodo]; exact mem_cons_of_mem _ hu)
    have hhead : ∀ u ∈ todo.head?, 0 < (u.records.getD []).length :=
      fun u hu => hnext u (mem_of_mem_head? hu)
    -- an attempt that ends here, and the rest of the pass
    have hfinish : ∀ (a : Attempt) (outcome : SpoolUnitOutcome),
        attempt ((unit.records.getD []).length - pass.unit_results.length) (o :: os) =
          some (a, os) → p.todo = todo → p.unit_results = [] → p.prior_state = pass.prior_state →
        p.quarantine_threshold = pass.quarantine_threshold → p.now = pass.now →
        Scored p (done ++ [(unit, a)]) →
        ∃ as, attempts pass.todo pass.unit_results.length (o :: os) = some as ∧
          Scored pass' (done ++ pass.todo.zip as) ∧ pass'.prior_state = pass.prior_state ∧
          pass'.quarantine_threshold = pass.quarantine_threshold ∧ pass'.now = pass.now := by
      intro a outcome hattempt hptodo hpresults hpprior hpthreshold hpnow hpscored
      obtain ⟨as, has, hscored', hprior', hthreshold', hnow'⟩ := ih h hpscored
        (by rw [hptodo]; exact hnext) (by rw [hptodo, hpresults]; exact hhead)
      rw [hptodo, hpresults] at has
      refine ⟨a :: as, ?_, ?_, hprior'.trans hpprior, hthreshold'.trans hpthreshold,
        hnow'.trans hpnow⟩
      · rw [htodo]
        unfold attempts
        rw [hattempt, Option.bind_some]
        show (attempts todo 0 os).map (a :: ·) = _
        rw [show attempts todo 0 os = some as from has, Option.map_some]
      · rw [htodo, zip_cons_cons]
        rw [hptodo, append_assoc] at hscored'
        exact hscored'
    obtain ⟨n, hn⟩ := Nat.exists_eq_add_of_lt hunit
    have hleft : (unit.records.getD []).length - pass.unit_results.length = n + 1 := by omega
    cases hcases with
    | part result hmore =>
      obtain ⟨as, has, hrest⟩ := ih h (hscored.congr rfl rfl rfl rfl rfl) hrecords (by
        intro u hu
        show (pass.unit_results ++ [result]).length < _
        rw [show pass.todo.head? = some unit by rw [htodo]; rfl] at hu
        cases hu
        rw [length_append, length_singleton]
        exact hmore)
      refine ⟨as, ?_, hrest⟩
      change attempts pass.todo (pass.unit_results ++ [result]).length os = some as at has
      rw [htodo, length_append, length_singleton] at has
      rw [htodo]
      unfold attempts at has ⊢
      rw [hleft]
      rw [show (unit.records.getD []).length - (pass.unit_results.length + 1) = n by omega] at has
      exact has
    | replayed result outcome hlast =>
      refine hfinish .replayed outcome ?_ (by simp [Pass.next, htodo]) rfl rfl rfl rfl
        (hscored.replay hs outcome _)
      rw [hleft, show n = 0 by omega]
      rfl
    | retained outcome =>
      refine hfinish .retained outcome ?_ (by simp [Pass.next, htodo]) rfl rfl rfl rfl
        (hscored.retain hs outcome)
      rw [hleft]
      rfl
    | crossed category update outcome hcount hcrossed =>
      refine hfinish .failed outcome ?_ (by simp [Pass.next, htodo]) rfl rfl rfl rfl
        (hscored.cross hs outcome hcount hcrossed)
      rw [hleft]
      rfl
    | failed category update outcome hcount hbelow =>
      refine hfinish .failed outcome ?_ (by simp [Pass.next, htodo]) rfl rfl rfl rfl
        (hscored.fail hs outcome hcount hbelow)
      rw [hleft]
      rfl

/-! ## The commit -/

section Commit
variable {pass : Pass} {done : List (SpoolUnit × Attempt)} {us : List SpoolUnit} {k : Str}

theorem fate_stays (h : Scored pass done) {u : SpoolUnit} (hk : u.key = some k) :
    (pass.fate u).stays = true ↔
      ¬ ReplayedIn done k ∧ ¬ (FailedIn done k ∧ pass.quarantine_threshold ≤ pass.prior k + 1) := by
  obtain ⟨σ, hs, rfl⟩ := Option.map_eq_some_iff.mp hk
  rw [← h.replayed, ← h.quarantined]
  unfold Pass.fate
  rw [hs]
  dsimp only
  by_cases hr : σ ∈ pass.replayed_units
  · rw [if_pos hr]
    simp [hr, Fate.stays]
  · rw [if_neg hr]
    cases hl : pass.quarantine_updates.lookup (unitKey σ) with
    | none => simp [hr, Fate.stays]
    | some st => simp [Fate.stays]

theorem mem_remaining_keys (h : Scored pass done) :
    k ∈ (pass.remainingUnits us).filterMap SpoolUnit.key ↔ k ∈ us.filterMap SpoolUnit.key ∧
      ¬ ReplayedIn done k ∧ ¬ (FailedIn done k ∧ pass.quarantine_threshold ≤ pass.prior k + 1) := by
  rw [mem_filterMap, mem_filterMap]
  unfold Pass.remainingUnits
  constructor
  · intro ⟨u, hu, hk⟩
    obtain ⟨hu, hstays⟩ := mem_filter.mp hu
    exact ⟨⟨u, hu, hk⟩, (fate_stays h hk).mp hstays⟩
  · intro ⟨⟨u, hu, hk⟩, hstays⟩
    exact ⟨u, mem_filter.mpr ⟨hu, (fate_stays h hk).mpr hstays⟩, hk⟩

theorem units_retryState (pass : Pass) (us : List SpoolUnit) : (pass.retryState us).units =
    Assoc.ofKeys ((pass.remainingUnits us).filterMap SpoolUnit.key).dedup
      fun k => (pass.failed_updates.lookup k).or (pass.prior_state.units.lookup k) := by
  unfold Pass.retryState Assoc.ofKeys
  dsimp only
  congr 1
  funext k
  cases pass.failed_updates.lookup k with
  | none => rfl
  | some update => rfl

theorem nodup_retryState (pass : Pass) (us : List SpoolUnit) :
    ((pass.retryState us).units.map Prod.fst).Nodup := by
  rw [units_retryState]
  exact Assoc.nodup_ofKeys (nodup_dedup _)

theorem lookup_retryState (pass : Pass) (us : List SpoolUnit) (k : Str) :
    (pass.retryState us).units.lookup k =
      if k ∈ (pass.remainingUnits us).filterMap SpoolUnit.key then
        (pass.failed_updates.lookup k).or (pass.prior_state.units.lookup k)
      else none := by
  rw [units_retryState]
  split
  · rename_i hk
    exact Assoc.lookup_ofKeys _ (mem_dedup.mpr hk)
  · rename_i hk
    apply Assoc.lookup_of_notMem
    intro hmem
    exact hk (mem_dedup.mp ((Assoc.keys_ofKeys _ _).subset hmem))

theorem reread_count (s : UnitRetryState) :
    (s.reread.map UnitRetryState.consecutive_failures).getD 0 =
      min s.consecutive_failures MAX_RETRY_STATE_FAILURES := by
  unfold UnitRetryState.reread
  split
  · show 0 = min s.consecutive_failures MAX_RETRY_STATE_FAILURES
    omega
  · rfl

/-- The count a later pass reads, for a unit that stays, is the next count of the failures in
a row, clamped. -/
theorem count_retryState (h : Scored pass done) (k : Str) :
    ((((pass.retryState us).units.lookup k).bind UnitRetryState.reread).map
      UnitRetryState.consecutive_failures).getD 0 =
        if k ∈ (pass.remainingUnits us).filterMap SpoolUnit.key then
          min (nextFails done pass.prior k) MAX_RETRY_STATE_FAILURES
        else 0 := by
  rw [lookup_retryState]
  split
  case isFalse => rfl
  case isTrue hmem =>
    obtain ⟨-, hr, hcross⟩ := (mem_remaining_keys h).mp hmem
    unfold nextFails
    cases hv : verdict done k with
    | replayed => exact (hr (verdict_replayed.mp hv)).elim
    | failed =>
      have hf := (verdict_failed.mp hv).2
      have hnot : ¬ pass.quarantine_threshold ≤ pass.prior k + 1 := fun hc => hcross ⟨hf, hc⟩
      have hcount := (h.failed k _).mpr ⟨hf, Nat.lt_of_not_le hnot, rfl⟩
      obtain ⟨update, hupdate, hupdated⟩ := Option.map_eq_some_iff.mp hcount
      rw [hupdate, Option.some_or, Option.bind_some, reread_count, hupdated]
    | retained =>
      have hf : ¬ FailedIn done k := by
        intro hf
        rw [verdict_failed.mpr ⟨hr, hf⟩] at hv
        cases hv
      have hnone : pass.failed_updates.lookup k = none := by
        cases hl : pass.failed_updates.lookup k with
        | none => rfl
        | some update => exact (hf ((h.failed k _).mp (by rw [hl]; rfl)).1).elim
      rw [hnone, Option.none_or]
      unfold Pass.prior
      cases pass.prior_state.units.lookup k with
      | none => rfl
      | some prior => rw [Option.bind_some, reread_count, Option.map_some, Option.getD_some]

theorem unchanged_of_scored (h : Scored pass done) (hch : pass.hasChanges = false) :
    pass.replayed_units = [] ∧ pass.quarantine_updates = [] ∧
      ∀ k, ¬ ReplayedIn done k ∧ ¬ FailedIn done k := by
  unfold Pass.hasChanges at hch
  simp only [Bool.or_eq_false_iff, Bool.not_eq_false', List.isEmpty_iff] at hch
  obtain ⟨⟨hr, hf⟩, hq⟩ := hch
  refine ⟨hr, hq, ?_⟩
  intro k
  constructor
  · intro ⟨u, hmem, hk⟩
    obtain ⟨σ, hs, rfl⟩ := Option.map_eq_some_iff.mp hk
    have := (h.replayed σ).mpr ⟨u, hmem, hk⟩
    rw [hr] at this
    cases this
  · intro hfailed
    by_cases hcross : pass.quarantine_threshold ≤ pass.prior k + 1
    · have := (h.quarantined k).mpr ⟨hfailed, hcross⟩
      rw [hq] at this
      cases this
    · have := (h.failed k _).mpr ⟨hfailed, Nat.lt_of_not_le hcross, rfl⟩
      rw [hf] at this
      cases this

end Commit

end OpenBrain.Memory.Spool
