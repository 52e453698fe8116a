import OpenBrain.Provider.Gate.CompactCycles
import OpenBrain.Provider.Gate.SelfRelease

/-!
# Which recall clears which read-back

Compactions of a session are counted; an arming and the recall that stamps a cycle are dated by
the count. The gate knows a compaction only by the cycle it joins, and it joins the stored one if
that is young enough, also one whose recall is over. `cleared_by_later_recall` is for the runs in
which it does not: the invariant is that a verified cycle a read-back is correlated to was
recalled no earlier than the read-back was armed.
-/
namespace OpenBrain.Provider.Gate
open OpenBrain.Core OpenBrain.Core.Py

/-! ## Correlation -/

/-- Whenever the read-back is correlated to a cycle with a verified recall, `P`. -/
def Correlated (receipts : ReceiptState) (s : SessionState) (P : Prop) : Prop :=
  s.readback_correlation_id ≠ [] →
    ∀ cycle, receipts.compactCycles.lookup s.session_id = some cycle →
      cycle.id = s.readback_correlation_id → cycle.verified_recall_at ≠ none → P

/-- Whenever an uncorrelated read-back adopts a cycle with a verified recall, `P`. -/
def Adopts (cal : Calendar) (receipts : ReceiptState) (reference : Instant) (s : SessionState)
    (P : Prop) : Prop :=
  s.readback_correlation_id = [] →
    ∀ cycle, current_compact_cycle cal receipts s.session_id s.project LEGACY_CORRELATION_MAX_AGE
        reference = some cycle →
      ∀ required started, cal.parse s.readback_required_at = some required →
        cal.parse cycle.started_at = some started →
        (required - started).natAbs ≤ LEGACY_CORRELATION_SKEW →
        cycle.verified_recall_at ≠ none → P

variable {cal : Calendar} {receipts : ReceiptState} {clock reference : Instant} {now : Str}
  {s s' : SessionState} {i : Invocation} {P : Prop}

theorem Correlated.same (h : Correlated receipts s P) (hs : SameReadback s s') :
    Correlated receipts s' P := by
  unfold Correlated
  rw [hs.correlation, hs.session]
  exact h

theorem recover_correlated (h : Correlated receipts s P) (ha : Adopts cal receipts reference s P) :
    Correlated receipts (recover_legacy_correlation cal receipts reference s) P := by
  unfold recover_legacy_correlation
  split
  · exact h
  · rename_i hcorr
    split
    · exact h
    · rename_i cycle hc
      split
      · rename_i required started hr hs
        split
        · exact h
        · rename_i hskew
          intro _ stored hl _ hver
          cases (current_compact_cycle_some hc).1.symm.trans hl
          exact ha (not_not.mp hcorr) cycle hc required started hr hs (not_lt.mp hskew) hver
      · exact h

theorem verified_recall_cycle {session_id project correlation_id : Str} {max_age : Int}
    (h : has_verified_compact_recall cal receipts session_id project correlation_id max_age
      reference = true) :
    ∃ cycle, receipts.compactCycles.lookup session_id = some cycle ∧ cycle.id = correlation_id ∧
      cycle.verified_recall_at ≠ none := by
  unfold has_verified_compact_recall at h
  rw [Bool.and_eq_true] at h
  obtain ⟨-, h⟩ := h
  split at h
  · cases h
  · rename_i cycle hc
    rw [Bool.and_eq_true, decide_eq_true_eq] at h
    obtain ⟨⟨-, hid⟩, hrecalled⟩ := h
    refine ⟨cycle, hc, hid, fun hnone => ?_⟩
    rw [hnone] at hrecalled
    cases hrecalled

/-- The read-back's cycle has a fresh verified recall. -/
def RecallClears (cal : Calendar) (receipts : ReceiptState) (reference : Instant)
    (s : SessionState) : Prop :=
  has_verified_compact_recall cal receipts s.session_id s.project
    (recover_legacy_correlation cal receipts reference s).readback_correlation_id
    VERIFIED_RECALL_MAX_AGE reference = true

def TimedOut (cal : Calendar) (receipts : ReceiptState) (reference : Instant) (s : SessionState) :
    Prop :=
  ∃ start, cal.parse (recover_legacy_correlation cal receipts reference s).readback_required_at =
    some start ∧ READBACK_TIMEOUT ≤ reference - start

theorem reconcile_cleared_by (h : Correlated receipts s P) (ha : Adopts cal receipts reference s P)
    (hreq : s.readback_required = true)
    (hcl : (reconcile_gate_state cal receipts now clock s).readback_required = false)
    (href : (cal.parse now).getD clock = reference) :
    (RecallClears cal receipts reference s ∧ P) ∨ TimedOut cal receipts reference s := by
  rcases reconcile_cleared hreq hcl href with ⟨hver, hcorr⟩ | hlate
  · obtain ⟨cycle, hl, hid, hrec⟩ := verified_recall_cycle hver
    have hcor := recover_correlated h ha hcorr cycle
    rw [recover_scope.1] at hcor
    exact .inl ⟨hver, hcor hl hid hrec⟩
  · exact .inr hlate

/-- A read-back that survives a reconciliation is correlated as after the recovery. -/
theorem reconcile_correlated (h : Correlated receipts s P) (ha : Adopts cal receipts reference s P)
    (hreq : (reconcile_gate_state cal receipts now clock s).readback_required = true)
    (href : (cal.parse now).getD clock = reference) :
    Correlated receipts (reconcile_gate_state cal receipts now clock s) P :=
  (recover_correlated h ha).same (reconcile_readback hreq href).2.1

/-! ## Runs -/

/-- A read-back check: the state before it, the receipts it reads, and the counts of compactions
when the read-back was armed and when the session's cycle was last stamped. -/
structure Check where
  invocation : Invocation
  receipts : ReceiptState
  state : SessionState
  armed : Nat
  recalled : Nat

/-- The state and the receipt file over a run, with the compactions of each session so far, and
their number when its read-back was armed and when its cycle was stamped. -/
structure CompactRun where
  file : Option PyJson
  receipts : ReceiptState
  clock : Instant
  compactions : Str → Nat
  armed : Str → Nat
  recalled : Str → Nat
  checks : List Check

/-- A hook that fails leaves no event. -/
inductive CompactEvent where
  | compaction (session_id : Str)
  | attach (session_id project fresh : Str) (participant : CompactCycleParticipant) (now : Instant)
  | receipt (receipt : ReceiptEvidence) (now : Instant)
  | gate (i : Invocation)

def setCount (counts : Str → Nat) (session_id : Str) (n : Nat) (key : Str) : Nat :=
  if key = session_id then n else counts key

def CompactRun.check (cal : Calendar) (run : CompactRun) (i : Invocation) : Check where
  invocation := i
  receipts := i.receipts
  state := i.found cal run.file
  armed := run.armed i.session_id
  recalled := run.recalled i.session_id

def CompactRun.armedCheck (cal : Calendar) (run : CompactRun) (i : Invocation) : Check :=
  let state := initial cal i (Members.get? (load_state run.file) i.session_id)
  { invocation := i
    receipts := (compact_cycle_for_event cal i state).2.2
    state := armed_state cal i state
    armed := run.compactions i.session_id
    recalled := run.recalled i.session_id }

def CompactRun.checksOf (cal : Calendar) (run : CompactRun) (i : Invocation) : List Check :=
  if i.arms && i.event_name == .session_start then [run.check cal i, run.armedCheck cal i]
  else [run.check cal i]

def CompactRun.afterReceipt (run : CompactRun) (receipt : ReceiptEvidence) (now : Instant) :
    CompactRun :=
  match filed receipt with
  | none => { run with clock := now }
  | some receipt =>
    { run with
      clock := now
      receipts := credit_cycle (file_receipt run.receipts receipt) receipt
      recalled :=
        if stamps run.receipts receipt then
          setCount run.recalled receipt.session_id (run.compactions receipt.session_id)
        else run.recalled }

def CompactRun.afterGate (cal : Calendar) (run : CompactRun) (i : Invocation) : CompactRun :=
  let outcome := invoke cal run.file i
  { run with
    file := outcome.file
    receipts := outcome.receipts
    clock := i.cycleNow
    armed :=
      if i.arms then setCount run.armed i.session_id (run.compactions i.session_id) else run.armed
    checks := run.checks ++ run.checksOf cal i }

/-- The clock does not go back, and a gate reads the receipt file as it is. -/
def compactStep (cal : Calendar) (run : CompactRun) : CompactEvent → CompactRun → Prop
  | .compaction session_id, run' =>
    run' = { run with
      compactions := setCount run.compactions session_id (run.compactions session_id + 1) }
  | .attach session_id project fresh participant now, run' =>
    run.clock ≤ now ∧ run' = { run with
      clock := now
      receipts := (attach_compact_cycle cal run.receipts session_id project fresh participant
        now).getD run.receipts }
  | .receipt receipt now, run' => run.clock ≤ now ∧ run' = run.afterReceipt receipt now
  | .gate i, run' =>
    run.clock ≤ i.now ∧ i.now ≤ i.cycleNow ∧ i.receipts = run.receipts ∧
      run' = run.afterGate cal i

/-- Any order of events, from any two files. -/
def compactRuns (cal : Calendar) : LTS CompactRun CompactEvent where
  init run := (∀ id, run.compactions id = 0 ∧ run.armed id = 0 ∧ run.recalled id = 0) ∧
    run.checks = []
  step := compactStep cal

/-- A check that clears the read-back does so for a recall that was recorded no earlier than the
compaction the read-back was armed for, or for the timeout. -/
def Check.Justified (cal : Calendar) (check : Check) : Prop :=
  let i := check.invocation
  check.state.readback_required = true →
    (reconcile_gate_state cal check.receipts (cal.iso i.now) i.now check.state).readback_required =
      false →
    (RecallClears cal check.receipts i.stamp check.state ∧ check.armed ≤ check.recalled) ∨
      TimedOut cal check.receipts i.stamp check.state

/-- The cycles a gate event takes up hold no recall of an earlier compaction: the young one of the
session's project that an arming joins, and the one an uncorrelated read-back adopts. -/
def TakesUpOwn (cal : Calendar) (run : CompactRun) : CompactEvent → Prop
  | .gate i =>
    (i.arms = true → ∀ cycle started,
      run.receipts.compactCycles.lookup i.session_id = some cycle →
      cycle.project = (i.found cal run.file).project →
      cal.parse cycle.started_at = some started →
      i.cycleNow - started ≤ COMPACT_CYCLE_MAX_AGE ∨
        (i.stamp - started).natAbs ≤ LEGACY_CORRELATION_SKEW →
      cycle.verified_recall_at ≠ none →
      run.compactions i.session_id ≤ run.recalled i.session_id) ∧
    ((i.found cal run.file).readback_required = true →
      Adopts cal run.receipts i.stamp (i.found cal run.file)
        (run.armed i.session_id ≤ run.recalled i.session_id))
  | _ => True

/-! ## The invariant -/

/-- A read-back is armed for a compaction there was, a verified cycle it is correlated to was
recalled no earlier, and every check was justified. -/
structure InOrder (cal : Calendar) (run : CompactRun) : Prop where
  armed_le : ∀ id, run.armed id ≤ run.compactions id
  stored : ∀ id, (storedState run.file id).readback_required = true →
    Correlated run.receipts (storedState run.file id) (run.armed id ≤ run.recalled id)
  checks : ∀ check ∈ run.checks, check.Justified cal

variable {run run' : CompactRun}

theorem setCount_self (counts : Str → Nat) (session_id : Str) (n : Nat) :
    setCount counts session_id n session_id = n := if_pos rfl

theorem setCount_ne {counts : Str → Nat} {session_id key : Str} {n : Nat} (h : key ≠ session_id) :
    setCount counts session_id n key = counts key := if_neg h

theorem inOrder_compaction (hi : InOrder cal run) (session_id : Str) :
    InOrder cal { run with
      compactions := setCount run.compactions session_id (run.compactions session_id + 1) } where
  armed_le id := by
    show run.armed id ≤ setCount _ _ _ id
    by_cases hid : id = session_id
    · rw [hid, setCount_self]
      have hle := hi.armed_le session_id
      omega
    · rw [setCount_ne hid]
      exact hi.armed_le id
  stored := hi.stored
  checks := hi.checks

theorem inOrder_receipts (hi : InOrder cal run) {receipts : ReceiptState} {now : Instant}
    (h : ∀ key cycle', receipts.compactCycles.lookup key = some cycle' →
      cycle'.verified_recall_at = none ∨
        ∃ cycle, run.receipts.compactCycles.lookup key = some cycle ∧ SameCycle cycle cycle') :
    InOrder cal { run with
      clock := now
      receipts := receipts } where
  armed_le := hi.armed_le
  stored id hreq hcorr cycle' hl hid hver := by
    rcases h _ cycle' hl with hnone | ⟨cycle, hc, hsame⟩
    · exact absurd hnone hver
    · exact hi.stored id hreq hcorr cycle hc (hsame.id.symm.trans hid)
        (fun hnone => hver (hsame.verified.trans hnone))
  checks := hi.checks

theorem inOrder_attach (hi : InOrder cal run) (session_id project fresh : Str)
    (participant : CompactCycleParticipant) (now : Instant) :
    InOrder cal { run with
      clock := now
      receipts := (attach_compact_cycle cal run.receipts session_id project fresh participant
        now).getD run.receipts } := by
  cases ha : attach_compact_cycle cal run.receipts session_id project fresh participant now with
  | none => exact inOrder_receipts hi fun key cycle hl => .inr ⟨cycle, hl, rfl, rfl⟩
  | some receipts => exact inOrder_receipts hi fun key cycle hl => attach_cycle ha hl

theorem inOrder_receipt (hi : InOrder cal run) (receipt : ReceiptEvidence) (now : Instant) :
    InOrder cal (run.afterReceipt receipt now) := by
  unfold CompactRun.afterReceipt
  split
  · exact ⟨hi.armed_le, hi.stored, hi.checks⟩
  · rename_i receipt _
    refine ⟨hi.armed_le, fun id hreq hcorr cycle' hl hid hver => ?_, hi.checks⟩
    obtain ⟨cycle, hc, hsame, hrec⟩ := credit_cycle_lookup hl
    show run.armed id ≤ (if stamps run.receipts receipt then _ else run.recalled) id
    split
    · by_cases hkey : id = receipt.session_id
      · rw [hkey, setCount_self]
        exact hi.armed_le receipt.session_id
      · rw [setCount_ne hkey]
        rcases hrec with hver' | ⟨-, hkey'⟩
        · exact hi.stored id hreq hcorr cycle hc (hsame.symm.trans hid)
            (fun hnone => hver (hver'.trans hnone))
        · exact absurd hkey' hkey
    · rename_i hstamps
      rcases hrec with hver' | ⟨hst, -⟩
      · exact hi.stored id hreq hcorr cycle hc (hsame.symm.trans hid)
          (fun hnone => hver (hver'.trans hnone))
      · exact absurd hst hstamps

/-! ## Gate events -/

theorem handle_receipts (harms : i.arms = false) : (handle cal i s).receipts = i.receipts := by
  unfold handle handle_user_prompt_submit handle_pre_tool_use block handle_checkpoint_done
    handle_repair_enter handle_repair_exit handle_stop handle_compact_lifecycle
  rw [harms]
  repeat' split
  all_goals first | rfl | contradiction

theorem invoke_receipts (cal : Calendar) (file : Option PyJson) (i : Invocation) :
    (invoke cal file i).receipts =
      (handle cal i (initial cal i (Members.get? (load_state file) i.session_id))).receipts := by
  unfold invoke
  dsimp only
  split <;> rfl

/-- The cycle of an arming is young and of the project, so `P`; or it is new; or there is none. -/
theorem cycle_for_event_verified
    (hj : ∀ cycle started, i.receipts.compactCycles.lookup i.session_id = some cycle →
      cycle.project = s.project → cal.parse cycle.started_at = some started →
      i.cycleNow - started ≤ COMPACT_CYCLE_MAX_AGE → cycle.verified_recall_at ≠ none → P) :
    (∀ cycle, (compact_cycle_for_event cal i s).2.2.compactCycles.lookup i.session_id =
        some cycle → cycle.verified_recall_at ≠ none → P) ∨
      compact_cycle_for_event cal i s = ([], cal.iso i.now, i.receipts) := by
  have hcurrent : ∀ cycle, current_compact_cycle cal i.receipts i.session_id s.project
      COMPACT_CYCLE_MAX_AGE i.cycleNow = some cycle → cycle.verified_recall_at ≠ none → P := by
    intro cycle hc hver
    obtain ⟨hl, hp, started, hs, hage⟩ := current_compact_cycle_some hc
    exact hj cycle started hl hp hs hage hver
  unfold compact_cycle_for_event
  dsimp only
  split
  · rename_i cycle hc
    split at hc
    · cases hc
    · refine .inl fun stored hl hver => ?_
      cases (current_compact_cycle_some hc).1.symm.trans hl
      exact hcurrent cycle hc hver
  · split
    · rename_i cycle receipts' hg
      refine .inl fun stored hl hver => ?_
      rcases gate_compact_cycle_some hg with ⟨hc, rfl⟩ | ⟨rfl, rfl⟩
      · unfold ReceiptState.setCycle at hl
        rw [Assoc.lookup_set, if_pos rfl] at hl
        cases hl
        exact hcurrent cycle hc fun hnone =>
          hver ((same_record_attempt cycle .gate).verified.trans hnone)
      · unfold ReceiptState.setCycle at hl
        rw [Assoc.lookup_set, if_pos rfl] at hl
        cases hl
        exact absurd rfl hver
    · exact .inr rfl

/-- The armed read-back is correlated to a cycle of its own, and adopts none but such. -/
theorem armed_correlated (cal : Calendar) (hid : s.session_id = i.session_id)
    (hj : ∀ cycle started, i.receipts.compactCycles.lookup i.session_id = some cycle →
      cycle.project = s.project → cal.parse cycle.started_at = some started →
      i.cycleNow - started ≤ COMPACT_CYCLE_MAX_AGE ∨
        (i.stamp - started).natAbs ≤ LEGACY_CORRELATION_SKEW →
      cycle.verified_recall_at ≠ none → P) :
    Correlated (compact_cycle_for_event cal i s).2.2 (armed_state cal i s) P ∧
      Adopts cal (compact_cycle_for_event cal i s).2.2 i.stamp (armed_state cal i s) P := by
  have hsid : (armed_state cal i s).session_id = i.session_id := hid
  have hproj : (armed_state cal i s).project = s.project := rfl
  unfold Correlated Adopts
  rw [hsid, hproj]
  rcases cycle_for_event_verified (s := s) fun cycle started hl hp hs hage =>
    hj cycle started hl hp hs (.inl hage) with hver | hnone
  · exact ⟨fun _ cycle hl _ => hver cycle hl,
      fun _ cycle hc _ _ _ _ _ => hver cycle (current_compact_cycle_some hc).1⟩
  · have hcorr : (armed_state cal i s).readback_correlation_id = [] := congrArg Prod.fst hnone
    have hat : (armed_state cal i s).readback_required_at = cal.iso i.now :=
      congrArg (fun t => t.2.1) hnone
    rw [hcorr, hat, hnone]
    refine ⟨fun hne => absurd rfl hne, fun _ cycle hc required started hr hs hskew => ?_⟩
    obtain ⟨hl, hp, -⟩ := current_compact_cycle_some hc
    rw [cal.parse_iso'] at hr
    cases hr
    exact hj cycle started hl hp hs (.inr hskew)

theorem stamp_reference (cal : Calendar) (i : Invocation) :
    (cal.parse (cal.iso i.now)).getD i.now = i.stamp := by
  rw [cal.parse_iso']
  rfl

/-- The read-back an event finds. -/
theorem found_correlated (hi : InOrder cal run) (hr : i.receipts = run.receipts)
    (hreq : (i.found cal run.file).readback_required = true) :
    Correlated i.receipts (i.found cal run.file)
      (run.armed i.session_id ≤ run.recalled i.session_id) := by
  rw [hr]
  exact hi.stored i.session_id hreq

theorem checksOf_justified (hi : InOrder cal run) (hr : i.receipts = run.receipts)
    (hg : TakesUpOwn cal run (.gate i)) : ∀ check ∈ run.checksOf cal i, check.Justified cal := by
  obtain ⟨hjoin, hadopt⟩ := hg
  rw [← hr] at hjoin hadopt
  obtain ⟨hid, hproj⟩ := initial_scope cal i (Members.get? (load_state run.file) i.session_id)
  have hfirst : (run.check cal i).Justified cal := fun hreq hcl =>
    reconcile_cleared_by (found_correlated hi hr hreq) (hadopt hreq) hreq hcl
      (stamp_reference cal i)
  unfold CompactRun.checksOf
  split
  · rename_i harms
    rw [Bool.and_eq_true] at harms
    intro check hc
    rw [List.mem_cons, List.mem_singleton] at hc
    rcases hc with rfl | rfl
    · exact hfirst
    · intro hreq hcl
      obtain ⟨hcor, had⟩ := armed_correlated cal hid (hproj.symm ▸ hjoin harms.1)
      exact reconcile_cleared_by hcor had hreq hcl (stamp_reference cal i)
  · intro check hc
    rw [List.mem_singleton] at hc
    subst hc
    exact hfirst

theorem initial_correlated (hi : InOrder cal run) (hr : i.receipts = run.receipts)
    (hg : TakesUpOwn cal run (.gate i))
    (hreq : (initial cal i (Members.get? (load_state run.file) i.session_id)).readback_required =
      true) :
    Correlated i.receipts (initial cal i (Members.get? (load_state run.file) i.session_id))
      (run.armed i.session_id ≤ run.recalled i.session_id) := by
  have hsame : SameReadback
      (reconcile_gate_state cal i.receipts (cal.iso i.now) i.now (i.found cal run.file))
      (initial cal i (Members.get? (load_state run.file) i.session_id)) := same_note_long_sprint
  have hrec : (reconcile_gate_state cal i.receipts (cal.iso i.now) i.now
      (i.found cal run.file)).readback_required = true := hsame.required.symm.trans hreq
  have hfound : (i.found cal run.file).readback_required = true :=
    (reconcile_readback hrec rfl).1
  have hadopt := hg.2 hfound
  rw [← hr] at hadopt
  exact (reconcile_correlated (found_correlated hi hr hfound) hadopt hrec
    (stamp_reference cal i)).same hsame

/-- Every state an invocation saves is correlated to a cycle recalled in order. -/
theorem saved_correlated (hi : InOrder cal run) (hr : i.receipts = run.receipts)
    (hg : TakesUpOwn cal run (.gate i)) :
    let answer := handle cal i (initial cal i (Members.get? (load_state run.file) i.session_id))
    ∀ s ∈ answer.saves, s.session_id = i.session_id ∧ (s.readback_required = true →
      Correlated answer.receipts s ((run.afterGate cal i).armed i.session_id ≤
        run.recalled i.session_id)) := by
  obtain ⟨hid, hproj⟩ := initial_scope cal i (Members.get? (load_state run.file) i.session_id)
  intro answer s hs
  unfold CompactRun.afterGate
  dsimp only
  cases harms : i.arms with
  | true =>
    rw [if_pos rfl, setCount_self]
    have hanswer : answer = arm cal i _ := handle_arms harms
    rw [hanswer] at hs ⊢
    refine ⟨(arm_session s hs).trans hid, fun hreq => ?_⟩
    have hjoin := hg.1 harms
    rw [← hr] at hjoin
    obtain ⟨hcor, had⟩ := armed_correlated cal hid (hproj.symm ▸ hjoin)
    rw [List.mem_singleton.mp hs] at hreq ⊢
    split
    · rename_i hev
      rw [if_pos hev] at hreq
      exact reconcile_correlated hcor had hreq (stamp_reference cal i)
    · exact hcor
  | false =>
    rw [if_neg Bool.false_ne_true]
    obtain ⟨hsid, hkeep⟩ := handle_keeps harms s hs
    refine ⟨hsid.trans hid, fun hreq => ?_⟩
    have hrec : answer.receipts = i.receipts := handle_receipts harms
    rw [hrec]
    have hsame := hkeep hreq
    exact (initial_correlated hi hr hg (hsame.required ▸ hreq)).same hsame

/-- An invocation leaves the cycles of the other sessions. -/
theorem handle_receipts_other {key : Str} (hkey : key ≠ i.session_id) :
    (handle cal i s).receipts.compactCycles.lookup key = i.receipts.compactCycles.lookup key := by
  cases harms : i.arms with
  | false => rw [handle_receipts harms]
  | true =>
    rw [handle_arms harms]
    show (compact_cycle_for_event cal i s).2.2.compactCycles.lookup key = _
    unfold compact_cycle_for_event
    dsimp only
    split
    · rfl
    · split
      · rename_i cycle receipts' hg
        rcases gate_compact_cycle_some hg with ⟨-, rfl⟩ | ⟨-, rfl⟩
        all_goals
          unfold ReceiptState.setCycle
          rw [Assoc.lookup_set, if_neg hkey]
      · rfl

theorem stored_correlated {written : Option PyJson} {session_id : Str}
    (hentry : Members.get? (load_state written) session_id = some (.obj s.to_json))
    (hid : s.session_id = session_id) (h : Correlated receipts s P) :
    Correlated receipts (storedState written session_id) P := by
  have hstored : (storedState written session_id).session_id = session_id := rfl
  unfold Correlated at h ⊢
  rw [hstored, (storedState_saved hentry).2.2, ← hid]
  exact h

theorem armed_other {id : Str} (hid : id ≠ i.session_id) :
    (run.afterGate cal i).armed id = run.armed id := by
  show (if i.arms then _ else run.armed) id = run.armed id
  split
  · exact setCount_ne hid
  · rfl

theorem inOrder_gate (hi : InOrder cal run) (hr : i.receipts = run.receipts)
    (hg : TakesUpOwn cal run (.gate i)) : InOrder cal (run.afterGate cal i) where
  armed_le id := by
    show (if i.arms then _ else run.armed) id ≤ run.compactions id
    split
    · by_cases hid : id = i.session_id
      · rw [hid, setCount_self]
      · rw [setCount_ne hid]
        exact hi.armed_le id
    · exact hi.armed_le id
  stored id hreq := by
    have hsaved := saved_correlated hi hr hg
    show Correlated (invoke cal run.file i).receipts _ _
    rw [invoke_receipts]
    rcases invoke_file cal run.file i with ⟨written, hsave, hfile, -⟩ | ⟨hfile, -⟩
    · have hstored : storedState (run.afterGate cal i).file id = storedState written id := by
        rw [← hfile]
        rfl
      rw [hstored] at hreq ⊢
      obtain ⟨hother, hown⟩ := saveAll_entry (fun s hs => (hsaved s hs).1) hsave
      by_cases hid : id = i.session_id
      · subst hid
        rcases hown with ⟨hnil, rfl⟩ | ⟨s, hs, hentry⟩
        · -- nothing was saved, so the event armed nothing
          have harms : i.arms = false := by
            by_contra hne
            rw [Bool.not_eq_false] at hne
            rw [handle_arms hne] at hnil
            cases hnil
          have harmed : (run.afterGate cal i).armed i.session_id = run.armed i.session_id := by
            show (if i.arms then _ else run.armed) i.session_id = _
            rw [harms]
            rfl
          rw [handle_receipts harms, hr, harmed]
          exact hi.stored i.session_id hreq
        · obtain ⟨hsid, hcor⟩ := hsaved s hs
          rw [(storedState_saved hentry).1] at hreq
          exact stored_correlated hentry hsid (hcor hreq)
      · have hsame : storedState written id = storedState run.file id := by
          unfold storedState
          rw [hother id hid]
        rw [hsame] at hreq ⊢
        intro hcorr cycle hl
        rw [armed_other hid]
        replace hl : (handle cal i _).receipts.compactCycles.lookup id = some cycle := hl
        rw [handle_receipts_other hid, hr] at hl
        exact hi.stored id hreq hcorr cycle hl
    · have hempty : storedState (run.afterGate cal i).file id = storedState none id := by
        rw [← hfile]
        rfl
      rw [hempty] at hreq
      cases hreq
  checks check hc := by
    rcases List.mem_append.mp hc with hc | hc
    · exact hi.checks check hc
    · exact checksOf_justified hi hr hg check hc

theorem compactRuns_inductive (cal : Calendar) :
    (compactRuns cal).InductiveOn (TakesUpOwn cal) (InOrder cal) where
  init run h := by
    obtain ⟨hzero, hchecks⟩ := h
    refine ⟨fun id => ?_, fun id _ _ _ _ _ _ => ?_, fun check hc => ?_⟩
    · have := hzero id
      omega
    · have := hzero id
      omega
    · rw [hchecks] at hc
      cases hc
  step run event run' hi hg hstep := by
    cases event with
    | compaction session_id =>
      cases hstep
      exact inOrder_compaction hi session_id
    | attach session_id project fresh participant now =>
      obtain ⟨-, rfl⟩ := hstep
      exact inOrder_attach hi session_id project fresh participant now
    | receipt receipt now =>
      obtain ⟨-, rfl⟩ := hstep
      exact inOrder_receipt hi receipt now
    | gate i =>
      obtain ⟨-, -, hr, rfl⟩ := hstep
      exact inOrder_gate hi hr hg

/-! ## The law -/

/-- In a run whose gate events take up no cycle recalled for an earlier compaction, a check clears
a read-back only for a recall that is no earlier than the compaction it was armed for, or for the
timeout. -/
theorem cleared_by_later_recall {run : CompactRun}
    (h : (compactRuns cal).ReachableOn (TakesUpOwn cal) run) :
    ∀ check ∈ run.checks, check.Justified cal := ((compactRuns_inductive cal).reachable h).checks

theorem check_mem (cal : Calendar) (run : CompactRun) (i : Invocation) :
    run.check cal i ∈ (run.afterGate cal i).checks := by
  refine List.mem_append_right run.checks ?_
  unfold CompactRun.checksOf
  split <;> exact List.mem_cons_self

def atRest : CompactRun := ⟨none, ⟨[], [], []⟩, 0, fun _ => 0, fun _ => 0, fun _ => 0, []⟩

def CompactRun.compacted (run : CompactRun) : CompactRun :=
  { run with compactions := setCount run.compactions (units "s") (run.compactions (units "s") + 1) }

def CompactRun.event (run : CompactRun) (event_name : EventName) (now : Instant) : Invocation :=
  { bareEvent event_name now with receipts := run.receipts }

/-- The recall of the cycle the gate opens. -/
def recallReceipt : ReceiptEvidence where
  operation := units "recall"
  mode := units "verified-remote"
  status := units "direct"
  project := units "p"
  session_id := units "s"
  trigger := units "compact"
  recorded_at := utc.iso (seconds 10)
  correlation_id := some (units "01234567-89ab-4cde-8f01-23456789abcd")

def armedRun : CompactRun := atRest.compacted.afterGate utc (atRest.compacted.event .post_compact 0)

def recalledRun : CompactRun := armedRun.afterReceipt recallReceipt (seconds 10)

def clearingCheck : Check := recalledRun.check utc (recalledRun.event .pre_tool_use (seconds 20))

theorem recalled_reach (G : CompactRun → CompactEvent → Prop)
    (hg : G atRest.compacted (.gate (atRest.compacted.event .post_compact 0)))
    (hc : G atRest (.compaction (units "s")))
    (hr : G armedRun (.receipt recallReceipt (seconds 10))) :
    (compactRuns utc).ReachableOn G recalledRun :=
  ⟨atRest, [.compaction (units "s"), .gate (atRest.compacted.event .post_compact 0),
      .receipt recallReceipt (seconds 10)], ⟨fun _ => ⟨rfl, rfl, rfl⟩, rfl⟩,
    .cons hc rfl (.cons hg ⟨le_refl _, le_refl _, rfl, rfl⟩
      (.cons hr ⟨by decide, rfl⟩ (.nil _)))⟩

theorem cleared_by_its_recall :
    (RecallClears utc clearingCheck.receipts clearingCheck.invocation.stamp clearingCheck.state ∧
      clearingCheck.armed ≤ clearingCheck.recalled) ∨
      TimedOut utc clearingCheck.receipts clearingCheck.invocation.stamp clearingCheck.state := by
  have harm : TakesUpOwn utc atRest.compacted (.gate (atRest.compacted.event .post_compact 0)) :=
    ⟨fun _ _ _ h => (nomatch h), fun h => Bool.noConfusion h⟩
  have hcheck : (clearingCheck.state.readback_correlation_id ≠ [] ∧
      clearingCheck.state.readback_required = true) ∧
      (reconcile_gate_state utc clearingCheck.receipts (utc.iso clearingCheck.invocation.now)
        clearingCheck.invocation.now clearingCheck.state).readback_required = false := by
    decide +kernel
  have hcall : TakesUpOwn utc recalledRun (.gate (recalledRun.event .pre_tool_use (seconds 20))) :=
    ⟨fun h => Bool.noConfusion h, fun _ h => absurd h hcheck.1.1⟩
  obtain ⟨start, events, hinit, hrun⟩ := recalled_reach (TakesUpOwn utc) harm trivial trivial
  have hreach : (compactRuns utc).ReachableOn (TakesUpOwn utc)
      (recalledRun.afterGate utc (recalledRun.event .pre_tool_use (seconds 20))) :=
    ⟨start, _, hinit, hrun.append (.cons hcall ⟨by decide, le_refl _, rfl, rfl⟩ (.nil _))⟩
  exact cleared_by_later_recall hreach clearingCheck (check_mem _ _ _) hcheck.1.2 hcheck.2

/-- A minute later the session compacts again, and only the gate records it. -/
def rearmedRun : CompactRun :=
  recalledRun.compacted.afterGate utc (recalledRun.compacted.event .post_compact (seconds 60))

def earlyCheck : Check := rearmedRun.check utc (rearmedRun.event .pre_tool_use (seconds 70))

/-- The recall of the first compaction clears the read-back of the second. -/
theorem cleared_by_earlier_recall : ¬ ∀ run, (compactRuns utc).Reachable run →
    ∀ check ∈ run.checks, check.Justified utc := by
  intro h
  obtain ⟨start, events, hinit, hrun⟩ := recalled_reach LTS.anyStep trivial trivial trivial
  have hlast : (compactRuns utc).RunOn LTS.anyStep recalledRun
      [.compaction (units "s"), .gate (recalledRun.compacted.event .post_compact (seconds 60)),
        .gate (rearmedRun.event .pre_tool_use (seconds 70))]
      (rearmedRun.afterGate utc (rearmedRun.event .pre_tool_use (seconds 70))) :=
    .cons trivial rfl (.cons trivial ⟨by decide, le_refl _, rfl, rfl⟩
      (.cons trivial ⟨by decide, le_refl _, rfl, rfl⟩ (.nil _)))
  have hreach : (compactRuns utc).Reachable
      (rearmedRun.afterGate utc (rearmedRun.event .pre_tool_use (seconds 70))) :=
    ⟨start, _, hinit, hrun.append hlast⟩
  have hcheck : earlyCheck.state.readback_required = true ∧
      (reconcile_gate_state utc earlyCheck.receipts (utc.iso earlyCheck.invocation.now)
        earlyCheck.invocation.now earlyCheck.state).readback_required = false ∧
      earlyCheck.recalled < earlyCheck.armed ∧
      utc.parse (recover_legacy_correlation utc earlyCheck.receipts earlyCheck.invocation.stamp
        earlyCheck.state).readback_required_at = some 0 := by decide +kernel
  obtain ⟨hreq, hcleared, hlt, hsince⟩ := hcheck
  rcases h _ hreach earlyCheck (check_mem _ _ _) hreq hcleared with ⟨-, hle⟩ | ⟨since, hparse, hlate⟩
  · omega
  · cases hsince.symm.trans hparse
    revert hlate
    decide

end OpenBrain.Provider.Gate
