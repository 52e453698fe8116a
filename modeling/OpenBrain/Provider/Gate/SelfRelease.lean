import OpenBrain.Core.LTS
import OpenBrain.Provider.Gate.Calendar
import OpenBrain.Provider.Gate.Readback

/-!
# The read-back releases itself

The release reads `readbackRequiredAt`. A start that is no timestamp is never old, and one that
lies ahead of the arming is old too late; both can stand in the file, and a cycle that is joined
or adopted can bring one in. `releases_itself` is the bound for the runs that meet none of these:
the invariant is that a required read-back starts no later than its arming.
-/
namespace OpenBrain.Provider.Gate
open OpenBrain.Core OpenBrain.Core.Py

/-! ## Runs -/

/-- The state file over a run. `armed` is when a session's read-back was last armed; a session
the run found armed is counted from its first event. -/
structure GateRun where
  file : Option PyJson
  clock : Instant
  armed : Str → Option Instant
  last : Option (Invocation × Verdict)

def GateRun.next (cal : Calendar) (run : GateRun) (i : Invocation) : GateRun :=
  let outcome := invoke cal run.file i
  let moment :=
    if i.arms && outcome.verdict != .crashed then i.cycleNow
    else (run.armed i.session_id).getD i.now
  { file := outcome.file
    clock := i.cycleNow
    armed := fun id => if id = i.session_id then some moment else run.armed id
    last := some (i, outcome.verdict) }

/-- Invocations one after the other, from any file, under a clock that does not go back. -/
def gateRuns (cal : Calendar) : LTS GateRun Invocation where
  init run := (∀ id, run.armed id = none) ∧ run.last = none
  step run i run' := run.clock ≤ i.now ∧ i.now ≤ i.cycleNow ∧ run' = run.next cal i

/-- The event is blocked for the read-back no later than the timeout allows. -/
def ReleasedInTime (run : GateRun) : Prop :=
  ∀ i, run.last = some (i, .blocked READBACK_REASON) →
    ∃ armed, run.armed i.session_id = some armed ∧ i.stamp < armed + READBACK_TIMEOUT

/-- The starts an event meets are timestamps, and none is ahead of the arming: the one in the
file, at the session's first event; that of a cycle a read-back without correlation adopts; that
of the cycle an arming joins. -/
structure Timely (cal : Calendar) (run : GateRun) (i : Invocation) : Prop where
  stored : run.armed i.session_id = none → i.arms = false →
    (i.found cal run.file).readback_required = true →
    NotAfter cal (i.found cal run.file).readback_required_at i.now
  adopted : i.arms = false → (i.found cal run.file).readback_required = true →
    (i.found cal run.file).readback_correlation_id = [] →
    ∀ cycle, current_compact_cycle cal i.receipts i.session_id (i.found cal run.file).project
        LEGACY_CORRELATION_MAX_AGE i.stamp = some cycle →
      ∀ required started, cal.parse (i.found cal run.file).readback_required_at = some required →
        cal.parse cycle.started_at = some started →
        (required - started).natAbs ≤ LEGACY_CORRELATION_SKEW →
        started ≤ (run.armed i.session_id).getD i.now
  joined : i.arms = true → CycleNotAfter cal i.receipts i.session_id
    (i.found cal run.file).project i.cycleNow

/-! ## The invariant -/

/-- A required read-back starts no later than its arming. -/
def StartsInTime (cal : Calendar) (run : GateRun) : Prop :=
  ∀ id armed, run.armed id = some armed → (storedState run.file id).readback_required = true →
    NotAfter cal (storedState run.file id).readback_required_at armed

variable {cal : Calendar} {run run' : GateRun} {i : Invocation}

theorem found_notAfter (hg : Timely cal run i) (hi : StartsInTime cal run) (harms : i.arms = false)
    (hreq : (i.found cal run.file).readback_required = true) :
    NotAfter cal (i.found cal run.file).readback_required_at
      ((run.armed i.session_id).getD i.now) := by
  cases harmed : run.armed i.session_id with
  | none => exact hg.stored harmed harms hreq
  | some armed => exact hi i.session_id armed harmed hreq

/-- So is the start of a cycle the read-back adopts. -/
theorem recovered_notAfter (hg : Timely cal run i) (hi : StartsInTime cal run)
    (harms : i.arms = false) (hreq : (i.found cal run.file).readback_required = true) :
    NotAfter cal (recover_legacy_correlation cal i.receipts i.stamp
      (i.found cal run.file)).readback_required_at ((run.armed i.session_id).getD i.now) := by
  have hfound := found_notAfter hg hi harms hreq
  unfold recover_legacy_correlation
  split
  · exact hfound
  · rename_i hcorr
    split
    · exact hfound
    · rename_i cycle hc
      split
      · rename_i required started hr hs
        split
        · exact hfound
        · rename_i hskew
          exact ⟨started, hs, hg.adopted harms hreq (not_not.mp hcorr) cycle hc required started
            hr hs (not_lt.mp hskew)⟩
      · exact hfound

/-- The read-back an event answers from starts in time and has not timed out. -/
theorem initial_readback (hg : Timely cal run i) (hi : StartsInTime cal run)
    (harms : i.arms = false)
    (h : (initial cal i (Members.get? (load_state run.file) i.session_id)).readback_required =
      true) :
    ∃ t, cal.parse (initial cal i
        (Members.get? (load_state run.file) i.session_id)).readback_required_at = some t ∧
      t ≤ (run.armed i.session_id).getD i.now ∧ i.stamp - t < READBACK_TIMEOUT := by
  unfold initial at h ⊢
  rw [same_note_long_sprint.required] at h
  rw [same_note_long_sprint.required_at]
  have href : (cal.parse (cal.iso i.now)).getD i.now = i.stamp := by
    rw [cal.parse_iso']
    rfl
  obtain ⟨hreq, hrec, hlate⟩ := reconcile_readback h href
  obtain ⟨t, ht, hle⟩ := recovered_notAfter hg hi harms hreq
  have ht' := (congrArg cal.parse hrec.required_at).trans ht
  exact ⟨t, ht', hle, hlate t ht'⟩

theorem saved_notAfter (hg : Timely cal run i) (hi : StartsInTime cal run)
    (hclock : i.now ≤ i.cycleNow) :
    ∀ s ∈ (handle cal i (initial cal i (Members.get? (load_state run.file) i.session_id))).saves,
      s.session_id = i.session_id ∧ (s.readback_required = true →
        NotAfter cal s.readback_required_at
          (if i.arms then i.cycleNow else (run.armed i.session_id).getD i.now)) := by
  obtain ⟨hid, hproj⟩ := initial_scope cal i (Members.get? (load_state run.file) i.session_id)
  intro s hs
  cases harms : i.arms with
  | true =>
    rw [handle_arms harms] at hs
    have hjoined := hg.joined harms
    exact ⟨(arm_session s hs).trans hid, arm_at hclock hid (hproj.symm ▸ hjoined) s hs⟩
  | false =>
    obtain ⟨hsid, hkeep⟩ := handle_keeps harms s hs
    refine ⟨hsid.trans hid, fun hreq => ?_⟩
    have hsame := hkeep hreq
    obtain ⟨t, ht, hle, -⟩ := initial_readback hg hi harms (hsame.required ▸ hreq)
    rw [hsame.required_at]
    exact ⟨t, ht, hle⟩

theorem invoke_file (cal : Calendar) (file : Option PyJson) (i : Invocation) :
    let answer := handle cal i (initial cal i (Members.get? (load_state file) i.session_id))
    (∃ written, saveAll (load_state file) file answer.saves = some written ∧
        (invoke cal file i).file = written ∧ (invoke cal file i).verdict = answer.verdict) ∨
      ((invoke cal file i).file = none ∧ (invoke cal file i).verdict = .crashed) := by
  intro answer
  unfold invoke
  dsimp only
  split
  · rename_i written hw
    exact .inl ⟨written, hw, rfl, rfl⟩
  · exact .inr ⟨rfl, rfl⟩

theorem handle_not_crashed (s : SessionState) : (handle cal i s).verdict ≠ .crashed := by
  intro h
  cases harms : i.arms with
  | true =>
    rw [handle_arms harms] at h
    cases h
  | false =>
    unfold handle handle_user_prompt_submit handle_pre_tool_use block handle_checkpoint_done
      handle_repair_enter handle_repair_exit handle_stop handle_compact_lifecycle arm at h
    repeat' split at h
    all_goals cases h

theorem startsInTime_step (hi : StartsInTime cal run) (hg : Timely cal run i)
    (hclock : i.now ≤ i.cycleNow) : StartsInTime cal (run.next cal i) := by
  intro id armed harmed hreq
  rcases invoke_file cal run.file i with ⟨written, hsave, hfile, hverdict⟩ | ⟨hfile, -⟩
  · have hstored : storedState (run.next cal i).file id = storedState written id := by
      rw [← hfile]
      rfl
    rw [hstored] at hreq ⊢
    have hsaved := saved_notAfter hg hi hclock
    obtain ⟨hother, hown⟩ := saveAll_entry (fun s hs => (hsaved s hs).1) hsave
    have hmoment : (run.next cal i).armed id = if id = i.session_id then
        some (if i.arms then i.cycleNow else (run.armed i.session_id).getD i.now)
        else run.armed id := by
      have hlive : (invoke cal run.file i).verdict != .crashed := by
        rw [hverdict, bne_iff_ne]
        exact handle_not_crashed _
      show (if id = i.session_id then some (if i.arms && _ then _ else _) else _) = _
      rw [hlive, Bool.and_true]
    rw [hmoment] at harmed
    split at harmed
    · rename_i hid
      subst hid
      cases harmed
      rcases hown with ⟨hnil, rfl⟩ | ⟨s, hs, hentry⟩
      · -- nothing was saved, so the event armed nothing
        have harms : i.arms = false := by
          by_contra hne
          rw [Bool.not_eq_false] at hne
          rw [handle_arms hne] at hnil
          cases hnil
        rw [harms]
        exact found_notAfter hg hi harms hreq
      · obtain ⟨hrequired, hat, -⟩ := storedState_saved hentry
        rw [hrequired] at hreq
        rw [hat]
        exact (hsaved s hs).2 hreq
    · rename_i hid
      have hsame : storedState written id = storedState run.file id := by
        unfold storedState
        rw [hother id hid]
      rw [hsame] at hreq ⊢
      exact hi id armed harmed hreq
  · have hempty : storedState (run.next cal i).file id = storedState none id := by
      rw [← hfile]
      rfl
    rw [hempty] at hreq
    cases hreq

theorem released_step (hi : StartsInTime cal run) (hg : Timely cal run i) :
    ReleasedInTime (run.next cal i) := by
  intro j hlast
  have hj : i = j ∧ (invoke cal run.file i).verdict = .blocked READBACK_REASON := by
    simpa [GateRun.next] using hlast
  obtain ⟨rfl, hblocked⟩ := hj
  rcases invoke_file cal run.file i with ⟨written, -, -, hverdict⟩ | ⟨-, hverdict⟩
  · rw [hverdict] at hblocked
    obtain ⟨hev, hreq⟩ := blocked_readback hblocked
    have harms : i.arms = false := by
      unfold Invocation.arms
      rw [hev]
      rfl
    obtain ⟨t, -, hle, hlate⟩ := initial_readback hg hi harms hreq
    refine ⟨(run.armed i.session_id).getD i.now, ?_, ?_⟩
    · simp [GateRun.next, harms]
    · calc i.stamp < READBACK_TIMEOUT + t := Int.lt_add_of_sub_right_lt hlate
        _ = t + READBACK_TIMEOUT := Int.add_comm _ _
        _ ≤ _ := Int.add_le_add_right hle _
  · rw [hverdict] at hblocked
    cases hblocked

theorem gateRuns_inductive (cal : Calendar) : (gateRuns cal).InductiveOn (Timely cal)
    fun run => StartsInTime cal run ∧ ReleasedInTime run where
  init run h := by
    obtain ⟨harmed, hlast⟩ := h
    refine ⟨fun id armed hsome => ?_, fun i hsome => ?_⟩
    · rw [harmed id] at hsome
      cases hsome
    · rw [hlast] at hsome
      cases hsome
  step run i run' hi hg hstep := by
    obtain ⟨-, hclock, rfl⟩ := hstep
    exact ⟨startsInTime_step hi.1 hg hclock, released_step hi.1 hg⟩

/-! ## The bound -/

/-- In a run whose events meet timely starts only, no event is blocked for a read-back once the
timeout has passed since its arming. -/
theorem releases_itself {run : GateRun} (h : (gateRuns cal).ReachableOn (Timely cal) run) :
    ReleasedInTime run := ((gateRuns_inductive cal).reachable h).2

def bareEvent (event_name : EventName) (now : Instant) : Invocation where
  event_name := event_name
  session_id := units "s"
  now := now
  cycleNow := now
  receipts := ⟨[], [], []⟩
  project := some (units "p")
  source := []
  boundaries := 0
  tokens := 0
  didWork := false
  repairCapable := false
  checkpointActivity := false
  nag_tokens := 100000
  handoff_tokens := 100000
  sprintReason := []
  repair_reason := []
  repair_minutes := 0
  fresh := units "01234567-89ab-4cde-8f01-23456789abcd"
  locked := true

def runFrom (file : Option PyJson) : GateRun := ⟨file, 0, fun _ => none, none⟩

def blockedRun : GateRun :=
  ((runFrom none).next utc (bareEvent .post_compact 0)).next utc
    (bareEvent .pre_tool_use (seconds 60))

theorem releases_itself_blocked : ∃ armed, blockedRun.armed (units "s") = some armed ∧
    (bareEvent .pre_tool_use (seconds 60)).stamp < armed + READBACK_TIMEOUT := by
  have hcompact : Timely utc (runFrom none) (bareEvent .post_compact 0) :=
    ⟨fun _ h => Bool.noConfusion h, fun h => Bool.noConfusion h, fun _ _ _ h => nomatch h⟩
  have hcall : Timely utc ((runFrom none).next utc (bareEvent .post_compact 0))
      (bareEvent .pre_tool_use (seconds 60)) :=
    ⟨fun h => (nomatch h), fun _ _ _ _ h => (nomatch h), fun h => Bool.noConfusion h⟩
  have hreach : (gateRuns utc).ReachableOn (Timely utc) blockedRun :=
    ⟨runFrom none, [bareEvent .post_compact 0, bareEvent .pre_tool_use (seconds 60)],
      ⟨fun _ => rfl, rfl⟩, .cons hcompact ⟨le_refl _, le_refl _, rfl⟩
        (.cons hcall ⟨by decide, le_refl _, rfl⟩ (.nil _))⟩
  have hblocked : blockedRun.last = some (bareEvent .pre_tool_use (seconds 60),
      .blocked READBACK_REASON) := congrArg some (Prod.ext rfl (by decide +kernel))
  exact releases_itself hreach _ hblocked

/-- An entry that requires a read-back and does not say since when. -/
def undatedFile : PyJson :=
  .obj [(units "sessions", .obj [(units "s", .obj [(units "readbackRequired", .bool true)])])]

def undatedRun : GateRun :=
  ((runFrom (some undatedFile)).next utc (bareEvent .pre_tool_use 0)).next utc
    (bareEvent .pre_tool_use READBACK_TIMEOUT)

/-- The undated read-back still blocks when the timeout has passed. -/
theorem undated_never_released : ¬ ∀ run, (gateRuns utc).Reachable run → ReleasedInTime run := by
  intro h
  have hreach : (gateRuns utc).Reachable undatedRun :=
    ⟨runFrom (some undatedFile), [bareEvent .pre_tool_use 0, bareEvent .pre_tool_use READBACK_TIMEOUT],
      ⟨fun _ => rfl, rfl⟩, .cons trivial ⟨le_refl _, le_refl _, rfl⟩
        (.cons trivial ⟨by decide, le_refl _, rfl⟩ (.nil _))⟩
  have hblocked : undatedRun.last = some (bareEvent .pre_tool_use READBACK_TIMEOUT,
      .blocked READBACK_REASON) := congrArg some (Prod.ext rfl (by decide +kernel))
  obtain ⟨armed, harmed, hlt⟩ := h undatedRun hreach _ hblocked
  have hfirst : undatedRun.armed (units "s") = some 0 := by decide +kernel
  cases hfirst.symm.trans harmed
  revert hlt
  decide

end OpenBrain.Provider.Gate
