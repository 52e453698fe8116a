import OpenBrain.Provider.Gate.Events

/-!
# What an invocation does to a read-back

`reconcile_readback` says what a reconciliation leaves of a read-back that is required,
`handle_keeps` and `arm_at` what the handlers save of it, and `saveAll_entry` what the file then
holds.
-/
namespace OpenBrain.Provider.Gate
open OpenBrain.Core OpenBrain.Core.Py List

variable {cal : Calendar} {receipts : ReceiptState} {now : Str} {clock reference : Instant}
  {s s' : SessionState} {i : Invocation}

/-! ## What a reconciliation leaves -/

/-- The read-back, its session and its project are as they were. -/
structure SameReadback (s s' : SessionState) : Prop where
  required : s'.readback_required = s.readback_required
  required_at : s'.readback_required_at = s.readback_required_at
  correlation : s'.readback_correlation_id = s.readback_correlation_id
  project : s'.project = s.project
  session : s'.session_id = s.session_id

theorem SameReadback.refl (s : SessionState) : SameReadback s s := ⟨rfl, rfl, rfl, rfl, rfl⟩

theorem SameReadback.trans {t : SessionState} (h : SameReadback s s') (h' : SameReadback s' t) :
    SameReadback s t :=
  ⟨h'.required.trans h.required, h'.required_at.trans h.required_at,
    h'.correlation.trans h.correlation, h'.project.trans h.project, h'.session.trans h.session⟩

theorem same_queue_notice (s : SessionState) (notice : Str) :
    SameReadback s (queue_notice s notice) := by
  unfold queue_notice
  split <;> exact ⟨rfl, rfl, rfl, rfl, rfl⟩

theorem same_latest_write : SameReadback s (reconcile_latest_write cal receipts reference s) := by
  unfold reconcile_latest_write
  split
  · exact .refl s
  · split
    · split <;> exact ⟨rfl, rfl, rfl, rfl, rfl⟩
    · exact ⟨rfl, rfl, rfl, rfl, rfl⟩

theorem same_capture : SameReadback s (reconcile_capture cal receipts now reference s) := by
  unfold reconcile_capture
  split
  · exact .refl s
  · split
    · exact .refl s
    · refine SameReadback.trans ?_ (same_queue_notice _ _)
      exact ⟨rfl, rfl, rfl, rfl, rfl⟩

theorem same_expire : SameReadback s (expire_repair_mode cal now reference s) := by
  unfold expire_repair_mode
  split
  · exact .refl s
  · split
    · exact .refl s
    · refine SameReadback.trans ?_ (same_queue_notice _ _)
      exact ⟨rfl, rfl, rfl, rfl, rfl⟩

theorem same_note_long_sprint : SameReadback s (note_long_sprint cal i s) := by
  unfold note_long_sprint
  split
  · exact .refl s
  · split
    · exact .refl s
    · split
      · exact .refl s
      · exact ⟨rfl, rfl, rfl, rfl, rfl⟩

theorem SameReadback.recover (h : SameReadback s s') :
    SameReadback (recover_legacy_correlation cal receipts reference s)
      (recover_legacy_correlation cal receipts reference s') := by
  unfold recover_legacy_correlation
  rw [h.correlation, h.session, h.project, h.required_at]
  split
  · exact h
  · split
    · exact h
    · split
      · split
        · exact h
        · exact ⟨h.required, rfl, rfl, rfl, rfl⟩
      · exact h

theorem recover_scope :
    (recover_legacy_correlation cal receipts reference s).session_id = s.session_id ∧
      (recover_legacy_correlation cal receipts reference s).project = s.project := by
  unfold recover_legacy_correlation
  repeat' split
  all_goals exact ⟨rfl, rfl⟩

theorem compact_recall_readback
    (h : (reconcile_compact_recall cal receipts now reference s).readback_required = true) :
    SameReadback (recover_legacy_correlation cal receipts reference s)
      (reconcile_compact_recall cal receipts now reference s) ∧ s.readback_required = true := by
  unfold reconcile_compact_recall at h ⊢
  split at h
  · rename_i hnot
    rw [h] at hnot
    cases hnot
  · rename_i hreq
    rw [if_neg hreq]
    refine ⟨?_, by simpa using hreq⟩
    unfold clear_by_recall at h ⊢
    split
    · exact .refl _
    · rename_i hcorr
      rw [if_neg hcorr] at h
      split
      · exact .refl _
      · rename_i hver
        rw [if_neg hver, (same_queue_notice _ _).required] at h
        cases h

theorem compact_recall_scope :
    (reconcile_compact_recall cal receipts now reference s).session_id = s.session_id ∧
      (reconcile_compact_recall cal receipts now reference s).project = s.project := by
  unfold reconcile_compact_recall clear_by_recall
  split
  · exact ⟨rfl, rfl⟩
  · split
    · exact recover_scope
    · split
      · exact recover_scope
      · have hq := same_queue_notice (record_transition (clear_readback
            (recover_legacy_correlation cal receipts reference s)) .cleared_by_recall now
          (units "direct recall receipt verified"))
          (units "read-back cleared · direct recall receipt verified")
        exact ⟨hq.session.trans recover_scope.1, hq.project.trans recover_scope.2⟩

/-- A read-back that is not released has not run out, if its start can be read. -/
theorem release_readback (h : (release_timed_out_readback cal now reference s).readback_required = true) :
    SameReadback s (release_timed_out_readback cal now reference s) ∧
      ∀ required, cal.parse s.readback_required_at = some required →
        reference - required < READBACK_TIMEOUT := by
  unfold release_timed_out_readback at h ⊢
  split at h
  · rename_i hnot
    rw [h] at hnot
    cases hnot
  · rename_i hreq
    rw [if_neg hreq]
    split at h
    · rename_i hparse
      rw [hparse]
      exact ⟨.refl s, fun required hsome => by cases hsome⟩
    · rename_i required hparse
      rw [hparse]
      split at h
      · rename_i hlt
        rw [if_pos hlt]
        refine ⟨.refl s, fun required' hsome => ?_⟩
        cases hsome
        exact hlt
      · rw [(same_queue_notice _ _).required] at h
        cases h

theorem release_scope :
    (release_timed_out_readback cal now reference s).session_id = s.session_id ∧
      (release_timed_out_readback cal now reference s).project = s.project := by
  unfold release_timed_out_readback
  split
  · exact ⟨rfl, rfl⟩
  · split
    · exact ⟨rfl, rfl⟩
    · split
      · exact ⟨rfl, rfl⟩
      · exact ⟨(same_queue_notice _ _).session, (same_queue_notice _ _).project⟩

theorem reconcile_scope :
    (reconcile_gate_state cal receipts now clock s).session_id = s.session_id ∧
      (reconcile_gate_state cal receipts now clock s).project = s.project := by
  unfold reconcile_gate_state
  constructor
  · rw [release_scope.1, same_expire.session, compact_recall_scope.1, same_capture.session,
      same_latest_write.session]
  · rw [release_scope.2, same_expire.project, compact_recall_scope.2, same_capture.project,
      same_latest_write.project]

/-- What a reconciliation leaves of a read-back: it was required before, it is the recovered one,
and it has not run out. -/
theorem reconcile_readback
    (h : (reconcile_gate_state cal receipts now clock s).readback_required = true)
    (href : (cal.parse now).getD clock = reference) :
    s.readback_required = true ∧
      SameReadback (recover_legacy_correlation cal receipts reference s)
        (reconcile_gate_state cal receipts now clock s) ∧
      ∀ required,
        cal.parse (reconcile_gate_state cal receipts now clock s).readback_required_at =
          some required → reference - required < READBACK_TIMEOUT := by
  have hbefore : SameReadback s (reconcile_capture cal receipts now reference
      (reconcile_latest_write cal receipts reference s)) := same_latest_write.trans same_capture
  unfold reconcile_gate_state at h ⊢
  rw [href] at h ⊢
  obtain ⟨hrel, hlate⟩ := release_readback h
  rw [hrel.required, same_expire.required] at h
  obtain ⟨hrec, hreq⟩ := compact_recall_readback h
  refine ⟨hbefore.required ▸ hreq, ?_, ?_⟩
  · exact hbefore.recover.trans (hrec.trans (same_expire.trans hrel))
  · rw [hrel.required_at]
    exact hlate

/-! ## What clears a read-back -/

theorem recover_required :
    (recover_legacy_correlation cal receipts reference s).readback_required =
      s.readback_required := by
  unfold recover_legacy_correlation
  repeat' split
  all_goals rfl

theorem compact_recall_cleared (hreq : s.readback_required = true)
    (h : (reconcile_compact_recall cal receipts now reference s).readback_required = false) :
    has_verified_compact_recall cal receipts s.session_id s.project
      (recover_legacy_correlation cal receipts reference s).readback_correlation_id
      VERIFIED_RECALL_MAX_AGE reference = true ∧
    (recover_legacy_correlation cal receipts reference s).readback_correlation_id ≠ [] := by
  unfold reconcile_compact_recall at h
  rw [if_neg (by rw [hreq]; exact Bool.false_ne_true)] at h
  unfold clear_by_recall at h
  split at h
  · rw [recover_required, hreq] at h
    cases h
  · rename_i hcorr
    split at h
    · rw [recover_required, hreq] at h
      cases h
    · rename_i hver
      rw [Bool.not_eq_true, Bool.not_eq_false', recover_scope.1, recover_scope.2] at hver
      exact ⟨hver, hcorr⟩

theorem release_cleared (hreq : s.readback_required = true)
    (h : (release_timed_out_readback cal now reference s).readback_required = false) :
    ∃ start, cal.parse s.readback_required_at = some start ∧
      READBACK_TIMEOUT ≤ reference - start := by
  unfold release_timed_out_readback at h
  rw [if_neg (by rw [hreq]; exact Bool.false_ne_true)] at h
  split at h
  · rw [hreq] at h
    cases h
  · rename_i start hstart
    split at h
    · rw [hreq] at h
      cases h
    · rename_i hlate
      exact ⟨start, hstart, not_lt.mp hlate⟩

/-- A reconciliation clears a read-back for a verified recall of its cycle or for the timeout. -/
theorem reconcile_cleared (hreq : s.readback_required = true)
    (h : (reconcile_gate_state cal receipts now clock s).readback_required = false)
    (href : (cal.parse now).getD clock = reference) :
    (has_verified_compact_recall cal receipts s.session_id s.project
        (recover_legacy_correlation cal receipts reference s).readback_correlation_id
        VERIFIED_RECALL_MAX_AGE reference = true ∧
      (recover_legacy_correlation cal receipts reference s).readback_correlation_id ≠ []) ∨
    ∃ start, cal.parse (recover_legacy_correlation cal receipts reference s).readback_required_at =
        some start ∧ READBACK_TIMEOUT ≤ reference - start := by
  have hbefore : SameReadback s (reconcile_capture cal receipts now reference
      (reconcile_latest_write cal receipts reference s)) := same_latest_write.trans same_capture
  unfold reconcile_gate_state at h
  rw [href] at h
  cases hrec : (reconcile_compact_recall cal receipts now reference (reconcile_capture cal receipts
      now reference (reconcile_latest_write cal receipts reference s))).readback_required with
  | false =>
    have hcleared := compact_recall_cleared (hbefore.required.trans hreq) hrec
    rw [hbefore.session, hbefore.project, hbefore.recover.correlation] at hcleared
    exact .inl hcleared
  | true =>
    obtain ⟨start, hstart, hlate⟩ := release_cleared (same_expire.required.trans hrec) h
    rw [same_expire.required_at, (compact_recall_readback hrec).1.required_at,
      hbefore.recover.required_at] at hstart
    exact .inr ⟨start, hstart, hlate⟩

/-! ## What a handler saves -/

/-- A read-back that `s'` requires is one that `s` requires. -/
structure KeepsReadback (s s' : SessionState) : Prop where
  session : s'.session_id = s.session_id
  required : s'.readback_required = true → SameReadback s s'

theorem KeepsReadback.refl (s : SessionState) : KeepsReadback s s := ⟨rfl, fun _ => .refl s⟩

theorem keeps_prompt : ∀ s' ∈ (handle_user_prompt_submit i s).saves, KeepsReadback s s' := by
  intro s' hs'
  unfold handle_user_prompt_submit at hs'
  simp only [mem_append, mem_singleton] at hs'
  rcases hs' with (rfl | hs') | hs'
  · exact .refl s'
  · split at hs'
    · rw [mem_singleton] at hs'
      subst hs'
      exact ⟨rfl, fun _ => ⟨rfl, rfl, rfl, rfl, rfl⟩⟩
    · cases hs'
  · split at hs'
    · cases hs'
    · rw [mem_singleton] at hs'
      subst hs'
      split <;> exact ⟨rfl, fun _ => ⟨rfl, rfl, rfl, rfl, rfl⟩⟩

theorem keeps_tool_use : ∀ s' ∈ (handle_pre_tool_use cal i s).saves, KeepsReadback s s' := by
  intro s' hs'
  unfold handle_pre_tool_use block at hs'
  split at hs'
  · rw [mem_singleton.mp hs']
    exact .refl s
  · split at hs'
    · rw [mem_singleton.mp hs']
      exact ⟨rfl, fun _ => ⟨rfl, rfl, rfl, rfl, rfl⟩⟩
    · split at hs'
      · rw [mem_singleton.mp hs']
        exact ⟨rfl, fun _ => ⟨rfl, rfl, rfl, rfl, rfl⟩⟩
      · simp only [mem_cons, not_mem_nil, or_false, or_self] at hs'
        subst hs'
        exact ⟨rfl, fun _ => ⟨rfl, rfl, rfl, rfl, rfl⟩⟩

theorem keeps_checkpoint : ∀ s' ∈ (handle_checkpoint_done cal i s).saves, KeepsReadback s s' := by
  intro s' hs'
  unfold handle_checkpoint_done at hs'
  split at hs'
  · cases hs'
  · rw [mem_singleton.mp hs']
    exact ⟨rfl, fun _ => ⟨rfl, rfl, rfl, rfl, rfl⟩⟩

theorem keeps_repair_enter : ∀ s' ∈ (handle_repair_enter cal i s).saves, KeepsReadback s s' := by
  intro s' hs'
  unfold handle_repair_enter at hs'
  split at hs'
  · cases hs'
  · rw [mem_singleton.mp hs']
    exact ⟨rfl, fun _ => ⟨rfl, rfl, rfl, rfl, rfl⟩⟩

theorem keeps_repair_exit : ∀ s' ∈ (handle_repair_exit cal i s).saves, KeepsReadback s s' := by
  intro s' hs'
  rw [mem_singleton.mp hs']
  exact ⟨rfl, fun _ => ⟨rfl, rfl, rfl, rfl, rfl⟩⟩

theorem keeps_stop : ∀ s' ∈ (handle_stop cal i s).saves, KeepsReadback s s' := by
  intro s' hs'
  unfold handle_stop at hs'
  split at hs'
  · rw [mem_singleton.mp hs']
    exact .refl s
  · rw [mem_singleton.mp hs']
    exact ⟨rfl, fun _ => ⟨rfl, rfl, rfl, rfl, rfl⟩⟩

/-- A session that starts anew owes nothing. -/
theorem keeps_fresh (harms : i.arms = false) :
    ∀ s' ∈ (handle_compact_lifecycle cal i s).saves, KeepsReadback s s' := by
  intro s' hs'
  unfold handle_compact_lifecycle at hs'
  rw [if_neg (by rw [harms]; exact Bool.false_ne_true), mem_singleton] at hs'
  subst hs'
  refine ⟨?_, fun h => Bool.noConfusion h⟩
  unfold fresh_session_state
  dsimp only
  split <;> rfl

/-- An event that arms nothing keeps the read-back or drops it. -/
theorem handle_keeps (harms : i.arms = false) :
    ∀ s' ∈ (handle cal i s).saves, KeepsReadback s s' := by
  cases hev : i.event_name with
  | user_prompt_submit =>
    unfold handle
    rw [hev]
    exact keeps_prompt
  | pre_tool_use =>
    unfold handle
    rw [hev]
    exact keeps_tool_use
  | checkpoint_done =>
    unfold handle
    rw [hev]
    exact keeps_checkpoint
  | repair_enter =>
    unfold handle
    rw [hev]
    exact keeps_repair_enter
  | repair_exit =>
    unfold handle
    rw [hev]
    exact keeps_repair_exit
  | stop =>
    unfold handle
    rw [hev]
    exact keeps_stop
  | pre_compact | status =>
    unfold handle
    rw [hev]
    intro s' hs'
    rw [mem_singleton.mp hs']
    exact .refl s
  | post_compact | session_start =>
    unfold handle
    rw [hev]
    exact keeps_fresh harms

theorem Invocation.arms_event (harms : i.arms = true) :
    i.event_name = .post_compact ∨ i.event_name = .session_start := by
  unfold Invocation.arms at harms
  rw [Bool.or_eq_true, Bool.and_eq_true, beq_iff_eq, beq_iff_eq] at harms
  exact harms.imp id And.left

theorem handle_arms (harms : i.arms = true) : handle cal i s = arm cal i s := by
  unfold handle handle_compact_lifecycle
  rcases Invocation.arms_event harms with hev | hev
  · rw [hev]
    exact if_pos harms
  · rw [hev]
    exact if_pos harms

/-! ## Arming -/

/-- The text is a timestamp no later than `bound`. -/
def NotAfter (cal : Calendar) (text : Str) (bound : Instant) : Prop :=
  ∃ t, cal.parse text = some t ∧ t ≤ bound

/-- The stored cycle of the session, if it is of the project, starts no later than `bound`. -/
def CycleNotAfter (cal : Calendar) (receipts : ReceiptState) (session_id project : Str)
    (bound : Instant) : Prop :=
  ∀ cycle started, receipts.compactCycles.lookup session_id = some cycle →
    cycle.project = project → cal.parse cycle.started_at = some started → started ≤ bound

theorem iso_notAfter {t bound : Instant} (h : t ≤ bound) : NotAfter cal (cal.iso t) bound :=
  ⟨_, cal.parse_iso' t, (Int.ediv_mul_le t (by decide)).trans h⟩

theorem current_notAfter {session_id project : Str} {max_age : Int} {cycle : CompactCycle}
    {bound t : Instant} (hb : CycleNotAfter cal receipts session_id project bound)
    (hc : current_compact_cycle cal receipts session_id project max_age t = some cycle) :
    NotAfter cal cycle.started_at bound := by
  obtain ⟨hl, hp, started, hs, -⟩ := current_compact_cycle_some hc
  exact ⟨started, hs, hb cycle started hl hp hs⟩

theorem setCycle_notAfter {session_id project : Str} {cycle : CompactCycle} {bound : Instant}
    (h : NotAfter cal cycle.started_at bound) :
    CycleNotAfter cal (receipts.setCycle session_id cycle) session_id project bound := by
  intro cycle' started hl _ hs
  unfold ReceiptState.setCycle at hl
  rw [Assoc.lookup_set, if_pos rfl] at hl
  cases hl
  obtain ⟨t, ht, hle⟩ := h
  rw [ht] at hs
  cases hs
  exact hle

theorem record_attempt_started (cycle : CompactCycle) (participant : CompactCycleParticipant) :
    (record_attempt cycle participant).started_at = cycle.started_at := by
  unfold record_attempt
  split <;> rfl

/-- The cycle an arming joins or opens starts no later than the arming. -/
theorem cycle_for_event_notAfter (hclock : i.now ≤ i.cycleNow)
    (hb : CycleNotAfter cal i.receipts i.session_id s.project i.cycleNow) :
    NotAfter cal (compact_cycle_for_event cal i s).2.1 i.cycleNow ∧
      CycleNotAfter cal (compact_cycle_for_event cal i s).2.2 i.session_id s.project i.cycleNow := by
  unfold compact_cycle_for_event
  dsimp only
  split
  · rename_i cycle hc
    split at hc
    · cases hc
    · exact ⟨current_notAfter hb hc, hb⟩
  · split
    · rename_i cycle receipts' hg
      rcases gate_compact_cycle_some hg with ⟨hc, rfl⟩ | ⟨rfl, rfl⟩
      · have hcycle := current_notAfter hb hc
        exact ⟨hcycle, setCycle_notAfter ((record_attempt_started cycle .gate).symm ▸ hcycle)⟩
      · have hcycle : NotAfter cal (openedCycle cal i.session_id s.project i.fresh
            i.cycleNow).started_at i.cycleNow := iso_notAfter (le_refl _)
        exact ⟨hcycle, setCycle_notAfter hcycle⟩
    · exact ⟨iso_notAfter hclock, hb⟩

theorem recover_notAfter {bound : Instant} (hat : NotAfter cal s.readback_required_at bound)
    (hb : CycleNotAfter cal receipts s.session_id s.project bound) :
    NotAfter cal (recover_legacy_correlation cal receipts reference s).readback_required_at
      bound := by
  unfold recover_legacy_correlation
  split
  · exact hat
  · split
    · exact hat
    · rename_i cycle hc
      split
      · split
        · exact hat
        · exact current_notAfter hb hc
      · exact hat

theorem arm_session : ∀ s' ∈ (arm cal i s).saves, s'.session_id = s.session_id := by
  intro s' hs'
  unfold arm at hs'
  dsimp only at hs'
  rw [mem_singleton] at hs'
  subst hs'
  split
  · exact reconcile_scope.1
  · rfl

/-- A read-back that an event armed starts no later than the arming. -/
theorem arm_at (hclock : i.now ≤ i.cycleNow) (hid : s.session_id = i.session_id)
    (hb : CycleNotAfter cal i.receipts i.session_id s.project i.cycleNow) :
    ∀ s' ∈ (arm cal i s).saves, s'.readback_required = true →
      NotAfter cal s'.readback_required_at i.cycleNow := by
  intro s' hs' hreq
  obtain ⟨hat, hcycle⟩ := cycle_for_event_notAfter hclock hb
  unfold arm at hs'
  dsimp only at hs'
  rw [mem_singleton] at hs'
  subst hs'
  split
  · rename_i hev
    rw [if_pos hev] at hreq
    obtain ⟨-, hrec, -⟩ := reconcile_readback hreq rfl
    rw [hrec.required_at]
    refine recover_notAfter hat ?_
    show CycleNotAfter cal _ s.session_id s.project i.cycleNow
    rw [hid]
    exact hcycle
  · exact hat

theorem initial_scope (cal : Calendar) (i : Invocation) (stored : Option PyJson) :
    (initial cal i stored).session_id = i.session_id ∧
      (initial cal i stored).project = (loaded cal i stored).project := by
  unfold initial
  rw [same_note_long_sprint.session, same_note_long_sprint.project]
  exact reconcile_scope

/-! ## Blocking -/

theorem blocked_event {reason : Str} (h : (handle cal i s).verdict = .blocked reason) :
    i.event_name = .pre_tool_use := by
  unfold handle at h
  split at h
  · cases h
  · assumption
  · unfold handle_checkpoint_done at h
    split at h <;> cases h
  · unfold handle_repair_enter at h
    split at h <;> cases h
  · cases h
  · unfold handle_stop at h
    split at h <;> cases h
  · cases h
  · cases h
  · unfold handle_compact_lifecycle at h
    split at h <;> cases h
  · unfold handle_compact_lifecycle at h
    split at h <;> cases h

theorem blocked_readback (h : (handle cal i s).verdict = .blocked READBACK_REASON) :
    i.event_name = .pre_tool_use ∧ s.readback_required = true := by
  have hev := blocked_event h
  refine ⟨hev, ?_⟩
  unfold handle at h
  rw [hev] at h
  dsimp only at h
  unfold handle_pre_tool_use block at h
  split at h
  · cases h
  · split at h
    · have hne : units "capture-required" ≠ READBACK_REASON := by decide
      exact absurd (Verdict.blocked.inj h) hne
    · split at h
      · rename_i hreq
        rw [Bool.and_eq_true] at hreq
        exact hreq.1
      · cases h

/-! ## What the file holds afterwards -/

def storedState (file : Option PyJson) (session_id : Str) : SessionState :=
  hydrate_session_state (Members.get? (load_state file) session_id) session_id []

theorem hydrate_to_json (state : SessionState) (session_id now : Str) :
    let read := hydrate_session_state (some (.obj state.to_json)) session_id now
    read.readback_required = state.readback_required ∧
      read.readback_required_at = state.readback_required_at ∧
      read.readback_correlation_id = state.readback_correlation_id := ⟨rfl, rfl, rfl⟩

theorem storedState_saved {file : Option PyJson} {session_id : Str} {state : SessionState}
    (h : Members.get? (load_state file) session_id = some (.obj state.to_json)) :
    (storedState file session_id).readback_required = state.readback_required ∧
      (storedState file session_id).readback_required_at = state.readback_required_at ∧
      (storedState file session_id).readback_correlation_id = state.readback_correlation_id := by
  unfold storedState
  rw [h]
  exact hydrate_to_json state session_id []

/-- A handler's saves leave the other sessions' entries, and its own session's is one it saved. -/
theorem saveAll_entry {states : List SessionState} {session_id : Str} {file written : Option PyJson}
    (hid : ∀ state ∈ states, state.session_id = session_id)
    (h : saveAll (load_state file) file states = some written) :
    (∀ key, key ≠ session_id →
        Members.get? (load_state written) key = Members.get? (load_state file) key) ∧
      ((states = [] ∧ written = file) ∨
        ∃ state ∈ states,
          Members.get? (load_state written) session_id = some (.obj state.to_json)) := by
  induction states generalizing file with
  | nil =>
    cases h
    exact ⟨fun _ _ => rfl, .inl ⟨rfl, rfl⟩⟩
  | cons state states ih =>
    unfold saveAll at h
    split at h
    · cases h
    · rename_i saved hsave
      have hload := load_save hsave
      rw [← hload] at h
      obtain ⟨hother, hown⟩ := ih (fun st hst => hid st (mem_cons_of_mem _ hst)) h
      have hstate : state.session_id = session_id := hid state mem_cons_self
      rw [hload, hstate] at hother
      refine ⟨fun key hkey => ?_, ?_⟩
      · rw [hother key hkey, Members.get?_set_ne _ _ (Ne.symm hkey)]
      · rcases hown with ⟨-, rfl⟩ | ⟨st, hst, hown⟩
        · refine .inr ⟨state, mem_cons_self, ?_⟩
          rw [hload, hstate, Members.get?_set_self]
        · exact .inr ⟨st, mem_cons_of_mem _ hst, hown⟩

end OpenBrain.Provider.Gate
