import OpenBrain.Core.SharedFile
import OpenBrain.Provider.Gate.PolicyState
import OpenBrain.Provider.Gate.SelfRelease

/-!
# The state files under concurrent invocations

Each gate loads its whole state file, changes an entry and writes the whole file back, without a
lock and in place. `entries_kept` is what that guarantees: the entries survive as long as every
save is apart from the others. Invocations that do not overlap are (`invoke_runs`); two that do
lose an entry.
-/
namespace OpenBrain.Provider.Gate
open OpenBrain.Core OpenBrain.Core.Py

/-- mirrors gate_state.py:294-338, policy_refresh_gate.py:154-187 -/
def gateFile : DictFile PyJson Items Str PyJson where
  load := load_state
  text raw_sessions :=
    if encodesMembers raw_sessions then some (.obj [(units "sessions", .obj raw_sessions)])
    else none
  get := Members.get?
  set := Members.set
  load_text h := by
    split at h
    · cases h
      rfl
    · cases h
  get_set ms k v k' := by
    by_cases hk : k' = k
    · rw [hk, Members.get?_set_self, if_pos rfl]
    · rw [Members.get?_set_ne ms v (Ne.symm hk), if_neg hk]

def entryOf (state : SessionState) : List (Str × PyJson) :=
  [(state.session_id, .obj state.to_json)]

def budgetProgram (cal : Calendar) (i : Invocation) (raw_sessions : Items) :
    List (List (Str × PyJson)) :=
  (handle cal i (initial cal i (Members.get? raw_sessions i.session_id))).saves.map entryOf

/-- Any number of invocations of the context-budget gate on one state file. -/
abbrev budgetGates (cal : Calendar) (ι : Type) [DecidableEq ι] :=
  SharedFile.system gateFile (budgetProgram cal) ι

abbrev policyGates (ι : Type) [DecidableEq ι] :=
  SharedFile.system gateFile policyProgram ι

variable {cal : Calendar} {ι : Type} [DecidableEq ι] {i : Invocation}

/-! ## An invocation by itself -/

theorem saveAll_eq (raw_sessions : Items) (file : Option PyJson) (states : List SessionState) :
    saveAll raw_sessions file states =
      SharedFile.saveEach gateFile file raw_sessions (states.map entryOf) := by
  induction states generalizing raw_sessions file with
  | nil => rfl
  | cons state states ih =>
    have htext : gateFile.text (SharedFile.assign gateFile raw_sessions (entryOf state)) =
        save_session_state raw_sessions state.session_id (.obj state.to_json) := rfl
    rw [List.map_cons, saveAll, SharedFile.saveEach, htext]
    cases save_session_state raw_sessions state.session_id (.obj state.to_json) with
    | none => rfl
    | some written => exact ih _ (some written)

/-- An invocation that overlaps no other is a guarded run of its steps, and leaves the file
`invoke` says. -/
theorem invoke_runs (cal : Calendar) (i : Invocation) {s : SharedFile.State PyJson Items Str PyJson ι} {p : ι}
    (hquiet : SharedFile.Quiet s) (hp : s.procs p = .idle)
    (hlive : (invoke cal s.file i).verdict ≠ .crashed) :
    ∃ labels s', (budgetGates cal ι).RunOn (SharedFile.Apart gateFile) s labels s' ∧
      s'.file = (invoke cal s.file i).file ∧ s'.procs p = .idle ∧
      ∀ q, q ≠ p → s'.procs q = s.procs q := by
  rcases invoke_file cal s.file i with ⟨written, hsave, hfile, -⟩ | ⟨-, hcrash⟩
  · rw [saveAll_eq] at hsave
    obtain ⟨s', hrun, hs', hidle, hrest⟩ := SharedFile.runOn_call gateFile (budgetProgram cal)
      i hquiet hp hsave
    exact ⟨_, s', hrun, hs'.trans hfile.symm, hidle, hrest⟩
  · exact absurd hcrash hlive

/-! ## Invocations that overlap -/

/-- As long as every save is apart from the others, the state files of both gates hold, whenever
none is being written, what each session's invocations saved last. -/
theorem entries_kept (cal : Calendar) (ι : Type) [DecidableEq ι] :
    (∀ s, (budgetGates cal ι).ReachableOn (SharedFile.Apart gateFile) s → SharedFile.Quiet s →
      ∀ session_id, Members.get? (load_state s.file) session_id = s.saved session_id) ∧
    (∀ s, (policyGates ι).ReachableOn (SharedFile.Apart gateFile) s → SharedFile.Quiet s →
      ∀ state_key, Members.get? (load_state s.file) state_key = s.saved state_key) :=
  ⟨fun _ h hq => SharedFile.kept_of_reachable h hq, fun _ h hq => SharedFile.kept_of_reachable h hq⟩

def compaction (session_id : Str) : Invocation :=
  { bareEvent .post_compact 0 with session_id := session_id }

/-- No file yet, and nobody at work. -/
def noFile : SharedFile.State PyJson Items Str PyJson Bool := ⟨none, fun _ => .idle, fun _ => none⟩

/-- Two sessions that compact one after the other keep both entries. -/
theorem entries_kept_in_turn : ∃ s : SharedFile.State PyJson Items Str PyJson Bool,
    (Members.get? (load_state s.file) (units "a")).isSome = true ∧
      (Members.get? (load_state s.file) (units "b")).isSome = true ∧
      ∀ session_id, Members.get? (load_state s.file) session_id = s.saved session_id := by
  obtain ⟨first, s, hrun, hfile, hidle, hrest⟩ := invoke_runs utc
    (compaction (units "a")) (s := noFile) (p := false) (fun _ => rfl) rfl (by decide +kernel)
  have hquiet : SharedFile.Quiet s := by
    intro p
    cases p with
    | false => rw [hidle]; rfl
    | true => rw [hrest true (by decide)]; rfl
  obtain ⟨second, t, hrun', hfile', hidle', hrest'⟩ := invoke_runs utc
    (compaction (units "b")) (s := s) (p := true) hquiet (by rw [hrest true (by decide)]; rfl)
    (by rw [hfile]; decide +kernel)
  have hquiet' : SharedFile.Quiet t := by
    intro p
    cases p with
    | false => rw [hrest' false (by decide), hidle]; rfl
    | true => rw [hidle']; rfl
  have hreach : (budgetGates utc Bool).ReachableOn (SharedFile.Apart gateFile) t :=
    ⟨noFile, first ++ second, ⟨fun _ => rfl, fun _ => rfl⟩, hrun.append hrun'⟩
  refine ⟨t, ?_, ?_, (entries_kept utc Bool).1 t hreach hquiet'⟩
  · rw [hfile', hfile]
    decide +kernel
  · rw [hfile', hfile]
    decide +kernel

def overlapping : List (SharedFile.Label PyJson Bool Invocation) :=
  [.start false (compaction (units "a")), .start true (compaction (units "b")),
    .empty false, .write false none, .finish false, .empty true, .write true none, .finish true]

/-- The read-back the first session armed is gone. -/
theorem overlapping_erases : ¬ ∀ s, (budgetGates utc Bool).Reachable s → SharedFile.Quiet s →
    ∀ session_id, Members.get? (load_state s.file) session_id = s.saved session_id := by
  intro h
  have hexec : (LTS.exec (SharedFile.step gateFile (budgetProgram utc)) noFile overlapping).any
      (fun s => decide (∀ p, (s.procs p).isWriting = false) &&
        (Members.get? (load_state s.file) (units "a")).isNone &&
        (s.saved (units "a")).isSome) = true := by decide +kernel
  obtain ⟨s, hs, hlost⟩ := (Option.any_eq_true _ _).mp hexec
  rw [Bool.and_eq_true, Bool.and_eq_true, decide_eq_true_eq] at hlost
  obtain ⟨⟨hquiet, hnone⟩, hsome⟩ := hlost
  have hreach : (budgetGates utc Bool).Reachable s :=
    ⟨noFile, overlapping, ⟨fun _ => rfl, fun _ => rfl⟩, LTS.runOn_of_exec_any hs⟩
  rw [← h s hreach hquiet (units "a"), Option.isSome_eq_false_iff.mpr hnone] at hsome
  cases hsome

end OpenBrain.Provider.Gate
