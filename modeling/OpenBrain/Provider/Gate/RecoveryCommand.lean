import OpenBrain.Provider.Gate.PrintedCommand
import OpenBrain.Provider.Gate.SelfRelease

/-!
# The gate's own command, given back to it

A block prints the command that clears it. `block_accepted_iff` says in which states the gate lets
that command through, `recovery_command_accepted` the same of every blocked call of every run.
-/
namespace OpenBrain.Provider.Gate
open OpenBrain.Core OpenBrain.Core.Py List

/-! ## The payload -/

theorem capture_payload_value (state : SessionState) (cwd : Str) :
    IsValue (.obj (capture_payload state cwd)) := by
  have hkeys : ((capture_payload state cwd).map Prod.fst).Nodup := by
    show List.Nodup [units "cwd", units "session_id", units "distilled"]
    decide
  have hinner : List.Nodup [units "content", units "event_type"] := by decide
  exact ⟨hkeys, trivial, trivial, ⟨hinner, trivial, trivial, trivial⟩, trivial⟩

theorem readback_payload_value (state : SessionState) (cwd : Str) :
    IsValue (.obj (readback_payload state cwd)) := by
  have hkeys : ((readback_payload state cwd).map Prod.fst).Nodup := by
    show List.Nodup [units "cwd", units "session_id", units "source", units "correlation_id"]
    decide
  exact ⟨hkeys, trivial, trivial, trivial, trivial, trivial⟩

theorem valid_capture_payload {resolve : Str → Option Str} {state : SessionState} {cwd : Str}
    (hscope : resolve cwd = some state.project) :
    valid_provider_payload resolve
      [units "printf", units "%s", dumpsPlain (.obj (capture_payload state cwd))]
      (units "capture") state = true := by
  have hid : payloadIs (capture_payload state cwd) (units "session_id") state.session_id = true :=
    beq_self_eq_true state.session_id
  have hcwd : Members.get? (capture_payload state cwd) (units "cwd") = some (.str cwd) := rfl
  unfold valid_provider_payload
  dsimp only
  rw [if_neg (by decide), loads_dumpsPlain (capture_payload_value state cwd)]
  dsimp only
  rw [if_neg (by rw [hid]; decide), hcwd]
  dsimp only
  rw [if_neg (not_not.mpr hscope), if_pos (by decide)]
  rfl

theorem valid_readback_payload {resolve : Str → Option Str} {state : SessionState} {cwd : Str}
    (hscope : resolve cwd = some state.project) :
    valid_provider_payload resolve
      [units "printf", units "%s", dumpsPlain (.obj (readback_payload state cwd))]
      (units "session-start") state = !state.readback_correlation_id.isEmpty := by
  have hid : payloadIs (readback_payload state cwd) (units "session_id") state.session_id = true :=
    beq_self_eq_true state.session_id
  have hcwd : Members.get? (readback_payload state cwd) (units "cwd") = some (.str cwd) := rfl
  have hsource : payloadIs (readback_payload state cwd) (units "source") (units "compact") = true :=
    beq_self_eq_true (units "compact")
  have hcycle : payloadIs (readback_payload state cwd) (units "correlation_id")
      state.readback_correlation_id = true := beq_self_eq_true state.readback_correlation_id
  unfold valid_provider_payload
  dsimp only
  rw [if_neg (by decide), loads_dumpsPlain (readback_payload_value state cwd)]
  dsimp only
  rw [if_neg (by rw [hid]; decide), hcwd]
  dsimp only
  rw [if_neg (not_not.mpr hscope), if_neg (by decide), hsource, hcycle, Bool.true_and,
    Bool.and_true]

/-! ## Acceptance -/

/-- The arguments of the gate that both the banner and the classification are built from; `cwd` is
the project root. mirrors context_budget_gate.py:391-403 -/
structure GateArgs where
  gate_script_path : Str
  provider_script_path : Str
  disk : Disk
  cwd : Str

def GateArgs.presentation (args : GateArgs) : PresentationContext :=
  ⟨args.provider_script_path, args.disk, args.cwd⟩

def GateArgs.shell (args : GateArgs) (state : SessionState) : ShellGateContext :=
  ⟨state, args.gate_script_path, args.provider_script_path, args.disk⟩

/-- `bun run` would be printed: the configured provider is called `run`, no adapter is activated,
and no wrapper stands in for it. -/
def GateArgs.PrintsRun (args : GateArgs) (event_name : Str) : Prop :=
  args.provider_script_path = units "run" ∧ activated_provider_script_paths args.disk = [] ∧
    (args.disk.isFile (units "run") = true ∨
      ∀ pair ∈ wrapper_console_invocations args.disk,
        WRAPPER_CONSOLE_EVENTS.lookup pair.2 ≠ some event_name)

/-- The preferred path is `run` and no wrapper is chosen exactly when `bun run` is printed. -/
theorem prints_run_iff (args : GateArgs) (event_name : Str) :
    (chosen_wrapper event_name args.presentation = none ∧
      preferred_provider args.presentation = units "run") ↔ args.PrintsRun event_name := by
  have hshort : units "run" ∉ activated_provider_script_paths args.disk := fun h =>
    absurd (activated_long h) (by decide)
  unfold chosen_wrapper preferred_provider GateArgs.PrintsRun GateArgs.presentation
  dsimp only
  cases hactivated : activated_provider_script_paths args.disk with
  | nil =>
    dsimp only
    constructor
    · rintro ⟨hnone, hrun⟩
      refine ⟨hrun, rfl, ?_⟩
      rw [hrun] at hnone
      cases hfile : args.disk.isFile (units "run") with
      | true => exact .inl rfl
      | false =>
        rw [hfile, if_pos (by decide)] at hnone
        refine .inr fun pair hpair heq => ?_
        exact absurd (find?_eq_none.mp hnone pair hpair) (by rw [heq]; simp)
    · rintro ⟨hrun, -, hpath⟩
      refine ⟨?_, hrun⟩
      rw [hrun]
      split
      · rename_i hfile
        rcases hpath with h | h
        · rw [h] at hfile
          cases hfile
        · exact find?_eq_none.mpr fun pair hpair heq => h pair hpair (eq_of_beq heq)
      · rfl
  | cons first rest =>
    rw [hactivated] at hshort
    dsimp only
    constructor
    · rintro ⟨-, hrun⟩
      refine absurd ?_ hshort
      rw [← hrun]
      split
      · rename_i hmem
        exact contains_iff_mem.mp hmem
      · exact mem_cons_self
    · rintro ⟨-, h, -⟩
      cases h

theorem preferred_accepted (args : GateArgs) :
    preferred_provider args.presentation = args.provider_script_path ∨
      preferred_provider args.presentation ∈ activated_provider_script_paths args.disk := by
  unfold preferred_provider GateArgs.presentation
  dsimp only
  cases hactivated : activated_provider_script_paths args.disk with
  | nil => exact .inl rfl
  | cons first rest =>
    dsimp only
    split
    · exact .inl rfl
    · exact .inr mem_cons_self

theorem event_plain {event : Str} (h : event ∈ PROVIDER_EVENTS) :
    event ≠ [] ∧ event.all isPlainUnit = true := by
  revert event
  decide

theorem console_plain {console : Str} (h : (WRAPPER_CONSOLE_EVENTS.lookup console).isSome = true) :
    console ≠ [] ∧ console.all isPlainUnit = true := by
  have hall : ∀ pair ∈ WRAPPER_CONSOLE_EVENTS, pair.1 ≠ [] ∧ pair.1.all isPlainUnit = true := by
    decide
  obtain ⟨event, hevent⟩ := Option.isSome_iff_exists.mp h
  obtain ⟨before, after, heq, -⟩ := List.lookup_eq_some_iff.mp hevent
  exact hall (console, event) (by rw [heq]; simp)

theorem chosen_wrapper_some {event : Str} {context : PresentationContext} {pair : Str × Str}
    (h : chosen_wrapper event context = some pair) :
    pair ∈ wrapper_console_invocations context.disk ∧
      WRAPPER_CONSOLE_EVENTS.lookup pair.2 = some event := by
  unfold chosen_wrapper recovery_wrapper at h
  split at h
  · have hproduces := find?_some h
    exact ⟨mem_of_find?_eq_some h, eq_of_beq hproduces⟩
  · cases h

/-- A printed command is accepted when its event is allowed, its payload is the state's, and it
does not spell `bun run`. -/
theorem payload_command_accepted {resolve : Str → Option Str} (args : GateArgs)
    (state : SessionState) {event : Str} (payload : Items) (hevent : event ∈ PROVIDER_EVENTS) :
    is_checkpoint_command resolve
        (provider_payload_command event payload args.presentation) (args.shell state) = true ↔
      ¬args.PrintsRun event ∧ event ∈ provider_events_allowed_by_state state ∧
        valid_provider_payload resolve
          [units "printf", units "%s", dumpsPlain (.obj payload)] event state = true := by
  rw [← prints_run_iff]
  unfold provider_payload_command
  dsimp only
  generalize dumpsPlain (.obj payload) = encoded
  cases hchosen : chosen_wrapper event args.presentation with
  | some pair =>
    obtain ⟨hpair, hproduces⟩ := chosen_wrapper_some hchosen
    obtain ⟨hne, hplain⟩ := console_plain (wrapper_console hpair)
    have hparse := parse_wrapper_recovery encoded hne hplain
    have hinvocation := @parse_printed_wrapper (args.shell state) _ hpair
    have hsuffix : pair.2 <:+ shell_quote pair.1 ++ unit ' ' :: pair.2 :=
      ⟨shell_quote pair.1 ++ [unit ' '], by simp⟩
    dsimp only
    rw [wrapper_recovery_eq] at hparse ⊢
    rw [checkpoint_piped (.inr rfl) hparse (strip_piped _ _ hsuffix hne hplain), hinvocation,
      hproduces]
    simp [GateArgs.shell]
  | none =>
    obtain ⟨hne, hplain⟩ := event_plain hevent
    have hparse := parse_provider_recovery encoded (preferred_provider args.presentation) hne hplain
    have hinvocation := @parse_printed_provider (args.shell state) _ _ hevent
      (preferred_accepted args)
    generalize preferred_provider args.presentation = preferred at hparse hinvocation ⊢
    have hsuffix : event <:+ shell_quote preferred ++ unit ' ' :: (units "--runtime" ++ unit ' ' ::
        (units "claude" ++ unit ' ' :: (units "--event" ++ unit ' ' :: event))) :=
      ⟨shell_quote preferred ++ unit ' ' :: (units "--runtime" ++ unit ' ' ::
        (units "claude" ++ unit ' ' :: (units "--event" ++ [unit ' ']))), by simp⟩
    dsimp only
    rw [provider_recovery_eq] at hparse ⊢
    rw [checkpoint_piped (.inl rfl) hparse (strip_piped _ _ hsuffix hne hplain), hinvocation]
    by_cases hrun : preferred = units "run"
    · simp [hrun]
    · simp [hrun, GateArgs.shell]

/-! ## Blocks -/

/-- The command the block prints, passed back as a bash tool call, is checkpoint activity. -/
def AcceptedBack (resolve : Str → Option Str) (args : GateArgs) (state : SessionState)
    (block : Block) : Prop :=
  is_checkpoint_activity resolve (units "bash") ⟨[], block.command⟩ (args.shell state) = true

def blockEvent (state : SessionState) : Str :=
  if state.capture_required then units "capture" else units "session-start"

/-- The gate can clear the block it reports: the two requirements do not stand together, a read-back
has a cycle to quote, and the provider is not taken for `bun run`. -/
structure Clearable (args : GateArgs) (state : SessionState) : Prop where
  one : ¬(state.capture_required = true ∧ state.readback_required = true)
  correlated : state.readback_required = true → state.readback_correlation_id ≠ []
  named : ¬args.PrintsRun (blockEvent state)

theorem checkpoint_activity_bash (resolve : Str → Option Str) (command : Str)
    (context : ShellGateContext) :
    is_checkpoint_activity resolve (units "bash") ⟨[], command⟩ context =
      is_checkpoint_command resolve command context := by
  unfold is_checkpoint_activity
  rw [if_neg (by decide), if_neg (by decide), if_neg (by decide)]

theorem capture_allowed_iff (state : SessionState) :
    units "capture" ∈ provider_events_allowed_by_state state ↔ state.readback_required = false := by
  unfold provider_events_allowed_by_state
  cases state.readback_required <;> cases state.capture_required <;> decide

theorem recall_allowed {state : SessionState} (h : state.readback_required = true) :
    units "session-start" ∈ provider_events_allowed_by_state state := by
  unfold provider_events_allowed_by_state
  rw [if_pos h]
  exact mem_cons_self

/-- Where one is required, the block carries a banner with its command, and the command is accepted
back exactly in the clearable states. -/
theorem block_accepted_iff {resolve : Str → Option Str} {args : GateArgs} {state : SessionState}
    (hscope : resolve args.cwd = some state.project) {block : Block}
    (hblock : blockOf state args.presentation = some block) :
    AcceptedBack resolve args state block ↔ Clearable args state := by
  unfold AcceptedBack
  rw [checkpoint_activity_bash]
  unfold blockOf at hblock
  split at hblock
  · rename_i hcapture
    have hevent : blockEvent state = units "capture" := if_pos hcapture
    cases hblock
    show is_checkpoint_command resolve (provider_payload_command _ _ _) _ = true ↔ _
    rw [payload_command_accepted args state _ (by decide), capture_allowed_iff,
      @valid_capture_payload _ _ args.presentation.cwd hscope]
    constructor
    · rintro ⟨hrun, hreadback, -⟩
      refine ⟨fun h => ?_, fun h => ?_, by rw [hevent]; exact hrun⟩
      · rw [hreadback] at h
        exact Bool.noConfusion h.2
      · rw [hreadback] at h
        exact Bool.noConfusion h
    · rintro ⟨hone, -, hrun⟩
      rw [hevent] at hrun
      exact ⟨hrun, Bool.eq_false_iff.mpr fun h => hone ⟨hcapture, h⟩, rfl⟩
  · rename_i hcapture
    split at hblock
    · rename_i hreadback
      have hevent : blockEvent state = units "session-start" := if_neg hcapture
      cases hblock
      show is_checkpoint_command resolve (provider_payload_command _ _ _) _ = true ↔ _
      rw [payload_command_accepted args state _ (by decide),
        @valid_readback_payload _ _ args.presentation.cwd hscope]
      constructor
      · rintro ⟨hrun, -, hid⟩
        refine ⟨fun h => hcapture h.1, fun _ h => ?_, by rw [hevent]; exact hrun⟩
        rw [h] at hid
        exact Bool.noConfusion hid
      · rintro ⟨-, hid, hrun⟩
        rw [hevent] at hrun
        refine ⟨hrun, recall_allowed hreadback, ?_⟩
        simpa using hid hreadback
    · cases hblock

/-! ## Every block of every run -/

def Invocation.handled (cal : Calendar) (file : Option PyJson) (i : Invocation) : SessionState :=
  initial cal i (Members.get? (load_state file) i.session_id)

/-- The command is a line of the banner. -/
def Block.Prints (block : Block) : Prop :=
  ∃ before after, block.banner = before ++ units "\n  " ++ block.command ++ units "\n" ++ after

theorem block_prints {state : SessionState} {context : PresentationContext} {block : Block}
    (h : blockOf state context = some block) : block.Prints := by
  have hjoin : ∀ a b c d command e f g : Str, ∃ before after,
      bannerText [a, b, c, d, units "  " ++ command, e, f, g] =
        before ++ units "\n  " ++ command ++ units "\n" ++ after := fun a b c d command e f g =>
    ⟨bannerText [a, b, c, d], bannerText [e, f, g], by simp [bannerText, joinSep, units]⟩
  have hjoin' : ∀ a b c d command e f : Str, ∃ before after,
      bannerText [a, b, c, d, units "  " ++ command, e, f] =
        before ++ units "\n  " ++ command ++ units "\n" ++ after := fun a b c d command e f =>
    ⟨bannerText [a, b, c, d], bannerText [e, f], by simp [bannerText, joinSep, units]⟩
  unfold blockOf at h
  split at h
  · cases h
    exact hjoin _ _ _ _ _ _ _ _
  · split at h
    · cases h
      exact hjoin' _ _ _ _ _ _ _
    · cases h

theorem blocked_block {cal : Calendar} {file : Option PyJson} {i : Invocation} {reason : Str}
    (hblocked : (invoke cal file i).verdict = .blocked reason) (context : PresentationContext) :
    ∃ block, blockOf (i.handled cal file) context = some block ∧ block.reason = reason := by
  have hverdict : (handle cal i (i.handled cal file)).verdict = .blocked reason := by
    rcases invoke_file cal file i with ⟨written, -, -, h⟩ | ⟨-, h⟩
    · exact h.symm.trans hblocked
    · rw [h] at hblocked
      cases hblocked
  generalize i.handled cal file = state at hverdict ⊢
  unfold handle at hverdict
  rw [blocked_event hverdict] at hverdict
  dsimp only at hverdict
  unfold handle_pre_tool_use block at hverdict
  unfold blockOf
  split at hverdict
  · cases hverdict
  split at hverdict
  · rename_i hcapture
    exact ⟨_, if_pos (Bool.and_eq_true_iff.mp hcapture).1, Verdict.blocked.inj hverdict⟩
  rename_i hcapture
  split at hverdict
  · rename_i hreadback
    obtain ⟨hreadback, hactivity⟩ := Bool.and_eq_true_iff.mp hreadback
    rw [hactivity, Bool.and_true] at hcapture
    rw [if_neg hcapture, if_pos hreadback]
    exact ⟨_, rfl, Verdict.blocked.inj hverdict⟩
  · cases hverdict

/-- **The recovery command.** Whatever the state file, the values and the paths: a blocked tool
call prints a banner with a command on a line of its own, and the gate accepts that command back
in the same state if and only if the state is clearable. -/
theorem recovery_command_accepted (cal : Calendar) (resolve : Str → Option Str) (args : GateArgs)
    (file : Option PyJson) (i : Invocation) (reason : Str)
    (hblocked : (invoke cal file i).verdict = .blocked reason)
    (hscope : resolve args.cwd = some (i.handled cal file).project) :
    ∃ block, blockOf (i.handled cal file) args.presentation = some block ∧
      block.reason = reason ∧ block.Prints ∧
      (AcceptedBack resolve args (i.handled cal file) block ↔
        Clearable args (i.handled cal file)) := by
  obtain ⟨block, hblock, hreason⟩ := blocked_block hblocked args.presentation
  exact ⟨block, hblock, hreason, block_prints hblock, block_accepted_iff hscope hblock⟩

/-! ## Work, and a compaction before it is captured -/

/-- The packaged defaults: no adapter is activated, and no file is where a script is expected. -/
def plainArgs : GateArgs where
  gate_script_path := units "/dev/gate.ts"
  provider_script_path := units "/dev/it's a provider.ts"
  disk := ⟨none, fun _ => false⟩
  cwd := units "/dev/p"

def projectOf : Str → Option Str := fun cwd => if cwd = units "/dev/p" then some (units "p") else none

/-- A compaction, and a tool call a minute after it: the printed recall is accepted. -/
theorem recovery_command_accepted_recall : ∃ block,
    blockOf ((bareEvent .pre_tool_use (seconds 60)).handled utc
      ((runFrom none).next utc (bareEvent .post_compact 0)).file) plainArgs.presentation =
        some block ∧
      AcceptedBack projectOf plainArgs ((bareEvent .pre_tool_use (seconds 60)).handled utc
        ((runFrom none).next utc (bareEvent .post_compact 0)).file) block := by
  obtain ⟨hblocked, hscope, hone, hid⟩ :
      (invoke utc ((runFrom none).next utc (bareEvent .post_compact 0)).file
        (bareEvent .pre_tool_use (seconds 60))).verdict = .blocked READBACK_REASON ∧
      projectOf plainArgs.cwd = some ((bareEvent .pre_tool_use (seconds 60)).handled utc
        ((runFrom none).next utc (bareEvent .post_compact 0)).file).project ∧
      ((bareEvent .pre_tool_use (seconds 60)).handled utc
        ((runFrom none).next utc (bareEvent .post_compact 0)).file).capture_required = false ∧
      ((bareEvent .pre_tool_use (seconds 60)).handled utc
        ((runFrom none).next utc (bareEvent .post_compact 0)).file).readback_correlation_id ≠ [] := by
    decide +kernel
  obtain ⟨block, hblock, -, -, hiff⟩ := recovery_command_accepted utc projectOf plainArgs _ _ _
    hblocked hscope
  refine ⟨block, hblock, hiff.mpr ⟨fun h => ?_, fun _ => hid, fun h => absurd h.1 (by decide)⟩⟩
  rw [hone] at h
  exact Bool.noConfusion h.1

def bothRun : GateRun :=
  ((runFrom none).next utc { bareEvent .stop 0 with didWork := true }).next utc
    (bareEvent .post_compact (seconds 1))

/-- The capture the banner then asks for is refused, since only a recall is allowed. -/
theorem capture_banner_refused : ¬ ∀ (cal : Calendar) (run : GateRun), (gateRuns cal).Reachable run →
    ∀ (i : Invocation) (reason : Str), (invoke cal run.file i).verdict = .blocked reason →
    ∀ (resolve : Str → Option Str) (args : GateArgs),
      resolve args.cwd = some (i.handled cal run.file).project →
    ∀ block, blockOf (i.handled cal run.file) args.presentation = some block →
      AcceptedBack resolve args (i.handled cal run.file) block := by
  intro h
  obtain ⟨hblocked, hscope, hcapture, hreadback⟩ :
      (invoke utc bothRun.file (bareEvent .pre_tool_use (seconds 60))).verdict =
        .blocked (units "capture-required") ∧
      projectOf plainArgs.cwd =
        some ((bareEvent .pre_tool_use (seconds 60)).handled utc bothRun.file).project ∧
      ((bareEvent .pre_tool_use (seconds 60)).handled utc bothRun.file).capture_required = true ∧
      ((bareEvent .pre_tool_use (seconds 60)).handled utc bothRun.file).readback_required = true := by
    decide +kernel
  have hreach : (gateRuns utc).Reachable bothRun :=
    ⟨runFrom none, [{ bareEvent .stop 0 with didWork := true }, bareEvent .post_compact (seconds 1)],
      ⟨fun _ => rfl, rfl⟩, .cons trivial ⟨le_refl _, le_refl _, rfl⟩
        (.cons trivial ⟨by decide, le_refl _, rfl⟩ (.nil _))⟩
  obtain ⟨block, hblock, -⟩ := blocked_block hblocked plainArgs.presentation
  have hback := h utc bothRun hreach _ _ hblocked projectOf plainArgs hscope block hblock
  exact ((block_accepted_iff hscope hblock).mp hback).one ⟨hcapture, hreadback⟩

end OpenBrain.Provider.Gate
