import OpenBrain.Provider.Gate.State

/-!
# One gate invocation (`context_budget_gate.py`)

An invocation loads the state file, brings its session's entry up to date, answers one event and
saves the file. Everything it finds outside the file and the receipts is in its `Invocation`. A
text with an unpaired surrogate has no UTF-8 encoding: the save that meets one has emptied the
file already and raises, so the hook dies without a verdict.
-/
namespace OpenBrain.Provider.Gate
open OpenBrain.Core OpenBrain.Core.Py

/-! ## The state file -/

mutual

def encodes : PyJson → Bool
  | .null => true
  | .bool _ => true
  | .num _ => true
  | .str s => Utf8.wellPaired s
  | .arr items => encodesElems items
  | .obj ms => encodesMembers ms

def encodesElems : List PyJson → Bool
  | [] => true
  | v :: vs => encodes v && encodesElems vs

def encodesMembers : Items → Bool
  | [] => true
  | (k, v) :: ms => Utf8.wellPaired k && encodes v && encodesMembers ms

end

/-- `raw_sessions`; a file that cannot be read or parsed is `none`. mirrors gate_state.py:294-316 -/
def load_state (file : Option PyJson) : Items :=
  match Members.get? (entryMembers file) (units "sessions") with
  | some (.obj sessions) => sessions
  | _ => []

/-- What the file holds after a save, `none` when it was emptied and the text not written.
mirrors gate_state.py:319-338 -/
def save_session_state (raw_sessions : Items) (session_id : Str) (entry : PyJson) :
    Option PyJson :=
  let raw_sessions := Members.set raw_sessions session_id entry
  if encodesMembers raw_sessions then some (.obj [(units "sessions", .obj raw_sessions)]) else none

theorem load_save {raw : Items} {session_id : Str} {entry file : PyJson}
    (h : save_session_state raw session_id entry = some file) :
    load_state (some file) = Members.set raw session_id entry := by
  unfold save_session_state at h
  dsimp only at h
  split at h
  · cases h
    rfl
  · cases h

/-! ## Invocations -/

/-- mirrors context_budget_gate.py:164-175 -/
inductive EventName where
  | user_prompt_submit | pre_tool_use | pre_compact | post_compact | session_start
  | checkpoint_done | repair_enter | repair_exit | stop | status
  deriving DecidableEq

/-- The inputs of one run of the gate. `now` is the clock at its start, `cycleNow` when it asks
for a compaction cycle; `project` is what `_set_project` resolves, `checkpointActivity` and
`repairCapable` what the shell rules make of the tool call, `tokens`, `boundaries` and `didWork`
what the transcript shows; `fresh` is the id a new cycle would get. -/
structure Invocation where
  event_name : EventName
  session_id : Str
  now : Instant
  cycleNow : Instant
  receipts : ReceiptState
  project : Option Str
  source : Str
  boundaries : Int
  tokens : Int
  didWork : Bool
  repairCapable : Bool
  checkpointActivity : Bool
  nag_tokens : Int
  handoff_tokens : Int
  sprintReason : Str
  repair_reason : Str
  repair_minutes : Int
  fresh : Str
  locked : Bool

def RENAG_STEP : Int := 15000
def LONGEST_REPAIR_MINUTES : Int := 15

/-- What the hook answers. -/
inductive Verdict where
  | silent
  | allowed
  | repairAllowed
  | blocked (reason : Str)
  | refused
  | crashed
  deriving DecidableEq

variable (cal : Calendar)

/-- mirrors context_budget_gate.py:433-457 -/
def note_long_sprint (i : Invocation) (state : SessionState) : SessionState :=
  if state.long_sprint_noted then state
  else if state.compact_boundary_count < 1 then state
  else if state.context_tokens < i.handoff_tokens then state
  else
    record_transition { state with long_sprint_noted := true } .long_sprint (cal.iso i.now)
      i.sprintReason

/-- The project, the boundaries and the tokens, in the first lines of `_Gate.__init__`. -/
def observe (i : Invocation) (state : SessionState) : SessionState :=
  { state with
    project := i.project.getD state.project
    compact_boundary_count :=
      if i.event_name = .pre_tool_use then state.compact_boundary_count
      else max state.compact_boundary_count i.boundaries
    context_tokens := if 0 < i.tokens then i.tokens else state.context_tokens }

def loaded (i : Invocation) (stored : Option PyJson) : SessionState :=
  observe i (hydrate_session_state stored i.session_id (cal.iso i.now))

def Invocation.stamp (i : Invocation) : Instant := i.now / 1000 * 1000

def Invocation.found (file : Option PyJson) (i : Invocation) : SessionState :=
  loaded cal i (Members.get? (load_state file) i.session_id)

/-- The state a handler starts from. mirrors context_budget_gate.py:355-388 -/
def initial (i : Invocation) (stored : Option PyJson) : SessionState :=
  note_long_sprint cal i
    (reconcile_gate_state cal i.receipts (cal.iso i.now) i.now (loaded cal i stored))

/-- The id and the start of the cycle a read-back is correlated to, and the receipts then.
mirrors context_budget_gate.py:804-837 -/
def compact_cycle_for_event (i : Invocation) (state : SessionState) : Str × Str × ReceiptState :=
  let existing :=
    if i.event_name = .post_compact then none
    else current_compact_cycle cal i.receipts i.session_id state.project COMPACT_CYCLE_MAX_AGE
      i.cycleNow
  match existing with
  | some cycle => (cycle.id, cycle.started_at, i.receipts)
  | none =>
    match gate_compact_cycle cal i.receipts i.session_id state.project i.fresh i.locked
        i.cycleNow with
    | some (cycle, receipts) => (cycle.id, cycle.started_at, receipts)
    | none => ([], cal.iso i.now, i.receipts)

/-- The states a handler saves, in order, its verdict, and the receipts it leaves. -/
structure Answer where
  saves : List SessionState
  verdict : Verdict
  receipts : ReceiptState

/-- mirrors context_budget_gate.py:581-613 -/
def handle_user_prompt_submit (i : Invocation) (state : SessionState) : Answer :=
  let nags := !state.readback_required &&
    decide (i.nag_tokens ≤ state.context_tokens ∧
      state.last_nag_at_tokens + RENAG_STEP ≤ state.context_tokens)
  let nagged :=
    if nags then { state with last_nag_at_tokens := state.context_tokens } else state
  let shown := if state.project = [] then [] else [{ nagged with pending_cleared_notices := [] }]
  ⟨[state] ++ (if nags then [nagged] else []) ++ shown, .silent, i.receipts⟩

/-- mirrors context_budget_gate.py:654-681 -/
def block (i : Invocation) (state : SessionState) (reason : Str) : Answer :=
  ⟨[record_transition state .still_blocking_with_reason (cal.iso i.now) reason], .blocked reason,
    i.receipts⟩

def READBACK_REASON : Str := units "readback-required"

/-- mirrors context_budget_gate.py:616-651 -/
def handle_pre_tool_use (i : Invocation) (state : SessionState) : Answer :=
  if repair_mode_is_active cal state (cal.iso i.now) && i.repairCapable then
    ⟨[state], .repairAllowed, i.receipts⟩
  else if state.capture_required && !i.checkpointActivity then
    block cal i state (units "capture-required")
  else if state.readback_required && !i.checkpointActivity then
    block cal i state READBACK_REASON
  else
    let state := { state with pending_cleared_notices := [] }
    ⟨[state, state], .allowed, i.receipts⟩

/-- mirrors context_budget_gate.py:684-712 -/
def handle_checkpoint_done (i : Invocation) (state : SessionState) : Answer :=
  match verified_checkpoint cal state i.receipts i.cycleNow with
  | none => ⟨[], .refused, i.receipts⟩
  | some evidence =>
    ⟨[{ state with
        checkpoint_required := false
        checkpoint_required_at := []
        checkpoint_at_tokens := state.context_tokens
        checkpoint_at := evidence.recorded_at
        last_nag_at_tokens := state.context_tokens }], .silent, i.receipts⟩

/-- mirrors context_budget_gate.py:715-733 -/
def handle_repair_enter (i : Invocation) (state : SessionState) : Answer :=
  if i.repair_reason = [] ∨ i.repair_minutes < 1 ∨ LONGEST_REPAIR_MINUTES < i.repair_minutes then
    ⟨[], .refused, i.receipts⟩
  else
    ⟨[enter_repair_mode cal state (cal.iso i.now) ((cal.parse (cal.iso i.now)).getD i.now)
        (seconds (60 * i.repair_minutes)) i.repair_reason], .silent, i.receipts⟩

/-- mirrors context_budget_gate.py:736-743 -/
def handle_repair_exit (i : Invocation) (state : SessionState) : Answer :=
  let reason := if i.repair_reason = [] then units "explicit repair exit" else i.repair_reason
  ⟨[exit_repair_mode state (cal.iso i.now) reason], .silent, i.receipts⟩

/-- mirrors context_budget_gate.py:746-758 -/
def handle_stop (i : Invocation) (state : SessionState) : Answer :=
  if !i.didWork then ⟨[state], .silent, i.receipts⟩
  else
    let armed := { state with
      capture_required := true
      capture_required_at := cal.iso i.now }
    ⟨[record_transition armed .armed (cal.iso i.now)
      (units "capture required after uncaptured work")], .silent, i.receipts⟩

def Invocation.arms (i : Invocation) : Bool :=
  i.event_name == .post_compact ||
    (i.event_name == .session_start && (i.source == [] || i.source == units "compact"))

def armed_state (i : Invocation) (state : SessionState) : SessionState :=
  let (cycle_id, started_at, _) := compact_cycle_for_event cal i state
  let armed := { state with
    checkpoint_required := false
    checkpoint_required_at := []
    readback_required := true
    last_nag_at_tokens := 0
    context_tokens := 0
    readback_required_at := started_at
    readback_correlation_id := cycle_id }
  record_transition armed .armed (cal.iso i.now)
    (units "post-compact read-back cycle " ++ cycle_id)

/-- The end of `_handle_compact_lifecycle`: the read-back is armed. -/
def arm (i : Invocation) (state : SessionState) : Answer :=
  let (_, _, receipts) := compact_cycle_for_event cal i state
  let armed := armed_state cal i state
  let armed :=
    if i.event_name = .session_start then
      reconcile_gate_state cal receipts (cal.iso i.now) i.now armed
    else armed
  ⟨[armed], .silent, receipts⟩

/-- mirrors context_budget_gate.py:772-801 -/
def handle_compact_lifecycle (i : Invocation) (state : SessionState) : Answer :=
  if i.arms then arm cal i state
  else
    let left :=
      if state.repair_mode_active then
        record_transition state .repair_exited (cal.iso i.now) (units "fresh session reset")
      else state
    ⟨[fresh_session_state left], .silent, i.receipts⟩

/-- mirrors context_budget_gate.py:873-884 -/
def handle (i : Invocation) (state : SessionState) : Answer :=
  match i.event_name with
  | .user_prompt_submit => handle_user_prompt_submit i state
  | .pre_tool_use => handle_pre_tool_use cal i state
  | .checkpoint_done => handle_checkpoint_done cal i state
  | .repair_enter => handle_repair_enter cal i state
  | .repair_exit => handle_repair_exit cal i state
  | .stop => handle_stop cal i state
  | .pre_compact | .status => ⟨[state], .silent, i.receipts⟩
  | .post_compact | .session_start => handle_compact_lifecycle cal i state

/-- The saves of an invocation, one after the other; the first that fails ends it. -/
def saveAll (raw_sessions : Items) (file : Option PyJson) :
    List SessionState → Option (Option PyJson)
  | [] => some file
  | state :: states =>
    match save_session_state raw_sessions state.session_id (.obj state.to_json) with
    | none => none
    | some written =>
      saveAll (Members.set raw_sessions state.session_id (.obj state.to_json)) (some written) states

/-- The file, the verdict and the receipts after an invocation. -/
structure Outcome where
  file : Option PyJson
  verdict : Verdict
  receipts : ReceiptState

/-- mirrors context_budget_gate.py:910-949 -/
def invoke (file : Option PyJson) (i : Invocation) : Outcome :=
  let raw_sessions := load_state file
  let answer := handle cal i (initial cal i (Members.get? raw_sessions i.session_id))
  match saveAll raw_sessions file answer.saves with
  | some file => ⟨file, answer.verdict, answer.receipts⟩
  | none => ⟨none, .crashed, answer.receipts⟩

end OpenBrain.Provider.Gate
