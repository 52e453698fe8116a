import OpenBrain.Core.PyJson
import OpenBrain.Provider.Gate.Receipts

/-!
# What the gate remembers of a session (`gate_state.py`)

A session's entry is any JSON value; `hydrate_session_state` reads what it can of it. The
reconciliation brings the state in line with the receipts and the clock before each verdict.
-/
namespace OpenBrain.Provider.Gate
open OpenBrain.Core OpenBrain.Core.Py

def READBACK_TIMEOUT : Int := seconds (15 * 60)
def CHECKPOINT_MAX_AGE : Int := seconds (20 * 60)
def LATEST_WRITE_MAX_AGE : Int := seconds (24 * 60 * 60)
def LEGACY_CORRELATION_MAX_AGE : Int := seconds (24 * 60 * 60)
def LEGACY_CORRELATION_SKEW : Int := seconds (2 * 60)

/-- mirrors gate_state.py:86-98 -/
inductive TransitionName where
  | armed | long_sprint | cleared_by_recall | cleared_by_capture | repair_entered | repair_exited
  | repair_expired | self_released_after_timeout | still_blocking_with_reason
  deriving DecidableEq

def TransitionName.text : TransitionName → Str
  | .armed => units "armed"
  | .long_sprint => units "long-sprint"
  | .cleared_by_recall => units "cleared-by-recall"
  | .cleared_by_capture => units "cleared-by-capture"
  | .repair_entered => units "repair-entered"
  | .repair_exited => units "repair-exited"
  | .repair_expired => units "repair-expired"
  | .self_released_after_timeout => units "self-released-after-timeout"
  | .still_blocking_with_reason => units "still-blocking-with-reason"

/-- mirrors gate_state.py:105-121; `moment` is `at` -/
structure GateTransition where
  name : Str
  moment : Str
  reason : Str
  deriving DecidableEq

/-- mirrors gate_state.py:124-154 -/
structure SessionState where
  session_id : Str
  project : Str
  context_tokens : Int
  compact_boundary_count : Int
  long_sprint_noted : Bool
  last_nag_at_tokens : Int
  checkpoint_required : Bool
  checkpoint_required_at : Str
  readback_required : Bool
  readback_required_at : Str
  readback_correlation_id : Str
  capture_required : Bool
  capture_required_at : Str
  pending_cleared_notices : List Str
  last_write_at : Str
  checkpoint_at_tokens : Int
  checkpoint_at : Str
  repair_mode_active : Bool
  repair_mode_entered_at : Str
  repair_mode_expires_at : Str
  transition_log : List GateTransition
  updated_at : Str
  deriving DecidableEq

/-! ## Entries -/

/-- mirrors gate_state.py:119-121 -/
def GateTransition.to_json (entry : GateTransition) : PyJson :=
  .obj [(units "name", .str entry.name), (units "at", .str entry.moment),
    (units "reason", .str entry.reason)]

def integerJson (n : Int) : PyJson := .num (.int n)

/-- mirrors gate_state.py:156-181 -/
def SessionState.to_json (state : SessionState) : Items :=
  [(units "sessionId", .str state.session_id),
    (units "project", .str state.project),
    (units "contextTokens", integerJson state.context_tokens),
    (units "compactBoundaryCount", integerJson state.compact_boundary_count),
    (units "longSprintNoted", .bool state.long_sprint_noted),
    (units "lastNagAtTokens", integerJson state.last_nag_at_tokens),
    (units "checkpointRequired", .bool state.checkpoint_required),
    (units "checkpointRequiredAt", .str state.checkpoint_required_at),
    (units "readbackRequired", .bool state.readback_required),
    (units "readbackRequiredAt", .str state.readback_required_at),
    (units "readbackCorrelationId", .str state.readback_correlation_id),
    (units "captureRequired", .bool state.capture_required),
    (units "captureRequiredAt", .str state.capture_required_at),
    (units "pendingClearedNotices", .arr (state.pending_cleared_notices.map Json.str)),
    (units "lastWriteAt", .str state.last_write_at),
    (units "checkpointAtTokens", integerJson state.checkpoint_at_tokens),
    (units "checkpointAt", .str state.checkpoint_at),
    (units "repairModeActive", .bool state.repair_mode_active),
    (units "repairModeEnteredAt", .str state.repair_mode_entered_at),
    (units "repairModeExpiresAt", .str state.repair_mode_expires_at),
    (units "transitionLog", .arr (state.transition_log.map GateTransition.to_json)),
    (units "updatedAt", .str state.updated_at)]

/-- mirrors gate_state.py:203-205 -/
def stringOf : Option PyJson → Str
  | some (.str s) => s
  | _ => []

/-- mirrors gate_state.py:208-212 -/
def integerOf : Option PyJson → Int
  | some (.num (.int n)) => n
  | _ => 0

/-- mirrors gate_state.py:215-217 -/
def booleanOf : Option PyJson → Bool
  | some (.bool b) => b
  | _ => false

/-- mirrors gate_state.py:220-224 -/
def stringListOf : Option PyJson → List Str
  | some (.arr items) => items.filterMap fun
    | .str s => some s
    | _ => none
  | _ => []

/-- mirrors gate_state.py:227-241 -/
def transitionListOf : Option PyJson → List GateTransition
  | some (.arr items) => items.filterMap fun
    | .obj ms =>
      match Members.get? ms (units "name"), Members.get? ms (units "at"),
          Members.get? ms (units "reason") with
      | some (.str name), some (.str moment), some (.str reason) => some ⟨name, moment, reason⟩
      | _, _, _ => none
    | _ => none
  | _ => []

def entryMembers : Option PyJson → Items
  | some (.obj ms) => ms
  | _ => []

/-- mirrors gate_state.py:244-291 -/
def hydrate_session_state (stored : Option PyJson) (session_id now : Str) : SessionState :=
  let source := entryMembers stored
  { session_id := session_id
    project := stringOf (source.get? (units "project"))
    context_tokens := integerOf (source.get? (units "contextTokens"))
    compact_boundary_count := integerOf (source.get? (units "compactBoundaryCount"))
    long_sprint_noted := booleanOf (source.get? (units "longSprintNoted"))
    last_nag_at_tokens := integerOf (source.get? (units "lastNagAtTokens"))
    checkpoint_required := false
    checkpoint_required_at := []
    readback_required := booleanOf (source.get? (units "readbackRequired"))
    readback_required_at := stringOf (source.get? (units "readbackRequiredAt"))
    readback_correlation_id := stringOf (source.get? (units "readbackCorrelationId"))
    capture_required := booleanOf (source.get? (units "captureRequired"))
    capture_required_at := stringOf (source.get? (units "captureRequiredAt"))
    pending_cleared_notices := stringListOf (source.get? (units "pendingClearedNotices"))
    last_write_at := stringOf (source.get? (units "lastWriteAt"))
    checkpoint_at_tokens := integerOf (source.get? (units "checkpointAtTokens"))
    checkpoint_at := stringOf (source.get? (units "checkpointAt"))
    repair_mode_active := booleanOf (source.get? (units "repairModeActive"))
    repair_mode_entered_at := stringOf (source.get? (units "repairModeEnteredAt"))
    repair_mode_expires_at := stringOf (source.get? (units "repairModeExpiresAt"))
    transition_log := transitionListOf (source.get? (units "transitionLog"))
    updated_at := now }

/-! ## Transitions -/

/-- mirrors gate_state.py:341-357 -/
def record_transition (state : SessionState) (name : TransitionName) (now reason : Str) :
    SessionState :=
  { state with transition_log := state.transition_log ++ [⟨name.text, now, reason⟩] }

/-- mirrors gate_state.py:360-371 -/
def queue_notice (state : SessionState) (notice : Str) : SessionState :=
  if state.pending_cleared_notices.contains notice then state
  else { state with pending_cleared_notices := state.pending_cleared_notices ++ [notice] }

/-- mirrors gate_state.py:545-549 -/
def clear_readback (state : SessionState) : SessionState :=
  { state with
    readback_required := false
    readback_required_at := []
    readback_correlation_id := [] }

/-- mirrors gate_state.py:552-556 -/
def clear_repair_mode (state : SessionState) : SessionState :=
  { state with
    repair_mode_active := false
    repair_mode_entered_at := []
    repair_mode_expires_at := [] }

variable (cal : Calendar)

/-- mirrors gate_state.py:374-393 -/
def repair_mode_is_active (state : SessionState) (now : Str) : Bool :=
  state.repair_mode_active &&
    match cal.parse state.repair_mode_expires_at, cal.parse now with
    | some expires, some current => decide (current < expires)
    | _, _ => false

/-- mirrors gate_state.py:396-411 -/
def enter_repair_mode (state : SessionState) (now : Str) (entered duration : Instant)
    (reason : Str) : SessionState :=
  record_transition
    { state with
      repair_mode_active := true
      repair_mode_entered_at := now
      repair_mode_expires_at := cal.iso (entered + duration) }
    .repair_entered now reason

/-- mirrors gate_state.py:414-433 -/
def exit_repair_mode (state : SessionState) (now reason : Str) : SessionState :=
  record_transition (clear_repair_mode state) .repair_exited now
    (if state.repair_mode_active then reason else reason ++ units "; already inactive")

/-- mirrors gate_state.py:436-466 -/
def verified_checkpoint (state : SessionState) (receipts : ReceiptState) (now : Instant) :
    Option ReceiptEvidence :=
  find_fresh_receipt cal receipts state.session_id
    { modes := [units "verified-remote"]
      operations := [units "checkpoint"]
      project := state.project
      after := state.checkpoint_required_at
      max_age := CHECKPOINT_MAX_AGE } now

/-- mirrors gate_state.py:491-527 -/
def fresh_session_state (previous : SessionState) : SessionState :=
  { previous with
    context_tokens := 0
    compact_boundary_count := 0
    long_sprint_noted := false
    last_nag_at_tokens := 0
    checkpoint_required := false
    checkpoint_required_at := []
    readback_required := false
    readback_required_at := []
    readback_correlation_id := []
    capture_required := false
    capture_required_at := []
    pending_cleared_notices := []
    repair_mode_active := false
    repair_mode_entered_at := []
    repair_mode_expires_at := [] }

/-! ## Reconciliation -/

def WRITE_OPERATIONS : List Str := [units "capture", units "checkpoint", units "wrap"]
def DURABLE_MODES : List Str := [units "verified-remote", units "durable-spool"]

def durableWrite (state : SessionState) (after : Str) (max_age : Int) : ReceiptQuery where
  modes := DURABLE_MODES
  operations := WRITE_OPERATIONS
  project := state.project
  after := after
  max_age := max_age

/-- mirrors gate_state.py:559-578 -/
def reconcile_latest_write (receipts : ReceiptState) (now : Instant) (state : SessionState) :
    SessionState :=
  match find_fresh_receipt cal receipts state.session_id
      (durableWrite state [] LATEST_WRITE_MAX_AGE) now with
  | none => state
  | some latest =>
    match cal.parse latest.recorded_at, cal.parse state.last_write_at with
    | some recorded, some known =>
      if recorded ≤ known then state else { state with last_write_at := latest.recorded_at }
    | _, _ => { state with last_write_at := latest.recorded_at }

/-- mirrors gate_state.py:581-604 -/
def reconcile_capture (receipts : ReceiptState) (now : Str) (reference : Instant)
    (state : SessionState) : SessionState :=
  if !state.capture_required then state
  else
    match find_fresh_receipt cal receipts state.session_id
        (durableWrite state state.capture_required_at DEFAULT_RECEIPT_MAX_AGE) reference with
    | none => state
    | some captured =>
      queue_notice
        (record_transition
          { state with
            capture_required := false
            capture_required_at := []
            last_write_at := captured.recorded_at }
          .cleared_by_capture now (units "durable write receipt verified"))
        (units "capture cleared · durable write receipt verified")

/-- mirrors gate_state.py:631-659 -/
def recover_legacy_correlation (receipts : ReceiptState) (reference : Instant)
    (state : SessionState) : SessionState :=
  if state.readback_correlation_id ≠ [] then state
  else
    match current_compact_cycle cal receipts state.session_id state.project
        LEGACY_CORRELATION_MAX_AGE reference with
    | none => state
    | some cycle =>
      match cal.parse state.readback_required_at, cal.parse cycle.started_at with
      | some required, some started =>
        if LEGACY_CORRELATION_SKEW < (required - started).natAbs then state
        else
          { state with
            readback_correlation_id := cycle.id
            readback_required_at := cycle.started_at }
      | _, _ => state

/-- The last lines of `_reconcile_compact_recall`. -/
def clear_by_recall (receipts : ReceiptState) (now : Str) (reference : Instant)
    (state : SessionState) : SessionState :=
  if state.readback_correlation_id = [] then state
  else if !has_verified_compact_recall cal receipts state.session_id state.project
      state.readback_correlation_id VERIFIED_RECALL_MAX_AGE reference then state
  else
    queue_notice
      (record_transition (clear_readback state) .cleared_by_recall now
        (units "direct recall receipt verified"))
      (units "read-back cleared · direct recall receipt verified")

/-- mirrors gate_state.py:607-628 -/
def reconcile_compact_recall (receipts : ReceiptState) (now : Str) (reference : Instant)
    (state : SessionState) : SessionState :=
  if !state.readback_required then state
  else clear_by_recall cal receipts now reference
    (recover_legacy_correlation cal receipts reference state)

/-- mirrors gate_state.py:662-671 -/
def expire_repair_mode (now : Str) (reference : Instant) (state : SessionState) : SessionState :=
  if !state.repair_mode_active then state
  else if (cal.parse state.repair_mode_expires_at).any fun expires => decide (reference < expires)
  then state
  else
    queue_notice
      (record_transition (clear_repair_mode state) .repair_expired now
        (units "bounded repair window elapsed"))
      (units "repair-expired · normal enforcement resumed")

/-- mirrors gate_state.py:674-697 -/
def release_timed_out_readback (now : Str) (reference : Instant) (state : SessionState) :
    SessionState :=
  if !state.readback_required then state
  else
    match cal.parse state.readback_required_at with
    | none => state
    | some required =>
      if reference - required < READBACK_TIMEOUT then state
      else
        queue_notice
          (record_transition (clear_readback state) .self_released_after_timeout now
            (units "15-minute read-back timeout elapsed"))
          (units "self-released-after-timeout · no recall receipt manufactured")

/-- `clock` is what `datetime.now` gives should `now` not parse. mirrors gate_state.py:469-488 -/
def reconcile_gate_state (receipts : ReceiptState) (now : Str) (clock : Instant)
    (state : SessionState) : SessionState :=
  let reference := (cal.parse now).getD clock
  let state := reconcile_latest_write cal receipts reference state
  let state := reconcile_capture cal receipts now reference state
  let state := reconcile_compact_recall cal receipts now reference state
  let state := expire_repair_mode cal now reference state
  release_timed_out_readback cal now reference state

end OpenBrain.Provider.Gate
