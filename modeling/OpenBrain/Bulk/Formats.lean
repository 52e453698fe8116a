import OpenBrain.Capture.Records
import OpenBrain.Core.TextLines

/-!
# Codex rollouts as turns (`apps/bulk/formats.py`)

A line is read into an envelope, and the payload of the envelope's kind is checked field by field.
A check that fails names the fields, never their values. What is outside of the repository is a
parameter (`Libraries`): the JSON parser behind pydantic, what pydantic takes for an `int`, and
`uuid5`.
-/
namespace OpenBrain.Bulk
open OpenBrain.Core OpenBrain.Core.Py
open OpenBrain.Capture.Records (RawTurn TurnRole)

structure Libraries where
  /-- the parser of `model_validate_json` -/
  parse : Str → Option PyJson
  /-- a value pydantic takes for an `int` -/
  isInt : PyJson → Bool
  /-- `str(uuid5(NAMESPACE_URL, name))` -/
  uuid5 : Str → Str

/-- `malformed` is `MalformedCodexRecordError`; `emptyId` is the `ValidationError` of a turn without
an id. -/
inductive CodexError where
  | malformed (record fields : Str)
  | emptyId
  deriving DecidableEq

/-- mirrors formats.py:71-85 -/
def malformedMessage (record fields location : Str) : Str :=
  units "malformed Codex rollout record '" ++ record ++ units "' at " ++ location ++
    units "; observed shape failed at " ++ fields ++
    units ". No message content is included in this error. ACTION REQUIRED: inspect or sanitize that JSONL line and update the adapter only from an observed Codex format change."

/-! ## Models -/

/-- Where a check failed, from the outside in. -/
abbrev Loc := List Str

/-- A field of a model under its alias; `check` gives the places below it that fail. -/
structure FieldRule where
  key : Str
  required : Bool
  check : PyJson → List Loc

/-- The places a dict fails a model at, in the order of the fields. -/
def locate (rules : List FieldRule) (ms : Items) : List Loc :=
  rules.flatMap fun rule =>
    match Members.get? ms rule.key with
    | none => if rule.required then [[rule.key]] else []
    | some v => (rule.check v).map (rule.key :: ·)

def holds (b : Bool) : List Loc := if b then [] else [[]]

def checkStr : PyJson → List Loc
  | .str _ => []
  | _ => [[]]

def checkDict : PyJson → List Loc
  | .obj _ => []
  | _ => [[]]

def checkList : PyJson → List Loc
  | .arr _ => []
  | _ => [[]]

def checkLiteral (kind : Str) (v : PyJson) : List Loc :=
  match v with
  | .str s => holds (s = kind)
  | _ => [[]]

def nullable (check : PyJson → List Loc) : PyJson → List Loc
  | .null => []
  | v => check v

def checkModel (rules : List FieldRule) : PyJson → List Loc
  | .obj ms => locate rules ms
  | _ => [[]]

/-- The fields a failed model names; mirrors formats.py:459-465 -/
def fieldsText (locs : List Loc) : Str :=
  let text := (units ", ").intercalate (locs.map (unit '.' :: []).intercalate)
  if text.isEmpty then units "unknown field" else text

/-- mirrors formats.py:125-132 -/
structure CodexEnvelope where
  timestamp : Str
  record_type : Str
  payload : Items

def envelopeRules : List FieldRule :=
  [⟨units "timestamp", true, checkStr⟩, ⟨units "type", true, checkStr⟩,
    ⟨units "payload", true, checkDict⟩]

/-- mirrors formats.py:135-141 -/
def sessionMetaRules : List FieldRule :=
  [⟨units "id", true, checkStr⟩, ⟨units "session_id", true, checkStr⟩]

/-- mirrors formats.py:144-155 -/
def userMessageRules : List FieldRule :=
  [⟨units "type", true, checkLiteral (units "user_message")⟩, ⟨units "message", true, checkStr⟩,
    ⟨units "images", true, checkList⟩, ⟨units "local_images", true, checkList⟩,
    ⟨units "audio", true, checkList⟩, ⟨units "local_audio", true, checkList⟩,
    ⟨units "text_elements", true, checkList⟩]

variable (L : Libraries)

def checkInt (v : PyJson) : List Loc := holds (L.isInt v)

/-- mirrors formats.py:158-175 -/
def tokenCountRules : List FieldRule :=
  [⟨units "type", true, checkLiteral (units "token_count")⟩,
    ⟨units "info", true, checkModel
      [⟨units "total_token_usage", true, checkDict⟩, ⟨units "last_token_usage", true, checkDict⟩,
        ⟨units "model_context_window", true, checkInt L⟩]⟩,
    ⟨units "rate_limits", true, checkDict⟩]

/-- mirrors formats.py:178-187 -/
def taskStartedRules : List FieldRule :=
  [⟨units "type", true, checkLiteral (units "task_started")⟩, ⟨units "turn_id", true, checkStr⟩,
    ⟨units "started_at", true, checkInt L⟩, ⟨units "model_context_window", true, checkInt L⟩,
    ⟨units "collaboration_mode_kind", true, checkStr⟩]

/-- mirrors formats.py:190-219 -/
def taskCompleteRules : List FieldRule :=
  [⟨units "type", true, checkLiteral (units "task_complete")⟩, ⟨units "turn_id", true, checkStr⟩,
    ⟨units "last_agent_message", true, nullable checkStr⟩, ⟨units "started_at", true, checkInt L⟩,
    ⟨units "completed_at", true, checkInt L⟩, ⟨units "duration_ms", true, checkInt L⟩,
    ⟨units "time_to_first_token_ms", false, nullable (checkInt L)⟩]

/-- A field that the model has checked to be a text. -/
def text (ms : Items) (key : Str) : Str :=
  match Members.get? ms key with
  | some (.str s) => s
  | _ => []

/-- `CodexEnvelope.model_validate_json`; `record` is the family an error names. -/
def envelope (record line : Str) : Except CodexError CodexEnvelope :=
  match L.parse line with
  | some (.obj ms) =>
    match Members.get? ms (units "timestamp"), Members.get? ms (units "type"),
        Members.get? ms (units "payload") with
    | some (.str timestamp), some (.str record_type), some (.obj payload) =>
      .ok ⟨timestamp, record_type, payload⟩
    | _, _, _ => .error (.malformed record (fieldsText (locate envelopeRules ms)))
  | _ => .error (.malformed record (fieldsText [[]]))

/-- mirrors formats.py:448-456 -/
def payload (rules : List FieldRule) (event_type : Str) (ms : Items) : Except CodexError Unit :=
  match locate rules ms with
  | [] => .ok ()
  | locs => .error (.malformed (units "event_msg/" ++ event_type) (fieldsText locs))

/-! ## Events -/

/-- `codex-user:` and the derived id. -/
def codexUser (name : Str) : Str := units "codex-user:" ++ L.uuid5 name

/-- mirrors formats.py:410-419 -/
def codex_user_turn (env : CodexEnvelope) (line : Str) : Except CodexError (Option RawTurn) := do
  payload userMessageRules (units "user_message") env.payload
  .ok (some ⟨codexUser L (strip line), text env.payload (units "message"), .user, true,
    some env.timestamp, none, none, none, none, none⟩)

/-- mirrors formats.py:422-435 -/
def codex_task_complete_turn (env : CodexEnvelope) : Except CodexError (Option RawTurn) := do
  payload (taskCompleteRules L) (units "task_complete") env.payload
  match Members.get? env.payload (units "last_agent_message") with
  | some (.str last_agent_message) =>
    if (text env.payload (units "turn_id")).isEmpty then .error .emptyId
    else
      .ok (some ⟨text env.payload (units "turn_id"), last_agent_message, .assistant, false,
        some env.timestamp, none, none, none, none, none⟩)
  | _ => .ok none

/-- `_CODEX_EVENT_ADAPTERS`; mirrors formats.py:438-445, 488-493 -/
def codexEvent (event_type : Str) (env : CodexEnvelope) (line : Str) :
    Except CodexError (Option RawTurn) :=
  if event_type = units "user_message" then codex_user_turn L env line
  else if event_type = units "token_count" then do
    payload (tokenCountRules L) (units "token_count") env.payload
    .ok none
  else if event_type = units "task_started" then do
    payload (taskStartedRules L) (units "task_started") env.payload
    .ok none
  else if event_type = units "task_complete" then codex_task_complete_turn L env
  else .ok none

/-! ## Records of the terminal -/

/-- `value == s` for a text. -/
def isText (value : Option PyJson) (s : Str) : Bool :=
  match value with
  | some (.str t) => t = s
  | _ => false

/-- `value == ["user.text"]` -/
def isUserText (value : Option PyJson) : Bool :=
  match value with
  | some (.arr [.str kind]) => kind = units "user.text"
  | _ => false

/-- The one block of a message, of the expected type; mirrors formats.py:300-307 -/
def blockText (expected_type : Str) (content : Option PyJson) : Option Str :=
  match content with
  | some (.arr [.obj block]) =>
    match Members.get? block (units "type"), Members.get? block (units "text") with
    | some (.str kind), some (.str s) => if kind = expected_type then some s else none
    | _, _ => none
  | _ => none

/-- mirrors formats.py:274-321 -/
def codex_tui_response_turn (env : CodexEnvelope) (line : Str) (session_ref : Option Str) :
    Except CodexError (Option RawTurn) :=
  if !isText (Members.get? env.payload (units "type")) (units "message") then .ok none
  else
    match Members.get? env.payload (units "internal_chat_message_metadata_passthrough") with
    | some (.obj metadata) =>
      let role := Members.get? env.payload (units "role")
      let is_user := isText role (units "user") &&
        isUserText (Members.get? metadata (units "content_item_kinds"))
      let is_final := isText role (units "assistant") &&
        isText (Members.get? env.payload (units "phase")) (units "final_answer")
      if !(is_user || is_final) then .ok none
      else
        match session_ref with
        | none => .error (.malformed (units "response_item") (units "session_meta.payload.id"))
        | some ref =>
          let turn_id := text metadata (units "turn_id")
          if turn_id.isEmpty then
            .error (.malformed (units "response_item") (units "payload.metadata.turn_id"))
          else
            match blockText (if is_user then units "input_text" else units "output_text")
                (Members.get? env.payload (units "content")) with
            | none => .error (.malformed (units "response_item") (units "payload.content"))
            | some s =>
              let turn_uuid :=
                if is_user then
                  codexUser L (ref ++ unit '\n' :: (turn_id ++ unit '\n' :: strip line))
                else turn_id
              .ok (some ⟨turn_uuid, s, if is_user then .user else .assistant, is_user,
                some env.timestamp, none, some ref, none, none, none⟩)
    | _ => .ok none

/-- The update of a turn read with the rollout's session; mirrors formats.py:264-271 -/
def inSession (event_type line : Str) (session_ref : Option Str) (turn : RawTurn) : RawTurn :=
  match session_ref with
  | none => turn
  | some ref =>
    { turn with
      session_ref := some ref
      turn_uuid :=
        if event_type = units "user_message" then codexUser L (ref ++ unit '\n' :: strip line)
        else turn.turn_uuid }

/-- mirrors formats.py:225-271 -/
def codex_raw_turn_from_line (line : Str) (session_ref : Option Str) :
    Except CodexError (Option RawTurn) :=
  if (strip line).isEmpty then .error (.malformed (units "envelope") (units "line (blank)"))
  else do
    let env ← envelope L (units "envelope") line
    if env.record_type = units "response_item" then codex_tui_response_turn L env line session_ref
    else if env.record_type ≠ units "event_msg" then .ok none
    else
      match Members.get? env.payload (units "type") with
      | some (.str event_type) => do
        let turn ← codexEvent L event_type env line
        .ok (turn.map (inSession L event_type line session_ref))
      | _ => .error (.malformed (units "event_msg") (units "payload.type"))

/-- mirrors formats.py:338-363 -/
def codex_session_ref_if_present (line : Str) : Except CodexError (Option Str) := do
  let env ← envelope L (units "session_meta") line
  if env.record_type ≠ units "session_meta" then .ok none
  else
    match locate sessionMetaRules env.payload with
    | [] =>
      if text env.payload (units "id") ≠ text env.payload (units "session_id") then
        .error (.malformed (units "session_meta")
          (units "payload.id and payload.session_id disagree"))
      else .ok (some (text env.payload (units "id")))
    | locs => .error (.malformed (units "session_meta") (fieldsText locs))

/-! ## A file -/

def fileLines (content : Str) : List Str :=
  splitAfter (fun u => u = unit '\n') (universalNewlines content)

/-- An error with the number of its line; mirrors ingest.py:285-308 -/
def parsed_turns (session_ref : Option Str) (line_number : Nat) :
    List Str → Except (Nat × CodexError) (List RawTurn)
  | [] => .ok []
  | line :: lines =>
    match codex_raw_turn_from_line L line session_ref with
    | .error e => .error (line_number, e)
    | .ok turn => (parsed_turns session_ref (line_number + 1) lines).map (turn.toList ++ ·)

/-- A Codex file with the session of its first record; mirrors ingest.py:131-159 -/
def parse_file (content : Str) : Except (Nat × CodexError) (List RawTurn) :=
  match fileLines content with
  | [] => .ok []
  | line :: lines =>
    match codex_session_ref_if_present L line with
    | .error e => .error (1, e)
    | .ok session_ref => parsed_turns L session_ref 1 (line :: lines)

end OpenBrain.Bulk
