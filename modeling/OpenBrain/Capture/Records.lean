import OpenBrain.Capture.Transcript

/-!
# One line of a Claude transcript as a turn (`apps/capture/records.py`)

The line is read into a model of eight fields, whose types pydantic checks, and a record of the
operator or the assistant gives its words. The fields of the cost (`model`, `usage`) are taken as
they come and checked one by one behind the text. `timestamp`, `cwd`, `parentUuid` and `sessionId`
are texts of the model, and a source is one of three: a value of another type there refuses the
record, and with it the words (`raw_turn_iff`, `cwd_drops_turn`).
-/
namespace OpenBrain.Capture.Records
open OpenBrain.Core OpenBrain.Core.Py

/-- `TurnRole`, the two a transcript gives; mirrors models/turn.py:62-73 -/
inductive TurnRole where
  | user | assistant
  deriving DecidableEq

/-- mirrors models/turn.py:187-224 -/
structure TurnUsage where
  input_tokens : Nat
  output_tokens : Nat
  cache_read_input_tokens : Nat
  cache_creation_input_tokens : Nat
  deriving DecidableEq

/-- mirrors models/turn.py:227-277 -/
structure RawTurn where
  turn_uuid : Str
  content : Str
  role : TurnRole
  is_human_prompt : Bool
  occurred_at : Option Str
  parent_turn_uuid : Option Str
  session_ref : Option Str
  repo : Option Str
  model : Option Str
  usage : Option TurnUsage
  deriving DecidableEq

/-- mirrors records.py:167-181 -/
inductive PromptSource where
  | typed | queued | system
  deriving DecidableEq

/-- mirrors records.py:188-207 -/
structure TranscriptMessage where
  content : PyJson
  model : PyJson
  usage : PyJson

/-- mirrors records.py:210-227 -/
structure TranscriptRecord where
  record_type : Option Str
  uuid : Option Str
  prompt_source : Option PromptSource
  message : Option TranscriptMessage
  parent_uuid : Option Str
  session_id : Option Str
  cwd : Option Str
  timestamp : Option Str

/-! ## Validation

`none` is a `ValidationError`. -/

/-- A field of type `T | None` with the default `None`. -/
def optional {T : Type} (ms : Items) (key : Str) (read : PyJson → Option T) : Option (Option T) :=
  match Members.get? ms key with
  | none | some .null => some none
  | some v => (read v).map some

def readStr : PyJson → Option Str
  | .str s => some s
  | _ => none

def readSource : PyJson → Option PromptSource
  | .str s =>
    if s = units "typed" then some .typed
    else if s = units "queued" then some .queued
    else if s = units "system" then some .system
    else none
  | _ => none

/-- A field of type `Any` with the default `None`. -/
def anything (ms : Items) (key : Str) : PyJson := (Members.get? ms key).getD .null

def readMessage : PyJson → Option TranscriptMessage
  | .obj ms =>
    some ⟨anything ms (units "content"), anything ms (units "model"), anything ms (units "usage")⟩
  | _ => none

/-- `TranscriptRecord.model_validate_json` behind the parser. -/
def validated (v : PyJson) : Option TranscriptRecord :=
  match v with
  | .obj ms => do
    let record_type ← optional ms (units "type") readStr
    let uuid ← optional ms (units "uuid") readStr
    let prompt_source ← optional ms (units "promptSource") readSource
    let message ← optional ms (units "message") readMessage
    let parent_uuid ← optional ms (units "parentUuid") readStr
    let session_id ← optional ms (units "sessionId") readStr
    let cwd ← optional ms (units "cwd") readStr
    let timestamp ← optional ms (units "timestamp") readStr
    some ⟨record_type, uuid, prompt_source, message, parent_uuid, session_id, cwd, timestamp⟩
  | _ => none

/-! ## The words and the cost -/

namespace TranscriptRecord

/-- mirrors records.py:230-235 -/
def is_operator_turn (record : TranscriptRecord) : Bool :=
  record.record_type = some (units "user") &&
    (record.prompt_source = some .typed || record.prompt_source = some .queued)

/-- mirrors records.py:238-247 -/
def is_assistant_turn (record : TranscriptRecord) : Bool :=
  record.record_type = some (units "assistant")

/-- mirrors records.py:250-261 -/
def operator_text (record : TranscriptRecord) : Option Str :=
  record.message.bind fun message => readStr message.content

end TranscriptRecord

/-- The words of one block, when it has any; mirrors records.py:309-316 -/
def spokenText : PyJson → Option Str
  | .obj ms =>
    match Members.get? ms (units "type"), Members.get? ms (units "text") with
    | some (.str kind), some (.str text) =>
      if kind = units "text" ∧ (strip text).isEmpty = false then some text else none
    | _, _ => none
  | _ => none

/-- mirrors records.py:292-320 -/
def assistant_text (content : List PyJson) : Option Str :=
  let spoken := content.filterMap spokenText
  if spoken.isEmpty then none else some ([unit '\n'].intercalate spoken)

/-- mirrors records.py:264-289 -/
def TranscriptRecord.assistant_text (record : TranscriptRecord) : Option Str :=
  record.message.bind fun message =>
    match message.content with
    | .arr content => Records.assistant_text content
    | _ => none

/-- mirrors records.py:407-409 -/
def turn_model (value : PyJson) : Option Str := readStr value

/-- A strict `int` of at least 0. -/
def readCount : PyJson → Option Nat
  | .num (.int i) => if 0 ≤ i then some i.toNat else none
  | _ => none

/-- mirrors records.py:412-436 -/
def turn_usage (blob : PyJson) : Option TurnUsage :=
  match blob with
  | .obj ms => do
    let input ← (Members.get? ms (units "input_tokens")).bind readCount
    let output ← (Members.get? ms (units "output_tokens")).bind readCount
    let read ← (Members.get? ms (units "cache_read_input_tokens")).bind readCount
    let creation ← (Members.get? ms (units "cache_creation_input_tokens")).bind readCount
    some ⟨input, output, read, creation⟩
  | _ => none

/-- `value or None` -/
def orNone (value : Option Str) : Option Str := value.filter fun s => !s.isEmpty

/-- A record as a turn, behind the validation; mirrors records.py:350-404 -/
def turnOf (record : TranscriptRecord) : Option RawTurn :=
  match orNone record.uuid with
  | none => none
  | some uuid =>
    let turn := fun content role is_human_prompt model usage =>
      (⟨uuid, content, role, is_human_prompt, orNone record.timestamp, orNone record.parent_uuid,
        orNone record.session_id, orNone record.cwd, model, usage⟩ : RawTurn)
    if record.is_operator_turn then
      record.operator_text.map fun content => turn content .user true none none
    else if record.is_assistant_turn then
      record.assistant_text.map fun content =>
        turn content .assistant false
          (turn_model ((record.message.map (·.model)).getD .null))
          (turn_usage ((record.message.map (·.usage)).getD .null))
    else none

/-- `parse` is the parser whose values pydantic validates; mirrors records.py:323-404 -/
def raw_turn_from_line (parse : Str → Option PyJson) (line : Str) : Option RawTurn :=
  if (strip line).isEmpty then none
  else ((parse (strip line)).bind validated).bind turnOf

/-! ## Which records keep their words -/

/-- The words of a record: what the operator typed, or what the blocks of the assistant say. -/
inductive Says (ms : Items) : Str → Prop
  | operator {uuid text : Str} {message : Items} :
    Members.get? ms (units "type") = some (.str (units "user")) →
    (Members.get? ms (units "promptSource") = some (.str (units "typed")) ∨
      Members.get? ms (units "promptSource") = some (.str (units "queued"))) →
    Members.get? ms (units "uuid") = some (.str uuid) → uuid ≠ [] →
    Members.get? ms (units "message") = some (.obj message) →
    Members.get? message (units "content") = some (.str text) → Says ms text
  | assistant {uuid : Str} {message : Items} {blocks : List PyJson} :
    Members.get? ms (units "type") = some (.str (units "assistant")) →
    Members.get? ms (units "uuid") = some (.str uuid) → uuid ≠ [] →
    Members.get? ms (units "message") = some (.obj message) →
    Members.get? message (units "content") = some (.arr blocks) →
    blocks.filterMap spokenText ≠ [] →
      Says ms ([unit '\n'].intercalate (blocks.filterMap spokenText))

/-- The fields of the model that say nothing about the words. -/
def textFields : List Str :=
  [units "parentUuid", units "sessionId", units "cwd", units "timestamp"]

/-- The field is absent, `null` or a text. -/
def TextOrAbsent (ms : Items) (key : Str) : Prop :=
  Members.get? ms key = none ∨ Members.get? ms key = some .null ∨
    ∃ s, Members.get? ms key = some (.str s)

/-- The source is absent, `null` or one of the three. -/
def SourceOrAbsent (ms : Items) : Prop :=
  Members.get? ms (units "promptSource") = none ∨
    Members.get? ms (units "promptSource") = some .null ∨
    ∃ s ∈ [units "typed", units "queued", units "system"],
      Members.get? ms (units "promptSource") = some (.str s)

theorem optional_str_iff {ms : Items} {key : Str} :
    (∃ s, optional ms key readStr = some s) ↔ TextOrAbsent ms key := by
  unfold optional TextOrAbsent
  rcases Members.get? ms key with _ | v
  · simp
  · cases v <;> simp [readStr]

theorem optional_source_iff {ms : Items} :
    (∃ s, optional ms (units "promptSource") readSource = some s) ↔ SourceOrAbsent ms := by
  unfold optional SourceOrAbsent
  rcases Members.get? ms (units "promptSource") with _ | v
  · simp
  · cases v with
    | str s =>
      simp only [readSource]
      split_ifs with ht hq hsys <;> simp [*]
    | _ => simp [readSource]

theorem optional_of_get? {T : Type} {ms : Items} {key : Str} {v : PyJson} {t : T}
    {read : PyJson → Option T} (h : Members.get? ms key = some v) (hv : v ≠ .null)
    (hread : read v = some t) : optional ms key read = some (some t) := by
  unfold optional
  rw [h]
  cases v <;> simp_all

theorem validated_iff {ms : Items} {record : TranscriptRecord} :
    validated (.obj ms) = some record ↔
      optional ms (units "type") readStr = some record.record_type ∧
      optional ms (units "uuid") readStr = some record.uuid ∧
      optional ms (units "promptSource") readSource = some record.prompt_source ∧
      optional ms (units "message") readMessage = some record.message ∧
      optional ms (units "parentUuid") readStr = some record.parent_uuid ∧
      optional ms (units "sessionId") readStr = some record.session_id ∧
      optional ms (units "cwd") readStr = some record.cwd ∧
      optional ms (units "timestamp") readStr = some record.timestamp := by
  simp only [validated, Option.bind_eq_bind, Option.bind_eq_some_iff]
  constructor
  · rintro ⟨_, htype, _, huuid, _, hsource, _, hmessage, _, hparent, _, hsession, _, hcwd, _, htime,
      heq⟩
    cases heq
    exact ⟨htype, huuid, hsource, hmessage, hparent, hsession, hcwd, htime⟩
  · rintro ⟨htype, huuid, hsource, hmessage, hparent, hsession, hcwd, htime⟩
    exact ⟨_, htype, _, huuid, _, hsource, _, hmessage, _, hparent, _, hsession, _, hcwd, _, htime,
      rfl⟩

theorem fields_of_validated {ms : Items} {record : TranscriptRecord}
    (h : validated (.obj ms) = some record) :
    (∀ key ∈ textFields, TextOrAbsent ms key) ∧ SourceOrAbsent ms := by
  obtain ⟨-, -, hsource, -, hparent, hsession, hcwd, htime⟩ := validated_iff.mp h
  refine ⟨?_, optional_source_iff.mp ⟨_, hsource⟩⟩
  intro key hkey
  simp only [textFields, List.mem_cons, List.not_mem_nil, or_false] at hkey
  rcases hkey with rfl | rfl | rfl | rfl
  · exact optional_str_iff.mp ⟨_, hparent⟩
  · exact optional_str_iff.mp ⟨_, hsession⟩
  · exact optional_str_iff.mp ⟨_, hcwd⟩
  · exact optional_str_iff.mp ⟨_, htime⟩

/-- With those fields a record that has a type, an id and a message is validated with them. -/
theorem validated_of_fields {ms message : Items} {kind uuid : Str}
    (hfields : ∀ key ∈ textFields, TextOrAbsent ms key) (hsource : SourceOrAbsent ms)
    (htype : Members.get? ms (units "type") = some (.str kind))
    (huuid : Members.get? ms (units "uuid") = some (.str uuid))
    (hmessage : Members.get? ms (units "message") = some (.obj message)) :
    ∃ record, validated (.obj ms) = some record ∧ record.record_type = some kind ∧
      record.uuid = some uuid ∧
      optional ms (units "promptSource") readSource = some record.prompt_source ∧
      record.message = some ⟨anything message (units "content"), anything message (units "model"),
        anything message (units "usage")⟩ := by
  obtain ⟨source, hsource⟩ := optional_source_iff.mpr hsource
  obtain ⟨parent, hparent⟩ := optional_str_iff.mpr (hfields (units "parentUuid") (by simp [textFields]))
  obtain ⟨session, hsession⟩ := optional_str_iff.mpr (hfields (units "sessionId") (by simp [textFields]))
  obtain ⟨cwd, hcwd⟩ := optional_str_iff.mpr (hfields (units "cwd") (by simp [textFields]))
  obtain ⟨time, htime⟩ := optional_str_iff.mpr (hfields (units "timestamp") (by simp [textFields]))
  refine ⟨⟨some kind, some uuid, source, some _, parent, session, cwd, time⟩,
    validated_iff.mpr ⟨?_, ?_, hsource, ?_, hparent, hsession, hcwd, htime⟩, rfl, rfl, hsource, rfl⟩
  · exact optional_of_get? htype (by simp) rfl
  · exact optional_of_get? huuid (by simp) rfl
  · exact optional_of_get? hmessage (by simp) rfl

theorem orNone_of_ne {uuid : Str} (h : uuid ≠ []) : orNone (some uuid) = some uuid := by
  simp [orNone, h]

theorem turn_of_says {ms : Items} {text : Str} (hsaid : Says ms text)
    (hfields : ∀ key ∈ textFields, TextOrAbsent ms key) (hsource : SourceOrAbsent ms) :
    ∃ turn, (validated (.obj ms)).bind turnOf = some turn ∧ turn.content = text := by
  cases hsaid with
  | @operator uuid _ message htype hprompt huuid hne hmessage hcontent =>
    obtain ⟨record, hrecord, hkind, hid, hread, hm⟩ :=
      validated_of_fields hfields hsource htype huuid hmessage
    have hoperator : record.is_operator_turn = true := by
      have hprompt : record.prompt_source = some .typed ∨ record.prompt_source = some .queued := by
        rcases hprompt with h | h
        · exact .inl (Option.some.inj (hread.symm.trans (optional_of_get? h (by simp) rfl)))
        · exact .inr (Option.some.inj (hread.symm.trans (optional_of_get? h (by simp) rfl)))
      simpa [TranscriptRecord.is_operator_turn, hkind] using hprompt
    have htext : record.operator_text = some text := by
      simp [TranscriptRecord.operator_text, hm, anything, hcontent, readStr]
    rw [hrecord, Option.bind_some]
    unfold turnOf
    rw [hid, orNone_of_ne hne]
    simp only [hoperator, if_true, htext, Option.map_some]
    exact ⟨_, rfl, rfl⟩
  | @assistant uuid message blocks htype huuid hne hmessage hcontent hspoken =>
    obtain ⟨record, hrecord, hkind, hid, -, hm⟩ :=
      validated_of_fields hfields hsource htype huuid hmessage
    have hoperator : record.is_operator_turn = false := by
      have hother : units "assistant" ≠ units "user" := by decide
      simp [TranscriptRecord.is_operator_turn, hkind, hother]
    have hassistant : record.is_assistant_turn = true := by
      simp [TranscriptRecord.is_assistant_turn, hkind]
    have htext : record.assistant_text =
        some ([unit '\n'].intercalate (blocks.filterMap spokenText)) := by
      simp only [TranscriptRecord.assistant_text, hm, anything, hcontent, Option.bind_some,
        Option.getD_some, Records.assistant_text]
      rw [if_neg (by simpa using hspoken)]
    rw [hrecord, Option.bind_some]
    unfold turnOf
    rw [hid, orNone_of_ne hne]
    simp only [hoperator, hassistant, htext, if_true, Bool.false_eq_true, if_false, Option.map_some]
    exact ⟨_, rfl, rfl⟩

/-- The words of a line become a turn exactly when every other field of the model has a value of
its type. -/
theorem raw_turn_iff (parse : Str → Option PyJson) (hempty : parse [] = none) {line text : Str}
    {ms : Items} (hparse : parse (strip line) = some (.obj ms)) (hsaid : Says ms text) :
    (∃ turn, raw_turn_from_line parse line = some turn ∧ turn.content = text) ↔
      (∀ key ∈ textFields, TextOrAbsent ms key) ∧ SourceOrAbsent ms := by
  have hblank : (strip line).isEmpty = false := by
    rw [Bool.eq_false_iff]
    intro hblank
    rw [List.isEmpty_iff.mp hblank, hempty] at hparse
    cases hparse
  unfold raw_turn_from_line
  rw [if_neg (by simp [hblank]), hparse, Option.bind_some]
  constructor
  · rintro ⟨turn, hturn, -⟩
    obtain ⟨record, hrecord, -⟩ := Option.bind_eq_some_iff.mp hturn
    exact fields_of_validated hrecord
  · rintro ⟨hfields, hsource⟩
    exact turn_of_says hsaid hfields hsource

/-- What the operator typed, with a value for the directory. -/
def typedRecord (cwd : PyJson) : Items :=
  [(units "type", .str (units "user")), (units "uuid", .str (units "u1")),
    (units "promptSource", .str (units "typed")), (units "cwd", cwd),
    (units "message", .obj [(units "content", .str (units "ok"))])]

theorem says_typedRecord (cwd : PyJson) : Says (typedRecord cwd) (units "ok") :=
  .operator rfl (.inl rfl) rfl (by decide) rfl rfl

theorem typedRecord_value {cwd : PyJson} (h : IsValue cwd) : IsValue (.obj (typedRecord cwd)) := by
  have hkeys : ((typedRecord cwd).map Prod.fst).Nodup := by
    show [units "type", units "uuid", units "promptSource", units "cwd", units "message"].Nodup
    decide
  exact ⟨hkeys, trivial, trivial, trivial, h, ⟨List.nodup_singleton _, trivial, trivial⟩, trivial⟩

/-- A directory that is a number costs the operator's words. -/
theorem cwd_drops_turn :
    loadsText (strip (dumpsPlain (.obj (typedRecord (.num (.int 5)))))) =
        some (.obj (typedRecord (.num (.int 5)))) ∧
      Says (typedRecord (.num (.int 5))) (units "ok") ∧
      raw_turn_from_line loadsText (dumpsPlain (.obj (typedRecord (.num (.int 5))))) = none := by
  have hstrip : strip (dumpsPlain (.obj (typedRecord (.num (.int 5))))) =
      dumpsPlain (.obj (typedRecord (.num (.int 5)))) := by decide +kernel
  refine ⟨?_, says_typedRecord _, by decide +kernel⟩
  rw [hstrip]
  exact loads_dumpsPlain (typedRecord_value trivial)

/-- With a text there they are kept. -/
theorem raw_turn_iff_repo :
    ∃ turn, raw_turn_from_line loadsText (dumpsPlain (.obj (typedRecord (.str (units "/repo"))))) =
      some turn ∧ turn.content = units "ok" := by
  have hstrip : strip (dumpsPlain (.obj (typedRecord (.str (units "/repo"))))) =
      dumpsPlain (.obj (typedRecord (.str (units "/repo")))) := by decide +kernel
  have hloads : loadsText (strip (dumpsPlain (.obj (typedRecord (.str (units "/repo")))))) =
      some (.obj (typedRecord (.str (units "/repo")))) := by
    rw [hstrip]
    exact loads_dumpsPlain (typedRecord_value trivial)
  refine (raw_turn_iff loadsText rfl hloads (says_typedRecord _)).mpr ⟨?_, ?_⟩
  · intro key hkey
    simp only [textFields, List.mem_cons, List.not_mem_nil, or_false] at hkey
    rcases hkey with rfl | rfl | rfl | rfl
    · exact .inl rfl
    · exact .inl rfl
    · exact .inr (.inr ⟨_, rfl⟩)
    · exact .inl rfl
  · exact .inr (.inr ⟨_, by simp, rfl⟩)

end OpenBrain.Capture.Records
