import OpenBrain.Core.EcmaJson
import Mathlib.Data.List.SplitBy

/-!
# Spool lines and units of the TypeScript client (`spool-record.ts`, `spool-summary.ts`)

A spool file is a list of lines, each without its newline. Neighbouring lines with one
`group_id` form a group; a group is a unit, with records unless a line of it is corrupted
or its group fields do not fit together. Every reader here is total: a malformed line is
`none`.
-/
namespace OpenBrain.Clients.Spool
open OpenBrain.Core OpenBrain.Core.Ecma

/-! ## Lines -/

/-- mirrors spool-record.ts:17-25; the three group fields come together -/
structure SpoolRecord where
  idempotency_key : Str
  operation : Str
  payload : Members Number
  created_at : Number
  group : Option (Str × Int × Int)

/-- mirrors spool-record.ts:31-42 (`parseObjectLine`) -/
def parseObjectLine (line : Str) : Option (Members Number) :=
  match parseText line with
  | some (.obj payload) => some payload
  | _ => none

/-- mirrors spool-record.ts:45-52 (`rawGroupId`) -/
def rawGroupId (line : Str) : Option Str :=
  (parseObjectLine line).bind fun value =>
    match Members.get? value (units "group_id") with
    | some (.str candidate) => if candidate.isEmpty then none else some candidate
    | _ => none

/-- mirrors spool-record.ts:54-56 -/
def nonEmptyString : Option JsonValue → Option Str
  | some (.str s) => if isBlank s then none else some s
  | _ => none

/-- mirrors spool-record.ts:58-64 -/
def recordPayloadOf (value : Members Number) : Option (Members Number) :=
  match Members.get? value (units "payload") with
  | none | some .null => some []
  | some (.obj payload) => some payload
  | some _ => none

/-- mirrors spool-record.ts:66-76 -/
def createdAtOf (value : Members Number) : Option Number :=
  match Members.get? value (units "created_at") with
  | none | some .null => some (Number.ofDec (Dec.make false 0 0))
  | some (.num raw) => if raw = .nan then none else some raw
  | some (.str raw) => if stringToNumber raw = .nan then none else some (stringToNumber raw)
  | some _ => none

/-- mirrors spool-record.ts:145-147 (`isIndex`) -/
def indexOf : Option JsonValue → Option Int
  | some (.num n) => n.toInt
  | _ => none

/-- mirrors spool-record.ts:118-142; `none` is `"invalid"` -/
def parseGroupMetadata (value : Members Number) : Option (Option (Str × Int × Int)) :=
  let groupId := Members.get? value (units "group_id")
  let groupIndex := Members.get? value (units "group_index")
  let groupSize := Members.get? value (units "group_size")
  match groupId, groupIndex, groupSize with
  | none, none, none => some none
  | some .null, some .null, some .null => some none
  | some (.str group_id), _, _ =>
    if group_id.isEmpty then none
    else
      match indexOf groupIndex, indexOf groupSize with
      | some group_index, some group_size =>
        if group_size < 2 ∨ group_index < 0 ∨ group_size ≤ group_index then none
        else some (some (group_id, group_index, group_size))
      | _, _ => none
  | _, _, _ => none

/-- mirrors spool-record.ts:79-110 -/
def parseRecord (line : Str) : Option SpoolRecord := do
  let value ← parseObjectLine line
  let idempotency ← nonEmptyString (Members.get? value (units "idempotency_key"))
  let operation ← nonEmptyString (Members.get? value (units "operation"))
  let recordPayload ← recordPayloadOf value
  let createdAt ← createdAtOf value
  let group ← parseGroupMetadata value
  some ⟨idempotency, operation, recordPayload, createdAt, group⟩

/-! ## Units -/

/-- mirrors spool-sidecar.ts:48-52; a unit with records has at least one -/
structure SpoolUnit where
  lines : List Str
  records : Option (List SpoolRecord)
  corrupted_line_count : Nat

/-- A line that continues the group of the line before it. -/
def sameGroup (a b : Str) : Bool := (rawGroupId b).isSome && rawGroupId b == rawGroupId a

/-- mirrors spool-record.ts:163-177 -/
def groupLinesByGroupId (lines : List Str) : List (List Str) := lines.splitBy sameGroup

/-- mirrors spool-record.ts:196-214; blank lines are skipped -/
def parseGroupLines (group : List Str) : List SpoolRecord × Nat :=
  let lines := group.filter fun line => !isBlank line
  (lines.filterMap parseRecord, lines.countP fun line => (parseRecord line).isNone)

/-- mirrors spool-record.ts:217-230 -/
def isConsistentGroup (parsed : List SpoolRecord) : Bool :=
  match parsed.head?.bind SpoolRecord.group with
  | none => true
  | some (group_id, _, group_size) =>
    decide ((parsed.length : Int) = group_size) &&
      (parsed.all fun record => record.group.any fun g => g.1 == group_id && g.2.2 == group_size) &&
      parsed.map (fun record => record.group.map fun g => g.2.1) ==
        (List.range parsed.length).map fun i : Nat => some (i : Int)

/-- mirrors spool-record.ts:185-194 -/
def unitFromGroup (group : List Str) : SpoolUnit :=
  let (parsed, corrupted) := parseGroupLines group
  if corrupted > 0 ∨ parsed = [] then ⟨group, none, corrupted⟩
  else if !isConsistentGroup parsed then ⟨group, none, group.length⟩
  else ⟨group, some parsed, 0⟩

/-- mirrors spool-record.ts:233-235 -/
def parseUnits (lines : List Str) : List SpoolUnit := (groupLinesByGroupId lines).map unitFromGroup

/-- mirrors spool-summary.ts:15-23 (`unitSignature`) -/
def SpoolUnit.signature (unit : SpoolUnit) : Option (Option Str × List Str) :=
  match unit.records with
  | none | some [] => none
  | some (first :: records) =>
    some (first.group.map Prod.fst, (first :: records).map SpoolRecord.idempotency_key)

/-- mirrors spool-summary.ts:25-27: `JSON.stringify([groupId, keys])` -/
def unitKeyOf (signature : Option Str × List Str) : Str :=
  Ecma.json.print (.arr [(signature.1.map Json.str).getD .null, .arr (signature.2.map Json.str)])

def SpoolUnit.key (unit : SpoolUnit) : Option Str := unit.signature.map unitKeyOf

theorem parseUnits_lines (lines : List Str) : (parseUnits lines).flatMap SpoolUnit.lines = lines := by
  have hlines : ∀ group, (unitFromGroup group).lines = group := by
    intro group
    unfold unitFromGroup
    dsimp only
    split
    · rfl
    · split
      · rfl
      · rfl
  unfold parseUnits groupLinesByGroupId
  rw [List.flatMap_map, List.flatMap_congr (g := id) fun group _ => hlines group]
  simp [List.flatten_splitBy]

end OpenBrain.Clients.Spool
