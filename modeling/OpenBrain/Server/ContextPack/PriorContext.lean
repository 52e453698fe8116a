import OpenBrain.Server.ContextPack.Sections
import OpenBrain.Core.EcmaJson

/-!
# Recalled rows and prior-context suppression

`server/tools/search-engine-types.ts` (the row a recall answers with, less the
ranking fields that no section reads), `context-pack-durable-memory.ts`
(its citation id and source ref) and `prior-context-suppression.ts`.

Suppression is removal: what it keeps is the recalled list with some rows taken
out (`suppressReferencedRecords_sublist`), so the ranking and the distinctness
of the identities survive it.
-/
namespace OpenBrain.Server.ContextPack

open OpenBrain.Core

variable {ν : Type}

/-! ## Rows -/

/-- mirrors server/tools/search-engine-types.ts:59-69; `source` is always
`"brain"`, and `created_by` may be absent or `null`. -/
structure SourceRef where
  type : Str
  id : Str
  «namespace» : Option Str
  createdBy : Option (Option Str)
  createdAt : Option Str
  lastUpdatedAt : Option Str
  label : Str
  preview : Str
  deriving DecidableEq, Repr

/-- mirrors server/tools/search-engine-types.ts:71-92 -/
structure SearchRow where
  sourceType : Str
  id : Str
  «namespace» : Option Str
  contentPreview : Option Str
  createdAt : Str
  updatedAt : Option Str
  tier : Option Str
  sourceRef : Option SourceRef
  deriving DecidableEq, Repr

/-- mirrors server/tools/context-pack-durable-memory.ts:121-123 -/
def recordCitationId (row : SearchRow) : Str :=
  units "brain_record:" ++ row.sourceType ++ units ":" ++ row.id

/-- mirrors server/tools/context-pack-durable-memory.ts:133-144 -/
def recordSourceRef (row : SearchRow) : SourceRef :=
  row.sourceRef.getD
    { type := row.sourceType
      id := row.id
      «namespace» := row.«namespace»
      createdBy := none
      createdAt := none
      lastUpdatedAt := none
      label := (row.contentPreview.getD []).take 120
      preview := (row.contentPreview.getD []).take 300 }

/-- A member that is left out when its value is `undefined`. -/
def optionalMember (key : Str) (v : Option (Json ν)) : Members ν :=
  (v.map fun v => (key, v)).toList

/-- A value that may be `null`. -/
def orNull (s : Option Str) : Json ν := (s.map Json.str).getD .null

def SourceRef.toJson (r : SourceRef) : Json ν :=
  .obj ([(units "source", .str (units "brain")), (units "type", .str r.type),
      (units "id", .str r.id)] ++
    optionalMember (units "namespace") (r.«namespace».map Json.str) ++
    optionalMember (units "created_by") (r.createdBy.map orNull) ++
    optionalMember (units "created_at") (r.createdAt.map Json.str) ++
    optionalMember (units "last_updated_at") (r.lastUpdatedAt.map Json.str) ++
    [(units "label", .str r.label), (units "preview", .str r.preview)])

/-! ## References to prior context -/

structure StructuralSourceRef where
  source : Str
  type : Str
  id : Str
  «namespace» : Option Str
  deriving DecidableEq, Repr

/-- mirrors server/tools/prior-context-suppression.ts:66 -/
inductive SourceRefValue where
  | text (s : Str)
  | structural (r : StructuralSourceRef)
  deriving DecidableEq, Repr

structure RecallIdentity where
  canonicalId : Option Str
  citationId : Option Str
  sourceRef : Option SourceRefValue
  deriving DecidableEq, Repr

/-- `z.string().trim().min(1).max(max)` -/
def trimmedText (max : Nat) (s : Str) : Option Str :=
  let t := Ecma.trim s
  if t.isEmpty || decide (max < t.length) then none else some t

/-- `.optional()` -/
def optionalText (max : Nat) : Option Str → Option (Option Str)
  | none => some none
  | some s => (trimmedText max s).map some

/-- mirrors server/tools/prior-context-suppression.ts:38-64 -/
def parseSourceRef : SourceRefValue → Option SourceRefValue
  | .text s => (trimmedText 1000 s).map .text
  | .structural r => do
    let source ← trimmedText 200 r.source
    let type ← trimmedText 200 r.type
    let id ← trimmedText 500 r.id
    let ns ← optionalText 200 r.«namespace»
    pure (.structural ⟨source, type, id, ns⟩)

/-- `recallIdentitySchema.parse`; `none` is a `ZodError`.
mirrors server/tools/prior-context-suppression.ts:88-104 -/
def parseIdentity (i : RecallIdentity) : Option RecallIdentity := do
  let canonicalId ← optionalText 500 i.canonicalId
  let citationId ← optionalText 500 i.citationId
  let sourceRef ← match i.sourceRef with
    | none => some none
    | some r => (parseSourceRef r).map some
  if canonicalId.isSome || citationId.isSome || sourceRef.isSome then
    pure ⟨canonicalId, citationId, sourceRef⟩
  else none

/-- mirrors server/tools/prior-context-suppression.ts:76-81 -/
def canonicalSourceRefKey : SourceRefValue → Str
  | .text s => units "s:" ++ s
  | .structural r => units "o:" ++ r.source ++ [0x1F] ++ r.type ++ [0x1F] ++ r.id ++ [0x1F] ++
      r.«namespace».getD []

/-- mirrors server/tools/prior-context-suppression.ts:115-127 -/
def suppressionKeys (i : RecallIdentity) : List Str :=
  (i.canonicalId.map fun c => units "canonical:" ++ c).toList ++
  (i.citationId.map fun c => units "citation:" ++ c).toList ++
  (i.sourceRef.map fun r => units "source_ref:" ++ canonicalSourceRefKey r).toList

/-- mirrors server/tools/prior-context-suppression.ts:138-147 -/
def buildSuppressionSet (priorContext : List RecallIdentity) : Option (List Str) :=
  (priorContext.mapM parseIdentity).map fun parsed => parsed.flatMap suppressionKeys

/-- The identity a recalled row is matched on.
mirrors server/tools/context-pack-durable-memory.ts:539-544 -/
def identify (row : SearchRow) : RecallIdentity :=
  let ref := recordSourceRef row
  ⟨none, some (recordCitationId row),
    some (.structural ⟨units "brain", ref.type, ref.id, ref.«namespace»⟩)⟩

/-- The loop over the records, under the keys to suppress.
mirrors server/tools/prior-context-suppression.ts:186-206 -/
def keepNetNew (suppressed : List Str) : List SearchRow → Option (List SearchRow)
  | [] => some []
  | row :: rows => do
    let identity ← parseIdentity (identify row)
    let kept ← keepNetNew suppressed rows
    if (suppressionKeys identity).any suppressed.contains then pure kept
    else pure (row :: kept)

/-- The records not represented in prior context; `none` is a thrown `ZodError`.
mirrors server/tools/prior-context-suppression.ts:179-216 -/
def suppressReferencedRecords (records : List SearchRow) (priorContext : List RecallIdentity) :
    Option (List SearchRow) := do
  let suppressed ← buildSuppressionSet priorContext
  keepNetNew suppressed records

theorem keepNetNew_sublist {suppressed : List Str} {rows kept : List SearchRow}
    (h : keepNetNew suppressed rows = some kept) : kept.Sublist rows := by
  induction rows generalizing kept with
  | nil =>
    simp only [keepNetNew, Option.some.injEq] at h
    exact h ▸ List.Sublist.slnil
  | cons row rows ih =>
    simp only [keepNetNew, Option.bind_eq_bind, Option.bind_eq_some_iff] at h
    obtain ⟨identity, -, rest, hrest, hkept⟩ := h
    split at hkept
    · cases hkept
      exact (ih hrest).trans (List.sublist_cons_self ..)
    · cases hkept
      exact (ih hrest).cons_cons row

/-- Suppression adds nothing and keeps the order. -/
theorem suppressReferencedRecords_sublist {rows kept : List SearchRow}
    {priorContext : List RecallIdentity}
    (h : suppressReferencedRecords rows priorContext = some kept) : kept.Sublist rows := by
  simp only [suppressReferencedRecords, Option.bind_eq_bind, Option.bind_eq_some_iff] at h
  obtain ⟨suppressed, -, hkept⟩ := h
  exact keepNetNew_sublist hkept

end OpenBrain.Server.ContextPack
