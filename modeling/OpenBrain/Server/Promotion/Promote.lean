import OpenBrain.Core.Table
import OpenBrain.Server.Entries.Text
import OpenBrain.Server.Promotion.Sharing

/-!
# `promote_shared`

The gate of `server/tools/promotion.ts` reads a few columns of the row and classifies them; then
`promoteEntry` of `server/domain/promotion-service.ts` reads the row again, looks for a duplicate
and copies the row as it then stands, each in a statement of its own. `update_entry` and archiving
come in between. A call's rights are given: who may promote, read and write is decided elsewhere.
-/
namespace OpenBrain.Server.Promotion
open OpenBrain.Core OpenBrain.Server.Entries

inductive PromotableTable where
  | thoughts | decisions
deriving DecidableEq, Repr

/-- The columns of a row that are its table's own. -/
inductive Body where
  | thought (content : Str) (source : Option Str)
  | decision (title rationale : Str) (alternatives : List Str) (context : Option Str)
deriving DecidableEq, Repr

def Body.table : Body → PromotableTable
  | .thought .. => .thoughts
  | .decision .. => .decisions

structure Entry (ν D : Type) where
  id : Str
  ns : Str
  body : Body
  tags : Option (List Str)
  created_by : Str
  extracted_metadata : Option (Members ν)
  content_hash : Option D
  archived : Bool

section
variable {ν D : Type}

def Entry.key (e : Entry ν D) : PromotableTable × Str := (e.body.table, e.id)

/-! ## The gate -/

/-- mirrors tools/promotion.ts:64-71 -/
def shareContent : Body → Str
  | .decision title rationale _ _ => Ecma.trim (title ++ units " " ++ rationale)
  | .thought content _ => content

def gateInput (e : Entry ν D) : ShareCandidateInput ν where
  event_type := none
  importance := none
  content := shareContent e.body
  tags := e.tags
  metadata := e.extracted_metadata

/-- The gate lets the row through. -/
def Passes (S : SecretDetectors) (e : Entry ν D) : Prop :=
  classifyShareCandidate S (gateInput e) ≠ .rejectSecret ∧
    classifyShareCandidate S (gateInput e) ≠ .rejectPrivate

instance (S : SecretDetectors) (e : Entry ν D) : Decidable (Passes S e) := by
  unfold Passes
  infer_instance

/-- A `promote_shared` call: its arguments, the rights of its caller, and what the optional screen
answers. -/
structure Request where
  table : PromotableTable
  id : Str
  /-- The target's physical name. -/
  target : Str
  authorized : Bool
  readable : Str → Bool
  targetWritable : Bool
  held : Bool
  dryRun : Bool
  killSwitch : Bool

def Request.key (r : Request) : PromotableTable × Str := (r.table, r.id)

/-- `WHERE id = $1 AND archived_at IS NULL` under the caller's read predicate. -/
def readRow (entries : List (Entry ν D)) (r : Request) : Option (Entry ν D) :=
  entries.find? fun e => e.key = r.key && !e.archived && r.readable e.ns

inductive Phase (ν D : Type) where
  | idle
  | gated (r : Request)
  | loaded (r : Request) (source : Entry ν D)
  | checked (r : Request) (source : Entry ν D)
  | ended

/-- mirrors tools/promotion.ts:443-502 up to the service call -/
def handlePromoteShared (S : SecretDetectors) (entries : List (Entry ν D)) (r : Request) :
    Phase ν D :=
  if !r.authorized then .ended
  else match readRow entries r with
    | none => .ended
    | some row =>
      let decision := classifyShareCandidate S (gateInput row)
      if decision = .rejectSecret ∨ decision = .rejectPrivate then .ended
      else if r.held then .ended
      else .gated r

/-! ## The service -/

/-- `readSourceRow`, and the checks that need no more than it. -/
def readSource (entries : List (Entry ν D)) (r : Request) : Phase ν D :=
  match readRow entries r with
  | none => .ended
  | some source =>
    if !r.targetWritable then .ended
    else if source.ns = r.target then .ended
    else .loaded r source

def sameHash [DecidableEq D] (table : PromotableTable) (hash : Option D) (ns : Str)
    (e : Entry ν D) : Bool :=
  hash.isSome && e.body.table = table && e.content_hash = hash && e.ns = ns

/-- `findDuplicate`, then the dry run and the kill switch. -/
def checkDuplicate [DecidableEq D] (entries : List (Entry ν D)) (r : Request)
    (source : Entry ν D) : Phase ν D :=
  if entries.any (sameHash r.table source.content_hash r.target) then .ended
  else if r.dryRun then .ended
  else if r.killSwitch then .ended
  else .checked r source

def STRIPPED_PROMOTION_METADATA_KEYS : List Str :=
  ["share_candidate", "share_rejected_sync", "share_promoted_at", "memory_lifecycle_action",
    "candidate_type", "candidate_reason", "candidate_confidence", "candidate_scope",
    "candidate_staleness_policy", "evidence_refs"].map units

def stripped (metadata : Members ν) : Members ν :=
  metadata.filter fun m => !STRIPPED_PROMOTION_METADATA_KEYS.contains m.1

/-- What `INSERT … SELECT` makes of a row. -/
def promoted (e : Entry ν D) (newId target : Str) : Entry ν D :=
  { e with
    id := newId
    ns := target
    extracted_metadata := e.extracted_metadata.map stripped
    archived := false }

structure Copy (ν D : Type) where
  /-- The row the statement copied, as it stood. -/
  source : Entry ν D
  inserted : Entry ν D

/-- The copy of the row as it stands: `WHERE id = $1 AND namespace = $4`, under a new id, unless an
index refuses it. -/
def insertCopy [DecidableEq D] (entries : List (Entry ν D)) (r : Request) (source : Entry ν D)
    (newId : Str) : Option (Copy ν D) :=
  match entries.find? fun e => e.key = r.key && e.ns = source.ns with
  | none => none
  | some row =>
    if entries.any (fun e => e.key = (r.table, newId)) ||
        entries.any (sameHash r.table row.content_hash r.target) then none
    else some { source := row, inserted := promoted row newId r.target }

/-! ## The other writers -/

structure Edit where
  content : Option Str
  title : Option Str
  rationale : Option Str
  context : Option Str
  alternatives : Option (List Str)
  tags : Option (List Str)
deriving DecidableEq, Repr

/-- The fields the row's table takes. -/
def Body.edit (edit : Edit) : Body → Body
  | .thought content source => .thought (edit.content.getD content) source
  | .decision title rationale alternatives context =>
    .decision (edit.title.getD title) (edit.rationale.getD rationale)
      (edit.alternatives.getD alternatives) (edit.context.orElse fun _ => context)

/-- A field that is embedded is among them. -/
def needsReembed (edit : Edit) : Body → Bool
  | .thought .. => edit.content.isSome
  | .decision .. => edit.title.isSome || edit.rationale.isSome || edit.context.isSome ||
      edit.alternatives.isSome || edit.tags.isSome

def embeddableText (tags : Option (List Str)) : Body → Str
  | .thought content _ => content
  | .decision title rationale alternatives context =>
    decisionCanonicalText { title, rationale, context, alternatives, tags := tags.getD [] }

def edited (H : ContentHash) (edit : Edit) (e : Entry ν H.Digest) : Entry ν H.Digest :=
  let body := e.body.edit edit
  let tags := edit.tags.orElse fun _ => e.tags
  { e with
    body
    tags
    content_hash :=
      if needsReembed edit e.body then some (contentHash H (embeddableText tags body))
      else e.content_hash }

/-- An edited text that another row of the namespace has is refused. -/
def collides (H : ContentHash) (entries : List (Entry ν H.Digest)) (edit : Edit)
    (e : Entry ν H.Digest) : Bool :=
  needsReembed edit e.body && entries.any fun other =>
    other.id ≠ e.id && sameHash e.body.table (edited H edit e).content_hash e.ns other

/-- `update_entry`, which holds the row from its read to its write. -/
def updateEntry (H : ContentHash) (entries : List (Entry ν H.Digest))
    (key : PromotableTable × Str) (writable : Str → Bool) (edit : Edit) :
    List (Entry ν H.Digest) :=
  Table.updateWhere
    (fun e => e.key = key && writable e.ns && !e.archived && !collides H entries edit e)
    (edited H edit) entries

/-- `SET archived_at = NOW()` -/
def archiveEntry (entries : List (Entry ν D)) (key : PromotableTable × Str)
    (writable : Str → Bool) : List (Entry ν D) :=
  Table.updateWhere (fun e => e.key = key && writable e.ns) (fun e => { e with archived := true })
    entries

end

/-! ## The system -/

structure State (ν D : Type) where
  entries : List (Entry ν D)
  calls : Nat → Phase ν D
  copies : List (Copy ν D)

inductive Label where
  | gate (call : Nat) (r : Request)
  | read (call : Nat)
  | check (call : Nat)
  | copy (call : Nat) (newId : Str)
  | update (key : PromotableTable × Str) (writable : Str → Bool) (edit : Edit)
  | archive (key : PromotableTable × Str) (writable : Str → Bool)

section
variable {ν : Type} (S : SecretDetectors) (H : ContentHash)

def State.turn {D : Type} (s : State ν D) (call : Nat) (phase : Phase ν D) : State ν D :=
  { s with calls := Function.update s.calls call phase }

def step (s : State ν H.Digest) : Label → Option (State ν H.Digest)
  | .gate call r =>
    match s.calls call with
    | .idle => some (s.turn call (handlePromoteShared S s.entries r))
    | _ => none
  | .read call =>
    match s.calls call with
    | .gated r => some (s.turn call (readSource s.entries r))
    | _ => none
  | .check call =>
    match s.calls call with
    | .loaded r source => some (s.turn call (checkDuplicate s.entries r source))
    | _ => none
  | .copy call newId =>
    match s.calls call with
    | .checked r source =>
      match insertCopy s.entries r source newId with
      | none => some (s.turn call .ended)
      | some copy => some
          { s.turn call .ended with
            entries := s.entries ++ [copy.inserted], copies := s.copies ++ [copy] }
    | _ => none
  | .update key writable edit => some { s with entries := updateEntry H s.entries key writable edit }
  | .archive key writable => some { s with entries := archiveEntry s.entries key writable }

/-- Any rows, no two of one table and id, and no call yet. -/
def Initial {D : Type} (s : State ν D) : Prop :=
  (s.entries.map Entry.key).Nodup ∧ (∀ call, s.calls call = .idle) ∧ s.copies = []

def system : LTS (State ν H.Digest) Label := .ofFn Initial (step S H)

end
end OpenBrain.Server.Promotion
