import OpenBrain.Core.Table
import OpenBrain.Server.Embedding.Targets

/-!
# The tools that write entries

Each tool builds its hash input and its embedded text by itself, most of them from the arguments
and not from the row the statement leaves. A call is one step: the texts, then the statement. A
statement that breaks a unique index is refused and the call reports the error; so is a call that
fails authorization or the lane's scope check, which are not modelled.
-/
namespace OpenBrain.Server.Entries
open OpenBrain.Core OpenBrain.Core.Table OpenBrain.Server.Embedding

/-- `generateEmbedding` when the provider answers: the vector is named by the text it was made
from. Blank text has none. mirrors embedding/provider.ts:357-377 -/
def embedFn (text : Str) : Option Str := if Ecma.trim text = [] then none else some text

/-! ## The tables and their unique indexes -/

section
variable {C D : Type} [DecidableEq D]

def idKey (r : Row C D) : Option Str := some r.id

/-- `(content_hash, namespace) WHERE content_hash IS NOT NULL` -/
def hashKey (r : Row C D) : Option (D × Str) := r.content_hash.map fun hash => (hash, r.ns)

def Hashed (rows : List (Row C D)) : Prop := Unique idKey rows ∧ Unique hashKey rows

instance : DecidablePred (Hashed (C := C) (D := D)) := fun rows =>
  inferInstanceAs (Decidable (Unique idKey rows ∧ Unique hashKey rows))

/-- Unique in its namespace by a key of its own as well. -/
def Keyed (key : C → Option Str) (rows : List (Row C D)) : Prop :=
  Unique (fun r => (key r.cols).map fun k => (r.ns, k)) rows

instance (key : C → Option Str) : DecidablePred (Keyed (D := D) key) := fun rows =>
  inferInstanceAs (Decidable (Unique _ rows))

def relationshipsOk (rows : List (Row PersonCols D)) : Prop :=
  Hashed rows ∧ Keyed (fun c => some c.person_name) rows

def projectsOk (rows : List (Row ProjectCols D)) : Prop :=
  Hashed rows ∧ Keyed (fun c => some c.name) rows

def sessionsOk (rows : List (Row SessionCols D)) : Prop :=
  Hashed rows ∧ Keyed SessionCols.session_id rows

/-- A lane's hash is not unique since migration 024. -/
def lanesOk (rows : List (Row LaneCols D)) : Prop :=
  Unique idKey rows ∧ Keyed (fun c => some c.session_key) rows

instance : DecidablePred (relationshipsOk (D := D)) := fun _ => inferInstanceAs (Decidable (_ ∧ _))
instance : DecidablePred (projectsOk (D := D)) := fun _ => inferInstanceAs (Decidable (_ ∧ _))
instance : DecidablePred (sessionsOk (D := D)) := fun _ => inferInstanceAs (Decidable (_ ∧ _))
instance : DecidablePred (lanesOk (D := D)) := fun _ => inferInstanceAs (Decidable (_ ∧ _))

end

structure Store (D : Type) [DecidableEq D] where
  thoughts : Constrained (Row ThoughtCols D) Hashed
  decisions : Constrained (Row DecisionSource D) Hashed
  relationships : Constrained (Row PersonCols D) relationshipsOk
  projects : Constrained (Row ProjectCols D) projectsOk
  sessions : Constrained (Row SessionCols D) sessionsOk
  lanes : Constrained (Row LaneCols D) lanesOk

/-! ## The arguments -/

structure DecisionArgs where
  title : Str
  rationale : Str
  alternatives : Option (List Str)
  tags : Option (List Str)
  context : Option Str
deriving DecidableEq, Repr

structure SaveArgs where
  summary : Str
  project : Option Str
  session_id : Option Str
  blockers : Option (List Str)
  next_steps : Option (List Str)
  key_decisions : Option (List Str)
deriving DecidableEq, Repr

structure WrapArgs where
  session_key : Str
  summary : Str
  key_decisions : Option (List Str)
  next_steps : Option (List Str)
  project : Option Str
deriving DecidableEq, Repr

structure LaneArgs where
  session_key : Str
  project : Option Str
  topic : Option Str
  current_context_md : Option Str
deriving DecidableEq, Repr

/-- The fields a call of `update_entry` provides, among those whose columns a target reads. -/
inductive Fields where
  | thoughts (content : Option Str) (tags : Option (List Str))
  | decisions (title rationale context : Option Str) (alternatives tags : Option (List Str))
  | relationships (person_name context notes : Option Str)
  | projects (name description : Option Str)
  | sessions (summary project : Option Str) (key_decisions next_steps blockers : Option (List Str))
deriving DecidableEq, Repr

/-- A call that passed authorization. `id` is the key a new row would get. -/
inductive Call where
  | log_thought (id ns content : Str) (tags : Option (List Str))
  | insertChunkRow (id ns text : Str) (tags : List Str) (parent_id : Str)
  | log_decision (id ns : Str) (args : DecisionArgs)
  | upsert_person (id ns name : Str) (context notes : Option Str)
  | session_save (id ns : Str) (args : SaveArgs)
  | session_wrap (id ns : Str) (args : WrapArgs)
  | lane_upsert (id ns : Str) (args : LaneArgs)
  /-- `writable` is the caller's write predicate. -/
  | update_entry (id : Str) (writable : List Str) (fields : Fields)
deriving DecidableEq, Repr

/-! ## The rows the calls make -/

section
variable (H : ContentHash) (model : Option Str)

/-- A new row. The last argument is the hash input, the one before it the embedded text. -/
def freshRow {C : Type} (id ns : Str) (cols : C) (embedded hashed : Str) : Row C H.Digest where
  id := id
  ns := ns
  cols := cols
  content_hash := some (contentHash H hashed)
  embedding := embedFn embedded
  embedding_model := (embedFn embedded).bind fun _ => model
  archived := false

/-- What the embedding assignments of a statement leave of a row. -/
def reembedded {C : Type} (r : Row C H.Digest) (cols : C) (embedded hashed : Str) :
    Row C H.Digest :=
  { r with
    cols := cols
    content_hash := some (contentHash H hashed)
    embedding := embedFn embedded
    embedding_model := (embedFn embedded).bind fun _ => model }

/-- `ON CONFLICT (content_hash, namespace) WHERE content_hash IS NOT NULL` -/
def sameHash {C : Type} (hash : H.Digest) (ns : Str) (r : Row C H.Digest) : Bool :=
  r.content_hash = some hash && r.ns = ns

def thoughtRow (id ns content : Str) (tags : Option (List Str)) : Row ThoughtCols H.Digest :=
  freshRow H model id ns { content := content, tags := tags.getD [], parent_id := none }
    (thoughtEmbedText content (tags.getD [])) content

/-- A chunk hashes its normalized text and embeds its text without the tags.
mirrors capture/chunk-write.ts:157-177 -/
def chunkRow (id ns text : Str) (tags : List Str) (parent_id : Str) : Row ThoughtCols H.Digest :=
  freshRow H model id ns { content := text, tags := tags, parent_id := some parent_id }
    text (normalized H text)

def DecisionArgs.source (args : DecisionArgs) : DecisionSource where
  title := args.title
  rationale := args.rationale
  context := args.context
  alternatives := args.alternatives.getD []
  tags := args.tags.getD []

def decisionRow (id ns : Str) (args : DecisionArgs) : Row DecisionSource H.Digest :=
  freshRow H model id ns args.source (decisionCanonicalText args.source)
    (decisionCanonicalText args.source)

def personEmbedText (name : Str) (context notes : Option Str) : Str :=
  joinNonEmpty [name, context.getD [], notes.getD []]

def personRow (id ns name : Str) (context notes : Option Str) : Row PersonCols H.Digest :=
  freshRow H model id ns { person_name := name, context := context, notes := notes }
    (personEmbedText name context notes) (personEmbedText name context notes)

def SaveArgs.source (args : SaveArgs) : SessionSource where
  summary := args.summary
  project := args.project
  key_decisions := args.key_decisions.getD []
  next_steps := args.next_steps.getD []
  blockers := args.blockers.getD []

def savedRow (id ns : Str) (args : SaveArgs) : Row SessionCols H.Digest :=
  freshRow H model id ns { args.source with session_id := args.session_id }
    (sessionEmbedText args.source) (sessionSourceHashInput args.source)

def WrapArgs.source (args : WrapArgs) (lane : LaneCols) : SessionSource where
  summary := args.summary
  project := args.project.or lane.project
  key_decisions := args.key_decisions.getD []
  next_steps := args.next_steps.getD []
  blockers := []

def wrapRow (id ns : Str) (args : WrapArgs) (lane : LaneCols) : Row SessionCols H.Digest :=
  freshRow H model id ns { args.source lane with session_id := none }
    (sessionEmbedText (args.source lane)) (sessionSourceHashInput (args.source lane))

def laneHashText (session_key context : Str) : Str := session_key ++ units "|" ++ context

/-- `current_context_md || topic || ""` -/
def laneEmbedContext (args : LaneArgs) : Str :=
  ((args.current_context_md.filter (· ≠ [])).or (args.topic.filter (· ≠ []))).getD []

def laneHash (args : LaneArgs) : Option H.Digest :=
  if laneEmbedContext args = [] then none
  else some (contentHash H (laneHashText args.session_key (laneEmbedContext args)))

def laneRow (id ns : Str) (args : LaneArgs) : Row LaneCols H.Digest where
  id := id
  ns := ns
  cols := ⟨args.session_key, args.topic, args.project, args.current_context_md⟩
  content_hash := laneHash H args
  embedding := embedFn (laneEmbedContext args)
  embedding_model := (embedFn (laneEmbedContext args)).bind fun _ => model
  archived := false

/-! ## The statements -/

def log_thought (id ns content : Str) (tags : Option (List Str))
    (t : Constrained (Row ThoughtCols H.Digest) Hashed) :
    Option (Constrained (Row ThoughtCols H.Digest) Hashed) :=
  attempt (upsert (sameHash H (contentHash H content) ns)
    (fun r => { r with cols := { r.cols with tags := tags.getD [] } })
    (thoughtRow H model id ns content tags) t.rows)

def insertChunkRow (id ns text : Str) (tags : List Str) (parent_id : Str)
    (t : Constrained (Row ThoughtCols H.Digest) Hashed) :
    Option (Constrained (Row ThoughtCols H.Digest) Hashed) :=
  attempt (insertNew (sameHash H (normalizedContentHash H text) ns)
    (chunkRow H model id ns text tags parent_id) t.rows)

def log_decision (id ns : Str) (args : DecisionArgs)
    (t : Constrained (Row DecisionSource H.Digest) Hashed) :
    Option (Constrained (Row DecisionSource H.Digest) Hashed) :=
  attempt (upsert (sameHash H (contentHash H (decisionCanonicalText args.source)) ns)
    (fun r => { r with cols := { r.cols with tags := args.tags.getD [] } })
    (decisionRow H model id ns args) t.rows)

def PersonCols.merge (context notes : Option Str) (c : PersonCols) : PersonCols :=
  { c with context := context.or c.context, notes := notes.or c.notes }

def upsert_person (id ns name : Str) (context notes : Option Str)
    (t : Constrained (Row PersonCols H.Digest) relationshipsOk) :
    Option (Constrained (Row PersonCols H.Digest) relationshipsOk) :=
  attempt (upsert (fun r => r.ns = ns && r.cols.person_name = name)
    (fun r => reembedded H model r (PersonCols.merge context notes r.cols)
      (personEmbedText name context notes) (personEmbedText name context notes))
    (personRow H model id ns name context notes) t.rows)

/-- The columns `session_save` replaces; the project stays. -/
def SaveArgs.merge (args : SaveArgs) (c : SessionCols) : SessionCols :=
  { c with
    summary := args.summary
    key_decisions := args.key_decisions.getD []
    next_steps := args.next_steps.getD []
    blockers := args.blockers.getD [] }

def session_save (id ns : Str) (args : SaveArgs)
    (t : Constrained (Row SessionCols H.Digest) sessionsOk) :
    Option (Constrained (Row SessionCols H.Digest) sessionsOk) :=
  attempt (upsert
    (fun r => r.ns = ns && r.cols.session_id.isSome && r.cols.session_id = args.session_id)
    (fun r => reembedded H model r (args.merge r.cols) (sessionEmbedText args.source)
      (sessionSourceHashInput args.source))
    (savedRow H model id ns args) t.rows)

def isLane (ns session_key : Str) (r : Row LaneCols H.Digest) : Bool :=
  r.ns = ns && r.cols.session_key = session_key

/-- The checkpoint row, then the lane's context; two statements.
mirrors tools/session-lifecycle.ts:410-455 -/
def session_wrap (id ns : Str) (args : WrapArgs) (s : Store H.Digest) :
    Option (Store H.Digest) := do
  let lane ← s.lanes.rows.find? (isLane H ns args.session_key)
  let embedded := sessionEmbedText (args.source lane.cols)
  let row := wrapRow H model id ns args lane.cols
  let hash := contentHash H (sessionSourceHashInput (args.source lane.cols))
  let sessions ← attempt (insertNew (sameHash H hash ns) row s.sessions.rows)
  let lanes := attempt (updateWhere (fun r => r.id = lane.id && isLane H ns args.session_key r)
    (fun r => reembedded H model r { r.cols with current_context_md := some args.summary } embedded
      (laneHashText args.session_key args.summary)) s.lanes.rows)
  pure { s with sessions := sessions, lanes := lanes.getD s.lanes }

def LaneArgs.merge (args : LaneArgs) (c : LaneCols) : LaneCols :=
  { c with
    project := args.project.or c.project
    topic := args.topic.or c.topic
    current_context_md := args.current_context_md.or c.current_context_md }

/-- Every column goes through `COALESCE`, the hash and the embedding with them.
mirrors db/session-repository.ts:167-186 -/
def mergeLane (args : LaneArgs) (r : Row LaneCols H.Digest) : Row LaneCols H.Digest :=
  { r with
    cols := args.merge r.cols
    content_hash := (laneHash H args).or r.content_hash
    embedding := (embedFn (laneEmbedContext args)).or r.embedding
    embedding_model :=
      ((embedFn (laneEmbedContext args)).bind fun _ => model).or r.embedding_model }

def lane_upsert (id ns : Str) (args : LaneArgs)
    (t : Constrained (Row LaneCols H.Digest) lanesOk) :
    Option (Constrained (Row LaneCols H.Digest) lanesOk) :=
  attempt (upsert (isLane H ns args.session_key) (mergeLane H model args)
    (laneRow H model id ns args) t.rows)

/-! ## `update_entry` -/

/-- One table's part of `update_entry`: the two builders, and the fields of the call laid over a
row's columns. -/
structure Rewrite (C : Type) where
  buildEmbeddableText : C → Str
  buildHashInput : C → Str
  merge : C → C
  /-- One of the provided fields is a content field. -/
  needsReembed : Bool
  provided : Bool

def Rewrite.thoughts (content : Option Str) (tags : Option (List Str)) : Rewrite ThoughtCols where
  buildEmbeddableText c := c.content
  buildHashInput c := c.content
  merge c := { c with content := content.getD c.content, tags := tags.getD c.tags }
  needsReembed := content.isSome
  provided := content.isSome || tags.isSome

def Rewrite.decisions (title rationale context : Option Str)
    (alternatives tags : Option (List Str)) : Rewrite DecisionSource where
  buildEmbeddableText := decisionCanonicalText
  buildHashInput := decisionCanonicalText
  merge c :=
    { title := title.getD c.title
      rationale := rationale.getD c.rationale
      context := context.or c.context
      alternatives := alternatives.getD c.alternatives
      tags := tags.getD c.tags }
  needsReembed :=
    title.isSome || rationale.isSome || context.isSome || alternatives.isSome || tags.isSome
  provided :=
    title.isSome || rationale.isSome || context.isSome || alternatives.isSome || tags.isSome

def Rewrite.relationships (person_name context notes : Option Str) : Rewrite PersonCols where
  buildEmbeddableText c := joinNonEmpty [c.person_name, c.context.getD [], c.notes.getD []]
  buildHashInput c := joinNonEmpty [c.person_name, c.context.getD [], c.notes.getD []]
  merge c :=
    { person_name := person_name.getD c.person_name
      context := context.or c.context
      notes := notes.or c.notes }
  needsReembed := person_name.isSome || context.isSome || notes.isSome
  provided := person_name.isSome || context.isSome || notes.isSome

/-- `${name}: ${description}`, which no target embeds. -/
def Rewrite.projects (name description : Option Str) : Rewrite ProjectCols where
  buildEmbeddableText c := c.name ++ units ": " ++ c.description.getD []
  buildHashInput c := c.name ++ units ": " ++ c.description.getD []
  merge c := { name := name.getD c.name, description := description.or c.description }
  needsReembed := name.isSome || description.isSome
  provided := name.isSome || description.isSome

def Rewrite.sessions (summary project : Option Str)
    (key_decisions next_steps blockers : Option (List Str)) : Rewrite SessionCols where
  buildEmbeddableText c := sessionEmbedText c.toSessionSource
  buildHashInput c := sessionSourceHashInput c.toSessionSource
  merge c :=
    { summary := summary.getD c.summary
      project := project.or c.project
      key_decisions := key_decisions.getD c.key_decisions
      next_steps := next_steps.getD c.next_steps
      blockers := blockers.getD c.blockers
      session_id := c.session_id }
  needsReembed :=
    summary.isSome || project.isSome || key_decisions.isSome || next_steps.isSome || blockers.isSome
  provided :=
    summary.isSome || project.isSome || key_decisions.isSome || next_steps.isSome || blockers.isSome

variable {H model}

def lockExistingRow {C : Type} (id : Str) (writable : List Str) (rows : List (Row C H.Digest)) :
    Option (Row C H.Digest) :=
  rows.find? fun r => r.id = id && writable.contains r.ns

variable (H model)

/-- mirrors tools/update-entry.ts:349-407 -/
def runUpdate {C : Type} {I : List (Row C H.Digest) → Prop} [DecidablePred I] (W : Rewrite C)
    (id : Str) (writable : List Str) (t : Constrained (Row C H.Digest) I) :
    Option (Constrained (Row C H.Digest) I) := do
  let existing ← lockExistingRow id writable t.rows
  let merged := W.merge existing.cols
  let hash := contentHash H (W.buildHashInput merged)
  let target := fun r : Row C H.Digest => r.id = id && writable.contains r.ns
  if !W.provided || existing.archived then none
  else if !W.needsReembed then
    attempt (updateWhere target (fun r => { r with cols := W.merge r.cols }) t.rows)
  else if t.rows.any (fun r => sameHash H hash existing.ns r && r.id ≠ id) then none
  else attempt (updateWhere target (fun r => reembedded H model r (W.merge r.cols)
    (W.buildEmbeddableText merged) (W.buildHashInput merged)) t.rows)

/-! ## The calls -/

/-- What a call makes of the store; `none` is a call that changes nothing and reports why. -/
def Store.step (s : Store H.Digest) : Call → Option (Store H.Digest)
  | .log_thought id ns content tags =>
    (log_thought H model id ns content tags s.thoughts).map fun t => { s with thoughts := t }
  | .insertChunkRow id ns text tags parent =>
    (insertChunkRow H model id ns text tags parent s.thoughts).map fun t => { s with thoughts := t }
  | .log_decision id ns args =>
    (log_decision H model id ns args s.decisions).map fun t => { s with decisions := t }
  | .upsert_person id ns name context notes =>
    (upsert_person H model id ns name context notes s.relationships).map
      fun t => { s with relationships := t }
  | .session_save id ns args =>
    (session_save H model id ns args s.sessions).map fun t => { s with sessions := t }
  | .session_wrap id ns args => session_wrap H model id ns args s
  | .lane_upsert id ns args =>
    (lane_upsert H model id ns args s.lanes).map fun t => { s with lanes := t }
  | .update_entry id writable (.thoughts content tags) =>
    (runUpdate H model (.thoughts content tags) id writable s.thoughts).map
      fun t => { s with thoughts := t }
  | .update_entry id writable (.decisions title rationale context alternatives tags) =>
    (runUpdate H model (.decisions title rationale context alternatives tags) id writable
      s.decisions).map fun t => { s with decisions := t }
  | .update_entry id writable (.relationships person_name context notes) =>
    (runUpdate H model (.relationships person_name context notes) id writable
      s.relationships).map fun t => { s with relationships := t }
  | .update_entry id writable (.projects name description) =>
    (runUpdate H model (.projects name description) id writable s.projects).map
      fun t => { s with projects := t }
  | .update_entry id writable (.sessions summary project key_decisions next_steps blockers) =>
    (runUpdate H model (.sessions summary project key_decisions next_steps blockers) id writable
      s.sessions).map fun t => { s with sessions := t }

end
end OpenBrain.Server.Entries
