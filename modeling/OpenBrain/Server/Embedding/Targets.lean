import OpenBrain.Server.Entries.Text

/-!
# The embedding targets (`server/embedding/embedding-targets.ts`)

A target tells, for one table, which text is embedded for a row and which is hashed, from the
row's own columns. The selection of stale rows and the repair of one row read nothing else. A row
carries the text its embedding was made from in place of the vector.
-/
namespace OpenBrain.Server.Embedding
open OpenBrain.Core OpenBrain.Server.Entries

/-! ## The columns

Those the targets read, and those the writers' statements match or set beside them. -/

structure ThoughtCols where
  content : Str
  tags : List Str
  /-- The row this one is a chunk of. -/
  parent_id : Option Str
deriving DecidableEq, Repr

structure PersonCols where
  person_name : Str
  context : Option Str
  notes : Option Str
deriving DecidableEq, Repr

structure ProjectCols where
  name : Str
  description : Option Str
deriving DecidableEq, Repr

structure SessionCols extends SessionSource where
  session_id : Option Str
deriving DecidableEq, Repr

structure LaneCols where
  session_key : Str
  topic : Option Str
  project : Option Str
  current_context_md : Option Str
deriving DecidableEq, Repr

structure EventCols where
  content : Str
deriving DecidableEq, Repr

structure EntityCols where
  entity_type : Str
  name : Str
deriving DecidableEq, Repr

structure Row (C D : Type) where
  id : Str
  ns : Str
  cols : C
  content_hash : Option D
  /-- The text that was embedded; `none` stands for `NULL`. -/
  embedding : Option Str
  embedding_model : Option Str
  archived : Bool
deriving DecidableEq, Repr

structure EmbeddingTarget (C : Type) where
  /-- The columns the target reads, each as the list of its texts. -/
  selectColumns : C → List (List Str)
  embedText : C → Str
  /-- What `sourceHash` normalizes and digests. -/
  hashInput : C → Str
  hasContentHash : Bool
  hasEmbeddingModel : Bool
  /-- The values of `sourceGuardColumns`. -/
  sourceGuard : C → List Str
  /-- `baseFilterSql`, over the columns and whether the row is archived. -/
  baseFilter : C → Bool → Bool
  determined : ∀ c c', selectColumns c = selectColumns c' →
    embedText c = embedText c' ∧ hashInput c = hashInput c'

namespace EmbeddingTarget

/-! ## The registry -/

theorem toList_inj {a b : Option Str} : a.toList = b.toList ↔ a = b := by
  cases a <;> cases b <;> simp

def thoughts : EmbeddingTarget ThoughtCols where
  selectColumns c := [[c.content], c.tags]
  embedText c := thoughtEmbedText c.content c.tags
  hashInput c := c.content
  hasContentHash := true
  hasEmbeddingModel := true
  sourceGuard _ := []
  baseFilter _ _ := true
  determined c c' h := by
    simp only [List.cons.injEq, and_true] at h
    exact ⟨by rw [h.1, h.2], h.1⟩

def decisions : EmbeddingTarget DecisionSource where
  selectColumns c := [[c.title], [c.rationale], c.context.toList, c.alternatives, c.tags]
  embedText := decisionCanonicalText
  hashInput := decisionCanonicalText
  hasContentHash := true
  hasEmbeddingModel := true
  sourceGuard _ := []
  baseFilter _ _ := true
  determined c c' h := by
    simp only [List.cons.injEq, and_true, toList_inj] at h
    have hc : c = c' := by
      cases c
      cases c'
      simp_all only
    exact ⟨congrArg _ hc, congrArg _ hc⟩

def personText (c : PersonCols) : Str :=
  joinNonEmpty [c.person_name, c.context.getD [], c.notes.getD []]

def relationships : EmbeddingTarget PersonCols where
  selectColumns c := [[c.person_name], c.context.toList, c.notes.toList]
  embedText := personText
  hashInput := personText
  hasContentHash := true
  hasEmbeddingModel := true
  sourceGuard _ := []
  baseFilter _ _ := true
  determined c c' h := by
    simp only [List.cons.injEq, and_true, toList_inj] at h
    have hc : c = c' := by
      cases c
      cases c'
      simp_all only
    exact ⟨congrArg _ hc, congrArg _ hc⟩

def projectText (c : ProjectCols) : Str := joinNonEmpty [c.name, c.description.getD []]

def projects : EmbeddingTarget ProjectCols where
  selectColumns c := [[c.name], c.description.toList]
  embedText := projectText
  hashInput := projectText
  hasContentHash := true
  hasEmbeddingModel := true
  sourceGuard _ := []
  baseFilter _ _ := true
  determined c c' h := by
    simp only [List.cons.injEq, and_true, toList_inj] at h
    have hc : c = c' := by
      cases c
      cases c'
      simp_all only
    exact ⟨congrArg _ hc, congrArg _ hc⟩

def sessions : EmbeddingTarget SessionCols where
  selectColumns c := [[c.summary], c.project.toList, c.key_decisions, c.next_steps, c.blockers]
  embedText c := sessionEmbedText c.toSessionSource
  hashInput c := sessionSourceHashInput c.toSessionSource
  hasContentHash := true
  hasEmbeddingModel := true
  sourceGuard _ := []
  baseFilter _ _ := true
  determined c c' h := by
    simp only [List.cons.injEq, and_true, toList_inj] at h
    have hc : c.toSessionSource = c'.toSessionSource := by
      obtain ⟨⟨_, _, _, _, _⟩, _⟩ := c
      obtain ⟨⟨_, _, _, _, _⟩, _⟩ := c'
      simp_all
    exact ⟨by rw [hc], by rw [hc]⟩

/-- The lane's hash input is not its embed text; a lane without a topic is not scanned. -/
def ob_session_lanes : EmbeddingTarget LaneCols where
  selectColumns c := [[c.session_key], c.topic.toList, c.project.toList]
  embedText c := joinNonEmpty [c.topic.getD [], c.project.getD []]
  hashInput c := c.session_key ++ units "|" ++ c.topic.getD []
  hasContentHash := true
  hasEmbeddingModel := true
  sourceGuard _ := []
  baseFilter c _ := c.topic.any fun topic => topic.any (· ≠ unit ' ')
  determined c c' h := by
    simp only [List.cons.injEq, and_true, toList_inj] at h
    exact ⟨by rw [h.2.1, h.2.2], by rw [h.1, h.2.1]⟩

def ob_session_events : EmbeddingTarget EventCols where
  selectColumns c := [[c.content]]
  embedText c := c.content
  hashInput c := c.content
  hasContentHash := true
  hasEmbeddingModel := true
  sourceGuard _ := []
  baseFilter _ _ := true
  determined c c' h := by
    simp only [List.cons.injEq, and_true] at h
    exact ⟨h, h⟩

def entityText (c : EntityCols) : Str := c.entity_type ++ units ": " ++ c.name

/-- Entities store neither hash nor model; the columns themselves are the guard. -/
def ob_entities : EmbeddingTarget EntityCols where
  selectColumns c := [[c.entity_type], [c.name]]
  embedText := entityText
  hashInput := entityText
  hasContentHash := false
  hasEmbeddingModel := false
  sourceGuard c := [c.entity_type, c.name]
  baseFilter _ archived := !archived
  determined c c' h := by
    simp only [List.cons.injEq, and_true] at h
    have hc : entityText c = entityText c' := by rw [entityText, entityText, h.1, h.2]
    exact ⟨hc, hc⟩

/-! ## Selection -/

variable {C : Type} (T : EmbeddingTarget C) (H : ContentHash)

def sourceHash (c : C) : H.Digest := normalizedContentHash H (T.hashInput c)

/-- mirrors embedding-repair-selection.ts:293-313; the columns are never damaged here -/
def hasSourceDrift (row : Row C H.Digest) : Bool :=
  match row.content_hash with
  | none => false
  | some stored => stored ≠ T.sourceHash H row.cols

inductive StalenessReason where
  | missing | model_drift | source_drift
deriving DecidableEq, Repr

def detectableReasons : List StalenessReason :=
  [.missing] ++ (if T.hasEmbeddingModel then [.model_drift] else [])
    ++ (if T.hasContentHash then [.source_drift] else [])

/-- mirrors embedding-repair-selection.ts:316-341 -/
def rowReasons (requested : List StalenessReason) (currentModel : Str) (row : Row C H.Digest) :
    List StalenessReason :=
  let reasons := requested.filter fun reason => T.detectableReasons.contains reason
  if row.embedding.isNone then (if reasons.contains .missing then [.missing] else [])
  else
    (if reasons.contains .model_drift && row.embedding_model ≠ some currentModel then [.model_drift]
      else [])
    ++ (if reasons.contains .source_drift && T.hasSourceDrift H row then [.source_drift] else [])

/-- `selectStale` offers the row. -/
def isSelected (requested : List StalenessReason) (currentModel : Str) (row : Row C H.Digest) :
    Bool :=
  T.baseFilter row.cols row.archived && !(T.rowReasons H requested currentModel row).isEmpty

/-! ## Agreement -/

/-- The row's hash and embedding are those of its own columns. -/
structure Agrees (row : Row C H.Digest) : Prop where
  hash : row.content_hash = some (T.sourceHash H row.cols)
  embedding : row.embedding = some (T.embedText row.cols)

variable {T H}

theorem Agrees.no_drift {row : Row C H.Digest} (h : T.Agrees H row) :
    T.hasSourceDrift H row = false := by
  unfold hasSourceDrift
  rw [h.hash]
  exact decide_eq_false (not_not_intro rfl)

end EmbeddingTarget
end OpenBrain.Server.Embedding
