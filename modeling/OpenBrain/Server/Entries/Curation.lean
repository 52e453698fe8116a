import OpenBrain.Server.Embedding.Repair

/-!
# Statements on entries outside the writing tools

Archiving (`archive_entry`, `bulk_archive`, `demote_entry`, `curate_entries`), the upsert of a
graduated lane event (`server/domain/tiering.ts`), and the guarded update of embedding repair, each
over a whole table.
-/
namespace OpenBrain.Server.Entries
open OpenBrain.Core OpenBrain.Core.Table OpenBrain.Server.Embedding

section
variable {C D : Type} {I : List (Row C D) → Prop} [DecidablePred I]

/-- `SET archived_at = NOW() WHERE id = … AND archived_at IS NULL` under the caller's delete
predicate, for every id of the call. -/
def archiveRows (ids deletable : List Str) (t : Constrained (Row C D) I) :
    Option (Constrained (Row C D) I) :=
  attempt (updateWhere (fun r => ids.contains r.id && !r.archived && deletable.contains r.ns)
    (fun r => { r with archived := true }) t.rows)

end

section
variable (H : ContentHash) (model : Option Str)

/-- `array_agg(DISTINCT tag)` over both lists; a set in ascending order. -/
def mergeTags (old new : List Str) : List Str := normalizeDecisionTags (old ++ new)

/-- `event.content_hash ?? normalizedContentHash(event.content)` -/
def graduationHash (event_hash : Option H.Digest) (content : Str) : H.Digest :=
  event_hash.getD (normalizedContentHash H content)

/-- A graduated thought; `embedding` is the text embedded, when the provider answered. -/
def graduatedRow (id ns content : Str) (tags : List Str) (event_hash : Option H.Digest)
    (embedding : Option Str) : Row ThoughtCols H.Digest where
  id := id
  ns := ns
  cols := { content := content, tags := tags, parent_id := none }
  content_hash := some (graduationHash H event_hash content)
  embedding := embedding
  embedding_model := embedding.bind fun _ => model
  archived := false

/-- mirrors db/tiering-repository.ts:334-362 -/
def upsertGraduatedThought (id ns content : Str) (tags : List Str) (event_hash : Option H.Digest)
    (embedding : Option Str) (t : Constrained (Row ThoughtCols H.Digest) Hashed) :
    Option (Constrained (Row ThoughtCols H.Digest) Hashed) :=
  attempt (upsert (sameHash H (graduationHash H event_hash content) ns)
    (fun r => { r with cols := { r.cols with tags := mergeTags r.cols.tags tags } })
    (graduatedRow H model id ns content tags event_hash embedding) t.rows)

variable {C : Type} {I : List (Row C H.Digest) → Prop} [DecidablePred I]

/-- The update of one repair, over the table; the unique index is what makes it collide. -/
def repairRows (T : EmbeddingTarget C) (currentModel : Str) (scope : RepairScope)
    (candidate : Row C H.Digest) (t : Constrained (Row C H.Digest) I) :
    Option (Constrained (Row C H.Digest) I) :=
  attempt (updateWhere (fun r => T.guardMatches H candidate r && scope.covers r.ns)
    (T.repairedRow H currentModel candidate) t.rows)

end
end OpenBrain.Server.Entries
