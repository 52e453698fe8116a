import OpenBrain.Server.ContextPack.LaneContext

/-!
# Standing guidance and repo facts

`server/tools/context-pack-guidance.ts` and `context-pack-repo-facts.ts`. A pack
passes neither a section budget, so both bounds of both loaders are
`Number.MAX_SAFE_INTEGER` and nothing is cut.

`standingPromotes_rows` and `repoFactItems_rows` say which rows of the tables
the items are of, each once and each with its citation.
-/
namespace OpenBrain.Server.ContextPack

open OpenBrain.Core

variable {ν : Type} (N : Ecma.Numbers ν)

/-! ## Guidance -/

/-- mirrors server/tools/context-pack-guidance.ts:68-70 -/
def asText (value : Option Str) : Option Str := value.filter fun v => !v.isEmpty

def textMember (ms : Members ν) (key : Str) : Option Str :=
  match ms.get? key with
  | some (.str s) => asText (some s)
  | _ => none

/-- mirrors server/tools/context-pack-guidance.ts:81-85 -/
def scopeKeyOf (scope : Json ν) : Option Str :=
  match scope with
  | .obj ms => textMember ms (units "key")
  | _ => none

structure LifecycleRow (ν : Type) where
  id : Str
  content : Option Str
  action : Option Str
  candidateType : Option Str
  scopeKey : Option Str
  confidence : Option ν
  reason : Option Str
  createdAt : Option Str

/-- mirrors server/tools/context-pack-guidance.ts:87-98 -/
def normalizeRow (row : EventRow ν) : LifecycleRow ν where
  id := (asText (some row.id)).getD []
  content := asText row.content
  action := asText row.memoryLifecycleAction
  candidateType := asText row.candidateType
  scopeKey := scopeKeyOf row.candidateScope
  confidence := row.candidateConfidence
  reason := asText row.candidateReason
  createdAt := match row.createdAt with
    | .str s => asText (some s)
    | _ => none

/-- mirrors server/tools/context-pack-guidance.ts:55 -/
def supersedingActions : List Str := [units "relegate", units "discard"]

/-- The scope keys whose newest decisive action retires them; rows come newest
first, and a key is decided once.
mirrors server/tools/context-pack-guidance.ts:116-130 -/
def retiredScopeKeys : List Str → List (LifecycleRow ν) → List Str
  | _, [] => []
  | decided, row :: rows =>
    match row.scopeKey, row.action with
    | some key, some action =>
      if decided.contains key then retiredScopeKeys decided rows
      else if action = units "promote" then retiredScopeKeys (key :: decided) rows
      else if supersedingActions.contains action then
        key :: retiredScopeKeys (key :: decided) rows
      else retiredScopeKeys decided rows
    | _, _ => retiredScopeKeys decided rows

/-- mirrors server/tools/context-pack-guidance.ts:147-164 -/
def isStandingPromote (row : LifecycleRow ν) (candidateType : Str)
    (retired seenScopeKeys : List Str) : Bool :=
  decide (row.action = some (units "promote")) &&
  decide (row.candidateType = some candidateType) &&
  row.scopeKey.all fun key => !retired.contains key && !seenScopeKeys.contains key

/-- The rows that become items, with their text; a key is seen once it is
standing.
mirrors server/tools/context-pack-guidance.ts:189-226 -/
def selectGuidanceItems (candidateType : Str) (retired : List Str) :
    List Str → List (LifecycleRow ν) → List (LifecycleRow ν × Str)
  | _, [] => []
  | seen, row :: rows =>
    if isStandingPromote row candidateType retired seen then
      let rest := selectGuidanceItems candidateType retired (row.scopeKey.toList ++ seen) rows
      match row.content with
      | some text => (row, text) :: rest
      | none => rest
    else selectGuidanceItems candidateType retired seen rows

def guidanceItem (candidateType : Str) (row : LifecycleRow ν) (text : Str) : Json ν :=
  .obj [(units "id", .str row.id), (units "guidance", .str text),
    (units "candidate_type", .str candidateType),
    (units "confidence", (row.confidence.map Json.num).getD .null),
    (units "reason", orNull row.reason), (units "scope_key", orNull row.scopeKey),
    (units "supersession_verifiable", .bool row.scopeKey.isSome),
    (units "promoted_at", orNull row.createdAt),
    (units "citation_id", .str (eventCitationId row.id))]

def guidanceCitation (row : LifecycleRow ν) : Members ν :=
  [(units "id", .str (eventCitationId row.id)), (units "kind", .str (units "session_event")),
    (units "source_ref", .str (units "ob_session_events/" ++ row.id))]

def standingPromotes (t : ContextTables ν) («namespace» candidateType : Str) :
    List (LifecycleRow ν × Str) :=
  let normalized := (t.selectGuidanceRows «namespace» candidateType).map normalizeRow
  selectGuidanceItems candidateType (retiredScopeKeys [] normalized) [] normalized

/-- The items of a guidance section and how many of them have no scope key.
mirrors server/tools/context-pack-guidance.ts:312-358 -/
def guidanceItems (t : ContextTables ν) («namespace» : Str) (key : SectionKey) :
    LoadedItems ν × Nat :=
  let candidateType := guidanceCandidateType key
  let standing := standingPromotes t «namespace» candidateType
  (⟨standing.map fun p => guidanceItem candidateType p.1 p.2,
    standing.map fun p => guidanceCitation p.1, []⟩,
    (standing.filter fun p => p.1.scopeKey.isNone).length)

/-! ## Repo facts -/

/-- `Date.parse`, in milliseconds, and the time of the call. -/
structure Clock where
  parse : Str → Option Int
  nowMs : Int

/-- mirrors server/tools/context-pack-repo-facts.ts:63 -/
def refreshRequiredMaxAgeMs : Int := 30 * 24 * 60 * 60 * 1000

/-- mirrors server/tools/context-pack-repo-facts.ts:81-108 -/
def stalenessDispositionFor (clock : Clock) (policy verifiedAt : Option Str) : Str :=
  if policy = some (units "stable_fact_verify_source") then units "source_pinned"
  else if policy = some (units "commit_pinned") then units "commit_pinned"
  else if policy = some (units "volatile_pointer_only") then units "pointer_only"
  else if policy = some (units "refresh_required") then
    match verifiedAt.bind clock.parse with
    | none => units "refresh_due"
    | some verifiedMs =>
      if refreshRequiredMaxAgeMs < clock.nowMs - verifiedMs then units "refresh_due"
      else units "current"
  else units "unknown_policy"

def factCitationId (id : Str) : Str := units "repo_fact:" ++ id

/-- The text of a row that may become an item.
mirrors server/tools/context-pack-repo-facts.ts:146-167 -/
def admitRepoFactRow (ms : Members ν) (repo : Str) : Option Str :=
  if textMember ms (units "repo") ≠ some repo then none
  else if (textMember ms (units "source_url")).isNone ||
      (textMember ms (units "source_commit")).isNone then none
  else textMember ms (units "fact")

def repoFactItem (clock : Clock) (repo fact : Str) (row : EntityRow ν) : Json ν :=
  let ms := row.metadata
  let text (key : String) : Json ν := orNull (textMember ms (units key))
  .obj [(units "id", .str row.id), (units "repo", .str repo), (units "path", text "path"),
    (units "subject", orNull ((textMember ms (units "subject")).or
      (textMember ms (units "symbol")))),
    (units "fact_type", text "fact_type"), (units "fact", .str fact),
    (units "source_commit", text "source_commit"), (units "source_url", text "source_url"),
    (units "verified_at", text "verified_at"),
    (units "staleness_policy", text "staleness_policy"),
    (units "staleness_disposition", .str (stalenessDispositionFor clock
      (textMember ms (units "staleness_policy")) (textMember ms (units "verified_at")))),
    (units "confidence", match ms.get? (units "confidence") with
      | some (.num n) => .num n
      | _ => .null),
    (units "citation_id", .str (factCitationId row.id))]

def repoFactCitation (row : EntityRow ν) : Members ν :=
  [(units "id", .str (factCitationId row.id)), (units "kind", .str (units "repo_fact")),
    (units "source_ref", .str (units "ob_entities/" ++ row.id)),
    (units "source_url", orNull (textMember row.metadata (units "source_url"))),
    (units "source_commit", orNull (textMember row.metadata (units "source_commit")))]

/-- The statement compares `metadata->>'repo'`; a row whose `repo` is not a
string is not admitted, whatever its text.
mirrors server/db/entity-report-repository.ts:360-372 -/
def ContextTables.repoFactRowsForRepo (t : ContextTables ν) («namespace» repo : Str) :
    List (EntityRow ν) :=
  t.entities.filter fun e =>
    decide (e.«namespace» = «namespace») && decide (textMember e.metadata (units "repo") = some repo)

/-- mirrors server/tools/context-pack-repo-facts.ts:226-258 -/
def repoFactItems (t : ContextTables ν) (clock : Clock) («namespace» repo : Str) : LoadedItems ν :=
  let admitted := (t.repoFactRowsForRepo «namespace» repo).filterMap fun row =>
    (admitRepoFactRow row.metadata repo).map fun fact => (row, fact)
  ⟨admitted.map fun p => repoFactItem clock repo p.2 p.1,
    admitted.map fun p => repoFactCitation p.1, []⟩

/-! ## Which rows are shown -/

@[simp] theorem strField_guidanceItem (candidateType : Str) (row : LifecycleRow ν) (text : Str) :
    strField (units "citation_id") (guidanceItem candidateType row text) =
      some (eventCitationId row.id) := rfl

@[simp] theorem strField_guidanceCitation (row : LifecycleRow ν) :
    strField (units "id") (.obj (guidanceCitation row)) = some (eventCitationId row.id) := rfl

@[simp] theorem strField_repoFactItem (clock : Clock) (repo fact : Str) (row : EntityRow ν) :
    strField (units "citation_id") (repoFactItem clock repo fact row) =
      some (factCitationId row.id) := rfl

@[simp] theorem strField_repoFactCitation (row : EntityRow ν) :
    strField (units "id") (.obj (repoFactCitation row)) = some (factCitationId row.id) := rfl

theorem asText_some_getD (s : Str) : (asText (some s)).getD [] = s := by
  cases s <;> rfl

@[simp] theorem normalizeRow_id (row : EventRow ν) : (normalizeRow row).id = row.id :=
  asText_some_getD row.id

theorem selectGuidanceItems_sublist (candidateType : Str) (retired seen : List Str)
    (rows : List (LifecycleRow ν)) :
    ((selectGuidanceItems candidateType retired seen rows).map Prod.fst).Sublist rows := by
  induction rows generalizing seen with
  | nil => exact List.Sublist.slnil
  | cons row rows ih =>
    simp only [selectGuidanceItems]
    split
    · cases hc : row.content with
      | none => exact (ih _).cons row
      | some text => exact (ih _).cons_cons row
    · exact (ih _).cons row

theorem standingPromotes_rows (t : ContextTables ν) («namespace» candidateType : Str) :
    ((standingPromotes t «namespace» candidateType).map fun p => p.1.id).Sublist
      ((t.events.filter fun e => decide (e.candidateType = some candidateType)).map
        EventRow.id) := by
  have hsub := (selectGuidanceItems_sublist candidateType
    (retiredScopeKeys [] ((t.selectGuidanceRows «namespace» candidateType).map normalizeRow)) []
    ((t.selectGuidanceRows «namespace» candidateType).map normalizeRow)).map LifecycleRow.id
  rw [List.map_map, List.map_map] at hsub
  refine hsub.trans ?_
  have hrows : (t.selectGuidanceRows «namespace» candidateType).Sublist
      (t.events.filter fun e => decide (e.candidateType = some candidateType)) := by
    unfold ContextTables.selectGuidanceRows
    refine List.monotone_filter_right _ fun e he => ?_
    simp only [Bool.and_eq_true] at he
    exact he.1.2
  have hid : (LifecycleRow.id ∘ normalizeRow : EventRow ν → Str) = EventRow.id :=
    funext normalizeRow_id
  rw [hid]
  exact hrows.map _

theorem guidanceItems_ids (t : ContextTables ν) («namespace» : Str) (key : SectionKey) :
    citationIds (guidanceItems t «namespace» key).1.items =
        (standingPromotes t «namespace» (guidanceCandidateType key)).map
          (fun p => eventCitationId p.1.id) ∧
      (guidanceItems t «namespace» key).1.citations =
        (standingPromotes t «namespace» (guidanceCandidateType key)).map
          fun p => guidanceCitation p.1 := by
  exact ⟨citationIds_map (fun p : LifecycleRow ν × Str => strField_guidanceItem _ p.1 p.2) _, rfl⟩

theorem repoFactItems_rows (t : ContextTables ν) (clock : Clock) («namespace» repo : Str) :
    ∃ rows : List (EntityRow ν), rows.Sublist t.entities ∧
      citationIds (repoFactItems t clock «namespace» repo).items =
        rows.map (fun row => factCitationId row.id) ∧
      (repoFactItems t clock «namespace» repo).citations = rows.map repoFactCitation := by
  refine ⟨(((t.repoFactRowsForRepo «namespace» repo).filterMap fun row =>
    (admitRepoFactRow row.metadata repo).map fun fact => (row, fact))).map Prod.fst, ?_, ?_, ?_⟩
  · have hrows : (t.repoFactRowsForRepo «namespace» repo).Sublist t.entities :=
      List.filter_sublist
    refine List.Sublist.trans ?_ hrows
    rw [List.map_filterMap]
    generalize t.repoFactRowsForRepo «namespace» repo = rows
    clear hrows
    induction rows with
    | nil => exact List.Sublist.slnil
    | cons row rows ih =>
      cases h : admitRepoFactRow row.metadata repo with
      | none => simpa [h] using ih.cons row
      | some fact => simpa [h] using ih
  · rw [List.map_map]
    exact citationIds_map (fun p : EntityRow ν × Str => strField_repoFactItem clock repo p.2 p.1) _
  · rw [List.map_map]
    rfl

end OpenBrain.Server.ContextPack
