import OpenBrain.Server.ContextPack.Budget

/-!
# Building the sections of a context pack

What the loaders hand to the allocator, the three admission functions, and the
walk of `buildAgentContextPackPayload` over the nine sections
(`server/tools/agent-context-pack.ts:146-250`,
`context-pack-append-sections.ts`, `context-pack-recall-sections.ts`,
`context-pack-structured-sections.ts`, `context-pack-payload.ts`).

A section body other than the two append stores and the lane carries its own
`truncated` flag. `FlaggedBody` keeps that fact with the body: each loader's
body is built as one, and the admission functions rely on it when they flip
the flag after the body was measured.

The reads behind the loaders (rows, recall, scopes) are arbitrary here; so are
the `budget.durable_*` blocks, which no decision below looks at.
-/
namespace OpenBrain.Server.ContextPack

open OpenBrain.Core

variable {ν : Type} (N : Ecma.Numbers ν)

/-- A section body with a boolean `truncated` member. -/
structure FlaggedBody (ν : Type) where
  body : Members ν
  flagged : ∃ b, body.get? (units "truncated") = some (.bool b)

/-- mirrors server/tools/context-pack-sections.ts:19-32 -/
structure SectionFragment (ν : Type) where
  body : Option (FlaggedBody ν)
  scopeDenials : List (Members ν)
  truncation : List (Members ν)
  degradedSources : List (Members ν)
  citations : List (Members ν)

/-! ## Loaded bodies -/

/-- The rows a structured loader selected, shaped as items. -/
structure LoadedItems (ν : Type) where
  items : List (Json ν)
  citations : List (Members ν)
  truncation : List (Members ν)

/-- mirrors server/tools/context-pack-guidance.ts:30-33 -/
def guidanceCandidateType : SectionKey → Str
  | .profileGuidance => units "user_preference"
  | _ => units "process_rule"

/-- mirrors server/tools/context-pack-guidance.ts:339-349 -/
def guidanceBody (key : SectionKey) (keylessCount : Nat) (l : LoadedItems ν) : FlaggedBody ν where
  body := [(units "label", .str key.name),
    (units "candidate_type", .str (guidanceCandidateType key)),
    (units "namespace_bound", .bool true), (units "items", .arr l.items),
    (units "item_count", .num (N.ofNat l.items.length)),
    (units "keyless_uncertain_count", .num (N.ofNat keylessCount)),
    (units "truncated", .bool (!l.truncation.isEmpty))]
  flagged := ⟨!l.truncation.isEmpty, rfl⟩

/-- mirrors server/tools/context-pack-repo-facts.ts:262-271,371-379 -/
def repoFactsBody (repo : Option Str) (l : LoadedItems ν) : FlaggedBody ν where
  body := [(units "label", .str (units "repo_facts")),
    (units "repo", (repo.map Json.str).getD .null),
    (units "namespace_bound", .bool true), (units "repo_bound", .bool repo.isSome),
    (units "items", .arr l.items), (units "item_count", .num (N.ofNat l.items.length)),
    (units "truncated", .bool (!l.truncation.isEmpty))]
  flagged := ⟨!l.truncation.isEmpty, rfl⟩

/-- mirrors server/tools/context-pack-pointers.ts:177-187 -/
def pointersBody (l : LoadedItems ν) : FlaggedBody ν where
  body := [(units "label", .str (units "pointers")), (units "namespace_scoped", .bool true),
    (units "resolvable_reference_only", .bool true), (units "items", .arr l.items),
    (units "item_count", .num (N.ofNat l.items.length)),
    (units "truncated", .bool (!l.truncation.isEmpty))]
  flagged := ⟨!l.truncation.isEmpty, rfl⟩

/-- mirrors server/tools/context-pack-pointers.ts:222-235 -/
def candidateBody : FlaggedBody ν where
  body := [(units "label", .str (units "candidate_memory")),
    (units "namespace_scoped", .bool true), (units "confidence", .str (units "unconfirmed")),
    (units "auto_promotable", .bool false), (units "items", .arr []),
    (units "item_count", .num (N.ofNat 0)),
    (units "empty_reason", .str (units "candidate_predicate_unavailable")),
    (units "truncated", .bool false)]
  flagged := ⟨false, rfl⟩

/-- What the recall returned: a defined empty state, or one burst of items with
the position of the next burst and the suppression counts. -/
inductive Recall (ν : Type) where
  | empty (query : Option Str) (emptyReason : Str)
  | burst (query : Str) (emptyReason : Option Str) (l : LoadedItems ν) (next : Option Nat)
      (recalled suppressed netNew : Nat)

/-- mirrors server/tools/context-pack-durable-memory.ts:227-241,581-617 -/
def Recall.section : Recall ν → FlaggedBody ν
  | .empty query emptyReason =>
    { body := [(units "label", .str (units "durable_memory")),
        (units "namespace_scoped", .bool true), (units "query", (query.map Json.str).getD .null),
        (units "empty_reason", .str emptyReason), (units "items", .arr []),
        (units "item_count", .num (N.ofNat 0)), (units "truncated", .bool false)]
      flagged := ⟨false, rfl⟩ }
  | .burst query emptyReason l next recalled suppressed netNew =>
    { body := [(units "label", .str (units "durable_memory")),
          (units "namespace_scoped", .bool true), (units "query", .str query)] ++
        (emptyReason.map fun r => (units "empty_reason", Json.str r)).toList ++
        [(units "items", .arr l.items), (units "item_count", .num (N.ofNat l.items.length)),
          (units "truncated", .bool (!l.truncation.isEmpty))] ++
        (next.map fun n => (units "next", Json.obj [(units "offset", .num (N.ofNat n)),
          (units "delivered_through", .num (N.ofNat n))])).toList ++
        [(units "prior_context_suppression", .obj [(units "recalled", .num (N.ofNat recalled)),
          (units "suppressed", .num (N.ofNat suppressed)),
          (units "net_new", .num (N.ofNat netNew)),
          (units "emitted", .num (N.ofNat l.items.length))])]
      flagged := ⟨!l.truncation.isEmpty, by cases emptyReason <;> rfl⟩ }

/-! ## Admission -/

/-- mirrors server/tools/context-pack-append-sections.ts:44-72 -/
def admitAppendSection (a : PackAllocator ν) (key : SectionKey) (section_ : Option (Members ν))
    (reconciledCounts : List Str) : PackAllocator ν × Option (Members ν) :=
  match section_ with
  | none => (a, none)
  | some s =>
    let frame := sectionFrameCost key a.firstSectionAdmitted
    let serving := servingChars a frame
    let fitted := fitItemSection N s reconciledCounts serving .head
    let starvedOut := fitted.starved && !fits N serving fitted.body
    let a' := if starvedOut then a else chargeAdmitted N a fitted.body frame
    (if fitted.truncated then noteBudgetTruncation N a' key fitted.starved else a',
      if starvedOut then none else some fitted.body)

/-- mirrors server/tools/context-pack-recall-sections.ts:35-44 -/
structure RecallAdmission (ν : Type) where
  body : Option (Members ν)
  citations : List (Members ν)
  starvedOut : Bool

/-- mirrors server/tools/context-pack-recall-sections.ts:66-97 -/
def admitDurableLaneSection (a : PackAllocator ν) (section_ : Option (Members ν))
    (citations : List (Members ν)) (frame : Nat) (serving : Option Nat) :
    PackAllocator ν × RecallAdmission ν :=
  match section_ with
  | none => (a, ⟨none, [], false⟩)
  | some s =>
    if a.wholePackBudget.isNone then (chargeAdmitted N a s frame, ⟨some s, citations, false⟩)
    else
      let fitted := fitDurableLaneSection N s citations serving
      if fitted.truncated && !fits N serving fitted.body then
        (noteBudgetTruncation N a .durableLaneContext true, ⟨none, [], true⟩)
      else
        let a' := chargeAdmitted N a fitted.body frame
        (if fitted.truncated then noteBudgetTruncation N a' .durableLaneContext false else a',
          ⟨some fitted.body, fitted.citations, false⟩)

/-- mirrors server/tools/context-pack-recall-sections.ts:100-131 -/
def admitDurableMemorySection (a : PackAllocator ν) (section_ : Option (FlaggedBody ν))
    (citations : List (Members ν)) (frame : Nat) (serving : Option Nat) :
    PackAllocator ν × RecallAdmission ν :=
  match section_ with
  | none => (a, ⟨none, [], false⟩)
  | some s =>
    if a.wholePackBudget.isNone then
      (chargeAdmitted N a s.body frame, ⟨some s.body, citations, false⟩)
    else
      let fitted := fitRankedItemSection N s.body [units "item_count"] serving
      if fitted.starved && !fits N serving fitted.body then
        (noteBudgetTruncation N a .durableMemory true, ⟨none, [], true⟩)
      else
        let a' := chargeAdmitted N a fitted.body frame
        (if fitted.truncated then noteBudgetTruncation N a' .durableMemory false else a',
          ⟨some fitted.body, reconcileCitedItemCitations citations (itemsOf fitted.body), false⟩)

/-- mirrors server/tools/context-pack-structured-sections.ts:26-32 -/
structure StructuredAccumulator (ν : Type) where
  scopeDenials : List (Members ν)
  degradedSources : List (Members ν)
  truncation : List (Members ν)
  citations : List (Members ν)
  sections : List (SectionKey × Members ν)

/-- `body.item_count === 0`. -/
def itemCountIsZero (body : Members ν) : Bool :=
  match body.get? (units "item_count") with
  | some (.num n) => N.isZero n
  | _ => false

/-- mirrors server/tools/context-pack-structured-sections.ts:52-57 -/
def stampTrimmedBody (body : Members ν) : Members ν :=
  let flagged := body.set (units "truncated") (.bool true)
  if itemCountIsZero N flagged then
    flagged.set (units "empty_reason") (.str (units "whole_pack_budget"))
  else flagged

/-- mirrors server/tools/context-pack-structured-sections.ts:82-137 -/
def admitStructuredSection (acc : StructuredAccumulator ν) (a : PackAllocator ν)
    (key : SectionKey) (fragment : SectionFragment ν) :
    StructuredAccumulator ν × PackAllocator ν :=
  let acc := { acc with
    scopeDenials := acc.scopeDenials ++ fragment.scopeDenials
    degradedSources := acc.degradedSources ++ fragment.degradedSources }
  match fragment.body with
  | none => (acc, a)
  | some s =>
    if a.wholePackBudget.isNone then
      ({ acc with
        sections := acc.sections ++ [(key, s.body)]
        truncation := acc.truncation ++ fragment.truncation
        citations := acc.citations ++ fragment.citations },
        { a with firstSectionAdmitted := false })
    else
      let frame := sectionFrameCost key a.firstSectionAdmitted
      let serving := servingChars a frame
      let fitted := fitItemSection N s.body [units "item_count"] serving .tail
      let survived := if fitted.truncated then stampTrimmedBody N fitted.body else fitted.body
      if fitted.starved && !fits N serving survived then
        ({ acc with truncation := acc.truncation ++ [budgetMarker N a key true] }, a)
      else
        ({ acc with
          sections := acc.sections ++ [(key, survived)]
          citations := acc.citations ++
            reconcileCitedItemCitations fragment.citations (itemsOf survived)
          truncation := acc.truncation ++ fragment.truncation ++
            if fitted.truncated then [budgetMarker N a key false] else [] },
          chargeAdmitted N a survived frame)

/-! ## The walk -/

/-- mirrors server/tools/context-pack-selection.ts:41-53 -/
structure SectionSelection where
  workingSet : Bool
  recovery : Bool
  durableLaneContext : Bool
  durableMemorySection : Bool
  durableMemory : Bool
  profileGuidance : Bool
  processGuidance : Bool
  repoFacts : Bool
  pointers : Bool
  candidateMemory : Bool
  deriving DecidableEq, Repr

/-- A realtime store's fragment: `{items, item_count, ...}` and its denials. -/
structure AppendFragment (ν : Type) where
  body : Option (Members ν)
  scopeDenials : List (Members ν)

structure LaneContext (ν : Type) where
  body : Option (Members ν)
  scopeDenials : List (Members ν)
  truncation : List (Members ν)
  degradedSources : List (Members ν)
  citations : List (Members ν)

structure MemoryContext (ν : Type) where
  «recall» : Recall ν
  scopeDenials : List (Members ν)
  truncation : List (Members ν)
  degradedSources : List (Members ν)
  citations : List (Members ν)

/-- What the stores and the database answer. The two recall loaders are seeded
with a content allowance; the pointers are selected from the recall pool
against the identities that survived in `durable_memory`. `none` from a
structured loader is a failed read. -/
structure Sources (ν : Type) where
  workingSet : AppendFragment ν
  recovery : AppendFragment ν
  lane : Option Nat → LaneContext ν
  memory : Option Nat → MemoryContext ν
  guidance : SectionKey → Option (LoadedItems ν × Nat)
  repo : Option Str
  repoFacts : Option (LoadedItems ν)
  pointers : List Str → LoadedItems ν

/-- mirrors server/tools/context-pack-sections.ts:104-116 -/
def databaseUnavailableFragment (source : SectionKey) : SectionFragment ν :=
  ⟨none, [], [], [[(units "source", .str source.name),
    (units "reason", .str (units "database_unavailable"))]], []⟩

/-- mirrors server/tools/context-pack-guidance.ts:293-360 -/
def loadGuidanceSection (src : Sources ν) (key : SectionKey) : SectionFragment ν :=
  match src.guidance key with
  | none => databaseUnavailableFragment key
  | some (l, keyless) => ⟨some (guidanceBody N key keyless l), [], l.truncation, [], l.citations⟩

/-- mirrors server/tools/context-pack-repo-facts.ts:318-390 -/
def loadRepoFactsSection (src : Sources ν) : SectionFragment ν :=
  match src.repo with
  | none =>
    ⟨some (repoFactsBody N none ⟨[], [], []⟩), [[(units "source", .str (units "repo_facts")),
      (units "reasons", .arr [.str (units "no_active_repo")])]], [], [], []⟩
  | some repo =>
    match src.repoFacts with
    | none => databaseUnavailableFragment .repoFacts
    | some l => ⟨some (repoFactsBody N (some repo) l), [], l.truncation, [], l.citations⟩

/-- mirrors server/tools/context-pack-pointers.ts:119-198 -/
def buildPointerSection (src : Sources ν) (durableIdentities : List Str) : SectionFragment ν :=
  let l := src.pointers durableIdentities
  ⟨some (pointersBody N l), [], l.truncation, [], l.citations⟩

/-- mirrors server/tools/context-pack-pointers.ts:220-242 -/
def buildCandidateSection : SectionFragment ν := ⟨some (candidateBody N), [], [], [], []⟩

/-- mirrors server/tools/context-pack-loaders.ts:172-176 -/
def foldSharedRecallWarnings (pending : Bool) (memory : Option (MemoryContext ν))
    (f : SectionFragment ν) : SectionFragment ν :=
  match pending, memory with
  | true, some m => { f with
      scopeDenials := f.scopeDenials ++ m.scopeDenials
      degradedSources := f.degradedSources ++ m.degradedSources }
  | _, _ => f

def admitWhen (selected : Bool) (key : SectionKey) (fragment : SectionFragment ν)
    (st : StructuredAccumulator ν × PackAllocator ν) : StructuredAccumulator ν × PackAllocator ν :=
  if selected then admitStructuredSection N st.1 st.2 key fragment else st

/-- mirrors server/tools/context-pack-assembly.ts:202-246 and
context-pack-loaders.ts:83-113,161-211 -/
def buildStructuredSections (sel : SectionSelection) (src : Sources ν)
    (memory : Option (MemoryContext ν)) (memoryBody : Option (Members ν)) (a : PackAllocator ν) :
    StructuredAccumulator ν × PackAllocator ν :=
  let pending := sel.durableMemory && !sel.durableMemorySection
  let durableIdentities :=
    ((memoryBody.map itemsOf).getD []).filterMap (strField (units "citation_id"))
  let st := (⟨[], [], [], [], []⟩, a)
  let st := admitWhen N sel.profileGuidance .profileGuidance
    (loadGuidanceSection N src .profileGuidance) st
  let st := admitWhen N sel.processGuidance .processGuidance
    (loadGuidanceSection N src .processGuidance) st
  let st := admitWhen N sel.repoFacts .repoFacts (loadRepoFactsSection N src) st
  let st := admitWhen N sel.pointers .pointers
    (foldSharedRecallWarnings pending memory (buildPointerSection N src durableIdentities)) st
  admitWhen N sel.candidateMemory .candidateMemory
    (foldSharedRecallWarnings (pending && !sel.pointers) memory (buildCandidateSection N)) st

/-- mirrors server/tools/context-pack-payload.ts:37-51 -/
def assembleSections (workingSet recovery durableLane durableMemory : Option (Members ν))
    (structured : List (SectionKey × Members ν)) : Members ν :=
  let put (sections : Members ν) (key : SectionKey) (s : Option (Members ν)) : Members ν :=
    match s with
    | some body => sections.set key.name (.obj body)
    | none => sections
  let sections := put [] .workingSet workingSet
  let sections := put sections .recovery recovery
  let sections := put sections .durableLaneContext durableLane
  let sections := put sections .durableMemory durableMemory
  structured.foldl (fun sections ks => put sections ks.1 (some ks.2)) sections

/-- mirrors server/tools/context-pack-payload.ts:126-133 -/
structure WholePackReport where
  contentCharLimit : Nat
  contentCharsUsed : Nat
  allocationOrder : List SectionKey
  deriving DecidableEq, Repr

def wholePackReport (a : PackAllocator ν) : Option WholePackReport :=
  (wholePackSerializedLimitFor a.wholePackBudget).map fun limit =>
    ⟨limit, charsUsed a, SectionKey.priority⟩

/-- The three warning channels.
mirrors server/tools/context-pack-payload.ts:104-123 -/
structure Warnings (ν : Type) where
  scopeDenials : List (Members ν)
  degradedSources : List (Members ν)
  truncation : List (Members ν)

structure Pack (ν : Type) where
  sections : Members ν
  warnings : Warnings ν
  wholePack : Option WholePackReport
  citations : List (Members ν)

/-- mirrors server/tools/agent-context-pack.ts:146-250 -/
def buildAgentContextPack (maxTokens : Option Nat) (sel : SectionSelection) (src : Sources ν) :
    Pack ν :=
  let a := createAllocator (wholePackBudgetFor maxTokens)
  let ws := if sel.workingSet then some src.workingSet else none
  let rc := if sel.recovery then some src.recovery else none
  let (a, workingSet) := admitAppendSection N a .workingSet (ws.bind AppendFragment.body)
    [units "item_count"]
  let (a, recovery) := admitAppendSection N a .recovery (rc.bind AppendFragment.body)
    [units "item_count", units "pending_count"]
  let laneServing := sectionServing a .durableLaneContext
  let lane := if sel.durableLaneContext then some (src.lane laneServing.contentLimit) else none
  let (a, laneAdmission) := admitDurableLaneSection N a (lane.bind LaneContext.body)
    ((lane.map LaneContext.citations).getD []) laneServing.frame laneServing.serving
  let memoryServing := sectionServing a .durableMemory
  let memory := if sel.durableMemory then some (src.memory memoryServing.contentLimit) else none
  let requested := if sel.durableMemorySection then memory else none
  let (a, memoryAdmission) := admitDurableMemorySection N a
    (requested.map fun m => m.«recall».section N)
    ((requested.map MemoryContext.citations).getD []) memoryServing.frame memoryServing.serving
  let (structured, a) := buildStructuredSections N sel src memory memoryAdmission.body a
  { sections := assembleSections workingSet recovery laneAdmission.body memoryAdmission.body
      structured.sections
    warnings :=
      { scopeDenials := (ws.map AppendFragment.scopeDenials).getD [] ++
          (rc.map AppendFragment.scopeDenials).getD [] ++
          (lane.map LaneContext.scopeDenials).getD [] ++
          (requested.map MemoryContext.scopeDenials).getD [] ++ structured.scopeDenials
        degradedSources := (lane.map LaneContext.degradedSources).getD [] ++
          (requested.map MemoryContext.degradedSources).getD [] ++ structured.degradedSources
        truncation :=
          (if laneAdmission.body.isSome then (lane.map LaneContext.truncation).getD [] else []) ++
          (if memoryAdmission.body.isSome then (memory.map MemoryContext.truncation).getD []
            else []) ++
          a.truncation ++ structured.truncation }
    wholePack := wholePackReport a
    citations := laneAdmission.citations ++ memoryAdmission.citations ++ structured.citations }

end OpenBrain.Server.ContextPack
