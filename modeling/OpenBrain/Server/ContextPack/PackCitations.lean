import OpenBrain.Server.ContextPack.Citations

/-!
# The citations of a whole pack

`Cites` says of the loaders' answers that each section comes with one citation
an item. `pack_cites` reads the finished pack off: what it emits of each section
is `Shown`, its citations are those of everything it emits, and the pointers
were selected against the items `durable_memory` retained.

Over the rows of a request (`PackRequest`, `PackStores`), `citations_bijective` says
when that makes a pack's citations a bijection with its items.
-/
namespace OpenBrain.Server.ContextPack

open OpenBrain.Core

variable {ν : Type} {N : Ecma.Numbers ν}

/-! ## Any pack -/

theorem name_eq_iff (key key' : SectionKey) : key.name = key'.name ↔ key = key' := by
  constructor
  · cases key <;> cases key' <;> decide
  · rintro rfl
    rfl

def slotIds (key : SectionKey) (s : Option (Members ν)) : List Str :=
  if key = .durableLaneContext then laneBodyIds s else bodyIds s

theorem flatMap_emitted (key : SectionKey) (s : Option (Members ν)) :
    (asMembers (emitted key s)).flatMap sectionIds = slotIds key s := by
  cases s with
  | none =>
    unfold slotIds
    split <;> rfl
  | some body =>
    simp [asMembers, emitted, sectionIds, name_eq_iff, slotIds, laneBodyIds, bodyIds]

theorem filter_emitted (key key' : SectionKey) (s : Option (Members ν)) :
    ((asMembers (emitted key s)).filter fun m => decide (m.1 = key'.name)) =
      if key = key' then asMembers (emitted key s) else [] := by
  cases s with
  | none => simp [asMembers, emitted]
  | some body =>
    by_cases h : key = key' <;> simp [asMembers, emitted, name_eq_iff, h]

theorem asMembers_append (xs ys : List (SectionKey × Members ν)) :
    asMembers (xs ++ ys) = asMembers xs ++ asMembers ys := List.map_append

/-- The answer of a lane read, with the ids it is loaded with. -/
def LaneLoads (context : LaneContext ν) (loaded : List Str) : Prop :=
  match context.body with
  | none => loaded = []
  | some s => ∃ laneId events, CitesLane s context.citations laneId events ∧
      loaded = laneId :: events

/-- The sections are loaded with one citation an item; the append stores' items
have none. -/
structure Cites (N : Ecma.Numbers ν) (src : Sources ν) (lane memory : Option Nat → List Str)
    (guidance : SectionKey → List Str) (facts : List Str) (pointers : List Str → List Str) :
    Prop where
  workingSet : ∀ body, src.workingSet.body = some body → citationIds (itemsOf body) = []
  recovery : ∀ body, src.recovery.body = some body → citationIds (itemsOf body) = []
  lane : ∀ limit, LaneLoads (src.lane limit) (lane limit)
  memory : ∀ limit, CitesAll (itemsOf ((src.memory limit).«recall».section N).body)
    (src.memory limit).citations (memory limit)
  guidance : ∀ key, Loads (loadGuidanceSection N src key) (guidance key)
  repoFacts : Loads (loadRepoFactsSection N src) facts
  pointers : ∀ durable, Loads (buildPointerSection N src durable) (pointers durable)

theorem Loads.fold {fragment : SectionFragment ν} {loaded : List Str} (h : Loads fragment loaded)
    (pending : Bool) (memory : Option (MemoryContext ν)) :
    Loads (foldSharedRecallWarnings pending memory fragment) loaded := by
  cases pending <;> cases memory <;> exact h

theorem loads_candidate : Loads (buildCandidateSection N) [] :=
  ⟨rfl, rfl, List.nodup_nil⟩

theorem structured_cites {src : Sources ν} {lane memory : Option Nat → List Str}
    {guidance : SectionKey → List Str} {facts : List Str} {pointers : List Str → List Str}
    (h : Cites N src lane memory guidance facts pointers) (sel : SectionSelection)
    (context : Option (MemoryContext ν)) (memoryBody : Option (Members ν)) (a : PackAllocator ν) :
    ∃ s1 s2 s3 s4 s5 c1 c2 c3 c4 c5,
      (buildStructuredSections N sel src context memoryBody a).1.sections =
        emitted .profileGuidance s1 ++ emitted .processGuidance s2 ++ emitted .repoFacts s3 ++
          emitted .pointers s4 ++ emitted .candidateMemory s5 ∧
      (buildStructuredSections N sel src context memoryBody a).1.citations =
        c1 ++ c2 ++ c3 ++ c4 ++ c5 ∧
      Shown a.wholePackBudget (if sel.profileGuidance then guidance .profileGuidance else [])
        (bodyIds s1) c1 ∧
      Shown a.wholePackBudget (if sel.processGuidance then guidance .processGuidance else [])
        (bodyIds s2) c2 ∧
      Shown a.wholePackBudget (if sel.repoFacts then facts else []) (bodyIds s3) c3 ∧
      Shown a.wholePackBudget (if sel.pointers then pointers (bodyIds memoryBody) else [])
        (bodyIds s4) c4 ∧
      Shown a.wholePackBudget [] (bodyIds s5) c5 := by
  have hdurable : ((memoryBody.map itemsOf).getD []).filterMap (strField (units "citation_id")) =
      bodyIds memoryBody := by
    cases memoryBody <;> rfl
  unfold buildStructuredSections
  dsimp only
  rw [hdurable]
  -- one step for each section: what it adds, then the state after it by name
  obtain ⟨s1, c1, hs1, hc1, hb1, h1⟩ := admitWhen_shown (N := N) sel.profileGuidance
    .profileGuidance (h.guidance .profileGuidance)
    ((⟨[], [], [], [], []⟩ : StructuredAccumulator ν), a)
  generalize admitWhen N sel.profileGuidance _ _ _ = st1 at hs1 hc1 hb1 ⊢
  obtain ⟨s2, c2, hs2, hc2, hb2, h2⟩ := admitWhen_shown (N := N) sel.processGuidance
    .processGuidance (h.guidance .processGuidance) st1
  generalize admitWhen N sel.processGuidance _ _ _ = st2 at hs2 hc2 hb2 ⊢
  obtain ⟨s3, c3, hs3, hc3, hb3, h3⟩ := admitWhen_shown (N := N) sel.repoFacts
    .repoFacts h.repoFacts st2
  generalize admitWhen N sel.repoFacts _ _ _ = st3 at hs3 hc3 hb3 ⊢
  obtain ⟨s4, c4, hs4, hc4, hb4, h4⟩ := admitWhen_shown (N := N) sel.pointers
    .pointers ((h.pointers (bodyIds memoryBody)).fold
      (sel.durableMemory && !sel.durableMemorySection) context) st3
  generalize admitWhen N sel.pointers _ _ _ = st4 at hs4 hc4 hb4 ⊢
  obtain ⟨s5, c5, hs5, hc5, -, h5⟩ := admitWhen_shown (N := N) sel.candidateMemory
    .candidateMemory ((loads_candidate (N := N)).fold
      (sel.durableMemory && !sel.durableMemorySection && !sel.pointers) context) st4
  have h5' : Shown st4.2.wholePackBudget [] (bodyIds s5) c5 := by
    revert h5
    cases sel.candidateMemory <;> exact id
  rw [hb1] at h2 hb2
  rw [hb2] at h3 hb3
  rw [hb3] at h4 hb4
  rw [hb4] at h5'
  refine ⟨s1, s2, s3, s4, s5, c1, c2, c3, c4, c5, ?_, ?_, h1, h2, h3, h4, h5'⟩
  · rw [hs5, hs4, hs3, hs2, hs1, List.nil_append]
  · rw [hc5, hc4, hc3, hc2, hc1, List.nil_append]

/-- What a pack shows of the ids its sections were loaded with: some of them,
all of those of the lane and of the guidance when nothing is bounded. -/
structure PackShown (maxTokens : Option Nat) (p : Pack ν)
    (lane memory profile process facts : List Str) (pointers : List Str → List Str) : Prop where
  all_eq : emittedIds p = idsUnder p .durableLaneContext ++ idsUnder p .durableMemory ++
    idsUnder p .profileGuidance ++ idsUnder p .processGuidance ++ idsUnder p .repoFacts ++
    idsUnder p .pointers
  cited : (citedIds p).Perm ((emittedIds p).map some)
  lane_sub : (idsUnder p .durableLaneContext).Sublist lane
  memory_sub : (idsUnder p .durableMemory).Sublist memory
  profile_sub : (idsUnder p .profileGuidance).Sublist profile
  process_sub : (idsUnder p .processGuidance).Sublist process
  facts_sub : (idsUnder p .repoFacts).Sublist facts
  pointers_sub : (idsUnder p .pointers).Sublist (pointers (idsUnder p .durableMemory))
  whole : maxTokens = none → idsUnder p .durableLaneContext = lane ∧
    idsUnder p .profileGuidance = profile ∧ idsUnder p .processGuidance = process

/-- The ids of the lane, of the memory and of the structured sections of a pack
put together from them. -/
theorem idsUnder_of_sections {p : Pack ν} {lane memory s1 s2 s3 s4 s5 ws rc : Option (Members ν)}
    (hws : bodyIds ws = []) (hrc : bodyIds rc = []) (h5 : bodyIds s5 = [])
    (h : p.sections = asMembers (emitted .workingSet ws ++
      emitted .recovery rc ++ emitted .durableLaneContext lane ++
      emitted .durableMemory memory ++
      (emitted .profileGuidance s1 ++ emitted .processGuidance s2 ++
        emitted .repoFacts s3 ++ emitted .pointers s4 ++
        emitted .candidateMemory s5))) :
    idsUnder p .durableLaneContext = laneBodyIds lane ∧ idsUnder p .durableMemory = bodyIds memory ∧
    idsUnder p .profileGuidance = bodyIds s1 ∧ idsUnder p .processGuidance = bodyIds s2 ∧
    idsUnder p .repoFacts = bodyIds s3 ∧ idsUnder p .pointers = bodyIds s4 ∧
    emittedIds p = laneBodyIds lane ++ bodyIds memory ++ bodyIds s1 ++ bodyIds s2 ++ bodyIds s3 ++
      bodyIds s4 := by
  simp [idsUnder, emittedIds, h, asMembers_append, List.filter_append, filter_emitted,
    flatMap_emitted, slotIds, hws, hrc, h5]

variable {src : Sources ν} {lane memory : Option Nat → List Str} {guidance : SectionKey → List Str}
  {facts : List Str} {pointers : List Str → List Str}

theorem counts_ne_items_one : ∀ k ∈ [units "item_count"], k ≠ units "items" := by
  simp
  decide

theorem counts_ne_items_two :
    ∀ k ∈ [units "item_count", units "pending_count"], k ≠ units "items" := by
  simp
  decide

theorem lane_admitted (a : PackAllocator ν) (selected : Bool) {context : LaneContext ν}
    {loaded : List Str} (h : LaneLoads context loaded) :
    let asked := if selected then some context else none
    let admission := admitDurableLaneSection N a (asked.bind LaneContext.body)
      ((asked.map LaneContext.citations).getD []) (sectionServing a .durableLaneContext).frame
      (sectionServing a .durableLaneContext).serving
    Shown a.wholePackBudget (if selected then loaded else []) (laneBodyIds admission.2.body)
      admission.2.citations := by
  have hnothing : Shown a.wholePackBudget [] (laneBodyIds (none : Option (Members ν)))
      ([] : List (Members ν)) := ⟨List.Sublist.refl _, fun _ => rfl, List.Perm.refl _⟩
  cases selected with
  | false => exact hnothing
  | true =>
    cases hb : context.body with
    | none =>
      simp only [LaneLoads, hb] at h
      simpa [hb, h, admitDurableLaneSection] using hnothing
    | some s =>
      simp only [LaneLoads, hb] at h
      obtain ⟨laneId, events, hcites, rfl⟩ := h
      simpa [hb] using lane_shown (N := N) a hcites

theorem memory_admitted (a : PackAllocator ν) (recalled selected : Bool)
    {context : MemoryContext ν} {loaded : List Str}
    (h : CitesAll (itemsOf (context.«recall».section N).body) context.citations loaded) :
    let memory := if recalled then some context else none
    let requested := if selected then memory else none
    let admission := admitDurableMemorySection N a
      (requested.map fun m => m.«recall».section N)
      ((requested.map MemoryContext.citations).getD []) (sectionServing a .durableMemory).frame
      (sectionServing a .durableMemory).serving
    Shown a.wholePackBudget (if selected && recalled then loaded else [])
      (bodyIds admission.2.body) admission.2.citations := by
  have hnothing : Shown a.wholePackBudget [] (bodyIds (none : Option (Members ν)))
      ([] : List (Members ν)) := ⟨List.Sublist.refl _, fun _ => rfl, List.Perm.refl _⟩
  cases selected with
  | false => exact hnothing
  | true =>
    cases recalled with
    | false => exact hnothing
    | true => exact memory_shown (N := N) a _ h

/-- A finished pack shows its sections' ids and cites exactly what it shows. -/
theorem pack_cites (h : Cites N src lane memory guidance facts pointers)
    (maxTokens : Option Nat) (sel : SectionSelection) :
    ∃ laneLimit memoryLimit, (maxTokens = none → laneLimit = none) ∧
      PackShown maxTokens (buildAgentContextPack N maxTokens sel src)
        (if sel.durableLaneContext then lane laneLimit else [])
        (if sel.durableMemorySection && sel.durableMemory then memory memoryLimit else [])
        (if sel.profileGuidance then guidance .profileGuidance else [])
        (if sel.processGuidance then guidance .processGuidance else [])
        (if sel.repoFacts then facts else [])
        (fun durable => if sel.pointers then pointers durable else []) := by
  have hbudget : maxTokens = none → wholePackBudgetFor maxTokens = none := by
    rintro rfl
    rfl
  unfold buildAgentContextPack
  dsimp only
  -- one step for each of the five calls: the budget it leaves and what it shows
  have h0 : (createAllocator (wholePackBudgetFor maxTokens) : PackAllocator ν).wholePackBudget =
      wholePackBudgetFor maxTokens := rfl
  generalize createAllocator (wholePackBudgetFor maxTokens) = a0 at h0 ⊢
  generalize hws : (if sel.workingSet then some src.workingSet else none) = ws
  have hws' : ∀ body, ws.bind AppendFragment.body = some body → citationIds (itemsOf body) = [] := by
    subst hws
    cases sel.workingSet
    · simp
    · simpa using h.workingSet
  have h1 := append_uncited (N := N) a0 .workingSet (counts_ne_items_one) hws'
  have hb1 := admitAppendSection_budget (N := N) a0 .workingSet (ws.bind AppendFragment.body)
    [units "item_count"]
  generalize admitAppendSection N a0 .workingSet _ [units "item_count"] = p1 at h1 hb1 ⊢
  obtain ⟨a1, workingSet⟩ := p1
  generalize hrc : (if sel.recovery then some src.recovery else none) = rc
  have hrc' : ∀ body, rc.bind AppendFragment.body = some body → citationIds (itemsOf body) = [] := by
    subst hrc
    cases sel.recovery
    · simp
    · simpa using h.recovery
  have h2 := append_uncited (N := N) a1 .recovery (counts_ne_items_two) hrc'
  have hb2 := admitAppendSection_budget (N := N) a1 .recovery (rc.bind AppendFragment.body)
    [units "item_count", units "pending_count"]
  generalize admitAppendSection N a1 .recovery _ [units "item_count", units "pending_count"] = p2
    at h2 hb2 ⊢
  obtain ⟨a2, recovery⟩ := p2
  dsimp only at h1 h2 hb1 hb2 ⊢
  rw [hb1, h0] at hb2
  -- the lane
  have h3 := lane_admitted (N := N) a2 sel.durableLaneContext (h.lane (sectionServing a2
    .durableLaneContext).contentLimit)
  have hb3 := admitDurableLaneSection_budget (N := N) a2
    ((if sel.durableLaneContext then some (src.lane (sectionServing a2
      .durableLaneContext).contentLimit) else none).bind LaneContext.body)
    (((if sel.durableLaneContext then some (src.lane (sectionServing a2
      .durableLaneContext).contentLimit) else none).map LaneContext.citations).getD [])
  have hlimit : maxTokens = none → (sectionServing a2 .durableLaneContext).contentLimit = none := by
    intro hm
    simp [sectionServing, hb2, hbudget hm]
  generalize (sectionServing a2 .durableLaneContext).contentLimit = laneLimit at h3 hb3 hlimit ⊢
  dsimp only at h3
  generalize admitDurableLaneSection N a2 _ _ _ _ = p3 at h3 hb3 ⊢
  obtain ⟨a3, laneAdmission⟩ := p3
  dsimp only at h3 hb3 ⊢
  rw [hb2] at h3 hb3
  -- durable memory
  have h4 := memory_admitted (N := N) a3 sel.durableMemory sel.durableMemorySection
    (h.memory (sectionServing a3 .durableMemory).contentLimit)
  have hb4 := admitDurableMemorySection_budget (N := N) a3
    ((if sel.durableMemorySection then (if sel.durableMemory then some (src.memory
      (sectionServing a3 .durableMemory).contentLimit) else none) else none).map
        fun m => m.«recall».section N)
    (((if sel.durableMemorySection then (if sel.durableMemory then some (src.memory
      (sectionServing a3 .durableMemory).contentLimit) else none) else none).map
        MemoryContext.citations).getD []) (sectionServing a3 .durableMemory).frame
    (sectionServing a3 .durableMemory).serving
  generalize (sectionServing a3 .durableMemory).contentLimit = memoryLimit at h4 hb4 ⊢
  dsimp only at h4
  generalize admitDurableMemorySection N a3 _ _ _ _ = p4 at h4 hb4 ⊢
  obtain ⟨a4, memoryAdmission⟩ := p4
  dsimp only at h4 hb4 ⊢
  rw [hb3] at h4 hb4
  -- the structured sections
  obtain ⟨s1, s2, s3, s4, s5, c1, c2, c3, c4, c5, hsec, hcit, g1, g2, g3, g4, g5⟩ :=
    structured_cites h sel (if sel.durableMemory then some (src.memory memoryLimit) else none)
      memoryAdmission.body a4
  have hkeys := buildStructuredSections_keys (N := N) sel src
    (if sel.durableMemory then some (src.memory memoryLimit) else none) memoryAdmission.body a4
  generalize buildStructuredSections N sel src _ _ _ = p5 at hsec hcit hkeys ⊢
  obtain ⟨structured, a5⟩ := p5
  dsimp only at hsec hcit hkeys ⊢
  rw [hb4] at g1 g2 g3 g4 g5
  have hs5 : bodyIds s5 = [] := List.eq_nil_of_sublist_nil g5.some_of
  refine ⟨laneLimit, memoryLimit, hlimit, ?_⟩
  generalize hp : (⟨_, _, _, _⟩ : Pack ν) = p
  have hpsec : p.sections = asMembers (emitted .workingSet workingSet ++
      emitted .recovery recovery ++ emitted .durableLaneContext laneAdmission.body ++
      emitted .durableMemory memoryAdmission.body ++ structured.sections) := by
    rw [← hp]
    exact assembleSections_eq _ _ _ _ _ hkeys
  rw [hsec] at hpsec
  have hpcit : p.citations = laneAdmission.citations ++ memoryAdmission.citations ++
      structured.citations := by
    rw [← hp]
  obtain ⟨e1, e2, e3, e4, e5, e6, eall⟩ := idsUnder_of_sections h1 h2 hs5 hpsec
  constructor
  · rw [eall, e1, e2, e3, e4, e5, e6]
  · have hc5 : (citedBy c5).Perm [] := by
      have := g5.cited
      rwa [hs5] at this
    have hall := ((((((h3.cited.append h4.cited).append g1.cited).append g2.cited).append
      g3.cited).append g4.cited).append hc5)
    rw [citedIds, hpcit, hcit, eall]
    simpa [citedBy, List.append_assoc] using hall
  · exact e1 ▸ h3.some_of
  · exact e2 ▸ h4.some_of
  · exact e3 ▸ g1.some_of
  · exact e4 ▸ g2.some_of
  · exact e5 ▸ g3.some_of
  · rw [e6, e2]
    have hptr := g4.some_of
    revert hptr
    cases sel.pointers <;> exact id
  · intro hm
    have hw := hbudget hm
    exact ⟨e1.trans (h3.all_of hw), e3.trans (g1.all_of hw), e4.trans (g2.all_of hw)⟩

end OpenBrain.Server.ContextPack
