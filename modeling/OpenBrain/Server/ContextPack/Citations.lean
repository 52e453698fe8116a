import OpenBrain.Server.ContextPack.StructuredLoaders
import OpenBrain.Server.ContextPack.Pointers
import OpenBrain.Server.ContextPack.Emission

/-!
# Citations and items of a pack

`citedIds p` are the ids of a pack's citations, `emittedIds p` the citation ids
of the items and events its sections emit and of its lane. Each section is
loaded with one citation an item; `Shown` keeps, through the fits and re-fits,
that what is emitted of it is cited exactly.

A lane event and the guidance promoted from it carry one and the same id, so
the list of citations is free of duplicates only when no event is in both.
-/
namespace OpenBrain.Server.ContextPack

open OpenBrain.Core List

variable {ν : Type} {N : Ecma.Numbers ν}

/-! ## The ids of a pack -/

/-- `section.lane.citation_id` and the events' ids. -/
def laneIds (s : Members ν) : List Str :=
  ((laneOf s).bind fun lane => strField (units "citation_id") (.obj lane)).toList ++
    citationIds (eventsOf s)

/-- The citation ids under one member of the pack's `sections`. -/
def sectionIds (m : Str × Json ν) : List Str :=
  match m.2 with
  | .obj s =>
    if m.1 = SectionKey.durableLaneContext.name then laneIds s else citationIds (itemsOf s)
  | _ => []

def emittedIds (p : Pack ν) : List Str := p.sections.flatMap sectionIds

def citedIds (p : Pack ν) : List (Option Str) := citedBy p.citations

def idsUnder (p : Pack ν) (key : SectionKey) : List Str :=
  (p.sections.filter fun m => decide (m.1 = key.name)).flatMap sectionIds

/-! ## Reconciling -/

/-- Filtering the citations by the ids of some of the items leaves the citations
of these items. -/
theorem reconcile_citedBy {citations : List (Members ν)} {ids kept : List Str}
    (hcited : citedBy citations = ids.map some) (hnodup : ids.Nodup) (hsub : kept.Sublist ids) :
    citedBy (citations.filter fun c => (strField (units "id") (.obj c)).any kept.contains) =
      kept.map some := by
  induction citations generalizing ids kept with
  | nil =>
    have : ids = [] := by simpa [citedBy] using hcited.symm
    subst this
    rw [eq_nil_of_sublist_nil hsub]
    rfl
  | cons c citations ih =>
    cases ids with
    | nil => simp [citedBy] at hcited
    | cons i ids =>
      simp only [citedBy, map_cons, List.cons.injEq] at hcited
      obtain ⟨hc, hcited⟩ := hcited
      obtain ⟨hi, hnodup⟩ := nodup_cons.mp hnodup
      rcases sublist_cons_iff.mp hsub with hsub | ⟨kept', rfl, hsub⟩
      · -- the item is gone, and nothing else carries its id
        have hout : i ∉ kept := fun h => hi (hsub.subset h)
        rw [filter_cons_of_neg (by simp [hc, hout])]
        exact ih hcited hnodup hsub
      · rw [filter_cons_of_pos (by simp [hc])]
        have hrest : citations.filter (fun c =>
            (strField (units "id") (.obj c)).any (i :: kept').contains) =
            citations.filter fun c => (strField (units "id") (.obj c)).any kept'.contains := by
          refine filter_congr fun d hd => ?_
          have hmem : strField (units "id") (.obj d) ∈ ids.map some := by
            rw [← hcited]
            exact mem_map_of_mem hd
          obtain ⟨j, hj, hdj⟩ := mem_map.mp hmem
          have hne : j ≠ i := fun h => hi (h ▸ hj)
          simp [← hdj, hne]
        rw [hrest, citedBy, map_cons, map_cons, hc]
        exact congrArg _ (ih hcited hnodup (cons_sublist_cons.mp hsub))

theorem citationIds_sublist {kept items : List (Json ν)} (h : kept.Sublist items) :
    (citationIds kept).Sublist (citationIds items) := h.filterMap _

/-- What is shown of `loaded` ids under an allowance: some of them, all without
one, and `citations` cite exactly those. -/
structure Shown (budget : Option Nat) (loaded : List Str) (shown : List Str)
    (citations : List (Members ν)) : Prop where
  some_of : shown.Sublist loaded
  all_of : budget = none → shown = loaded
  cited : (citedBy citations).Perm (shown.map some)

def bodyIds (s : Option (Members ν)) : List Str :=
  (s.map fun body => citationIds (itemsOf body)).getD []

/-- The items carry the ids `loaded`, each once, and `citations` cite them. -/
structure CitesAll (items : List (Json ν)) (citations : List (Members ν)) (loaded : List Str) :
    Prop where
  ids : citationIds items = loaded
  cited : citedBy citations = loaded.map some
  nodup : loaded.Nodup

theorem CitesAll.shown {items kept : List (Json ν)} {citations : List (Members ν)}
    {loaded : List Str} {budget : Option Nat} (h : CitesAll items citations loaded)
    (hsub : kept.Sublist items) (hall : budget = none → kept = items) :
    Shown budget loaded (citationIds kept) (reconcileCitedItemCitations citations kept) := by
  have hkept : (citationIds kept).Sublist loaded := h.ids ▸ citationIds_sublist hsub
  exact ⟨hkept, fun hb => hall hb ▸ h.ids,
    List.Perm.of_eq (reconcile_citedBy h.cited h.nodup hkept)⟩

theorem CitesAll.whole {items : List (Json ν)} {citations : List (Members ν)}
    {loaded : List Str} {budget : Option Nat} (h : CitesAll items citations loaded) :
    Shown budget loaded (citationIds items) citations := by
  rw [h.ids]
  exact ⟨List.Sublist.refl _, fun _ => rfl, List.Perm.of_eq h.cited⟩

theorem Shown.nothing (loaded : List Str) {budget : Option Nat} (h : budget ≠ none) :
    Shown budget loaded [] ([] : List (Members ν)) :=
  ⟨nil_sublist _, fun hb => absurd hb h, List.Perm.refl _⟩

/-! ## Durable memory and the lane -/

theorem memory_shown (a : PackAllocator ν) (s : FlaggedBody ν) {citations : List (Members ν)}
    {loaded : List Str} (h : CitesAll (itemsOf s.body) citations loaded) :
    let admitted := (admitDurableMemorySection N a (some s) citations
      (sectionServing a .durableMemory).frame (sectionServing a .durableMemory).serving).2
    Shown a.wholePackBudget loaded (bodyIds admitted.body) admitted.citations := by
  intro admitted
  rcases admitted_memory (N := N) a s citations with
    ⟨-, hbody, hcit⟩ | ⟨hfit, kept, hsub, hrest⟩
  · rw [show admitted.body = some s.body from hbody]
    rcases hcit with hcit | hcit
    · rw [show admitted.citations = citations from hcit]
      exact h.whole
    · rw [show admitted.citations = _ from hcit]
      exact h.shown (List.Sublist.refl _) fun _ => rfl
  · have hbudget : a.wholePackBudget ≠ none := by
      intro hb
      simp [sectionServing, hb, fits] at hfit
    rcases hrest with ⟨-, hbody, hcit⟩ | ⟨-, -, hbody, hcit⟩
    · rw [show admitted.body = _ from hbody, show admitted.citations = _ from hcit, bodyIds,
        Option.map_some, Option.getD_some, itemsOf_reconcile]
      exact h.shown (hsub.trans (dropLast_sublist _)) fun hb => absurd hb hbudget
    · rw [show admitted.body = none from hbody, show admitted.citations = [] from hcit]
      exact Shown.nothing loaded hbudget

theorem admitDurableMemorySection_budget (a : PackAllocator ν) (s : Option (FlaggedBody ν))
    (citations : List (Members ν)) (frame : Nat) (serving : Option Nat) :
    (admitDurableMemorySection N a s citations frame serving).1.wholePackBudget =
      a.wholePackBudget := by
  cases s with
  | none => rfl
  | some s =>
    unfold admitDurableMemorySection
    dsimp only
    split
    · rfl
    · split
      · rfl
      · dsimp only
        split <;> rfl

/-- A lane section with its id, its events' ids, and one citation for each, the
lane's first and the events' newest first. -/
structure CitesLane (s : Members ν) (citations : List (Members ν)) (laneId : Str)
    (events : List Str) : Prop where
  lane : (laneOf s).bind (fun lane => strField (units "citation_id") (.obj lane)) = some laneId
  ids : citationIds (eventsOf s) = events
  nodup : events.Nodup
  cited : ∃ c cs, citations = c :: cs ∧ strField (units "id") (.obj c) = some laneId ∧
    strField (units "kind") (.obj c) ≠ some (units "session_event") ∧
    (∀ d ∈ cs, strField (units "kind") (.obj d) = some (units "session_event")) ∧
    citedBy cs = events.reverse.map some

theorem CitesLane.laneIds {s : Members ν} {citations : List (Members ν)} {laneId : Str}
    {events : List Str} (h : CitesLane s citations laneId events) :
    laneIds s = laneId :: events := by
  rw [ContextPack.laneIds, h.lane, h.ids]
  rfl

theorem eventsOf_rebuild (s : Members ν) (lane : Option (Members ν)) (kept : List (Json ν))
    (contextMd : Json ν) : eventsOf (rebuildDurableLaneSection N s lane kept contextMd) = kept := by
  unfold eventsOf rebuildDurableLaneSection
  cases lane with
  | none =>
    dsimp only
    rw [Members.get?_set_ne _ _ (by decide), Members.get?_set_ne _ _ (by decide),
      Members.get?_set_self]
  | some lane =>
    dsimp only
    rw [Members.get?_set_ne _ _ (by decide), Members.get?_set_ne _ _ (by decide),
      Members.get?_set_ne _ _ (by decide), Members.get?_set_self]

theorem laneOf_rebuild (s lane : Members ν) (kept : List (Json ν)) (contextMd : Json ν) :
    (laneOf (rebuildDurableLaneSection N s (some lane) kept contextMd)).bind
        (fun l => strField (units "citation_id") (.obj l)) =
      strField (units "citation_id") (.obj lane) := by
  have hlane : laneOf (rebuildDurableLaneSection N s (some lane) kept contextMd) =
      some (lane.set (units "current_context_md") contextMd) := by
    unfold laneOf rebuildDurableLaneSection
    dsimp only
    rw [Members.get?_set_ne _ _ (by decide), Members.get?_set_self]
  rw [hlane, Option.bind_some, strField, strField, Members.get?_set_ne _ _ (by decide)]

theorem CitesLane.rebuilt {s : Members ν} {citations : List (Members ν)} {laneId : Str}
    {events : List Str} (h : CitesLane s citations laneId events) (kept : List (Json ν))
    (contextMd : Json ν) :
    ContextPack.laneIds (rebuildDurableLaneSection N s (laneOf s) kept contextMd) =
      laneId :: citationIds kept := by
  obtain ⟨lane, hlane, hid⟩ := Option.bind_eq_some_iff.mp h.lane
  rw [ContextPack.laneIds, eventsOf_rebuild, hlane, laneOf_rebuild, hid]
  rfl

theorem CitesLane.reconciled {s : Members ν} {citations : List (Members ν)} {laneId : Str}
    {events : List Str} (h : CitesLane s citations laneId events) {kept : List (Json ν)}
    (hsub : kept.Sublist (eventsOf s)) :
    (citedBy (reconcileDurableCitations citations kept)).Perm
      ((laneId :: citationIds kept).map some) := by
  obtain ⟨c, cs, rfl, hid, hkind, hevents, hcited⟩ := h.cited
  have hkept : (citationIds kept).Sublist events := h.ids ▸ citationIds_sublist hsub
  have hfilter : reconcileDurableCitations (c :: cs) kept = c :: cs.filter fun d =>
      (strField (units "id") (.obj d)).any (citationIds kept).reverse.contains := by
    have hrev : (citationIds kept).reverse.contains = (citationIds kept).contains :=
      funext fun i => by simp
    unfold reconcileDurableCitations
    rw [filter_cons_of_pos (by simp [hkind])]
    refine congrArg _ (filter_congr fun d hd => ?_)
    rw [if_pos (hevents d hd), hrev]
    rfl
  have hrest := reconcile_citedBy hcited (nodup_reverse.mpr h.nodup) hkept.reverse
  rw [hfilter, citedBy, map_cons, map_cons, hid]
  refine List.Perm.cons _ ?_
  rw [← citedBy, hrest]
  exact (reverse_perm _).map some

def laneBodyIds (s : Option (Members ν)) : List Str := (s.map laneIds).getD []

theorem lane_shown (a : PackAllocator ν) {s : Members ν} {citations : List (Members ν)}
    {laneId : Str} {events : List Str} (h : CitesLane s citations laneId events) :
    let admission := admitDurableLaneSection N a (some s) citations
      (sectionServing a .durableLaneContext).frame (sectionServing a .durableLaneContext).serving
    Shown a.wholePackBudget (laneId :: events) (laneBodyIds admission.2.body)
      admission.2.citations := by
  intro admission
  obtain ⟨-, ⟨hbody, hcit⟩ | ⟨hbudget, ⟨hbody, hcit⟩ | ⟨kept, contextMd, hsub, hbody, hcit⟩⟩⟩ :=
    admitted_lane (N := N) a s citations
  · rw [show admission.2.body = some s from hbody,
      show admission.2.citations = citations from hcit, laneBodyIds, Option.map_some,
      Option.getD_some, h.laneIds]
    refine ⟨List.Sublist.refl _, fun _ => rfl, ?_⟩
    obtain ⟨c, cs, rfl, hid, -, -, hcited⟩ := h.cited
    rw [citedBy, map_cons, map_cons, hid, ← citedBy, hcited]
    exact ((reverse_perm _).map some).cons _
  · rw [show admission.2.body = none from hbody, show admission.2.citations = [] from hcit]
    exact Shown.nothing _ hbudget
  · rw [show admission.2.body = some _ from hbody, show admission.2.citations = _ from hcit,
      laneBodyIds, Option.map_some, Option.getD_some, h.rebuilt]
    refine ⟨List.Sublist.cons_cons _ (h.ids ▸ citationIds_sublist hsub),
      fun hb => absurd hb hbudget, h.reconciled hsub⟩

theorem admitDurableLaneSection_budget (a : PackAllocator ν) (s : Option (Members ν))
    (citations : List (Members ν)) :
    (admitDurableLaneSection N a s citations (sectionServing a .durableLaneContext).frame
      (sectionServing a .durableLaneContext).serving).1.wholePackBudget = a.wholePackBudget := by
  cases s with
  | none => rfl
  | some s => exact (admitted_lane a s citations).1

/-! ## Structured sections -/

/-- A fragment is loaded with the ids `loaded`. -/
def Loads (fragment : SectionFragment ν) (loaded : List Str) : Prop :=
  match fragment.body with
  | none => loaded = []
  | some body => CitesAll (itemsOf body.body) fragment.citations loaded

theorem admitWhen_shown (selected : Bool) (key : SectionKey) {fragment : SectionFragment ν}
    {loaded : List Str} (h : Loads fragment loaded)
    (st : StructuredAccumulator ν × PackAllocator ν) :
    ∃ s citations,
      (admitWhen N selected key fragment st).1.sections = st.1.sections ++ emitted key s ∧
      (admitWhen N selected key fragment st).1.citations = st.1.citations ++ citations ∧
      (admitWhen N selected key fragment st).2.wholePackBudget = st.2.wholePackBudget ∧
      Shown st.2.wholePackBudget (if selected then loaded else []) (bodyIds s) citations := by
  cases selected with
  | false =>
    exact ⟨none, [], by simp [admitWhen, emitted], by simp [admitWhen], rfl,
      ⟨List.Sublist.refl _, fun _ => rfl, List.Perm.refl _⟩⟩
  | true =>
    obtain ⟨s, citations, hsec, hcit, hbudget, hshape⟩ :=
      admitted_structured (N := N) st.1 st.2 key fragment
    refine ⟨s, citations, by simpa [admitWhen] using hsec, by simpa [admitWhen] using hcit,
      by simpa [admitWhen] using hbudget, ?_⟩
    rcases hshape with ⟨rfl, rfl, hnone⟩ | ⟨body, body', hbody, rfl, hsub, hrest⟩
    · refine ⟨nil_sublist _, fun hw => ?_, List.Perm.refl _⟩
      simp only [Loads, hnone hw] at h
      simp [h, bodyIds]
    · simp only [Loads, hbody] at h
      rcases hrest with ⟨-, rfl, rfl⟩ | ⟨hw, rfl⟩
      · exact h.whole
      · exact h.shown hsub fun hb => absurd hb hw

/-! ## The append stores -/

theorem admitAppendSection_budget (a : PackAllocator ν) (key : SectionKey)
    (s : Option (Members ν)) (counts : List Str) :
    (admitAppendSection N a key s counts).1.wholePackBudget = a.wholePackBudget := by
  cases s with
  | none => rfl
  | some s =>
    unfold admitAppendSection
    dsimp only
    generalize fitItemSection N s counts _ .head = fitted
    split <;> split <;> rfl

theorem append_uncited (a : PackAllocator ν) (key : SectionKey) {s : Option (Members ν)}
    {counts : List Str} (hc : ∀ k ∈ counts, k ≠ units "items")
    (h : ∀ body, s = some body → citationIds (itemsOf body) = []) :
    bodyIds (admitAppendSection N a key s counts).2 = [] := by
  cases s with
  | none => rfl
  | some s =>
    have hs := h s rfl
    have hitems : (itemsOf (fitItemSection N s counts
        (servingChars a (sectionFrameCost key a.firstSectionAdmitted)) .head).body).Sublist
          (itemsOf s) := by
      unfold fitItemSection
      split
      · exact List.Sublist.refl _
      · obtain ⟨kept, hsub, hbody, -⟩ := @fitLoop_kept ν N s counts
          (servingChars a (sectionFrameCost key a.firstSectionAdmitted)) .head id
          (itemsOf s).length (itemsOf s) rfl
        have hkept : itemsOf (withItems N s counts kept) = kept := by
          unfold itemsOf
          rw [get?_items_withItems hc]
        rw [hbody, id, hkept]
        exact hsub.trans (tail_sublist _)
    have hnil := eq_nil_of_sublist_nil (hs ▸ citationIds_sublist hitems)
    unfold admitAppendSection
    dsimp only
    split
    · rfl
    · exact hnil

end OpenBrain.Server.ContextPack
