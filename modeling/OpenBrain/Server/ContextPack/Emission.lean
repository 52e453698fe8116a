import OpenBrain.Server.ContextPack.WholePack

/-!
# What an admission emits of a loaded section

Budgeted or not, an admission emits the loaded section, the section with some
of its items missing and the rest of its members as they were, or nothing:
`admitted_memory`, `admitted_structured`, `admitted_lane`. The citations that
come with it are the loaded ones, those of the items that are left, or none.
-/
namespace OpenBrain.Server.ContextPack

open OpenBrain.Core List

variable {ν : Type} {N : Ecma.Numbers ν}

/-! ## Items that are left -/

theorem DropFrom.drop_sublist (d : DropFrom) (xs : List (Json ν)) : (d.drop xs).Sublist xs := by
  cases d
  · exact tail_sublist xs
  · exact dropLast_sublist xs

theorem DropFrom.length_drop (d : DropFrom) (xs : List (Json ν)) :
    (d.drop xs).length = xs.length - 1 := by
  cases d <;> simp [DropFrom.drop]

/-- The item loop leaves a section with fewer items, starved when it has none. -/
theorem fitLoop_kept {s : Members ν} {countKeys : List Str} {remaining : Option Nat}
    {d : DropFrom} {mark : Members ν → Members ν} (n : Nat) (kept : List (Json ν))
    (hn : kept.length = n) :
    ∃ kept', kept'.Sublist (d.drop kept) ∧
      (fitLoop N s countKeys remaining d mark n kept).body = mark (withItems N s countKeys kept') ∧
      (fitLoop N s countKeys remaining d mark n kept).starved = kept'.isEmpty := by
  induction n generalizing kept with
  | zero => exact ⟨[], nil_sublist _, rfl, rfl⟩
  | succ n ih =>
    simp only [fitLoop]
    by_cases hfit : fits N remaining (withItems N s countKeys (d.drop kept)) = true
    · simp only [hfit, ↓reduceIte]
      exact ⟨d.drop kept, List.Sublist.refl _, rfl, rfl⟩
    · simp only [hfit, Bool.false_eq_true, ↓reduceIte]
      obtain ⟨kept', hsub, hbody, hstarved⟩ := ih (d.drop kept) (by simp [d.length_drop, hn])
      exact ⟨kept', hsub.trans (d.drop_sublist _), hbody, hstarved⟩

/-- What both marks do to a candidate: flag it, and name a reason when it is
empty. -/
theorem get?_mark (s : Members ν) (b : Bool) {key : Str} (ht : units "truncated" ≠ key)
    (he : units "empty_reason" ≠ key) :
    (if b then (s.set (units "truncated") (.bool true)).set (units "empty_reason")
        (.str (units "whole_pack_budget"))
      else s.set (units "truncated") (.bool true)).get? key = s.get? key := by
  cases b
  · exact Members.get?_set_ne _ _ ht
  · exact (Members.get?_set_ne _ _ he).trans (Members.get?_set_ne _ _ ht)

theorem get?_reconcile (s : Members ν) {key : Str} (ht : units "truncated" ≠ key)
    (he : units "empty_reason" ≠ key) : (reconcile s).get? key = s.get? key :=
  get?_mark s _ ht he

theorem get?_stampTrimmedBody (s : Members ν) {key : Str} (ht : units "truncated" ≠ key)
    (he : units "empty_reason" ≠ key) : (stampTrimmedBody N s).get? key = s.get? key :=
  get?_mark s _ ht he

theorem itemsOf_of_get? {s t : Members ν} (h : s.get? (units "items") = t.get? (units "items")) :
    itemsOf s = itemsOf t := by
  unfold itemsOf
  rw [h]

theorem itemsOf_withItems (s : Members ν) (kept : List (Json ν)) :
    itemsOf (withItems N s [units "item_count"] kept) = kept := by
  unfold itemsOf
  rw [get?_items_withItems (by simp; decide)]

theorem itemsOf_reconcile (s : Members ν) (kept : List (Json ν)) :
    itemsOf (reconcile (withItems N s [units "item_count"] kept)) = kept := by
  rw [itemsOf_of_get? (get?_reconcile _ (by decide) (by decide)), itemsOf_withItems]

theorem itemsOf_stampTrimmedBody (s : Members ν) (kept : List (Json ν)) :
    itemsOf (stampTrimmedBody N (withItems N s [units "item_count"] kept)) = kept := by
  rw [itemsOf_of_get? (get?_stampTrimmedBody _ (by decide) (by decide)), itemsOf_withItems]

/-! ## The durable memory section -/

def emptied (N : Ecma.Numbers ν) (s : Members ν) : Members ν :=
  reconcile (withItems N s [units "item_count"] [])

/-- The section as loaded when it fits; else a flagged section with items
missing from the tail, or nothing, and nothing exactly when the emptied section
does not fit either. -/
theorem admitted_memory (a : PackAllocator ν) (s : FlaggedBody ν) (citations : List (Members ν)) :
    let serving := (sectionServing a .durableMemory).serving
    let admitted := (admitDurableMemorySection N a (some s) citations
      (sectionServing a .durableMemory).frame serving).2
    (fits N serving s.body = true ∧ admitted.body = some s.body ∧
      (admitted.citations = citations ∨
        admitted.citations = reconcileCitedItemCitations citations (itemsOf s.body))) ∨
    (fits N serving s.body = false ∧
      ∃ kept, kept.Sublist (itemsOf s.body).dropLast ∧
        (((kept ≠ [] ∨ fits N serving (emptied N s.body) = true) ∧
            admitted.body = some (reconcile (withItems N s.body [units "item_count"] kept)) ∧
            admitted.citations = reconcileCitedItemCitations citations kept) ∨
          (kept = [] ∧ fits N serving (emptied N s.body) = false ∧ admitted.body = none ∧
            admitted.citations = []))) := by
  intro serving admitted
  cases hb : a.wholePackBudget with
  | none =>
    have hserving : serving = none := by simp [serving, sectionServing, hb]
    refine .inl ⟨by simp [fits, hserving], ?_⟩
    simp [admitted, admitDurableMemorySection, hb]
  | some b =>
    by_cases hfit : fits N serving s.body = true
    · refine .inl ⟨hfit, ?_⟩
      simp [admitted, admitDurableMemorySection, hb, fitRankedItemSection, hfit]
    · obtain ⟨kept, hsub, hbody, hstarved⟩ := @fitLoop_kept ν N s.body [units "item_count"]
        serving .tail reconcile (itemsOf s.body).length (itemsOf s.body) rfl
      refine .inr ⟨by simpa using hfit, kept, hsub, ?_⟩
      have hadm : admitted = if (kept.isEmpty && !fits N serving
          (reconcile (withItems N s.body [units "item_count"] kept))) = true then ⟨none, [], true⟩
          else ⟨some (reconcile (withItems N s.body [units "item_count"] kept)),
            reconcileCitedItemCitations citations kept, false⟩ := by
        simp only [admitted, admitDurableMemorySection, hb, Option.isNone_some,
          Bool.false_eq_true, ↓reduceIte, fitRankedItemSection, hfit, hbody, hstarved,
          itemsOf_reconcile]
        split <;> rfl
      by_cases hout : kept = [] ∧ fits N serving (emptied N s.body) = false
      · obtain ⟨rfl, hemp⟩ := hout
        have hemp' : fits N serving (reconcile (withItems N s.body [units "item_count"] [])) =
          false := hemp
        exact .inr ⟨rfl, hemp, by simp [hadm, hemp'], by simp [hadm, hemp']⟩
      · have hstay : (kept.isEmpty && !fits N serving
            (reconcile (withItems N s.body [units "item_count"] kept))) = false := by
          by_cases hk : kept = []
          · subst hk
            simpa [emptied] using hout
          · simp [hk]
        refine .inl ⟨?_, by simp [hadm, hstay], by simp [hadm, hstay]⟩
        by_cases hk : kept = []
        · exact .inr (by simpa [hk] using hout)
        · exact .inl hk

/-! ## The lane -/

theorem dropOldest_sublist {s : Members ν} {lane : Option (Members ν)} {contextMd : Json ν}
    {remaining : Option Nat} {events kept : List (Json ν)}
    (h : dropOldestDurableLaneEvents N s lane contextMd remaining events = some kept) :
    kept.Sublist events := by
  induction events with
  | nil => simp [dropOldestDurableLaneEvents] at h
  | cons e events ih =>
    simp only [dropOldestDurableLaneEvents] at h
    split at h
    · cases h
      exact sublist_cons_self ..
    · exact (ih h).cons e

theorem fitDurableLaneSection_kept (s : Members ν) (citations : List (Members ν))
    (remaining : Option Nat) :
    (fitDurableLaneSection N s citations remaining).body = s ∧
      (fitDurableLaneSection N s citations remaining).citations = citations ∨
    ∃ kept contextMd, kept.Sublist (eventsOf s) ∧
      (fitDurableLaneSection N s citations remaining).body =
        rebuildDurableLaneSection N s (laneOf s) kept contextMd ∧
      (fitDurableLaneSection N s citations remaining).citations =
        reconcileDurableCitations citations kept := by
  unfold fitDurableLaneSection
  split
  · exact .inl ⟨rfl, rfl⟩
  · dsimp only
    split
    · rename_i kept hkept
      exact .inr ⟨kept, _, dropOldest_sublist hkept, rfl, rfl⟩
    · exact .inr ⟨[], _, nil_sublist _, rfl, rfl⟩

/-- The lane as loaded, or with fewer events and their citations, or nothing;
without a budget as loaded. -/
theorem admitted_lane (a : PackAllocator ν) (s : Members ν) (citations : List (Members ν)) :
    let admission := admitDurableLaneSection N a (some s) citations
      (sectionServing a .durableLaneContext).frame (sectionServing a .durableLaneContext).serving
    admission.1.wholePackBudget = a.wholePackBudget ∧
      ((admission.2.body = some s ∧ admission.2.citations = citations) ∨
        (a.wholePackBudget ≠ none ∧
          ((admission.2.body = none ∧ admission.2.citations = []) ∨
            ∃ kept contextMd, kept.Sublist (eventsOf s) ∧
              admission.2.body =
                some (rebuildDurableLaneSection N s (laneOf s) kept contextMd) ∧
              admission.2.citations = reconcileDurableCitations citations kept))) := by
  intro admission
  cases hb : a.wholePackBudget with
  | none => simp [admission, admitDurableLaneSection, chargeAdmitted, hb]
  | some b =>
    simp only [admission, admitDurableLaneSection, hb, Option.isNone_some, Bool.false_eq_true,
      ↓reduceIte]
    have hkept := fitDurableLaneSection_kept (N := N) s citations
      (sectionServing a .durableLaneContext).serving
    generalize fitDurableLaneSection N s citations
      (sectionServing a .durableLaneContext).serving = fitted at hkept ⊢
    split
    · exact ⟨hb, .inr ⟨by simp, .inl ⟨rfl, rfl⟩⟩⟩
    · refine ⟨?_, ?_⟩
      · dsimp only
        split <;> exact hb
      · rcases hkept with ⟨hbody, hcit⟩ | ⟨kept, contextMd, hsub, hbody, hcit⟩
        · exact .inl ⟨congrArg some hbody, hcit⟩
        · exact .inr ⟨by simp, .inr ⟨kept, contextMd, hsub, congrArg some hbody, hcit⟩⟩

/-! ## The structured sections -/

/-- A structured admission emits nothing, or a section whose items are some of
the loaded ones, with all loaded citations or those of the items left. Without a
budget it emits what is loaded. -/
theorem admitted_structured (acc : StructuredAccumulator ν) (a : PackAllocator ν)
    (key : SectionKey) (fragment : SectionFragment ν) :
    ∃ s citations,
      (admitStructuredSection N acc a key fragment).1.sections =
        acc.sections ++ emitted key s ∧
      (admitStructuredSection N acc a key fragment).1.citations = acc.citations ++ citations ∧
      (admitStructuredSection N acc a key fragment).2.wholePackBudget = a.wholePackBudget ∧
      ((s = none ∧ citations = [] ∧ (a.wholePackBudget = none → fragment.body = none)) ∨
        ∃ loaded body, fragment.body = some loaded ∧ s = some body ∧
          (itemsOf body).Sublist (itemsOf loaded.body) ∧
          ((a.wholePackBudget = none ∧ body = loaded.body ∧ citations = fragment.citations) ∨
            (a.wholePackBudget ≠ none ∧
              citations = reconcileCitedItemCitations fragment.citations (itemsOf body)))) := by
  cases hb : fragment.body with
  | none =>
    exact ⟨none, [], by simp [admitStructuredSection, hb, emitted],
      by simp [admitStructuredSection, hb], by simp [admitStructuredSection, hb],
      .inl ⟨rfl, rfl, fun _ => rfl⟩⟩
  | some loaded =>
    cases hw : a.wholePackBudget with
    | none =>
      exact ⟨some loaded.body, fragment.citations,
        by simp [admitStructuredSection, hb, hw, emitted],
        by simp [admitStructuredSection, hb, hw], by simp [admitStructuredSection, hb, hw],
        .inr ⟨loaded, loaded.body, rfl, rfl, List.Sublist.refl _, .inl ⟨rfl, rfl, rfl⟩⟩⟩
    | some b =>
      simp only [admitStructuredSection, hb, hw, Option.isNone_some, Bool.false_eq_true,
        ↓reduceIte]
      generalize hf : fitItemSection N loaded.body [units "item_count"]
        (servingChars a (sectionFrameCost key a.firstSectionAdmitted)) .tail = fitted
      generalize hs : (if fitted.truncated = true then stampTrimmedBody N fitted.body
        else fitted.body) = survived
      split
      · exact ⟨none, [], by simp [emitted], by simp, hw, .inl ⟨rfl, rfl, fun h => by simp at h⟩⟩
      · refine ⟨some survived, _, rfl, rfl, hw,
          .inr ⟨loaded, survived, rfl, rfl, ?_, .inr ⟨by simp, rfl⟩⟩⟩
        subst hs
        unfold fitItemSection at hf
        split at hf
        · subst hf
          simp
        · obtain ⟨kept, hsub, hbody, -⟩ := @fitLoop_kept ν N loaded.body [units "item_count"]
            (servingChars a (sectionFrameCost key a.firstSectionAdmitted)) .tail id
            (itemsOf loaded.body).length (itemsOf loaded.body) rfl
          have htrunc := (@fitLoop_spec ν N loaded.body [units "item_count"]
            (servingChars a (sectionFrameCost key a.firstSectionAdmitted)) .tail id
            (itemsOf loaded.body).length (itemsOf loaded.body)).1
          rw [hf] at hbody htrunc
          rw [htrunc, if_pos rfl, hbody, id, itemsOf_stampTrimmedBody]
          exact hsub.trans (dropLast_sublist _)

def structuredKeys : List SectionKey :=
  [.profileGuidance, .processGuidance, .repoFacts, .pointers, .candidateMemory]

theorem admitWhen_keys {keys : List SectionKey}
    {st : StructuredAccumulator ν × PackAllocator ν}
    (h : (st.1.sections.map Prod.fst).Sublist keys) (selected : Bool) (key : SectionKey)
    (fragment : SectionFragment ν) :
    ((admitWhen N selected key fragment st).1.sections.map Prod.fst).Sublist (keys ++ [key]) := by
  unfold admitWhen
  split
  · obtain ⟨s, citations, hsec, -⟩ := admitted_structured (N := N) st.1 st.2 key fragment
    rw [hsec, map_append]
    exact h.append (emitted_keys key s)
  · exact h.trans (sublist_append_left ..)

theorem buildStructuredSections_keys (sel : SectionSelection) (src : Sources ν)
    (memory : Option (MemoryContext ν)) (memoryBody : Option (Members ν)) (a : PackAllocator ν) :
    ((buildStructuredSections N sel src memory memoryBody a).1.sections.map Prod.fst).Sublist
      structuredKeys := by
  let st : StructuredAccumulator ν × PackAllocator ν := (⟨[], [], [], [], []⟩, a)
  have h0 : (st.1.sections.map Prod.fst).Sublist [] := List.Sublist.slnil
  have h1 := admitWhen_keys (N := N) h0 sel.profileGuidance .profileGuidance
    (loadGuidanceSection N src .profileGuidance)
  have h2 := admitWhen_keys (N := N) h1 sel.processGuidance .processGuidance
    (loadGuidanceSection N src .processGuidance)
  have h3 := admitWhen_keys (N := N) h2 sel.repoFacts .repoFacts (loadRepoFactsSection N src)
  exact admitWhen_keys (admitWhen_keys h3 _ .pointers _) _ .candidateMemory _

theorem name_ne_durableMemory {key : SectionKey} (h : key ≠ .durableMemory) :
    key.name ≠ SectionKey.durableMemory.name := by
  cases key <;> first | exact absurd rfl h | decide

/-- The finished pack shows `durable_memory` as it was admitted. -/
theorem assembleSections_durableMemory (ws rc lane memory : Option (Members ν))
    (structured : List (SectionKey × Members ν))
    (hk : (structured.map Prod.fst).Sublist structuredKeys) :
    (assembleSections ws rc lane memory structured).get? SectionKey.durableMemory.name =
      memory.map Json.obj := by
  have hne : ∀ s ∈ structured, s.1.name ≠ SectionKey.durableMemory.name := by
    intro s hs
    refine name_ne_durableMemory fun hkey => ?_
    have hmem := hk.subset (mem_map_of_mem hs)
    rw [hkey] at hmem
    exact absurd hmem (by decide)
  have hfold : ∀ ms : Members ν, (structured.foldl (fun (sections : Members ν) s =>
      sections.set s.1.name (.obj s.2)) ms).get? SectionKey.durableMemory.name =
        ms.get? SectionKey.durableMemory.name := by
    clear hk
    induction structured with
    | nil => exact fun ms => rfl
    | cons s structured ih =>
      intro ms
      rw [foldl_cons, ih (fun t ht => hne t (mem_cons_of_mem _ ht)),
        Members.get?_set_ne _ _ (hne s mem_cons_self)]
  have hws := @name_ne_durableMemory .workingSet (by decide)
  have hrc := @name_ne_durableMemory .recovery (by decide)
  have hlane := @name_ne_durableMemory .durableLaneContext (by decide)
  unfold assembleSections
  dsimp only
  rw [hfold]
  cases memory with
  | some body => exact Members.get?_set_self _ _ _
  | none =>
    cases lane <;> cases rc <;> cases ws <;>
      simp [Members.get?_set_ne _ _ hws, Members.get?_set_ne _ _ hrc,
        Members.get?_set_ne _ _ hlane, Members.get?]

end OpenBrain.Server.ContextPack
