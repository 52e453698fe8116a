import OpenBrain.Server.ContextPack.Sections

/-!
# The whole-pack allowance bounds the serialized sections

`Spent b a adm`: the allocator `a`, opened with allowance `b`, has charged
exactly the text of the sections `adm` admitted so far, so what remains plus
the members' text is `b - 2` (the braces are reserved at the start). Every
admission keeps it (`admitAppendSection_spent`, `admitDurableLaneSection_spent`,
`admitDurableMemorySection_spent`, `admitStructuredSection_spent`), because
what is charged is what is emitted and it fits: the two sections whose flag
is flipped after the measurement only get shorter (`reconcile_length_le`,
`stampTrimmedBody_length_le`), since `false` is one unit longer than `true`.

`wholePack_bound` reads the bound and the reported usage off the last state.
-/
namespace OpenBrain.Server.ContextPack

open OpenBrain.Core List

variable {ν : Type} {N : Ecma.Numbers ν}

/-! ## Reconciled sections -/

theorem get?_withItems {s : Members ν} {countKeys : List Str} {kept : List (Json ν)} {key : Str}
    (hi : units "items" ≠ key) (hc : ∀ k ∈ countKeys, k ≠ key) :
    (withItems N s countKeys kept).get? key = s.get? key := by
  unfold withItems
  rw [← Members.get?_set_ne s (.arr kept) hi]
  generalize s.set (units "items") (.arr kept) = t
  induction countKeys generalizing t with
  | nil => rfl
  | cons k ks ih =>
    rw [foldl_cons, ih (fun k' hk' => hc k' (mem_cons_of_mem _ hk')),
      Members.get?_set_ne _ _ (hc k (mem_cons_self ..))]

theorem get?_items_withItems {s : Members ν} {countKeys : List Str} {kept : List (Json ν)}
    (hc : ∀ k ∈ countKeys, k ≠ units "items") :
    (withItems N s countKeys kept).get? (units "items") = some (.arr kept) := by
  unfold withItems
  have h0 := Members.get?_set_self s (units "items") (.arr kept)
  generalize s.set (units "items") (.arr kept) = t at h0
  induction countKeys generalizing t with
  | nil => exact h0
  | cons k ks ih =>
    rw [foldl_cons]
    refine ih (fun k' hk' => hc k' (mem_cons_of_mem _ hk')) _ ?_
    rw [Members.get?_set_ne _ _ (hc k (mem_cons_self ..)), h0]

theorem length_print_true_le (b : Bool) :
    (N.printer.print (.bool true)).length ≤ (N.printer.print (.bool b)).length := by
  cases b <;> simp [Printer.print, units]

/-- Flipping a boolean `truncated` member to `true` lengthens nothing. -/
theorem set_truncated_length_le {s : Members ν} {b : Bool}
    (h : s.get? (units "truncated") = some (.bool b)) :
    serializedLength N (s.set (units "truncated") (.bool true)) ≤ serializedLength N s :=
  Members.length_print_set_le N.printer h (length_print_true_le b)

section Stamp

variable {s : FlaggedBody ν} {kept : List (Json ν)}

theorem truncated_withItems (s : FlaggedBody ν) (kept : List (Json ν)) :
    ∃ b, (withItems N s.body [units "item_count"] kept).get? (units "truncated") =
      some (.bool b) := by
  obtain ⟨b, hb⟩ := s.flagged
  refine ⟨b, ?_⟩
  rw [get?_withItems (by decide) (by simp; decide), hb]

/-- A recall section that keeps an item is only flagged. -/
theorem reconcile_length_le (h : kept ≠ []) :
    serializedLength N (reconcile (withItems N s.body [units "item_count"] kept)) ≤
      serializedLength N (withItems N s.body [units "item_count"] kept) := by
  obtain ⟨b, hb⟩ := truncated_withItems (N := N) s kept
  have hitems : itemsOf ((withItems N s.body [units "item_count"] kept).set (units "truncated")
      (.bool true)) = kept := by
    unfold itemsOf
    rw [Members.get?_set_ne _ _ (by decide), get?_items_withItems (by simp; decide)]
  unfold reconcile
  simp only [hitems, List.isEmpty_iff, h, ↓reduceIte]
  exact set_truncated_length_le hb

/-- A structured section that keeps an item is only flagged. -/
theorem stampTrimmedBody_length_le (h : kept ≠ []) :
    serializedLength N (stampTrimmedBody N (withItems N s.body [units "item_count"] kept)) ≤
      serializedLength N (withItems N s.body [units "item_count"] kept) := by
  obtain ⟨b, hb⟩ := truncated_withItems (N := N) s kept
  have hcount : itemCountIsZero N ((withItems N s.body [units "item_count"] kept).set
      (units "truncated") (.bool true)) = false := by
    unfold itemCountIsZero
    rw [Members.get?_set_ne _ _ (by decide)]
    simp [withItems, N.isZero_ofNat, h]
  unfold stampTrimmedBody
  simp only [hcount, Bool.false_eq_true, ↓reduceIte]
  exact set_truncated_length_le hb

end Stamp

/-! ## What the allocator has spent -/

theorem quote_name_length (key : SectionKey) :
    (Ecma.quote key.name).length = key.name.length + 2 := by
  cases key <;> decide

/-- The members of the `sections` object for the admitted sections. -/
def asMembers (adm : List (SectionKey × Members ν)) : Members ν :=
  adm.map fun s => (s.1.name, .obj s.2)

def membersCost (N : Ecma.Numbers ν) (adm : List (SectionKey × Members ν)) : Nat :=
  ((asMembers adm).map N.printer.memberCost).sum

theorem membersCost_concat (adm : List (SectionKey × Members ν)) (key : SectionKey)
    (body : Members ν) :
    membersCost N (adm ++ [(key, body)]) =
      membersCost N adm + (key.name.length + serializedLength N body + 4) := by
  have hq : (N.printer.quote key.name).length = key.name.length + 2 := quote_name_length key
  simp only [membersCost, asMembers, map_append, map_cons, map_nil,
    sum_append, sum_cons, sum_nil, Printer.memberCost, hq, serializedLength]
  omega

theorem membersCost_pos {adm : List (SectionKey × Members ν)} (h : adm ≠ []) :
    0 < membersCost N adm := by
  cases adm with
  | nil => exact absurd rfl h
  | cons s adm =>
    simp only [membersCost, asMembers, map_cons, sum_cons, Printer.memberCost]
    omega

/-- What an allocator with allowance `b` has charged is the text of `adm`. -/
structure Spent (N : Ecma.Numbers ν) (b : Nat) (a : PackAllocator ν)
    (adm : List (SectionKey × Members ν)) : Prop where
  budget : a.wholePackBudget = some b
  remaining : ∃ r, a.remainingChars = some r ∧ r + (membersCost N adm - 1) = b - 2
  first : a.firstSectionAdmitted = adm.isEmpty

variable {b : Nat} {a : PackAllocator ν} {adm : List (SectionKey × Members ν)}

theorem Spent.create (b : Nat) : Spent N b (createAllocator (some b)) [] :=
  ⟨rfl, ⟨b - 2, rfl, rfl⟩, rfl⟩

theorem Spent.note (h : Spent N b a adm) (key : SectionKey) (starved : Bool) :
    Spent N b (noteBudgetTruncation N a key starved) adm := ⟨h.budget, h.remaining, h.first⟩

/-- A body that fits what its framing leaves is paid for in full. -/
theorem Spent.charge (h : Spent N b a adm) (key : SectionKey) {body : Members ν}
    (hfit : fits N (servingChars a (sectionFrameCost key a.firstSectionAdmitted)) body = true) :
    Spent N b (chargeAdmitted N a body (sectionFrameCost key a.firstSectionAdmitted))
      (adm ++ [(key, body)]) := by
  obtain ⟨r, hr, hsum⟩ := h.remaining
  have hle : serializedLength N body ≤ r - sectionFrameCost key a.firstSectionAdmitted := by
    rw [servingChars, hr] at hfit
    exact fits_some.mp hfit
  have h2 : 2 ≤ serializedLength N body := N.printer.two_le_length_print_obj body
  refine ⟨h.budget, ⟨r - serializedLength N body - sectionFrameCost key a.firstSectionAdmitted,
    by simp [chargeAdmitted, hr], ?_⟩, by simp [chargeAdmitted]⟩
  rw [membersCost_concat]
  rw [h.first] at hle ⊢
  cases adm with
  | nil =>
    simp only [sectionFrameCost, isEmpty_nil, ↓reduceIte, membersCost, asMembers,
      map_nil, sum_nil] at hle hsum ⊢
    omega
  | cons s adm =>
    have hpos := membersCost_pos (N := N) (cons_ne_nil s adm)
    simp only [sectionFrameCost, isEmpty_cons, Bool.false_eq_true, ↓reduceIte] at hle ⊢
    omega

/-! ## Every admission charges what it emits -/

def emitted (key : SectionKey) (s : Option (Members ν)) : List (SectionKey × Members ν) :=
  (s.map fun body => (key, body)).toList

theorem fitItemSection_fits {s : Members ν} {countKeys : List Str} {remaining : Option Nat}
    {dropFrom : DropFrom} (h : (fitItemSection N s countKeys remaining dropFrom).starved = false) :
    fits N remaining (fitItemSection N s countKeys remaining dropFrom).body = true := by
  unfold fitItemSection at h ⊢
  split
  · assumption
  · rename_i hno
    rw [if_neg hno] at h
    obtain ⟨kept, -, hfit, hbody⟩ := (fitLoop_spec _ _).2 h
    rw [hbody]; exact hfit

theorem admitAppendSection_spent (h : Spent N b a adm) (key : SectionKey)
    (s : Option (Members ν)) (counts : List Str) :
    Spent N b (admitAppendSection N a key s counts).1
      (adm ++ emitted key (admitAppendSection N a key s counts).2) := by
  cases s with
  | none => simpa [admitAppendSection, emitted] using h
  | some s =>
    simp only [admitAppendSection]
    generalize hf : fitItemSection N s counts
      (servingChars a (sectionFrameCost key a.firstSectionAdmitted)) .head = fitted
    by_cases hout : (fitted.starved && !fits N (servingChars a
        (sectionFrameCost key a.firstSectionAdmitted)) fitted.body) = true
    · simp only [hout, ↓reduceIte, emitted, Option.map_none, Option.toList_none, append_nil]
      split
      · exact h.note _ _
      · exact h
    · have hfit : fits N (servingChars a (sectionFrameCost key a.firstSectionAdmitted))
          fitted.body = true := by
        cases hs : fitted.starved with
        | true => simpa [hs] using hout
        | false =>
          rw [← hf] at hs ⊢
          exact fitItemSection_fits hs
      simp only [hout, Bool.false_eq_true, ↓reduceIte, emitted, Option.map_some,
        Option.toList_some]
      split
      · exact (h.charge key hfit).note _ _
      · exact h.charge key hfit

theorem sectionServing_frame (a : PackAllocator ν) (key : SectionKey) :
    (sectionServing a key).frame = sectionFrameCost key a.firstSectionAdmitted := rfl

theorem Spent.sectionServing_serving (h : Spent N b a adm) (key : SectionKey) :
    (sectionServing a key).serving =
      servingChars a (sectionFrameCost key a.firstSectionAdmitted) := by
  simp [sectionServing, h.budget]

theorem fitDurableLaneSection_fits {s : Members ν} {citations : List (Members ν)}
    {remaining : Option Nat} (h : (fitDurableLaneSection N s citations remaining).truncated = false) :
    fits N remaining (fitDurableLaneSection N s citations remaining).body = true := by
  unfold fitDurableLaneSection at h ⊢
  split
  · assumption
  · rename_i hno
    rw [if_neg hno] at h
    dsimp only at h
    split at h <;> cases h

theorem admitDurableLaneSection_spent (h : Spent N b a adm) (s : Option (Members ν))
    (citations : List (Members ν)) :
    Spent N b (admitDurableLaneSection N a s citations
        (sectionServing a .durableLaneContext).frame
        (sectionServing a .durableLaneContext).serving).1
      (adm ++ emitted .durableLaneContext (admitDurableLaneSection N a s citations
        (sectionServing a .durableLaneContext).frame
        (sectionServing a .durableLaneContext).serving).2.body) := by
  rw [sectionServing_frame, h.sectionServing_serving]
  cases s with
  | none => simpa [admitDurableLaneSection, emitted] using h
  | some s =>
    simp only [admitDurableLaneSection, h.budget, Option.isNone_some, Bool.false_eq_true,
      ↓reduceIte]
    generalize hf : fitDurableLaneSection N s citations
      (servingChars a (sectionFrameCost .durableLaneContext a.firstSectionAdmitted)) = fitted
    by_cases hout : (fitted.truncated && !fits N (servingChars a
        (sectionFrameCost .durableLaneContext a.firstSectionAdmitted)) fitted.body) = true
    · simpa [hout, emitted] using h.note _ _
    · have hfit : fits N (servingChars a
          (sectionFrameCost .durableLaneContext a.firstSectionAdmitted)) fitted.body = true := by
        cases ht : fitted.truncated with
        | true => simpa [ht] using hout
        | false =>
          rw [← hf] at ht ⊢
          exact fitDurableLaneSection_fits ht
      simp only [hout, Bool.false_eq_true, ↓reduceIte, emitted, Option.map_some,
        Option.toList_some]
      split
      · exact (h.charge _ hfit).note _ _
      · exact h.charge _ hfit

/-- A recall section with a surviving item still fits once it is reconciled. -/
theorem fitRankedItemSection_fits {s : FlaggedBody ν} {remaining : Option Nat}
    (h : (fitRankedItemSection N s.body [units "item_count"] remaining).starved = false) :
    fits N remaining (fitRankedItemSection N s.body [units "item_count"] remaining).body = true := by
  unfold fitRankedItemSection at h ⊢
  split
  · assumption
  · rename_i hno
    rw [if_neg hno] at h
    obtain ⟨kept, hne, hfit, hbody⟩ := (fitLoop_spec _ _).2 h
    rw [hbody]
    cases remaining with
    | none => rfl
    | some r => exact fits_some.mpr (Nat.le_trans (reconcile_length_le hne) (fits_some.mp hfit))

theorem admitDurableMemorySection_spent (h : Spent N b a adm) (s : Option (FlaggedBody ν))
    (citations : List (Members ν)) :
    Spent N b (admitDurableMemorySection N a s citations
        (sectionServing a .durableMemory).frame (sectionServing a .durableMemory).serving).1
      (adm ++ emitted .durableMemory (admitDurableMemorySection N a s citations
        (sectionServing a .durableMemory).frame
        (sectionServing a .durableMemory).serving).2.body) := by
  rw [sectionServing_frame, h.sectionServing_serving]
  cases s with
  | none => simpa [admitDurableMemorySection, emitted] using h
  | some s =>
    simp only [admitDurableMemorySection, h.budget, Option.isNone_some, Bool.false_eq_true,
      ↓reduceIte]
    generalize hf : fitRankedItemSection N s.body [units "item_count"]
      (servingChars a (sectionFrameCost .durableMemory a.firstSectionAdmitted)) = fitted
    by_cases hout : (fitted.starved && !fits N (servingChars a
        (sectionFrameCost .durableMemory a.firstSectionAdmitted)) fitted.body) = true
    · simpa [hout, emitted] using h.note _ _
    · have hfit : fits N (servingChars a
          (sectionFrameCost .durableMemory a.firstSectionAdmitted)) fitted.body = true := by
        cases hs : fitted.starved with
        | true => simpa [hs] using hout
        | false =>
          rw [← hf] at hs ⊢
          exact fitRankedItemSection_fits hs
      simp only [hout, Bool.false_eq_true, ↓reduceIte, emitted, Option.map_some,
        Option.toList_some]
      split
      · exact (h.charge _ hfit).note _ _
      · exact h.charge _ hfit

/-- A structured section with a surviving item still fits once it is stamped. -/
theorem stamped_fits {s : FlaggedBody ν} {remaining : Option Nat} {fitted : Fitted ν}
    (hf : fitItemSection N s.body [units "item_count"] remaining .tail = fitted)
    (h : fitted.starved = false) :
    fits N remaining (if fitted.truncated then stampTrimmedBody N fitted.body else fitted.body)
      = true := by
  subst hf
  by_cases hfit : fits N remaining s.body = true
  · simp [fitItemSection, hfit]
  · simp only [fitItemSection, hfit, Bool.false_eq_true, ↓reduceIte] at h ⊢
    obtain ⟨htrunc, hkept⟩ := @fitLoop_spec ν N s.body [units "item_count"] remaining .tail id
      (itemsOf s.body).length (itemsOf s.body)
    obtain ⟨kept, hne, hle, hbody⟩ := hkept h
    rw [htrunc, if_pos rfl, hbody]
    cases remaining with
    | none => rfl
    | some r =>
      exact fits_some.mpr (Nat.le_trans (stampTrimmedBody_length_le hne) (fits_some.mp hle))

theorem admitStructuredSection_spent (acc : StructuredAccumulator ν) (h : Spent N b a adm)
    (key : SectionKey) (fragment : SectionFragment ν) :
    ∃ s, (admitStructuredSection N acc a key fragment).1.sections = acc.sections ++ emitted key s ∧
      Spent N b (admitStructuredSection N acc a key fragment).2 (adm ++ emitted key s) := by
  cases hb : fragment.body with
  | none => exact ⟨none, by simp [admitStructuredSection, hb, emitted],
      by simpa [admitStructuredSection, hb, emitted] using h⟩
  | some s =>
    simp only [admitStructuredSection, hb, h.budget, Option.isNone_some, Bool.false_eq_true,
      ↓reduceIte]
    generalize hf : fitItemSection N s.body [units "item_count"]
      (servingChars a (sectionFrameCost key a.firstSectionAdmitted)) .tail = fitted
    generalize hs : (if fitted.truncated then stampTrimmedBody N fitted.body else fitted.body) =
      survived
    by_cases hout : (fitted.starved && !fits N (servingChars a
        (sectionFrameCost key a.firstSectionAdmitted)) survived) = true
    · exact ⟨none, by simp [hout, emitted], by simpa [hout, emitted] using h⟩
    · have hfit : fits N (servingChars a (sectionFrameCost key a.firstSectionAdmitted)) survived
          = true := by
        cases hst : fitted.starved with
        | true => simpa [hst] using hout
        | false =>
          rw [← hs]
          exact stamped_fits hf hst
      refine ⟨some survived, by simp [hout, emitted], ?_⟩
      simp only [hout, Bool.false_eq_true, ↓reduceIte, emitted, Option.map_some,
        Option.toList_some]
      exact h.charge key hfit

/-! ## The whole walk -/

/-- The structured walk so far: what it has charged on top of `adm`, under the
keys `keys`. -/
def Walked (N : Ecma.Numbers ν) (b : Nat) (adm : List (SectionKey × Members ν))
    (keys : List SectionKey) (st : StructuredAccumulator ν × PackAllocator ν) : Prop :=
  Spent N b st.2 (adm ++ st.1.sections) ∧ (st.1.sections.map Prod.fst).Sublist keys

theorem emitted_keys (key : SectionKey) (s : Option (Members ν)) :
    ((emitted key s).map Prod.fst).Sublist [key] := by
  cases s <;> simp [emitted]

theorem admitWhen_walked {keys : List SectionKey}
    {st : StructuredAccumulator ν × PackAllocator ν} (h : Walked N b adm keys st)
    (selected : Bool) (key : SectionKey) (fragment : SectionFragment ν) :
    Walked N b adm (keys ++ [key]) (admitWhen N selected key fragment st) := by
  obtain ⟨hspent, hkeys⟩ := h
  unfold admitWhen
  split
  · obtain ⟨s, hsec, hspent'⟩ := admitStructuredSection_spent st.1 hspent key fragment
    refine ⟨by rwa [hsec, ← append_assoc], ?_⟩
    rw [hsec, map_append]
    exact hkeys.append (emitted_keys key s)
  · exact ⟨hspent, hkeys.trans (sublist_append_left ..)⟩

theorem buildStructuredSections_walked (h : Spent N b a adm) (sel : SectionSelection)
    (src : Sources ν) (memory : Option (MemoryContext ν)) (memoryBody : Option (Members ν)) :
    Walked N b adm [.profileGuidance, .processGuidance, .repoFacts, .pointers, .candidateMemory]
      (buildStructuredSections N sel src memory memoryBody a) := by
  have h0 : Walked N b adm [] (⟨[], [], [], [], []⟩, a) := ⟨by simpa using h, by simp⟩
  have h1 := admitWhen_walked h0 sel.profileGuidance .profileGuidance
    (loadGuidanceSection N src .profileGuidance)
  have h2 := admitWhen_walked h1 sel.processGuidance .processGuidance
    (loadGuidanceSection N src .processGuidance)
  have h3 := admitWhen_walked h2 sel.repoFacts .repoFacts (loadRepoFactsSection N src)
  exact admitWhen_walked (admitWhen_walked h3 _ .pointers _) _ .candidateMemory _

theorem foldl_set_eq_append (adm : List (SectionKey × Members ν)) (ms : Members ν)
    (h : (ms.map Prod.fst ++ adm.map fun s => s.1.name).Nodup) :
    adm.foldl (fun (sections : Members ν) s => sections.set s.1.name (.obj s.2)) ms =
      ms ++ asMembers adm := by
  induction adm generalizing ms with
  | nil => simp [asMembers]
  | cons s adm ih =>
    have hnew : ms.get? s.1.name = none := by
      refine Members.get?_eq_none fun hmem => ?_
      have hne := (nodup_append.mp h).2.2 _ hmem s.1.name (by simp)
      exact hne rfl
    rw [foldl_cons, Members.set_of_get?_none _ hnew, ih]
    · simp [asMembers]
    · simpa [append_assoc] using h

theorem assembleSections_eq (ws rc lane memory : Option (Members ν))
    (structured : List (SectionKey × Members ν))
    (hk : (structured.map Prod.fst).Sublist
      [.profileGuidance, .processGuidance, .repoFacts, .pointers, .candidateMemory]) :
    assembleSections ws rc lane memory structured =
      asMembers (emitted .workingSet ws ++ emitted .recovery rc ++
        emitted .durableLaneContext lane ++ emitted .durableMemory memory ++ structured) := by
  have hfold : assembleSections ws rc lane memory structured =
      (emitted .workingSet ws ++ emitted .recovery rc ++ emitted .durableLaneContext lane ++
        emitted .durableMemory memory ++ structured).foldl
        (fun (sections : Members ν) s => sections.set s.1.name (.obj s.2)) [] := by
    simp only [foldl_append]
    cases ws <;> cases rc <;> cases lane <;> cases memory <;> rfl
  rw [hfold, foldl_set_eq_append, nil_append]
  -- the keys come in priority order, each at most once
  have hsub : ((emitted .workingSet ws ++ emitted .recovery rc ++
      emitted .durableLaneContext lane ++ emitted .durableMemory memory ++ structured).map
        Prod.fst).Sublist SectionKey.priority := by
    simp only [map_append]
    exact ((((emitted_keys .workingSet ws).append (emitted_keys .recovery rc)).append
      (emitted_keys .durableLaneContext lane)).append (emitted_keys .durableMemory memory)).append hk
  have hnames := hsub.map SectionKey.name
  rw [map_map] at hnames
  exact hnames.nodup (by decide)

theorem Spent.length_eq (h : Spent N b a adm) :
    serializedLength N (asMembers adm) ≤ max 2 b ∧
      (2 ≤ b → charsUsed a = serializedLength N (asMembers adm)) := by
  obtain ⟨r, hr, hsum⟩ := h.remaining
  have hlen : serializedLength N (asMembers adm) = 2 + (membersCost N adm - 1) :=
    N.printer.length_print_obj _
  constructor
  · omega
  · intro hb
    simp only [charsUsed, h.budget, hr, Option.getD_some]
    omega

/-- The finished pack emits what its allocator has charged, and reports on it. -/
theorem buildAgentContextPack_spent (maxTokens : Nat) (sel : SectionSelection) (src : Sources ν) :
    ∃ a adm, Spent N (maxTokens * charsPerToken - envelopeCharReserve) a adm ∧
      (buildAgentContextPack N (some maxTokens) sel src).sections = asMembers adm ∧
      (buildAgentContextPack N (some maxTokens) sel src).wholePack = wholePackReport a := by
  unfold buildAgentContextPack
  simp only [wholePackBudgetFor, Option.map_some]
  generalize (if sel.workingSet then some src.workingSet else none) = ws
  generalize (if sel.recovery then some src.recovery else none) = rc
  -- one step for each of the four calls: what it charged, then its result by name
  have h1 := admitAppendSection_spent (N := N)
    (Spent.create (maxTokens * charsPerToken - envelopeCharReserve)) .workingSet
    (ws.bind AppendFragment.body) [units "item_count"]
  generalize admitAppendSection N (createAllocator _) .workingSet _ _ = p1 at h1 ⊢
  obtain ⟨a1, workingSet⟩ := p1
  have h2 := admitAppendSection_spent h1 .recovery (rc.bind AppendFragment.body)
    [units "item_count", units "pending_count"]
  generalize admitAppendSection N _ .recovery _ _ = p2 at h2 ⊢
  obtain ⟨a2, recovery⟩ := p2
  generalize (if sel.durableLaneContext then
    some (src.lane (sectionServing a2 .durableLaneContext).contentLimit) else none) = lane
  have h3 := admitDurableLaneSection_spent h2 (lane.bind LaneContext.body)
    ((lane.map LaneContext.citations).getD [])
  generalize admitDurableLaneSection N _ _ _ _ _ = p3 at h3 ⊢
  obtain ⟨a3, laneAdmission⟩ := p3
  generalize (if sel.durableMemory then
    some (src.memory (sectionServing a3 .durableMemory).contentLimit) else none) = memory
  generalize (if sel.durableMemorySection then memory else none) = requested
  have h4 := admitDurableMemorySection_spent h3 (requested.map fun m => m.«recall».section N)
    ((requested.map MemoryContext.citations).getD [])
  generalize admitDurableMemorySection N _ _ _ _ _ = p4 at h4 ⊢
  obtain ⟨a4, memoryAdmission⟩ := p4
  obtain ⟨h5, hkeys⟩ := buildStructuredSections_walked h4 sel src memory memoryAdmission.body
  refine ⟨_, _, h5, ?_, rfl⟩
  rw [assembleSections_eq _ _ _ _ _ hkeys, nil_append]

/-- **Whole-pack bound.** With `max_tokens`, the serialized `sections` object is
at most the larger of two and the allowance, whatever the loaders return; with
an allowance of at least two, the reported usage is exactly its length. -/
theorem wholePack_bound (maxTokens : Nat) (sel : SectionSelection) (src : Sources ν) :
    ∃ allowance report,
      wholePackBudgetFor (some maxTokens) = some allowance ∧
      (buildAgentContextPack N (some maxTokens) sel src).wholePack = some report ∧
      report.contentCharLimit = max 2 allowance ∧
      serializedLength N (buildAgentContextPack N (some maxTokens) sel src).sections ≤
        max 2 allowance ∧
      (2 ≤ allowance → report.contentCharsUsed =
        serializedLength N (buildAgentContextPack N (some maxTokens) sel src).sections) := by
  obtain ⟨a, adm, hspent, hsec, hrep⟩ := buildAgentContextPack_spent (N := N) maxTokens sel src
  obtain ⟨hle, hused⟩ := hspent.length_eq
  refine ⟨maxTokens * charsPerToken - envelopeCharReserve,
    ⟨max 2 (maxTokens * charsPerToken - envelopeCharReserve), charsUsed a, SectionKey.priority⟩,
    rfl, ?_, rfl, ?_, ?_⟩
  · rw [hrep]
    simp [wholePackReport, wholePackSerializedLimitFor, hspent.budget]
  · rw [hsec]; exact hle
  · intro hb
    rw [hsec]; exact hused hb

/-- An allowance of 400 serves the `candidate_memory` envelope in 217. -/
example : (buildAgentContextPack Ecma.Numbers.nat (some 400)
    ⟨false, false, false, false, false, false, false, false, false, true⟩
    ⟨⟨none, []⟩, ⟨none, []⟩, fun _ => ⟨none, [], [], [], []⟩,
      fun _ => ⟨.empty none [], [], [], [], []⟩, fun _ => none, none, none,
      fun _ => ⟨[], [], []⟩⟩).wholePack = some ⟨400, 217, SectionKey.priority⟩ := by
  decide +kernel

end OpenBrain.Server.ContextPack
