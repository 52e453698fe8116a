import OpenBrain.Server.ContextPack.Pointers
import OpenBrain.Server.ContextPack.Emission
import OpenBrain.Core.Paging

/-!
# Walking the recall burst by burst

A caller replays one request with the `next` handle of the reply before, over a
fixed ranked recall, until a reply has no handle. `packPage` is what it sees of
one reply: the citation ids of `durable_memory` and the offset to replay.

The burst's end is fixed when the section is loaded. Afterwards the character
allowance may pass over a row, the re-fit may drop items from the tail, and a
section that does not fit at all is omitted with its handle. `reply_serves`
says that a page never shows a row outside its window and that the handle is
the window's end; `whole_iff_arrives` says when the window arrives in full.
-/
namespace OpenBrain.Server.ContextPack
open List

open OpenBrain.Core OpenBrain.Core.Paging

variable {ν : Type}

/-! ## One reply -/

/-- Numbers of which a request can carry a count back. -/
structure ReplayNumbers (ν : Type) extends Ecma.Numbers ν where
  toNat? : ν → Option Nat
  toNat?_ofNat : ∀ n, toNat? (ofNat n) = some n

def ReplayNumbers.nat : ReplayNumbers Nat where
  toNumbers := Ecma.Numbers.nat
  toNat? := some
  toNat?_ofNat _ := rfl

/-- `section.next.offset` -/
def nextOffset (N : ReplayNumbers ν) (s : Members ν) : Option Nat :=
  match s.get? (units "next") with
  | some (.obj handle) =>
    match Members.get? handle (units "offset") with
    | some (.num n) => N.toNat? n
    | _ => none
  | _ => none

def packPage (N : ReplayNumbers ν) (p : Pack ν) : Page Str :=
  match p.sections.get? SectionKey.durableMemory.name with
  | some (.obj s) => ⟨citationIds (itemsOf s), nextOffset N s⟩
  | _ => ⟨[], none⟩

/-- A request for `durable_memory` that is replayed over the recall `rows`. The
other sources answer as they like at each page. -/
structure BurstRequest (ν : Type) where
  maxTokens : Option Nat
  selection : SectionSelection
  query : Str
  priorContext : List RecallIdentity
  rows : List SearchRow
  others : Nat → Sources ν

namespace BurstRequest

def selected (r : BurstRequest ν) : SectionSelection :=
  { r.selection with
    durableMemorySection := true
    durableMemory := true }

/-- The loader's fragment for the page at `o`, under a content allowance. -/
def fragment (r : BurstRequest ν) (N : Ecma.Numbers ν) (netNew : List SearchRow) (o : Nat)
    (contentLimit : Option Nat) : LoadedMemory ν :=
  burstFragment N r.query r.rows.length netNew (some o)
    (resolveContentChars r.maxTokens contentLimit)

/-- Everything the pack at `o` is built from. -/
def sources (r : BurstRequest ν) (N : Ecma.Numbers ν) (netNew : List SearchRow) (o : Nat) :
    Sources ν :=
  { r.others o with
    memory := fun limit => (r.fragment N netNew o limit).context
    pointers := pointerItems N netNew }

/-- The pack for the page at `o`; `none` is a failed call. -/
def pack (r : BurstRequest ν) (N : Ecma.Numbers ν) (o : Nat) : Option (Pack ν) :=
  (suppressReferencedRecords r.rows r.priorContext).map fun netNew =>
    buildAgentContextPack N r.maxTokens r.selected (r.sources N netNew o)

def reply (r : BurstRequest ν) (N : ReplayNumbers ν) (o : Nat) : Page Str :=
  ((r.pack N.toNumbers o).map (packPage N)).getD ⟨[], none⟩

end BurstRequest

/-! ## What is left for the section -/

/-- The allocator when `durable_memory` is about to be served. -/
def beforeMemory (N : Ecma.Numbers ν) (maxTokens : Option Nat) (sel : SectionSelection)
    (src : Sources ν) : PackAllocator ν :=
  let a := createAllocator (wholePackBudgetFor maxTokens)
  let ws := if sel.workingSet then some src.workingSet else none
  let rc := if sel.recovery then some src.recovery else none
  let a := (admitAppendSection N a .workingSet (ws.bind AppendFragment.body)
    [units "item_count"]).1
  let a := (admitAppendSection N a .recovery (rc.bind AppendFragment.body)
    [units "item_count", units "pending_count"]).1
  let laneServing := sectionServing a .durableLaneContext
  let lane := if sel.durableLaneContext then some (src.lane laneServing.contentLimit) else none
  (admitDurableLaneSection N a (lane.bind LaneContext.body)
    ((lane.map LaneContext.citations).getD []) laneServing.frame laneServing.serving).1

namespace BurstRequest

variable (r : BurstRequest ν) (N : Ecma.Numbers ν) (netNew : List SearchRow) (o : Nat)

def allocator : PackAllocator ν := beforeMemory N r.maxTokens r.selected (r.others o)

/-- The characters left for the section; `none` is no limit. -/
def serving : Option Nat := (sectionServing (r.allocator N o) .durableMemory).serving

def loaded : LoadedMemory ν :=
  r.fragment N netNew o (sectionServing (r.allocator N o) .durableMemory).contentLimit

def loadedSection : FlaggedBody ν := (r.loaded N netNew o).context.«recall».section N

/-- The characters the loader may spend on bodies. -/
def contentChars : Option Nat := resolveContentChars r.maxTokens (r.serving N o)

/-- The burst at `o` survives: the allowance reaches each of its bodies and the
loaded section fits what is left, or there is no body in it and either the
emptied section fits or no later row has a body. -/
def Arrives : Prop :=
  reaches (r.contentChars N o) ((netNew.drop o).take burstItems) = true ∧
  (fits N (r.serving N o) (r.loadedSection N netNew o).body = true ∨
    burst netNew deliverable burstItems o = [] ∧
      (fits N (r.serving N o) (emptied N (r.loadedSection N netNew o).body) = true ∨
        (netNew.drop (o + burstItems)).filterMap deliverable = []))

instance : Decidable (r.Arrives N netNew o) := by
  unfold Arrives
  infer_instance

/-- What the admission emits at `o`. -/
def admittedBody : Option (Members ν) :=
  (admitDurableMemorySection N (r.allocator N o) (some (r.loadedSection N netNew o))
    (r.loaded N netNew o).context.citations
    (sectionServing (r.allocator N o) .durableMemory).frame (r.serving N o)).2.body

/-- The pack shows what the admission emits. -/
theorem get?_durableMemory :
    (buildAgentContextPack N r.maxTokens r.selected (r.sources N netNew o)).sections.get?
      SectionKey.durableMemory.name = (r.admittedBody N netNew o).map Json.obj :=
  assembleSections_durableMemory _ _ _ _ _ (buildStructuredSections_keys ..)

/-! ## What a page shows -/

theorem nextOffset_section (N : ReplayNumbers ν) (query : Str) (emptyReason : Option Str)
    (l : LoadedItems ν) (next : Option Nat) (recalled suppressed net : Nat) :
    nextOffset N
      ((Recall.burst query emptyReason l next recalled suppressed net).section N.toNumbers).body =
      next := by
  have hread := N.toNat?_ofNat
  cases emptyReason <;> cases next <;> first | rfl | exact hread _

theorem nextOffset_congr (N : ReplayNumbers ν) {s t : Members ν}
    (h : s.get? (units "next") = t.get? (units "next")) : nextOffset N s = nextOffset N t := by
  unfold nextOffset
  rw [h]

theorem itemsOf_loadedSection : itemsOf (r.loadedSection N netNew o).body =
    (buildBurstItems (r.contentChars N o) ((netNew.drop o).take burstItems) : BurstItems ν).items :=
  itemsOf_section ..

/-- The handle is the window's end, present while rows remain after it. -/
theorem nextOffset_loadedSection (N : ReplayNumbers ν) :
    nextOffset N (r.loadedSection N.toNumbers netNew o).body =
      if o + burstItems < netNew.length then some (o + burstItems) else none := by
  have hend : (burstWindow netNew (some o)).burstEnd =
      o + min burstItems (netNew.length - o) := by
    simp [burstWindow]
  refine (nextOffset_section ..).trans ?_
  have hmore : (burstWindow netNew (some o)).moreAfterBurst =
      decide (o + burstItems < netNew.length) := by
    simp only [burstWindow, Option.getD_some, length_take, List.length_drop, decide_eq_decide]
    omega
  rw [hmore, hend]
  by_cases hlt : o + burstItems < netNew.length
  · rw [Nat.min_eq_left (by omega)]
    simp [hlt]
  · simp [hlt]

theorem nextOffset_refitted (N : ReplayNumbers ν) (s : Members ν) (kept : List (Json ν)) :
    nextOffset N (reconcile (withItems N.toNumbers s [units "item_count"] kept)) =
      nextOffset N s :=
  nextOffset_congr N ((get?_reconcile _ (by decide) (by decide)).trans
    (get?_withItems (by decide) (by simp; decide)))

variable {r netNew}

theorem reply_eq (N : ReplayNumbers ν)
    (h : suppressReferencedRecords r.rows r.priorContext = some netNew) (o : Nat) :
    r.reply N o = ((r.admittedBody N.toNumbers netNew o).map fun s =>
      (⟨citationIds (itemsOf s), nextOffset N s⟩ : Page Str)).getD ⟨[], none⟩ := by
  simp only [reply, pack, h, Option.map_some, Option.getD_some, packPage, get?_durableMemory]
  cases r.admittedBody N.toNumbers netNew o <;> rfl

/-- The three things a page can be: the loaded section; a re-fitted one, with
items missing from the tail and the loaded handle; or nothing. -/
theorem reply_cases (N : ReplayNumbers ν)
    (h : suppressReferencedRecords r.rows r.priorContext = some netNew) (o : Nat) :
    let s := (r.loadedSection N.toNumbers netNew o).body
    (fits N.toNumbers (r.serving N.toNumbers o) s = true ∧
      r.reply N o = ⟨citationIds (itemsOf s), nextOffset N s⟩) ∨
    (fits N.toNumbers (r.serving N.toNumbers o) s = false ∧
      ∃ kept, kept.Sublist (itemsOf s).dropLast ∧
        (((kept ≠ [] ∨ fits N.toNumbers (r.serving N.toNumbers o) (emptied N.toNumbers s) = true) ∧
            r.reply N o = ⟨citationIds kept, nextOffset N s⟩) ∨
          (kept = [] ∧
            fits N.toNumbers (r.serving N.toNumbers o) (emptied N.toNumbers s) = false ∧
            r.reply N o = ⟨[], none⟩))) := by
  intro s
  rcases admitted_memory (N := N.toNumbers) (r.allocator N.toNumbers o)
    (r.loadedSection N.toNumbers netNew o) (r.loaded N.toNumbers netNew o).context.citations with
    ⟨hfit, hbody, -⟩ | ⟨hfit, kept, hsub, hrest⟩
  · refine .inl ⟨hfit, ?_⟩
    rw [reply_eq N h, admittedBody, serving, hbody]
    rfl
  · refine .inr ⟨hfit, kept, hsub, ?_⟩
    rcases hrest with ⟨hstay, hbody, -⟩ | ⟨hk, hemp, hbody, -⟩
    · refine .inl ⟨hstay, ?_⟩
      rw [reply_eq N h, admittedBody, serving, hbody]
      simp only [Option.map_some, Option.getD_some, itemsOf_reconcile, nextOffset_refitted]
      rfl
    · refine .inr ⟨hk, hemp, ?_⟩
      rw [reply_eq N h, admittedBody, serving, hbody]
      rfl

/-! ## The walk -/

/-- The items of a page belong to its window and its handle is the window's
end. -/
theorem reply_serves (N : ReplayNumbers ν)
    (h : suppressReferencedRecords r.rows r.priorContext = some netNew) :
    Serves netNew deliverable burstItems (r.reply N) := by
  have hids : ∀ o, (citationIds (itemsOf (r.loadedSection N.toNumbers netNew o).body)).Sublist
      (burst netNew deliverable burstItems o) := by
    intro o
    rw [itemsOf_loadedSection]
    exact buildBurstItems_ids _ _
  constructor
  · intro o
    rcases reply_cases N h o with ⟨-, hr⟩ | ⟨-, kept, hsub, ⟨-, hr⟩ | ⟨-, -, hr⟩⟩
    · rw [hr]
      exact hids o
    · rw [hr]
      exact ((hsub.trans (dropLast_sublist _)).filterMap _).trans (hids o)
    · rw [hr]
      exact nil_sublist _
  · intro o o' hnext
    have hloaded : (r.reply N o).next = none ∨
        (r.reply N o).next = nextOffset N (r.loadedSection N.toNumbers netNew o).body := by
      rcases reply_cases N h o with ⟨-, hr⟩ | ⟨-, kept, -, ⟨-, hr⟩ | ⟨-, -, hr⟩⟩ <;> simp [hr]
    rcases hloaded with hn | hn
    · simp [hn] at hnext
    · rw [hn, nextOffset_loadedSection] at hnext
      split at hnext
      · cases hnext
        exact ⟨rfl, ‹_›⟩
      · cases hnext

/-- A handle missing from a loaded section means that the window is the last. -/
theorem drop_eq_nil_of_nextOffset {N : ReplayNumbers ν} {o : Nat}
    (h : nextOffset N (r.loadedSection N.toNumbers netNew o).body = none) :
    netNew.drop (o + burstItems) = [] := by
  rw [nextOffset_loadedSection] at h
  split at h
  · cases h
  · rename_i hlt
    exact drop_eq_nil_of_le (by omega)

theorem whole_iff_arrives (N : ReplayNumbers ν)
    (h : suppressReferencedRecords r.rows r.priorContext = some netNew) (o : Nat) :
    Whole netNew deliverable burstItems (r.reply N) o ↔ r.Arrives N.toNumbers netNew o := by
  have hitems := r.itemsOf_loadedSection N.toNumbers netNew o
  have hreach := @buildBurstItems_ids_eq_iff ν (r.contentChars N.toNumbers o)
    ((netNew.drop o).take burstItems)
  have hsubset := @buildBurstItems_ids ν (r.contentChars N.toNumbers o)
    ((netNew.drop o).take burstItems)
  have hlength := @buildBurstItems_length ν (r.contentChars N.toNumbers o)
    ((netNew.drop o).take burstItems)
  rw [← hitems] at hreach hsubset hlength
  have hend : nextOffset N (r.loadedSection N.toNumbers netNew o).body = none →
      (netNew.drop (o + burstItems)).filterMap deliverable = [] :=
    fun hn => by rw [drop_eq_nil_of_nextOffset hn]; rfl
  unfold Whole Arrives
  rcases reply_cases N h o with ⟨hfit, hr⟩ | ⟨hfit, kept, hkept, hrest⟩
  · rw [hr, hfit, ← hreach]
    exact ⟨fun hw => ⟨hw.1, .inl rfl⟩, fun ha => ⟨ha.1, hend⟩⟩
  · -- once the loaded section is trimmed, only a burst without bodies is whole
    have hshort : (citationIds kept).length ≤
        (itemsOf (r.loadedSection N.toNumbers netNew o).body).length - 1 := by
      have h1 : (citationIds kept).length ≤ kept.length := length_filterMap_le _ _
      have h2 := hkept.length_le
      rw [length_dropLast] at h2
      omega
    have hnil : citationIds kept = burst netNew deliverable burstItems o →
        burst netNew deliverable burstItems o = [] := by
      intro heq
      have h1 := hsubset.length_le
      rw [← burst, ← heq, hlength] at h1
      rw [← heq]
      exact eq_nil_of_length_eq_zero (by omega)
    have hgone : burst netNew deliverable burstItems o = [] → kept = [] ∧
        reaches (r.contentChars N.toNumbers o) ((netNew.drop o).take burstItems) = true := by
      intro hb
      have hids : citationIds (itemsOf (r.loadedSection N.toNumbers netNew o).body) = [] :=
        eq_nil_of_sublist_nil (hb ▸ hsubset)
      have hlen0 : (itemsOf (r.loadedSection N.toNumbers netNew o).body).length = 0 := by
        rw [← hlength, hids, length_nil]
      refine ⟨?_, hreach.mp (hids.trans hb.symm)⟩
      have h2 := hkept.length_le
      rw [length_dropLast] at h2
      exact eq_nil_of_length_eq_zero (by omega)
    rw [hfit]
    rcases hrest with ⟨hstay, hr⟩ | ⟨hk, hemp, hr⟩
    · rw [hr]
      constructor
      · rintro ⟨heq, -⟩
        have hb := hnil heq
        obtain ⟨hk, hreaches⟩ := hgone hb
        refine ⟨hreaches, .inr ⟨hb, .inl ?_⟩⟩
        exact hstay.resolve_left fun hne => hne hk
      · rintro ⟨-, hf | ⟨hb, -⟩⟩
        · cases hf
        · obtain ⟨hk, -⟩ := hgone hb
          exact ⟨by rw [hk, hb]; rfl, hend⟩
    · rw [hr, hemp]
      constructor
      · rintro ⟨heq, hlater⟩
        exact ⟨(hgone heq.symm).2, .inr ⟨heq.symm, .inr (hlater rfl)⟩⟩
      · rintro ⟨-, hf | ⟨hb, hf | hlater⟩⟩
        · cases hf
        · cases hf
        · exact ⟨hb.symm, fun _ => hlater⟩

end BurstRequest

/-- **Burst walk.** Replaying a request until no handle is left takes finitely
many pages, and they show every net-new row with a body exactly once if and only
if each burst of the ranking survives the page it is served on. -/
theorem burst_walk (N : ReplayNumbers ν) (r : BurstRequest ν) (netNew : List SearchRow)
    (h : suppressReferencedRecords r.rows r.priorContext = some netNew) :
    (∃ pages, Walk (r.reply N) 0 pages) ∧
    ∀ pages, Walk (r.reply N) 0 pages →
      ((received pages).Perm (netNew.filterMap deliverable) ↔
        ∀ k, r.Arrives N.toNumbers netNew (k * burstItems)) := by
  have hserves := BurstRequest.reply_serves N h
  refine ⟨hserves.exists_walk (by decide) 0, fun pages hwalk => ?_⟩
  rw [hserves.perm_iff hwalk]
  exact forall_congr' fun k => BurstRequest.whole_iff_arrives N h _

/-! ## Eleven rows, three with a body, under 450 tokens -/

/-- Stores with nothing in them. -/
def silentSources : Sources Nat where
  workingSet := ⟨none, []⟩
  recovery := ⟨none, []⟩
  lane _ := ⟨none, [], [], [], []⟩
  memory _ := ⟨.empty none [], [], [], [], []⟩
  guidance _ := none
  repo := none
  repoFacts := none
  pointers _ := ⟨[], [], []⟩

def rankedRow (n : Nat) : SearchRow where
  sourceType := units "thought"
  id := decimal n
  «namespace» := some (units "team")
  contentPreview := if n = 0 ∨ n = 1 ∨ n = 10 then some (units "body") else none
  createdAt := units "2026"
  updatedAt := none
  tier := none
  sourceRef := none

/-- 600 characters hold one item of the section. -/
def tightRequest : BurstRequest Nat where
  maxTokens := some 450
  selection := ⟨false, false, false, false, false, false, false, false, false, false⟩
  query := units "q"
  priorContext := []
  rows := (List.range 11).map rankedRow
  others _ := silentSources

theorem burst_walk_tightRequest :
    (∃ pages, Walk (tightRequest.reply ReplayNumbers.nat) 0 pages) ∧
    ∀ pages, Walk (tightRequest.reply ReplayNumbers.nat) 0 pages →
      ((received pages).Perm (tightRequest.rows.filterMap deliverable) ↔
        ∀ k, tightRequest.Arrives Ecma.Numbers.nat tightRequest.rows (k * burstItems)) :=
  burst_walk ReplayNumbers.nat tightRequest tightRequest.rows (by decide +kernel)

/-- The first page has room for one of its two bodies and its handle skips the
other; the second page shows the eleventh row and ends the walk. -/
theorem refit_loses_rows :
    suppressReferencedRecords tightRequest.rows tightRequest.priorContext =
      some tightRequest.rows ∧
    ∃ pages, Walk (tightRequest.reply ReplayNumbers.nat) 0 pages ∧
      received pages = [recordCitationId (rankedRow 0), recordCitationId (rankedRow 10)] ∧
      ¬(received pages).Perm (tightRequest.rows.filterMap deliverable) := by
  obtain ⟨hnew, hfirst, hsecond, hlen⟩ :
      suppressReferencedRecords tightRequest.rows tightRequest.priorContext =
        some tightRequest.rows ∧
      tightRequest.reply ReplayNumbers.nat 0 = ⟨[recordCitationId (rankedRow 0)], some 10⟩ ∧
      tightRequest.reply ReplayNumbers.nat 10 = ⟨[recordCitationId (rankedRow 10)], none⟩ ∧
      (tightRequest.rows.filterMap deliverable).length = 3 := by decide +kernel
  have hwalk : Walk (tightRequest.reply ReplayNumbers.nat) 0
      [⟨[recordCitationId (rankedRow 0)], some 10⟩, ⟨[recordCitationId (rankedRow 10)], none⟩] := by
    rw [← hfirst, ← hsecond]
    exact .more (by rw [hfirst]) (.last (by rw [hsecond]))
  refine ⟨hnew, _, hwalk, rfl, fun hperm => ?_⟩
  have := hperm.length_eq
  rw [hlen] at this
  simp [received] at this

end OpenBrain.Server.ContextPack
