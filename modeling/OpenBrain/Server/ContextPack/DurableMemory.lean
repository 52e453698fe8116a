import OpenBrain.Server.ContextPack.PriorContext

/-!
# `durable_memory`: one burst of the ranked recall

`server/tools/context-pack-durable-memory.ts` and the two helpers it takes from
`context-pack-shared.ts`. A limit of `Number.MAX_SAFE_INTEGER` is `none` here:
no text a process holds reaches it.

The burst window is cut from the net-new rows first; only then does the
character allowance run down over the rows of the window. `buildBurstItems_ids`
says which rows get an item, `buildBurstItems_ids_eq_iff` when all rows with a
body do.
-/
namespace OpenBrain.Server.ContextPack

open OpenBrain.Core List

variable {ν : Type} (N : Ecma.Numbers ν)

/-! ## Shared helpers -/

/-- mirrors server/tools/context-pack-shared.ts:32 -/
def unbounded : Nat := 9007199254740991

/-- mirrors server/tools/context-pack-shared.ts:48-66 -/
def resolveContentChars (maxTokens contentCharLimit : Option Nat) : Option Nat :=
  match contentCharLimit with
  | some limit => some limit
  | none => maxTokens.map fun m => m * charsPerToken - envelopeCharReserve

structure BoundedText where
  text : Option Str
  truncated : Bool
  deriving DecidableEq, Repr

/-- `typeof value === "string" && value.length > 0` -/
def hasText (value : Option Str) : Bool := value.any fun v => !v.isEmpty

/-- mirrors server/tools/context-pack-shared.ts:72-84 -/
def boundedText (value : Option Str) (maxChars : Option Nat) : BoundedText :=
  match value with
  | none => ⟨none, false⟩
  | some v =>
    if v.isEmpty || decide (maxChars = some 0) then ⟨none, !v.isEmpty⟩
    else
      match maxChars with
      | none => ⟨some v, false⟩
      | some m => if v.length ≤ m then ⟨some v, false⟩ else ⟨some (v.take m), true⟩

/-! ## The burst -/

/-- mirrors server/tools/context-pack-durable-memory.ts:74 -/
def burstItems : Nat := 10

structure BurstWindow where
  burstOffset : Nat
  burstRows : List SearchRow
  burstEnd : Nat
  moreAfterBurst : Bool

/-- The requested offset is a non-negative integer when it is there at all.
mirrors server/tools/context-pack-durable-memory.ts:373-394 -/
def burstWindow (netNewRows : List SearchRow) (requestedOffset : Option Nat) : BurstWindow :=
  let burstOffset := requestedOffset.getD 0
  let burstRows := (netNewRows.drop burstOffset).take burstItems
  let burstEnd := burstOffset + burstRows.length
  ⟨burstOffset, burstRows, burstEnd, decide (burstEnd < netNewRows.length)⟩

structure BurstItems (ν : Type) where
  items : List (Json ν)
  citations : List (Members ν)
  remainingChars : Option Nat
  itemsTruncated : Bool

def recordItem (row : SearchRow) (text : Str) : Json ν :=
  .obj [(units "id", .str row.id), (units "source_type", .str row.sourceType),
    (units "namespace", orNull row.«namespace»), (units "content", .str text),
    (units "created_at", .str row.createdAt), (units "updated_at", orNull row.updatedAt),
    (units "tier", orNull row.tier), (units "citation_id", .str (recordCitationId row)),
    (units "source_ref", (recordSourceRef row).toJson)]

def recordCitation (row : SearchRow) : Members ν :=
  [(units "id", .str (recordCitationId row)), (units "kind", .str (units "brain_record")),
    (units "source_ref", (recordSourceRef row).toJson)]

/-- The loop over the burst, from the characters left.
mirrors server/tools/context-pack-durable-memory.ts:311-360 -/
def buildBurstItems : Option Nat → List SearchRow → BurstItems ν
  | remaining, [] => ⟨[], [], remaining, false⟩
  | remaining, row :: rows =>
    let bounded := boundedText row.contentPreview remaining
    match bounded.text with
    | none =>
      let rest := buildBurstItems remaining rows
      { rest with itemsTruncated := hasText row.contentPreview || rest.itemsTruncated }
    | some text =>
      let rest := buildBurstItems (remaining.map (· - text.length)) rows
      { items := recordItem row text :: rest.items
        citations := recordCitation row :: rest.citations
        remainingChars := rest.remainingChars
        itemsTruncated := bounded.truncated || rest.itemsTruncated }

/-- mirrors server/tools/context-pack-durable-memory.ts:406-423 -/
def memoryTruncationEntries (burst : BurstItems ν) (burstRowCount netNew : Nat)
    (maxContentChars : Option Nat) : List (Members ν) :=
  let unemittableNetNew :=
    burst.items.isEmpty && decide (0 < burstRowCount) && decide (0 < netNew)
  if !burst.itemsTruncated && !unemittableNetNew then []
  else [[(units "source", .str (units "durable_memory.items")),
    (units "burst_items", .num (N.ofNat burstItems)),
    (units "max_item_chars", .num (N.ofNat unbounded)),
    (units "content_char_limit", .num (N.ofNat (maxContentChars.getD unbounded)))]]

/-- mirrors server/tools/context-pack-durable-memory.ts:442-465 -/
def resolveEmptyReason (itemCount burstRowCount burstOffset netNew suppressed
    recalledRowCount : Nat) : Option Str :=
  if 0 < itemCount then none
  else if burstRowCount = 0 ∧ 0 < burstOffset then some (units "walk_complete")
  else if 0 < netNew then some (units "content_unavailable")
  else if 0 < recalledRowCount ∧ suppressed = recalledRowCount then some (units "all_suppressed")
  else some (units "no_matches")

/-! ## The loader -/

/-- What validation and the one retrieval call answer. -/
inductive RecallReply where
  | noQuery
  | noReadableTables (query : Str)
  | failed (query : Str)
  | found (query : Str) (rows : List SearchRow)

structure LoadedMemory (ν : Type) where
  context : MemoryContext ν
  pointerCandidatePool : List SearchRow

/-- mirrors server/tools/context-pack-durable-memory.ts:209-225 -/
def emptyFragment (query : Option Str) (emptyReason : Str)
    (scopeDenials degradedSources : List (Members ν)) : LoadedMemory ν :=
  ⟨⟨.empty query emptyReason, scopeDenials, [], degradedSources, []⟩, []⟩

/-- The fragment for the net-new rows of a recall of `recalled` rows.
mirrors server/tools/context-pack-durable-memory.ts:547-631 -/
def burstFragment (query : Str) (recalled : Nat) (netNewRows : List SearchRow)
    (continueFrom maxContentChars : Option Nat) : LoadedMemory ν :=
  let window := burstWindow netNewRows continueFrom
  let burst : BurstItems ν := buildBurstItems maxContentChars window.burstRows
  let truncation :=
    memoryTruncationEntries N burst window.burstRows.length netNewRows.length maxContentChars
  let suppressed := recalled - netNewRows.length
  let emptyReason := resolveEmptyReason burst.items.length window.burstRows.length
    window.burstOffset netNewRows.length suppressed recalled
  { context :=
      { «recall» := .burst query emptyReason ⟨burst.items, burst.citations, truncation⟩
          (if window.moreAfterBurst then some window.burstEnd else none)
          recalled suppressed netNewRows.length
        scopeDenials := []
        truncation := truncation
        degradedSources := []
        citations := burst.citations }
    pointerCandidatePool := netNewRows }

/-- The recalled rows that prior context does not represent; `none` is the
`ZodError` of an identity that does not parse. -/
def netNewRows (reply : RecallReply) (priorContext : List RecallIdentity) :
    Option (List SearchRow) :=
  match reply with
  | .found _ rows => suppressReferencedRecords rows priorContext
  | _ => some []

/-- mirrors server/tools/context-pack-durable-memory.ts:471-523,282-300,547-631 -/
def memoryFragment (reply : RecallReply) (netNew : List SearchRow)
    (continueFrom maxContentChars : Option Nat) : LoadedMemory ν :=
  match reply with
  | .noQuery => emptyFragment none (units "no_query") [] []
  | .noReadableTables query =>
    emptyFragment (some query) (units "no_readable_tables")
      [[(units "source", .str (units "durable_memory")),
        (units "reasons", .arr [.str (units "no_readable_tables")])]] []
  | .failed query =>
    emptyFragment (some query) (units "recall_failed") []
      [[(units "source", .str (units "durable_memory")),
        (units "reason", .str (units "recall_failed"))]]
  | .found query rows =>
    burstFragment N query rows.length netNew continueFrom maxContentChars

/-- mirrors server/tools/context-pack-durable-memory.ts:525-632 -/
def loadDurableMemoryContext (maxTokens : Option Nat) (priorContext : List RecallIdentity)
    (continueFrom : Option Nat) (reply : RecallReply) (contentCharLimit : Option Nat) :
    Option (LoadedMemory ν) :=
  (netNewRows reply priorContext).map fun netNew =>
    memoryFragment N reply netNew continueFrom (resolveContentChars maxTokens contentCharLimit)

/-! ## Which rows get an item -/

variable {N}

def citationIds (items : List (Json ν)) : List Str :=
  items.filterMap (strField (units "citation_id"))

/-- The `id` of each of a list of citations. -/
def citedBy (citations : List (Members ν)) : List (Option Str) :=
  citations.map fun c => strField (units "id") (.obj c)

theorem citationIds_map {α : Type} {f : α → Json ν} {g : α → Str}
    (h : ∀ x, strField (units "citation_id") (f x) = some (g x)) (xs : List α) :
    citationIds (xs.map f) = xs.map g := by
  induction xs with
  | nil => rfl
  | cons x xs ih =>
    rw [map_cons, citationIds, filterMap_cons_some (h x), map_cons]
    exact congrArg _ ih

theorem citedBy_map {α : Type} {f : α → Members ν} {g : α → Str}
    (h : ∀ x, strField (units "id") (.obj (f x)) = some (g x)) (xs : List α) :
    citedBy (xs.map f) = (xs.map g).map some := by
  rw [citedBy, map_map, map_map]
  exact map_congr_left fun x _ => h x

@[simp] theorem strField_recordItem (row : SearchRow) (text : Str) :
    strField (units "citation_id") (recordItem row text : Json ν) =
      some (recordCitationId row) := rfl

@[simp] theorem strField_recordCitation (row : SearchRow) :
    strField (units "id") (.obj (recordCitation row) : Json ν) = some (recordCitationId row) := rfl

theorem exists_of_hasText {value : Option Str} (h : hasText value = true) :
    ∃ v, value = some v ∧ v ≠ [] := by
  cases value with
  | none => simp [hasText] at h
  | some v => exact ⟨v, rfl, by simpa [hasText] using h⟩

def deliverable (row : SearchRow) : Option Str :=
  if hasText row.contentPreview then some (recordCitationId row) else none

theorem deliverable_of_text {row : SearchRow} {remaining : Option Nat} {text : Str}
    (h : (boundedText row.contentPreview remaining).text = some text) :
    deliverable row = some (recordCitationId row) := by
  unfold boundedText at h
  cases hp : row.contentPreview with
  | none => simp [hp] at h
  | some v =>
    cases v with
    | nil => simp [hp] at h
    | cons u v => simp [deliverable, hp, hasText]

/-- The characters left reach every row with a body: the first character of
each is still paid for. -/
def reaches : Option Nat → List SearchRow → Bool
  | _, [] => true
  | remaining, row :: rows =>
    (!hasText row.contentPreview || decide (remaining ≠ some 0)) &&
      reaches (remaining.map (· - (row.contentPreview.getD []).length)) rows

/-- A body is cut where the characters end. -/
theorem boundedText_spec {v : Str} (hv : v ≠ []) (remaining : Option Nat) :
    (remaining = some 0 ∧ boundedText (some v) remaining = ⟨none, true⟩) ∨
    (remaining ≠ some 0 ∧ ∃ text truncated, boundedText (some v) remaining = ⟨some text, truncated⟩ ∧
      remaining.map (· - text.length) = remaining.map (· - v.length)) := by
  have hemp : v.isEmpty = false := by simpa using hv
  cases remaining with
  | none => exact .inr ⟨by simp, v, false, by simp [boundedText, hemp], rfl⟩
  | some m =>
    cases m with
    | zero => exact .inl ⟨rfl, by simp [boundedText, hemp]⟩
    | succ m =>
      refine .inr ⟨by simp, ?_⟩
      by_cases hle : v.length ≤ m + 1
      · exact ⟨v, false, by simp [boundedText, hemp, hle], rfl⟩
      · refine ⟨v.take (m + 1), true, by simp [boundedText, hemp, hle], ?_⟩
        simp only [Option.map_some, length_take, Option.some.injEq]
        omega

/-- The items are those of some of the rows with a body, in rank order. -/
theorem buildBurstItems_ids (remaining : Option Nat) (rows : List SearchRow) :
    (citationIds (buildBurstItems remaining rows : BurstItems ν).items).Sublist
      (rows.filterMap deliverable) := by
  induction rows generalizing remaining with
  | nil => simp [buildBurstItems, citationIds]
  | cons row rows ih =>
    simp only [buildBurstItems]
    split
    · rw [filterMap_cons]
      split
      · exact ih _
      · exact (ih _).trans (sublist_cons_self ..)
    · rename_i text htext
      rw [filterMap_cons_some (deliverable_of_text htext)]
      simpa [citationIds] using ih (remaining.map (· - text.length))

theorem buildBurstItems_cons_of_not {remaining : Option Nat} {row : SearchRow}
    {rows : List SearchRow} (h : hasText row.contentPreview = false) :
    (buildBurstItems remaining (row :: rows) : BurstItems ν).items =
      (buildBurstItems remaining rows).items ∧
    reaches remaining (row :: rows) = reaches remaining rows := by
  have hlen : (row.contentPreview.getD []).length = 0 := by
    cases hp : row.contentPreview with
    | none => rfl
    | some v => simpa [hasText, hp] using h
  have hmap : remaining.map (· - (row.contentPreview.getD []).length) = remaining := by
    cases remaining with
    | none => rfl
    | some m => simp [hlen]
  refine ⟨?_, by simp only [reaches, h, hmap, Bool.not_false, Bool.true_or, Bool.true_and]⟩
  cases hp : row.contentPreview with
  | none => simp [buildBurstItems, hp, boundedText]
  | some v =>
    have : v = [] := by simpa [hasText, hp] using h
    simp [buildBurstItems, hp, boundedText, this]

/-- Every row with a body gets an item exactly when the characters reach them
all. -/
theorem buildBurstItems_ids_eq_iff (remaining : Option Nat) (rows : List SearchRow) :
    citationIds (buildBurstItems remaining rows : BurstItems ν).items = rows.filterMap deliverable ↔
      reaches remaining rows = true := by
  induction rows generalizing remaining with
  | nil => simp [buildBurstItems, citationIds, reaches]
  | cons row rows ih =>
    cases htext : hasText row.contentPreview with
    | false =>
      obtain ⟨hitems, hreach⟩ := @buildBurstItems_cons_of_not ν remaining row rows htext
      rw [hitems, hreach, filterMap_cons_none (by simp [deliverable, htext])]
      exact ih remaining
    | true =>
      obtain ⟨v, hv, hne⟩ := exists_of_hasText htext
      rw [filterMap_cons_some (b := recordCitationId row) (by simp [deliverable, htext])]
      rcases boundedText_spec hne remaining with ⟨h0, hbt⟩ | ⟨h0, text, truncated, hbt, hrem⟩
      · -- the row is passed over, so the items are one short
        have hlen := (@buildBurstItems_ids ν remaining rows).length_le
        have hitems : (buildBurstItems remaining (row :: rows) : BurstItems ν).items =
            (buildBurstItems remaining rows).items := by simp [buildBurstItems, hv, hbt]
        have hreach : reaches remaining (row :: rows) = false := by
          simp [reaches, htext, h0]
        rw [hitems, hreach]
        constructor
        · intro heq
          rw [heq, length_cons] at hlen
          omega
        · intro hf
          cases hf
      · have hitems : citationIds (buildBurstItems remaining (row :: rows) : BurstItems ν).items =
            recordCitationId row ::
              citationIds (buildBurstItems (remaining.map (· - v.length)) rows : BurstItems ν).items := by
          simp [buildBurstItems, hv, hbt, hrem, citationIds]
        rw [hitems, List.cons.injEq, ih]
        simp [reaches, hv, h0]

theorem buildBurstItems_length (remaining : Option Nat) (rows : List SearchRow) :
    (citationIds (buildBurstItems remaining rows : BurstItems ν).items).length =
      (buildBurstItems remaining rows : BurstItems ν).items.length := by
  induction rows generalizing remaining with
  | nil => rfl
  | cons row rows ih =>
    simp only [buildBurstItems]
    split
    · exact ih _
    · simpa [citationIds] using ih _

theorem buildBurstItems_citations (remaining : Option Nat) (rows : List SearchRow) :
    citedBy (buildBurstItems remaining rows : BurstItems ν).citations =
      (citationIds (buildBurstItems remaining rows : BurstItems ν).items).map some := by
  induction rows generalizing remaining with
  | nil => rfl
  | cons row rows ih =>
    simp only [buildBurstItems]
    split
    · exact ih _
    · simpa [citedBy, citationIds] using ih _

theorem itemsOf_section (query : Str) (emptyReason : Option Str) (l : LoadedItems ν)
    (next : Option Nat) (recalled suppressed net : Nat) :
    itemsOf ((Recall.burst query emptyReason l next recalled suppressed net).section N).body =
      l.items := by
  cases emptyReason <;> rfl

end OpenBrain.Server.ContextPack
