import OpenBrain.Core.PyJson

/-!
# The recall prompt and its budget (`agent.py`)

`_bounded_items` takes results while their texts fit in `max_chars`, and `_prompt_text` writes one
line for each, its prefix and its text cut to what is left of `max_chars`. The lines are then
joined, and the newlines between them are in no budget: `prompt_budget` says for which policies and
limits no response can make the prompt too long, and which responses do not.

A Python string is its code points here, since lengths and slices count those.
-/
namespace OpenBrain.Memory.Recall
open OpenBrain.Core OpenBrain.Core.Py List

/-! ## Texts -/

abbrev Text := List Nat

def text (s : String) : Text := s.toList.map Char.toNat

/-- `str.isspace` of one code point. -/
def isSpace (c : Nat) : Bool := decide (c < 0x10000) && Py.isSpace (UInt16.ofNat c)

def rstrip (t : Text) : Text := t.rdropWhile isSpace

def strip (t : Text) : Text := rstrip (t.dropWhile isSpace)

/-- mirrors agent.py:1287-1294 -/
def trim (t : Text) (max_chars : Nat) : Text :=
  if max_chars < 1 then []
  else if t.length ≤ max_chars then t
  else if max_chars ≤ 3 then List.replicate max_chars '.'.toNat
  else rstrip (t.take (max_chars - 3)) ++ text "..."

/-! ## Policies and items -/

/-- mirrors agent.py:206-218; a policy that its checks refuse cannot be built. -/
structure MemoryPolicy where
  max_items : Nat
  max_chars : Nat
  max_item_chars : Nat
  items_pos : 1 ≤ max_items
  chars_pos : 1 ≤ max_chars
  item_chars_pos : 1 ≤ max_item_chars

/-- The limit of a recall, `none` for one that raises. mirrors agent.py:1142-1147 -/
def effective_limit (policy : MemoryPolicy) : Option Int → Option Nat
  | none => some policy.max_items
  | some limit => if limit < 1 then none else some (min limit.toNat policy.max_items)

/-- mirrors agent.py:221-227 -/
structure MemoryItem where
  text : Text
  source : Option Text
  kind : Option Text
  score : Option Number
  metadata : Items

/-- mirrors agent.py:1302-1303 -/
def optional_str : Option PyJson → Option Text
  | some (.str s) => some (codePoints s)
  | _ => none

/-- `none` for an integer that `float` refuses. mirrors agent.py:1306-1311 -/
def optional_float : Option PyJson → Option (Option Number)
  | some (.num (.int n)) =>
    (Double.ofDec (Dec.make (decide (n < 0)) n.natAbs 0)).map fun d => some (.float d)
  | some (.num n) => some (some n)
  | _ => some none

/-- mirrors agent.py:1279-1284 -/
def result_text (result : Items) : Text :=
  match ["text", "content", "summary", "memory"].findSome? fun key =>
    optional_str (Members.get? result (units key)) with
  | some value => strip value
  | none => []

/-- mirrors agent.py:1480-1482 -/
def bounded_metadata (result : Items) : Items :=
  ["id", "path", "collection", "tags", "tier"].filterMap fun key =>
    (Members.get? result (units key)).map fun value => (units key, value)

/-- `result.get("kind") or result.get("type")` -/
def kindOf (result : Items) : Option PyJson :=
  let kind := Members.get? result (units "kind")
  if truthy kind then kind else Members.get? result (units "type")

/-- The item of a result, `none` where the score raises. mirrors agent.py:1246-1252 -/
def memory_item (policy : MemoryPolicy) (result : Items) : Option MemoryItem :=
  (optional_float (Members.get? result (units "score"))).map fun score =>
    { text := trim (result_text result) policy.max_item_chars
      source := optional_str (Members.get? result (units "source"))
      kind := optional_str (kindOf result)
      score := score
      metadata := bounded_metadata result }

/-- The loop of `_bounded_items`. mirrors agent.py:1237-1255 -/
def itemLoop (policy : MemoryPolicy) (limit : Nat) :
    List PyJson → List MemoryItem → Nat → Option (List MemoryItem)
  | [], items, _ => some items
  | .obj result :: results, items, used_chars =>
    if result_text result = [] then itemLoop policy limit results items used_chars
    else
      let length := (trim (result_text result) policy.max_item_chars).length
      if policy.max_chars < used_chars + length ∧ items ≠ [] then some items
      else
        match memory_item policy result with
        | none => none
        | some item =>
          if limit ≤ (items ++ [item]).length then some (items ++ [item])
          else itemLoop policy limit results (items ++ [item]) (used_chars + length)
  | _ :: results, items, used_chars => itemLoop policy limit results items used_chars

/-- `none` where a score raises. mirrors agent.py:1228-1256 -/
def bounded_items (raw : Items) (policy : MemoryPolicy) (limit : Nat) : Option (List MemoryItem) :=
  match Members.get? raw (units "results") with
  | some (.arr results) => itemLoop policy limit results [] 0
  | _ => some []

/-! ## The prompt -/

/-- mirrors agent.py:1267-1269 -/
def prefixOf (item : MemoryItem) : Text :=
  let prefix_parts := [item.kind, item.source].filterMap fun part => part.filter (· ≠ [])
  text "- " ++
    if prefix_parts = [] then []
    else text "[" ++ (text "/").intercalate prefix_parts ++ text "] "

/-- The lines of a prompt. mirrors agent.py:1264-1275 -/
def lineLoop (policy : MemoryPolicy) : List MemoryItem → Nat → List Text
  | [], _ => []
  | item :: items, used_chars =>
    if policy.max_chars ≤ used_chars + (prefixOf item).length then []
    else
      let line := prefixOf item ++
        trim item.text (policy.max_chars - used_chars - (prefixOf item).length)
      line :: lineLoop policy items (used_chars + line.length)

def prompt_lines (items : List MemoryItem) (policy : MemoryPolicy) : List Text :=
  lineLoop policy items 0

/-- mirrors agent.py:1263-1276 -/
def prompt_text (items : List MemoryItem) (policy : MemoryPolicy) : Text :=
  (text "\n").intercalate (prompt_lines items policy)

/-! ## What the prompt is to keep -/

def resultsOf (raw : Items) : List PyJson :=
  match Members.get? raw (units "results") with
  | some (.arr results) => results
  | _ => []

def usable : List PyJson → List Items
  | [] => []
  | .obj result :: results =>
    if result_text result = [] then usable results else result :: usable results
  | _ :: results => usable results

structure InBudget (raw : Items) (policy : MemoryPolicy) (limit : Nat)
    (items : List MemoryItem) : Prop where
  chars : (prompt_text items policy).length ≤ policy.max_chars
  lines : (prompt_lines items policy).length ≤ limit
  trimmed : ∀ item ∈ items, item.text.length ≤ policy.max_item_chars
  ordered : ∃ k, ((usable (resultsOf raw)).take k).mapM (memory_item policy) = some items

/-- No response makes the prompt too long: there is one item, there is no room for a second line,
or the few lines there is room for cannot fill it. -/
def Tame (policy : MemoryPolicy) (limit : Nat) : Prop :=
  limit = 1 ∨ policy.max_chars ≤ 5 ∨
    2 * policy.max_item_chars + 4 < policy.max_chars ∧
      (policy.max_chars ≤ 8 ∨ policy.max_chars = 9 ∧ limit = 2)

/-- Every item whose prefix still has room leaves, with its text cut to the room, as many units
over as lines were written before it. -/
def Roomy (policy : MemoryPolicy) : List MemoryItem → Nat → Nat → Prop
  | [], _, _ => True
  | item :: items, used_chars, written =>
    policy.max_chars ≤ used_chars + (prefixOf item).length ∨
      let length := (prefixOf item).length +
        (trim item.text (policy.max_chars - used_chars - (prefixOf item).length)).length
      used_chars + length + written ≤ policy.max_chars ∧
        Roomy policy items (used_chars + length) (written + 1)

/-! ## Lengths -/

theorem length_rstrip_le (t : Text) : (rstrip t).length ≤ t.length :=
  (List.rdropWhile_prefix isSpace t).length_le

theorem length_trim_le (t : Text) (max_chars : Nat) : (trim t max_chars).length ≤ max_chars := by
  unfold trim
  have hcut := length_rstrip_le (t.take (max_chars - 3))
  split
  · exact Nat.zero_le _
  split
  · assumption
  split
  · simp
  · simp only [length_append, length_take] at hcut ⊢
    have hdots : (text "...").length = 3 := rfl
    omega

theorem length_trim_le_length (t : Text) (max_chars : Nat) :
    (trim t max_chars).length ≤ t.length := by
  have hle := length_trim_le t max_chars
  by_cases h : t.length ≤ max_chars
  · unfold trim
    rw [if_pos h]
    split
    · exact Nat.zero_le _
    · exact Nat.le_refl _
  · omega

theorem trim_of_le {t : Text} {max_chars : Nat} (hpos : 1 ≤ max_chars) (h : t.length ≤ max_chars) :
    trim t max_chars = t := by
  unfold trim
  rw [if_neg (by omega), if_pos h]

theorem trim_ne_nil {t : Text} {max_chars : Nat} (ht : t ≠ []) (hpos : 1 ≤ max_chars) :
    trim t max_chars ≠ [] := by
  unfold trim
  rw [if_neg (by omega)]
  split
  · exact ht
  split
  · simp
    omega
  · simp [text]

/-- A prefix is the dash, or it has brackets around something. -/
theorem length_prefixOf (item : MemoryItem) :
    (prefixOf item).length = 2 ∨ 6 ≤ (prefixOf item).length := by
  unfold prefixOf
  dsimp only
  split
  · exact .inl rfl
  · rename_i hne
    right
    obtain ⟨part, parts, hparts⟩ := exists_cons_of_ne_nil hne
    have hpart : part ≠ [] := by
      have hmem := hparts ▸ mem_cons_self (a := part) (l := parts)
      obtain ⟨p, -, hp⟩ := mem_filterMap.mp hmem
      simpa using (Option.filter_eq_some_iff.mp hp).2
    have hjoin : 1 ≤ ((text "/").intercalate (part :: parts)).length := by
      have hlen := length_pos_of_ne_nil hpart
      cases parts <;> simp [List.intercalate] <;> omega
    rw [hparts]
    have h₁ : (text "- ").length = 2 := rfl
    have h₂ : (text "[").length = 1 := rfl
    have h₃ : (text "] ").length = 2 := rfl
    simp only [length_append]
    omega

theorem length_intercalate_newline (lines : List Text) :
    ((text "\n").intercalate lines).length =
      (lines.map List.length).sum + (lines.length - 1) := by
  induction lines with
  | nil => rfl
  | cons line lines ih =>
    cases lines with
    | nil => simp [List.intercalate]
    | cons next lines =>
      have hone : (text "\n").length = 1 := rfl
      rw [intercalate_cons_cons, length_append, length_append, ih]
      simp only [map_cons, sum_cons, length_cons]
      omega

section Lines
variable {policy : MemoryPolicy} {items : List MemoryItem}

theorem length_lineLoop_le (items : List MemoryItem) (used_chars : Nat) :
    (lineLoop policy items used_chars).length ≤ items.length := by
  induction items generalizing used_chars with
  | nil => exact Nat.le_refl _
  | cons item items ih =>
    rw [lineLoop]
    split
    · exact Nat.zero_le _
    · exact Nat.succ_le_succ (ih _)

/-- The lines behind some others, with all newlines, stay within the budget. -/
theorem roomy_iff (items : List MemoryItem) (used_chars written : Nat) :
    Roomy policy items used_chars written ↔
      (lineLoop policy items used_chars = [] ∨
        used_chars + ((lineLoop policy items used_chars).map List.length).sum + written +
          (lineLoop policy items used_chars).length ≤ policy.max_chars + 1) := by
  induction items generalizing used_chars written with
  | nil => simp [Roomy, lineLoop]
  | cons item items ih =>
    rw [Roomy, lineLoop]
    by_cases hstop : policy.max_chars ≤ used_chars + (prefixOf item).length
    · simp [hstop]
    · rw [if_neg hstop]
      simp only [hstop, false_or, cons_ne_nil, map_cons, sum_cons,
        length_cons, length_append]
      rw [ih]
      rcases Nat.eq_zero_or_pos (lineLoop policy items (used_chars + ((prefixOf item).length +
        (trim item.text (policy.max_chars - used_chars - (prefixOf item).length)).length))).length
        with hzero | hpos
      · rw [eq_nil_of_length_eq_zero hzero]
        simp
      · have hne := ne_nil_of_length_pos hpos
        simp only [hne, false_or]
        omega

theorem length_prompt_text (items : List MemoryItem) :
    (prompt_text items policy).length ≤ policy.max_chars ↔ Roomy policy items 0 0 := by
  rw [roomy_iff, prompt_text, length_intercalate_newline]
  unfold prompt_lines
  rcases Nat.eq_zero_or_pos (lineLoop policy items 0).length with hzero | hpos
  · rw [eq_nil_of_length_eq_zero hzero]
    simp
  · have hne := ne_nil_of_length_pos hpos
    simp only [hne, false_or]
    omega

end Lines

/-! ## The items of a response -/

/-- A pass over results adds the items of the first usable ones to those it has. -/
theorem kept_itemLoop {policy : MemoryPolicy} {limit : Nat} {results : List PyJson}
    {items out : List MemoryItem} {used_chars : Nat}
    (h : itemLoop policy limit results items used_chars = some out) :
    ∃ k taken, ((usable results).take k).mapM (memory_item policy) = some taken ∧
      out = items ++ taken ∧ (items.length < limit → out.length ≤ limit) := by
  induction results generalizing items used_chars with
  | nil =>
    cases h
    exact ⟨0, [], by simp, by simp, Nat.le_of_lt⟩
  | cons result results ih =>
    cases result with
    | obj result =>
      rw [itemLoop] at h
      rw [usable]
      split at h
      · rename_i hnone
        rw [if_pos hnone]
        exact ih h
      · rename_i htext
        rw [if_neg htext]
        dsimp only at h
        split at h
        · cases h
          exact ⟨0, [], by simp, by simp, Nat.le_of_lt⟩
        · split at h
          · cases h
          · rename_i item hitem
            split at h
            · rename_i hfull
              cases h
              exact ⟨1, [item], by simp [hitem], rfl, fun hlt => by simp; omega⟩
            · rename_i hroom
              obtain ⟨k, taken, htaken, rfl, hle⟩ := ih h
              refine ⟨k + 1, item :: taken, by simp [hitem, htaken], by simp, fun _ => ?_⟩
              exact hle (by omega)
    | _ => exact ih h

theorem bounded_items_eq (raw : Items) (policy : MemoryPolicy) (limit : Nat) :
    bounded_items raw policy limit = itemLoop policy limit (resultsOf raw) [] 0 := by
  unfold bounded_items resultsOf
  split <;> simp_all [itemLoop]

theorem mem_usable {results : List PyJson} {result : Items} (h : result ∈ usable results) :
    result_text result ≠ [] := by
  induction results with
  | nil => cases h
  | cons first results ih =>
    cases first with
    | obj first =>
      rw [usable] at h
      split at h
      · exact ih h
      · rename_i htext
        rcases mem_cons.mp h with rfl | h
        · exact htext
        · exact ih h
    | _ => exact ih h

/-- The text of an item is there and is no longer than the policy lets it be. -/
structure Short (policy : MemoryPolicy) (item : MemoryItem) : Prop where
  written : 1 ≤ item.text.length
  bounded : item.text.length ≤ policy.max_item_chars

theorem short_memory_item {policy : MemoryPolicy} {result : Items} {item : MemoryItem}
    (htext : result_text result ≠ []) (h : memory_item policy result = some item) :
    Short policy item := by
  obtain ⟨score, -, rfl⟩ := Option.map_eq_some_iff.mp h
  have hne := trim_ne_nil htext policy.item_chars_pos
  exact ⟨length_pos_of_ne_nil hne, length_trim_le _ _⟩

theorem short_of_mapM {policy : MemoryPolicy} {results : List Items} {items : List MemoryItem}
    (htext : ∀ result ∈ results, result_text result ≠ [])
    (h : results.mapM (memory_item policy) = some items) : ∀ item ∈ items, Short policy item := by
  induction results generalizing items with
  | nil => simp_all
  | cons result results ih =>
    simp only [mapM_cons, Option.bind_eq_bind, Option.bind_eq_some_iff] at h
    obtain ⟨item, hitem, rest, hrest, h⟩ := h
    cases h
    intro other hother
    rcases mem_cons.mp hother with rfl | hother
    · exact short_memory_item (htext _ mem_cons_self) hitem
    · exact ih (fun r hr => htext r (mem_cons_of_mem _ hr)) hrest other hother

/-- What the items of a response are, whatever the prompt becomes. -/
theorem items_kept {raw : Items} {policy : MemoryPolicy} {limit : Nat} {items : List MemoryItem}
    (hpos : 1 ≤ limit) (h : bounded_items raw policy limit = some items) :
    (∃ k, ((usable (resultsOf raw)).take k).mapM (memory_item policy) = some items) ∧
      items.length ≤ limit ∧ ∀ item ∈ items, Short policy item := by
  rw [bounded_items_eq] at h
  obtain ⟨k, taken, htaken, hout, hle⟩ := kept_itemLoop h
  rw [nil_append] at hout
  subst hout
  exact ⟨⟨k, htaken⟩, hle hpos,
    short_of_mapM (fun r hr => mem_usable (mem_of_mem_take hr)) htaken⟩

theorem inBudget_iff {raw : Items} {policy : MemoryPolicy} {limit : Nat} {items : List MemoryItem}
    (hpos : 1 ≤ limit) (h : bounded_items raw policy limit = some items) :
    InBudget raw policy limit items ↔ Roomy policy items 0 0 := by
  obtain ⟨hk, hlimit, hshort⟩ := items_kept hpos h
  refine ⟨fun hin => (length_prompt_text items).mp hin.chars, fun hroomy => ?_⟩
  exact ⟨(length_prompt_text items).mpr hroomy,
    Nat.le_trans (length_lineLoop_le items 0) hlimit, fun item hi => (hshort item hi).bounded, hk⟩

/-! ## Policies with room to spare -/

section Tame
variable {policy : MemoryPolicy} {item : MemoryItem}

/-- Bounds of the text of a line that is written. -/
theorem length_line (hshort : Short policy item) {room : Nat} (hroom : 1 ≤ room) :
    1 ≤ (trim item.text room).length ∧ (trim item.text room).length ≤ room ∧
      (trim item.text room).length ≤ policy.max_item_chars := by
  have hne : item.text ≠ [] := ne_nil_of_length_pos hshort.written
  have hlen := length_trim_le_length item.text room
  exact ⟨length_pos_of_ne_nil (trim_ne_nil hne hroom), length_trim_le _ _,
    Nat.le_trans hlen hshort.bounded⟩

theorem roomy_of_full {items : List MemoryItem} {used_chars written : Nat}
    (hfull : policy.max_chars ≤ used_chars + 2) : Roomy policy items used_chars written := by
  cases items with
  | nil => trivial
  | cons item items =>
    have hp := length_prefixOf item
    exact .inl (by omega)

/-- One more line, and what is behind it. -/
theorem roomy_cons {items : List MemoryItem} {used_chars written : Nat}
    (hshort : Short policy item)
    (hline : ∀ p t, (p = 2 ∨ 6 ≤ p) → used_chars + p < policy.max_chars → 1 ≤ t →
      t ≤ policy.max_chars - used_chars - p → t ≤ policy.max_item_chars →
      used_chars + (p + t) + written ≤ policy.max_chars ∧
        Roomy policy items (used_chars + (p + t)) (written + 1)) :
    Roomy policy (item :: items) used_chars written := by
  rw [Roomy]
  by_cases hstop : policy.max_chars ≤ used_chars + (prefixOf item).length
  · exact .inl hstop
  · obtain ⟨hone, hroom, hitem⟩ := length_line hshort
      (show 1 ≤ policy.max_chars - used_chars - (prefixOf item).length by omega)
    exact .inr (hline _ _ (length_prefixOf item) (by omega) hone hroom hitem)

theorem roomy_of_tame {limit : Nat} {items : List MemoryItem} (htame : Tame policy limit)
    (hlen : items.length ≤ limit) (hshort : ∀ item ∈ items, Short policy item) :
    Roomy policy items 0 0 := by
  cases items with
  | nil => trivial
  | cons first items =>
    refine roomy_cons (hshort first mem_cons_self) fun p t hp hpos ht hroom hitem =>
      ⟨by omega, ?_⟩
    cases items with
    | nil => trivial
    | cons second items =>
      simp only [length_cons] at hlen
      rcases htame with hone | hsmall | ⟨hitems, hchars⟩
      · omega
      · exact roomy_of_full (by omega)
      · refine roomy_cons (hshort second (by simp)) fun p' t' hp' hpos' ht' hroom' hitem' =>
          ⟨by omega, ?_⟩
        rcases hchars with hchars | ⟨hchars, htwo⟩
        · exact roomy_of_full (by omega)
        · have hnil : items = [] := eq_nil_of_length_eq_zero (by omega)
          rw [hnil]
          trivial

end Tame

/-! ## Responses that overrun -/

/-- A result of this many letters, of a kind of as many as the second number says. -/
def plain (n : Nat × Nat) : Items :=
  [(units "text", .str (List.replicate n.1 97)), (units "kind", .str (List.replicate n.2 107))]

def plainItem (n : Nat × Nat) : MemoryItem where
  text := List.replicate n.1 97
  source := none
  kind := if n.2 = 0 then none else some (List.replicate n.2 107)
  score := none
  metadata := []

def response (sizes : List (Nat × Nat)) : Items :=
  [(units "results", .arr (sizes.map fun n => .obj (plain n)))]

theorem codePoints_replicate (n : Nat) {u : UInt16} (hu : isHighSurrogate u = false) :
    codePoints (List.replicate n u) = List.replicate n u.toNat := by
  induction n with
  | zero => rfl
  | succ n ih =>
    cases n with
    | zero => rfl
    | succ n =>
      rw [replicate_succ, replicate_succ, codePoints, hu, Bool.false_and,
        if_neg Bool.false_ne_true, ← replicate_succ, ih]
      rfl

theorem strip_replicate (n : Nat) {c : Nat} (hc : isSpace c = false) :
    strip (List.replicate n c) = List.replicate n c := by
  unfold strip rstrip
  cases n with
  | zero => rfl
  | succ n =>
    rw [replicate_succ, dropWhile_cons_of_neg (by simp [hc]), ← replicate_succ,
      replicate_succ', rdropWhile_concat_neg _ _ _ (by simp [hc])]

section Plain
variable {policy : MemoryPolicy} {n : Nat × Nat}

theorem result_text_plain : result_text (plain n) = List.replicate n.1 97 := by
  have hget : Members.get? (plain n) (units "text") = some (.str (List.replicate n.1 97)) :=
    if_pos rfl
  have hcodes : codePoints (List.replicate n.1 97) = List.replicate n.1 97 :=
    codePoints_replicate n.1 (by decide)
  simp only [result_text, findSome?_cons, hget, optional_str, hcodes]
  exact strip_replicate n.1 (by decide)

theorem memory_item_plain (hbody : n.1 ≤ policy.max_item_chars) :
    memory_item policy (plain n) = some (plainItem n) := by
  have hkind : optional_str (kindOf (plain n)) = (plainItem n).kind := by
    obtain ⟨b, k⟩ := n
    cases k with
    | zero => rfl
    | succ k =>
      have hcodes : codePoints (List.replicate (k + 1) 107) = List.replicate (k + 1) 107 :=
        codePoints_replicate _ (by decide)
      exact congrArg some hcodes
  have htrim : trim (List.replicate n.1 97) policy.max_item_chars = List.replicate n.1 97 :=
    trim_of_le policy.item_chars_pos (by simpa using hbody)
  unfold memory_item
  rw [result_text_plain, htrim, hkind]
  rfl

theorem length_prefixOf_plain :
    (prefixOf (plainItem n)).length = if n.2 = 0 then 2 else n.2 + 5 := by
  obtain ⟨b, k⟩ := n
  cases k with
  | zero => rfl
  | succ k =>
    have hparts : ([(plainItem (b, k + 1)).kind, (plainItem (b, k + 1)).source].filterMap
        fun part => part.filter (· ≠ [])) = [List.replicate (k + 1) 107] := rfl
    have hjoin : (text "/").intercalate [List.replicate (k + 1) 107] =
        List.replicate (k + 1) 107 := by simp [List.intercalate]
    unfold prefixOf
    dsimp only
    rw [hparts, if_neg (by simp), hjoin]
    simp [text]

theorem bounded_items_plain (sizes : List (Nat × Nat)) {limit : Nat}
    (hchars : (sizes.map Prod.fst).sum ≤ policy.max_chars) (hlimit : sizes.length ≤ limit)
    (hbody : ∀ n ∈ sizes, 1 ≤ n.1 ∧ n.1 ≤ policy.max_item_chars) :
    bounded_items (response sizes) policy limit = some (sizes.map plainItem) := by
  have hloop : ∀ (sizes : List (Nat × Nat)) (items : List MemoryItem) (used_chars : Nat),
      used_chars + (sizes.map Prod.fst).sum ≤ policy.max_chars →
      items.length + sizes.length ≤ limit →
      (∀ n ∈ sizes, 1 ≤ n.1 ∧ n.1 ≤ policy.max_item_chars) →
      itemLoop policy limit (sizes.map fun n => .obj (plain n)) items used_chars =
        some (items ++ sizes.map plainItem) := by
    intro sizes
    induction sizes with
    | nil => intro items used_chars _ _ _; simp [itemLoop]
    | cons n sizes ih =>
      intro items used_chars hchars hlimit hbody
      obtain ⟨hone, hitem⟩ := hbody n mem_cons_self
      simp only [map_cons, sum_cons, length_cons] at hchars hlimit
      have htext : result_text (plain n) ≠ [] := by
        rw [result_text_plain]
        exact ne_nil_of_length_pos (by simp; omega)
      have htrim : (trim (result_text (plain n)) policy.max_item_chars).length = n.1 := by
        rw [result_text_plain, trim_of_le policy.item_chars_pos (by simpa using hitem),
          length_replicate]
      rw [map_cons, itemLoop, if_neg htext]
      dsimp only
      rw [htrim, if_neg (by omega), memory_item_plain hitem]
      dsimp only
      split
      · rename_i hfull
        have hnil : sizes = [] := eq_nil_of_length_eq_zero (by simp at hfull; omega)
        rw [hnil]
        simp
      · rw [ih _ _ (by omega) (by simp; omega) fun m hm => hbody m (mem_cons_of_mem _ hm)]
        simp
  rw [bounded_items_eq]
  exact hloop sizes [] 0 (by omega) (by simpa using hlimit) hbody

/-- The line of a plain item that fits. -/
theorem roomy_plain {items : List MemoryItem} {used_chars written p : Nat}
    (hp : (prefixOf (plainItem n)).length = p) (hbody : 1 ≤ n.1)
    (hfits : used_chars + p + n.1 ≤ policy.max_chars) :
    Roomy policy (plainItem n :: items) used_chars written ↔
      used_chars + (p + n.1) + written ≤ policy.max_chars ∧
        Roomy policy items (used_chars + (p + n.1)) (written + 1) := by
  have htrim : (trim (plainItem n).text (policy.max_chars - used_chars - p)).length = n.1 := by
    rw [trim_of_le (by omega) (by simp [plainItem]; omega)]
    simp [plainItem]
  rw [Roomy, hp, htrim]
  constructor
  · rintro (hstop | hroomy)
    · omega
    · exact hroomy
  · exact .inr

theorem overrun_of_not_tame {limit : Nat} (hpos : 1 ≤ limit) (h : ¬Tame policy limit) :
    ∃ raw items, bounded_items raw policy limit = some items ∧ ¬Roomy policy items 0 0 := by
  have hone : limit ≠ 1 := fun hone => h (.inl hone)
  have hchars : 6 ≤ policy.max_chars := by
    by_contra hsmall
    exact h (.inr (.inl (by omega)))
  have hspare : policy.max_chars ≤ 2 * policy.max_item_chars + 4 ∨ 10 ≤ policy.max_chars ∨
      policy.max_chars = 9 ∧ 3 ≤ limit := by
    by_contra hspare
    exact h (.inr (.inr ⟨by omega, by omega⟩))
  have hitem := policy.item_chars_pos
  have hdash : ∀ n, (prefixOf (plainItem (n, 0))).length = 2 := fun n => length_prefixOf_plain
  rcases hspare with hhalves | hlong | ⟨hnine, hthree⟩
  · -- two bodies that fill the prompt but for the newline
    refine ⟨_, _, bounded_items_plain
      [((policy.max_chars - 4) / 2, 0),
        (policy.max_chars - 4 - (policy.max_chars - 4) / 2, 0)]
      (by simp; omega) (by simp; omega) (by simp; omega), fun hroomy => ?_⟩
    rw [map_cons, map_cons,
      roomy_plain (hdash _) (by dsimp only; omega) (by dsimp only; omega),
      roomy_plain (hdash _) (by dsimp only; omega) (by dsimp only; omega)] at hroomy
    omega
  · -- a kind that is long enough
    refine ⟨_, _, bounded_items_plain [(1, 0), (1, policy.max_chars - 9)]
      (by simp; omega) (by simp; omega) (by simp; omega), fun hroomy => ?_⟩
    have hkind : (prefixOf (plainItem (1, policy.max_chars - 9))).length =
        policy.max_chars - 4 := by
      rw [length_prefixOf_plain, if_neg (by dsimp only; omega)]
      omega
    rw [map_cons, map_cons, roomy_plain (hdash _) (by decide) (by dsimp only; omega),
      roomy_plain hkind (Nat.le_refl 1) (by dsimp only; omega)] at hroomy
    omega
  · -- three letters, on a line each
    refine ⟨_, _, bounded_items_plain [(1, 0), (1, 0), (1, 0)]
      (by simp; omega) (by simp; omega) (by simp; omega), fun hroomy => ?_⟩
    rw [map_cons, map_cons, map_cons,
      roomy_plain (hdash _) (by decide) (by dsimp only; omega),
      roomy_plain (hdash _) (by decide) (by dsimp only; omega),
      roomy_plain (hdash _) (by decide) (by dsimp only; omega)] at hroomy
    omega

end Plain

theorem effective_limit_pos {policy : MemoryPolicy} {limit : Option Int} {n : Nat}
    (h : effective_limit policy limit = some n) : 1 ≤ n := by
  have hitems := policy.items_pos
  cases limit with
  | none =>
    cases h
    exact hitems
  | some limit =>
    rw [effective_limit] at h
    split at h
    · cases h
    · cases h
      omega

/-- A policy and a limit keep every prompt within the budget exactly when they are tame, and a
response that is not too much for its policy is a roomy one. -/
theorem prompt_budget (policy : MemoryPolicy) (limit : Option Int) (n : Nat)
    (h : effective_limit policy limit = some n) :
    ((∀ raw items, bounded_items raw policy n = some items → InBudget raw policy n items) ↔
        Tame policy n) ∧
      ∀ raw items, bounded_items raw policy n = some items →
        (InBudget raw policy n items ↔ Roomy policy items 0 0) := by
  have hpos := effective_limit_pos h
  refine ⟨⟨fun hall => ?_, fun htame raw items hitems => ?_⟩, fun raw items => inBudget_iff hpos⟩
  · by_contra hwild
    obtain ⟨raw, items, hitems, hover⟩ := overrun_of_not_tame hpos hwild
    exact hover ((inBudget_iff hpos hitems).mp (hall raw items hitems))
  · obtain ⟨-, hlen, hshort⟩ := items_kept hpos hitems
    exact (inBudget_iff hpos hitems).mpr (roomy_of_tame htame hlen hshort)

/-- Two items a prompt of ten characters has room for. -/
def pair : MemoryPolicy := ⟨2, 10, 10, by decide, by decide, by decide⟩

theorem prompt_budget_pair :
    effective_limit pair none = some 2 ∧ ((∀ raw items, bounded_items raw pair 2 = some items →
        InBudget raw pair 2 items) ↔ Tame pair 2) ∧
      ∀ raw items, bounded_items raw pair 2 = some items →
        (InBudget raw pair 2 items ↔ Roomy pair items 0 0) :=
  ⟨rfl, prompt_budget pair none 2 rfl⟩

/-- Two texts of three letters make a prompt of eleven. -/
theorem pair_overruns :
    ∃ items, bounded_items (response [(3, 0), (3, 0)]) pair 2 = some items ∧
      prompt_text items pair = text "- aaa\n- aaa" ∧
      ¬InBudget (response [(3, 0), (3, 0)]) pair 2 items :=
  ⟨_, rfl, by decide, fun h => absurd h.chars (by decide)⟩

end OpenBrain.Memory.Recall
