import OpenBrain.Core.JsonObject
import Mathlib.Data.List.Lex

/-!
# Python's `json` with every number it writes

`json.dumps` writes `NaN` and the infinities too, and `json.loads` reads them;
a float past the largest double reads as an infinity. `Py.loads_dumps` is the
round trip on text, with white space allowed after the value, and `sortKeys` is
what `sort_keys=True` does to a value before it is written.
-/
namespace OpenBrain.Core.Py
open List

/-- A Python `int` or `float`. -/
inductive Number where
  | int (i : Int)
  | float (d : Double)
  | nan
  | inf (neg : Bool)
  deriving DecidableEq

/-- A JSON value of Python. -/
abbrev PyJson := Json Number

/-- A `dict`, as its items in order. -/
abbrev Items := Members Number

def Number.text : Number → Str
  | .int i => (pyIntTok i).text
  | .float d => (pyFloatTok d.1).text
  | .nan => units "NaN"
  | .inf false => units "Infinity"
  | .inf true => units "-Infinity"

def Number.read (s : Str) : Option Number :=
  if s = units "NaN" then some .nan
  else if s = units "Infinity" then some (.inf false)
  else if s = units "-Infinity" then some (.inf true)
  else
    (readNum (chars s)).map fun t =>
      if t.frac = none ∧ t.exp = none then
        .int (if t.neg then -(digitsVal t.ip : Int) else digitsVal t.ip)
      else
        match Double.ofDec t.value with
        | some d => .float d
        | none => .inf t.neg

/-- `json.dumps(value, separators=(",", ":"))`. -/
def printer : Printer Number := ⟨Number.text, quote⟩

def dumps (v : PyJson) : Str := printer.print v

/-- `json.loads` of a text; `none` is a `JSONDecodeError`. -/
def loadsText (s : Str) : Option PyJson :=
  (JsonText.parse Number.read JsonText.unquote s).map (Json.build Members.dict)

/-- A value whose dicts have distinct keys. -/
def IsValue (v : PyJson) : Prop := v.All (Json.Keys List.Nodup)

theorem nil_value : IsValue (.obj []) := ⟨nodup_nil, trivial⟩

/-! ## Round trip -/

theorem Number.isNumTok (n : Number) : JsonText.IsNumTok n.text := by
  cases n with
  | int i => exact isNumTok_text (pyIntTok_valid i)
  | float d => exact isNumTok_text (pyFloatTok_valid d.1)
  | nan => exact ⟨⟨_, _, rfl, rfl⟩, all_eq_true.mp rfl⟩
  | inf neg => cases neg <;> exact ⟨⟨_, _, rfl, rfl⟩, all_eq_true.mp rfl⟩

theorem printer_lawful : printer.Lawful where
  num := Number.isNumTok
  quote s := (pieces_escape s).token.1

/-- A token of a finite number is none of the constants: it has a digit or a sign
in front and a digit behind. -/
theorem text_ne_constant {t : NumTok} (h : t.Valid) :
    t.text ≠ units "NaN" ∧ t.text ≠ units "Infinity" ∧ t.text ≠ units "-Infinity" := by
  have hread : readNum (chars t.text) ≠ none := by
    rw [chars_text h, readNum_render h]
    exact Option.some_ne_none t
  refine ⟨?_, ?_, ?_⟩ <;> intro heq <;> rw [heq] at hread <;> exact hread rfl

theorem Number.read_text (n : Number) : Number.read n.text = some n := by
  cases n with
  | nan => rfl
  | inf neg => cases neg <;> rfl
  | int i =>
    have hv := pyIntTok_valid i
    obtain ⟨h1, h2, h3⟩ := text_ne_constant hv
    show Number.read (pyIntTok i).text = _
    unfold Number.read
    rw [if_neg h1, if_neg h2, if_neg h3, chars_text hv, readNum_render hv, Option.map_some]
    have hi : (if decide (i < 0) = true then -(digitsVal (digits i.natAbs) : Int)
        else digitsVal (digits i.natAbs)) = i := by
      simp only [digitsVal, Nat.ofDigitChars_ten_toDigits, decide_eq_true_eq]
      split <;> omega
    show some (Number.int (if decide (i < 0) = true then -(digitsVal (digits i.natAbs) : Int)
      else digitsVal (digits i.natAbs))) = _
    rw [hi]
  | float d =>
    have hv := pyFloatTok_valid d.1
    obtain ⟨h1, h2, h3⟩ := text_ne_constant hv
    show Number.read (pyFloatTok d.1).text = _
    unfold Number.read
    rw [if_neg h1, if_neg h2, if_neg h3, chars_text hv, readNum_render hv, Option.map_some,
      if_neg (pyFloatTok_not_int d.1), value_pyFloatTok, Double.ofDec_val]

theorem printer_readBack : JsonText.ReadBack printer Number.read JsonText.unquote id where
  num := Number.read_text
  quote s := unquote_quote s

/-- What was written reads back. -/
theorem loads_dumps {v : PyJson} (h : IsValue v) : loadsText (dumps v) = some v := by
  unfold loadsText dumps
  rw [JsonText.parse_print printer_lawful printer_readBack, Option.map_some,
    Json.build_map (fun ms => Members.dict_eq) id v h, Json.map_id]

theorem dumps_injective {v w : PyJson} (hv : IsValue v) (hw : IsValue w)
    (h : dumps v = dumps w) : v = w := by
  have := loads_dumps hv
  rw [h, loads_dumps hw] at this
  exact (Option.some.inj this).symm

/-! ## Without `ensure_ascii` -/

/-- `ensure_ascii=False`: the escapes JSON needs, every other unit as it stands. -/
def escapeUnitPlain (u : UInt16) : Str :=
  if u = 0x08 then units "\\b"
  else if u = 0x09 then units "\\t"
  else if u = 0x0A then units "\\n"
  else if u = 0x0C then units "\\f"
  else if u = 0x0D then units "\\r"
  else if u = 0x22 then units "\\\""
  else if u = 0x5C then units "\\\\"
  else if u < 0x20 then uEscape u
  else [u]

def escapePlain (s : Str) : Str := s.flatMap escapeUnitPlain

/-- `json.dumps(value, separators=(",", ":"), ensure_ascii=False)`. -/
def plainPrinter : Printer Number := ⟨Number.text, fun s => unit '"' :: escapePlain s ++ [unit '"']⟩

def dumpsPlain (v : PyJson) : Str := plainPrinter.print v

theorem piece_escapeUnitPlain (u : UInt16) : JsonText.Piece u (escapeUnitPlain u) := by
  unfold escapeUnitPlain
  iterate 7
    split
    · rename_i h
      rw [h]
      exact JsonText.piece_short (by decide) (by decide)
  split
  · exact JsonText.piece_uEscape u
  · rename_i h1 h2 h3
    exact JsonText.piece_self h1 h2 h3

theorem pieces_escapePlain (s : Str) : JsonText.Pieces s (escapePlain s) := by
  induction s with
  | nil => exact .nil
  | cons u s ih => exact .cons (piece_escapeUnitPlain u) ih

theorem plainPrinter_lawful : plainPrinter.Lawful where
  num := Number.isNumTok
  quote s := (pieces_escapePlain s).token.1

theorem plainPrinter_readBack :
    JsonText.ReadBack plainPrinter Number.read JsonText.unquote id where
  num := Number.read_text
  quote s := (pieces_escapePlain s).token.2

/-- What was written without `ensure_ascii` reads back too. -/
theorem loads_dumpsPlain {v : PyJson} (h : IsValue v) : loadsText (dumpsPlain v) = some v := by
  unfold loadsText dumpsPlain
  rw [JsonText.parse_print plainPrinter_lawful plainPrinter_readBack, Option.map_some,
    Json.build_map (fun ms => Members.dict_eq) id v h, Json.map_id]

/-! ## Sorted keys -/

def codePoints : Str → List Nat
  | [] => []
  | [u] => [u.toNat]
  | u :: v :: s =>
    if isHighSurrogate u && isLowSurrogate v then Utf8.pairCode u v :: codePoints s
    else u.toNat :: codePoints (v :: s)

/-- `sorted(d.items())`, stable on equal keys. -/
def sortItems (ms : Items) : Items :=
  ms.insertionSort fun a b => codePoints a.1 ≤ codePoints b.1

/-- What `sort_keys=True` writes. -/
def sortKeys (v : PyJson) : PyJson := v.build sortItems

theorem sortItems_perm (ms : Items) : (sortItems ms).Perm ms := perm_insertionSort _ ms

/-- Sorted by key, the values go with their keys. -/
theorem sortItems_map {β : Type} (f : β → PyJson) (us : List (Str × β)) :
    ∃ order : List (Str × β), order.Perm us ∧
      sortItems (us.map fun u => (u.1, f u.2)) = order.map fun u => (u.1, f u.2) := by
  refine ⟨us.insertionSort fun a b => codePoints a.1 ≤ codePoints b.1,
    perm_insertionSort _ us, ?_⟩
  symm
  apply map_insertionSort
  intro a _ b _
  rfl

/-- Looking up a key does not depend on the order of distinct keys. -/
theorem get?_eq_some_iff {ms : Items} (h : (ms.map Prod.fst).Nodup) (k : Str) (v : PyJson) :
    ms.get? k = some v ↔ (k, v) ∈ ms := by
  induction ms with
  | nil => simp [Members.get?]
  | cons m ms ih =>
    obtain ⟨l, w⟩ := m
    simp only [map_cons, nodup_cons] at h
    simp only [Members.get?, mem_cons, Prod.mk.injEq]
    by_cases hk : l = k
    · subst hk
      have hnot : ∀ x, (l, x) ∉ ms := fun x hx => h.1 (mem_map_of_mem hx)
      simp [hnot, eq_comm]
    · simp [hk, Ne.symm hk, ih h.2]

theorem get?_sortItems {ms : Items} (h : (ms.map Prod.fst).Nodup) (k : Str) :
    (sortItems ms).get? k = ms.get? k := by
  have hperm := sortItems_perm ms
  have hs : ((sortItems ms).map Prod.fst).Nodup := (hperm.map Prod.fst).nodup_iff.mpr h
  apply Option.ext
  intro v
  rw [get?_eq_some_iff hs, get?_eq_some_iff h, hperm.mem_iff]

mutual

theorem sortKeys_value (v : PyJson) (h : IsValue v) : IsValue (sortKeys v) := by
  match v with
  | .null | .bool _ | .num _ | .str _ => trivial
  | .arr xs => exact ⟨trivial, sortElems_value xs h.2⟩
  | .obj ms =>
    have hperm := sortItems_perm (Json.buildMembers sortItems ms)
    refine ⟨?_, ?_⟩
    · show ((sortItems (Json.buildMembers sortItems ms)).map Prod.fst).Nodup
      rw [(hperm.map Prod.fst).nodup_iff, Json.buildMembers_keys]
      exact h.1
    · show Json.AllMembers _ (sortItems (Json.buildMembers sortItems ms))
      rw [Json.allMembers_iff]
      intro m hm
      have hall := (Json.allMembers_iff _ _).mp (sortMembers_value ms h.2)
      exact hall m (hperm.mem_iff.mp hm)

theorem sortElems_value (xs : List PyJson) (h : Json.AllElems (Json.Keys List.Nodup) xs) :
    Json.AllElems (Json.Keys List.Nodup) (Json.buildElems sortItems xs) := by
  match xs with
  | [] => trivial
  | x :: xs => exact ⟨sortKeys_value x h.1, sortElems_value xs h.2⟩

theorem sortMembers_value (ms : Items) (h : Json.AllMembers (Json.Keys List.Nodup) ms) :
    Json.AllMembers (Json.Keys List.Nodup) (Json.buildMembers sortItems ms) := by
  match ms with
  | [] => trivial
  | (_, x) :: ms => exact ⟨sortKeys_value x h.1, sortMembers_value ms h.2⟩

end

/-- A dict written with sorted keys reads back with the same values. -/
theorem loads_sorted {ms : Items} (h : IsValue (.obj ms)) : ∃ read,
    loadsText (dumps (sortKeys (.obj ms))) = some (.obj read) ∧
      ∀ k, Members.get? read k = (Json.buildMembers sortItems ms).get? k := by
  refine ⟨sortItems (Json.buildMembers sortItems ms), loads_dumps (sortKeys_value _ h), ?_⟩
  intro k
  apply get?_sortItems
  rw [Json.buildMembers_keys]
  exact h.1

/-! ## Truth -/

/-- `bool(value)`, `None` for a value that is not there. -/
def truthy : Option PyJson → Bool
  | none | some .null => false
  | some (.bool b) => b
  | some (.num (.int n)) => n != 0
  | some (.num (.float d)) => d.1.coeff != 0
  | some (.num _) => true
  | some (.str s) => s != []
  | some (.arr items) => !items.isEmpty
  | some (.obj ms) => !ms.isEmpty

/-! ## Strings -/

/-- `str.isspace` of one unit. -/
def isSpace (u : UInt16) : Bool :=
  (0x09 ≤ u && u ≤ 0x0D) || (0x1C ≤ u && u ≤ 0x20) || u == 0x85 || u == 0xA0 || u == 0x1680 ||
    (0x2000 ≤ u && u ≤ 0x200A) || u == 0x2028 || u == 0x2029 || u == 0x202F || u == 0x205F ||
    u == 0x3000

/-- `not s.strip()` -/
def isBlank (s : Str) : Bool := s.all isSpace

/-- `s.strip()` -/
def strip (s : Str) : Str := (s.dropWhile isSpace).rdropWhile isSpace

theorem strip_strip (s : Str) : strip (strip s) = strip s := cutEnds_idem isSpace s

end OpenBrain.Core.Py
