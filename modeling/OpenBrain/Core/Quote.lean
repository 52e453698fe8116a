import OpenBrain.Core.JsonText
import OpenBrain.Core.Ecma
import OpenBrain.Core.Utf8

/-!
# String tokens

`unescape` reads a string body the way `JSON.parse` and `json.loads` do. A
*piece* is what an encoder writes for one unit; a body made of pieces scans as
a string token and unescapes to the units (`Pieces.token`,
`Pieces.unescape_eq`). Both encoders of this development write pieces:
`Ecma.quote` (`JSON.stringify`) and `Py.quote` (`json.dumps`, whose default
`ensure_ascii` escapes everything outside the printable ASCII range).

The two write the same token exactly for the strings of `alike`
(`quote_eq_iff`).
-/
namespace OpenBrain.Core
open List

namespace JsonText

/-- The value of a hexadecimal digit. -/
def hexVal (u : UInt16) : Option Nat :=
  let n := u.toNat
  if 48 ≤ n ∧ n ≤ 57 then some (n - 48)
  else if 97 ≤ n ∧ n ≤ 102 then some (n - 87)
  else if 65 ≤ n ∧ n ≤ 70 then some (n - 55)
  else none

def hexUnit (a b c d : UInt16) : Option UInt16 :=
  match hexVal a, hexVal b, hexVal c, hexVal d with
  | some a, some b, some c, some d => some (.ofNat (a * 4096 + b * 256 + c * 16 + d))
  | _, _, _, _ => none

def shortEscape (u : UInt16) : Option UInt16 :=
  if u = unit '"' then some 0x22
  else if u = unit '\\' then some 0x5C
  else if u = unit '/' then some 0x2F
  else if u = unit 'b' then some 0x08
  else if u = unit 'f' then some 0x0C
  else if u = unit 'n' then some 0x0A
  else if u = unit 'r' then some 0x0D
  else if u = unit 't' then some 0x09
  else none

def unescape : Str → Option Str
  | [] => some []
  | [u] => if u = unit '\\' then none else some [u]
  | u :: v :: s =>
    if u = unit '\\' then
      if v = unit 'u' then
        match s with
        | a :: b :: c :: d :: s =>
          match hexUnit a b c d, unescape s with
          | some x, some t => some (x :: t)
          | _, _ => none
        | _ => none
      else
        match shortEscape v, unescape s with
        | some x, some t => some (x :: t)
        | _, _ => none
    else (unescape (v :: s)).map (u :: ·)

/-- Read a string token. -/
def unquote : Str → Option Str
  | [] => none
  | _ :: s => unescape s.dropLast

/-! ## Pieces -/

/-- What may be written for the unit `u` inside a string token. -/
structure Piece (u : UInt16) (p : Str) : Prop where
  scan : ∀ r, scanStr (p ++ r) = (scanStr r).map fun (b, r) => (p ++ b, r)
  unescape : ∀ r, JsonText.unescape (p ++ r) = (JsonText.unescape r).map (u :: ·)

/-- A body that spells the units of `s` piece by piece. -/
inductive Pieces : Str → Str → Prop
  | nil : Pieces [] []
  | cons {u : UInt16} {p s e : Str} : Piece u p → Pieces s e → Pieces (u :: s) (p ++ e)

theorem Pieces.scan {s e : Str} (h : Pieces s e) (r : Str) :
    scanStr (e ++ unit '"' :: r) = some (e, r) := by
  induction h with
  | nil => cases r <;> simp [scanStr]
  | cons hp _ ih => rw [append_assoc, hp.scan, ih]; rfl

theorem Pieces.unescape_eq {s e : Str} (h : Pieces s e) : unescape e = some s := by
  induction h with
  | nil => rfl
  | cons hp _ ih => rw [hp.unescape, ih]; rfl

/-- A body of pieces between quotes is a string token that reads as the units. -/
theorem Pieces.token {s e : Str} (h : Pieces s e) :
    IsStrTok (unit '"' :: e ++ [unit '"']) ∧
      unquote (unit '"' :: e ++ [unit '"']) = some s := by
  refine ⟨⟨e, rfl, h.scan⟩, ?_⟩
  simp only [cons_append, unquote, dropLast_concat]
  exact h.unescape_eq

theorem scanStr_cons {u : UInt16} (h1 : u ≠ unit '"') (h2 : u ≠ unit '\\') (h3 : ¬ u < 0x20)
    (r : Str) : scanStr (u :: r) = (scanStr r).map fun (b, r) => (u :: b, r) := by
  cases r with
  | nil => rw [scanStr.eq_def]; simp [h1, scanStr]
  | cons v r => simp [scanStr, h1, h2, h3]

theorem unescape_cons {u : UInt16} (h : u ≠ unit '\\') (r : Str) :
    unescape (u :: r) = (unescape r).map (u :: ·) := by
  cases r with
  | nil => rw [unescape.eq_def]; simp [h, unescape]
  | cons v r => rw [unescape.eq_def]; dsimp only; rw [if_neg h]

theorem scanStr_escape (v : UInt16) (r : Str) :
    scanStr (unit '\\' :: v :: r) = (scanStr r).map fun (b, r) => (unit '\\' :: v :: b, r) := by
  rw [scanStr, if_neg (by decide), if_pos rfl]

theorem unescape_short {v x : UInt16} (hv : v ≠ unit 'u') (h : shortEscape v = some x) (r : Str) :
    unescape (unit '\\' :: v :: r) = (unescape r).map (x :: ·) := by
  rw [unescape.eq_def]
  dsimp only
  rw [if_pos rfl, if_neg hv, h]
  cases unescape r <;> rfl

theorem unescape_hex {a b c d x : UInt16} (h : hexUnit a b c d = some x) (r : Str) :
    unescape (unit '\\' :: unit 'u' :: a :: b :: c :: d :: r) = (unescape r).map (x :: ·) := by
  rw [unescape, if_pos rfl, if_pos rfl, h]
  cases unescape r <;> rfl

/-- A unit that needs no escape stands for itself. -/
theorem piece_self {u : UInt16} (h1 : u ≠ unit '"') (h2 : u ≠ unit '\\') (h3 : ¬ u < 0x20) :
    Piece u [u] :=
  ⟨fun r => scanStr_cons h1 h2 h3 r, fun r => unescape_cons h2 r⟩

theorem piece_short {u v : UInt16} (hv : v ≠ unit 'u') (h : shortEscape v = some u) :
    Piece u [unit '\\', v] :=
  ⟨fun r => scanStr_escape v r, fun r => unescape_short hv h r⟩

theorem hexDigit_facts (n : Nat) :
    hexVal (hexDigit n) = some (n % 16) ∧ hexDigit n ≠ unit '"' ∧ hexDigit n ≠ unit '\\' ∧
      ¬ hexDigit n < 0x20 := by
  have h : ∀ m : Fin 16, hexVal (hexDigit m) = some (m % 16) ∧ hexDigit m ≠ unit '"' ∧
      hexDigit m ≠ unit '\\' ∧ ¬ hexDigit m < 0x20 := by decide
  have := h ⟨n % 16, Nat.mod_lt _ (by decide)⟩
  simpa [hexDigit] using this

theorem hexUnit_hex4 (u : UInt16) :
    hexUnit (hexDigit (u.toNat / 4096)) (hexDigit (u.toNat / 256)) (hexDigit (u.toNat / 16))
      (hexDigit u.toNat) = some u := by
  have hu := u.toNat_lt
  simp only [hexUnit, (hexDigit_facts _).1]
  rw [show u.toNat / 4096 % 16 * 4096 + u.toNat / 256 % 16 * 256 + u.toNat / 16 % 16 * 16 +
    u.toNat % 16 = u.toNat by omega]
  simp

theorem piece_uEscape (u : UInt16) : Piece u (uEscape u) := by
  constructor
  · intro r
    have hd : ∀ (n : Nat) (r : Str),
        scanStr (hexDigit n :: r) = (scanStr r).map fun (b, r) => (hexDigit n :: b, r) :=
      fun n r => scanStr_cons (hexDigit_facts n).2.1 (hexDigit_facts n).2.2.1
        (hexDigit_facts n).2.2.2 r
    simp only [uEscape, hex4, cons_append, nil_append]
    rw [scanStr_escape, hd, hd, hd, hd]
    simp only [Option.map_map]
    rfl
  · intro r
    simp only [uEscape, hex4, cons_append, nil_append]
    exact unescape_hex (hexUnit_hex4 u) r

end JsonText

open JsonText

/-! ## `JSON.stringify` -/

namespace Ecma

theorem piece_escapeUnit (u : UInt16) : Piece u (escapeUnit u) := by
  unfold escapeUnit
  split
  · rename_i h; rw [h]; exact piece_short (by decide) (by decide)
  split
  · rename_i h; rw [h]; exact piece_short (by decide) (by decide)
  split
  · rename_i h; rw [h]; exact piece_short (by decide) (by decide)
  split
  · rename_i h; rw [h]; exact piece_short (by decide) (by decide)
  split
  · rename_i h; rw [h]; exact piece_short (by decide) (by decide)
  split
  · rename_i h; rw [h]; exact piece_short (by decide) (by decide)
  split
  · rename_i h; rw [h]; exact piece_short (by decide) (by decide)
  split
  · exact piece_uEscape u
  · rename_i h1 h2 h3
    simp only [Bool.or_eq_true, decide_eq_true_eq, not_or] at h3
    exact piece_self h1 h2 h3.1

theorem piece_surrogate {u : UInt16} (h : isSurrogate u = true) : Piece u [u] := by
  have hne : ∀ v : UInt16, isSurrogate v = false → u ≠ v := by
    rintro v hv rfl
    rw [h] at hv; cases hv
  refine piece_self (hne _ (by decide)) (hne _ (by decide)) ?_
  simp only [isSurrogate, Bool.and_eq_true, decide_eq_true_eq, UInt16.le_iff_toNat_le] at h
  rw [UInt16.lt_iff_toNat_lt]
  have h1 : (0xD800 : UInt16).toNat = 0xD800 := rfl
  have h2 : (0x20 : UInt16).toNat = 0x20 := rfl
  omega

theorem pieces_escape (s : Str) : Pieces s (escape s) := by
  fun_induction escape s with
  | case1 => exact .nil
  | case2 u =>
    have := Pieces.cons (piece_escapeUnit u) .nil
    rwa [append_nil] at this
  | case3 u v s h ih =>
    simp only [Bool.and_eq_true] at h
    exact .cons (piece_surrogate (Utf8.high_surrogate h.1))
      (.cons (piece_surrogate (Utf8.low_surrogate h.2)) ih)
  | case4 u v s h ih => exact .cons (piece_escapeUnit u) ih

theorem unquote_quote (s : Str) : unquote (quote s) = some s := (pieces_escape s).token.2

end Ecma

/-! ## `json.dumps` -/

namespace Py

/-- `ensure_ascii`: the two-character escapes, the printable ASCII units as
they stand, every other unit as `\uXXXX`. -/
def escapeUnit (u : UInt16) : Str :=
  if u = 0x08 then units "\\b"
  else if u = 0x09 then units "\\t"
  else if u = 0x0A then units "\\n"
  else if u = 0x0C then units "\\f"
  else if u = 0x0D then units "\\r"
  else if u = 0x22 then units "\\\""
  else if u = 0x5C then units "\\\\"
  else if u < 0x20 || decide (0x7E < u) then uEscape u
  else [u]

def escape (s : Str) : Str := s.flatMap escapeUnit

def quote (s : Str) : Str := unit '"' :: escape s ++ [unit '"']

theorem piece_escapeUnit (u : UInt16) : Piece u (escapeUnit u) := by
  unfold escapeUnit
  split
  · rename_i h; rw [h]; exact piece_short (by decide) (by decide)
  split
  · rename_i h; rw [h]; exact piece_short (by decide) (by decide)
  split
  · rename_i h; rw [h]; exact piece_short (by decide) (by decide)
  split
  · rename_i h; rw [h]; exact piece_short (by decide) (by decide)
  split
  · rename_i h; rw [h]; exact piece_short (by decide) (by decide)
  split
  · rename_i h; rw [h]; exact piece_short (by decide) (by decide)
  split
  · rename_i h; rw [h]; exact piece_short (by decide) (by decide)
  split
  · exact piece_uEscape u
  · rename_i h1 h2 h3
    simp only [Bool.or_eq_true, decide_eq_true_eq, not_or] at h3
    exact piece_self h1 h2 h3.1

theorem pieces_escape (s : Str) : Pieces s (escape s) := by
  induction s with
  | nil => exact .nil
  | cons u s ih => exact .cons (piece_escapeUnit u) ih

theorem unquote_quote (s : Str) : unquote (quote s) = some s := (pieces_escape s).token.2

end Py

/-! ## When the two encoders agree -/

/-- A unit both encoders write alike when it is not half of a pair: at most
`~`, or a surrogate. -/
def alikeUnit (u : UInt16) : Bool := decide (u ≤ 0x7E) || isSurrogate u

/-- No unit is above `~`, unpaired surrogates apart. -/
def alike : Str → Bool
  | [] => true
  | [u] => alikeUnit u
  | u :: v :: s =>
    if isHighSurrogate u && isLowSurrogate v then false else alikeUnit u && alike (v :: s)

theorem escapeUnit_eq {u : UInt16} (h : alikeUnit u = true) :
    Py.escapeUnit u = Ecma.escapeUnit u := by
  unfold Py.escapeUnit Ecma.escapeUnit
  simp only [alikeUnit, Bool.or_eq_true, decide_eq_true_eq] at h
  have hcond : (decide (u < 0x20) || decide (0x7E < u)) = (decide (u < 0x20) || isSurrogate u) := by
    rw [Bool.eq_iff_iff]
    simp only [Bool.or_eq_true, decide_eq_true_eq]
    constructor
    · rintro (h1 | h1)
      · exact .inl h1
      · rcases h with h | h
        · exact absurd h (UInt16.not_le.mpr h1)
        · exact .inr h
    · rintro (h1 | h1)
      · exact .inl h1
      · rw [Utf8.surrogate_iff] at h1
        right
        rw [UInt16.lt_iff_toNat_lt]
        have : (0x7E : UInt16).toNat = 0x7E := rfl
        omega
  rw [hcond]

/-- A unit above `~` that is no surrogate: `\uXXXX` against the unit itself. -/
theorem escapeUnit_differ {u : UInt16} (h : alikeUnit u = false) :
    (∃ p, Py.escapeUnit u = unit '\\' :: p) ∧ Ecma.escapeUnit u = [u] ∧ u ≠ unit '\\' := by
  simp only [alikeUnit, Bool.or_eq_false_iff, decide_eq_false_iff_not, UInt16.not_le] at h
  obtain ⟨hgt, hsur⟩ := h
  have hne : ∀ v : UInt16, v ≤ 0x7E → u ≠ v := by
    rintro v hv rfl
    exact absurd hv (UInt16.not_le.mpr hgt)
  have h20 : ¬ u < 0x20 := fun hlt =>
    absurd (UInt16.le_of_lt (UInt16.lt_trans hlt (by decide))) (UInt16.not_le.mpr hgt)
  refine ⟨⟨(uEscape u).tail, ?_⟩, ?_, hne _ (by decide)⟩
  · simp only [Py.escapeUnit, hne 0x08 (by decide), hne 0x09 (by decide), hne 0x0A (by decide),
      hne 0x0C (by decide), hne 0x0D (by decide), hne 0x22 (by decide), hne 0x5C (by decide),
      ↓reduceIte, hgt, decide_true, Bool.or_true]
    rfl
  · simp only [Ecma.escapeUnit, hne 0x08 (by decide), hne 0x09 (by decide), hne 0x0A (by decide),
      hne 0x0C (by decide), hne 0x0D (by decide), hne 0x22 (by decide), hne 0x5C (by decide),
      ↓reduceIte, h20, hsur, decide_false, Bool.or_self, Bool.false_eq_true]

theorem escape_eq_iff (s : Str) : Py.escape s = Ecma.escape s ↔ alike s = true := by
  fun_induction alike s with
  | case1 => simp [Py.escape, Ecma.escape]
  | case2 u =>
    have hs : Py.escape [u] = Py.escapeUnit u := by simp [Py.escape]
    rw [hs, Ecma.escape]
    cases h : alikeUnit u with
    | true => simp [escapeUnit_eq h]
    | false =>
      obtain ⟨⟨p, hp⟩, he, hne⟩ := escapeUnit_differ h
      simp [hp, he, Ne.symm hne]
  | case3 u v s hp =>
    have hu : isSurrogate u = true := Utf8.high_surrogate (Bool.and_eq_true .. ▸ hp).1
    have hpy : ∃ p, Py.escape (u :: v :: s) = unit '\\' :: p := by
      have hgt : (0x7E : UInt16) < u := by
        rw [Utf8.surrogate_iff] at hu
        rw [UInt16.lt_iff_toNat_lt]
        have : (0x7E : UInt16).toNat = 0x7E := rfl
        omega
      have hne : ∀ w : UInt16, w ≤ 0x7E → u ≠ w := by
        rintro w hw rfl
        exact absurd hw (UInt16.not_le.mpr hgt)
      refine ⟨(uEscape u).tail ++ Py.escape (v :: s), ?_⟩
      simp only [Py.escape, flatMap_cons, Py.escapeUnit, hne 0x08 (by decide),
        hne 0x09 (by decide), hne 0x0A (by decide), hne 0x0C (by decide), hne 0x0D (by decide),
        hne 0x22 (by decide), hne 0x5C (by decide), ↓reduceIte, hgt, decide_true, Bool.or_true]
      rfl
    obtain ⟨p, hpy⟩ := hpy
    have hne : unit '\\' ≠ u := by
      rintro rfl
      exact absurd hu (by decide)
    rw [hpy, Ecma.escape, if_pos hp]
    simp [hne]
  | case4 u v s hp ih =>
    have hs : Py.escape (u :: v :: s) = Py.escapeUnit u ++ Py.escape (v :: s) := by simp [Py.escape]
    rw [hs, Ecma.escape, if_neg hp, Bool.and_eq_true, ← ih]
    cases h : alikeUnit u with
    | true => simp [escapeUnit_eq h]
    | false =>
      obtain ⟨⟨p, hpu⟩, he, hne⟩ := escapeUnit_differ h
      simp [hpu, he, Ne.symm hne]

/-- `json.dumps` and `JSON.stringify` write the same string token exactly for
the strings of `alike`. -/
theorem quote_eq_iff (s : Str) : Py.quote s = Ecma.quote s ↔ alike s = true := by
  rw [← escape_eq_iff]
  simp [Py.quote, Ecma.quote]

/-! ## The texts are well paired -/

theorem hexDigit_ascii (n : Nat) : (hexDigit n).toNat < 0x80 := by
  have h : ∀ m : Fin 16, (hexDigit m).toNat < 0x80 := by decide
  have := h ⟨n % 16, Nat.mod_lt _ (by decide)⟩
  simpa [hexDigit] using this

theorem isAscii_uEscape (u : UInt16) : isAscii (uEscape u) = true := by
  have hslash : (unit '\\').toNat < 0x80 := by decide
  have hu : (unit 'u').toNat < 0x80 := by decide
  simp only [isAscii, uEscape, hex4, all_cons, all_nil, hexDigit_ascii, hslash, hu,
    decide_true, Bool.and_self]

theorem Py.ascii_escapeUnit (u : UInt16) : isAscii (Py.escapeUnit u) = true := by
  unfold Py.escapeUnit
  iterate 7 (split; · rfl)
  split
  · exact isAscii_uEscape u
  · rename_i h
    simp only [Bool.or_eq_true, decide_eq_true_eq, not_or] at h
    have h7 := UInt16.le_iff_toNat_le.mp (UInt16.not_lt.mp h.2)
    have : (0x7E : UInt16).toNat = 0x7E := rfl
    simp only [isAscii, all_cons, all_nil, Bool.and_true, decide_eq_true_eq]
    omega

theorem Py.ascii_quote (s : Str) : isAscii (Py.quote s) = true := by
  rw [isAscii_iff]
  intro v hv
  simp only [Py.quote, Py.escape, mem_append, mem_cons, mem_flatMap,
    not_mem_nil, or_false] at hv
  obtain (rfl | ⟨u, -, hv⟩) | rfl := hv
  · decide
  · exact isAscii_iff.mp (Py.ascii_escapeUnit u) v hv
  · decide

theorem Ecma.wellPaired_escapeUnit (u : UInt16) : Utf8.wellPaired (Ecma.escapeUnit u) = true := by
  cases h : alikeUnit u with
  | true =>
    rw [← escapeUnit_eq h]
    exact Utf8.wellPaired_ascii _ (Py.ascii_escapeUnit u)
  | false =>
    rw [(escapeUnit_differ h).2.1]
    simp only [alikeUnit, Bool.or_eq_false_iff] at h
    simp [Utf8.wellPaired, h.2]

theorem Ecma.wellPaired_quote (s : Str) : Utf8.wellPaired (Ecma.quote s) = true := by
  have hesc : Utf8.wellPaired (Ecma.escape s) = true := by
    fun_induction Ecma.escape s with
    | case1 => rfl
    | case2 u => exact Ecma.wellPaired_escapeUnit u
    | case3 u v s h ih => simpa [Utf8.wellPaired, h] using ih
    | case4 u v s h ih => exact Utf8.wellPaired_append _ _ (Ecma.wellPaired_escapeUnit u) ih
  exact Utf8.wellPaired_append _ _ (Utf8.wellPaired_append [unit '"'] _ (by decide) hesc)
    (by decide)

theorem wellPaired_joinSep {sep : Str} (hsep : Utf8.wellPaired sep = true) (xs : List Str)
    (h : ∀ x ∈ xs, Utf8.wellPaired x = true) : Utf8.wellPaired (joinSep sep xs) = true := by
  match xs with
  | [] => rfl
  | [x] => exact h x (by simp)
  | x :: y :: xs =>
    refine Utf8.wellPaired_append _ _ (Utf8.wellPaired_append _ _ (h x (by simp)) hsep) ?_
    exact wellPaired_joinSep hsep (y :: xs) fun z hz => h z (by simp [hz])

/-- A printer whose tokens have no unpaired surrogate. -/
structure Printer.Paired {ν : Type} (P : Printer ν) : Prop where
  num : ∀ n, Utf8.wellPaired (P.num n) = true
  quote : ∀ s, Utf8.wellPaired (P.quote s) = true

mutual

theorem wellPaired_print {ν : Type} {P : Printer ν} (h : P.Paired) (v : Json ν) :
    Utf8.wellPaired (P.print v) = true := by
  match v with
  | .null => exact Utf8.wellPaired_ascii (units "null") (by decide)
  | .bool true => exact Utf8.wellPaired_ascii (units "true") (by decide)
  | .bool false => exact Utf8.wellPaired_ascii (units "false") (by decide)
  | .num n => exact h.num n
  | .str s => exact h.quote s
  | .arr xs =>
    exact Utf8.wellPaired_append _ _ (Utf8.wellPaired_append [unit '['] _ (by decide)
      (wellPaired_joinSep (by decide) _ (wellPaired_printElems h xs))) (by decide)
  | .obj ms =>
    exact Utf8.wellPaired_append _ _ (Utf8.wellPaired_append [unit '{'] _ (by decide)
      (wellPaired_joinSep (by decide) _ (wellPaired_printMembers h ms))) (by decide)

theorem wellPaired_printElems {ν : Type} {P : Printer ν} (h : P.Paired) (xs : List (Json ν)) :
    ∀ x ∈ P.printElems xs, Utf8.wellPaired x = true := by
  match xs with
  | [] => simp [Printer.printElems]
  | x :: xs =>
    simp only [Printer.printElems, mem_cons, forall_eq_or_imp]
    exact ⟨wellPaired_print h x, wellPaired_printElems h xs⟩

theorem wellPaired_printMembers {ν : Type} {P : Printer ν} (h : P.Paired) (ms : Members ν) :
    ∀ x ∈ P.printMembers ms, Utf8.wellPaired x = true := by
  match ms with
  | [] => simp [Printer.printMembers]
  | (k, v) :: ms =>
    simp only [Printer.printMembers, mem_cons, forall_eq_or_imp]
    refine ⟨Utf8.wellPaired_append _ _ (h.quote k) ?_, wellPaired_printMembers h ms⟩
    exact Utf8.wellPaired_append [unit ':'] _ (by decide) (wellPaired_print h v)

end

end OpenBrain.Core
