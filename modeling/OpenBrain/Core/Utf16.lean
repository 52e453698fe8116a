import Mathlib.Data.List.DropRight
import Mathlib.Algebra.GroupWithZero.Nat
import Mathlib.Algebra.Group.Int.Defs

/-!
# Strings as UTF-16 code units

An ECMAScript string is a sequence of 16-bit units, surrogates paired or not;
a Python string whose lone surrogates are kept determines the same sequence.
-/
namespace OpenBrain.Core
open List

/-- A string, as its UTF-16 code units. -/
abbrev Str := List UInt16

instance strLawful : LawfulBEq Str := inferInstance

/-- The units of a literal inside the basic multilingual plane. -/
def units (s : String) : Str := s.toList.map fun c => UInt16.ofNat c.toNat

/-- The unit of a character inside the basic multilingual plane. -/
def unit (c : Char) : UInt16 := UInt16.ofNat c.toNat

/-- Over the units of a string: before any instance that goes through all units there are. -/
instance (priority := high) decidableUnits {t : Str} {P : UInt16 → Prop} [DecidablePred P] :
    Decidable (∀ u ∈ t, P u) := List.decidableBAll P t

def isHighSurrogate (u : UInt16) : Bool := decide (0xD800 ≤ u) && decide (u ≤ 0xDBFF)
def isLowSurrogate (u : UInt16) : Bool := decide (0xDC00 ≤ u) && decide (u ≤ 0xDFFF)
def isSurrogate (u : UInt16) : Bool := decide (0xD800 ≤ u) && decide (u ≤ 0xDFFF)

/-- Only units below `0x80`. -/
def isAscii (s : Str) : Bool := s.all fun u => decide (u.toNat < 0x80)

theorem isAscii_iff {s : Str} : isAscii s = true ↔ ∀ u ∈ s, u.toNat < 0x80 := by
  simp [isAscii]

/-- The lower-case hexadecimal digit of `n % 16`. -/
def hexDigit (n : Nat) : UInt16 := if n % 16 < 10 then UInt16.ofNat (48 + n % 16)
  else UInt16.ofNat (87 + n % 16)

/-- The four hexadecimal digits of a unit. -/
def hex4 (u : UInt16) : Str :=
  [hexDigit (u.toNat / 4096), hexDigit (u.toNat / 256), hexDigit (u.toNat / 16), hexDigit u.toNat]

/-- `\uXXXX`. -/
def uEscape (u : UInt16) : Str := unit '\\' :: unit 'u' :: hex4 u

def decimal (n : Nat) : Str := (Nat.toDigits 10 n).map unit

/-- The strings of a list with a separator between neighbours. -/
def joinSep (sep : Str) : List Str → Str
  | [] => []
  | [x] => x
  | x :: y :: xs => x ++ sep ++ joinSep sep (y :: xs)

/-- Joining with one unit costs one unit for each string but the last. -/
theorem length_joinSep_single (c : UInt16) (xs : List Str) :
    (joinSep [c] xs).length = (xs.map fun x => x.length + 1).sum - 1 := by
  match xs with
  | [] => rfl
  | [x] => simp [joinSep]
  | x :: y :: xs =>
    have ih := length_joinSep_single c (y :: xs)
    simp only [joinSep, length_append, length_singleton, map_cons,
      sum_cons] at ih ⊢
    omega

/-! ## Cutting both ends -/

/-- Cutting the ends on which `p` holds leaves nothing more to cut. -/
theorem cutEnds_idem {α : Type} (p : α → Bool) (s : List α) :
    (((s.dropWhile p).rdropWhile p).dropWhile p).rdropWhile p = (s.dropWhile p).rdropWhile p := by
  cases h : s.dropWhile p with
  | nil => rfl
  | cons u t =>
    -- the first element that stays is not one to cut, so it stays again
    have hu : p u = false := by
      have := head?_dropWhile_not p s
      rw [h] at this
      simpa using this
    have hsplit : (u :: t).rdropWhile p = u :: t.rdropWhile p := by
      unfold List.rdropWhile
      rw [reverse_cons, dropWhile_append]
      split
      · rename_i hnil
        rw [List.isEmpty_iff] at hnil
        rw [hnil, dropWhile_cons_of_neg (by rw [hu]; exact Bool.false_ne_true)]
        rfl
      · rw [reverse_append]
        rfl
    rw [hsplit, dropWhile_cons_of_neg (by rw [hu]; exact Bool.false_ne_true), ← hsplit,
      rdropWhile_idempotent]

end OpenBrain.Core
