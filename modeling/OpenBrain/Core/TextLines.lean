import OpenBrain.Core.Utf8
import Mathlib.Data.List.Flatten
import Mathlib.Data.List.DropRight

/-!
# Text files and their lines

A file of text is read as octets, decoded, cut after every unit that ends a line
(`splitAfter`) and written back as the octets of the lines it keeps. The lines of a text
are the text (`flatten_splitAfter`), a text that ends its last line can be prolonged line by
line (`splitAfter_append`), and the octets of lines are the octets of their text
(`encode_flatten`).

`universalNewlines` is the translation Python's text files make while they read. It is the
identity exactly on texts without a carriage return (`universalNewlines_eq_iff`).
-/
namespace OpenBrain.Core
open List

namespace Utf8

/-! ## Octets of a text put together -/

theorem encode_cons {u : UInt16} (h : isHighSurrogate u = false) (t : Str) :
    encode (u :: t) = encodeUnit u ++ encode t := by
  cases t with
  | nil => rw [encode, encode, append_nil]
  | cons v t =>
    rw [encode, h, Bool.false_and]
    rfl

theorem encode_append (s : Str) {t : Str}
    (h : ∀ u, s.getLast? = some u → isHighSurrogate u = false) :
    encode (s ++ t) = encode s ++ encode t := by
  fun_induction encode s with
  | case1 => rfl
  | case2 u =>
    rw [singleton_append]
    exact encode_cons (h u rfl) t
  | case3 u v s hp ih =>
    rw [cons_append, cons_append, encode, if_pos hp, append_assoc]
    congr 1
    cases s with
    | nil => rfl
    | cons w s => exact ih h
  | case4 u v s hp ih =>
    rw [cons_append, cons_append, encode, if_neg hp, append_assoc]
    congr 1
    exact ih h

theorem encode_flatten {lines : List Str}
    (h : ∀ line ∈ lines.dropLast, ∀ u, line.getLast? = some u → isHighSurrogate u = false) :
    encode lines.flatten = lines.flatMap encode := by
  induction lines with
  | nil => rfl
  | cons line lines ih =>
    cases lines with
    | nil => rw [flatten_singleton, flatMap_singleton]
    | cons next lines =>
      rw [dropLast_cons_of_ne_nil (cons_ne_nil next lines)] at h
      rw [flatten_cons, flatMap_cons, encode_append line (h line mem_cons_self),
        ih fun l hl => h l (mem_cons_of_mem _ hl)]

/-! ## ASCII units -/

theorem mem_encodeUnit {a : Nat} (ha : a < 0x80) (u : UInt16) :
    UInt8.ofNat a ∈ encodeUnit u ↔ u.toNat = a := by
  have hn := u.toNat_lt
  unfold encodeUnit
  generalize u.toNat = n at hn ⊢
  dsimp only
  have hne : ∀ m, 0x80 ≤ m → m < 256 → UInt8.ofNat a ≠ UInt8.ofNat m := by
    intro m hlo hhi heq
    have := congrArg UInt8.toNat heq
    rw [ofNat_toNat_lt (by omega), ofNat_toNat_lt hhi] at this
    omega
  split
  · rw [mem_singleton]
    constructor
    · intro heq
      have := congrArg UInt8.toNat heq
      rw [ofNat_toNat_lt (by omega), ofNat_toNat_lt (by omega)] at this
      exact this.symm
    · intro heq
      rw [heq]
  · refine ⟨fun hmem => ?_, fun heq => by omega⟩
    exfalso
    split at hmem
    · rcases mem_cons.mp hmem with hm | hm
      · exact hne _ (by omega) (by omega) hm
      · exact hne _ (by omega) (by omega) (mem_singleton.mp hm)
    split at hmem
    · rcases mem_cons.mp hmem with hm | hm
      · exact hne 0xEF (by omega) (by omega) hm
      rcases mem_cons.mp hm with hm | hm
      · exact hne 0xBF (by omega) (by omega) hm
      · exact hne 0xBD (by omega) (by omega) (mem_singleton.mp hm)
    · rcases mem_cons.mp hmem with hm | hm
      · exact hne _ (by omega) (by omega) hm
      rcases mem_cons.mp hm with hm | hm
      · exact hne _ (by omega) (by omega) hm
      · exact hne _ (by omega) (by omega) (mem_singleton.mp hm)

theorem not_mem_encodePair {a : Nat} (ha : a < 0x80) {u v : UInt16}
    (hu : isHighSurrogate u = true) (hv : isLowSurrogate v = true) :
    UInt8.ofNat a ∉ encodePair u v := by
  obtain ⟨hlo, hhi⟩ := pairCode_bounds hu hv
  unfold encodePair
  generalize pairCode u v = n at hlo hhi ⊢
  have hne : ∀ m, 0x80 ≤ m → m < 256 → UInt8.ofNat a ≠ UInt8.ofNat m := by
    intro m hlo hhi heq
    have := congrArg UInt8.toNat heq
    rw [ofNat_toNat_lt (by omega), ofNat_toNat_lt hhi] at this
    omega
  intro hmem
  rcases mem_cons.mp hmem with hm | hm
  · exact hne _ (by omega) (by omega) hm
  rcases mem_cons.mp hm with hm | hm
  · exact hne _ (by omega) (by omega) hm
  rcases mem_cons.mp hm with hm | hm
  · exact hne _ (by omega) (by omega) hm
  · exact hne _ (by omega) (by omega) (mem_singleton.mp hm)

/-- An ASCII octet stands for the ASCII unit and for nothing else. -/
theorem mem_encode {a : Nat} (ha : a < 0x80) (s : Str) :
    UInt8.ofNat a ∈ encode s ↔ UInt16.ofNat a ∈ s := by
  have hunit : ∀ u : UInt16, u.toNat = a ↔ UInt16.ofNat a = u := by
    intro u
    rw [← UInt16.toNat_inj, UInt16.toNat_ofNat', Nat.mod_eq_of_lt (by omega)]
    exact eq_comm
  fun_induction encode s with
  | case1 => simp
  | case2 u => rw [mem_encodeUnit ha, hunit, mem_singleton]
  | case3 u v s hp ih =>
    obtain ⟨hu, hv⟩ := Bool.and_eq_true_iff.mp hp
    have hhi := (high_iff u).mp hu
    have hlo := (low_iff v).mp hv
    have hune : UInt16.ofNat a ≠ u := by
      intro h
      have := (hunit u).mpr h
      omega
    have hvne : UInt16.ofNat a ≠ v := by
      intro h
      have := (hunit v).mpr h
      omega
    rw [mem_append, or_iff_right (not_mem_encodePair ha hu hv), mem_cons, mem_cons,
      or_iff_right hune, or_iff_right hvne]
    exact ih
  | case4 u v s hp ih =>
    rw [mem_append, mem_encodeUnit ha, hunit, mem_cons]
    exact or_congr_right ih

/-! ## What a strict reader reads -/

theorem decodeFrom_replacement (bs : List UInt8) :
    decodeFrom idle ([0xEF, 0xBF, 0xBD] ++ bs) = 0xFFFD :: decodeFrom idle bs := rfl

theorem encodeUnit_surrogate {u : UInt16} (h : isSurrogate u = true) :
    encodeUnit u = [0xEF, 0xBF, 0xBD] := by
  have hs := (surrogate_iff u).mp h
  unfold encodeUnit
  dsimp only
  rw [if_neg (by omega), if_neg (by omega), if_pos h]

/-- A text that comes back from its octets has no unpaired surrogate. -/
theorem wellPaired_of_decodeFrom (s : Str) (h : decodeFrom idle (encode s) = s) :
    wellPaired s = true := by
  fun_induction encode s with
  | case1 => rfl
  | case2 u =>
    cases hu : isSurrogate u with
    | false => simp [wellPaired, hu]
    | true =>
      rw [encodeUnit_surrogate hu] at h
      rw [← (List.cons.inj h).1] at hu
      cases hu
  | case3 u v s hp ih =>
    obtain ⟨hu, hv⟩ := Bool.and_eq_true_iff.mp hp
    rw [decodeFrom_encodePair hu hv] at h
    rw [wellPaired, if_pos hp]
    exact ih (List.cons.inj (List.cons.inj h).2).2
  | case4 u v s hp ih =>
    rw [wellPaired, if_neg hp]
    cases hu : isSurrogate u with
    | false =>
      rw [decodeFrom_encodeUnit hu] at h
      rw [ih (List.cons.inj h).2]
      rfl
    | true =>
      rw [encodeUnit_surrogate hu, decodeFrom_replacement] at h
      rw [← (List.cons.inj h).1] at hu
      cases hu

theorem wellPaired_of_decodeStrict {bytes : List UInt8} {s : Str}
    (h : decodeStrict bytes = some s) : wellPaired s = true := by
  unfold decodeStrict at h
  split at h
  · rename_i heq
    cases h
    apply wellPaired_of_decodeFrom
    rw [heq]
  · cases h

theorem last_of_wellPaired {s : Str} (h : wellPaired s = true) :
    ∀ u, s.getLast? = some u → isHighSurrogate u = false := by
  have hlow : ∀ u, isSurrogate u = false → isHighSurrogate u = false := by
    intro u hu
    rw [Bool.eq_false_iff]
    intro hhi
    rw [high_surrogate hhi] at hu
    cases hu
  intro w hw
  fun_induction wellPaired s with
  | case1 => cases hw
  | case2 u =>
    cases hw
    exact hlow u (by simpa using h)
  | case3 u v s hp ih =>
    cases s with
    | nil =>
      cases hw
      have hv := (low_iff v).mp (Bool.and_eq_true_iff.mp hp).2
      rw [Bool.eq_false_iff]
      intro hhi
      have := (high_iff v).mp hhi
      omega
    | cons x s => exact ih h hw
  | case4 u v s hp ih => exact ih (Bool.and_eq_true_iff.mp h).2 hw

end Utf8

/-! ## Lines -/

section SplitAfter
variable (p : UInt16 → Bool)

/-- A text cut after every unit that ends a line. -/
def splitAfter : Str → List Str
  | [] => []
  | u :: s =>
    if p u then [u] :: splitAfter s
    else
      match splitAfter s with
      | [] => [[u]]
      | line :: lines => (u :: line) :: lines

theorem splitAfter_cons (u : UInt16) (s : Str) : splitAfter p (u :: s) =
    if p u then [u] :: splitAfter p s
    else (u :: (splitAfter p s).head?.getD []) :: (splitAfter p s).tail := by
  rw [splitAfter]
  congr 1
  cases splitAfter p s with
  | nil => rfl
  | cons line lines => rfl

theorem flatten_splitAfter (s : Str) : (splitAfter p s).flatten = s := by
  induction s with
  | nil => rfl
  | cons u s ih =>
    rw [splitAfter_cons]
    split
    · rw [flatten_cons, ih]
      rfl
    · rw [flatten_cons, cons_append]
      congr 1
      cases hs : splitAfter p s with
      | nil =>
        rw [hs] at ih
        exact ih
      | cons line lines =>
        rw [hs] at ih
        exact ih

theorem splitAfter_eq_nil {s : Str} : splitAfter p s = [] ↔ s = [] := by
  constructor
  · intro h
    have := flatten_splitAfter p s
    rw [h] at this
    exact this.symm
  · intro h
    rw [h]
    rfl

/-- The text up to its last line ended is cut the same, whatever follows. -/
theorem splitAfter_append {s : Str} (t : Str) (h : ∀ u, s.getLast? = some u → p u = true) :
    splitAfter p (s ++ t) = splitAfter p s ++ splitAfter p t := by
  induction s with
  | nil => rfl
  | cons u s ih =>
    have hs : ∀ v, s.getLast? = some v → p v = true := by
      intro v hv
      apply h
      rw [getLast?_cons, hv]
      rfl
    rw [cons_append, splitAfter_cons, splitAfter_cons, ih hs]
    split
    · rfl
    · rename_i hu
      cases s with
      | nil => exact absurd (h u rfl) hu
      | cons v s =>
        have hne : splitAfter p (v :: s) ≠ [] := by
          rw [Ne, splitAfter_eq_nil]
          exact cons_ne_nil v s
        obtain ⟨line, lines, hl⟩ := exists_cons_of_ne_nil hne
        rw [hl]
        rfl

/-- Units that end no line prolong the first line of what follows. -/
theorem splitAfter_prolong {s : Str} (t : Str) (h : ∀ u ∈ s, p u = false) :
    splitAfter p (s ++ t) = if s = [] ∧ t = [] then []
      else (s ++ (splitAfter p t).head?.getD []) :: (splitAfter p t).tail := by
  induction s with
  | nil =>
    cases t with
    | nil => rfl
    | cons v t =>
      rw [if_neg (by simp), nil_append, nil_append, splitAfter_cons]
      split <;> rfl
  | cons u s ih =>
    have hs := ih fun v hv => h v (mem_cons_of_mem _ hv)
    rw [if_neg (by simp), cons_append, splitAfter_cons, h u mem_cons_self, hs]
    simp only [Bool.false_eq_true, ↓reduceIte]
    split
    · rename_i hnil
      rw [hnil.1, hnil.2]
      rfl
    · rfl

/-- A line that ends with its break and holds no other. -/
def IsLine (line : Str) : Prop := ∃ body u, line = body ++ [u] ∧ p u = true ∧ ∀ v ∈ body, p v = false

theorem splitAfter_line {line : Str} (h : IsLine p line) : splitAfter p line = [line] := by
  obtain ⟨body, u, rfl, hu, hbody⟩ := h
  rw [splitAfter_prolong p [u] hbody, if_neg (by simp), splitAfter_cons, if_pos hu]
  rfl

theorem splitAfter_lines {lines : List Str} (h : ∀ line ∈ lines, IsLine p line) :
    splitAfter p lines.flatten = lines := by
  induction lines with
  | nil => rfl
  | cons line lines ih =>
    have hline := h line mem_cons_self
    rw [flatten_cons, splitAfter_append, splitAfter_line p hline,
      ih fun l hl => h l (mem_cons_of_mem _ hl)]
    · rfl
    · obtain ⟨body, u, rfl, hu, -⟩ := hline
      intro v hv
      rw [getLast?_append, getLast?_singleton, Option.some_or] at hv
      rw [← Option.some.inj hv]
      exact hu

/-- The part of a text up to its last line break. -/
def settled (s : Str) : Str := s.rdropWhile fun u => !p u

/-- What follows the last line break. -/
def torn (s : Str) : Str := s.rtakeWhile fun u => !p u

theorem settled_append_torn (s : Str) : settled p s ++ torn p s = s :=
  rdropWhile_append_rtakeWhile

theorem settled_last {s : Str} {u : UInt16} (h : (settled p s).getLast? = some u) : p u = true := by
  have hne : settled p s ≠ [] := by
    intro hnil
    rw [hnil] at h
    cases h
  have hlast := rdropWhile_last_not (fun u => !p u) s hne
  rw [getLast?_eq_some_getLast hne] at h
  have hu : (settled p s).getLast hne = u := Option.some.inj h
  unfold settled at hu
  rw [hu] at hlast
  simpa using hlast

theorem torn_unbroken {s : Str} {u : UInt16} (h : u ∈ torn p s) : p u = false := by
  simpa using mem_rtakeWhile_imp h

theorem splitAfter_settled (s t : Str) :
    splitAfter p (s ++ t) = splitAfter p (settled p s) ++ splitAfter p (torn p s ++ t) := by
  rw [← splitAfter_append p _ fun u hu => settled_last p hu, ← append_assoc,
    settled_append_torn]

theorem splitAfter_behind (s : Str) {line : Str} {lines : List Str}
    (h : ∀ l ∈ line :: lines, IsLine p l) :
    splitAfter p (s ++ (line :: lines).flatten) =
      splitAfter p (settled p s) ++ (torn p s ++ line) :: lines := by
  rw [splitAfter_settled, splitAfter_prolong p _ fun u hu => torn_unbroken p hu,
    splitAfter_lines p h, if_neg]
  · rfl
  · rintro ⟨-, hnil⟩
    have := splitAfter_lines p h
    rw [hnil] at this
    cases this

/-- A line but the last ends with a break. -/
theorem break_of_mem_dropLast {s : Str} {line : Str} (h : line ∈ (splitAfter p s).dropLast) :
    IsLine p line := by
  induction s generalizing line with
  | nil => cases h
  | cons u s ih =>
    rw [splitAfter_cons] at h
    split at h
    · rename_i hu
      cases hs : splitAfter p s with
      | nil =>
        rw [hs] at h
        cases h
      | cons line' lines =>
        rw [hs, dropLast_cons_of_ne_nil (cons_ne_nil _ _)] at h
        rcases mem_cons.mp h with rfl | h
        · exact ⟨[], u, rfl, hu, fun v hv => (nomatch hv)⟩
        · apply ih
          rw [hs]
          exact h
    · rename_i hu
      cases hs : splitAfter p s with
      | nil =>
        rw [hs] at h
        cases h
      | cons line' lines =>
        rw [hs] at h ih
        change line ∈ ((u :: line') :: lines).dropLast at h
        cases lines with
        | nil => cases h
        | cons line'' lines =>
          rw [dropLast_cons_of_ne_nil (cons_ne_nil _ _)] at h ih
          rcases mem_cons.mp h with rfl | h
          · obtain ⟨body, w, rfl, hw, hbody⟩ := ih mem_cons_self
            refine ⟨u :: body, w, rfl, hw, ?_⟩
            intro v hv
            rcases mem_cons.mp hv with rfl | hv
            · exact Bool.eq_false_iff.mpr hu
            · exact hbody v hv
          · exact ih (mem_cons_of_mem _ h)

/-- The octets of some of the lines put together are theirs one by one. -/
theorem encode_lines (hp : ∀ u, p u = true → isHighSurrogate u = false) {s : Str}
    {lines : List Str} (h : lines.Sublist (splitAfter p s)) :
    Utf8.encode lines.flatten = lines.flatMap Utf8.encode := by
  have hdrop : lines.dropLast.Sublist (splitAfter p s).dropLast := by
    have htail := h.reverse.tail.reverse
    rwa [tail_reverse, tail_reverse, reverse_reverse, reverse_reverse] at htail
  apply Utf8.encode_flatten
  intro line hline u hu
  obtain ⟨body, v, rfl, hv, -⟩ := break_of_mem_dropLast p (hdrop.subset hline)
  rw [getLast?_append, getLast?_singleton, Option.some_or] at hu
  rw [← Option.some.inj hu]
  exact hp v hv

/-- The octets of a text are the octets of its lines. -/
theorem encode_splitAfter (hp : ∀ u, p u = true → isHighSurrogate u = false) (s : Str) :
    (splitAfter p s).flatMap Utf8.encode = Utf8.encode s := by
  rw [← encode_lines p hp (List.Sublist.refl _), flatten_splitAfter]

end SplitAfter

/-! ## Rewriting a file -/

section Rewrite
variable {U : Type} (linesOf : U → List Str)

def octetsOf (u : U) : List UInt8 := (linesOf u).flatMap Utf8.encode

/-- A file cut into lines, and its lines into units, is rewritten with the units that stay: the
units are its lines in order, each line in one of them, their octets are the file's, and the new
file is the octets of those that stay. -/
structure Verbatim (stays : U → Bool) (units : List U) (lines : List Str)
    (before after : List UInt8) : Prop where
  cover : units.flatMap linesOf = lines
  input : units.flatMap (octetsOf linesOf) = before
  output : (units.filter stays).flatMap (octetsOf linesOf) = after

/-- Of a text cut into lines everything is kept but what its octets were read from. -/
theorem verbatim_iff {p : UInt16 → Bool} (hp : ∀ u, p u = true → isHighSurrogate u = false)
    {stays : U → Bool} {units : List U} (text : Str) (before : List UInt8)
    (hcover : units.flatMap linesOf = splitAfter p text) :
    Verbatim linesOf stays units (splitAfter p text) before
      (Utf8.encode ((units.filter stays).flatMap linesOf).flatten) ↔
        Utf8.encode text = before := by
  have hinput : units.flatMap (octetsOf linesOf) = Utf8.encode text := by
    rw [← encode_splitAfter p hp text, ← hcover, flatMap_assoc]
    rfl
  constructor
  · intro h
    rw [← hinput]
    exact h.input
  · intro h
    refine ⟨hcover, hinput.trans h, ?_⟩
    have hkept : ((units.filter stays).flatMap linesOf).Sublist (splitAfter p text) := by
      rw [← hcover]
      exact filter_sublist.flatMap linesOf
    rw [encode_lines p hp hkept, flatMap_assoc]
    rfl

end Rewrite

/-! ## Universal newlines -/

/-- Every line break of a file becomes a line feed. -/
def universalNewlines : Str → Str
  | [] => []
  | [u] => if u = 0x0D then [0x0A] else [u]
  | u :: v :: s =>
    if u = 0x0D then
      if v = 0x0A then 0x0A :: universalNewlines s else 0x0A :: universalNewlines (v :: s)
    else u :: universalNewlines (v :: s)

theorem cr_not_mem_universalNewlines (s : Str) : (0x0D : UInt16) ∉ universalNewlines s := by
  fun_induction universalNewlines s with
  | case1 => simp
  | case2 => decide
  | case3 u h => simpa using fun heq => h heq.symm
  | case4 s ih => simpa using ih
  | case5 v s hv ih => simpa using ih
  | case6 u v s h ih =>
    rw [mem_cons, not_or]
    exact ⟨fun heq => h heq.symm, ih⟩

theorem universalNewlines_eq_self {s : Str} (h : (0x0D : UInt16) ∉ s) : universalNewlines s = s := by
  fun_induction universalNewlines s with
  | case1 => rfl
  | case2 => simp at h
  | case3 => rfl
  | case4 => simp at h
  | case5 => simp at h
  | case6 u v s hu ih => rw [ih (not_mem_of_not_mem_cons h)]

theorem universalNewlines_cons {u : UInt16} (h : u ≠ 0x0D) (s : Str) :
    universalNewlines (u :: s) = u :: universalNewlines s := by
  cases s with
  | nil =>
    show (if u = 0x0D then [0x0A] else [u]) = [u]
    rw [if_neg h]
  | cons v s => rw [universalNewlines, if_neg h]

theorem wellPaired_universalNewlines (s : Str) (h : Utf8.wellPaired s = true) :
    Utf8.wellPaired (universalNewlines s) = true := by
  fun_induction Utf8.wellPaired s with
  | case1 => rfl
  | case2 u =>
    rw [universalNewlines]
    split
    · decide
    · simpa [Utf8.wellPaired] using h
  | case3 u v s hp ih =>
    obtain ⟨hu, hv⟩ := Bool.and_eq_true_iff.mp hp
    have hune : u ≠ 0x0D := fun heq => by rw [heq] at hu; cases hu
    have hvne : v ≠ 0x0D := fun heq => by rw [heq] at hv; cases hv
    rw [universalNewlines_cons hune, universalNewlines_cons hvne, Utf8.wellPaired, if_pos hp]
    exact ih h
  | case4 u v s hp ih =>
    obtain ⟨hu, hs⟩ := Bool.and_eq_true_iff.mp h
    have ih := ih hs
    rw [universalNewlines]
    split
    · split
      · rename_i hv
        rw [Utf8.wellPaired_cons (by decide)]
        rw [hv, universalNewlines_cons (by decide), Utf8.wellPaired_cons (by decide)] at ih
        exact ih
      · rw [Utf8.wellPaired_cons (by decide)]
        exact ih
    · rw [Utf8.wellPaired_cons (by simpa using hu)]
      exact ih

end OpenBrain.Core
