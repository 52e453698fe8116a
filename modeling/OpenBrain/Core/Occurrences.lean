import Mathlib.Data.List.Infix

/-!
# Occurrences of a pattern

A text is read block by block, each block behind the last units read before it, one unit fewer than
the pattern has. Then an occurrence shows in one window only, the one of the block it ends in
(`total_window`), and where no two overlap the usual count finds each (`count_eq`).
-/
namespace OpenBrain.Core.Occurrences
open List

variable {α : Type} [DecidableEq α] (m : List α)

/-- The places the pattern stands at. -/
def total : List α → Nat
  | [] => 0
  | c :: s => total s + if m.isPrefixOf (c :: s) then 1 else 0

/-- Occurrences from the left, none within another; the number is how many units of the last one
found are still to come. -/
def countFrom : Nat → List α → Nat
  | _, [] => 0
  | k + 1, _ :: s => countFrom k s
  | 0, c :: s => if m.isPrefixOf (c :: s) then countFrom (m.length - 1) s + 1 else countFrom 0 s

def count (s : List α) : Nat := countFrom m 0 s

/-- No two occurrences overlap. -/
def Apart (s : List α) : Prop :=
  ∀ i j, i < j → m <+: s.drop i → m <+: s.drop j → i + m.length ≤ j

/-- What is kept of a text for the block behind it. -/
def carried (s : List α) : List α := s.drop (s.length - (m.length - 1))

variable {m} {s t : List α}

theorem Apart.of_infix (h : Apart m t) (hs : s <:+: t) : Apart m s := by
  obtain ⟨a, b, rfl⟩ := hs
  have hshift : ∀ i, m <+: s.drop i → m <+: (a ++ s ++ b).drop (a.length + i) := by
    intro i hi
    rw [append_assoc, drop_length_add_append]
    exact hi.trans ((prefix_append s b).drop i)
  intro i j hij hi hj
  have := h (a.length + i) (a.length + j) (by omega) (hshift i hi) (hshift j hj)
  omega

theorem countFrom_eq (h : Apart m s) (k : Nat) (hk : ∀ i < k, ¬ m <+: s.drop i) :
    countFrom m k s = total m s := by
  induction s generalizing k with
  | nil => cases k <;> rfl
  | cons c s ih =>
    have hrest : Apart m s := h.of_infix (suffix_cons c s).isInfix
    cases k with
    | succ k =>
      have hnot : m.isPrefixOf (c :: s) = false :=
        Bool.eq_false_iff.mpr fun hp => hk 0 (Nat.succ_pos k) (List.isPrefixOf_iff_prefix.mp hp)
      rw [countFrom, total, hnot, ih hrest k fun i hi => hk (i + 1) (Nat.succ_lt_succ hi)]
      rfl
    | zero =>
      rw [countFrom, total]
      split
      · rename_i hp
        rw [ih hrest]
        intro i hi hnext
        have := h 0 (i + 1) (Nat.succ_pos i) (List.isPrefixOf_iff_prefix.mp hp) hnext
        omega
      · exact ih hrest 0 nofun

/-- The usual count finds every occurrence. -/
theorem count_eq (h : Apart m s) : count m s = total m s := countFrom_eq h 0 nofun

theorem total_short (h : s.length < m.length) : total m s = 0 := by
  induction s with
  | nil => rfl
  | cons c s ih =>
    have hnot : ¬ m.isPrefixOf (c :: s) := fun hp =>
      Nat.not_lt.mpr (List.isPrefixOf_iff_prefix.mp hp).length_le h
    rw [total, if_neg hnot, ih (Nat.lt_of_succ_lt h)]

theorem total_append (a : List α) (h : s.length + 1 = m.length) :
    total m (a ++ s ++ t) = total m (a ++ s) + total m (s ++ t) := by
  induction a with
  | nil =>
    rw [nil_append, total_short (s := s) (by omega), Nat.zero_add]
  | cons c a ih =>
    have hsame : m.isPrefixOf (c :: (a ++ s ++ t)) = m.isPrefixOf (c :: (a ++ s)) := by
      rw [Bool.eq_iff_iff, List.isPrefixOf_iff_prefix, List.isPrefixOf_iff_prefix]
      refine ⟨fun hp => ?_, fun hp => hp.trans (prefix_append (c :: (a ++ s)) t)⟩
      refine prefix_of_prefix_length_le hp (prefix_append (c :: (a ++ s)) t) ?_
      rw [length_cons, length_append]
      omega
    simp only [cons_append]
    rw [total, total, hsame, ih]
    omega

/-- Reading on: what a block adds shows in the window of the block. -/
theorem total_window (hm : m ≠ []) (s t : List α) :
    total m (s ++ t) = total m s + total m (carried m s ++ t) := by
  have hpos := length_pos_iff.mpr hm
  unfold carried
  by_cases hlong : s.length < m.length
  · rw [total_short hlong, Nat.sub_eq_zero_of_le (by omega), drop_zero, Nat.zero_add]
  · have hsplit := take_append_drop (s.length - (m.length - 1)) s
    have hlength : (s.drop (s.length - (m.length - 1))).length + 1 = m.length := by
      rw [List.length_drop]
      omega
    conv_lhs => rw [← hsplit, total_append _ hlength, hsplit]

theorem total_mono (hm : m ≠ []) (h : s <+: t) : total m s ≤ total m t := by
  obtain ⟨rest, rfl⟩ := h
  rw [total_window hm]
  exact Nat.le_add_right _ _

omit [DecidableEq α] in
theorem carried_window (s t : List α) : carried m (carried m s ++ t) = carried m (s ++ t) := by
  have hwhere : (s ++ t).length - (m.length - 1) = s.length - (m.length - 1) +
      ((carried m s ++ t).length - (m.length - 1)) := by
    unfold carried
    rw [length_append, length_append, List.length_drop]
    omega
  have hread : (s ++ t).drop (s.length - (m.length - 1)) = carried m s ++ t :=
    drop_append_of_le_length (Nat.sub_le _ _)
  unfold carried at hwhere hread ⊢
  rw [hwhere, ← drop_drop, hread]

end OpenBrain.Core.Occurrences
