import Mathlib.Order.Basic
import Mathlib.Data.List.Basic
import Mathlib.Order.Lattice

/-!
# Windows over a sorted list

A walk back from a row of a sorted list stops where the group changes or the window is full.
When the groups of the order are contiguous, what it meets is said without the list: the earlier
rows of the group with fewer than the window's rows in between (`mem_window_iff`).
-/
namespace OpenBrain.Core
open List

variable {α K G : Type} [LinearOrder K] [DecidableEq G] {key : α → K} {group : α → G}

/-- The rows of a group lie together in the order of the keys. -/
def Contiguous (key : α → K) (group : α → G) : Prop :=
  ∀ a b c, key a ≤ key b → key b ≤ key c → group a = group c → group b = group c

def between (key : α → K) (rows : List α) (t c : α) : List α :=
  rows.filter fun x => key t < key x ∧ key x < key c

/-- On a list that falls from `c` on, the walk meets the group's rows until it is full. -/
theorem mem_walk_iff (hg : Contiguous key group) {c t : α} {l : List α} {n : Nat}
    (hs : l.Pairwise fun a b => key b < key a) (hc : ∀ x ∈ l, key x < key c) :
    t ∈ (l.takeWhile fun x => group x = group c).take n ↔
      t ∈ l ∧ group t = group c ∧ (l.filter fun x => key t < key x).length < n := by
  induction l generalizing n with
  | nil => simp
  | cons x l ih =>
    obtain ⟨hx, hs⟩ := pairwise_cons.mp hs
    have hxc : key x < key c := hc x mem_cons_self
    have ih := fun n => @ih n hs fun y hy => hc y (mem_cons_of_mem _ hy)
    by_cases hgx : group x = group c
    · rw [takeWhile_cons_of_pos (by simpa using hgx)]
      cases n with
      | zero => simp
      | succ n =>
        rw [take_succ_cons, mem_cons, ih n]
        constructor
        · rintro (rfl | ⟨ht, htg, hlen⟩)
          · -- nothing of the list is above its head
            have hnil : ((t :: l).filter fun x => key t < key x) = [] := by
              rw [filter_eq_nil_iff]
              intro y hy
              rcases mem_cons.mp hy with rfl | hy
              · simp
              · simpa using (hx y hy).le
            rw [hnil]
            exact ⟨mem_cons_self, hgx, Nat.succ_pos n⟩
          · rw [filter_cons_of_pos (by simpa using hx t ht)]
            exact ⟨mem_cons_of_mem _ ht, htg, Nat.succ_lt_succ hlen⟩
        · rintro ⟨ht, htg, hlen⟩
          rcases mem_cons.mp ht with rfl | ht
          · exact .inl rfl
          · rw [filter_cons_of_pos (by simpa using hx t ht)] at hlen
            exact .inr ⟨ht, htg, Nat.lt_of_succ_lt_succ hlen⟩
    · rw [takeWhile_cons_of_neg (by simpa using hgx), take_nil]
      constructor
      · intro h
        cases h
      · rintro ⟨ht, htg, -⟩
        rcases mem_cons.mp ht with rfl | ht
        · exact absurd htg hgx
        · exact absurd (hg t x c (hx t ht).le hxc.le htg) hgx

/-- What the walk back from `c` meets in a list sorted by key. -/
theorem mem_window_iff (hg : Contiguous key group) {pre post : List α} {c t : α} {n : Nat}
    (hs : (pre ++ c :: post).Pairwise fun a b => key a < key b) :
    t ∈ (pre.reverse.takeWhile fun x => group x = group c).take n ↔
      t ∈ pre ++ c :: post ∧ key t < key c ∧ group t = group c ∧
        (between key (pre ++ c :: post) t c).length < n := by
  obtain ⟨hpre, hpost, hcross⟩ := pairwise_append.mp hs
  have hbefore : ∀ x ∈ pre, key x < key c := fun x hx => hcross x hx c mem_cons_self
  have hafter : ∀ x ∈ c :: post, ¬ key x < key c := by
    intro x hx
    rcases mem_cons.mp hx with rfl | hx
    · exact lt_irrefl _
    · exact (rel_of_pairwise_cons hpost hx).not_gt
  have hmem : t ∈ pre ↔ t ∈ pre ++ c :: post ∧ key t < key c := by
    rw [mem_append]
    exact ⟨fun h => ⟨.inl h, hbefore t h⟩, fun h => h.1.resolve_right fun hc => hafter t hc h.2⟩
  -- between the two lie rows before `c` only
  have hbetween : between key (pre ++ c :: post) t c = pre.filter fun x => key t < key x := by
    unfold between
    rw [filter_append]
    have hnil : ((c :: post).filter fun x => key t < key x ∧ key x < key c) = [] := by
      rw [filter_eq_nil_iff]
      intro x hx
      simpa using fun _ => le_of_not_gt (hafter x hx)
    rw [hnil, append_nil]
    apply filter_congr
    intro x hx
    simp [hbefore x hx]
  rw [mem_walk_iff hg (pairwise_reverse.mpr hpre)
    fun x hx => hbefore x (mem_reverse.mp hx), mem_reverse, hmem, hbetween,
    filter_reverse, length_reverse, and_assoc]

end OpenBrain.Core
