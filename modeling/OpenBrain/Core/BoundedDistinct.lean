import Mathlib.Data.Finset.Card

/-!
# Counting distinct elements with a bounded memory

A counter that goes up on each element it does not remember, and remembers the first `n` of them.
`tally_eq` says what it counts, and `tally_eq_card_iff` when that is the number of distinct
elements: no element behind the first `n` comes twice.
-/
namespace OpenBrain.Core
open List

variable {α : Type} [DecidableEq α] {n : Nat}

/-- One element, with the count and what is remembered so far. -/
def tallyStep (n : Nat) (acc : Nat × List α) (s : α) : Nat × List α :=
  if s ∈ acc.2 then acc else (acc.1 + 1, (acc.2 ++ [s]).take n)

def tally (n : Nat) (l : List α) : Nat × List α := l.foldl (tallyStep n) (0, [])

/-- The first `n` distinct elements. -/
def firsts (n : Nat) (l : List α) : List α := l.eraseDups.take n

/-- The elements behind them, as often as they come. -/
def overflow (n : Nat) (l : List α) : List α := l.filter fun s => s ∉ firsts n l

theorem tally_append_singleton (l : List α) (s : α) :
    tally n (l ++ [s]) = tallyStep n (tally n l) s := by
  rw [tally, foldl_append]
  rfl

theorem eraseDups_append_singleton (l : List α) (s : α) :
    (l ++ [s]).eraseDups = if s ∈ l then l.eraseDups else l.eraseDups ++ [s] := by
  rw [eraseDups_append]
  split
  · rename_i h
    simp [List.removeAll, h]
  · rename_i h
    simp [List.removeAll, h, eraseDups_cons]

theorem nodup_eraseDups (l : List α) : l.eraseDups.Nodup := by
  induction l using List.reverseRecOn with
  | nil => exact nodup_nil
  | append_singleton l s ih =>
    rw [eraseDups_append_singleton]
    split
    · exact ih
    · rename_i h
      rw [← concat_eq_append]
      exact ih.concat (fun hs => h (mem_eraseDups.mp hs))

theorem length_firsts_le (l : List α) : (firsts n l).length ≤ n := length_take_le n _

theorem mem_of_mem_firsts {l : List α} {s : α} (h : s ∈ firsts n l) : s ∈ l :=
  mem_eraseDups.mp (mem_of_mem_take h)

theorem length_eraseDups (l : List α) : l.eraseDups.length = l.toFinset.card := by
  rw [← toFinset_card_of_nodup (nodup_eraseDups l)]
  congr 1
  ext s
  simp [mem_eraseDups]

/-- A new element is remembered while there is room. -/
theorem firsts_append_singleton (l : List α) (s : α) :
    firsts n (l ++ [s]) =
      if s ∈ l ∨ n ≤ l.eraseDups.length then firsts n l else firsts n l ++ [s] := by
  unfold firsts
  rw [eraseDups_append_singleton]
  by_cases hs : s ∈ l
  · rw [if_pos hs, if_pos (.inl hs)]
  · rw [if_neg hs]
    by_cases hn : n ≤ l.eraseDups.length
    · rw [if_pos (.inr hn), take_append_of_le_length hn]
    · rw [if_neg (fun h => h.elim hs hn), take_of_length_le (by simp; omega),
        take_of_length_le (by omega)]

/-- What the counter counts: what it remembers, and every element it does not. -/
theorem tally_eq (l : List α) :
    tally n l = ((firsts n l).length + l.countP (fun s => s ∉ firsts n l), firsts n l) := by
  induction l using List.reverseRecOn with
  | nil => simp [tally, firsts]
  | append_singleton l s ih =>
    rw [tally_append_singleton, ih, tallyStep, firsts_append_singleton]
    dsimp only
    by_cases hfirst : s ∈ firsts n l
    · have hs := mem_of_mem_firsts hfirst
      rw [if_pos hfirst, if_pos (.inl hs), countP_append]
      simp [hfirst]
    rw [if_neg hfirst]
    by_cases hkept : s ∈ l ∨ n ≤ l.eraseDups.length
    · -- nothing new is remembered
      have hfull : n ≤ (firsts n l).length := by
        unfold firsts at hfirst ⊢
        rw [length_take]
        rcases hkept with hs | hn
        · by_contra hlt
          refine hfirst ?_
          rw [take_of_length_le (by omega)]
          exact mem_eraseDups.mpr hs
        · omega
      rw [if_pos hkept, countP_append, take_append_of_le_length hfull,
        take_of_length_le (length_firsts_le l)]
      simp [hfirst]
      omega
    · have hs : s ∉ l := fun h => hkept (.inl h)
      have hroom : (firsts n l ++ [s]).length ≤ n := by
        have hlen := length_take_le n l.eraseDups
        have hn : ¬n ≤ l.eraseDups.length := fun h => hkept (.inr h)
        unfold firsts
        rw [length_append, length_take, length_singleton]
        omega
      have hsame : l.countP (fun t => t ∉ firsts n l ++ [s]) =
          l.countP (fun t => t ∉ firsts n l) :=
        countP_congr fun t ht => by
          have hne : t ≠ s := fun heq => hs (heq ▸ ht)
          simp [hne]
      rw [if_neg hkept, countP_append, hsame, take_of_length_le hroom]
      simp
      omega

/-- The elements behind the first `n` are those that are not remembered. -/
theorem card_overflow (l : List α) :
    l.toFinset.card =
      (firsts n l).length + (overflow n l).toFinset.card := by
  have hnodup := nodup_eraseDups l
  have hsplit : (overflow n l).toFinset = (l.eraseDups.drop n).toFinset := by
    ext s
    have hmem : s ∈ l ↔ s ∈ firsts n l ∨ s ∈ l.eraseDups.drop n := by
      rw [← mem_eraseDups, ← mem_append, firsts, take_append_drop]
    have hdisj : s ∈ l.eraseDups.drop n → s ∉ firsts n l := fun hd ht =>
      disjoint_of_nodup_append (by rw [firsts, take_append_drop]; exact hnodup) ht hd
    simp only [overflow, mem_toFinset, mem_filter, decide_eq_true_eq]
    tauto
  rw [hsplit, toFinset_card_of_nodup (hnodup.sublist (List.drop_sublist n _)),
    ← length_eraseDups, firsts, ← length_append, take_append_drop]

/-- The counter never falls short. -/
theorem card_le_tally (l : List α) : l.toFinset.card ≤ (tally n l).1 := by
  rw [tally_eq, card_overflow (n := n) l, countP_eq_length_filter]
  exact Nat.add_le_add_left (toFinset_card_le _) _

/-- An element that is not remembered, while there is room for more. -/
theorem mem_firsts_of_room {l : List α} (hroom : l.toFinset.card < n) (s : α) :
    s ∈ firsts n l ↔ s ∈ l := by
  rw [firsts, take_of_length_le (by rw [length_eraseDups]; omega), mem_eraseDups]

theorem length_firsts (l : List α) : (firsts n l).length = min n l.toFinset.card := by
  rw [firsts, length_take, length_eraseDups]

/-- The counter is right exactly when nothing it does not remember comes twice. -/
theorem tally_eq_card_iff (l : List α) :
    (tally n l).1 = l.toFinset.card ↔ (overflow n l).Nodup := by
  rw [tally_eq, card_overflow (n := n) l]
  dsimp only
  rw [countP_eq_length_filter, ← overflow, Nat.add_left_cancel_iff]
  constructor
  · intro h
    exact Multiset.toFinset_card_eq_card_iff_nodup.mp h.symm
  · exact fun h => (toFinset_card_of_nodup h).symm

end OpenBrain.Core
