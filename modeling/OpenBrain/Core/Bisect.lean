import Mathlib.Data.List.Sort
import Mathlib.Data.List.TakeWhile

/-!
# Insertion by binary search

`search` halves an interval of a list until it is empty. When what passes the test stands before
what does not, it ends where the test first fails (`search_eq`), so that an element put there is
where insertion sort would put it (`insertAt_search`).
-/
namespace OpenBrain.Core.Bisect
open List

variable {α : Type}

/-- `while lo < hi`; the interval halves, so that its length is enough fuel. -/
def search (below : α → Bool) (buf : List α) : Nat → Nat → Nat → Nat
  | 0, lo, _ => lo
  | fuel + 1, lo, hi =>
    if lo < hi then
      let mid := (lo + hi) / 2
      if buf[mid]?.any below then search below buf fuel (mid + 1) hi
      else search below buf fuel lo mid
    else lo

def insertAt (buf : List α) (n : Nat) (x : α) : List α := buf.take n ++ x :: buf.drop n

variable {below : α → Bool} {front back : List α}

theorem search_of_split (hfront : ∀ x ∈ front, below x = true) (hback : ∀ x ∈ back, below x = false) :
    ∀ fuel lo hi, lo ≤ front.length → front.length ≤ hi → hi ≤ (front ++ back).length →
      hi - lo ≤ fuel → search below (front ++ back) fuel lo hi = front.length := by
  intro fuel
  induction fuel with
  | zero =>
    intro lo hi hlo hhi _ hfuel
    rw [search]
    omega
  | succ fuel ih =>
    intro lo hi hlo hhi hbound hfuel
    unfold search
    split
    · rename_i hlt
      dsimp only
      by_cases hmid : (lo + hi) / 2 < front.length
      · have htest : (front ++ back)[(lo + hi) / 2]?.any below = true := by
          rw [getElem?_append_left hmid, getElem?_eq_getElem hmid]
          exact hfront _ (getElem_mem hmid)
        rw [if_pos htest]
        exact ih _ _ (by omega) hhi hbound (by omega)
      · have htest : (front ++ back)[(lo + hi) / 2]?.any below = false := by
          have hlen : (lo + hi) / 2 - front.length < back.length := by
            rw [length_append] at hbound
            omega
          rw [getElem?_append_right (by omega), getElem?_eq_getElem hlen]
          exact hback _ (getElem_mem hlen)
        rw [htest, if_neg Bool.false_ne_true]
        exact ih _ _ hlo (by omega) (by omega) (by omega)
    · omega

/-- In a list in order the search stops at the first element that is not below. -/
theorem search_eq {buf : List α} (h : buf.Pairwise fun a b => below b = true → below a = true) :
    search below buf buf.length 0 buf.length = (buf.takeWhile below).length := by
  have hback : ∀ x ∈ buf.dropWhile below, below x = false := by
    intro x hx
    cases hdrop : buf.dropWhile below with
    | nil =>
      rw [hdrop] at hx
      cases hx
    | cons y rest =>
      have hy : below y = false := by
        have hhead := head_dropWhile_not below (hdrop ▸ cons_ne_nil y rest)
        simpa [hdrop] using hhead
      rw [hdrop] at hx
      rcases mem_cons.mp hx with rfl | hx
      · exact hy
      · have hsorted := h.sublist (dropWhile_sublist below)
        rw [hdrop] at hsorted
        by_contra hx'
        have := (pairwise_cons.mp hsorted).1 x hx (by simpa using hx')
        exact absurd this (by simp [hy])
  have hsplit := search_of_split (fun x hx => mem_takeWhile_imp hx) hback buf.length 0 buf.length
    (Nat.zero_le _) ((takeWhile_sublist below).length_le)
    (by rw [takeWhile_append_dropWhile]) (by omega)
  rwa [takeWhile_append_dropWhile] at hsplit

variable {κ : Type} [LinearOrder κ]

/-- The element goes where insertion sort puts it. -/
theorem insertAt_search (key : α → κ) {buf : List α} {x : α}
    (hbelow : ∀ a, below a = true ↔ key a < key x) (h : buf.Pairwise fun a b => key a ≤ key b) :
    insertAt buf (search below buf buf.length 0 buf.length) x =
      buf.orderedInsert (fun a b => key a ≤ key b) x := by
  have htest : below = fun a => decide ¬key x ≤ key a := by
    funext a
    rw [Bool.eq_iff_iff, hbelow, decide_eq_true_iff, not_le]
  rw [search_eq (h.imp fun hab hb => (hbelow _).mpr (lt_of_le_of_lt hab ((hbelow _).mp hb))),
    orderedInsert_eq_take_drop, insertAt, htest]
  congr 1
  · exact (prefix_iff_eq_take.mp (List.takeWhile_prefix _)).symm
  · have hdrop := @drop_left _ (buf.takeWhile fun a => decide ¬key x ≤ key a)
      (buf.dropWhile fun a => decide ¬key x ≤ key a)
    rw [takeWhile_append_dropWhile] at hdrop
    rw [hdrop]

end OpenBrain.Core.Bisect
