import Mathlib.Data.List.Basic

/-!
# Reading a ranked list page by page

A reader asks for the page at a position, follows the position that page
carries, and stops at the first page that carries none: `Walk reply o pages`.
A server that `Serves` a list in bursts of `w` shows at `o` some of the rows
`o, …, o + w - 1` and carries `o + w` or nothing.

Such a walk is finite (`Serves.exists_walk`), never repeats a row
(`Serves.sublist`), and shows every row exactly once iff each burst is `Whole`
(`Serves.perm_iff`): it shows all its rows and does not break off early.
-/
namespace OpenBrain.Core.Paging
open List

variable {α β : Type}

/-- What a page delivers and the position it carries. -/
structure Page (β : Type) where
  delivered : List β
  next : Option Nat
  deriving DecidableEq, Repr

inductive Walk (reply : Nat → Page β) : Nat → List (Page β) → Prop where
  | last {o : Nat} : (reply o).next = none → Walk reply o [reply o]
  | more {o o' : Nat} {pages : List (Page β)} :
      (reply o).next = some o' → Walk reply o' pages → Walk reply o (reply o :: pages)

/-- Everything a walk delivered, in order. -/
def received (pages : List (Page β)) : List β := pages.flatMap Page.delivered

/-- The rows of the burst at `o` that have something to show. -/
def burst (xs : List α) (view : α → Option β) (w o : Nat) : List β :=
  ((xs.drop o).take w).filterMap view

/-- `reply` serves `xs` in bursts of `w`. -/
structure Serves (xs : List α) (view : α → Option β) (w : Nat) (reply : Nat → Page β) :
    Prop where
  within : ∀ o, (reply o).delivered.Sublist (burst xs view w o)
  onward : ∀ o o', (reply o).next = some o' → o' = o + w ∧ o' < xs.length

/-- The burst at `o` arrives in full, and if it is the last one nothing comes
after it. -/
def Whole (xs : List α) (view : α → Option β) (w : Nat) (reply : Nat → Page β) (o : Nat) : Prop :=
  (reply o).delivered = burst xs view w o ∧
    ((reply o).next = none → (xs.drop (o + w)).filterMap view = [])

theorem burst_append (xs : List α) (view : α → Option β) (w o : Nat) :
    burst xs view w o ++ (xs.drop (o + w)).filterMap view = (xs.drop o).filterMap view := by
  rw [burst, ← filterMap_append, ← drop_drop, take_append_drop]

/-- Nothing to show from `o` on leaves every later burst empty. -/
theorem filterMap_drop_eq_nil {xs : List α} {view : α → Option β} {o : Nat}
    (h : (xs.drop o).filterMap view = []) (k : Nat) : (xs.drop (o + k)).filterMap view = [] := by
  rw [← drop_drop]
  exact eq_nil_of_sublist_nil (h ▸ (List.drop_sublist k (xs.drop o)).filterMap view)

namespace Serves

variable {xs : List α} {view : α → Option β} {w : Nat} {reply : Nat → Page β}

theorem exists_walk (h : Serves xs view w reply) (hw : 0 < w) (o : Nat) :
    ∃ pages, Walk reply o pages := by
  induction hn : xs.length - o using Nat.strongRecOn generalizing o with
  | ind n ih =>
    cases hnext : (reply o).next with
    | none => exact ⟨_, .last hnext⟩
    | some o' =>
      obtain ⟨ho, hlt⟩ := h.onward o o' hnext
      obtain ⟨pages, hwalk⟩ := ih (xs.length - o') (by omega) o' rfl
      exact ⟨_, .more hnext hwalk⟩

theorem sublist (h : Serves xs view w reply) {o : Nat} {pages : List (Page β)}
    (hwalk : Walk reply o pages) : (received pages).Sublist ((xs.drop o).filterMap view) := by
  induction hwalk with
  | @last o hn =>
    rw [← burst_append xs view w o]
    simpa [received] using (h.within o).trans (sublist_append_left ..)
  | @more o o' pages hs _ ih =>
    rw [(h.onward o o' hs).1] at ih
    rw [← burst_append xs view w o, received, flatMap_cons]
    exact (h.within o).append ih

theorem whole_of_nil (h : Serves xs view w reply) {o : Nat}
    (hnil : (xs.drop o).filterMap view = []) : Whole xs view w reply o := by
  have hburst : burst xs view w o = [] :=
    (append_eq_nil_iff.mp ((burst_append xs view w o).trans hnil)).1
  refine ⟨?_, fun _ => filterMap_drop_eq_nil hnil w⟩
  rw [hburst]
  exact eq_nil_of_sublist_nil (hburst ▸ h.within o)

/-- A walk shows every row it should exactly when each burst is whole. -/
theorem eq_iff (h : Serves xs view w reply) {o : Nat} {pages : List (Page β)}
    (hwalk : Walk reply o pages) :
    received pages = (xs.drop o).filterMap view ↔ ∀ k, Whole xs view w reply (o + k * w) := by
  induction hwalk with
  | @last o hn =>
    have hrec : received [reply o] = (reply o).delivered := by simp [received]
    constructor
    · intro heq
      rw [hrec, ← burst_append xs view w o] at heq
      have hlen := congrArg List.length heq
      rw [length_append] at hlen
      have hdel : (reply o).delivered = burst xs view w o :=
        (h.within o).eq_of_length_le (by omega)
      have hrest : (xs.drop (o + w)).filterMap view = [] := by simpa [hdel] using heq
      intro k
      cases k with
      | zero => simpa using ⟨hdel, fun _ => hrest⟩
      | succ k =>
        refine h.whole_of_nil ?_
        rw [show o + (k + 1) * w = (o + w) + k * w by rw [Nat.succ_mul]; omega]
        exact filterMap_drop_eq_nil hrest _
    · intro hall
      obtain ⟨hdel, hrest⟩ : Whole xs view w reply o := by simpa using hall 0
      rw [hrec, ← burst_append xs view w o, hdel, hrest hn, append_nil]
  | @more o o' pages hs hw ih =>
    obtain ⟨rfl, -⟩ := h.onward o o' hs
    have hrec : received (reply o :: pages) = (reply o).delivered ++ received pages := by
      simp [received]
    rw [hrec, ← burst_append xs view w o]
    constructor
    · intro heq
      have hlen := congrArg List.length heq
      have h1 := (h.within o).length_le
      have h2 := (h.sublist hw).length_le
      simp only [length_append] at hlen
      have hdel := (h.within o).eq_of_length_le (by omega)
      have hlater := ih.mp ((h.sublist hw).eq_of_length_le (by omega))
      intro k
      cases k with
      | zero => simpa using ⟨hdel, fun hn => by simp [hs] at hn⟩
      | succ k =>
        rw [show o + (k + 1) * w = (o + w) + k * w by rw [Nat.succ_mul]; omega]
        exact hlater k
    · intro hall
      have hdel : (reply o).delivered = burst xs view w o := by simpa using (hall 0).1
      rw [hdel, ih.mpr]
      intro k
      have := hall (k + 1)
      rwa [show o + (k + 1) * w = (o + w) + k * w by rw [Nat.succ_mul]; omega] at this

/-- A walk from the start shows every row exactly once iff each burst is whole. -/
theorem perm_iff (h : Serves xs view w reply) {pages : List (Page β)}
    (hwalk : Walk reply 0 pages) :
    (received pages).Perm (xs.filterMap view) ↔ ∀ k, Whole xs view w reply (k * w) := by
  have hsub := h.sublist hwalk
  have heq := h.eq_iff hwalk
  simp only [drop_zero, Nat.zero_add] at hsub heq
  rw [← heq]
  exact ⟨fun hp => hsub.eq_of_length hp.length_eq, fun he => he ▸ List.Perm.refl _⟩

end Serves

end OpenBrain.Core.Paging
