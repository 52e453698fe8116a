/-!
# Backtracking matchers

A regular expression as a backtracking engine runs it: a `Matcher` lists what may be left of a
text after a match at its front, in the order in which the engine tries them. A greedy repetition
tries the longest run first, so the first rest is the engine's own answer. `captures` matches
parts one after the other and keeps their texts; `findAll` is the scan that starts over where the
last match ended.
-/
namespace OpenBrain.Core
open List

abbrev Matcher (α : Type) := List α → List (List α)

namespace Matcher

variable {α : Type}

/-- One element of a class. -/
def one (p : α → Bool) : Matcher α
  | [] => []
  | c :: s => if p c then [s] else []

/-- A literal. -/
def lit [BEq α] (w : List α) : Matcher α :=
  fun s => if w.isPrefixOf s then [s.drop w.length] else []

/-- `p*`, greedy. -/
def many (p : α → Bool) : Matcher α
  | [] => [[]]
  | c :: s => if p c then many p s ++ [c :: s] else [c :: s]

def seq (m n : Matcher α) : Matcher α := fun s => (m s).flatMap n

def alt (m n : Matcher α) : Matcher α := fun s => m s ++ n s

/-- `m?`, greedy. -/
def opt (m : Matcher α) : Matcher α := alt m fun s => [s]

/-- `p+`, greedy. -/
def many1 (p : α → Bool) : Matcher α := seq (one p) (many p)

/-- `p{n}` -/
def times (p : α → Bool) : Nat → Matcher α
  | 0 => fun s => [s]
  | n + 1 => seq (one p) (times p n)

def all (ms : List (Matcher α)) : Matcher α := ms.foldr seq fun s => [s]

def captures : List (Matcher α) → List α → Option (List (List α) × List α)
  | [], s => some ([], s)
  | m :: ms, s => (m s).findSome? fun r =>
    (captures ms r).map fun (texts, rest) => (s.take (s.length - r.length) :: texts, rest)

/-- The matches of a scan from the left, none of them empty; the first argument bounds the scan. -/
def findAll (ms : List (Matcher α)) : Nat → List α → List (List (List α))
  | 0, _ => []
  | _ + 1, [] => []
  | n + 1, c :: s =>
    match captures ms (c :: s) with
    | some (texts, rest) => texts :: findAll ms n rest
    | none => findAll ms n s

/-! ## What is left of a text -/

section Rest
variable {s r : List α} {p : α → Bool}

theorem mem_one : r ∈ one p s ↔ ∃ u, s = u :: r ∧ p u = true := by
  cases s with
  | nil => simp [one]
  | cons u s =>
    rw [one]
    split
    · rename_i hu
      constructor
      · intro h
        exact ⟨u, by rw [mem_singleton.mp h], hu⟩
      · rintro ⟨v, h, -⟩
        rw [(List.cons.inj h).2]
        exact mem_singleton_self r
    · rename_i hu
      constructor
      · intro h
        cases h
      · rintro ⟨v, h, hv⟩
        rw [← (List.cons.inj h).1] at hv
        exact absurd hv hu

theorem mem_seq {m n : Matcher α} : r ∈ seq m n s ↔ ∃ t ∈ m s, r ∈ n t := mem_flatMap

theorem mem_opt {m : Matcher α} : r ∈ opt m s ↔ r ∈ m s ∨ r = s := by
  rw [opt, alt, mem_append, mem_singleton]

theorem mem_lit [BEq α] [LawfulBEq α] {w : List α} : r ∈ lit w s ↔ s = w ++ r := by
  unfold lit
  split
  · rename_i h
    obtain ⟨t, rfl⟩ := List.isPrefixOf_iff_prefix.mp h
    rw [drop_left, mem_singleton, append_cancel_left_eq]
    exact eq_comm
  · rename_i h
    rw [List.isPrefixOf_iff_prefix] at h
    constructor
    · intro hr
      cases hr
    · rintro rfl
      exact absurd (prefix_append w r) h

theorem mem_many : r ∈ many p s ↔ ∃ w, s = w ++ r ∧ ∀ u ∈ w, p u = true := by
  induction s with
  | nil =>
    rw [many, mem_singleton]
    constructor
    · rintro rfl
      exact ⟨[], rfl, by simp⟩
    · rintro ⟨w, h, -⟩
      exact (append_eq_nil_iff.mp h.symm).2
  | cons u s ih =>
    rw [many]
    constructor
    · intro h
      split at h
      · rename_i hu
        rcases mem_append.mp h with h | h
        · obtain ⟨w, rfl, hw⟩ := ih.mp h
          exact ⟨u :: w, rfl, by simpa [hu] using hw⟩
        · exact ⟨[], (mem_singleton.mp h).symm, by simp⟩
      · exact ⟨[], (mem_singleton.mp h).symm, by simp⟩
    · rintro ⟨w, h, hw⟩
      cases w with
      | nil =>
        rw [nil_append] at h
        subst h
        split <;> simp
      | cons v w =>
        obtain ⟨rfl, hs⟩ := List.cons.inj h
        rw [if_pos (hw u mem_cons_self)]
        exact mem_append_left _
          (ih.mpr ⟨w, hs, fun c hc => hw c (mem_cons_of_mem _ hc)⟩)

theorem mem_many1 :
    r ∈ many1 p s ↔ ∃ w, s = w ++ r ∧ w ≠ [] ∧ ∀ u ∈ w, p u = true := by
  rw [many1, mem_seq]
  constructor
  · rintro ⟨t, ht, hr⟩
    obtain ⟨u, rfl, hu⟩ := mem_one.mp ht
    obtain ⟨w, rfl, hw⟩ := mem_many.mp hr
    exact ⟨u :: w, rfl, cons_ne_nil u w, by simpa [hu] using hw⟩
  · rintro ⟨w, rfl, hne, hw⟩
    obtain ⟨u, w, rfl⟩ := exists_cons_of_ne_nil hne
    exact ⟨w ++ r, mem_one.mpr ⟨u, rfl, hw u mem_cons_self⟩,
      mem_many.mpr ⟨w, rfl, fun c hc => hw c (mem_cons_of_mem _ hc)⟩⟩

end Rest

end Matcher

end OpenBrain.Core
