import Mathlib.Data.List.Forall2

/-!
# Results of fallible computations

What a computation that came out `ok` went through, one bind at a time, and
what a list of them did. `outcome` is a computation whose failure is known beforehand, and
`FailsFirst` says which of a list of them stops it.
-/
namespace OpenBrain.Core
open List

variable {ε α β : Type}

theorem bind_ok {x : Except ε α} {f : α → Except ε β} {b : β} (h : x >>= f = .ok b) :
    ∃ a, x = .ok a ∧ f a = .ok b := by
  cases x with
  | error e => cases h
  | ok a => exact ⟨a, rfl, h⟩

theorem map_ok {x : Except ε α} {f : α → β} {b : β} (h : x.map f = .ok b) :
    ∃ a, x = .ok a ∧ f a = b := by
  cases x with
  | error e => cases h
  | ok a => exact ⟨a, rfl, Except.ok.inj h⟩

theorem mapM_congr {f g : α → Option β} {xs : List α} (h : ∀ x ∈ xs, f x = g x) :
    xs.mapM f = xs.mapM g := by
  induction xs with
  | nil => rfl
  | cons x xs ih =>
    rw [mapM_cons, mapM_cons, h x mem_cons_self,
      ih fun y hy => h y (mem_cons_of_mem _ hy)]

theorem mapM_some {f : α → Option β} {xs : List α} {ys : List β}
    (h : xs.mapM f = some ys) : List.Forall₂ (fun x y => f x = some y) xs ys := by
  induction xs generalizing ys with
  | nil =>
    rw [mapM_nil] at h
    cases h
    exact .nil
  | cons x xs ih =>
    rw [mapM_cons] at h
    obtain ⟨y, hy, h⟩ := Option.bind_eq_some_iff.mp h
    obtain ⟨ys', hys, h⟩ := Option.bind_eq_some_iff.mp h
    cases h
    exact .cons hy (ih hys)

theorem mapM_mem {f : α → Option β} {xs : List α} {ys : List β} (h : xs.mapM f = some ys) {y : β}
    (hy : y ∈ ys) : ∃ x ∈ xs, f x = some y := by
  have hall := mapM_some h
  clear h
  induction hall with
  | nil => cases hy
  | cons hxy _ ih =>
    rcases mem_cons.mp hy with rfl | hy
    · exact ⟨_, mem_cons_self, hxy⟩
    · obtain ⟨x, hx, hxy⟩ := ih hy
      exact ⟨x, mem_cons_of_mem _ hx, hxy⟩

/-! ## Known failures -/

/-- The computation that fails with the error there is, and else gives the value. -/
def outcome (failure : Option ε) (a : α) : Except ε α :=
  match failure with
  | some e => .error e
  | none => .ok a

theorem outcome_map (failure : Option ε) (a : α) (f : α → β) :
    (outcome failure a).map f = outcome failure (f a) := by
  cases failure <;> rfl

theorem outcome_bind {failure failure' : Option ε} {a : α} {b : β} {f : α → Except ε β}
    (h : f a = outcome failure' b) :
    (outcome failure a >>= f) = outcome (failure.or failure') b := by
  cases failure with
  | none => exact h
  | some e => rfl

theorem mapM_outcome {f : α → Except ε β} {failure : α → Option ε} {value : α → β}
    (h : ∀ x, f x = outcome (failure x) (value x)) (xs : List α) :
    xs.mapM f = outcome (xs.findSome? failure) (xs.map value) := by
  induction xs with
  | nil => rfl
  | cons x xs ih =>
    rw [mapM_cons, h x, ih, findSome?_cons]
    cases failure x with
    | some e => rfl
    | none => cases xs.findSome? failure <;> rfl

/-- The first element whose computation does not give `pass` fails. -/
def FailsFirst (f : α → Except ε β) (pass : β) (e : ε) (xs : List α) : Prop :=
  ∃ before x behind, xs = before ++ x :: behind ∧ (∀ y ∈ before, f y = .ok pass) ∧ f x = .error e

section FailsFirst
variable {f : α → Except ε β} {pass : β} {e : ε}

theorem not_failsFirst_nil : ¬FailsFirst f pass e [] := by
  rintro ⟨before, x, behind, h, -⟩
  simp at h

theorem failsFirst_cons {x : α} {xs : List α} :
    FailsFirst f pass e (x :: xs) ↔ f x = .error e ∨ f x = .ok pass ∧ FailsFirst f pass e xs := by
  constructor
  · rintro ⟨before, y, behind, h, hpass, hfail⟩
    cases before with
    | nil =>
      cases h
      exact Or.inl hfail
    | cons z before =>
      cases h
      exact Or.inr ⟨hpass x mem_cons_self, before, y, behind, rfl,
        fun y hy => hpass y (mem_cons_of_mem _ hy), hfail⟩
  · rintro (h | ⟨hx, before, y, behind, rfl, hpass, hfail⟩)
    · exact ⟨[], x, xs, rfl, by simp, h⟩
    · refine ⟨x :: before, y, behind, rfl, ?_, hfail⟩
      intro z hz
      rcases mem_cons.mp hz with rfl | hz
      · exact hx
      · exact hpass z hz

theorem anyM_error {f : α → Except ε Bool} {xs : List α} :
    xs.anyM f = .error e ↔ FailsFirst f false e xs := by
  induction xs with
  | nil => simp [List.anyM, pure, Except.pure, not_failsFirst_nil]
  | cons x xs ih =>
    rw [failsFirst_cons, ← ih, List.anyM]
    rcases hx : f x with e' | b
    · simp [bind, Except.bind]
    · cases b <;> simp [bind, Except.bind, pure, Except.pure]

theorem findSomeM?_error {γ : Type} {f : α → Except ε (Option γ)} {xs : List α} :
    xs.findSomeM? f = .error e ↔ FailsFirst f none e xs := by
  induction xs with
  | nil => simp [List.findSomeM?, pure, Except.pure, not_failsFirst_nil]
  | cons x xs ih =>
    rw [failsFirst_cons, ← ih, List.findSomeM?]
    rcases hx : f x with e' | b
    · simp [bind, Except.bind]
    · cases b <;> simp [bind, Except.bind, pure, Except.pure]

/-- No element stops the list when each gives `pass`. -/
theorem anyM_false {f : α → Except ε Bool} {xs : List α} :
    xs.anyM f = .ok false ↔ ∀ x ∈ xs, f x = .ok false := by
  induction xs with
  | nil => simp [List.anyM, pure, Except.pure]
  | cons x xs ih =>
    rw [forall_mem_cons, ← ih, List.anyM]
    rcases hx : f x with e' | b
    · simp [bind, Except.bind]
    · cases b <;> simp [bind, Except.bind, pure, Except.pure]

end FailsFirst

end OpenBrain.Core
