import Mathlib.Logic.Function.Basic

/-!
# Processes that move one at a time

A table `pc : P → X` gives every process its program point, and a step moves
one of them: `Function.update pc p x`. What a process carries is read off its
point by some `g : X → Option A`.

`Drawn` says that the tokens processes carry were drawn from a counter, so two
processes never carry the same one. `Named` says that whatever a process owns
is what a shared path names; together they leave room for one owner
(`Named.unique`).
-/
namespace OpenBrain.Core

variable {P X A : Type} {pc pc' : P → X} {p : P} {x : X}

section Moved

variable [DecidableEq P]

/-- What a process carries after `p` moved: `p` carries what its new point
does, the others what they did. -/
theorem moved_cases (g : X → Option A) (hpc : pc' = Function.update pc p x) {q : P} {a : A}
    (h : g (pc' q) = some a) : (q = p ∧ g x = some a) ∨ (q ≠ p ∧ g (pc q) = some a) := by
  rw [hpc, Function.update_apply] at h
  split at h
  · rename_i hq
    exact .inl ⟨hq, h⟩
  · rename_i hq
    exact .inr ⟨hq, h⟩

/-- A process that moves on carrying nothing new gives nobody anything new. -/
theorem moved_mono (g : X → Option A) (hpc : pc' = Function.update pc p x)
    (hx : ∀ a, g x = some a → g (pc p) = some a) (q : P) (a : A) (h : g (pc' q) = some a) :
    g (pc q) = some a := by
  rcases moved_cases g hpc h with ⟨rfl, hx'⟩ | ⟨-, h⟩
  · exact hx a hx'
  · exact h

end Moved

/-- The tokens carried were drawn from the counter `next`, each by one process. -/
structure Drawn (g : X → Option Nat) (pc : P → X) (next : Nat) : Prop where
  lt : ∀ p t, g (pc p) = some t → t < next
  own : ∀ p q t, g (pc p) = some t → g (pc q) = some t → p = q

/-- Nobody carries a token. -/
theorem Drawn.of_none {g : X → Option Nat} {next : Nat} (h : ∀ p, g (pc p) = none) :
    Drawn g pc next where
  lt p _ hp := nomatch (h p).symm.trans hp
  own p _ _ hp _ := nomatch (h p).symm.trans hp

theorem Drawn.move [DecidableEq P] {g : X → Option Nat} {next next' : Nat} (D : Drawn g pc next)
    (hpc : pc' = Function.update pc p x) (hn : next ≤ next')
    (hx : ∀ t, g x = some t → g (pc p) = some t ∨ (t = next ∧ next < next')) :
    Drawn g pc' next' where
  lt q t h := by
    rcases moved_cases g hpc h with ⟨-, h⟩ | ⟨-, h⟩
    · rcases hx t h with h | ⟨rfl, hlt⟩
      · exact Nat.lt_of_lt_of_le (D.lt p t h) hn
      · exact hlt
    · exact Nat.lt_of_lt_of_le (D.lt q t h) hn
  own q r t hq hr := by
    -- a token fresh from the counter is nobody else's
    have hfresh : ∀ u, g x = some t → u ≠ p → g (pc u) = some t → u = p := by
      intro u hxt _ hut
      rcases hx t hxt with h | ⟨rfl, -⟩
      · exact D.own u p t hut h
      · exact absurd (D.lt u _ hut) (Nat.lt_irrefl _)
    rcases moved_cases g hpc hq with ⟨hqp, hxq⟩ | ⟨hqp, hq⟩ <;>
      rcases moved_cases g hpc hr with ⟨hrp, hxr⟩ | ⟨hrp, hr⟩
    · exact hqp.trans hrp.symm
    · exact absurd (hfresh r hxq hrp hr) hrp
    · exact absurd (hfresh q hxr hqp hq) hqp
    · exact D.own q r t hq hr

/-- Whatever a process owns is what the path names. -/
def Named (g : X → Option A) (pc : P → X) (named : Option A) : Prop :=
  ∀ p a, g (pc p) = some a → named = some a

theorem Named.of_none {g : X → Option A} {named : Option A} (h : ∀ p, g (pc p) = none) :
    Named g pc named :=
  fun p _ hp => nomatch (h p).symm.trans hp

section Named

variable [DecidableEq P] {g : X → Option A} {named : Option A}

theorem Named.move (N : Named g pc named) (hpc : pc' = Function.update pc p x)
    (hx : ∀ a, g x = some a → g (pc p) = some a) : Named g pc' named :=
  fun q a h => N q a (moved_mono g hpc hx q a h)

/-- Creating the file on an empty path. -/
theorem Named.create {a : A} (N : Named g pc none) (hpc : pc' = Function.update pc p x)
    (hx : g x = some a) : Named g pc' (some a) := by
  intro q b h
  rcases moved_cases g hpc h with ⟨-, h⟩ | ⟨-, h⟩
  · exact hx.symm.trans h
  · exact nomatch N q b h

/-- Emptying the path when nobody else owns. -/
theorem Named.clear (hothers : ∀ q, q ≠ p → g (pc q) = none)
    (hpc : pc' = Function.update pc p x) (hx : g x = none) : Named g pc' none := by
  intro q a h
  rcases moved_cases g hpc h with ⟨-, h⟩ | ⟨hq, h⟩
  · exact nomatch hx.symm.trans h
  · exact nomatch (hothers q hq).symm.trans h

end Named

/-- Owners of one path, each under a token of its own, are one process. -/
theorem Named.unique {g k : X → Option Nat} {named : Option Nat} {next : Nat} {q : P} {t u : Nat}
    (N : Named g pc named) (D : Drawn k pc next) (hgk : ∀ y t, g y = some t → k y = some t)
    (hp : g (pc p) = some t) (hq : g (pc q) = some u) : p = q := by
  have htu : t = u := Option.some.inj ((N p t hp).symm.trans (N q u hq))
  exact D.own p q t (hgk _ _ hp) (htu ▸ hgk _ _ hq)

end OpenBrain.Core
