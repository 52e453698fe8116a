import Mathlib.Data.List.Induction

/-!
# Labelled transition systems, guarded runs and inductive invariants

A system is a predicate on starting states and a step relation. Executable
step functions enter through `LTS.ofFn`.

A *guarded* run takes only steps that meet a guard `G`, a predicate on the
state before the step and the label: "in every run whose steps all meet `G`"
is `ReachableOn G`. A plain run is a run under the guard that always holds.
`RunOn.keeps` is the one induction over runs the rest of the development
needs; an invariant is proved by the two fields of `InductiveOn`.
-/
namespace OpenBrain.Core

/-- A labelled transition system. -/
structure LTS (S L : Type) where
  init : S → Prop
  step : S → L → S → Prop

namespace LTS

variable {S L : Type} (M : LTS S L)

/-- The system of an executable step function; `none` means "not enabled". -/
def ofFn (init : S → Prop) (step : S → L → Option S) : LTS S L where
  init := init
  step s l s' := step s l = some s'

/-- `RunOn G s ls s'`: the labels `ls` lead from `s` to `s'`, every step
meeting `G` in the state it is taken from. -/
inductive RunOn (G : S → L → Prop) : S → List L → S → Prop
  | nil (s : S) : RunOn G s [] s
  | cons {s t u : S} {l : L} {ls : List L} :
      G s l → M.step s l t → RunOn G t ls u → RunOn G s (l :: ls) u

def anyStep : S → L → Prop := fun _ _ => True

/-- A state that a run of guarded steps leads to from a starting state. -/
def ReachableOn (G : S → L → Prop) (s : S) : Prop := ∃ s₀ ls, M.init s₀ ∧ M.RunOn G s₀ ls s

/-- A state that some run leads to from a starting state. -/
def Reachable (s : S) : Prop := M.ReachableOn anyStep s

/-- `I` holds at the start and every step that meets `G` keeps it. -/
structure InductiveOn (G : S → L → Prop) (I : S → Prop) : Prop where
  init : ∀ s, M.init s → I s
  step : ∀ s l s', I s → G s l → M.step s l s' → I s'

/-- `I` holds at the start and every step keeps it. -/
def Inductive (I : S → Prop) : Prop := M.InductiveOn anyStep I

variable {M} {G : S → L → Prop} {I : S → Prop}

theorem RunOn.keeps (hI : ∀ s l s', I s → G s l → M.step s l s' → I s') {s s' : S} {ls : List L}
    (hr : M.RunOn G s ls s') (hs : I s) : I s' := by
  induction hr with
  | nil s => exact hs
  | cons hg hst _ ih => exact ih (hI _ _ _ hs hg hst)

theorem RunOn.append {s t u : S} {ls ls' : List L} (h : M.RunOn G s ls t)
    (h' : M.RunOn G t ls' u) : M.RunOn G s (ls ++ ls') u := by
  induction h with
  | nil s => exact h'
  | cons hg hst _ ih => exact .cons hg hst (ih h')

theorem RunOn.mono {H : S → L → Prop} (hGH : ∀ s l, G s l → H s l) {s s' : S} {ls : List L}
    (hr : M.RunOn G s ls s') : M.RunOn H s ls s' := by
  induction hr with
  | nil s => exact .nil s
  | cons hg hst _ ih => exact .cons (hGH _ _ hg) hst ih

theorem ReachableOn.mono {H : S → L → Prop} (hGH : ∀ s l, G s l → H s l) {s : S}
    (hr : M.ReachableOn G s) : M.ReachableOn H s := by
  obtain ⟨s₀, ls, h0, hr⟩ := hr
  exact ⟨s₀, ls, h0, hr.mono hGH⟩

theorem InductiveOn.run (hI : M.InductiveOn G I) {s s' : S} {ls : List L}
    (hr : M.RunOn G s ls s') (hs : I s) : I s' := hr.keeps hI.step hs

theorem InductiveOn.reachable (hI : M.InductiveOn G I) {s : S} (hr : M.ReachableOn G s) :
    I s := by
  obtain ⟨s₀, ls, h0, hr⟩ := hr
  exact hI.run hr (hI.init s₀ h0)

/-! ## Concrete runs, computed -/

/-- The state a list of labels leads to, when every step is enabled. -/
def exec (step : S → L → Option S) : S → List L → Option S
  | s, [] => some s
  | s, l :: ls => (step s l).bind (fun t => exec step t ls)

/-- The step function under a decidable guard: a step that misses it is not enabled. -/
def guardStep (G : S → L → Prop) [∀ s l, Decidable (G s l)] (step : S → L → Option S)
    (s : S) (l : L) : Option S := if G s l then step s l else none

theorem runOn_of_exec {init : S → Prop} {step : S → L → Option S} [∀ s l, Decidable (G s l)]
    {s s' : S} {ls : List L} (h : exec (guardStep G step) s ls = some s') :
    (ofFn init step).RunOn G s ls s' := by
  induction ls generalizing s with
  | nil => cases h; exact .nil _
  | cons l ls ih =>
    obtain ⟨t, ht, h'⟩ := Option.bind_eq_some_iff.mp h
    unfold guardStep at ht
    split at ht
    · rename_i hg
      exact .cons hg ht (ih h')
    · cases ht

theorem reachableOn_of_exec {init : S → Prop} {step : S → L → Option S}
    [∀ s l, Decidable (G s l)] {s s' : S} {ls : List L} (h0 : init s)
    (h : exec (guardStep G step) s ls = some s') : (ofFn init step).ReachableOn G s' :=
  ⟨s, ls, h0, runOn_of_exec h⟩

instance (s : S) (l : L) : Decidable (anyStep s l) := isTrue trivial

theorem runOn_of_exec_any {init : S → Prop} {step : S → L → Option S} {s s' : S} {ls : List L}
    (h : exec step s ls = some s') : (ofFn init step).RunOn anyStep s ls s' := by
  apply runOn_of_exec
  have hguard : guardStep anyStep step = step := by
    funext s l
    exact if_pos trivial
  rw [hguard]
  exact h

end LTS

/-! ## Traces whose every entry is justified by what came before it

`Justified Q t`: each entry `a` of `t` meets `Q before a`, where `before` is what precedes it. Such
a trace grows at its end (`concat`). -/

section
open List

variable {α : Type} {Q : List α → α → Prop} {t : List α} {a : α}

def Justified (Q : List α → α → Prop) (t : List α) : Prop :=
  ∀ before a after, t = before ++ a :: after → Q before a

namespace Justified

theorem nil : Justified Q [] :=
  fun _ _ _ h => absurd h.symm (append_ne_nil_of_right_ne_nil _ (cons_ne_nil _ _))

theorem concat (h : Justified Q t) (ha : Q t a) : Justified Q (t ++ [a]) := by
  intro before b after heq
  rcases eq_nil_or_concat after with rfl | ⟨after, last, rfl⟩
  · obtain ⟨ht, hb⟩ := append_inj' heq rfl
    rw [← ht, ← head_eq_of_cons_eq hb]
    exact ha
  · rw [concat_eq_append, ← cons_append, ← append_assoc] at heq
    obtain ⟨ht, -⟩ := append_inj' heq rfl
    exact h before b after ht

theorem of_append {u : List α} (h : Justified Q (t ++ u)) : Justified Q t := by
  intro before b after heq
  refine h before b (after ++ u) ?_
  rw [heq, append_assoc, cons_append]

end Justified

end

end OpenBrain.Core
