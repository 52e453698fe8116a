import Mathlib.Logic.Function.Iterate

/-!
# A queue served at its head

A step looks at the head of a queue: a head that completes leaves for good, one that parks leaves
the queue and is kept elsewhere, and any other head stays where it is, as it was. Then what the
steps ever complete is known from the queue alone: the wanted items that complete and have only
items that leave before them (`drains_wanted_iff`).
-/
namespace OpenBrain.Core
open List

variable {σ ρ κ : Type}

/-- How a step serves a queue. `gone k` says that nothing of the key is left, `kept k` that
something of it is left outside the queue; `completes` and `parks` judge an item where it stands. -/
structure Serves (step : σ → σ) (queue : σ → List ρ) (key : ρ → κ) (gone kept : κ → σ → Prop)
    (completes parks : σ → ρ → Prop) : Prop where
  empty {s} : queue s = [] → queue (step s) = []
  completed {s row rest} : queue s = row :: rest → completes s row →
    queue (step s) = rest ∧ gone (key row) (step s) ∧ ∀ r ∈ rest,
      (completes (step s) r ↔ completes s r) ∧ (parks (step s) r ↔ parks s r)
  parked {s row rest} : queue s = row :: rest → parks s row →
    queue (step s) = rest ∧ kept (key row) (step s) ∧ ∀ r ∈ rest,
      (completes (step s) r ↔ completes s r) ∧ (parks (step s) r ↔ parks s r)
  stuck {s row rest} : queue s = row :: rest → ¬ completes s row → ¬ parks s row →
    ∃ row', queue (step s) = row' :: rest ∧ key row' = key row ∧
      ¬ completes (step s) row' ∧ ¬ parks (step s) row'
  exclusive {s row} : parks s row → ¬ completes s row
  gone_step {s k} : gone k s → gone k (step s)
  kept_step {s k} : kept k s → kept k (step s)
  not_gone_of_kept {s k} : kept k s → ¬ gone k s
  not_gone_of_mem {s r} : r ∈ queue s → ¬ gone (key r) s

namespace Serves

variable {step : σ → σ} {queue : σ → List ρ} {key : ρ → κ} {gone kept : κ → σ → Prop}
  {completes parks : σ → ρ → Prop}

def Drains (step : σ → σ) (queue : σ → List ρ) (key : ρ → κ) (gone : κ → σ → Prop)
    (wanted : ρ → Prop) (s : σ) : Prop :=
  ∃ n, ∀ r ∈ queue s, wanted r → gone (key r) (step^[n] s)

/-- What is wanted completes, and whatever stands before it leaves. -/
def Open (completes parks : σ → ρ → Prop) (wanted : ρ → Prop) (s : σ) (rows : List ρ) : Prop :=
  ∀ pre row post, rows = pre ++ row :: post → wanted row →
    completes s row ∧ ∀ r ∈ pre, completes s r ∨ parks s r

theorem open_cons {wanted : ρ → Prop} {s : σ} {row : ρ} {rest : List ρ} :
    Open completes parks wanted s (row :: rest) ↔
      (wanted row → completes s row) ∧ Open completes parks wanted s rest ∧
        ((∃ r ∈ rest, wanted r) → completes s row ∨ parks s row) := by
  constructor
  · intro h
    refine ⟨fun hw => (h [] row rest rfl hw).1, ?_, ?_⟩
    · intro pre r post hrest hw
      obtain ⟨hr, hpre⟩ := h (row :: pre) r post (by rw [hrest]; rfl) hw
      exact ⟨hr, fun q hq => hpre q (mem_cons_of_mem _ hq)⟩
    · rintro ⟨r, hr, hw⟩
      obtain ⟨pre, post, hrest⟩ := append_of_mem hr
      exact (h (row :: pre) r post (by rw [hrest]; rfl) hw).2 row mem_cons_self
  · rintro ⟨hhead, hrest, hleaves⟩ pre r post hsplit hw
    cases pre with
    | nil =>
      obtain ⟨rfl, rfl⟩ := cons_eq_cons.mp hsplit
      exact ⟨hhead hw, fun q hq => nomatch hq⟩
    | cons first pre =>
      obtain ⟨rfl, rfl⟩ := cons_eq_cons.mp hsplit
      obtain ⟨hr, hpre⟩ := hrest pre r post rfl hw
      refine ⟨hr, fun q hq => ?_⟩
      rcases mem_cons.mp hq with rfl | hq
      · exact hleaves ⟨r, by simp, hw⟩
      · exact hpre q hq

theorem open_congr {wanted : ρ → Prop} {s s' : σ} {rows : List ρ}
    (h : ∀ r ∈ rows, (completes s' r ↔ completes s r) ∧ (parks s' r ↔ parks s r)) :
    Open completes parks wanted s' rows ↔ Open completes parks wanted s rows := by
  induction rows with
  | nil => simp [Open]
  | cons row rest ih =>
    have hrow := h row mem_cons_self
    rw [open_cons, open_cons, ih fun r hr => h r (mem_cons_of_mem _ hr), hrow.1, hrow.2]

variable (S : Serves step queue key gone kept completes parks)
include S

theorem gone_iterate {s : σ} {k : κ} (h : gone k s) (n : Nat) : gone k (step^[n] s) := by
  induction n with
  | zero => exact h
  | succ n ih =>
    rw [Function.iterate_succ_apply']
    exact S.gone_step ih

theorem kept_iterate {s : σ} {k : κ} (h : kept k s) (n : Nat) : kept k (step^[n] s) := by
  induction n with
  | zero => exact h
  | succ n ih =>
    rw [Function.iterate_succ_apply']
    exact S.kept_step ih

/-- Behind a head that stays, nothing moves. -/
theorem stuck_iterate {s : σ} {row : ρ} {rest : List ρ} (hq : queue s = row :: rest)
    (hc : ¬ completes s row) (hp : ¬ parks s row) (n : Nat) :
    ∃ row', queue (step^[n] s) = row' :: rest ∧ key row' = key row ∧
      ¬ completes (step^[n] s) row' ∧ ¬ parks (step^[n] s) row' := by
  induction n with
  | zero => exact ⟨row, hq, rfl, hc, hp⟩
  | succ n ih =>
    obtain ⟨row', hq', hkey, hc', hp'⟩ := ih
    rw [Function.iterate_succ_apply']
    obtain ⟨row'', hq'', hkey', hc'', hp''⟩ := S.stuck hq' hc' hp'
    exact ⟨row'', hq'', hkey'.trans hkey, hc'', hp''⟩

theorem not_gone_of_stuck {s : σ} {row : ρ} {rest : List ρ} (hq : queue s = row :: rest)
    (hc : ¬ completes s row) (hp : ¬ parks s row) {r : ρ} (hr : r ∈ queue s) (n : Nat) :
    ¬ gone (key r) (step^[n] s) := by
  obtain ⟨row', hq', hkey, -⟩ := S.stuck_iterate hq hc hp n
  rw [hq] at hr
  rcases mem_cons.mp hr with rfl | hr
  · rw [← hkey]
    exact S.not_gone_of_mem (hq' ▸ mem_cons_self)
  · exact S.not_gone_of_mem (hq' ▸ mem_cons_of_mem _ hr)

theorem drains_step {wanted : ρ → Prop} {s : σ} {row : ρ} {rest : List ρ}
    (hq : queue s = row :: rest) (hq' : queue (step s) = rest)
    (hrow : wanted row → gone (key row) (step s)) :
    Drains step queue key gone wanted s ↔ Drains step queue key gone wanted (step s) := by
  constructor
  · rintro ⟨n, h⟩
    refine ⟨n, fun r hr hw => ?_⟩
    rw [← Function.iterate_succ_apply, Function.iterate_succ_apply']
    rw [hq'] at hr
    exact S.gone_step (h r (hq ▸ mem_cons_of_mem _ hr) hw)
  · rintro ⟨n, h⟩
    refine ⟨n + 1, fun r hr hw => ?_⟩
    rw [Function.iterate_succ_apply]
    rw [hq] at hr
    rcases mem_cons.mp hr with rfl | hr
    · exact S.gone_iterate (hrow hw) n
    · exact h r (hq' ▸ hr) hw

/-- The steps complete everything wanted exactly when nothing stands in its way. -/
theorem drains_wanted_iff (wanted : ρ → Prop) (s : σ) :
    Drains step queue key gone wanted s ↔ Open completes parks wanted s (queue s) := by
  generalize hrows : queue s = rows
  induction rows generalizing s with
  | nil =>
    refine iff_of_true ⟨0, fun r hr => ?_⟩ ?_
    · rw [hrows] at hr
      cases hr
    · intro pre row post h
      simp at h
  | cons row rest ih =>
    rw [open_cons]
    by_cases hc : completes s row
    · obtain ⟨hq', hgone, hsame⟩ := S.completed hrows hc
      rw [S.drains_step hrows hq' fun _ => hgone, ih (step s) hq', open_congr hsame]
      simp [hc]
    by_cases hp : parks s row
    · obtain ⟨hq', hkept, hsame⟩ := S.parked hrows hp
      by_cases hw : wanted row
      · -- the parked item is never gone
        refine iff_of_false ?_ fun h => hc (h.1 hw)
        rintro ⟨n, h⟩
        have hnext : step (step^[n] s) = step^[n] (step s) :=
          (Function.iterate_succ_apply' step n s).symm.trans (Function.iterate_succ_apply step n s)
        have hgone := S.gone_step (h row (hrows ▸ mem_cons_self) hw)
        exact S.not_gone_of_kept (S.kept_iterate hkept n) (hnext ▸ hgone)
      · rw [S.drains_step hrows hq' fun h => absurd h hw, ih (step s) hq', open_congr hsame]
        simp [hp, hw]
    · -- the head blocks whatever is wanted of the queue
      constructor
      · rintro ⟨n, h⟩
        have hnone : ∀ r ∈ queue s, ¬ wanted r := fun r hr hw =>
          S.not_gone_of_stuck hrows hc hp hr n (h r hr hw)
        rw [hrows] at hnone
        refine ⟨fun hw => absurd hw (hnone row mem_cons_self), ?_, ?_⟩
        · intro pre r post hrest hw
          exact absurd hw (hnone r (by rw [hrest]; simp))
        · rintro ⟨r, hr, hw⟩
          exact absurd hw (hnone r (mem_cons_of_mem _ hr))
      · rintro ⟨hhead, -, hleaves⟩
        refine ⟨0, fun r hr hw => ?_⟩
        rw [hrows] at hr
        rcases mem_cons.mp hr with rfl | hr
        · exact absurd (hhead hw) hc
        · rcases hleaves ⟨r, hr, hw⟩ with h | h
          · exact absurd h hc
          · exact absurd h hp

end Serves
end OpenBrain.Core
