/-!
# Folds that halt

A loop that tests before each element whether it has stopped is a fold over the elements up to the
one that stops it.
-/
namespace OpenBrain.Core.Halting

variable {σ ε : Type} (stopped : σ → Bool) (step : σ → ε → σ)

/-- `for e of es { if stopped return; step }` -/
def run (s : σ) (es : List ε) : σ := es.foldl (fun s e => if stopped s then s else step s e) s

variable {stopped step} {s : σ} {es : List ε}

theorem run_cons (e : ε) : run stopped step s (e :: es) =
    if stopped s then run stopped step s es else run stopped step (step s e) es := by
  unfold run
  rw [List.foldl_cons]
  split <;> rfl

theorem run_of_stopped (h : stopped s = true) : run stopped step s es = s := by
  induction es with
  | nil => rfl
  | cons e es ih => rw [run_cons, if_pos h, ih]

theorem run_append (es es' : List ε) :
    run stopped step s (es ++ es') = run stopped step (run stopped step s es) es' :=
  List.foldl_append

/-- A run goes through its elements up to one that stops it, and what each step keeps holds of those
it went through. -/
theorem run_induction {I : List ε → σ → Prop}
    (hstep : ∀ done s e, stopped s = false → I done s → I (done ++ [e]) (step s e))
    {done : List ε} (hs : I done s) :
    ∃ gone rest, es = gone ++ rest ∧ I (done ++ gone) (run stopped step s es) ∧
      (stopped (run stopped step s es) = false → rest = []) := by
  induction es generalizing s done with
  | nil => exact ⟨[], [], rfl, by rwa [List.append_nil], fun _ => rfl⟩
  | cons e es ih =>
    by_cases h : stopped s = true
    · rw [run_of_stopped h]
      exact ⟨[], e :: es, rfl, by rwa [List.append_nil], fun hgo => absurd h (by simp [hgo])⟩
    · rw [run_cons, if_neg h]
      obtain ⟨gone, rest, hes, hI, hend⟩ := ih (hstep done s e (Bool.not_eq_true _ ▸ h) hs)
      refine ⟨e :: gone, rest, by rw [hes, List.cons_append], ?_, hend⟩
      rwa [List.append_assoc, List.singleton_append] at hI

end OpenBrain.Core.Halting
