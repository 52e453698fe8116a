import OpenBrain.Core.Result
import OpenBrain.Server.Search.Engine

/-!
# What the fusion accumulates

The candidates of two arms whose rows are records: the first arm's rows with the votes of the second,
then what only the second holds (`accumulateRrf_eq`). Which order the arms list their rows in matters
only for the votes.
-/
namespace OpenBrain.Server.Search

open OpenBrain.Core List

def RankedCandidate.lift (candidate : RankedCandidate) (arm : RrfArm) : Option ℚ → RankedCandidate
  | none => candidate
  | some contribution => candidate.raise arm contribution

theorem RankedCandidate.lift_row (candidate : RankedCandidate) (arm : RrfArm) (vote : Option ℚ) :
    (candidate.lift arm vote).row = candidate.row := by
  cases vote <;> cases arm <;> rfl

/-- The vote of the rows, counted from index `k`, for a record. -/
def vote (rows : List SearchRow) (k : Nat) (record : String × String) : Option ℚ :=
  ((rows.zipIdx k).find? fun entry => entry.1.identity = record).map fun entry =>
    reciprocalRank entry.2

theorem vote_cons (row : SearchRow) (rows : List SearchRow) (k : Nat) (record : String × String) :
    vote (row :: rows) k record =
      if row.identity = record then some (reciprocalRank k) else vote rows (k + 1) record := by
  unfold vote
  rw [zipIdx_cons, find?_cons]
  split <;> simp_all

theorem vote_eq_none {rows : List SearchRow} {record : String × String} {k : Nat} :
    vote rows k record = none ↔ record ∉ rows.map SearchRow.identity := by
  induction rows generalizing k with
  | nil => simp [vote]
  | cons row rows ih =>
    rw [vote_cons, map_cons, mem_cons, not_or]
    by_cases heq : row.identity = record
    · simp [heq]
    · rw [if_neg heq, ih]
      exact ⟨fun h => ⟨fun h' => heq h'.symm, h⟩, fun h => h.2⟩

def fresh (scored : List RankedCandidate) (row : SearchRow) : Bool :=
  !scored.any fun candidate => candidate.row.identity == row.identity

theorem fresh_iff {scored : List RankedCandidate} {row : SearchRow} :
    fresh scored row ↔ ∀ candidate ∈ scored, candidate.row.identity ≠ row.identity := by
  simp [fresh]

theorem fresh_congr {scored scored' : List RankedCandidate} {row : SearchRow}
    (h : scored.map RankedCandidate.row = scored'.map RankedCandidate.row) :
    fresh scored row = fresh scored' row := by
  have hany : ∀ scored : List RankedCandidate, fresh scored row =
      !(scored.map RankedCandidate.row).any fun r => r.identity == row.identity := by
    intro scored
    rw [any_map]
    rfl
  rw [hany, hany, h]

variable {arm : RrfArm} {rows : List SearchRow}

theorem lift_cons {row : SearchRow} (hnew : row.identity ∉ rows.map SearchRow.identity) (k : Nat)
    (candidate : RankedCandidate) :
    (if candidate.row.identity = row.identity then candidate.raise arm (reciprocalRank k)
      else candidate).lift arm (vote rows (k + 1)
        (if candidate.row.identity = row.identity then candidate.raise arm (reciprocalRank k)
          else candidate).row.identity) =
      candidate.lift arm (vote (row :: rows) k candidate.row.identity) := by
  rw [vote_cons]
  by_cases heq : candidate.row.identity = row.identity
  · have hrow : (candidate.raise arm (reciprocalRank k)).row = candidate.row := by cases arm <;> rfl
    rw [if_pos heq, if_pos heq.symm, hrow, heq, vote_eq_none.mpr hnew]
    rfl
  · rw [if_neg heq, if_neg fun h => heq h.symm]

/-- One arm: the candidates there take its votes, and its other rows come after them. -/
theorem accumulate_rows (hrows : (rows.map SearchRow.identity).Nodup)
    (hok : ∀ row ∈ rows, ∀ i, rrfArmContribution row i arm = .ok (reciprocalRank i)) (k : Nat)
    (scored : List RankedCandidate) :
    (rows.zipIdx k).foldlM (accumulateRow arm) scored =
      .ok ((scored.map fun candidate => candidate.lift arm (vote rows k candidate.row.identity)) ++
        ((rows.zipIdx k).filter fun entry => fresh scored entry.1).map fun entry =>
          RankedCandidate.first entry.1 arm (reciprocalRank entry.2)) := by
  induction rows generalizing k scored with
  | nil => simp [vote, RankedCandidate.lift, pure, Except.pure]
  | cons row rows ih =>
    obtain ⟨hnew, hrows⟩ := nodup_cons.mp hrows
    have ih := ih hrows (fun row h => hok row (mem_cons_of_mem _ h)) (k + 1)
    rw [zipIdx_cons, foldlM_cons, filter_cons]
    unfold accumulateRow
    rw [hok row mem_cons_self k]
    by_cases hfresh : fresh scored row
    · -- a record no candidate stands for: its candidate comes after the others
      have hany : (scored.any fun candidate => candidate.row.identity == row.identity) = false := by
        simpa [fresh] using hfresh
      simp only [hany, hfresh, if_true]
      refine (ih _).trans (congrArg Except.ok ?_)
      have hscored : ∀ candidate ∈ scored,
          candidate.lift arm (vote rows (k + 1) candidate.row.identity) =
            candidate.lift arm (vote (row :: rows) k candidate.row.identity) := by
        intro candidate hcandidate
        rw [vote_cons, if_neg fun heq => fresh_iff.mp hfresh candidate hcandidate heq.symm]
      have hlast : (RankedCandidate.first row arm (reciprocalRank k)).lift arm
          (vote rows (k + 1) row.identity) = .first row arm (reciprocalRank k) := by
        rw [vote_eq_none.mpr hnew]
        rfl
      have hfilter : ((rows.zipIdx (k + 1)).filter fun entry =>
            fresh (scored ++ [.first row arm (reciprocalRank k)]) entry.1) =
          (rows.zipIdx (k + 1)).filter fun entry => fresh scored entry.1 := by
        refine filter_congr fun entry hentry => ?_
        have hne : row.identity ≠ entry.1.identity := fun heq =>
          hnew (heq ▸ mem_map_of_mem (fst_mem_of_mem_zipIdx hentry))
        simp [fresh, RankedCandidate.first, hne]
      rw [map_append, map_congr_left hscored, hfilter, append_assoc]
      exact congrArg (fun candidate => _ ++ (candidate :: _)) hlast
    · have hany : (scored.any fun candidate => candidate.row.identity == row.identity) = true := by
        simpa [fresh] using hfresh
      simp only [hany, hfresh, if_true]
      refine (ih _).trans (congrArg Except.ok ?_)
      rw [map_map]
      refine congrArg₂ (· ++ ·) (map_congr_left fun candidate _ => lift_cons hnew k candidate) ?_
      refine congrArg _ (filter_congr fun entry _ => fresh_congr ?_)
      rw [map_map]
      refine map_congr_left fun candidate _ => ?_
      show (if _ then _ else _ : RankedCandidate).row = _
      split
      · cases arm <;> rfl
      · rfl

theorem accumulateRrf_eq {vectorRows ftsRows : List SearchRow}
    (hvector : (vectorRows.map SearchRow.identity).Nodup)
    (hfts : (ftsRows.map SearchRow.identity).Nodup)
    (hok : ∀ row ∈ ftsRows, ∀ i, rrfArmContribution row i .lexical = .ok (reciprocalRank i)) :
    accumulateRrf vectorRows ftsRows =
      .ok ((vectorRows.zipIdx.map fun entry =>
          (RankedCandidate.first entry.1 .vector (reciprocalRank entry.2)).lift .lexical
            (vote ftsRows 0 entry.1.identity)) ++
        (ftsRows.zipIdx.filter fun entry => (vote vectorRows 0 entry.1.identity).isNone).map
          fun entry => RankedCandidate.first entry.1 .lexical (reciprocalRank entry.2)) := by
  unfold accumulateRrf
  rw [accumulate_rows hvector (fun _ _ _ => rfl) 0 []]
  refine (accumulate_rows hfts hok 0 _).trans (congrArg Except.ok ?_)
  have hall : (vectorRows.zipIdx.filter fun entry => fresh [] entry.1) = vectorRows.zipIdx :=
    filter_eq_self.mpr fun _ _ => rfl
  rw [map_nil, nil_append, hall, map_map]
  refine congrArg₂ (· ++ ·) rfl (congrArg _ (filter_congr fun entry _ => ?_))
  rw [Bool.eq_iff_iff, fresh_iff, Option.isNone_iff_eq_none, vote_eq_none, forall_mem_map]
  constructor
  · rintro h hmem
    obtain ⟨row, hrow, heq⟩ := mem_map.mp hmem
    obtain ⟨i, hi⟩ := mem_iff_getElem?.mp hrow
    exact h (row, i) (mk_mem_zipIdx_iff_getElem?.mpr hi) heq
  · intro h other hother heq
    exact h (heq ▸ mem_map_of_mem (fst_mem_of_mem_zipIdx hother))

end OpenBrain.Server.Search
