import OpenBrain.Server.CandidateReview.Tables
import Mathlib.Data.List.Sort

/-!
# Candidates as REM sees them (`dream-rem.ts`, `dream-rem-grading-repository.ts`)

A row of `candidate_memory` with the columns that grading reads or writes, the candidate that is
made of it, the heuristic grader, and the two statements: the selection of what is neither graded
nor reviewed, and the guarded write of a machine grade.
-/
namespace OpenBrain.Server.Rem
open OpenBrain.Core
open OpenBrain.Server.CandidateReview (ReviewAction Review Time)

/-- mirrors dream-rem.ts:61-79 -/
structure RemCandidate where
  id : Str
  ns : Str
  candidate_type : Str
  content : Str
  content_hash : Str
  uncertain : Bool
  uncertainty_reason : Option Str
  model : Option Str
  session_count : Nat
  occurrence_count : Nat
  reinforcement_count : Nat
  deriving DecidableEq

/-- mirrors dream-rem.ts:91-96 -/
structure Decision where
  label : Str
  score : Nat
  decisionSource : Str
  rubricVersion : Str
  deriving DecidableEq

/-- A verdict; the grades are those of `review_action`.
mirrors dream-rem.ts:82-97 -/
structure RemGrade where
  grade : ReviewAction
  reason : Option Str
  graderName : Option Str
  decision : Option Decision
  deriving DecidableEq

/-! ## The heuristic grader -/

def heuristicName : Str := units "rem-heuristic-v1"

/-- mirrors dream-rem.ts:119-151 -/
def heuristicGrade (c : RemCandidate) : RemGrade :=
  if c.session_count > 1 then
    ⟨.promoted, some (units "corroborated across " ++ decimal c.session_count ++ units " sessions"),
      none, none⟩
  else if c.reinforcement_count > 0 then
    ⟨.promoted, some (units "restated " ++ decimal c.reinforcement_count ++
      units " time(s) in near-duplicate form"), none, none⟩
  else if c.uncertain then
    ⟨.inconclusive, some (c.uncertainty_reason.getD (units "producer flagged uncertain")), none, none⟩
  else
    ⟨.inconclusive, some (units "single uncorroborated statement; no rule designed for one-offs"),
      none, none⟩

@[simp] theorem heuristicGrade_graderName (c : RemCandidate) : (heuristicGrade c).graderName = none := by
  unfold heuristicGrade
  split
  · rfl
  split
  · rfl
  split
  · rfl
  · rfl

/-! ## Rows -/

/-- `machine_judgement` of a classification -/
structure Judgement where
  label : Str
  decision_source : Str
  rubric_version : Str
  deriving DecidableEq

/-- A row of `candidate_memory`; `ns` is the column `namespace`. -/
structure Row where
  id : Str
  ns : Str
  candidate_type : Str
  content : Str
  content_hash : Str
  uncertain : Bool
  uncertainty_reason : Option Str
  model : Option Str
  review : Review
  machine_grade : Option ReviewAction
  machine_grade_model : Option Str
  machine_score : Option Nat
  machine_graded_at : Option Time
  machine_judgement : Option Judgement
  created_at : Time
  deriving DecidableEq

def Row.reviewed_at (r : Row) : Option Time := r.review.2.1

/-- `machine_grade IS NULL AND reviewed_at IS NULL` -/
def Row.ungraded (r : Row) : Bool := r.machine_grade.isNone && r.reviewed_at.isNone

/-- What the selection joins to a row: `content_occurrences` and `candidate_reinforcement`. -/
structure Counts where
  session_count : Option Nat
  occurrence_count : Option Nat
  reinforcement_count : Nat

/-- mirrors dream-rem-grading.ts:30-44 -/
def toRemCandidate (counts : Row → Counts) (r : Row) : RemCandidate :=
  ⟨r.id, r.ns, r.candidate_type, r.content, r.content_hash, r.uncertain, r.uncertainty_reason, r.model,
    (counts r).session_count.getD 0, (counts r).occurrence_count.getD 0, (counts r).reinforcement_count⟩

/-- The order `uncertain DESC, created_at ASC`. -/
def selectOrder (a b : Row) : Prop :=
  (b.uncertain = true → a.uncertain = true) ∧
    (a.uncertain = b.uncertain → a.created_at ≤ b.created_at)

instance : DecidableRel selectOrder := fun a b =>
  inferInstanceAs (Decidable ((b.uncertain = true → a.uncertain = true) ∧
    (a.uncertain = b.uncertain → a.created_at ≤ b.created_at)))

/-- mirrors dream-rem-repository.ts:45-66 -/
def selectUngradedCandidates (rows : List Row) (ns : Option Str) (batchSize : Nat) : List Row :=
  ((rows.filter fun r => r.ungraded && ns.all (· == r.ns)).insertionSort selectOrder).take batchSize

/-- mirrors dream-rem-grading-repository.ts:27-37 -/
structure GradeValues where
  candidateId : Str
  ns : Str
  grade : ReviewAction
  graderName : Str
  reason : Option Str
  decision : Option Decision

def GradeValues.matched (v : GradeValues) (r : Row) : Bool :=
  r.id == v.candidateId && r.ns == v.ns && r.ungraded

def GradeValues.write (v : GradeValues) (now : Time) (r : Row) : Row :=
  { r with
    machine_grade := some v.grade
    machine_grade_model := some v.graderName
    uncertainty_reason := r.uncertainty_reason.or v.reason
    machine_score := (v.decision.map Decision.score).or r.machine_score
    machine_graded_at := (v.decision.map fun _ => now).or r.machine_graded_at
    machine_judgement :=
      (v.decision.map fun d => ⟨d.label, d.decisionSource, d.rubricVersion⟩).or r.machine_judgement }

/-- mirrors dream-rem-grading-repository.ts:39-72 -/
def storeMachineGrade (rows : List Row) (now : Time) (v : GradeValues) : List Row :=
  Table.updateWhere v.matched (v.write now) rows

section
variable (v : GradeValues) (now : Time) (r : Row)

end

theorem matched_iff {v : GradeValues} {r : Row} : v.matched r = true ↔
    r.id = v.candidateId ∧ r.ns = v.ns ∧ r.machine_grade = none ∧ r.reviewed_at = none := by
  simp [GradeValues.matched, Row.ungraded, and_assoc]

end OpenBrain.Server.Rem
