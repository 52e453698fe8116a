import OpenBrain.Core.Table
import OpenBrain.Server.CandidateReview.Types

/-!
# The candidate tables (migrations 033, 037 to 040, 042, 044)

`candidate_memory`, `candidate_grade` and `candidate_reinforcement`, with the columns that
grading and the dedupe pass read or write, and the constraints their statements can violate.
-/
namespace OpenBrain.Server.CandidateReview
open OpenBrain.Core

/-- The 128 bits of a UUID, read as a number: Postgres orders them so. -/
abbrev Uuid := Nat

/-- A timestamp, in microseconds. -/
abbrev Time := Int

/-! ## UUIDs as text -/

/-- The value of a hexadecimal digit of either case. -/
def hexValue (u : UInt16) : Option Nat :=
  if unit '0' ≤ u ∧ u ≤ unit '9' then some (u.toNat - 48)
  else if unit 'a' ≤ u ∧ u ≤ unit 'f' then some (u.toNat - 87)
  else if unit 'A' ≤ u ∧ u ≤ unit 'F' then some (u.toNat - 55)
  else none

/-- `n` hexadecimal digits onto `acc`, and the rest. -/
def hexDigits : Nat → Nat → Str → Option (Nat × Str)
  | 0, acc, s => some (acc, s)
  | _ + 1, _, [] => none
  | n + 1, acc, u :: s => (hexValue u).bind fun d => hexDigits n (acc * 16 + d) s

def hyphen : Str → Option Str
  | u :: s => if u = unit '-' then some s else none
  | [] => none

/-- The UUID of a text that matches `UUID_RE`.
mirrors batch-grade.ts:123 -/
def uuidOf (s : Str) : Option Uuid := do
  let (n, s) ← hexDigits 8 0 s
  let (n, s) ← hexDigits 4 n (← hyphen s)
  let (n, s) ← hexDigits 4 n (← hyphen s)
  let (n, s) ← hexDigits 4 n (← hyphen s)
  let (n, s) ← hexDigits 12 n (← hyphen s)
  if s = [] then some n else none

/-! ## Rows -/

/-- A row of `candidate_memory`; `ns` is the column `namespace`. -/
structure Candidate where
  id : Uuid
  ns : Str
  content_hash : Str
  source_turn_ids : List Uuid
  model : Option Str
  embedding : Option (List Double)
  review_action : Option ReviewAction
  reviewed_at : Option Time
  graded_by : Option Str
  machine_grade : Option ReviewAction
  first_said_at : Option Time
  last_said_at : Option Time
  parent_id : Option Uuid
  created_at : Time
  deriving DecidableEq

/-- A row of `candidate_grade`. -/
structure Grade where
  id : Uuid
  ns : Str
  candidate_id : Uuid
  action : ReviewAction
  note : Option Str
  graded_by : Str
  batch_id : Option Uuid
  superseded_at : Option Time
  created_at : Time
  reason_code : Option Str
  agent_behavior : Option AgentBehavior

/-- A row of `candidate_reinforcement`, less its own id. -/
structure Reinforcement where
  ns : Str
  candidate_id : Uuid
  dup_content_hash : Str
  dup_occurred_at : Time
  dup_source_turn_ids : List Uuid
  similarity : Double
  model : Option Str
  deriving DecidableEq

structure Db where
  candidates : List Candidate
  grades : List Grade
  reinforcements : List Reinforcement

/-- What the review columns of a row say. -/
abbrev Review := Option ReviewAction × Option Time × Option Str

def Candidate.review (c : Candidate) : Review := (c.review_action, c.reviewed_at, c.graded_by)

def Candidate.setReview (c : Candidate) (r : Review) : Candidate :=
  { c with review_action := r.1, reviewed_at := r.2.1, graded_by := r.2.2 }

/-- A grade that is neither superseded nor, as the row is there, retracted. -/
def Grade.live (g : Grade) : Bool := g.superseded_at.isNone

def Grade.review (g : Grade) : Review := (some g.action, some g.created_at, some g.graded_by)

section
variable (c : Candidate) (r : Review)

@[simp] theorem setReview_id : (c.setReview r).id = c.id := rfl
@[simp] theorem setReview_ns : (c.setReview r).ns = c.ns := rfl
@[simp] theorem setReview_parent_id : (c.setReview r).parent_id = c.parent_id := rfl
@[simp] theorem setReview_review : (c.setReview r).review = r := rfl

end

end OpenBrain.Server.CandidateReview
