import OpenBrain.Core.Cascade
import OpenBrain.Server.CandidateReview.Consistency
import Mathlib.Data.List.Sort

/-!
# A dedupe pass between the operators' grades (`candidate-dedupe.ts`)

The pass is one transaction: it selects the duplicates with their survivors, locks the rows of
both, and then merges pair by pair. Under READ COMMITTED every statement sees what others have
committed, so grades arrive between the selection and the lock, and after it on the rows that
are not locked. The merges are one step of the system: from the lock on no call can change a
row they read, and what they write nobody sees before the COMMIT; a call that commits between
two of them has changed other rows and comes before both.

The nearest older candidate is the answer of an approximate index (HNSW), so the selection
takes it from the label, `near`: any candidate that qualifies, or none.
-/
namespace OpenBrain.Server.CandidateReview
open OpenBrain.Core OpenBrain.Core.Ecma

/-! ## Selecting pairs -/

/-- mirrors candidate-dedupe.ts:57-66 -/
structure MergeRow where
  dup_id : Uuid
  survivor_id : Uuid
  ns : Str
  dup_content_hash : Str
  dup_occurred_at : Time
  dup_source_turn_ids : List Uuid
  dup_model : Option Str
  distance : Double
  deriving DecidableEq

/-- `COALESCE(first_said_at, created_at)` -/
def Candidate.said_at (c : Candidate) : Time := c.first_said_at.getD c.created_at

/-- `COALESCE(last_said_at, first_said_at, created_at)` -/
def Candidate.last_at (c : Candidate) : Time := (c.last_said_at.or c.first_said_at).getD c.created_at

/-- A timestamp as the driver hands it out, a `Date` with milliseconds. -/
def toDate (t : Time) : Time := t / 1000 * 1000

/-- `(a.said_at, a.id) < (b.said_at, b.id)` -/
def olderThan (a b : Candidate) : Bool :=
  decide (a.said_at < b.said_at) || (a.said_at == b.said_at && decide (a.id < b.id))

/-- What one selection is given: `$1` to `$3`, `<=>` (`none` is `NaN`, which Postgres orders
above every cutoff), and the index. -/
structure Selection where
  ns : Option Str
  batchSize : Nat
  cutoff : Double
  cosine : List Double → List Double → Option Double
  near : Uuid → Option Uuid

namespace Selection
variable (sel : Selection)

/-- `scoped`.
mirrors candidate-dedupe.ts:101-110 -/
def inScope (db : Db) : List Candidate :=
  db.candidates.filter fun c => c.reviewed_at.isNone && c.embedding.isSome &&
    sel.ns.all fun ns => c.ns == ns

/-- mirrors candidate-dedupe.ts:111-117 -/
def dups (db : Db) : List Candidate :=
  ((sel.inScope db).insertionSort fun a b => !olderThan a b).take sel.batchSize

/-- mirrors candidate-dedupe.ts:129-138: the row the index gives, when it qualifies -/
def neighbour (db : Db) (d : Candidate) : Option (Candidate × Double) := do
  let id ← sel.near d.id
  let c ← db.candidates.find? fun c => c.id == id && c.reviewed_at.isNone && c.ns == d.ns &&
    olderThan c d
  let distance ← sel.cosine (← c.embedding) (← d.embedding)
  if Double.le distance sel.cutoff then some (c, distance) else none

/-- mirrors candidate-dedupe.ts:118-139 -/
def nearest (db : Db) : List MergeRow :=
  (sel.dups db).filterMap fun d => (sel.neighbour db d).map fun s =>
    ⟨d.id, s.1.id, d.ns, d.content_hash, toDate d.last_at, d.source_turn_ids, d.model, s.2⟩

def edge (db : Db) (id : Uuid) : Option Uuid :=
  ((sel.nearest db).find? fun n => n.dup_id == id).map MergeRow.survivor_id

end Selection

/-- mirrors candidate-dedupe.ts:144-159: from a survivor over at most so many more edges -/
def walk (edge : Uuid → Option Uuid) : Nat → Uuid → Uuid
  | 0, terminal => terminal
  | n + 1, terminal =>
    match edge terminal with
    | some survivor => walk edge n survivor
    | none => terminal

/-- mirrors candidate-dedupe.ts:151 -/
def MAX_STEPS : Nat := 32

/-- mirrors candidate-dedupe.ts:160-165 -/
def Selection.pairs (sel : Selection) (db : Db) : List MergeRow :=
  ((sel.nearest db).map fun n =>
    { n with survivor_id := walk (sel.edge db) MAX_STEPS n.survivor_id }).filter
      fun n => n.survivor_id != n.dup_id

/-! ## Merging -/

/-- mirrors candidate-dedupe.ts:37-46 -/
structure CandidateDedupeSummary where
  examined : Nat
  merged : Nat
  reinforced : Nat
  skipped_no_embedding : Nat

def MergeRow.reinforcement (pair : MergeRow) : Reinforcement :=
  ⟨pair.ns, pair.survivor_id, pair.dup_content_hash, pair.dup_occurred_at,
    pair.dup_source_turn_ids, pair.distance, pair.dup_model⟩

/-- A row of `idx_candidate_reinforcement_dedupe` for the pair is there. -/
def MergeRow.recorded (pair : MergeRow) (rs : List Reinforcement) : Bool :=
  rs.any fun r => r.candidate_id == pair.survivor_id && r.dup_content_hash == pair.dup_content_hash

/-- `DELETE FROM candidate_memory WHERE id = $1` with its three `ON DELETE CASCADE`. -/
def deleteCandidate (db : Db) (id : Uuid) : Db :=
  let candidates := Cascade.deleteCascade Candidate.id Candidate.parent_id id db.candidates
  let there := fun candidate_id => candidates.any fun c => c.id == candidate_id
  { candidates := candidates
    grades := db.grades.filter fun g => there g.candidate_id
    reinforcements := db.reinforcements.filter fun r => there r.candidate_id }

/-- The survivor's recency after the duplicate. -/
def Candidate.advance (c : Candidate) (dup_occurred_at : Time) : Candidate :=
  { c with last_said_at := some (max c.last_at dup_occurred_at) }

/-- Whether `DELETE … WHERE id = $1 AND reviewed_at IS NULL` finds the duplicate. -/
def deletable (db : Db) (dup_id : Uuid) : Bool :=
  db.candidates.any fun c => c.id == dup_id && c.reviewed_at.isNone

/-- mirrors candidate-dedupe.ts:221-272; `none` when the survivor of a new reinforcement is
not there, which the foreign key refuses -/
def applyMerge (db : Db) (pair : MergeRow) (summary : CandidateDedupeSummary) :
    Option (Db × CandidateDedupeSummary) :=
  let written := !pair.recorded db.reinforcements
  if written && !db.candidates.any fun c => c.id == pair.survivor_id then none
  else
    let reinforcements :=
      if written then db.reinforcements ++ [pair.reinforcement] else db.reinforcements
    let candidates := Table.updateWhere (fun c => c.id == pair.survivor_id)
      (·.advance pair.dup_occurred_at) db.candidates
    let db : Db := ⟨candidates, db.grades, reinforcements⟩
    let removed := deletable db pair.dup_id
    some (if removed then deleteCandidate db pair.dup_id else db,
      { summary with
        reinforced := summary.reinforced + written.toNat
        merged := summary.merged + removed.toNat })

def applyMerges : Db → List MergeRow → CandidateDedupeSummary → Option (Db × CandidateDedupeSummary)
  | db, [], summary => some (db, summary)
  | db, pair :: pairs, summary =>
    (applyMerge db pair summary).bind fun r => applyMerges r.1 pairs r.2

/-! ## The system -/

/-- A pass between its selection and its end. -/
structure DedupePass where
  pairs : List MergeRow
  locked : Bool
  skipped_no_embedding : Nat

structure DedupeState where
  db : Db
  pass : Option DedupePass
  summary : Option CandidateDedupeSummary

/-- `call` is a step of an operator; the others are the pass. The candidates without an
embedding were counted (`missing`) before the transaction began. -/
inductive DedupeLabel where
  | call (c : Call)
  | select (sel : Selection) (pairs : List MergeRow) (missing : Nat)
  | lock
  | commit
  | abort

/-- The rows the pass has locked.
mirrors candidate-dedupe.ts:195-219 -/
def DedupePass.locks (pass : DedupePass) (id : Uuid) : Bool :=
  pass.locked && pass.pairs.any fun p => p.dup_id == id || p.survivor_id == id

/-- The call writes no locked row: else it waits. -/
def unblocked (pass : Option DedupePass) (db db' : Db) : Bool :=
  pass.all fun pass => db.candidates.all fun c => !pass.locks c.id || decide (c ∈ db'.candidates)

namespace DedupeState

/-- mirrors candidate-dedupe.ts:286-354; the rows of a selection come in any order, and an
error ends the pass as `abort` does -/
def step (lower : Str → Str) (s : DedupeState) : DedupeLabel → Option DedupeState
  | .call c =>
    if unblocked s.pass s.db (c.run lower s.db) then some { s with db := c.run lower s.db } else none
  | .select sel pairs missing =>
    if s.pass.isNone && pairs.isPerm (sel.pairs s.db) then
      some { s with pass := some ⟨pairs, false, missing⟩ }
    else none
  | .lock => s.pass.bind fun pass =>
    if pass.locked then none else some { s with pass := some { pass with locked := true } }
  | .commit => s.pass.bind fun pass =>
    if pass.locked then
      (applyMerges s.db pass.pairs ⟨pass.pairs.length, 0, 0, pass.skipped_no_embedding⟩).map
        fun r => ⟨r.1, none, some r.2⟩
    else none
  | .abort => s.pass.map fun _ => { s with pass := none }

end DedupeState

end OpenBrain.Server.CandidateReview
