import OpenBrain.Server.CandidateReview.Tables

/-!
# The writers of a grade (`candidate-review/batch-grade.ts`)

`submitGradeBatch` and its wrapper `gradeCandidate`, `ungradeCandidate` and `undoBatch`, as
functions on the tables. A transaction that fails, by a check of the code or by a constraint,
leaves the tables as they were. What the database draws for a call (`now()` of its
transaction, the batch id and the ids of the rows it inserts) comes with the call; nothing is
assumed of it, and an id that is in use already violates the primary key.
-/
namespace OpenBrain.Server.CandidateReview
open OpenBrain.Core OpenBrain.Core.Ecma

/-- What the database draws for one call. -/
structure Draws where
  now : Time
  batch_id : Uuid
  grade_id : Nat → Uuid

inductive Failure where
  | input (e : ReviewInputError)
  | primaryKey
  | currentGrade
  | candidateKey
  deriving DecidableEq

/-! ## Validation -/

/-- mirrors batch-grade.ts:118 -/
def MAX_BATCH_SIZE : Nat := 200

/-- mirrors batch-grade.ts:121 -/
def MAX_NOTE_LENGTH : Nat := 2000

/-- mirrors batch-grade.ts:125-131 -/
structure ParsedGrade where
  candidateId : Str
  action : ReviewAction
  note : Option Str
  reasonCode : Option Str
  agentBehavior : Option AgentBehavior

/-- `a ?? b` of two properties -/
def firstOf (raw : Members Number) (a b : String) : Option JsonValue :=
  match Members.get? raw (units a) with
  | none | some .null => Members.get? raw (units b)
  | some v => some v

def gradesAt (index : Nat) (text : String) : Str :=
  units "grades[" ++ decimal index ++ units "]" ++ units text

/-- mirrors batch-grade.ts:134-140 -/
def parseGradeId (raw : Members Number) (index : Nat) : Except ReviewInputError Str :=
  match firstOf raw "candidateId" "candidate_id" with
  | some (.str id) =>
    if (uuidOf (trim id)).isSome then .ok (trim id)
    else .error (badInput (gradesAt index ".candidateId must be a uuid"))
  | _ => .error (badInput (gradesAt index ".candidateId must be a uuid"))

/-- mirrors batch-grade.ts:149-156 -/
def rejectMachineColumns (raw : Members Number) (index : Nat) : Except ReviewInputError Unit :=
  if (Members.get? raw (units "machine_grade")).isSome ∨
      (Members.get? raw (units "machine_grade_model")).isSome then
    .error ⟨gradesAt index (" carries machine_grade, which this API never writes -- " ++
      "it is REM's column (037:43-57)"), 403⟩
  else .ok ()

/-- mirrors batch-grade.ts:159-167 -/
def parseGradeNote (raw : Members Number) (index : Nat) : Except ReviewInputError (Option Str) :=
  let note := match Members.get? raw (units "note") with
    | some (.str note) => trim note
    | _ => []
  if note.length > MAX_NOTE_LENGTH then
    .error (badInput (gradesAt index ".note must be 2000 characters or fewer"))
  else .ok (if note = [] then none else some note)

/-- mirrors batch-grade.ts:182-200 -/
def parseBatchGrade (index : Nat) : JsonValue → Except ReviewInputError ParsedGrade
  | .obj raw => do
    let candidateId ← parseGradeId raw index
    rejectMachineColumns raw index
    let action ← withIndex index (parseReviewAction (Members.get? raw (units "action")))
    let note ← parseGradeNote raw index
    let reasonCode ← withIndex index (parseReasonCode (firstOf raw "reasonCode" "reason_code"))
    let agentBehavior ←
      withIndex index (parseAgentBehavior (firstOf raw "agentBehavior" "agent_behavior"))
    .ok ⟨candidateId, action, note, reasonCode, agentBehavior⟩
  | _ => .error (badInput (gradesAt index " must be an object"))

/-- The items from the `index`th on. -/
def parseFrom : Nat → List JsonValue → Except ReviewInputError (List ParsedGrade)
  | _, [] => .ok []
  | index, value :: values => do
    let g ← parseBatchGrade index value
    let gs ← parseFrom (index + 1) values
    .ok (g :: gs)

def repeated : List Str → List ParsedGrade → Option Str
  | _, [] => none
  | seen, g :: gs =>
    if g.candidateId ∈ seen then some g.candidateId else repeated (g.candidateId :: seen) gs

/-- mirrors batch-grade.ts:210-233; ids are compared as they are written -/
def parseGradeBatch : JsonValue → Except ReviewInputError (List ParsedGrade)
  | .arr grades =>
    if grades = [] then .error (badInput (units "grades must not be empty"))
    else if grades.length > MAX_BATCH_SIZE then
      .error (badInput (units "a batch may hold at most 200 grades; received " ++
        decimal grades.length))
    else do
      let parsed ← parseFrom 0 grades
      match repeated [] parsed with
      | some id => .error (badInput (units "candidate " ++ id ++
          units " appears twice in one batch; grade it once"))
      | none => .ok parsed
  | _ => .error (badInput (units "grades must be an array"))

/-! ## Submitting -/

/-- mirrors batch-grade.ts:70-100 -/
structure BatchGradeResult where
  candidate_id : Str
  grade_id : Uuid
  action : ReviewAction
  superseded_grade_id : Option Uuid
  machine_grade : Option ReviewAction
  agreed : Option Bool
  has_note : Bool
  reason_code : Option Str
  agent_behavior : Option AgentBehavior
  created_at : Time

/-- mirrors batch-grade.ts:102-106 -/
structure BatchSubmitResult where
  batch_id : Uuid
  graded_by : Str
  results : List BatchGradeResult

/-- `INSERT INTO candidate_grade`, under the primary key, the foreign key and
`idx_candidate_grade_current`. -/
def insertGrade (db : Db) (row : Grade) : Except Failure Db :=
  if db.grades.any fun g => g.id == row.id then .error .primaryKey
  else if !db.candidates.any fun c => c.id == row.candidate_id then .error .candidateKey
  else if row.live && db.grades.any fun g => g.live && g.candidate_id == row.candidate_id then
    .error .currentGrade
  else .ok { db with grades := db.grades ++ [row] }

/-- The row with an id in a namespace: what `WHERE namespace = $1 AND id = $2` says. -/
def Candidate.isAt (ns : Str) (id : Uuid) (c : Candidate) : Bool := c.ns == ns && c.id == id

def Grade.isFor (ns : Str) (candidate_id : Uuid) (g : Grade) : Bool :=
  g.ns == ns && g.candidate_id == candidate_id

/-- mirrors batch-grade.ts:246 -/
structure GradeCtx where
  ns : Str
  grader : Str
  batchId : Uuid
  now : Time

/-- mirrors batch-grade.ts:244-314 -/
def applyGrade (db : Db) (ctx : GradeCtx) (grade_id : Uuid) (g : ParsedGrade) :
    Except Failure (Db × BatchGradeResult) := do
  -- every parsed id is a UUID
  let id := (uuidOf g.candidateId).getD 0
  match db.candidates.find? (·.isAt ctx.ns id) with
  | none => .error (.input ⟨units "candidate " ++ g.candidateId ++
      units " not found in this namespace; the whole batch was rolled back", 404⟩)
  | some candidate =>
    let updated : Db := { db with
      candidates := Table.updateWhere (·.isAt ctx.ns id)
        (·.setReview (some g.action, some ctx.now, some ctx.grader)) db.candidates }
    let superseded := db.grades.find? fun row => row.isFor ctx.ns id && row.live
    let cleared : Db := { updated with
      grades := Table.updateWhere (fun row => row.isFor ctx.ns id && row.live)
        (fun row => { row with superseded_at := some ctx.now }) updated.grades }
    let db ← insertGrade cleared ⟨grade_id, ctx.ns, id, g.action, g.note, ctx.grader,
      some ctx.batchId, none, ctx.now, g.reasonCode, g.agentBehavior⟩
    .ok (db, ⟨g.candidateId, grade_id, g.action, superseded.map Grade.id,
      candidate.machine_grade, candidate.machine_grade.map (· == g.action), g.note.isSome,
      g.reasonCode, g.agentBehavior, ctx.now⟩)

/-- The loop of the batch; the `i`th item inserts with the `i`th id drawn. -/
def applyAll (ctx : GradeCtx) (grade_id : Nat → Uuid) :
    Nat → Db → List ParsedGrade → Except Failure (Db × List BatchGradeResult)
  | _, db, [] => .ok (db, [])
  | i, db, g :: gs => do
    let (db, result) ← applyGrade db ctx (grade_id i) g
    let (db, results) ← applyAll ctx grade_id (i + 1) db gs
    .ok (db, result :: results)

/-- The tables after a transaction, and what the call returns. -/
def transaction {α : Type} (db : Db) (run : Except Failure (Db × α)) : Db × Except Failure α :=
  match run with
  | .ok (db, result) => (db, .ok result)
  | .error e => (db, .error e)

/-- mirrors batch-grade.ts:336-379; `lower` is `toLowerCase` -/
def submitGradeBatch (lower : Str → Str) (db : Db) (draws : Draws) (ns gradedBy : Str)
    (grades : JsonValue) : Db × Except Failure BatchSubmitResult :=
  transaction db do
    let grader ← (parseGradedBy lower gradedBy).mapError Failure.input
    let parsed ← (parseGradeBatch grades).mapError Failure.input
    let (db, results) ← applyAll ⟨ns, grader, draws.batch_id, draws.now⟩ draws.grade_id 0 db parsed
    .ok (db, ⟨draws.batch_id, grader, results⟩)

/-- mirrors batch-grade.ts:28-50 -/
structure GradeResult where
  id : Str
  review_action : ReviewAction
  reviewed_at : Time
  graded_by : Str
  machine_grade : Option ReviewAction
  agreed : Option Bool
  grade_id : Uuid
  batch_id : Uuid
  superseded_grade_id : Option Uuid
  reason_code : Option Str
  agent_behavior : Option AgentBehavior

/-- mirrors batch-grade.ts:394-402 -/
structure GradeInput where
  ns : Str
  id : Str
  action : ReviewAction
  gradedBy : Str
  note : Option Str
  reasonCode : Option Str
  agentBehavior : Option Str

def orNull (s : Option Str) : JsonValue := (s.map Json.str).getD .null

def GradeInput.batch (input : GradeInput) : JsonValue :=
  .arr [.obj [(units "candidateId", .str input.id), (units "action", .str input.action.text),
    (units "note", orNull input.note), (units "reasonCode", orNull input.reasonCode),
    (units "agentBehavior", orNull input.agentBehavior)]]

/-- mirrors batch-grade.ts:392-447; `none` is `null`, for the 404 of the batch writer -/
def gradeCandidate (lower : Str → Str) (db : Db) (draws : Draws) (input : GradeInput) :
    Db × Except Failure (Option GradeResult) :=
  match submitGradeBatch lower db draws input.ns input.gradedBy input.batch with
  | (db, .ok submitted) => (db, .ok (submitted.results.head?.map fun result =>
      ⟨result.candidate_id, result.action, result.created_at, submitted.graded_by,
        result.machine_grade, result.agreed, result.grade_id, submitted.batch_id,
        result.superseded_grade_id, result.reason_code, result.agent_behavior⟩))
  | (db, .error (.input e)) => (db, if e.status = 404 then .ok none else .error (.input e))
  | (db, .error e) => (db, .error e)

/-! ## Ungrading and undoing -/

/-- mirrors batch-grade.ts:462-474 -/
def ungradeCandidate (db : Db) (ns : Str) (id : Uuid) : Db × Option Uuid :=
  let graded := fun c : Candidate => c.isAt ns id && c.reviewed_at.isSome
  ({ db with candidates := Table.updateWhere graded (·.setReview (none, none, none)) db.candidates },
    (db.candidates.find? graded).map Candidate.id)

/-- The order `created_at DESC, id DESC`. -/
def Grade.after (g h : Grade) : Bool :=
  h.created_at < g.created_at || (h.created_at == g.created_at && h.id < g.id)

/-- The first row of `DISTINCT ON (candidate_id) … ORDER BY created_at DESC, id DESC`. -/
def latest : List Grade → Option Grade
  | [] => none
  | g :: gs =>
    match latest gs with
    | some h => if h.after g then some h else some g
    | none => some g

/-- No candidate has two live grades: `idx_candidate_grade_current`. -/
def currentUnique (grades : List Grade) : Bool :=
  decide ((grades.filter Grade.live).map Grade.candidate_id).Nodup

def restoredFor (db : Db) (ns : Str) (candidate_id : Uuid) : Option Grade :=
  latest (db.grades.filter fun g => g.isFor ns candidate_id && !g.live)

/-- mirrors batch-grade.ts:492-514 -/
def restoreSuperseded (db : Db) (ns : Str) (candidateIds : List Uuid) : Except Failure (Db × Nat) :=
  let restored := (candidateIds.filterMap (restoredFor db ns)).map Grade.id
  let grades := Table.updateWhere (fun g => decide (g.id ∈ restored))
    (fun g => { g with superseded_at := none }) db.grades
  if currentUnique grades then .ok ({ db with grades := grades }, restored.length)
  else .error .currentGrade

/-- What `LEFT JOIN candidate_grade` gives for a candidate: its live grade, or nulls. -/
def liveReview (grades : List Grade) (ns : Str) (candidate_id : Uuid) : Review :=
  match grades.find? fun g => g.isFor ns candidate_id && g.live with
  | some g => g.review
  | none => (none, none, none)

/-- mirrors batch-grade.ts:523-546 -/
def reconcileCandidates (db : Db) (ns : Str) (candidateIds : List Uuid) : Db × Nat :=
  let listed := fun c : Candidate => c.ns == ns && decide (c.id ∈ candidateIds)
  let candidates := Table.updateWhere listed
    (fun c => c.setReview (liveReview db.grades ns c.id)) db.candidates
  ({ db with candidates := candidates }, (db.candidates.filter listed).length)

/-- mirrors batch-grade.ts:476-484 -/
structure UndoBatchResult where
  batch_id : Uuid
  removed : Nat
  restored : Nat
  candidates : Nat

/-- The transaction of `undoBatch`; `none` for a batch that is not there. -/
def undoRows (db : Db) (ns : Str) (batch_id : Uuid) :
    Except Failure (Db × Option UndoBatchResult) :=
  let inBatch := fun g : Grade => g.ns == ns && g.batch_id == some batch_id
  let removed := db.grades.filter inBatch
  if removed = [] then .ok (db, none)
  else do
    let candidateIds := (removed.map Grade.candidate_id).dedup
    let (db, restored) ←
      restoreSuperseded { db with grades := db.grades.filter fun g => !inBatch g } ns candidateIds
    let (db, candidates) := reconcileCandidates db ns candidateIds
    .ok (db, some ⟨batch_id, removed.length, restored, candidates⟩)

/-- mirrors batch-grade.ts:561-564 -/
def parseBatchId (batchId : Str) : Except ReviewInputError Uuid :=
  match uuidOf (trim batchId) with
  | some batch_id => .ok batch_id
  | none => .error (badInput (units "batchId must be a uuid"))

/-- mirrors batch-grade.ts:565-567 -/
def checkGrader (lower : Str → Str) : Option Str → Except ReviewInputError Unit
  | some gradedBy => (parseGradedBy lower gradedBy).map fun _ => ()
  | none => .ok ()

/-- mirrors batch-grade.ts:557-613 -/
def undoBatch (lower : Str → Str) (db : Db) (ns batchId : Str) (gradedBy : Option Str) :
    Db × Except Failure (Option UndoBatchResult) :=
  transaction db do
    let batch_id ← (parseBatchId batchId).mapError Failure.input
    (checkGrader lower gradedBy).mapError Failure.input
    undoRows db ns batch_id

end OpenBrain.Server.CandidateReview
