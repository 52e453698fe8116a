import OpenBrain.Server.Distill.Window
import OpenBrain.Server.Maintenance.Queue
import Mathlib.Data.List.Dedup

/-!
# The distill pipeline (`maintenance-sweep.ts`, `distill-handler.ts`, `distill-persist.ts`)

The producer selects lanes with due turns (`selectDistillLaneBatches`) and enqueues a job for
each; the consumer claims a batch of the job's lane and stamps the turns it consumed. `step` is
the system of the two over one table of raw turns, to which nothing is added: ticks and jobs
that succeed, in any order.

Where a statement leaves rows that are equal in its order as they come, the label says how they
come (`groups`, `order`). A job's payload is held as its values.
-/
namespace OpenBrain.Server.Distill
open OpenBrain.Core
open OpenBrain.Server.Maintenance (JobState namespacePattern)

/-! ## The table -/

/-- A row of `ob_raw_turns`, as far as the claim and the sweep read it. -/
structure SweepTurn extends RawTurn where
  created_at : Int
  content_hash : Str
  deriving DecidableEq

/-- The table: the ids are a primary key, and a `session_seq` is a row number less one
(036_raw_turns_session_seq.sql:57-69, 039_candidate_memory_said_at.sql:135-147). -/
structure Backlog where
  rows : List SweepTurn
  ids : (rows.map fun r => r.id).Nodup
  seqs : ∀ row ∈ rows, ∀ seq, row.session_seq = some seq → 0 ≤ seq

/-- The table as the claim reads it. -/
def Backlog.turns (db : Backlog) : RawTurns where
  rows := db.rows.map fun r => r.toRawTurn
  ids := by
    rw [List.map_map]
    exact db.ids

/-- What a batch is bound to. -/
structure Lane where
  lane_id : Option Uuid
  ns : Str
  deriving DecidableEq

def RawTurn.lane (row : RawTurn) : Lane := ⟨row.lane_id, row.ns⟩

def RawTurn.live (row : RawTurn) : Bool := decide (row.retention_tier = .live)

/-- What the database computes on texts: its collation, `id::text` and `md5`. -/
structure Database where
  collation : Collation
  uuidText : Uuid → Str
  md5 : Str → Str

/-! ## The sweep's statement -/

/-- mirrors maintenance-sweep-repository.ts:19-26 -/
structure DistillLaneBatchRow where
  lane_id : Option Uuid
  ns : Str
  pending_turns : Nat
  processable_turns : Nat
  batch_hash : Str
  total_batches : Nat

def DistillLaneBatchRow.lane (row : DistillLaneBatchRow) : Lane := ⟨row.lane_id, row.ns⟩

/-- The dials of the statement. -/
structure LaneBatchValues where
  maxSessions : Number
  maxTurns : Number
  maxBatches : Number

section Statement
variable (pg : Database) (db : Backlog) (lane : Lane)

/-- The rows of a lane; every part of the statement is partitioned by it. -/
def laneRows : List SweepTurn := db.rows.filter fun row => decide (row.lane = lane)

/-- `due_turns` -/
def laneDue : List SweepTurn := (laneRows db lane).filter fun row => row.due && row.live

/-- `due_sessions`: the first due instant of a session. -/
def firstDue (session_ref : Option Str) : WithTop Int :=
  minimum (((laneDue db lane).filter fun row => decide (row.session_ref = session_ref)).filterMap
    fun row => row.occurred_at)

/-- `ranked_sessions`, in the order of their rank. -/
def rankedSessions : List (Option Str) :=
  let key := fun session_ref : Option Str =>
    (toLex (firstDue db lane session_ref, nullsLast (session_ref.map pg.collation.sortKey)) :
      WithTop Int ×ₗ WithTop pg.collation.Key)
  ((laneDue db lane).map fun row => row.session_ref).dedup.insertionSort fun a b => key a ≤ key b

/-- `window_turns`: the live turns of the sessions up to a rank, distilled or not. -/
def windowTurns (maxSessions : Int) : List SweepTurn :=
  (laneRows db lane).filter fun row => row.live &&
    ((rankedSessions pg db lane).take maxSessions.toNat).contains row.session_ref

/-- `ranked_window_turns`, in the order of their rank. -/
def rankedWindowTurns (maxSessions : Int) : List SweepTurn :=
  ((windowTurns pg db lane maxSessions).filter fun row => row.due).insertionSort fun a b =>
    orderKey pg.collation a.toDistillTurn ≤ orderKey pg.collation b.toDistillTurn

def processable (maxSessions maxTurns : Int) : List SweepTurn :=
  (rankedWindowTurns pg db lane maxSessions).take maxTurns.toNat

/-- `md5(string_agg(id::text || ':' || content_hash, ',' ORDER BY turn_rank))` -/
def batchHash (maxSessions maxTurns : Int) : Str :=
  pg.md5 ((((processable pg db lane maxSessions maxTurns).map fun row =>
    pg.uuidText row.id ++ units ":" ++ row.content_hash).intersperse (units ",")).flatten)

/-- `due_lanes`, in the order of `first_due, lane_id`. -/
def dueLanes (order : List Lane) (maxSessions maxTurns : Int) : List Lane :=
  let key := fun lane : Lane =>
    (toLex (minimum ((laneDue db lane).map fun row => row.created_at), nullsLast lane.lane_id) :
      WithTop Int ×ₗ WithTop Uuid)
  (order.filter fun lane =>
    decide (0 < (processable pg db lane maxSessions maxTurns).length)).insertionSort
      fun a b => key a ≤ key b

def laneBatchRow (maxSessions maxTurns : Int) (total : Nat) : DistillLaneBatchRow where
  lane_id := lane.lane_id
  ns := lane.ns
  pending_turns := (laneDue db lane).length
  processable_turns := (processable pg db lane maxSessions maxTurns).length
  batch_hash := batchHash pg db lane maxSessions maxTurns
  total_batches := total

/-- The rows of the statement, `none` when it is refused.
mirrors maintenance-sweep-repository.ts:28-97 -/
def selectDistillLaneBatches (order : List Lane) (values : LaneBatchValues) :
    Option (List DistillLaneBatchRow) := do
  let maxSessions ← Number.toInt values.maxSessions
  let maxTurns ← Number.toInt values.maxTurns
  let maxBatches ← Number.toInt values.maxBatches
  if maxBatches < 0 then none
  else
    let lanes := dueLanes pg db order maxSessions maxTurns
    some ((lanes.take maxBatches.toNat).map fun lane =>
      laneBatchRow pg db lane maxSessions maxTurns lanes.length)

end Statement

/-! ## The queue -/

/-- The payload of a `memory.distill` job. -/
structure DistillPayload where
  lane_id : Option Uuid
  max_sessions : Int
  max_turns : Int
  deriving DecidableEq

/-- A row of `maintenance_jobs` of the kind `memory.distill`. -/
structure DistillJob where
  idempotencyKey : Str
  ns : Str
  payload : DistillPayload
  state : JobState
  deriving DecidableEq

/-- `state IN ('queued', 'running')` -/
def DistillJob.live (job : DistillJob) : Bool := job.state == .queued || job.state == .running

/-- mirrors distill-handler.ts:331-352 (`buildMemoryDistillEnqueue`) -/
def buildMemoryDistillEnqueue (sweepLabel : Str) (ns : Str) (laneId : Option Uuid)
    (maxSessions maxTurns : Int) : DistillJob where
  idempotencyKey := (units "memory.distill:" ++ sweepLabel).take 200
  ns := ns
  payload := ⟨laneId, maxSessions, maxTurns⟩
  state := .queued

/-- mirrors maintenance-queue.ts:43-106 (`enqueue`): the table with the job, or the text of
the error. Of the checks before the INSERT only the one of the namespace can fail here. -/
def enqueue (jobs : List DistillJob) (job : DistillJob) : Except Str (List DistillJob) :=
  if ¬ namespacePattern job.ns then .error (units "maintenance queue namespace is invalid")
  else
    match jobs.find? fun row => row.live && decide (row.idempotencyKey = job.idempotencyKey) with
    | none => .ok (jobs ++ [job])
    | some existing =>
      if existing.ns ≠ job.ns ∨ existing.payload ≠ job.payload then
        .error (units "maintenance queue idempotency key reused with divergent job semantics")
      else .ok jobs

/-- mirrors maintenance-sweep.ts:262-292: one batch after the other, until one throws. -/
def enqueueDistillBatches (jobs : List DistillJob) (maxSessions maxTurns : Int) :
    List DistillLaneBatchRow → List DistillJob
  | [] => jobs
  | batch :: batches =>
    match enqueue jobs (buildMemoryDistillEnqueue
      (batch.batch_hash ++ units s!":s{maxSessions}:t{maxTurns}") batch.ns batch.lane_id
      maxSessions maxTurns) with
    | .ok jobs => enqueueDistillBatches jobs maxSessions maxTurns batches
    | .error _ => jobs

/-! ## The dials -/

def DEFAULT_DISTILL_BATCH_SIZE : Int := 1500
def MAX_DISTILL_BATCH_SIZE : Int := 20000
def DEFAULT_MAX_DISTILL_BATCHES : Int := 4
def MAX_DISTILL_BATCHES : Int := 64

/-- The dials as the configuration reads them (config/maintenance.ts:218-224). -/
structure MaintenanceSweepOptions where
  distillBatchSize : Option Int
  maxDistillBatchesPerTick : Option Int

/-- mirrors maintenance-sweep.ts:218-224 -/
def boundedInteger (value : Option Int) (fallback max' : Int) : Int :=
  min (max (value.getD fallback) 1) max'

def MaintenanceSweepOptions.maxTurns (options : MaintenanceSweepOptions) : Int :=
  boundedInteger options.distillBatchSize DEFAULT_DISTILL_BATCH_SIZE MAX_DISTILL_BATCH_SIZE

def MaintenanceSweepOptions.maxBatches (options : MaintenanceSweepOptions) : Int :=
  boundedInteger options.maxDistillBatchesPerTick DEFAULT_MAX_DISTILL_BATCHES MAX_DISTILL_BATCHES

/-! ## The consumer -/

def LaneSelection.of : Option Uuid → LaneSelection
  | none => .unassigned
  | some id => .lane id

/-- mirrors distill-handler.ts:262-279 and distill-claim.ts:20-29 -/
def DistillJob.claimParams (job : DistillJob) : ClaimDistillOptions where
  ns := some job.ns
  laneId := .of job.payload.lane_id
  maxSessions := some (.ofInt job.payload.max_sessions)
  maxTurns := some (.ofInt job.payload.max_turns)
  contextWindow := some (.ofInt DEFAULT_CONTEXT_WINDOW)

/-- `UPDATE ... SET distilled_at WHERE id = ANY (...) AND distilled_at IS NULL` on a row. -/
def SweepTurn.stamp (consumedTurnIds : List Uuid) (now : Int) (row : SweepTurn) : SweepTurn :=
  if consumedTurnIds.contains row.id && row.due then { row with distilled_at := some now } else row

section
variable (ids : List Uuid) (now : Int) (row : SweepTurn)

theorem SweepTurn.stamp_id : (row.stamp ids now).id = row.id := by
  unfold SweepTurn.stamp
  split <;> rfl

theorem SweepTurn.stamp_seq : (row.stamp ids now).session_seq = row.session_seq := by
  unfold SweepTurn.stamp
  split <;> rfl

theorem SweepTurn.stamp_lane : (row.stamp ids now).lane = row.lane := by
  unfold SweepTurn.stamp
  split <;> rfl

end

/-- mirrors distill-persist-repository.ts:80-91 (`stampConsumedTurns`) -/
def Backlog.stamp (db : Backlog) (consumedTurnIds : List Uuid) (now : Int) : Backlog where
  rows := db.rows.map (SweepTurn.stamp consumedTurnIds now)
  ids := by
    rw [List.map_map]
    have hid : ((fun r : SweepTurn => r.id) ∘ SweepTurn.stamp consumedTurnIds now) =
        fun r => r.id := funext fun r => r.stamp_id consumedTurnIds now
    rw [hid]
    exact db.ids
  seqs := by
    intro row hrow seq hseq
    obtain ⟨old, hold, rfl⟩ := List.mem_map.mp hrow
    rw [SweepTurn.stamp_seq] at hseq
    exact db.seqs old hold seq hseq

def Backlog.due (db : Backlog) : List SweepTurn := db.rows.filter fun row => row.due && row.live

/-! ## The system -/

structure Pipeline where
  backlog : Backlog
  jobs : List DistillJob

inductive Action where
  /-- a sweep; `order` is the order its lanes come in before they are sorted -/
  | tick (order : List Lane)
  /-- the job at a place of the table runs and succeeds -/
  | job (place : Nat) (groups : List (Option Str)) (now : Int)

/-- The database hands over every lane once. -/
def LaneOrder (db : Backlog) (order : List Lane) : Prop :=
  order.Nodup ∧ ∀ row ∈ db.rows, row.lane ∈ order

instance (db : Backlog) (order : List Lane) : Decidable (LaneOrder db order) :=
  inferInstanceAs (Decidable (_ ∧ _))

/-- The aggregate hands over every session once. -/
def Grouping (db : Backlog) (groups : List (Option Str)) : Prop :=
  groups.Nodup ∧ ∀ row ∈ db.rows, row.session_ref ∈ groups

instance (db : Backlog) (groups : List (Option Str)) : Decidable (Grouping db groups) :=
  inferInstanceAs (Decidable (_ ∧ _))

def DistillJob.complete (job : DistillJob) : DistillJob := { job with state := .succeeded }

namespace Pipeline

/-- mirrors maintenance-sweep.ts:329-366 and distill-handler.ts:169-243 -/
def step (pg : Database) (options : MaintenanceSweepOptions) (s : Pipeline) :
    Action → Option Pipeline
  | .tick order =>
    if LaneOrder s.backlog order then
      (selectDistillLaneBatches pg s.backlog order
        ⟨.ofInt DEFAULT_MAX_DISTILL_SESSIONS, .ofInt options.maxTurns,
          .ofInt options.maxBatches⟩).map fun batches =>
        { s with
          jobs := enqueueDistillBatches s.jobs DEFAULT_MAX_DISTILL_SESSIONS options.maxTurns
            batches }
    else none
  | .job place groups now => do
    let job ← s.jobs[place]?
    if job.live ∧ Grouping s.backlog groups then
      let batch ← claimDistillBatch pg.collation s.backlog.turns job.claimParams groups
      some {
        backlog := s.backlog.stamp batch.consumedTurnIds now
        jobs := s.jobs.set place job.complete }
    else none

/-- At the start no job waits or runs. -/
def Init (s : Pipeline) : Prop := ∀ job ∈ s.jobs, job.live = false

def system (pg : Database) (options : MaintenanceSweepOptions) : LTS Pipeline Action :=
  LTS.ofFn Init (step pg options)

end Pipeline

end OpenBrain.Server.Distill
