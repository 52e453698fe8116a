import OpenBrain.Core.Double
import OpenBrain.Core.LTS
import OpenBrain.Core.Table

/-!
# The maintenance queue (`maintenance-queue.ts`, `maintenance-queue-repository.ts`)

The rows of `maintenance_jobs`, the statements the queue class runs on them and the
checks it makes before. Every statement is one step of the system: Postgres locks the
rows a statement writes and checks its `WHERE` again on what it locked. Which due rows a
claim skips, because another transaction holds them (`SKIP LOCKED`) or because they are
not in its snapshot yet, is the label's `locked`.

An enqueue is one or two INSERTs with a SELECT between them; the SELECT writes nothing,
and each INSERT is a step. Nothing is assumed of who takes a step: any caller may renew,
complete or fail any row under any token, by any clock. Postgres's `gen_random_uuid` and
the host's `randomUUID` never repeat a value.

The list of claims handed out, newest first, is not part of the table.
-/
namespace OpenBrain.Server.Maintenance
open OpenBrain.Core

/-- The 128 bits of a UUID, read as a number: Postgres orders them so. -/
abbrev Uuid := Nat

/-- Milliseconds since the epoch. -/
abbrev Time := Int

/-- A JavaScript number, as far as `Number.isInteger` and comparisons see it. -/
inductive Number where
  | int (n : Int)
  | notInteger

/-- mirrors maintenance-job.ts:28 -/
inductive JobState where
  | queued
  | running
  | succeeded
  | deadLetter
  deriving DecidableEq

/-- mirrors maintenance-job.ts:29-45 -/
inductive ErrorCategory where
  | syntaxError
  | typeError
  | rangeError
  | error
  | nonError
  | unsupportedJobKind
  | leaseExpired
  | terminal
  deriving DecidableEq

/-- The retry policy of a job: what `validateRetryPolicy` lets through and the column
checks of `maintenance_jobs` promise.
mirrors maintenance-job.ts:279-298 and 026_maintenance_queue.sql:16-18 -/
structure RetryPolicy where
  maxAttempts : Nat
  backoffBaseMs : Nat
  backoffMaxMs : Nat
  attemptsPos : 1 ≤ maxAttempts
  attemptsLe : maxAttempts ≤ 25
  basePos : 1 ≤ backoffBaseMs
  baseLe : backoffBaseMs ≤ backoffMaxMs

/-- mirrors maintenance-job.ts:180-201 (`MaintenanceJobRow`, less `updated_at`) -/
structure Row where
  id : Uuid
  jobKind : Str
  jobVersion : Nat
  payload : Json Double
  idempotencyKey : Str
  state : JobState
  runAfter : Time
  leaseToken : Option Uuid
  leaseUntil : Option Time
  attempts : Nat
  retry : RetryPolicy
  lastErrorCategory : Option ErrorCategory
  terminalAt : Option Time
  deadLetteredAt : Option Time
  scopeName : Option Str
  provenance : Option (Json Double)
  createdAt : Time

namespace Row

/-- The predicate of the partial unique index, `state IN ('queued', 'running')`. -/
def live (r : Row) : Bool := r.state == .queued || r.state == .running

/-- What the unique index is on. -/
def key (r : Row) : Str × Str := (r.jobKind, r.idempotencyKey)

end Row

/-! ## Enqueue -/

/-- mirrors maintenance-job.ts:116-133 -/
structure EnqueueMaintenanceJob where
  kind : Str
  version : Number
  payload : Json Double
  idempotencyKey : Str
  runAfter : Option Time
  maxAttempts : Option Number
  backoffBaseMs : Option Number
  backoffMaxMs : Option Number
  scopeName : Option Str
  provenance : Option (Json Double)

/-- mirrors maintenance-queue-repository.ts:28-39 -/
structure EnqueueJobValues where
  kind : Str
  version : Nat
  payload : Json Double
  idempotencyKey : Str
  runAfter : Time
  retry : RetryPolicy
  scopeName : Option Str
  provenance : Option (Json Double)

def DEFAULT_MAX_ATTEMPTS : Number := .int 3
def DEFAULT_BACKOFF_BASE_MS : Number := .int 1000
def DEFAULT_BACKOFF_MAX_MS : Number := .int 300000

/-- mirrors maintenance-job.ts:264-268 -/
def assertPositiveInteger (value : Number) (field : String) : Except String Nat :=
  match value with
  | .int n =>
    if n < 1 then .error s!"maintenance queue {field} must be a positive integer"
    else .ok n.toNat
  | .notInteger => .error s!"maintenance queue {field} must be a positive integer"

/-- mirrors maintenance-job.ts:270-277 -/
def assertObject (value : Json Double) (field : String) : Except String Unit :=
  match value with
  | .obj _ => .ok ()
  | _ => .error s!"maintenance queue {field} must be an object"

def unitIn (lo hi : Char) (u : UInt16) : Bool :=
  decide (lo.toNat ≤ u.toNat) && decide (u.toNat ≤ hi.toNat)

def unitIs (c : Char) (u : UInt16) : Bool := u.toNat == c.toNat

/-- `/^[head][rest]{0,127}$/` -/
def token128 (head rest : UInt16 → Bool) (s : Str) : Bool :=
  match s with
  | [] => false
  | u :: us => head u && us.all rest && decide (us.length ≤ 127)

/-- mirrors maintenance-job.ts:313 -/
def kindPattern (s : Str) : Bool :=
  token128 (unitIn 'a' 'z')
    (fun u => unitIn 'a' 'z' u || unitIn '0' '9' u || unitIs '_' u || unitIs '.' u ||
      unitIs '-' u) s

/-- mirrors maintenance-job.ts:26 (`NAMESPACE_TOKEN_RE`) -/
def namespacePattern (s : Str) : Bool :=
  let alnum := fun u => unitIn 'a' 'z' u || unitIn 'A' 'Z' u || unitIn '0' '9' u
  token128 alnum (fun u => alnum u || unitIs '.' u || unitIs '_' u || unitIs '-' u) s

/-- mirrors maintenance-job.ts:286-299 -/
def validateRetryPolicy (retry : EnqueueMaintenanceJob) : Except String RetryPolicy := do
  let maxAttempts ← assertPositiveInteger (retry.maxAttempts.getD DEFAULT_MAX_ATTEMPTS)
    "max attempts"
  let backoffBaseMs ← assertPositiveInteger (retry.backoffBaseMs.getD DEFAULT_BACKOFF_BASE_MS)
    "backoff base"
  let backoffMaxMs ← assertPositiveInteger (retry.backoffMaxMs.getD DEFAULT_BACKOFF_MAX_MS)
    "backoff maximum"
  if h : (1 ≤ maxAttempts ∧ 1 ≤ backoffBaseMs) ∧ ¬(25 < maxAttempts ∨ backoffMaxMs < backoffBaseMs)
  then .ok ⟨maxAttempts, backoffBaseMs, backoffMaxMs, h.1.1, by omega, h.1.2, by omega⟩
  else .error "maintenance queue retry policy is invalid"

/-- mirrors maintenance-job.ts:302-309 -/
def validateScope (scope : EnqueueMaintenanceJob) : Except String Unit := do
  if let some provenance := scope.provenance then
    assertObject provenance "provenance"
  if let some name := scope.scopeName then
    unless namespacePattern name do
      .error "maintenance queue namespace is invalid"

/-- mirrors maintenance-job.ts:312-321 -/
def validateJobIdentity (input : EnqueueMaintenanceJob) : Except String Nat := do
  unless kindPattern input.kind do
    .error "maintenance queue job kind is invalid"
  if input.idempotencyKey.length = 0 ∨ input.idempotencyKey.length > 256 then
    .error "maintenance queue idempotency key is invalid"
  let version ← assertPositiveInteger input.version "job version"
  assertObject input.payload "payload"
  return version

/-- mirrors maintenance-job.ts:323-348; `now` is the `new Date()` of a job without
`runAfter`. -/
def validateEnqueue (input : EnqueueMaintenanceJob) (now : Time) :
    Except String EnqueueJobValues := do
  let version ← validateJobIdentity input
  let retry ← validateRetryPolicy input
  validateScope input
  return {
    kind := input.kind
    version := version
    payload := input.payload
    idempotencyKey := input.idempotencyKey
    runAfter := input.runAfter.getD now
    retry := retry
    scopeName := input.scopeName
    provenance := input.provenance }

/-- The INTEGER columns of a job: a value beyond them fails the INSERT. -/
def EnqueueJobValues.fits (v : EnqueueJobValues) : Bool :=
  v.version < 2 ^ 31 && v.retry.backoffMaxMs < 2 ^ 31

/-- The row an INSERT makes; the columns it does not name take their defaults.
mirrors maintenance-queue-repository.ts:88-94 and 026_maintenance_queue.sql:3-31 -/
def newRow (v : EnqueueJobValues) (id : Uuid) (createdAt : Time) : Row where
  id := id
  jobKind := v.kind
  jobVersion := v.version
  payload := v.payload
  idempotencyKey := v.idempotencyKey
  state := .queued
  runAfter := v.runAfter
  leaseToken := none
  leaseUntil := none
  attempts := 0
  retry := v.retry
  lastErrorCategory := none
  terminalAt := none
  deadLetteredAt := none
  scopeName := v.scopeName
  provenance := v.provenance
  createdAt := createdAt

/-- The index of 047_maintenance_jobs_live_idempotency.sql holds the key already. -/
def conflicts (t : List Row) (v : EnqueueJobValues) : Bool :=
  t.any fun r => r.live && r.key == (v.kind, v.idempotencyKey)

/-- mirrors maintenance-queue-repository.ts:88-94 (`INSERT_JOB_SQL`) -/
def insertJob (t : List Row) (v : EnqueueJobValues) (id : Uuid) (createdAt : Time) : List Row :=
  if conflicts t v then t else t ++ [newRow v id createdAt]

/-! ## Claim -/

/-- mirrors maintenance-queue-repository.ts:104-105 -/
def due (now : Time) (r : Row) : Bool :=
  (r.state == .queued && decide (r.runAfter ≤ now)) ||
    (r.state == .running && r.leaseUntil.any fun t => decide (t ≤ now))

/-- `ORDER BY run_after, created_at, id` -/
def claimOrder (a b : Row) : Bool :=
  if a.runAfter = b.runAfter then
    if a.createdAt = b.createdAt then decide (a.id ≤ b.id) else decide (a.createdAt < b.createdAt)
  else decide (a.runAfter < b.runAfter)

/-- mirrors maintenance-queue-repository.ts:101-109 (`eligible`) -/
def eligible (t : List Row) (now : Time) (limit : Nat) (locked : List Uuid) : List Row :=
  ((t.filter fun r => due now r && !locked.contains r.id).mergeSort claimOrder).take limit

/-- mirrors maintenance-queue-repository.ts:110-113 (`reclaim`) -/
def reclaimable (r : Row) : Bool :=
  r.state == .queued || decide (r.attempts < r.retry.maxAttempts)

/-- mirrors maintenance-queue-repository.ts:114-117 (`expire`) -/
def spent (r : Row) : Bool :=
  r.state == .running && decide (r.retry.maxAttempts ≤ r.attempts)

/-- mirrors maintenance-queue-repository.ts:118-128 (`dead`) -/
def expireRow (now : Time) (r : Row) : Row :=
  { r with
    state := .deadLetter
    leaseToken := none
    leaseUntil := none
    lastErrorCategory := some .leaseExpired
    terminalAt := some now
    deadLetteredAt := some now }

/-- mirrors maintenance-queue-repository.ts:129-134 -/
def claimRow (now : Time) (token : Uuid) (leaseMs : Nat) (r : Row) : Row :=
  { r with
    state := .running
    leaseToken := some token
    leaseUntil := some (now + leaseMs)
    attempts := r.attempts + 1 }

/-- The ids of `reclaim`. -/
def reclaimIds (t : List Row) (now : Time) (limit : Nat) (locked : List Uuid) : List Uuid :=
  ((eligible t now limit locked).filter reclaimable).map Row.id

/-- The ids of `expire`. -/
def expireIds (t : List Row) (now : Time) (limit : Nat) (locked : List Uuid) : List Uuid :=
  ((eligible t now limit locked).filter spent).map Row.id

/-- mirrors maintenance-queue-repository.ts:101-136 (`CLAIM_DUE_JOBS_SQL`) -/
def claimJobs (t : List Row) (now : Time) (limit : Nat) (token : Uuid) (leaseMs : Nat)
    (locked : List Uuid) : List Row :=
  t.map fun r =>
    if (reclaimIds t now limit locked).contains r.id then claimRow now token leaseMs r
    else if (expireIds t now limit locked).contains r.id then expireRow now r
    else r

/-! ## Renew, complete, fail -/

/-- The guard of the three: `id = $1 AND state = 'running' AND lease_token = $2`. -/
def held (jobId : Uuid) (token : Option Uuid) (r : Row) : Bool :=
  r.id == jobId && r.state == .running && token.isSome && r.leaseToken == token

/-- mirrors maintenance-queue-repository.ts:138-142 (`RENEW_LEASE_SQL`) -/
def renewLease (t : List Row) (jobId token : Uuid) (now : Time) (leaseMs : Nat) : List Row :=
  Table.updateWhere (held jobId (some token))
    (fun r => { r with leaseUntil := some (now + leaseMs) }) t

/-- mirrors maintenance-queue-repository.ts:144-152 (`COMPLETE_JOB_SQL`) -/
def completeRow (now : Time) (r : Row) : Row :=
  { r with
    state := .succeeded
    leaseToken := none
    leaseUntil := none
    lastErrorCategory := none
    terminalAt := some now }

def completeJob (t : List Row) (jobId token : Uuid) (now : Time) : List Row :=
  Table.updateWhere (held jobId (some token)) (completeRow now) t

/-- mirrors maintenance-job.ts:413-418 -/
def maintenanceBackoffMs (attempts : Nat) (retry : RetryPolicy) : Nat :=
  min (retry.backoffBaseMs * 2 ^ min (attempts - 1) 30) retry.backoffMaxMs

/-- mirrors maintenance-queue-repository.ts:154-176 (`FAIL_JOB_SQL`) -/
def failRow (now : Time) (category : ErrorCategory) (terminal : Bool) (r : Row) : Row :=
  if terminal || decide (r.retry.maxAttempts ≤ r.attempts) then
    { r with
      state := .deadLetter
      leaseToken := none
      leaseUntil := none
      lastErrorCategory := some category
      terminalAt := some now
      deadLetteredAt := some now }
  else
    { r with
      state := .queued
      runAfter := now + maintenanceBackoffMs r.attempts r.retry
      leaseToken := none
      leaseUntil := none
      lastErrorCategory := some category
      terminalAt := none
      deadLetteredAt := none }

def failJob (t : List Row) (jobId : Uuid) (token : Option Uuid) (now : Time)
    (category : ErrorCategory) (terminal : Bool) : List Row :=
  Table.updateWhere (held jobId token) (failRow now category terminal) t

/-- What a handler threw, by `instanceof`. -/
inductive Thrown where
  | syntaxError
  | typeError
  | rangeError
  | otherError
  | notAnError

/-- mirrors maintenance-job.ts:383-389 -/
def safeMaintenanceErrorCategory : Thrown → ErrorCategory
  | .syntaxError => .syntaxError
  | .typeError => .typeError
  | .rangeError => .rangeError
  | .otherError => .error
  | .notAnError => .nonError

/-- mirrors maintenance-queue.ts:199-201 -/
def failCategory (category : Option ErrorCategory) (terminal : Bool) (error : Thrown) :
    ErrorCategory :=
  category.getD (if terminal then .terminal else safeMaintenanceErrorCategory error)

/-! ## The system -/

/-- The table, and every claim handed out so far: which row, under which token. -/
structure Queue where
  rows : List Row
  claims : List (Uuid × Uuid)

inductive Label where
  /-- one INSERT of an enqueue; `now` is the caller's clock, `createdAt` the server's -/
  | insert (input : EnqueueMaintenanceJob) (now : Time) (id : Uuid) (createdAt : Time)
  | claim (limit leaseMs : Number) (now : Time) (token : Uuid) (locked : List Uuid)
  | renew (jobId token : Uuid) (leaseMs : Number) (now : Time)
  | complete (jobId token : Uuid) (now : Time)
  | fail (jobId : Uuid) (token : Option Uuid) (category : Option ErrorCategory) (terminal : Bool)
      (error : Thrown) (now : Time)

def MAX_CLAIM_LIMIT : Nat := 256

/-- mirrors maintenance-queue.ts:109-114 -/
def claimArguments (limit leaseMs : Number) : Except String (Nat × Nat) := do
  let n ← assertPositiveInteger limit "claim limit"
  if n > MAX_CLAIM_LIMIT then
    .error "maintenance queue claim limit exceeds the bound"
  let ms ← assertPositiveInteger leaseMs "lease duration"
  return (n, ms)

/-- One statement; `none` when the call throws before it, or an id would repeat. -/
def step (s : Queue) : Label → Option Queue
  | .insert input now id createdAt =>
    match validateEnqueue input now with
    | .error _ => none
    | .ok v =>
      if v.fits && !(s.rows.map Row.id).contains id then
        some { s with rows := insertJob s.rows v id createdAt }
      else none
  | .claim limit leaseMs now token locked =>
    match claimArguments limit leaseMs with
    | .error _ => none
    | .ok (n, ms) =>
      if (s.claims.map Prod.snd).contains token then none
      else some {
        rows := claimJobs s.rows now n token ms locked
        claims := (reclaimIds s.rows now n locked).map (fun id => (id, token)) ++ s.claims }
  | .renew jobId token leaseMs now =>
    match assertPositiveInteger leaseMs "lease duration" with
    | .error _ => none
    | .ok ms => some { s with rows := renewLease s.rows jobId token now ms }
  | .complete jobId token now => some { s with rows := completeJob s.rows jobId token now }
  | .fail jobId token category terminal error now =>
    some { s with
      rows := failJob s.rows jobId token now (failCategory category terminal error) terminal }

def system : LTS Queue Label := LTS.ofFn (fun s => s.rows = [] ∧ s.claims = []) step

/-- How often a row was claimed. -/
def Queue.claimed (s : Queue) (id : Uuid) : Nat := s.claims.countP fun c => c.1 == id

def Queue.lastToken (s : Queue) (id : Uuid) : Option Uuid := s.claims.lookup id

end OpenBrain.Server.Maintenance
