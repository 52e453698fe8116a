import OpenBrain.Core.LTS
import OpenBrain.Core.JsonObject
import Mathlib.Logic.Function.Basic

/-!
# The maintenance runner (`server/maintenance/maintenance-queue-runner.ts`)

`runOnce`, `stop`, the executions of the claimed jobs and their heartbeats run side by side and give
way at every `await`: a step is what one of them does from one `await` to the next. An execution
keeps in `trace` the calls it made and how they settled, in order. Times, lease lengths and the
logger are left out, so a timer may fire at any step.
-/
namespace OpenBrain.Server.Maintenance.Runner
open OpenBrain.Core

/-- mirrors maintenance-job.ts:11 -/
def MAX_CONCURRENCY : Int := 16

/-- A `MaintenanceJob`; `fields` are the ones the runner does not read. -/
structure Job where
  id : Str
  kind : Str
  leaseToken : Option Str
  fields : Members Double

/-- The identity captured before the handler runs. -/
structure Claim where
  id : Str
  kind : Str
  leaseToken : Option Str
  deriving DecidableEq

def Job.claim (job : Job) : Claim := ⟨job.id, job.kind, job.leaseToken⟩

/-- What a handler or a call of the queue throws. -/
inductive Failure where
  /-- `unsupported_job_kind`, of the runner itself -/
  | unsupported
  /-- `requireLeaseToken` found none -/
  | noLeaseToken
  /-- a `MaintenanceTerminalError` -/
  | terminal
  | other
  deriving DecidableEq

structure Options where
  handlers : List Str
  /-- the queue has the `renew` capability -/
  renews : Bool
  concurrency : Option Int

/-- mirrors maintenance-queue-runner.ts:74 -/
def Options.bound (o : Options) : Int := min (max (o.concurrency.getD 2) 1) MAX_CONCURRENCY

/-! ## Executions -/

inductive Act where
  | handler (job : Job)
  | handlerDone
  | handlerThrew (error : Failure)
  | renew (id leaseToken : Str)
  | renewSettled
  | complete (id leaseToken : Str)
  | completeDone
  | completeThrew (error : Failure)
  /-- the job `fail` is given, and why -/
  | fail (job : Job) (error : Failure) (terminal : Bool)
  | failSettled

/-- mirrors maintenance-queue-runner.ts:274-323 -/
structure Heartbeat where
  inFlight : Bool
  stopped : Bool

/-- Where `execute` is. -/
inductive ExecPc where
  /-- the handler runs -/
  | running
  /-- the handler succeeded; the heartbeat is being stopped -/
  | stopping
  | completing
  /-- something threw; the heartbeat is being stopped -/
  | stoppingFailed (error : Failure)
  | failing
  /-- `execute` has settled -/
  | settled
  /-- and has left `active` -/
  | removed
  deriving DecidableEq

structure Execution where
  claim : Claim
  /-- the job object, which the handler may change -/
  job : Job
  heartbeat : Option Heartbeat
  pc : ExecPc
  trace : List Act

namespace Execution

def act (e : Execution) (a : Act) : Execution := { e with trace := e.trace ++ [a] }

def goto (e : Execution) (pc : ExecPc) : Execution := { e with pc }

/-- The call of `queue.fail`.
mirrors maintenance-queue-runner.ts:325-356 -/
def fail (e : Execution) (error : Failure) : Execution :=
  let terminal := decide (error = .terminal)
  (e.act (.fail { e.job with id := e.claim.id, leaseToken := e.claim.leaseToken } error
    terminal)).goto .failing

/-- `heartbeat.stop()`, up to its `await`. -/
def stopHeartbeat (e : Execution) : Execution :=
  { e with heartbeat := e.heartbeat.map fun h => { h with stopped := true } }

/-- `if (heartbeat) await heartbeat.stop()` before the failure is recorded. -/
def failed (e : Execution) (error : Failure) : Execution :=
  match e.heartbeat with
  | none => e.fail error
  | some _ => e.stopHeartbeat.goto (.stoppingFailed error)

/-- The call of `queue.complete`.
mirrors maintenance-queue-runner.ts:227-231 -/
def complete (e : Execution) : Execution :=
  match e.claim.leaseToken with
  | none => e.failed .noLeaseToken
  | some leaseToken => (e.act (.complete e.claim.id leaseToken)).goto .completing

/-- The start of `execute`, up to its first `await`.
mirrors maintenance-queue-runner.ts:191-222 -/
def start (o : Options) (job : Job) : Execution :=
  let claim := job.claim
  if o.handlers.contains claim.kind = false then
    Execution.fail ⟨claim, job, none, .failing, []⟩ .unsupported
  else
    let heartbeat := if claim.leaseToken = none ∨ o.renews = false then none
      else some (Heartbeat.mk false false)
    ⟨claim, job, heartbeat, .running, [.handler job]⟩

def quiet (e : Execution) : Bool := e.heartbeat.all fun h => !h.inFlight

end Execution

/-- What an execution hears. -/
inductive Signal where
  | handlerReturns
  | handlerThrows (error : Failure)
  /-- the code of the handler changes the job object -/
  | mutates (job : Job)
  /-- the heartbeat's timer fires -/
  | timer
  /-- the renewal settles; `held` is false when the lease is lost -/
  | renewReturns (held : Bool)
  | renewThrows
  /-- the heartbeat has been stopped -/
  | quiet
  | completeReturns
  | completeThrows (error : Failure)
  /-- `fail` returns or throws -/
  | failSettles
  /-- the callback that takes the execution out of `active` -/
  | leaves

namespace Execution

/-- mirrors maintenance-queue-runner.ts:184-187, 221-243, 281-322 -/
def hear (e : Execution) : Signal → Option Execution
  | .handlerReturns =>
    if e.pc = .running then
      let e := e.act .handlerDone
      match e.heartbeat with
      | none => some e.complete
      | some _ => some (e.stopHeartbeat.goto .stopping)
    else none
  | .handlerThrows error =>
    if e.pc = .running then some ((e.act (.handlerThrew error)).failed error) else none
  | .mutates job => some { e with job }
  | .timer =>
    match e.heartbeat, e.claim.leaseToken with
    | some h, some leaseToken =>
      if h.inFlight || h.stopped then some e
      else
        some ({ e with heartbeat := some { h with inFlight := true } }.act
          (.renew e.claim.id leaseToken))
    | _, _ => none
  | .renewReturns held =>
    match e.heartbeat with
    | some h =>
      if h.inFlight then
        some ({ e with heartbeat := some ⟨false, h.stopped || !held⟩ }.act .renewSettled)
      else none
    | none => none
  | .renewThrows =>
    match e.heartbeat with
    | some h =>
      if h.inFlight then some ({ e with heartbeat := some ⟨false, h.stopped⟩ }.act .renewSettled)
      else none
    | none => none
  | .quiet =>
    if e.quiet = false then none
    else
      match e.pc with
      | .stopping => some e.complete
      | .stoppingFailed error => some (e.fail error)
      | .running | .completing | .failing | .settled | .removed => none
  | .completeReturns =>
    if e.pc = .completing then some ((e.act .completeDone).goto .settled) else none
  | .completeThrows error =>
    if e.pc = .completing then some ((e.act (.completeThrew error)).failed error) else none
  | .failSettles =>
    if e.pc = .failing then some ((e.act .failSettled).goto .settled) else none
  | .leaves => if e.pc = .settled then some (e.goto .removed) else none

end Execution

/-! ## The runner -/

/-- `tickPromise` -/
inductive Tick where
  | none
  /-- `claimDueJobs` was called for so many -/
  | claiming (available : Int)
  /-- the tick has ended; `runOnce` has not cleared it yet -/
  | ended
  deriving DecidableEq

/-- Where a `stop` is. -/
inductive StopPc where
  | idle
  | awaitingTick
  /-- `Promise.all` over these executions -/
  | awaitingAll (places : List Nat)
  | resolved

/-- What the log of the runner says. -/
inductive Entry where
  | claim (limit : Int)
  | stop
  deriving DecidableEq

structure State where
  stopping : Bool
  tick : Tick
  executions : List Execution
  /-- the jobs the claims returned -/
  claimed : List Job
  stops : Nat → StopPc
  log : List Entry

namespace State

/-- `active` -/
def active (s : State) : List Nat :=
  (List.range s.executions.length).filter fun place =>
    s.executions[place]?.any fun e => decide (e.pc ≠ .removed)

/-- `active.size` -/
def activeSize (s : State) : Nat := s.executions.countP fun e => decide (e.pc ≠ .removed)

/-- `runOnce`, up to its first `await`.
mirrors maintenance-queue-runner.ts:100-103, 120-144 -/
def runOnce (o : Options) (s : State) : State :=
  if s.stopping ∨ s.tick ≠ .none then s
  else
    let available := o.bound - s.activeSize
    if available ≤ 0 then { s with tick := .ended }
    else { s with tick := .claiming available, log := s.log ++ [.claim available] }

/-- The rest of `tick`; `none` when the claim threw.
mirrors maintenance-queue-runner.ts:145-188 -/
def claimSettled (o : Options) (s : State) (available : Int) : Option (List Job) → State
  | none => { s with tick := .ended }
  | some jobs =>
    { s with
      tick := .ended
      claimed := s.claimed ++ jobs
      executions := s.executions ++ (jobs.take available.toNat).map (Execution.start o) }

/-- The condition of the loop of `stop`.
mirrors maintenance-queue-runner.ts:115-117 -/
def drain (s : State) (k : Nat) : State :=
  let pc : StopPc := if s.activeSize > 0 then .awaitingAll s.active else .resolved
  { s with stops := Function.update s.stops k pc }

end State

inductive Label where
  | runOnce
  | claimSettles (result : Option (List Job))
  /-- `tickPromise` is cleared -/
  | tickCleared
  | execution (place : Nat) (signal : Signal)
  /-- `stop` is called -/
  | stop (k : Nat)
  | stopNext (k : Nat)

def State.step (o : Options) (s : State) : Label → Option State
  | .runOnce => some (s.runOnce o)
  | .claimSettles result =>
    match s.tick with
    | .claiming available => some (s.claimSettled o available result)
    | .none | .ended => none
  | .tickCleared => if s.tick = .ended then some { s with tick := .none } else none
  | .execution place signal =>
    match s.executions[place]? with
    | some e => (e.hear signal).map fun e => { s with executions := s.executions.set place e }
    | none => none
  | .stop k =>
    match s.stops k with
    | .idle =>
      some { s with
        stopping := true
        stops := Function.update s.stops k .awaitingTick
        log := s.log ++ [.stop] }
    | .awaitingTick | .awaitingAll _ | .resolved => none
  | .stopNext k =>
    match s.stops k with
    | .awaitingTick =>
      match s.tick with
      | .claiming _ => none
      | .none | .ended => some (s.drain k)
    | .awaitingAll places =>
      if places.all fun place => s.executions[place]?.any fun e => decide (e.pc = .removed) then
        some (s.drain k)
      else none
    | .idle | .resolved => none

def State.fresh : State := ⟨false, .none, [], [], fun _ => .idle, []⟩

def system (o : Options) : LTS State Label := LTS.ofFn (· = .fresh) fun s l => s.step o l

def withinLimit (s : State) : Label → Prop
  | .claimSettles (some jobs) =>
    match s.tick with
    | .claiming available => (jobs.length : Int) ≤ available
    | .none | .ended => True
  | _ => True

instance (s : State) (l : Label) : Decidable (withinLimit s l) := by
  unfold withinLimit
  split
  · split <;> infer_instance
  · infer_instance

end OpenBrain.Server.Maintenance.Runner
