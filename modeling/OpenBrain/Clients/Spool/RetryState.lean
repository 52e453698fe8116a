import OpenBrain.Clients.Spool.Record
import OpenBrain.Core.Assoc
import OpenBrain.Core.LTS
import Mathlib.Data.List.Dedup

/-!
# Drain passes and the retry state (`spool.ts`, `spool-sidecar.ts`)

A drainer takes a snapshot of the spool and of the retry state under the lock, dispatches
the units of the snapshot without it, and commits under it again, in up to four writes:
sidecar entries of the units that crossed the threshold, sidecar entries of replayed units,
the spool, the retry state. Any number of drainers, each with a snapshot of its own, run
next to writers that append lines; a crash may end a commit after any of its writes.

The spool is its lines, the sidecar its entries, and the retry state what the schema check
of `loadRetryState` sees of the file: for every key an entry or, for one that the schema
refuses, `none`.
-/
namespace OpenBrain.Clients.Spool
open OpenBrain.Core OpenBrain.Core.Ecma

/-! ## The retry state -/

/-- mirrors spool-sidecar.ts:31 -/
def MAX_RETRY_STATE_FAILURES : Nat := 1000000

/-- mirrors spool-sidecar.ts:34-39 -/
structure UnitRetryState where
  consecutive_failures : Nat
  first_failure_at : Double
  last_failure_at : Double
  error_category : Str

/-- mirrors spool-sidecar.ts:42-45 -/
structure RetryState where
  last_success_at : Option Double
  units : List (Str × UnitRetryState)
  keys : (units.map Prod.fst).Nodup

/-- An entry of the file that `unitRetryStateSchema` takes; the count is any integer. -/
structure RawUnit where
  consecutive_failures : Int
  first_failure_at : Double
  last_failure_at : Double
  error_category : Str

/-- The file, when it is JSON that `retryStateFileSchema` takes. -/
structure RetryFile where
  last_success_at : Option Double
  units : List (Str × Option RawUnit)
  keys : (units.map Prod.fst).Nodup

/-- One entry of `collectRetryUnits`: a count below one is no entry, and a count is
clamped. -/
def collectRetryUnit (value : Option RawUnit) : Option UnitRetryState :=
  value.bind fun unit =>
    if unit.consecutive_failures < 1 then none
    else some ⟨min unit.consecutive_failures.toNat MAX_RETRY_STATE_FAILURES,
      unit.first_failure_at, unit.last_failure_at, unit.error_category⟩

/-- mirrors spool-sidecar.ts:244-269 -/
def collectRetryUnits (raw : List (Str × Option RawUnit)) : List (Str × UnitRetryState) :=
  Assoc.mapValues collectRetryUnit raw

/-- mirrors spool-sidecar.ts:217-242; a missing or malformed file is `none` -/
def loadRetryState (file : Option RetryFile) : RetryState :=
  match file with
  | none => ⟨none, [], List.nodup_nil⟩
  | some file =>
    ⟨file.last_success_at, collectRetryUnits file.units, Assoc.nodup_mapValues file.keys⟩

def UnitRetryState.raw (unit : UnitRetryState) : RawUnit :=
  ⟨unit.consecutive_failures, unit.first_failure_at, unit.last_failure_at, unit.error_category⟩

/-- mirrors spool-sidecar.ts:271-287 -/
def writeRetryState (state : RetryState) : RetryFile :=
  ⟨state.last_success_at, Assoc.mapValues (fun unit => some (some unit.raw)) state.units,
    Assoc.nodup_mapValues state.keys⟩

theorem units_writeRetryState (state : RetryState) : (writeRetryState state).units =
    Assoc.mapValues (fun unit => some (some unit.raw)) state.units := rfl

/-- What one key of `mergeRetryUnits` is merged to. -/
def mergeRetryUnit (update prior : Option UnitRetryState) : Option UnitRetryState :=
  match update, prior with
  | some update, none => some update
  | some update, some prior =>
    if update.consecutive_failures ≥ prior.consecutive_failures then some update else some prior
  | none, prior => prior

/-- mirrors spool-sidecar.ts:105-126 -/
def mergeRetryUnits (remainingKeys : List Str) (failedUpdates : List (Str × UnitRetryState))
    (currentState priorState : RetryState) : List (Str × UnitRetryState) :=
  Assoc.ofKeys remainingKeys fun unitKey =>
    mergeRetryUnit (failedUpdates.lookup unitKey)
      ((currentState.units.lookup unitKey).or (priorState.units.lookup unitKey))

/-! ## One pass -/

/-- What the dispatcher makes of a unit: it stops at the first record that throws. -/
inductive Attempt where
  | replayed
  | retained
  | failed (errorClass : Str)

/-- A pass between its snapshot and its commit: its snapshot's retry state, the units
still to dispatch, and `ReplayPassState`. The threshold is `none` when no count reaches it
(`NaN`, which the constructor takes too).
mirrors spool.ts:124-129 -/
structure ReplayPass where
  quarantineThreshold : Option Nat
  now : Double
  retryState : RetryState
  todo : List SpoolUnit
  replayedUnitKeys : List Str
  failedUpdates : List (Str × UnitRetryState)
  quarantineUpdates : List (Str × UnitRetryState)

/-- mirrors spool.ts:416-437: the snapshot, less the units without records -/
def startPass (quarantineThreshold : Option Nat) (now : Double) (spool : List Str)
    (retry : Option RetryFile) : ReplayPass :=
  ⟨quarantineThreshold, now, loadRetryState retry,
    (parseUnits spool).filter fun unit => unit.signature.isSome, [], [], []⟩

/-- mirrors spool.ts:519-526 -/
def nextFailure (prior : Option UnitRetryState) (now : Double) (errorClass : Str) :
    UnitRetryState where
  consecutive_failures := (prior.map UnitRetryState.consecutive_failures).getD 0 + 1
  first_failure_at := (prior.map UnitRetryState.first_failure_at).getD now
  last_failure_at := now
  error_category := errorClass

/-- mirrors spool.ts:439-533: the next unit of the pass is dispatched and scored -/
def ReplayPass.recordUnitAttempt (pass : ReplayPass) (attempt : Attempt) : Option ReplayPass :=
  match pass.todo with
  | [] => none
  | unit :: todo =>
    unit.key.map fun unitKey =>
      match attempt with
      | .retained => { pass with todo := todo }
      | .replayed =>
        { pass with todo := todo, replayedUnitKeys := unitKey :: pass.replayedUnitKeys }
      | .failed errorClass =>
        let update := nextFailure (pass.retryState.units.lookup unitKey) pass.now errorClass
        if pass.quarantineThreshold.any fun t => decide (t ≤ update.consecutive_failures) then
          { pass with
            todo := todo
            quarantineUpdates := Assoc.set pass.quarantineUpdates unitKey update }
        else
          { pass with
            todo := todo
            failedUpdates := Assoc.set pass.failedUpdates unitKey update }

/-! ## The commit -/

def ReplayPass.dropped (pass : ReplayPass) (unit : SpoolUnit) : Bool :=
  unit.key.any fun unitKey => pass.replayedUnitKeys.contains unitKey

def ReplayPass.quarantineEntry (pass : ReplayPass) (unit : SpoolUnit) :
    Option (Str × SpoolUnit × UnitRetryState) :=
  if pass.dropped unit then none
  else unit.key.bind fun unitKey =>
    (pass.quarantineUpdates.lookup unitKey).map fun state => (unitKey, unit, state)

def ReplayPass.keeps (pass : ReplayPass) (unit : SpoolUnit) : Bool :=
  !pass.dropped unit && (pass.quarantineEntry unit).isNone

/-- mirrors spool.ts:153-182 (`partitionLiveUnits`) -/
def ReplayPass.remaining (pass : ReplayPass) (liveUnits : List SpoolUnit) : List SpoolUnit :=
  liveUnits.filter pass.keeps

def ReplayPass.remainingLines (pass : ReplayPass) (liveUnits : List SpoolUnit) : List Str :=
  (pass.remaining liveUnits).flatMap SpoolUnit.lines

/-- A `Set`: every key once, at its first place. -/
def ReplayPass.remainingKeys (pass : ReplayPass) (liveUnits : List SpoolUnit) : List Str :=
  ((pass.remaining liveUnits).filterMap SpoolUnit.key).reverse.dedup.reverse

theorem ReplayPass.remainingKeys_nodup (pass : ReplayPass) (liveUnits : List SpoolUnit) :
    (pass.remainingKeys liveUnits).Nodup := List.nodup_reverse.mpr (List.nodup_dedup _)

/-- An entry of the quarantine sidecar: its unit key, the unit's lines and its failures. -/
abbrev Entry := Str × SpoolUnit × UnitRetryState

/-- mirrors spool-sidecar.ts:152-185: an entry replaces the ones before it under its key -/
def appendQuarantinedUnits (sidecar entries : List Entry) : List Entry :=
  (sidecar.filter fun e => !(entries.map Prod.fst).contains e.1) ++ Assoc.ofWrites entries

/-- mirrors spool-sidecar.ts:192-206 -/
def removeQuarantinedEntries (sidecar : List Entry) (unitKeys : List Str) : List Entry :=
  sidecar.filter fun e => !unitKeys.contains e.1

structure Files where
  spool : List Str
  quarantine : List Entry
  retry : Option RetryFile

/-- mirrors spool.ts:459-463 -/
def ReplayPass.hasChanges (pass : ReplayPass) : Bool :=
  !pass.replayedUnitKeys.isEmpty || !pass.failedUpdates.isEmpty || !pass.quarantineUpdates.isEmpty

def ReplayPass.nextState (pass : ReplayPass) (liveUnits : List SpoolUnit)
    (currentState : RetryState) : RetryState where
  last_success_at :=
    if pass.replayedUnitKeys.isEmpty then currentState.last_success_at else some pass.now
  units := mergeRetryUnits (pass.remainingKeys liveUnits) pass.failedUpdates currentState
    pass.retryState
  keys := Assoc.nodup_ofKeys (pass.remainingKeys_nodup liveUnits)

/-- mirrors spool.ts:545-587: the four writes of `commitReplayPass`, in order -/
def ReplayPass.commitWrites (pass : ReplayPass) (liveUnits : List SpoolUnit) :
    List (Files → Files) :=
  let quarantinedNow := liveUnits.filterMap pass.quarantineEntry
  [fun f => if quarantinedNow.isEmpty then f
      else { f with quarantine := appendQuarantinedUnits f.quarantine quarantinedNow },
    fun f => if pass.replayedUnitKeys.isEmpty then f
      else { f with quarantine := removeQuarantinedEntries f.quarantine pass.replayedUnitKeys },
    fun f => { f with spool := pass.remainingLines liveUnits },
    fun f => { f with
      retry := some (writeRetryState (pass.nextState liveUnits (loadRetryState f.retry))) }]

/-- The first `k` writes of the commit, if the pass has anything to commit. -/
def ReplayPass.commit (pass : ReplayPass) (files : Files) (k : Nat) : Files :=
  if pass.hasChanges then
    ((pass.commitWrites (parseUnits files.spool)).take k).foldl (fun f write => write f) files
  else files

/-! ## The system -/

structure State where
  files : Files
  drainers : Nat → Option ReplayPass

inductive Label where
  /-- a writer appends its batch -/
  | append (lines : List Str)
  | snapshot (p : Nat) (quarantineThreshold : Option Nat) (now : Double)
  | attempt (p : Nat) (attempt : Attempt)
  /-- a commit, or a crash after `k` of its four writes -/
  | commit (p : Nat) (k : Nat)

def setDrainer (drainers : Nat → Option ReplayPass) (p : Nat) (pass : Option ReplayPass) :
    Nat → Option ReplayPass := fun q => if q = p then pass else drainers q

def step (s : State) : Label → Option State
  | .append lines => some { s with files := { s.files with spool := s.files.spool ++ lines } }
  | .snapshot p quarantineThreshold now =>
    if quarantineThreshold = some 0 then none
    else some { s with
      drainers := setDrainer s.drainers p
        (some (startPass quarantineThreshold now s.files.spool s.files.retry)) }
  | .attempt p attempt =>
    (s.drainers p).bind fun pass => (pass.recordUnitAttempt attempt).map fun pass =>
      { s with drainers := setDrainer s.drainers p (some pass) }
  | .commit p k =>
    (s.drainers p).bind fun pass =>
      if pass.todo.isEmpty then
        some { files := pass.commit s.files k, drainers := setDrainer s.drainers p none }
      else none

/-- At the start no pass runs; the files are what earlier runs left. -/
def Init (s : State) : Prop := ∀ p, s.drainers p = none

def system : LTS State Label := LTS.ofFn Init step

end OpenBrain.Clients.Spool
