import OpenBrain.Memory.Spool.Quarantine
import OpenBrain.Core.LTS
import Mathlib.Data.List.Dedup

/-!
# Replay passes over a spool (`replay_with_report`, `_commit_replay_pass`)

A pass takes a snapshot of the spool under the lock, dispatches its units record
by record without the lock, and commits under it again: sidecar append, sidecar
reconcile, spool rewrite, retry state, each an atomic replacement of a file. A
commit that stops after `k` of the four writes is a crash.

`step` is the system of any number of processes that append batches and run
passes. Two fields of its states are not on disk: the units whose dispatch
succeeded, and every line the spool has had.
-/
namespace OpenBrain.Memory.Spool
open OpenBrain.Core OpenBrain.Core.Py

/-! ## The retry state -/

/-- mirrors spool.py:44 -/
def RETRY_STATE_SCHEMA : Str := units "openbrain.spool_retry_state.v1"

/-- mirrors spool.py:47 -/
def MAX_RETRY_STATE_FAILURES : Nat := 1000000

/-- mirrors spool.py:149-152 (`_RetryState`) -/
structure RetryState where
  last_success_at : Option Double
  units : List (Str × UnitRetryState)

/-- `float(n)` of a finite number, `some none` for one that is not; `none` is the
`OverflowError` of an integer too large for a float. -/
def finiteFloat : Number → Option (Option Double)
  | .int i => (Double.ofDec (Dec.ofInt i)).map some
  | .float d => some (some d)
  | .nan | .inf _ => some none

/-- mirrors spool.py:926-962 (`_parse_unit_retry_state`); `none` is an exception -/
def parseUnitRetryState (value : PyJson) : Option (Option UnitRetryState) :=
  match value with
  | .obj value =>
    match Members.get? value (units "consecutive_failures") with
    | some (.num (.int failures)) =>
      if failures < 1 then some none
      else
        match Members.get? value (units "first_failure_at"),
          Members.get? value (units "last_failure_at") with
        | some (.num first), some (.num last) =>
          match finiteFloat first with
          | none => none
          | some none => some none
          | some (some first_failure_at) =>
            match finiteFloat last with
            | none => none
            | some none => some none
            | some (some last_failure_at) =>
              match Members.get? value (units "error_category") with
              | some (.str error_category) =>
                some (some ⟨min failures.toNat MAX_RETRY_STATE_FAILURES, first_failure_at,
                  last_failure_at, error_category⟩)
              | _ => some none
        | _, _ => some none
    | _ => some none
  | _ => some none

/-- mirrors spool.py:874-924 (`_load_retry_state`) on the text of the file, `none` when
there is none; the result is `none` for an exception -/
def loadRetryState (text : Option Str) : Option RetryState :=
  match text.bind loadsText with
  | some (.obj raw) =>
    match Members.get? raw (units "units") with
    | some (.obj entries) => do
      let parsed ← entries.mapM fun m =>
        (parseUnitRetryState m.2).map fun state => state.map fun state => (m.1, state)
      let last_success_at ← match Members.get? raw (units "last_success_at") with
        | some (.num n) => finiteFloat n
        | _ => some none
      some ⟨last_success_at, parsed.filterMap id⟩
    | _ => some ⟨none, []⟩
  | _ => some ⟨none, []⟩

/-- mirrors spool.py:140-146 (`as_dict`) -/
def UnitRetryState.asDict (s : UnitRetryState) : PyJson :=
  .obj [(units "consecutive_failures", .num (.int s.consecutive_failures)),
    (units "first_failure_at", .num (.float s.first_failure_at)),
    (units "last_failure_at", .num (.float s.last_failure_at)),
    (units "error_category", .str s.error_category)]

/-- mirrors spool.py:964-977 (`_write_retry_state`) -/
def writeRetryState (state : RetryState) : Str :=
  dumps (sortKeys (.obj [(units "schema", .str RETRY_STATE_SCHEMA),
    (units "last_success_at", (state.last_success_at.map fun d => .num (.float d)).getD .null),
    (units "units", .obj (state.units.map fun u => (u.1, u.2.asDict)))]))

/-! ## Files -/

/-- The lines of the spool and of the sidecar (a missing file has none), and the
text of the retry state. -/
structure Files where
  spool : List Str
  quarantine : List Str
  retry : Option Str

/-! ## One pass -/

/-- What the dispatcher does with a record. -/
inductive Dispatch where
  | ok (result : PyJson)
  | retained
  | failed (error_category : Str)

/-- mirrors spool.py:116 -/
inductive Status where
  | replayed
  | failed
  | quarantined
  | retained
  deriving DecidableEq

/-- mirrors spool.py:112-122 (`SpoolUnitOutcome`) -/
structure SpoolUnitOutcome where
  status : Status
  record_keys : List Str
  operations : List Str
  consecutive_failures : Nat
  error_category : Option Str
  first_failure_at : Option Double
  last_failure_at : Option Double

/-- A pass between its snapshot and its commit: the units of the snapshot still to
dispatch, and the results of the records of the first of them. -/
structure Pass where
  quarantine_threshold : Nat
  now : Double
  prior_state : RetryState
  todo : List SpoolUnit
  unit_results : List PyJson
  results : List PyJson
  outcomes : List SpoolUnitOutcome
  replayed_units : List Signature
  failed_updates : List (Str × UnitRetryState)
  quarantine_updates : List (Str × UnitRetryState)

def startPass (cfg : Config) (H : Host) (files : Files) (now : Double) : Option Pass := do
  let snapshot ← parseUnits H files.spool
  let retry_state ← loadRetryState files.retry
  some ⟨cfg.quarantine_threshold, now, retry_state, snapshot.filter (·.signature.isSome), [], [],
    [], [], [], []⟩

def Pass.next (pass : Pass) (outcome : SpoolUnitOutcome) : Pass :=
  { pass with
    todo := pass.todo.tail
    unit_results := []
    outcomes := pass.outcomes ++ [outcome] }

def nextFailure (prior : Option UnitRetryState) (now : Double) (error_category : Str) :
    UnitRetryState where
  consecutive_failures := match prior with
    | some prior => prior.consecutive_failures + 1
    | none => 1
  first_failure_at := match prior with
    | some prior => prior.first_failure_at
    | none => now
  last_failure_at := now
  error_category := error_category

/-- mirrors spool.py:561-637: the next record of the pass is dispatched. The second
component is the unit, when this was the last of its records to succeed. -/
def Pass.dispatch (pass : Pass) (o : Dispatch) : Option (Pass × Option SpoolUnit) :=
  match pass.todo with
  | [] => none
  | unit :: _ =>
    match unit.records, unit.signature with
    | some records, some signature =>
      let unit_key := unitKey signature
      let prior := pass.prior_state.units.lookup unit_key
      let record_keys := records.map SpoolRecord.idempotency_key
      let operations := records.map SpoolRecord.operation
      match o with
      | .ok result =>
        let unit_results := pass.unit_results ++ [result]
        if unit_results.length < records.length then
          some ({ pass with unit_results := unit_results }, none)
        else
          some ({ pass.next ⟨.replayed, record_keys, operations, 0, none, none, none⟩ with
            replayed_units := signature :: pass.replayed_units
            results := pass.results ++ unit_results }, some unit)
      | .retained =>
        some (pass.next ⟨.retained, record_keys, operations,
          (prior.map UnitRetryState.consecutive_failures).getD 0, none, none, none⟩, none)
      | .failed error_category =>
        let update := nextFailure prior pass.now error_category
        let crossed := decide (update.consecutive_failures ≥ pass.quarantine_threshold)
        let outcome : SpoolUnitOutcome := ⟨if crossed then .quarantined else .failed, record_keys,
          operations, update.consecutive_failures, some update.error_category,
          some update.first_failure_at, some update.last_failure_at⟩
        some (if crossed then
            { pass.next outcome with
              quarantine_updates := Assoc.set pass.quarantine_updates unit_key update }
          else
            { pass.next outcome with
              failed_updates := Assoc.set pass.failed_updates unit_key update }, none)
    | _, _ => none

/-! ## The commit -/

/-- What the commit does with a live unit. -/
inductive Fate where
  | replayed
  | quarantined (e : Entry)
  | remaining

def Fate.toEntry : Fate → Option Entry
  | .quarantined e => some e
  | _ => none

def Fate.stays : Fate → Bool
  | .remaining => true
  | _ => false

def Pass.fate (pass : Pass) (unit : SpoolUnit) : Fate :=
  match unit.signature with
  | none => .remaining
  | some signature =>
    if signature ∈ pass.replayed_units then .replayed
    else
      match pass.quarantine_updates.lookup (unitKey signature) with
      | some state => .quarantined (unitKey signature, unit, state)
      | none => .remaining

def Pass.remainingUnits (pass : Pass) (live_units : List SpoolUnit) : List SpoolUnit :=
  live_units.filter fun u => (pass.fate u).stays

def Pass.quarantinedNow (pass : Pass) (live_units : List SpoolUnit) : List Entry :=
  live_units.filterMap fun u => (pass.fate u).toEntry

/-- The retry state of the units that stay: this pass's failure, else the one before. -/
def Pass.retryState (pass : Pass) (live_units : List SpoolUnit) : RetryState where
  last_success_at :=
    if pass.replayed_units.isEmpty then pass.prior_state.last_success_at else some pass.now
  units :=
    let remaining_keys :=
      ((pass.remainingUnits live_units).filterMap fun u => u.signature.map unitKey).dedup
    remaining_keys.filterMap fun unit_key =>
      match pass.failed_updates.lookup unit_key with
      | some update => some (unit_key, update)
      | none => (pass.prior_state.units.lookup unit_key).map fun state => (unit_key, state)

/-- mirrors spool.py:657-731: the four writes of `_commit_replay_pass`, in order -/
def Pass.commitWrites (pass : Pass) (live_units : List SpoolUnit) : List (Files → Files) :=
  let quarantined_now := pass.quarantinedNow live_units
  let replayed_keys := pass.replayed_units.map unitKey
  [fun f => if quarantined_now.isEmpty then f
      else { f with quarantine := appendQuarantined f.quarantine quarantined_now pass.now },
    fun f => if replayed_keys.isEmpty then f
      else { f with quarantine := removeQuarantined f.quarantine replayed_keys },
    fun f => { f with spool := (pass.remainingUnits live_units).flatMap SpoolUnit.lines },
    fun f => { f with retry := some (writeRetryState (pass.retryState live_units)) }]

def Pass.hasChanges (pass : Pass) : Bool :=
  !pass.replayed_units.isEmpty || !pass.failed_updates.isEmpty || !pass.quarantine_updates.isEmpty

/-- The first `k` writes of the commit; `none` is an exception before any of them. -/
def Pass.commit (H : Host) (pass : Pass) (files : Files) (k : Nat) : Option Files :=
  if pass.hasChanges then
    (parseUnits H files.spool).map fun live_units =>
      ((pass.commitWrites live_units).take k).foldl (fun f write => write f) files
  else some files

/-! ## The system -/

structure State where
  files : Files
  passes : Nat → Option Pass
  delivered : List SpoolUnit
  seen : List Str

inductive Label where
  | append (cfg : Config) (b : Batch)
  | snapshot (p : Nat) (cfg : Config) (now : Double)
  | dispatch (p : Nat) (o : Dispatch)
  | finish (p : Nat) (k : Nat)
  | abandon (p : Nat)

def setPass (passes : Nat → Option Pass) (p : Nat) (pass : Option Pass) : Nat → Option Pass :=
  fun q => if q = p then pass else passes q

/-- A refused batch leaves the state as it is. A pass ends by its commit (`finish`,
after `k` of the writes) or without one (`abandon`: a crash or an exception). -/
def step (H : Host) (s : State) : Label → Option State
  | .append cfg b =>
    match appendBatch cfg H s.files.spool b with
    | .ok (lines, _) =>
      some { s with files := { s.files with spool := lines }, seen := s.seen ++ b.lines H }
    | .error _ => some s
  | .snapshot p cfg now =>
    if (s.passes p).isSome then none
    else (startPass cfg H s.files now).map fun pass =>
      { s with passes := setPass s.passes p (some pass) }
  | .dispatch p o =>
    (s.passes p).bind fun pass => (pass.dispatch o).map fun (pass', replayed) =>
      { s with
        passes := setPass s.passes p (some pass')
        delivered := s.delivered ++ replayed.toList }
  | .finish p k =>
    (s.passes p).bind fun pass =>
      if pass.todo.isEmpty then
        (pass.commit H s.files k).map fun files =>
          { s with files := files, passes := setPass s.passes p none }
      else none
  | .abandon p => some { s with passes := setPass s.passes p none }

/-- At the start no pass runs, and no line of the spool is an envelope. -/
def Init (s : State) : Prop :=
  Plain s.files.spool ∧ s.seen = s.files.spool ∧ s.delivered = [] ∧ ∀ p, s.passes p = none

def system (H : Host) : LTS State Label := LTS.ofFn Init (step H)

end OpenBrain.Memory.Spool
