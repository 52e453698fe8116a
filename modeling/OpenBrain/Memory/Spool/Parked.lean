import OpenBrain.Memory.Spool.Exactness
import Mathlib.Logic.Function.Basic

/-!
# Runtimes over one spool (`_runtime_spool.py`, `_drain_spool`)

Every runtime writes through its own `TrackingSpool` and drains the common spool file. A
write stamps the payload with the runtime's namespace (`parked`); a lane prerequisite
(`session_start`) is held back and appended in one batch with the write that follows it. A
drain takes the units of a pass through the dispatcher (`dispatch`), which retains a unit
whose stamp is another namespace and hands the other records to the router.

`Shared.step` is the system of any number of runtimes. Two fields of its states are not on
disk: under which namespace each idempotency key was written, and what the router was handed.
The router's answers are given with the step (`Routed`), and so are the new keys: a key that
was written is not drawn again.
-/
namespace OpenBrain.Memory.Spool
open OpenBrain.Core OpenBrain.Core.Py

/-! ## Stamping -/

/-- mirrors _runtime_spool.py:14 -/
def PARKED_NAMESPACE_KEY : Str := units "_parked_namespace"

/-- What `_call_write` is called for (agent.py). -/
inductive Operation where
  | session_start
  | lane_upsert
  | upsert_repo_fact
  | append_session_event
  | ingest_raw_turn
  | log_thought
  | log_decision
  | session_wrap
  deriving DecidableEq

def Operation.name : Operation → Str
  | .session_start => units "session_start"
  | .lane_upsert => units "lane_upsert"
  | .upsert_repo_fact => units "upsert_repo_fact"
  | .append_session_event => units "append_session_event"
  | .ingest_raw_turn => units "ingest_raw_turn"
  | .log_thought => units "log_thought"
  | .log_decision => units "log_decision"
  | .session_wrap => units "session_wrap"

/-- mirrors runtime.py:141-152 -/
def REPLAYABLE_SPOOL_OPERATIONS : List Str :=
  [units "session_start", units "lane_upsert", units "upsert_repo_fact",
    units "append_session_event", units "ingest_raw_turn", units "log_thought",
    units "log_decision", units "session_wrap"]

theorem set_eq (ms : Items) (k : Str) (v : PyJson) : Members.set ms k v = Assoc.set ms k v := by
  induction ms with
  | nil => rfl
  | cons m ms ih =>
    obtain ⟨l, w⟩ := m
    simp only [Members.set, Assoc.set, ih]

/-- A dict with a string assigned is a dict. -/
theorem set_value {ms : Items} (h : IsValue (.obj ms)) (k s : Str) :
    IsValue (.obj (Members.set ms k (.str s))) := by
  obtain ⟨hkeys, hvalues⟩ := h
  rw [set_eq]
  refine ⟨Assoc.nodup_set hkeys k _, ?_⟩
  rw [Json.allMembers_iff] at hvalues ⊢
  intro m hm
  rcases (Assoc.mem_set_iff hkeys k _ m).mp hm with rfl | ⟨hm, -⟩
  · trivial
  · exact hvalues m hm

/-- mirrors _runtime_spool.py:72-85 (`_parked`) -/
def parked («namespace» : Option Str) (payload : Payload) : Payload :=
  match «namespace» with
  | none => payload
  | some ns => ⟨Members.set payload.1 PARKED_NAMESPACE_KEY (.str ns),
      set_value payload.2 PARKED_NAMESPACE_KEY ns⟩

/-- A runtime: the limits of its `JsonlSpool`, its configured namespace and the prerequisite
its `TrackingSpool` holds back. -/
structure Runtime where
  spool : Config
  «namespace» : Str
  pending_start : Option BatchRecord

def Runtime.record (t : Runtime) (operation : Operation) (payload : Payload) (key : Option Str) :
    BatchRecord :=
  ⟨operation.name, parked (some t.«namespace») payload, key⟩

/-- The batch a write other than `session_start` appends. -/
def Runtime.batch (t : Runtime) (operation : Operation) (payload : Payload) (key : Option Str)
    (created_at : Double) (hex : Nat → Str) : Batch :=
  ⟨t.pending_start.toList ++ [t.record operation payload key], created_at, hex⟩

/-! ## Dispatching -/

/-- mirrors _runtime_validation.py:21 -/
def MAX_DISTILLED_CONTENT_BYTES : Nat := 2 ^ 53 - 1

/-- mirrors _runtime_validation.py:816-828 (`persisted_text`): whether the value is taken;
a lone surrogate has no UTF-8 -/
def persistedText (secretLike : Str → Bool) : PyJson → Bool
  | .str s => !isBlank s && Utf8.wellPaired (strip s) &&
      decide ((Utf8.encode (strip s)).length ≤ MAX_DISTILLED_CONTENT_BYTES) && !secretLike (strip s)
  | _ => false

/-- mirrors runtime.py:155-169 (`_spooled_start_scope`): whether the payload carries a
complete exact scope -/
def spooledStartScope (secretLike : Str → Bool) (payload : Items) : Bool :=
  ([units "agent", units "platform", units "server_id", units "channel_id",
    units "session_key"].all fun name =>
      (Members.get? payload name).any (persistedText secretLike)) &&
  (getOrNone payload (units "thread_id")).all (persistedText secretLike)

/-- A call of the router: by the runtime of which namespace, for which record, with which
arguments. -/
structure Handed where
  «namespace» : Str
  record : SpoolRecord
  payload : Items

/-- The stamp of a record; a `null` is no stamp. -/
def SpoolRecord.stamp (record : SpoolRecord) : Option PyJson :=
  getOrNone record.payload PARKED_NAMESPACE_KEY

/-- Whether a record was parked under another namespace; one without a stamp was not. -/
def SpoolRecord.foreign (record : SpoolRecord) («namespace» : Str) : Bool :=
  match record.stamp with
  | none => false
  | some (.str parked_namespace) => decide (parked_namespace ≠ «namespace»)
  | some _ => true

def SpoolRecord.arguments (record : SpoolRecord) : Items :=
  record.payload.filter fun m => decide (m.1 ≠ PARKED_NAMESPACE_KEY)

/-- mirrors runtime.py:1207-1252 (`dispatch`): the call of the router, or what is raised
before it -/
def dispatch (secretLike : Str → Bool) («namespace» : Str) (record : SpoolRecord) :
    Except Dispatch Handed :=
  if record.operation ∉ REPLAYABLE_SPOOL_OPERATIONS then .error (.failed (units "ValueError"))
  else if record.foreign «namespace» then .error .retained
  else if record.operation = units "session_start" ∧
      ¬ spooledStartScope secretLike record.arguments then .error .retained
  else .ok ⟨«namespace», record, record.arguments⟩

/-- What the router does with a call: it returns, or it raises. -/
inductive Routed where
  | returned (result : PyJson)
  | raised (error_category : Str)

/-- What became of a unit in a drain: an outcome for each record that was dispatched, and the
calls of the router. -/
structure Served where
  outcomes : List Dispatch
  handed : List Handed

/-- mirrors spool.py:572-600: the records of a unit in order, up to one that does not
succeed; the third component is the router's answers to the units after it. -/
def serveUnit (secretLike : Str → Bool) («namespace» : Str) :
    List SpoolRecord → List Routed → Option (Served × List Routed)
  | [], answers => some (⟨[], []⟩, answers)
  | record :: records, answers =>
    match dispatch secretLike «namespace» record, answers with
    | .error raised, answers => some (⟨[raised], []⟩, answers)
    | .ok _, [] => none
    | .ok handed, .raised error_category :: answers =>
      some (⟨[.failed error_category], [handed]⟩, answers)
    | .ok handed, .returned result :: answers =>
      (serveUnit secretLike «namespace» records answers).map fun (served, answers) =>
        (⟨.ok result :: served.outcomes, handed :: served.handed⟩, answers)

def serve (secretLike : Str → Bool) («namespace» : Str) :
    List SpoolUnit → List Routed → Option (List (SpoolUnit × Served))
  | [], [] => some []
  | [], _ :: _ => none
  | unit :: units, answers =>
    (serveUnit secretLike «namespace» (unit.records.getD []) answers).bind
      fun (served, answers) =>
        (serve secretLike «namespace» units answers).map ((unit, served) :: ·)

/-! ## The system -/

structure Shared where
  drainer : Drainer
  runtimes : Nat → Runtime
  written : List (Str × Str)
  handed : List Handed

/-- What a runtime does: it begins another call (`TrackingSpool.reset`), writes, or drains. -/
inductive Action where
  | reset (p : Nat)
  | append (p : Nat) (operation : Operation) (payload : Payload) (key : Option Str)
    (created_at : Double) (hex : Nat → Str)
  | drain (p : Nat) (now : Double) (answers : List Routed)

def Runtime.hold (t : Runtime) (start : Option BatchRecord) : Runtime :=
  { t with pending_start := start }

def freshKeys (s : Shared) (b : Batch) : Bool :=
  b.safe_keys.all fun key => decide (key ∉ s.written.map Prod.fst)

namespace Shared

/-- mirrors _runtime_spool.py:38-70 (`append`) and runtime.py:1193-1256 (`_drain_spool`) -/
def step (H : Host) (secretLike : Str → Bool) (s : Shared) : Action → Option Shared
  | .reset p =>
    some { s with runtimes := Function.update s.runtimes p ((s.runtimes p).hold none) }
  | .append p operation payload key created_at hex =>
    let t := s.runtimes p
    if operation = .session_start then
      some { s with
        runtimes := Function.update s.runtimes p (t.hold (some (t.record operation payload key))) }
    else
      let b := t.batch operation payload key created_at hex
      if freshKeys s b then
        match appendBatch t.spool H s.drainer.files.spool b with
        | .ok _ => (Drainer.step t.spool H s.drainer (.append b)).map fun drainer =>
          { s with
            drainer := drainer
            runtimes := Function.update s.runtimes p (t.hold none)
            written := s.written ++ b.safe_keys.map fun key => (key, t.«namespace») }
        | .error _ => some s
      else none
  | .drain p now answers => do
    let t := s.runtimes p
    let snapshot ← parseUnits H s.drainer.files.spool
    let served ← serve secretLike t.«namespace» (dispatched snapshot) answers
    let drainer ← Drainer.step t.spool H s.drainer (.pass now (served.flatMap (·.2.outcomes)))
    some { s with drainer := drainer, handed := s.handed ++ served.flatMap (·.2.handed) }

/-- At the start the spool is empty, and no runtime holds a prerequisite. -/
def Init (s : Shared) : Prop :=
  Drainer.Init s.drainer ∧ (∀ p, (s.runtimes p).pending_start = none) ∧ s.written = [] ∧
    s.handed = []

def system (H : Host) (secretLike : Str → Bool) : LTS Shared Action :=
  LTS.ofFn Init (step H secretLike)

end Shared

end OpenBrain.Memory.Spool
