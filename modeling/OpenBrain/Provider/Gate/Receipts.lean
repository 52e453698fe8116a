import OpenBrain.Core.Assoc
import OpenBrain.Core.Utf16
import Mathlib.Data.List.Sort

/-!
# Receipts as the gate reads them (`receipt_state.py`)

The evidence that a durable write or a recall happened, and the compaction cycle of a session.
The gate reads receipts and writes one thing, the cycle it joins or opens. Entries that are
malformed or off-contract are no evidence, so the store holds none.
-/
namespace OpenBrain.Provider.Gate
open OpenBrain.Core

/-- A point in time, in microseconds. -/
abbrev Instant := Int

def seconds (n : Int) : Int := n * 1000000

/-- `text.replace("Z", "+00:00") if text.endswith("Z") else text` -/
def withOffset (text : Str) : Str :=
  if text.getLast? = some (unit 'Z') then
    text.flatMap fun u => if u = unit 'Z' then units "+00:00" else [u]
  else text

/-- mirrors receipt_state.py:116-136 -/
def parseWith (fromisoformat : Str → Option Instant) (value : Str) : Option Instant :=
  if value = [] then none else fromisoformat (withOffset value)

/-- The library's reading of a timestamp, a naive one taken for UTC, and the writing of an
instant in milliseconds; what was written reads back. -/
structure Calendar where
  fromisoformat : Str → Option Instant
  iso : Instant → Str
  parse_iso : ∀ t, parseWith fromisoformat (iso t) = some (t / 1000 * 1000)

def Calendar.parse (cal : Calendar) (value : Str) : Option Instant :=
  parseWith cal.fromisoformat value

@[simp] theorem Calendar.parse_iso' (cal : Calendar) (t : Instant) :
    cal.parse (cal.iso t) = some (t / 1000 * 1000) := cal.parse_iso t

/-- mirrors receipt_state.py:137-164 -/
structure ReceiptEvidence where
  operation : Str
  mode : Str
  status : Str
  project : Str
  session_id : Str
  trigger : Str
  recorded_at : Str
  correlation_id : Option Str
  deriving DecidableEq

/-- mirrors evidence.py:96-98 -/
inductive CompactCycleParticipant where
  | pre_compact | post_compact | session_start | gate
  deriving DecidableEq

/-- A stored cycle. mirrors receipt_state.py:167-183, evidence.py:183-230 -/
structure CompactCycle where
  id : Str
  project : Str
  session_id : Str
  started_at : Str
  participants : List CompactCycleParticipant
  attempted_participants : List CompactCycleParticipant
  verified_recall_at : Option Str
  deriving DecidableEq

/-- The receipt state of one file, by session id. -/
structure ReceiptState where
  sessions : List (Str × List (Str × ReceiptEvidence))
  triggerReceipts : List (Str × List (Str × ReceiptEvidence))
  compactCycles : List (Str × CompactCycle)
  deriving DecidableEq

def COMPACT_CYCLE_MAX_AGE : Int := seconds (20 * 60)
def VERIFIED_RECALL_MAX_AGE : Int := seconds (2 * 60)
def DEFAULT_RECEIPT_MAX_AGE : Int := seconds (20 * 60)

/-- `[0-9a-f]` -/
def isHexDigit (u : UInt16) : Bool := (unit '0' ≤ u && u ≤ unit '9') || (unit 'a' ≤ u && u ≤ unit 'f')

def CORRELATION_ID_PATTERN : List (UInt16 → Bool) :=
  let hex := fun n => List.replicate n isHexDigit
  let is := fun c : Char => [fun u : UInt16 => u == unit c]
  hex 8 ++ is '-' ++ hex 4 ++ is '-' ++ is '4' ++ hex 3 ++ is '-' ++
    [fun u => (units "89ab").contains u] ++ hex 3 ++ is '-' ++ hex 12

/-- The pattern up to the end of the text, or to a line feed that ends it.
mirrors receipt_state.py:104-113 -/
def is_correlation_id (value : Str) : Bool :=
  let body := if value.getLast? = some (unit '\n') then value.dropLast else value
  body.length == CORRELATION_ID_PATTERN.length &&
    (CORRELATION_ID_PATTERN.zip body).all fun p => p.1 p.2

/-- mirrors receipt_state.py:260-295 -/
def session_candidates (state : ReceiptState) (session_id : Str) : List ReceiptEvidence :=
  ((state.sessions.lookup session_id).getD []).map Prod.snd ++
    ((state.triggerReceipts.lookup session_id).getD []).map Prod.snd

/-- What a caller of `find_fresh_receipt` asks for; a `project` or `after` that is empty asks
for nothing. -/
structure ReceiptQuery where
  modes : List Str
  operations : List Str
  project : Str
  after : Str
  max_age : Int

/-- mirrors receipt_state.py:298-354 -/
def find_fresh_receipt (cal : Calendar) (state : ReceiptState) (session_id : Str)
    (query : ReceiptQuery) (now : Instant) : Option ReceiptEvidence :=
  let after_time := cal.parse query.after
  let qualifying := (session_candidates state session_id).filterMap fun evidence =>
    match cal.parse evidence.recorded_at with
    | none => none
    | some recorded =>
      if query.operations.contains evidence.operation &&
          (after_time.all fun after => decide (after ≤ recorded)) &&
          decide (now - recorded ≤ query.max_age) &&
          (query.project == [] || evidence.project == query.project) &&
          query.modes.contains evidence.mode
      then some (recorded, evidence) else none
  ((qualifying.insertionSort fun a b => b.1 ≤ a.1).head?).map Prod.snd

/-- mirrors receipt_state.py:381-413 -/
def current_compact_cycle (cal : Calendar) (state : ReceiptState) (session_id project : Str)
    (max_age : Int) (now : Instant) : Option CompactCycle :=
  match state.compactCycles.lookup session_id with
  | none => none
  | some cycle =>
    if cycle.project ≠ project then none
    else
      match cal.parse cycle.started_at with
      | none => none
      | some started => if max_age < now - started then none else some cycle

/-- mirrors receipt_state.py:419-458 -/
def has_verified_compact_recall (cal : Calendar) (state : ReceiptState)
    (session_id project correlation_id : Str) (max_age : Int) (now : Instant) : Bool :=
  is_correlation_id correlation_id &&
    match state.compactCycles.lookup session_id with
    | none => false
    | some cycle =>
      decide (cycle.project = project ∧ cycle.id = correlation_id) &&
        (cycle.verified_recall_at.bind cal.parse).any fun recalled =>
          decide (now - recalled ≤ max_age)

/-- mirrors receipt_state.py:684-702 -/
def record_attempt (cycle : CompactCycle) (participant : CompactCycleParticipant) : CompactCycle :=
  if cycle.attempted_participants.contains participant then cycle
  else { cycle with attempted_participants := cycle.attempted_participants ++ [participant] }

/-- `cycles[session_id] = cycle` -/
def ReceiptState.setCycle (state : ReceiptState) (session_id : Str) (cycle : CompactCycle) :
    ReceiptState :=
  { state with compactCycles := Assoc.set state.compactCycles session_id cycle }

def openedCycle (cal : Calendar) (session_id project fresh : Str) (now : Instant) : CompactCycle where
  id := fresh
  project := project
  session_id := session_id
  started_at := cal.iso now
  participants := []
  attempted_participants := [.gate]
  verified_recall_at := none

/-- The cycle and the state written, `none` when the lock was not to be had. `fresh` is the new
id, should one be drawn. mirrors receipt_state.py:609-681 -/
def gate_compact_cycle (cal : Calendar) (state : ReceiptState) (session_id project fresh : Str)
    (locked : Bool) (now : Instant) : Option (CompactCycle × ReceiptState) :=
  if !locked then none
  else
    match current_compact_cycle cal state session_id project COMPACT_CYCLE_MAX_AGE now with
    | some existing =>
      some (existing, state.setCycle session_id (record_attempt existing .gate))
    | none =>
      let cycle := openedCycle cal session_id project fresh now
      some (cycle, state.setCycle session_id cycle)

/-! ## What a cycle is -/

variable {cal : Calendar} {state state' : ReceiptState} {session_id project fresh : Str}
  {cycle : CompactCycle} {max_age : Int} {locked : Bool} {now : Instant}

theorem current_compact_cycle_some
    (h : current_compact_cycle cal state session_id project max_age now = some cycle) :
    state.compactCycles.lookup session_id = some cycle ∧ cycle.project = project ∧
      ∃ started, cal.parse cycle.started_at = some started ∧ now - started ≤ max_age := by
  unfold current_compact_cycle at h
  split at h
  · cases h
  · rename_i stored hl
    split at h
    · cases h
    · rename_i hp
      split at h
      · cases h
      · rename_i started hs
        split at h
        · cases h
        · rename_i hage
          cases h
          exact ⟨hl, not_not.mp hp, started, hs, not_lt.mp hage⟩

theorem gate_compact_cycle_some
    (h : gate_compact_cycle cal state session_id project fresh locked now = some (cycle, state')) :
    (current_compact_cycle cal state session_id project COMPACT_CYCLE_MAX_AGE now = some cycle ∧
      state' = state.setCycle session_id (record_attempt cycle .gate)) ∨
    (cycle = openedCycle cal session_id project fresh now ∧
      state' = state.setCycle session_id cycle) := by
  unfold gate_compact_cycle at h
  split at h
  · cases h
  · split at h
    · rename_i existing hc
      cases h
      exact .inl ⟨hc, rfl⟩
    · cases h
      exact .inr ⟨rfl, rfl⟩

end OpenBrain.Provider.Gate
