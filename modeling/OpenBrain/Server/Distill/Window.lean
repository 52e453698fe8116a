import OpenBrain.Core.Window
import OpenBrain.Core.Utf16
import Mathlib.Data.List.Sort
import Mathlib.Data.Prod.Lex
import Mathlib.Data.Rat.Cast.Order
import Mathlib.Order.WithBot
import Mathlib.Data.Int.ConditionallyCompleteOrder

/-!
# Extraction units with context (`server/domain/distill-window.ts`)

A unit is a current turn with the turns before it. `claimRows` is the claim's statement over the
table of raw turns, `buildUnits` the walk over its rows, which looks at `session_ref` alone.
-/
namespace OpenBrain.Server.Distill
open OpenBrain.Core

/-- A primary key, ordered as its bytes are. -/
abbrev Uuid := Nat

/-- mirrors distill-window.ts:14-24; `ns` is `namespace`, the instants are in microseconds -/
structure DistillTurn where
  id : Uuid
  ns : Str
  session_ref : Option Str
  session_seq : Option Int
  role : Str
  content : Str
  repo : Option Str
  occurred_at : Option Int
  is_human_prompt : Bool
  deriving DecidableEq

/-- mirrors distill-window.ts:35-38 -/
structure DistillUnit where
  current : DistillTurn
  context : List DistillTurn
  deriving DecidableEq

/-- mirrors raw-turn-roles.ts:50 -/
def NON_SPEECH_ROLES : List Str := [units "tool", units "system"]
def DEFAULT_CONTEXT_WINDOW : Int := 3
def DEFAULT_MAX_DISTILL_SESSIONS : Int := 4

/-- mirrors distill-window.ts:56-58 -/
def isSpeech (role : Str) : Bool := !NON_SPEECH_ROLES.contains role

/-! ## Numbers -/

/-- A number: `none` is `NaN`, the bounds are the infinities. -/
abbrev Number := Option (WithBot (WithTop ℚ))

def Number.ofInt (n : Int) : Number := some ((n : ℚ) : WithTop ℚ)

/-- `Math.min(Math.max(x, lo), hi)` -/
def clamp (lo hi : Int) (x : Number) : Number :=
  x.map fun v => min (max v ((lo : ℚ) : WithTop ℚ)) ((hi : ℚ) : WithTop ℚ)

/-- The integer a parameter of an integer type is read as; anything else refuses the
statement. -/
def Number.toInt : Number → Option Int
  | some (some (some q)) => if q.den = 1 then some q.num else none
  | some (some none) | some none | none => none

/-- `Math.max(0, Math.trunc(x))`, when a length is compared with it: `none` bounds nothing. -/
def windowOf : Number → Option Nat
  | some (some (some q)) => some (q.num / q.den).toNat
  | some (some none) => none
  | some none | none => some 0

/-! ## `buildUnits` -/

/-- The loop of distill-window.ts:90-95, over the turns behind the current one. -/
def walkBack (current : DistillTurn) (window : Option Nat) : List DistillTurn → List DistillTurn
  | [] => []
  | prior :: earlier =>
    if window = some 0 ∨ prior.session_ref ≠ current.session_ref then []
    else prior :: walkBack current (window.map (· - 1)) earlier

/-- The loop of distill-window.ts:80-98, with the turns already passed, the last one first. -/
def unitsFrom (window : Option Nat) : List DistillTurn → List DistillTurn → List DistillUnit
  | _, [] => []
  | earlier, current :: later =>
    let units := unitsFrom window (current :: earlier) later
    if isSpeech current.role then
      { current, context := (walkBack current window earlier).reverse } :: units
    else units

/-- mirrors distill-window.ts:73-101 -/
def buildUnits (turns : List DistillTurn) (contextWindow : Number) : List DistillUnit :=
  unitsFrom (windowOf contextWindow) [] turns

/-! ## The claim -/

inductive RetentionTier where
  | live | unused | cold
  deriving DecidableEq

/-- A row of `ob_raw_turns`, as far as the claim reads it. -/
structure RawTurn extends DistillTurn where
  lane_id : Option Uuid
  distilled_at : Option Int
  retention_tier : RetentionTier
  deriving DecidableEq

/-- The table: the ids are a primary key. -/
structure RawTurns where
  rows : List RawTurn
  ids : (rows.map fun r => r.id).Nodup

/-- The order of texts. Texts that are equal in it are equal, as in every deterministic
collation. -/
structure Collation where
  Key : Type
  [order : LinearOrder Key]
  sortKey : Str → Key
  injective : Function.Injective sortKey

attribute [instance] Collation.order

/-- mirrors distill-window.ts:138-149; a lane is a text that may be no uuid -/
inductive LaneSelection where
  | every | unassigned | lane (id : Uuid) | malformed

structure ClaimDistillOptions where
  ns : Option Str
  laneId : LaneSelection
  maxSessions : Option Number
  maxTurns : Option Number
  contextWindow : Option Number

/-- The bound values, each read as the type its placeholder has.
mirrors distill-window.ts:164-210 -/
structure ClaimBindings where
  sessionLimit : Nat
  turnLimit : Nat
  contextLimit : Int

def buildClaimBindings (options : ClaimDistillOptions) : Option ClaimBindings := do
  let maxSessions ← Number.toInt
    (clamp 1 64 (options.maxSessions.getD (Number.ofInt DEFAULT_MAX_DISTILL_SESSIONS)))
  let maxTurns ← Number.toInt (clamp 1 20000 (options.maxTurns.getD (Number.ofInt 1500)))
  let context ← Number.toInt
    (clamp 0 64 (options.contextWindow.getD (Number.ofInt DEFAULT_CONTEXT_WINDOW)))
  match options.laneId with
  | .malformed => none
  | .every | .unassigned | .lane _ =>
    some ⟨maxSessions.toNat, maxTurns.toNat, context⟩

/-- `nsPredicate`, `lanePredicate` and the tier, which every part of the statement has. -/
def selected (options : ClaimDistillOptions) (row : RawTurn) : Bool :=
  decide (row.retention_tier = .live) &&
    (options.ns.all fun ns => decide (row.ns = ns)) &&
    match options.laneId with
    | .every | .malformed => true
    | .unassigned => row.lane_id.isNone
    | .lane id => decide (row.lane_id = some id)

/-- `distilled_at IS NULL` -/
def RawTurn.due (row : RawTurn) : Bool := row.distilled_at.isNone

def nullsLast {α : Type} (value : Option α) : WithTop α := value

/-- The key of `ORDER BY session_ref NULLS LAST, occurred_at NULLS LAST, id`. -/
def orderKey (c : Collation) (turn : DistillTurn) : WithTop c.Key ×ₗ WithTop Int ×ₗ Uuid :=
  toLex (nullsLast (turn.session_ref.map c.sortKey), toLex (nullsLast turn.occurred_at, turn.id))

def ordered (c : Collation) (rows : List RawTurn) : List RawTurn :=
  rows.insertionSort fun a b => orderKey c a.toDistillTurn ≤ orderKey c b.toDistillTurn

/-- `min` of a column, `NULL` when it has no value. -/
def minimum (values : List Int) : WithTop Int := (values.map fun v => (v : WithTop Int)).foldr min ⊤

/-- `due_sessions`. The order the aggregate hands its groups over in is the database's. -/
def dueSessions (db : RawTurns) (options : ClaimDistillOptions) (groups : List (Option Str))
    (limit : Nat) : List (Option Str) :=
  let due := db.rows.filter fun row => row.due && selected options row
  let first_due := fun session_ref : Option Str => minimum
    ((due.filter fun row => decide (row.session_ref = session_ref)).filterMap fun row => row.occurred_at)
  ((groups.filter fun session_ref => due.any fun row => decide (row.session_ref = session_ref)
    ).insertionSort fun a b => first_due a ≤ first_due b).take limit

/-- `due_turns` -/
def dueTurns (c : Collation) (db : RawTurns) (options : ClaimDistillOptions)
    (sessions : List (Option Str)) (limit : Nat) : List RawTurn :=
  (ordered c (db.rows.filter fun row =>
    row.due && selected options row && sessions.contains row.session_ref)).take limit

/-- `context_bounds` of a session, when it has one; the difference must be an `int`. -/
def contextBounds (due_turns : List RawTurn) (contextLimit : Int) (session_ref : Option Str) :
    Option (Int × Int) :=
  let seqs := (due_turns.filter fun row => decide (row.session_ref = session_ref)).filterMap
    fun row => row.session_seq
  match seqs with
  | [] => none
  | seq :: rest => some (rest.foldl min seq - contextLimit, rest.foldl max seq)

def inContext (options : ClaimDistillOptions) (due_turns : List RawTurn) (contextLimit : Int)
    (row : RawTurn) : Bool :=
  selected options row &&
    match row.session_seq, contextBounds due_turns contextLimit row.session_ref with
    | some seq, some (low, high) => decide (low ≤ seq ∧ seq ≤ high)
    | _, _ => false

/-- `SELECT * FROM due_turns UNION SELECT * FROM context_turns` -/
def claimed (c : Collation) (db : RawTurns) (options : ClaimDistillOptions)
    (groups : List (Option Str)) (bindings : ClaimBindings) (row : RawTurn) : Bool :=
  let sessions := dueSessions db options groups bindings.sessionLimit
  let due_turns := dueTurns c db options sessions bindings.turnLimit
  due_turns.contains row || inContext options due_turns bindings.contextLimit row

/-- A lower bound is below what an `int` holds. -/
def outOfRange (c : Collation) (db : RawTurns) (options : ClaimDistillOptions)
    (groups : List (Option Str)) (bindings : ClaimBindings) : Bool :=
  let sessions := dueSessions db options groups bindings.sessionLimit
  let due_turns := dueTurns c db options sessions bindings.turnLimit
  due_turns.any fun row => (contextBounds due_turns bindings.contextLimit row.session_ref).any
    fun b => decide (b.1 < -2 ^ 31)

/-- The rows of the statement, `none` when it is refused. mirrors distill-window.ts:315-367 -/
def claimRows (c : Collation) (db : RawTurns) (options : ClaimDistillOptions)
    (groups : List (Option Str)) : Option (List RawTurn) := do
  let bindings ← buildClaimBindings options
  if outOfRange c db options groups bindings then none
  else some (ordered c (db.rows.filter (claimed c db options groups bindings)))

/-- mirrors distill-window.ts:104-116 -/
structure DistillBatch where
  units : List DistillUnit
  consumedTurnIds : List Uuid
  missingSessionSeq : Nat

/-- mirrors distill-window.ts:255-381 -/
def claimDistillBatch (c : Collation) (db : RawTurns) (options : ClaimDistillOptions)
    (groups : List (Option Str)) : Option DistillBatch := do
  let rows ← claimRows c db options groups
  let turns := rows.map fun row => row.toDistillTurn
  let due := (rows.filter fun row => row.due).map fun row => row.id
  let allUnits := buildUnits turns (options.contextWindow.getD (Number.ofInt DEFAULT_CONTEXT_WINDOW))
  some
    { units := allUnits.filter fun u => due.contains u.current.id
      consumedTurnIds := (turns.filter fun t => due.contains t.id).map fun t => t.id
      missingSessionSeq := (turns.filter fun t => t.session_seq.isNone).length }

end OpenBrain.Server.Distill
