import OpenBrain.Core.LTS
import OpenBrain.Server.Distill.Exchange

/-!
# The exchange sweep (`server/maintenance/distill-exchange-run.ts`)

A run reads a window of the live turns, extracts its exchanges and writes each row unless its
namespace already holds its hash. The parts of an exchange hang on the head this run wrote; when
that head was there already they are skipped. A `Store` holds the two tables, and which exchanges
the runs so far have extracted.
-/
namespace OpenBrain.Server.Distill
open OpenBrain.Core

/-! ## The hash -/

/-- What the hash of a text is made of. -/
structure ContentHash where
  Digest : Type
  [decEq : DecidableEq Digest]
  toLowerCase : Str → Str
  sha256 : Str → Digest

attribute [instance] ContentHash.decEq

/-- mirrors db/content-hash.ts:41-44 -/
def normalizedContentHash (H : ContentHash) (text : Str) : H.Digest :=
  H.sha256 (replaceRuns Ecma.isSpace (fun _ => [unit ' ']) (Ecma.trim (H.toLowerCase text)))

/-! ## The tables -/

/-- A row of `candidate_memory`, as far as the sweep writes it. -/
structure CandidateRow (D : Type) where
  id : Uuid
  ns : Str
  content : Str
  content_hash : D
  source_turn_ids : List Uuid
  anchor_turn_id : Option Uuid
  operator_text : Option Str
  anchor_kind : Option AnchorKind
  parent_id : Option Uuid
  chunk_index : Option Nat
  deriving DecidableEq

section Statements

variable (H : ContentHash)

/-- mirrors db/distill-exchange-repository.ts:125-146 -/
def insertedRow (id : Uuid) (candidate : PreparedExchangeCandidate) (parentId : Option Uuid) :
    CandidateRow H.Digest where
  id := id
  ns := candidate.ns
  content := candidate.content
  content_hash := normalizedContentHash H candidate.content
  source_turn_ids := candidate.source_turn_ids
  anchor_turn_id := candidate.anchor_turn_id
  operator_text := candidate.operator_text
  anchor_kind := some candidate.anchor_kind
  parent_id := parentId
  chunk_index := candidate.chunk_index

def conflicts (candidates : List (CandidateRow H.Digest))
    (candidate : PreparedExchangeCandidate) : Bool :=
  candidates.any fun row => decide (row.ns = candidate.ns) &&
    decide (row.content_hash = normalizedContentHash H candidate.content)

/-- `ON CONFLICT (namespace, content_hash) DO NOTHING RETURNING id`, where `id` is the key the
row would get; a key in use refuses the statement.
mirrors db/distill-exchange-repository.ts:114-151 -/
def insertCandidate (candidates : List (CandidateRow H.Digest)) (id : Uuid)
    (candidate : PreparedExchangeCandidate) (parentId : Option Uuid) :
    Option (List (CandidateRow H.Digest) × Option Uuid) :=
  if conflicts H candidates candidate then some (candidates, none)
  else if candidates.any fun row => row.id = id then none
  else some (candidates ++ [insertedRow H id candidate parentId], some id)

/-- mirrors maintenance/distill-exchange-run.ts:187-220 -/
def persistOne (candidates : List (CandidateRow H.Digest)) (headId : Option Uuid) (id : Uuid)
    (candidate : PreparedExchangeCandidate) :
    Option (List (CandidateRow H.Digest) × Option Uuid) :=
  let isPart := candidate.chunk_index.isSome
  if isPart && headId.isNone then some (candidates, headId)
  else do
    let (candidates, inserted) ←
      insertCandidate H candidates id candidate (if isPart then headId else none)
    some (candidates, if isPart then headId else inserted)

/-- The loop of `persist`, from its `index`-th candidate on; `draw` is what the key's default
yields. mirrors maintenance/distill-exchange-run.ts:222-253 -/
def persist (draw : Nat → Uuid) : Nat → List PreparedExchangeCandidate →
    List (CandidateRow H.Digest) × Option Uuid → Option (List (CandidateRow H.Digest) × Option Uuid)
  | _, [], state => some state
  | index, candidate :: candidates, state => do
    let state ← persistOne H state.1 state.2 (draw index) candidate
    persist draw (index + 1) candidates state

end Statements

/-! ## The run -/

/-- mirrors maintenance/distill-exchange-run.ts:55-65 -/
structure ExchangeSweepDeps where
  ns : Option Str
  maxTurns : Option Number

/-- The bound of the read, as the `bigint` its placeholder is.
mirrors maintenance/distill-exchange-run.ts:324 -/
def turnLimit (deps : ExchangeSweepDeps) : Option Nat :=
  (Number.toInt (clamp 1 200000 (deps.maxTurns.getD (Number.ofInt 20000)))).map Int.toNat

/-- `retention_tier = 'live'` and the namespace, when one is given. -/
def inTurnWindow (deps : ExchangeSweepDeps) (row : RawTurn) : Bool :=
  decide (row.retention_tier = .live) && deps.ns.all fun ns => decide (row.ns = ns)

/-- mirrors db/distill-exchange-repository.ts:75-103 -/
def readTurnWindow (c : Collation) (turns : List RawTurn) (deps : ExchangeSweepDeps)
    (limit : Nat) : List DistillTurn :=
  ((ordered c (turns.filter (inTurnWindow deps))).take limit).map fun row => row.toDistillTurn

/-- The two tables; `extracted` is what the runs so far have cut. -/
structure Store (D : Type) where
  turns : List RawTurn
  candidates : List (CandidateRow D)
  extracted : List Exchange

inductive SweepAction where
  | append (row : RawTurn)
  | sweep (deps : ExchangeSweepDeps) (draw : Nat → Uuid)

section Run

variable (c : Collation) (H : ContentHash)

/-- A run that commits. mirrors maintenance/distill-exchange-run.ts:320-402 -/
def runExchangeSweep (deps : ExchangeSweepDeps) (draw : Nat → Uuid) (store : Store H.Digest) :
    Option (Store H.Digest) := do
  let limit ← turnLimit deps
  let turns := readTurnWindow c store.turns deps limit
  let (candidates, _) ← persist H draw 0 (extractExchanges turns) (store.candidates, none)
  some { store with
    candidates := candidates
    extracted := store.extracted ++ buildExchanges turns }

def sweepStep (store : Store H.Digest) : SweepAction → Option (Store H.Digest)
  | .append row =>
    if store.turns.any fun r => r.id = row.id then none
    else some { store with turns := store.turns ++ [row] }
  | .sweep deps draw => runExchangeSweep c H deps draw store

/-- Before the first run: no exchange has been extracted and no row is a part. -/
def beforeSweeps (store : Store H.Digest) : Prop :=
  store.extracted = [] ∧ (store.candidates.map fun row => row.id).Nodup ∧
    ∀ row ∈ store.candidates, row.chunk_index = none

def exchangeSweeps : LTS (Store H.Digest) SweepAction :=
  LTS.ofFn (beforeSweeps H) (sweepStep c H)

end Run

end OpenBrain.Server.Distill
