import OpenBrain.Bulk.Staging
import OpenBrain.Core.LTS
import OpenBrain.Core.PyJson

/-!
# Staging and ingest runs over one store (`apps/bulk/ingest.py`)

A process stages a source or sends what is pending, and may be killed in front of any of its writes
and behind any answer of the lane. The state holds the committed store, what the process that is
running has left to do, and a ghost log of the answered attempts.
-/
namespace OpenBrain.Bulk
open OpenBrain.Core OpenBrain.Core.Py

/-! ## The receipt -/

/-- mirrors ingest.py:53-73 -/
inductive ReceiptError where
  | counts | accounting | «namespace» | filtered
  deriving DecidableEq

namespace ReceiptError

/-- `RawIngestReceiptError._MESSAGES` -/
def message : ReceiptError → Str
  | .counts => units "raw ingest receipt is missing integer result counts"
  | .accounting => units "raw ingest receipt does not account for one turn"
  | .«namespace» => units "raw ingest receipt namespace mismatch"
  | .filtered => units "raw ingest receipt filtered the eligible turn"

/-- `type(error).__name__` -/
def className : ReceiptError → Str
  | .filtered => units "ServerFilteredTurnError"
  | _ => units "RawIngestReceiptError"

end ReceiptError

/-- An `int` that is no `bool`. -/
def readInt (receipt : Items) (key : Str) : Option Int :=
  match Members.get? receipt key with
  | some (.num (.int i)) => some i
  | _ => none

/-- mirrors ingest.py:256-282 -/
def validated_receipt (receipt : Items) (expected_namespace : Option Str) :
    Except ReceiptError (Int × Int × Str) :=
  match readInt receipt (units "ingested"), readInt receipt (units "duplicates"),
      readInt receipt (units "filtered") with
  | some ingested, some duplicates, some filtered =>
    if min ingested (min duplicates filtered) < 0 then .error .counts
    else if ingested + duplicates + filtered ≠ 1 then .error .accounting
    else
      match Members.get? receipt (units "namespace") with
      | some (.str ns) =>
        if expected_namespace.any (· ≠ ns) then .error .«namespace»
        else if filtered ≠ 0 then .error .filtered
        else .ok (ingested, duplicates, ns)
      | _ => .error .«namespace»
  | _, _, _ => .error .counts

/-- A receipt, or the class name of what the lane raised. -/
abbrev Answer := Except Str Items

/-- The namespace a validated receipt confirms, or the class name that is recorded. -/
def received (answer : Answer) (expected_namespace : Option Str) : Except Str Str :=
  match answer with
  | .error raised => .error raised
  | .ok receipt =>
    match validated_receipt receipt expected_namespace with
    | .error e => .error e.className
    | .ok (_, _, ns) => .ok ns

/-- The receipt accounts for exactly one turn, new or known and not filtered, in the namespace. -/
def OneTurn (receipt : Items) (expected_namespace : Option Str) : Prop :=
  ∃ ingested duplicates ns, readInt receipt (units "ingested") = some ingested ∧
    readInt receipt (units "duplicates") = some duplicates ∧
    readInt receipt (units "filtered") = some 0 ∧ 0 ≤ ingested ∧ 0 ≤ duplicates ∧
    ingested + duplicates = 1 ∧ Members.get? receipt (units "namespace") = some (.str ns) ∧
    ∀ expected ∈ expected_namespace, expected = ns

theorem validated_receipt_ok {receipt : Items} {expected_namespace : Option Str}
    {r : Int × Int × Str} (h : validated_receipt receipt expected_namespace = .ok r) :
    OneTurn receipt expected_namespace := by
  unfold validated_receipt at h
  split at h
  · rename_i ingested duplicates filtered hi hd hf
    split at h
    · cases h
    · rename_i hpos
      split at h
      · cases h
      · rename_i hsum
        split at h
        · rename_i ns hns
          split at h
          · cases h
          · rename_i hexp
            split at h
            · cases h
            · rename_i hz
              have hz : filtered = 0 := not_not.mp hz
              subst hz
              refine ⟨ingested, duplicates, ns, hi, hd, hf, by omega, by omega, by omega, hns, ?_⟩
              intro expected he
              cases Option.mem_def.mp he
              simpa using hexp
        · cases h
  · cases h

/-! ## Runs -/

variable {T : Type}

/-- An answered call of the lane. -/
structure Attempt (T : Type) where
  turn : T
  expected_namespace : Option Str
  answer : Answer

def Attempt.delivered (a : Attempt T) : Bool :=
  match received a.answer a.expected_namespace with
  | .ok _ => true
  | .error _ => false

theorem Attempt.oneTurn {a : Attempt T} (h : a.delivered = true) :
    ∃ receipt, a.answer = .ok receipt ∧ OneTurn receipt a.expected_namespace := by
  unfold Attempt.delivered received at h
  cases ha : a.answer with
  | error raised => simp [ha] at h
  | ok receipt =>
    refine ⟨receipt, rfl, ?_⟩
    cases hv : validated_receipt receipt a.expected_namespace with
    | error e => simp [ha, hv] at h
    | ok r => exact validated_receipt_ok hv

/-- What the process has left to do. `staging` holds the open transaction and the turns the parser
has not yielded; `marking`, `clearing` and `setting` are the writes behind an answer. -/
inductive Run (T : Type) where
  | idle
  | staging (working : Store T) (start staged : Nat) (rest : List T)
  | sending (rest : List T) (receipt_namespace : Option Str)
  | marking (turn : T) (rest : List T) (receipt_namespace : Option Str)
  | clearing (turn : T) (rest : List T) (receipt_namespace : Option Str)
  | setting (turn : T) (error : Str) (rest : List T) (receipt_namespace : Option Str)

structure State (T : Type) where
  store : Store T
  run : Run T
  /-- ghost: every answered call of the lane -/
  log : List (Attempt T)

/-- No file yet and no process. -/
def State.new : State T := ⟨.empty, .idle, []⟩

inductive Label (T : Type) where
  | stage (turns : List T)
  | stageTurn
  | raise
  | commit
  | ingest (expected_namespace : Option Str)
  | answer (answer : Answer)
  | update
  | delete
  | quarantine
  | finish
  | kill

variable [DecidableEq T] (turn_uuid : T → Str)

/-- `namespace or receipt_namespace`: an empty name is none. -/
def nextNamespace (ns : Str) (receipt_namespace : Option Str) : Option Str :=
  if ns.isEmpty then receipt_namespace else some ns

/-- One write of the process that runs, one answer of the lane, the start of a process or its end;
mirrors ingest.py:107-128, 162-253 -/
def step (s : State T) (l : Label T) : Option (State T) :=
  match s.run, l with
  | .idle, .stage turns => some { s with run := .staging s.store (next_index s.store) 0 turns }
  | .staging working start staged (turn :: rest), .stageTurn =>
    match stage_turn turn_uuid working (start + staged) turn with
    -- the exception leaves the `with` block, which rolls back
    | none => some { s with run := .idle }
    | some (working, count) => some { s with run := .staging working start (staged + count) rest }
  | .staging _ _ _ _, .raise => some { s with run := .idle }
  | .staging working _ _ [], .commit => some { s with store := working, run := .idle }
  | .idle, .ingest expected_namespace =>
    some { s with run := .sending (pending s.store) expected_namespace }
  | .sending (turn :: rest) receipt_namespace, .answer answer =>
    let log := s.log ++ [⟨turn, receipt_namespace, answer⟩]
    match received answer receipt_namespace with
    | .ok ns =>
      some { s with run := .marking turn rest (nextNamespace ns receipt_namespace), log := log }
    | .error error => some { s with run := .setting turn error rest receipt_namespace, log := log }
  | .marking turn rest ns, .update =>
    some { s with store := markUpdate turn_uuid s.store (turn_uuid turn), run := .clearing turn rest ns }
  | .clearing turn rest ns, .delete =>
    some { s with store := release s.store (turn_uuid turn), run := .sending rest ns }
  | .setting turn error rest ns, .quarantine =>
    some { s with store := quarantine turn_uuid s.store turn error, run := .sending rest ns }
  | .sending [] _, .finish => some { s with run := .idle }
  | .idle, .kill => none
  | _, .kill => some { s with run := .idle }
  | _, _ => none

/-- Staging and ingest processes one behind the other over one store. -/
def bulk : LTS (State T) (Label T) := LTS.ofFn (· = .new) (step turn_uuid)

end OpenBrain.Bulk
