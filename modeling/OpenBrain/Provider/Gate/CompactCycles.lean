import OpenBrain.Core.PyJson
import OpenBrain.Provider.Gate.Receipts

/-!
# What the hooks write to the receipt file (`openbrain/receipts/state.py`)

A lifecycle hook joins the session's compaction cycle or opens one; a receipt that names the
cycle credits its participant, and a verified recall among them stamps the cycle. Both run under
the lock and replace the file as a whole.
-/
namespace OpenBrain.Provider.Gate
open OpenBrain.Core OpenBrain.Core.Py

def COORDINATE_ALPHABET : List UInt16 :=
  units "abcdefghijklmnopqrstuvwxyzABCDEFGHIJKLMNOPQRSTUVWXYZ0123456789._:@/-"
def COORDINATE_LONGEST : Nat := 200

/-- `value.strip()` -/
def strip (value : Str) : Str :=
  ((value.dropWhile isSpace).reverse.dropWhile isSpace).reverse

/-- `none` where it raises. mirrors state.py:542-565 -/
def safe_coordinate (value : Str) : Option Str :=
  let text := strip value
  if text = [] ∨ COORDINATE_LONGEST < text.length then none
  else if text.all fun u => COORDINATE_ALPHABET.contains u then some text
  else none

/-- mirrors evidence.py:233-254 -/
def CompactCycle.with_participant (cycle : CompactCycle) (participant : CompactCycleParticipant)
    (attempted : Bool) : CompactCycle :=
  if attempted then record_attempt cycle participant
  else if cycle.participants.contains participant then cycle
  else { cycle with participants := cycle.participants ++ [participant] }

/-- mirrors state.py:362-382 -/
def existing_cycle (cal : Calendar) (stored : Option CompactCycle) (project : Str)
    (now : Instant) : Option CompactCycle :=
  match stored with
  | none => none
  | some cycle =>
    if cycle.project ≠ project then none
    else
      match cal.parse cycle.started_at with
      | none => none
      | some started => if COMPACT_CYCLE_MAX_AGE < now - started then none else some cycle

/-- mirrors state.py:384-402 -/
def starts_new_cycle (existing : CompactCycle) : CompactCycleParticipant → Bool
  | .pre_compact => existing.attempted_participants.contains .pre_compact
  | .post_compact =>
    existing.attempted_participants.contains .post_compact &&
      existing.participants.contains .session_start
  | _ => false

/-- mirrors state.py:405-420 -/
def fresh_cycle (cal : Calendar) (session_id project fresh : Str)
    (participant : CompactCycleParticipant) (now : Instant) : CompactCycle where
  id := fresh
  project := project
  session_id := session_id
  started_at := cal.iso now
  participants := []
  attempted_participants := [participant]
  verified_recall_at := none

/-- The state written, `none` where it raises and writes nothing. mirrors state.py:200-240 -/
def attach_compact_cycle (cal : Calendar) (state : ReceiptState) (session_id project fresh : Str)
    (participant : CompactCycleParticipant) (now : Instant) : Option ReceiptState := do
  let session_id ← safe_coordinate session_id
  let project ← safe_coordinate project
  let cycle :=
    match existing_cycle cal (state.compactCycles.lookup session_id) project now with
    | some existing =>
      if starts_new_cycle existing participant then
        fresh_cycle cal session_id project fresh participant now
      else existing.with_participant participant true
    | none => fresh_cycle cal session_id project fresh participant now
  some (state.setCycle session_id cycle)

/-- mirrors evidence.py:169-180 -/
def ReceiptEvidence.trigger_key (receipt : ReceiptEvidence) : Str :=
  let correlation :=
    match receipt.correlation_id with
    | some id => if id = [] then units "uncorrelated" else id
    | none => units "uncorrelated"
  receipt.operation ++ units ":" ++ receipt.trigger ++ units ":" ++ correlation

/-- mirrors state.py:283-304 -/
def file_receipt (state : ReceiptState) (receipt : ReceiptEvidence) : ReceiptState :=
  let session := (state.sessions.lookup receipt.session_id).getD []
  let per_session := (state.triggerReceipts.lookup receipt.session_id).getD []
  { state with
    sessions := Assoc.set state.sessions receipt.session_id
      (Assoc.set session receipt.operation receipt)
    triggerReceipts := Assoc.set state.triggerReceipts receipt.session_id
      (Assoc.set per_session receipt.trigger_key receipt) }

/-- mirrors state.py:338-358 -/
def compact_participant (receipt : ReceiptEvidence) : Option CompactCycleParticipant :=
  if receipt.mode = units "failed" then none
  else if receipt.operation = units "checkpoint" ∧ receipt.trigger = units "pre-compact" then
    some .pre_compact
  else if receipt.operation = units "checkpoint" ∧ receipt.trigger = units "post-compact" then
    some .post_compact
  else if receipt.operation = units "recall" ∧ receipt.trigger = units "compact" then
    some .session_start
  else none

def ReceiptEvidence.isVerifiedRecall (receipt : ReceiptEvidence) : Bool :=
  decide (receipt.operation = units "recall" ∧ receipt.trigger = units "compact" ∧
    receipt.mode = units "verified-remote")

def credited (cycle : CompactCycle) (receipt : ReceiptEvidence) : CompactCycle :=
  let cycle :=
    match compact_participant receipt with
    | some participant => cycle.with_participant participant false
    | none => cycle
  if receipt.isVerifiedRecall then { cycle with verified_recall_at := some receipt.recorded_at }
  else cycle

def ReceiptEvidence.names (receipt : ReceiptEvidence) (cycle : CompactCycle) : Bool :=
  receipt.correlation_id == some cycle.id && receipt.project == cycle.project

/-- mirrors state.py:307-335 -/
def credit_cycle (state : ReceiptState) (receipt : ReceiptEvidence) : ReceiptState :=
  match state.compactCycles.lookup receipt.session_id with
  | none => state
  | some cycle =>
    if receipt.names cycle then state.setCycle receipt.session_id (credited cycle receipt)
    else state

/-- The receipt as filed, `none` where it raises. -/
def filed (receipt : ReceiptEvidence) : Option ReceiptEvidence := do
  let session_id ← safe_coordinate receipt.session_id
  let project ← safe_coordinate receipt.project
  some { receipt with
    session_id := session_id
    project := project }

/-- The state written, `none` where it raises and writes nothing. mirrors state.py:243-281 -/
def record_provider_receipt (state : ReceiptState) (receipt : ReceiptEvidence) :
    Option ReceiptState :=
  (filed receipt).map fun receipt => credit_cycle (file_receipt state receipt) receipt

def stamps (state : ReceiptState) (receipt : ReceiptEvidence) : Bool :=
  receipt.isVerifiedRecall &&
    (state.compactCycles.lookup receipt.session_id).any receipt.names

/-! ## What they leave of a cycle -/

/-- A cycle after it is joined or credited: the same, unless a verified recall stamps it. -/
structure SameCycle (cycle cycle' : CompactCycle) : Prop where
  id : cycle'.id = cycle.id
  verified : cycle'.verified_recall_at = cycle.verified_recall_at

theorem same_record_attempt (cycle : CompactCycle) (participant : CompactCycleParticipant) :
    SameCycle cycle (record_attempt cycle participant) := by
  unfold record_attempt
  split <;> exact ⟨rfl, rfl⟩

theorem same_with_participant (cycle : CompactCycle) (participant : CompactCycleParticipant)
    (attempted : Bool) : SameCycle cycle (cycle.with_participant participant attempted) := by
  unfold CompactCycle.with_participant
  split
  · exact same_record_attempt cycle participant
  · split <;> exact ⟨rfl, rfl⟩

variable {cal : Calendar} {state state' : ReceiptState}

theorem existing_cycle_stored {stored : Option CompactCycle} {project : Str} {now : Instant}
    {cycle : CompactCycle} (h : existing_cycle cal stored project now = some cycle) :
    stored = some cycle := by
  unfold existing_cycle at h
  split at h
  · cases h
  · split at h
    · cases h
    · split at h
      · cases h
      · split at h
        · cases h
        · cases h
          rfl

/-- After a hook has joined, a cycle is one that was there, or it has no verified recall. -/
theorem attach_cycle {session_id project fresh : Str} {participant : CompactCycleParticipant}
    {now : Instant} (h : attach_compact_cycle cal state session_id project fresh participant now =
      some state') {key : Str} {cycle' : CompactCycle}
    (hl : state'.compactCycles.lookup key = some cycle') :
    cycle'.verified_recall_at = none ∨
      ∃ cycle, state.compactCycles.lookup key = some cycle ∧ SameCycle cycle cycle' := by
  unfold attach_compact_cycle at h
  obtain ⟨session_id, -, h⟩ := Option.bind_eq_some_iff.mp h
  obtain ⟨project, -, h⟩ := Option.bind_eq_some_iff.mp h
  cases h
  unfold ReceiptState.setCycle at hl
  rw [Assoc.lookup_set] at hl
  split at hl
  · rename_i hkey
    subst hkey
    cases hl
    split
    · rename_i existing hex
      split
      · exact .inl rfl
      · exact .inr ⟨existing, existing_cycle_stored hex, same_with_participant _ _ _⟩
    · exact .inl rfl
  · exact .inr ⟨cycle', hl, rfl, rfl⟩

theorem credited_id (cycle : CompactCycle) (receipt : ReceiptEvidence) :
    (credited cycle receipt).id = cycle.id ∧
      (receipt.isVerifiedRecall = false →
        (credited cycle receipt).verified_recall_at = cycle.verified_recall_at) := by
  have hsame : SameCycle cycle (match compact_participant receipt with
      | some participant => cycle.with_participant participant false
      | none => cycle) := by
    split
    · exact same_with_participant _ _ _
    · exact ⟨rfl, rfl⟩
  unfold credited
  dsimp only
  split
  · rename_i hv
    refine ⟨hsame.id, fun hn => ?_⟩
    rw [hv] at hn
    cases hn
  · exact ⟨hsame.id, fun _ => hsame.verified⟩

/-- After a receipt is filed, a cycle is one that was there, or the receipt stamped it. -/
theorem credit_cycle_lookup {receipt : ReceiptEvidence} {key : Str} {cycle' : CompactCycle}
    (hl : (credit_cycle (file_receipt state receipt) receipt).compactCycles.lookup key =
      some cycle') :
    ∃ cycle, state.compactCycles.lookup key = some cycle ∧ cycle'.id = cycle.id ∧
      (cycle'.verified_recall_at = cycle.verified_recall_at ∨
        (stamps state receipt = true ∧ key = receipt.session_id)) := by
  unfold credit_cycle at hl
  split at hl
  · exact ⟨cycle', hl, rfl, .inl rfl⟩
  · rename_i cycle hc
    replace hc : state.compactCycles.lookup receipt.session_id = some cycle := hc
    split at hl
    · rename_i hnames
      unfold ReceiptState.setCycle at hl
      rw [Assoc.lookup_set] at hl
      split at hl
      · rename_i hkey
        subst hkey
        cases hl
        obtain ⟨hid, hver⟩ := credited_id cycle receipt
        refine ⟨cycle, hc, hid, ?_⟩
        cases hv : receipt.isVerifiedRecall with
        | true =>
          refine .inr ⟨?_, rfl⟩
          unfold stamps
          rw [hv, hc, Option.any_some, hnames]
          rfl
        | false => exact .inl (hver hv)
      · exact ⟨cycle', hl, rfl, .inl rfl⟩
    · exact ⟨cycle', hl, rfl, .inl rfl⟩

end OpenBrain.Provider.Gate
