import OpenBrain.Capture.Transcript
import OpenBrain.Core.Assoc
import OpenBrain.Core.Table

/-!
# The watermark store and delivery (`apps/capture/watermark.py`, `apps/capture/deliver.py`)

Two tables: how far each session's transcript has been read, and the transcripts of closed
sessions whose delivery is still to come. A delivery hands the turns behind the watermark to the
lane, batch by batch, and moves the watermark behind each; `deliver_accepted` and its neighbours
say what it comes to.
-/
namespace OpenBrain.Capture
open OpenBrain.Core OpenBrain.Core.Py List

/-- mirrors watermark.py:179-203; the two columns of an identity are null together or read as
none -/
structure Position where
  offset : Nat
  identity : Option FileIdentity
  deriving DecidableEq

inductive PendingState where
  | pending | source_changed
  deriving DecidableEq

/-- A row of `pending_capture`. mirrors watermark.py:115-128 -/
structure PendingRow where
  origin : Str
  session_key : Str
  transcript_path : Str
  device : Option Nat
  inode : Option Nat
  source_size : Option Nat
  state : PendingState
  failure_category : Option Str
  generation : Nat
  deriving DecidableEq

/-- The two tables with their primary keys; the rows of the second are in `rowid` order. -/
structure WatermarkStore where
  watermark : List (Str × Position)
  pending_capture : List PendingRow
  watermark_key : (watermark.map Prod.fst).Nodup
  pending_key : (pending_capture.map fun r => (r.origin, r.session_key)).Nodup

/-- mirrors watermark.py:206-216 -/
structure PendingCapture where
  session_key : Str
  path : Str
  identity : Option FileIdentity
  source_size : Option Nat
  generation : Nat

def PendingRow.identity (row : PendingRow) : Option FileIdentity :=
  match row.device, row.inode with
  | some device, some inode => some ⟨device, inode⟩
  | _, _ => none

def PendingRow.capture (row : PendingRow) : PendingCapture :=
  ⟨row.session_key, row.transcript_path, row.identity, row.source_size, row.generation⟩

namespace WatermarkStore

/-- mirrors watermark.py:472-496 -/
def position_for (store : WatermarkStore) (key : Str) : Position :=
  (store.watermark.lookup key).getD ⟨0, none⟩

/-- Whether a stored position refuses an offset: it is of the same file, or of one it does not
know, and behind it. mirrors watermark.py:549-571 -/
def regresses (stored : Position) (offset : Nat) (identity : Option FileIdentity) : Bool :=
  (decide (identity = none) || decide (stored.identity = none) ||
    decide (stored.identity = identity)) && decide (offset < stored.offset)

/-- `none` is the `WatermarkRegressionError`. mirrors watermark.py:498-587 -/
def advance (store : WatermarkStore) (key : Str) (offset : Nat)
    (identity : Option FileIdentity) : Option WatermarkStore :=
  if (store.watermark.lookup key).any fun stored => regresses stored offset identity then none
  else
    some { store with
      watermark := Assoc.set store.watermark key ⟨offset, identity⟩
      watermark_key := Assoc.nodup_set store.watermark_key _ _ }

def updatePending (store : WatermarkStore) (p : PendingRow → Bool) (f : PendingRow → PendingRow)
    (h : ∀ r, ((f r).origin, (f r).session_key) = (r.origin, r.session_key)) :
    WatermarkStore where
  watermark := store.watermark
  pending_capture := Table.updateWhere p f store.pending_capture
  watermark_key := store.watermark_key
  pending_key := by
    have hkeys : (Table.updateWhere p f store.pending_capture).map
        (fun r => (r.origin, r.session_key)) =
          store.pending_capture.map fun r => (r.origin, r.session_key) :=
      Table.column_updateWhere h
    rw [hkeys]
    exact store.pending_key

def retryable (origin except_session : Str) (row : PendingRow) : Bool :=
  decide (row.origin = origin) && decide (row.session_key ≠ except_session) &&
    decide (row.state = .pending)

/-- mirrors watermark.py:367-390 -/
def oldest_pending (store : WatermarkStore) (origin except_session : Str) :
    Option PendingCapture :=
  (store.pending_capture.find? (retryable origin except_session)).map PendingRow.capture

def ofGeneration (origin session_key : Str) (generation : Nat) (row : PendingRow) : Bool :=
  decide (row.origin = origin) && decide (row.session_key = session_key) &&
    decide (row.generation = generation)

/-- A pending row that was registered while its file was missing. -/
def unbound (row : PendingRow) : Bool :=
  decide (row.state = .pending) && row.device.isNone && row.inode.isNone && row.source_size.isNone

/-- mirrors watermark.py:255-265, 344-365 -/
def bind_missing_pending (disk : Disk) (store : WatermarkStore) (origin : Str)
    (pending : PendingCapture) : WatermarkStore × Option PendingCapture :=
  match disk pending.path with
  | none => (store, none)
  | some file =>
    let missing := fun r => ofGeneration origin pending.session_key pending.generation r && unbound r
    if store.pending_capture.any missing then
      (store.updatePending missing (fun r =>
          { r with device := some file.identity.device, inode := some file.identity.inode,
                   source_size := some file.size, generation := r.generation + 1 }) fun _ => rfl,
        some { pending with identity := some file.identity, source_size := some file.size,
                            generation := pending.generation + 1 })
    else (store, none)

/-- mirrors watermark.py:392-398 -/
def complete_pending (store : WatermarkStore) (origin session_key : Str) (generation : Nat) :
    WatermarkStore where
  watermark := store.watermark
  pending_capture :=
    store.pending_capture.filter fun r => !ofGeneration origin session_key generation r
  watermark_key := store.watermark_key
  pending_key := store.pending_key.sublist (filter_sublist.map _)

/-- mirrors watermark.py:400-409 -/
def source_changed (store : WatermarkStore) (origin session_key : Str) (generation : Nat) :
    WatermarkStore :=
  store.updatePending (ofGeneration origin session_key generation)
    (fun r => { r with state := .source_changed, failure_category := some (units "source_changed") })
    fun _ => rfl

end WatermarkStore

/-! ## Delivery -/

/-- The store, and the batches the lane was handed. A lane that takes every call has no other
state. -/
structure World (T : Type) where
  store : WatermarkStore
  lane : List (List (T × Nat))

/-- mirrors deliver.py:79-94 -/
structure Delivery where
  delivered : Nat
  next_offset : Nat
  source_complete : Bool

/-- What a delivery raises: `CaptureSourceChangedError`, the watermark's refusal, or what the
reader raised. -/
inductive Failure where
  | sourceChanged | regression | reader

def SERVER_BATCH : Nat := 100

/-- `payload[start : start + SERVER_BATCH]` of every `start` of the loop. -/
def batches {α : Type} : List α → List (List α)
  | [] => []
  | turn :: payload =>
    (turn :: payload).take SERVER_BATCH :: batches ((turn :: payload).drop SERVER_BATCH)
termination_by payload => payload.length
decreasing_by
  rw [List.length_drop, length_cons, SERVER_BATCH]
  omega

section Delivery

variable {T : Type}

/-- The loop of deliver.py:164-177 with `checkpoint_chunks`: a batch, then the offset behind its
last turn. `false` is the watermark's refusal. -/
def sendBatches (key : Str) (identity : Option FileIdentity) :
    List (List (T × Nat)) → World T → World T × Bool
  | [], w => (w, true)
  | batch :: rest, w =>
    let sent : World T := { w with lane := w.lane ++ [batch] }
    match identity, batch.getLast? with
    | some identity, some (_, offset) =>
      match sent.store.advance key offset (some identity) with
      | none => (sent, false)
      | some store => sendBatches key (some identity) rest { sent with store }
    | _, _ => sendBatches key identity rest sent

/-- mirrors deliver.py:97-190 with `checkpoint_chunks` and no deadline -/
def deliver_new_turns (H : Host T) (path key : Str) (expected_identity : Option FileIdentity)
    (minimum_size : Option Nat) (w : World T) : World T × Except Failure Delivery :=
  let position := w.store.position_for key
  match read_since H path position.offset position.identity with
  | none => (w, .error .reader)
  | some read =>
    if expected_identity.isSome ∧ read.identity ≠ expected_identity then
      (w, .error .sourceChanged)
    else if minimum_size.any fun size => (H.disk path).all fun file => decide (file.size < size) then
      (w, .error .sourceChanged)
    else
      match sendBatches key read.identity (batches read.turns) w with
      | (sent, false) => (sent, .error .regression)
      | (sent, true) =>
        let complete := read.source_size.any fun size => decide (size ≤ read.next_offset)
        match read.identity with
        | none => (sent, .ok ⟨read.turns.length, read.next_offset, complete⟩)
        | some identity =>
          match sent.store.advance key read.next_offset (some identity) with
          | none => (sent, .error .regression)
          | some store =>
            ({ sent with store }, .ok ⟨read.turns.length, read.next_offset, complete⟩)

/-! ## What a delivery does -/

theorem flatten_batches {α : Type} (payload : List α) : (batches payload).flatten = payload := by
  induction payload using batches.induct with
  | case1 => simp [batches]
  | case2 turn payload ih => rw [batches, flatten_cons, ih, take_append_drop]

theorem ne_nil_of_mem_batches {α : Type} {payload batch : List α} (h : batch ∈ batches payload) :
    batch ≠ [] := by
  induction payload using batches.induct with
  | case1 => simp [batches] at h
  | case2 turn payload ih =>
    rw [batches] at h
    rcases mem_cons.mp h with rfl | h
    · simp [SERVER_BATCH]
    · exact ih h

theorem position_advance {store store' : WatermarkStore} {key : Str} {offset : Nat}
    {identity : Option FileIdentity} (h : store.advance key offset identity = some store') :
    store'.pending_capture = store.pending_capture ∧
      store'.position_for key = ⟨offset, identity⟩ ∧
      ∀ other, other ≠ key → store'.position_for other = store.position_for other := by
  unfold WatermarkStore.advance at h
  split at h
  · cases h
  · cases Option.some.inj h
    refine ⟨rfl, ?_, fun other hother => ?_⟩
    · unfold WatermarkStore.position_for
      rw [Assoc.lookup_set, if_pos rfl]
      rfl
    · unfold WatermarkStore.position_for
      rw [Assoc.lookup_set, if_neg hother]

theorem advance_eq_none {store : WatermarkStore} {key : Str} {offset : Nat}
    {identity : Option FileIdentity} : store.advance key offset identity = none ↔
      WatermarkStore.regresses (store.position_for key) offset identity = true := by
  unfold WatermarkStore.advance WatermarkStore.position_for
  cases store.watermark.lookup key with
  | none => simp [WatermarkStore.regresses]
  | some stored =>
    rw [Option.any_some, Option.getD_some]
    split <;> simp_all

theorem advance_some {store : WatermarkStore} {key : Str} {offset : Nat}
    {identity : Option FileIdentity}
    (h : WatermarkStore.regresses (store.position_for key) offset identity = false) :
    ∃ store', store.advance key offset identity = some store' := by
  refine Option.ne_none_iff_exists'.mp fun hnone => ?_
  rw [advance_eq_none.mp hnone] at h
  cases h

theorem sendBatches_cons {key : Str} {identity : FileIdentity} {batch : List (T × Nat)}
    {rest : List (List (T × Nat))} {w : World T} {turn : T} {offset : Nat}
    (hlast : batch.getLast? = some (turn, offset)) :
    sendBatches key (some identity) (batch :: rest) w =
      match w.store.advance key offset (some identity) with
      | none => ({ w with lane := w.lane ++ [batch] }, false)
      | some store =>
        sendBatches key (some identity) rest { store, lane := w.lane ++ [batch] } := by
  simp only [sendBatches, hlast]

theorem sendBatches_accepted (key : Str) (identity : FileIdentity) (bs : List (List (T × Nat)))
    (w : World T) (hne : ∀ batch ∈ bs, batch ≠ [])
    (hsorted : bs.flatten.Pairwise fun a b => a.2 ≤ b.2)
    (hstart : ∀ t ∈ bs.flatten,
      WatermarkStore.regresses (w.store.position_for key) t.2 (some identity) = false) :
    ∃ sent, sendBatches key (some identity) bs w = (sent, true) ∧
      sent.store.pending_capture = w.store.pending_capture ∧
      (∀ other, other ≠ key → sent.store.position_for other = w.store.position_for other) ∧
      (sent.store.position_for key = w.store.position_for key ∨
        ∃ t ∈ bs.flatten, sent.store.position_for key = ⟨t.2, some identity⟩) := by
  induction bs generalizing w with
  | nil => exact ⟨w, rfl, rfl, fun _ _ => rfl, .inl rfl⟩
  | cons batch rest ih =>
    rw [flatten_cons] at hsorted hstart ⊢
    obtain ⟨⟨turn, offset⟩, hlast⟩ := Option.isSome_iff_exists.mp
      (getLast?_isSome.mpr (hne batch mem_cons_self))
    have hmem := mem_of_getLast? hlast
    obtain ⟨-, hrest, hcross⟩ := pairwise_append.mp hsorted
    obtain ⟨store, hstore⟩ := advance_some (hstart _ (mem_append_left _ hmem))
    obtain ⟨hpending, hposition, hothers⟩ := position_advance hstore
    rw [sendBatches_cons hlast, hstore]
    dsimp only
    obtain ⟨sent, hsent, hpending', hothers', hposition'⟩ :=
      ih { store, lane := w.lane ++ [batch] }
        (fun b hb => hne b (mem_cons_of_mem _ hb)) hrest (by
          intro t ht
          have hle := hcross _ hmem t ht
          simp only [WatermarkStore.regresses, hposition]
          simp
          omega)
    refine ⟨sent, hsent, hpending'.trans hpending,
      fun other hother => (hothers' other hother).trans (hothers other hother), .inr ?_⟩
    rcases hposition' with h | ⟨t, ht, h⟩
    · exact ⟨_, mem_append_left _ hmem, h.trans hposition⟩
    · exact ⟨t, mem_append_right _ ht, h⟩

/-- Where the watermark takes none of the offsets, nothing is written. -/
theorem sendBatches_refused (key : Str) (identity : FileIdentity) (bs : List (List (T × Nat)))
    (w : World T) (hne : ∀ batch ∈ bs, batch ≠ [])
    (hall : ∀ t ∈ bs.flatten,
      WatermarkStore.regresses (w.store.position_for key) t.2 (some identity) = true) :
    (sendBatches key (some identity) bs w).1.store = w.store := by
  cases bs with
  | nil => rfl
  | cons batch rest =>
    obtain ⟨⟨turn, offset⟩, hlast⟩ := Option.isSome_iff_exists.mp
      (getLast?_isSome.mpr (hne batch mem_cons_self))
    have hmem := mem_of_getLast? hlast
    have hnone := advance_eq_none.mpr (hall _ (by
      rw [flatten_cons]
      exact mem_append_left _ hmem))
    rw [sendBatches_cons hlast, hnone]

def startOf (position : Position) (file : File) : Nat :=
  start_position position.offset file.size position.identity file.identity

/-- The position is of this file, or of one it does not know, and past its end. -/
def Behind (position : Position) (file : File) : Prop :=
  (position.identity = none ∨ position.identity = some file.identity) ∧ file.size < position.offset

theorem regresses_of_behind {position : Position} {file : File} (h : Behind position file)
    {offset : Nat} (hoffset : offset ≤ file.size) :
    WatermarkStore.regresses position offset (some file.identity) = true := by
  obtain ⟨hidentity, hsize⟩ := h
  have hlt : offset < position.offset := by omega
  rcases hidentity with h | h <;> simp [WatermarkStore.regresses, h, hlt]

theorem not_regresses {position : Position} {file : File} (h : ¬ Behind position file)
    {offset : Nat} (hoffset : startOf position file ≤ offset) :
    WatermarkStore.regresses position offset (some file.identity) = false := by
  unfold Behind at h
  unfold startOf start_position at hoffset
  by_cases hidentity : position.identity = none ∨ position.identity = some file.identity
  · -- the read began at the position itself
    have hsize : ¬ file.size < position.offset := fun hlt => h ⟨hidentity, hlt⟩
    rw [if_neg (by rcases hidentity with h | h <;> simp [h, hsize])] at hoffset
    have hnot : ¬ offset < position.offset := by omega
    simp [WatermarkStore.regresses, hnot]
  · rw [not_or] at hidentity
    simp [WatermarkStore.regresses, hidentity.1, hidentity.2]

variable {H : Host T} {path key : Str} {expected : Option FileIdentity} {minimum : Option Nat}
  {w : World T} {file : File}

theorem read_of_file (hfile : H.disk path = some file) (offset : Nat)
    (identity : Option FileIdentity) : read_since H path offset identity =
      readFile H file (start_position offset file.size identity file.identity) offset := by
  rw [read_since, hfile]

def LargeEnough (minimum : Option Nat) (file : File) : Prop :=
  ∀ size, minimum = some size → size ≤ file.size

theorem short_iff (hfile : H.disk path = some file) :
    (minimum.any fun size => (H.disk path).all fun f => decide (f.size < size)) = true ↔
      ¬ LargeEnough minimum file := by
  rw [hfile, LargeEnough]
  cases minimum with
  | none => simp
  | some size => simp

theorem deliver_accepted (hfile : H.disk path = some file) (hopens : file.opens = true)
    (hread : (read_since H path (w.store.position_for key).offset
      (w.store.position_for key).identity).isSome = true)
    (hsize : LargeEnough minimum file) (hbehind : ¬ Behind (w.store.position_for key) file) :
    ∃ sent delivery,
      deliver_new_turns H path key (some file.identity) minimum w = (sent, .ok delivery) ∧
      sent.store.pending_capture = w.store.pending_capture ∧
      (∀ other, other ≠ key → sent.store.position_for other = w.store.position_for other) ∧
      sent.store.position_for key =
        ⟨file.size - (remainder file (startOf (w.store.position_for key) file)).length,
          some file.identity⟩ ∧
      (delivery.source_complete = true ↔
        remainder file (startOf (w.store.position_for key) file) = []) := by
  obtain ⟨read, hread⟩ := Option.isSome_iff_exists.mp hread
  have hle := start_le (w.store.position_for key).offset file (w.store.position_for key).identity
  have hof := readFile_opens hopens hle ((read_of_file hfile _ _).symm.trans hread)
  obtain ⟨sent, hsent, hpending, hothers, hposition⟩ := sendBatches_accepted key
    file.identity (batches read.turns) w (fun b hb => ne_nil_of_mem_batches hb) (by rw [flatten_batches]; exact hof.sorted) (by
      rw [flatten_batches]
      exact fun t ht => not_regresses hbehind (hof.from_start t ht))
  -- the end of the read lies behind the last batch
  have hlast : WatermarkStore.regresses (sent.store.position_for key) read.next_offset
      (some file.identity) = false := by
    rcases hposition with h | ⟨t, ht, h⟩
    · rw [h]
      exact not_regresses hbehind hof.start_le
    · rw [flatten_batches] at ht
      have hnext := hof.to_next t ht
      simp only [WatermarkStore.regresses, h]
      simp
      omega
  obtain ⟨store, hstore⟩ := advance_some hlast
  obtain ⟨hpending', hposition', hothers'⟩ := position_advance hstore
  have hnot := mt (short_iff hfile).mp (not_not_intro hsize)
  refine ⟨{ sent with store }, ⟨read.turns.length, read.next_offset,
    read.source_size.any fun size => decide (size ≤ read.next_offset)⟩, ?_,
    hpending'.trans hpending,
    fun other hother => (hothers' other hother).trans (hothers other hother), ?_, ?_⟩
  · unfold deliver_new_turns
    dsimp only
    rw [hread]
    dsimp only
    rw [if_neg (by simp [hof.identity]), if_neg hnot, hof.identity, hsent]
    dsimp only
    rw [hstore]
  · rw [hposition', hof.next_offset]
    rfl
  · dsimp only
    have hreach := reaches_end_iff hle
    rw [next_offset_eq hle, ← hof.next_offset] at hreach
    rw [hof.source_size, Option.any_some, decide_eq_true_iff]
    exact hreach

end Delivery

end OpenBrain.Capture
