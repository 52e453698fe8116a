import OpenBrain.Core.PyScan
import OpenBrain.Core.PyJson
import Mathlib.Data.List.DropRight

/-!
# Reading a transcript forward (`apps/capture/transcript.py`)

A read starts at the stored offset, or at the beginning when the file is another one or shorter,
and ends behind the last newline. `read_since` is `none` where it raises: a record of a Codex
transcript that its adapter refuses, or one that a limit of the interpreter stops.
-/
namespace OpenBrain.Capture
open OpenBrain.Core OpenBrain.Core.Py List

/-- mirrors watermark.py:149-176 -/
structure FileIdentity where
  device : Nat
  inode : Nat
  deriving DecidableEq

/-- A file as `stat` and `open` find it; it can be refused to the reader. -/
structure File where
  identity : FileIdentity
  content : List UInt8
  opens : Bool
  deriving DecidableEq

def File.size (file : File) : Nat := file.content.length

/-- The files of the host by path; `stat` fails where there is none. -/
abbrev Disk := Str → Option File

/-- The record models, which pydantic validates: what a stripped line of a Claude transcript is
as a turn, what a line of a Codex one is for a session, and the session a Codex transcript opens
with. `none` in the outer place is an exception. -/
structure Adapters (T : Type) where
  record : Str → Option T
  codex : Str → Str → Option (Option T)
  session : Str → Option Str

/-- The host of the reader: its files, its interpreter's limits and its record models. -/
structure Host (T : Type) where
  disk : Disk
  limits : Limits
  adapters : Adapters T

/-- What `json.loads` comes to: a value, a `JSONDecodeError`, or another exception. -/
inductive Loaded where
  | value (v : PyJson)
  | undecoded
  | raises

def loads (L : Limits) (text : Str) : Loaded :=
  if loadsRaises L text then .raises
  else
    match loadsText text with
    | some v => .value v
    | none => .undecoded

/-- `record.get("type")` of a dict that has a text there. -/
def recordType : PyJson → Option Str
  | .obj ms =>
    match Members.get? ms (units "type") with
    | some (.str kind) => some kind
    | _ => none
  | _ => none

/-- `RECORD_TERMINATOR` -/
def lineFeed : UInt8 := 10

section Reader

variable {T : Type} (H : Host T)

/-- mirrors records.py:257-302 up to the model -/
def raw_turn_from_line (line : Str) : Option T :=
  if (strip line).isEmpty then none else H.adapters.record (strip line)

/-- mirrors transcript.py:161-187 -/
def supported_raw_turn_from_line (line : Str) (codex_session_ref : Option Str) :
    Option (Option T) :=
  match loads H.limits line with
  | .raises => none
  | .undecoded => some (raw_turn_from_line H line)
  | .value record =>
    if recordType record = some (units "event_msg") ∨
        recordType record = some (units "response_item") then
      match codex_session_ref with
      | none => none
      | some session_ref => H.adapters.codex line session_ref
    else some (raw_turn_from_line H line)

/-- `handle.readline()` -/
def firstLine (content : List UInt8) : List UInt8 :=
  content.takeWhile (· ≠ lineFeed) ++ (content.dropWhile (· ≠ lineFeed)).take 1

/-- mirrors transcript.py:190-203 -/
def codex_session_ref (file : File) : Option (Option Str) :=
  if file.opens then
    let first_line := Utf8.decodeFrom Utf8.idle (firstLine file.content)
    match loads H.limits first_line with
    | .raises => none
    | .undecoded => some none
    | .value record =>
      if recordType record = some (units "session_meta") then
        (H.adapters.session first_line).map some
      else some none
  else some none

/-- mirrors transcript.py:221-249 -/
def start_position (offset size : Nat) (recorded : Option FileIdentity)
    (current : FileIdentity) : Nat :=
  if (recorded.isSome ∧ recorded ≠ some current) ∨ size < offset then 0 else offset

/-- The complete records and the bytes they take with the last newline.
mirrors transcript.py:252-268 -/
def complete_records (payload : List UInt8) : List UInt8 × Nat :=
  let tail := payload.rtakeWhile (· ≠ lineFeed)
  if tail.length = payload.length then ([], 0)
  else
    let fin := payload.length - tail.length - 1
    (payload.take fin, fin + 1)

/-- A read: each turn with the offset behind its record, in the order written.
mirrors transcript.py:73-92 -/
structure TranscriptRead (T : Type) where
  turns : List (T × Nat)
  next_offset : Nat
  identity : Option FileIdentity
  source_size : Option Nat

/-- The loop of transcript.py:146-153. -/
def readLines (session_ref : Option Str) (cursor : Nat) :
    List (List UInt8) → Option (List (T × Nat))
  | [] => some []
  | line :: lines =>
    let cursor := cursor + (line.length + 1)
    match supported_raw_turn_from_line H (Utf8.decodeFrom Utf8.idle line) session_ref with
    | none => none
    | some none => readLines session_ref cursor lines
    | some (some turn) => (readLines session_ref cursor lines).map ((turn, cursor) :: ·)

/-- What a read of nothing is: a file that is missing or cannot be opened. -/
def unread (offset : Nat) : TranscriptRead T := ⟨[], offset, none, none⟩

def readFile (file : File) (start offset : Nat) : Option (TranscriptRead T) :=
  match codex_session_ref H file with
  | none => none
  | some session_ref =>
    if file.opens then
      let records := complete_records (file.content.drop start)
      (readLines H session_ref start (records.1.splitOn lineFeed)).map fun turns =>
        ⟨turns, start + records.2, some file.identity, some file.size⟩
    else some (unread offset)

/-- mirrors transcript.py:95-158 -/
def read_since (path : Str) (offset : Nat) (identity : Option FileIdentity) :
    Option (TranscriptRead T) :=
  match H.disk path with
  | none => some (unread offset)
  | some file => readFile H file (start_position offset file.size identity file.identity) offset

end Reader

/-! ## What is left -/

/-- The bytes behind the last newline from a start on. -/
def remainder (file : File) (start : Nat) : List UInt8 :=
  (file.content.drop start).rtakeWhile (· ≠ lineFeed)

theorem length_rtakeWhile_le (p : UInt8 → Bool) (bytes : List UInt8) :
    (bytes.rtakeWhile p).length ≤ bytes.length :=
  (rtakeWhile_suffix p bytes).length_le

theorem consumed_eq (payload : List UInt8) : (complete_records payload).2 =
    payload.length - (payload.rtakeWhile (· ≠ lineFeed)).length := by
  have hle := length_rtakeWhile_le (· ≠ lineFeed) payload
  unfold complete_records
  dsimp only
  split
  · omega
  · dsimp only
    omega

theorem start_le (offset : Nat) (file : File) (recorded : Option FileIdentity) :
    start_position offset file.size recorded file.identity ≤ file.size := by
  unfold start_position
  split
  · exact Nat.zero_le _
  · omega

theorem start_of_reached {offset : Nat} {file : File} (h : offset ≤ file.size) :
    start_position offset file.size (some file.identity) file.identity = offset := by
  unfold start_position
  rw [if_neg]
  rintro (⟨-, h'⟩ | h')
  · exact h' rfl
  · omega

/-- Where a read ends: at the end of the file but for the remainder. -/
theorem next_offset_eq {file : File} {start : Nat} (h : start ≤ file.size) :
    start + (complete_records (file.content.drop start)).2 =
      file.size - (remainder file start).length := by
  have hle := length_rtakeWhile_le (· ≠ lineFeed) (file.content.drop start)
  rw [consumed_eq, remainder]
  rw [List.length_drop] at hle ⊢
  unfold File.size at h ⊢
  omega

/-- A read that begins where the last one ended has the same remainder, and nothing else. -/
theorem drop_next {file : File} {start : Nat} (h : start ≤ file.size) :
    file.content.drop (file.size - (remainder file start).length) = remainder file start := by
  obtain ⟨front, hfront⟩ := rtakeWhile_suffix (· ≠ lineFeed) (file.content.drop start)
  have hcontent : file.content = (file.content.take start ++ front) ++ remainder file start := by
    rw [append_assoc, remainder, hfront, take_append_drop]
  have hlen : file.size - (remainder file start).length =
      (file.content.take start ++ front).length := by
    have := congrArg List.length hcontent
    rw [length_append] at this
    unfold File.size
    omega
  have hdrop := congrArg (List.drop (file.content.take start ++ front).length) hcontent
  rw [hlen, hdrop, drop_left]

theorem remainder_next {file : File} {start : Nat} (h : start ≤ file.size) :
    remainder file (file.size - (remainder file start).length) = remainder file start := by
  have hdrop := drop_next h
  unfold remainder at hdrop ⊢
  rw [hdrop]
  exact rtakeWhile_idempotent _ _

/-- A file is read to its end exactly when nothing is behind its last newline. -/
theorem reaches_end_iff {file : File} {start : Nat} (h : start ≤ file.size) :
    file.size ≤ start + (complete_records (file.content.drop start)).2 ↔
      remainder file start = [] := by
  have hle := length_rtakeWhile_le (· ≠ lineFeed) (file.content.drop start)
  rw [next_offset_eq h]
  rw [List.length_drop] at hle
  rw [← length_eq_zero_iff]
  unfold remainder File.size at *
  omega

/-! ## What a read holds -/

variable {T : Type} {H : Host T}

/-- An empty line is no JSON and no record. -/
theorem supported_blank (session_ref : Option Str) :
    supported_raw_turn_from_line H [] session_ref = some none := by
  have hloads : loads H.limits [] = .undecoded := rfl
  unfold supported_raw_turn_from_line
  rw [hloads]
  rfl

theorem readLines_blank (session_ref : Option Str) (cursor : Nat) :
    readLines H session_ref cursor [[]] = some [] := by
  have hdecode : Utf8.decodeFrom Utf8.idle [] = [] := rfl
  unfold readLines
  rw [hdecode, supported_blank]
  rfl

theorem sum_splitOn (bytes : List UInt8) :
    ((bytes.splitOn lineFeed).map fun line => line.length + 1).sum = bytes.length + 1 := by
  induction bytes with
  | nil => rfl
  | cons b bytes ih =>
    rw [splitOn_cons_eq_if_modifyHead]
    split
    · rw [map_cons, sum_cons, ih]
      simp only [length_nil, length_cons]
      omega
    · obtain ⟨line, lines, hlines⟩ := exists_cons_of_ne_nil (splitOn_ne_nil lineFeed bytes)
      rw [hlines] at ih ⊢
      simp only [modifyHead_cons, map_cons, sum_cons, length_cons] at ih ⊢
      omega

/-- The offsets of the turns ascend from the start and stay within what was read. -/
theorem readLines_offsets {session_ref : Option Str} {cursor : Nat} {lines : List (List UInt8)}
    {turns : List (T × Nat)} (h : readLines H session_ref cursor lines = some turns) :
    turns.Pairwise (fun a b => a.2 ≤ b.2) ∧
      ∀ t ∈ turns, cursor ≤ t.2 ∧ t.2 ≤ cursor + (lines.map fun line => line.length + 1).sum := by
  induction lines generalizing cursor turns with
  | nil =>
    cases Option.some.inj h
    exact ⟨.nil, fun t ht => nomatch ht⟩
  | cons line lines ih =>
    rw [readLines] at h
    rw [map_cons, sum_cons]
    split at h
    · cases h
    · obtain ⟨hsorted, hbounds⟩ := ih h
      refine ⟨hsorted, fun t ht => ?_⟩
      have := hbounds t ht
      omega
    · rename_i turn hturn
      obtain ⟨rest, hrest, rfl⟩ := Option.map_eq_some_iff.mp h
      obtain ⟨hsorted, hbounds⟩ := ih hrest
      refine ⟨pairwise_cons.mpr ⟨fun t ht => (hbounds t ht).1, hsorted⟩, fun t ht => ?_⟩
      rcases mem_cons.mp ht with rfl | ht
      · dsimp only
        omega
      · have := hbounds t ht
        omega

/-- What a read of a file that opens tells of it. -/
structure ReadOf (file : File) (start : Nat) (read : TranscriptRead T) : Prop where
  identity : read.identity = some file.identity
  source_size : read.source_size = some file.size
  next_offset : read.next_offset = file.size - (remainder file start).length
  sorted : read.turns.Pairwise fun a b => a.2 ≤ b.2
  from_start : ∀ t ∈ read.turns, start ≤ t.2
  to_next : ∀ t ∈ read.turns, t.2 ≤ read.next_offset
  start_le : start ≤ read.next_offset

theorem readFile_opens {file : File} (hopens : file.opens = true) {start offset : Nat}
    (hstart : start ≤ file.size) {read : TranscriptRead T}
    (h : readFile H file start offset = some read) : ReadOf file start read := by
  unfold readFile at h
  split at h
  · cases h
  · rw [if_pos hopens] at h
    obtain ⟨turns, hturns, rfl⟩ := Option.map_eq_some_iff.mp h
    have hnext := next_offset_eq hstart
    obtain ⟨hsorted, hbounds⟩ := readLines_offsets hturns
    rw [sum_splitOn] at hbounds
    refine ⟨rfl, rfl, hnext, hsorted, fun t ht => (hbounds t ht).1, fun t ht => ?_, ?_⟩
    · have hbound := (hbounds t ht).2
      unfold complete_records at hbound hturns ⊢
      dsimp only at hbound hturns ⊢
      split at hturns
      · -- nothing is complete: the one line is empty
        rw [splitOn_nil, readLines_blank] at hturns
        cases Option.some.inj hturns
        cases ht
      · rename_i hlen
        rw [if_neg hlen] at hbound ⊢
        have hle := length_rtakeWhile_le (· ≠ lineFeed) (file.content.drop start)
        rw [length_take] at hbound
        dsimp only at hbound ⊢
        omega
    · dsimp only
      omega

end OpenBrain.Capture
