import OpenBrain.Core.PyJson
import OpenBrain.Provider.Gate.Receipts
import Mathlib.Data.List.DropRight

/-!
# Work in the current turn (`gate_transcript.py`)

`turn_did_work` looks for a work line from the last line on that has the marks of a user record.
`operator_prompt` says what an operator's turn opens with; a tool's results have the marks too.
`did_work_iff`: the answer is right exactly when a work line stands behind both starts, or none
between them.
-/
namespace OpenBrain.Provider.Gate
open OpenBrain.Core OpenBrain.Core.Py List

/-! ## Lines -/

/-- `m in s` -/
def within (m s : Str) : Bool := s.tails.any fun t => m.isPrefixOf t

/-- `pattern.search(line).group(1)`, of the pattern `"timestamp":"([^"]+)"`. -/
def timestampOf (line : Str) : Option Str :=
  line.tails.findSome? fun t =>
    if (units "\x22timestamp\x22:\x22").isPrefixOf t then
      let rest := t.drop (units "\x22timestamp\x22:\x22").length
      let stamp := rest.takeWhile (· != unit '"')
      if stamp ≠ [] ∧ rest.drop stamp.length ≠ [] then some stamp else none
    else none

/-- mirrors gate_transcript.py:39-51 -/
def anyWithin (words : List Str) (line : Str) : Bool := words.any fun m => within m line

def TOOL_EVENT : List Str := [units "\x22tool_use\x22", units "\x22tool_result\x22"]

def MUTATING_TOOL : List Str :=
  [units "\x22Edit\x22", units "\x22Write\x22", units "\x22NotebookEdit\x22", units "\x22Task\x22",
    units "\x22Agent\x22"]

def GIT_WORK : List Str :=
  [units "git commit", units "git push", units "gh pr create", units "gh pr merge"]

section Calendar
variable (parse_iso : Str → Option Instant)

/-- mirrors gate_transcript.py:187-215 -/
def is_work_line (line : Str) (last_write : Option Instant) : Bool :=
  if line = [] then false
  else
    let captured :=
      match timestampOf line, last_write with
      | some stamp, some written => (parse_iso stamp).any fun recorded => decide (recorded ≤ written)
      | _, _ => false
    if captured then false
    else
      let tool_work := anyWithin TOOL_EVENT line && anyWithin MUTATING_TOOL line &&
        !within (units "\x22is_error\x22:true") line
      let git_work := within (units "\x22Bash\x22") line && anyWithin GIT_WORK line
      tool_work || git_work

def marked (line : Str) : Bool :=
  within (units "\x22type\x22:\x22user\x22") line &&
    !within (units "\x22isSidechain\x22:true") line

def boundaryBelow (lines : List Str) : Nat → Nat
  | 0 => 0
  | index + 1 => if (lines[index]?).any marked then index else boundaryBelow lines index

/-- mirrors gate_transcript.py:168-184 -/
def latest_user_boundary (lines : List Str) : Nat := boundaryBelow lines lines.length

/-! ## The file -/

/-- mirrors gate_transcript.py:30 -/
def WORK_SCAN_BYTES : Nat := 512 * 1024

/-- `text.split("\n")` -/
def splitNewlines (text : Str) : List Str := text.splitOn 0x0A

/-- mirrors gate_transcript.py:54-69 -/
def read_tail_lines (content : List UInt8) (scan_bytes : Nat) : List Str :=
  splitNewlines (Utf8.decodeFrom Utf8.idle (content.drop (content.length - scan_bytes)))

/-- A path leads to a file, or the read fails. mirrors gate_transcript.py:218-241 -/
def turn_did_work (disk : Str → Option (List UInt8)) (transcript_path last_write_at : Str) : Bool :=
  if transcript_path = [] then false
  else
    match disk transcript_path with
    | none => false
    | some content =>
      let lines := read_tail_lines content WORK_SCAN_BYTES
      let last_write := if last_write_at = [] then none else parse_iso last_write_at
      (lines.drop (latest_user_boundary lines)).any fun line => is_work_line parse_iso line last_write

end Calendar

/-! ## What opens a turn -/

def only_tool_results : PyJson → Bool
  | .arr blocks => blocks.all fun
    | .obj ms =>
      match Members.get? ms (units "type") with
      | some (.str kind) => kind = units "tool_result"
      | _ => false
    | _ => false
  | _ => false

def isStr (text : Str) : Option PyJson → Bool
  | some (.str s) => s = text
  | _ => false

/-- What a user record says. -/
def contentOf (ms : Items) : PyJson :=
  match Members.get? ms (units "message") with
  | some (.obj message) => (Members.get? message (units "content")).getD .null
  | _ => .null

/-- A line is an operator's prompt: a record of type `user`, of no side chain, that was not put in
by the system and carries more than tool results. -/
def operator_prompt (line : Str) : Bool :=
  match loadsText line with
  | some (.obj ms) =>
    isStr (units "user") (Members.get? ms (units "type")) &&
      !truthy (Members.get? ms (units "isSidechain")) &&
      !isStr (units "system") (Members.get? ms (units "promptSource")) &&
      !only_tool_results (contentOf ms)
  | _ => false

/-! ## Starts -/

/-- How many lines there are up to the last that `p` holds of. -/
def upTo (p : Str → Bool) (lines : List Str) : Nat :=
  lines.length - (lines.rtakeWhile fun line => !p line).length

theorem upTo_append_singleton (p : Str → Bool) (lines : List Str) (line : Str) :
    upTo p (lines ++ [line]) = if p line then lines.length + 1 else upTo p lines := by
  unfold upTo
  split
  · rename_i h
    rw [rtakeWhile_concat_neg _ _ _ (by simp [h])]
    simp
  · rename_i h
    rw [rtakeWhile_concat_pos _ _ _ (by simpa using h)]
    simp

theorem boundaryBelow_append (lines more : List Str) (n : Nat) (h : n ≤ lines.length) :
    boundaryBelow (lines ++ more) n = boundaryBelow lines n := by
  induction n with
  | zero => rfl
  | succ n ih => rw [boundaryBelow, boundaryBelow, getElem?_append_left h, ih (by omega)]

/-- The scan ends at the last line with the marks. -/
theorem latest_user_boundary_eq (lines : List Str) :
    latest_user_boundary lines = upTo marked lines - 1 := by
  induction lines using List.reverseRecOn with
  | nil => rfl
  | append_singleton lines line ih =>
    unfold latest_user_boundary at ih ⊢
    rw [length_append, length_singleton, boundaryBelow, getElem?_concat_length,
      Option.any_some, upTo_append_singleton]
    split
    · rfl
    · rw [boundaryBelow_append lines [line] lines.length (Nat.le_refl _)]
      exact ih

/-! ## The answer -/

section Answer
variable (parse_iso : Str → Option Instant)

/-- Some line behind the operator's last prompt is a work line. -/
def Worked (lines : List Str) (last_write : Option Instant) : Prop :=
  ∃ line ∈ lines.drop (upTo operator_prompt lines), is_work_line parse_iso line last_write = true

/-- Between the line behind the operator's last prompt and the last line with the marks, in
whichever order they come, there is no work line; or there is one behind both. -/
def Seen (lines : List Str) (last_write : Option Instant) : Prop :=
  let behind := upTo operator_prompt lines
  let last := upTo marked lines - 1
  (∃ line ∈ lines.drop (max behind last), is_work_line parse_iso line last_write = true) ∨
    ∀ line ∈ (lines.take (max behind last)).drop (min behind last),
      is_work_line parse_iso line last_write = false

theorem iff_right_of_or {a b c : Prop} (h : a ↔ b ∨ c) : (a ↔ c) ↔ (c ∨ ¬b) := by
  rw [h]
  tauto

/-- Two ends of one list hold an element alike exactly when the shorter one does or nothing
between them. -/
theorem any_drop_iff {α : Type} (p : α → Bool) (l : List α) (i j : Nat) :
    ((∃ x ∈ l.drop i, p x = true) ↔ ∃ x ∈ l.drop j, p x = true) ↔
      (∃ x ∈ l.drop (max i j), p x = true) ∨
        ∀ x ∈ (l.take (max i j)).drop (min i j), p x = false := by
  have hsplit : l.drop (min i j) =
      (l.take (max i j)).drop (min i j) ++ l.drop (max i j) := by
    have hmax : max i j = min i j + (max i j - min i j) := by omega
    rw [drop_take, hmax, ← drop_drop, ← hmax, take_append_drop]
  have hlonger : (∃ x ∈ l.drop (min i j), p x = true) ↔
      (∃ x ∈ (l.take (max i j)).drop (min i j), p x = true) ∨
        ∃ x ∈ l.drop (max i j), p x = true := by
    rw [hsplit]
    simp only [mem_append, or_and_right, exists_or]
  have hnone : (∀ x ∈ (l.take (max i j)).drop (min i j), p x = false) ↔
      ¬∃ x ∈ (l.take (max i j)).drop (min i j), p x = true := by simp
  rw [hnone]
  rcases Nat.le_total i j with hle | hle
  · rw [Nat.max_eq_right hle, Nat.min_eq_left hle] at hlonger ⊢
    exact iff_right_of_or hlonger
  · rw [Nat.max_eq_left hle, Nat.min_eq_right hle] at hlonger ⊢
    rw [iff_comm (a := ∃ x ∈ l.drop i, p x = true)]
    exact iff_right_of_or hlonger

/-- Of a transcript that fits in the scanned tail, the gate says that work was done since the
operator's last prompt exactly when it was, as far as a work line behind both starts or none
between them leaves no other answer. -/
theorem did_work_iff (disk : Str → Option (List UInt8)) (transcript_path last_write_at : Str)
    (content : List UInt8) (hpath : transcript_path ≠ []) (hfile : disk transcript_path = some content)
    (hfits : content.length ≤ WORK_SCAN_BYTES) :
    let lines := splitNewlines (Utf8.decodeFrom Utf8.idle content)
    let last_write := if last_write_at = [] then none else parse_iso last_write_at
    (turn_did_work parse_iso disk transcript_path last_write_at = true ↔
        Worked parse_iso lines last_write) ↔ Seen parse_iso lines last_write := by
  intro lines last_write
  have hlines : read_tail_lines content WORK_SCAN_BYTES = lines := by
    rw [read_tail_lines, Nat.sub_eq_zero_of_le hfits, drop_zero]
  have hanswer : turn_did_work parse_iso disk transcript_path last_write_at = true ↔
      ∃ line ∈ lines.drop (upTo marked lines - 1),
        is_work_line parse_iso line last_write = true := by
    rw [turn_did_work, if_neg hpath, hfile]
    dsimp only
    rw [hlines, latest_user_boundary_eq, any_eq_true]
  rw [hanswer, Worked, iff_comm (a := ∃ line ∈ lines.drop (upTo marked lines - 1), _)]
  exact any_drop_iff _ lines (upTo operator_prompt lines) (upTo marked lines - 1)

end Answer

/-! ## A turn with a tool's result -/

/-- A prompt, a file that was written for it, and what the tool came back with. -/
def toolTurn : List UInt8 := Utf8.encode (units "\x7b\x22type\x22:\x22user\x22,\x22message\x22:\x7b\x22content\x22:\x22go\x22\x7d\x7d\n\x7b\x22name\x22:\x22Write\x22,\x22type\x22:\x22tool_use\x22\x7d\n\x7b\x22type\x22:\x22user\x22,\x22message\x22:\x7b\x22content\x22:[\x7b\x22type\x22:\x22tool_result\x22\x7d]\x7d\x7d")

def toolDisk (path : Str) : Option (List UInt8) :=
  if path = units "t" then some toolTurn else none

theorem did_work_iff_toolTurn :
    toolTurn.length ≤ WORK_SCAN_BYTES ∧
      ((turn_did_work (fun _ => none) toolDisk (units "t") [] = true ↔
        Worked (fun _ => none) (splitNewlines (Utf8.decodeFrom Utf8.idle toolTurn)) none) ↔
          Seen (fun _ => none) (splitNewlines (Utf8.decodeFrom Utf8.idle toolTurn)) none) :=
  ⟨by decide +kernel, did_work_iff (fun _ => none) toolDisk (units "t") [] toolTurn (by decide)
    (if_pos rfl) (by decide +kernel)⟩

/-- The file was written in the turn, and the gate says that no work was done. -/
theorem tool_result_hides_work :
    turn_did_work (fun _ => none) toolDisk (units "t") [] = false ∧
      Worked (fun _ => none) (splitNewlines (Utf8.decodeFrom Utf8.idle toolTurn)) none := by
  constructor
  · decide +kernel
  · unfold Worked
    decide +kernel

end OpenBrain.Provider.Gate
