import OpenBrain.Core.PyJson
import OpenBrain.Provider.Gate.Receipts

/-!
# The timestamps both runtimes write

`YYYY-MM-DDThh:mm:ss.sssZ`, as `toISOString` and `_iso` spell an instant. `utc` is a calendar of
these. An instant whose spelling would not read back, one of no year from 0 to 9999, gets a
number for a stamp; no clock shows one.
-/
namespace OpenBrain.Provider.Gate
open OpenBrain.Core OpenBrain.Core.Py

/-- The digits of a number, from the left filled up with zeros. -/
def padded (width : Nat) (n : Int) : Str :=
  let ds := decimal n.toNat
  List.replicate (width - ds.length) (unit '0') ++ ds

/-- The year, month and day of a day counted from 1970-01-01. -/
def civil (day : Int) : Int × Int × Int :=
  let z := day + 719468
  let era := z / 146097
  let doe := z % 146097
  let yoe := (doe - doe / 1460 + doe / 36524 - doe / 146096) / 365
  let doy := doe - (365 * yoe + yoe / 4 - yoe / 100)
  let mp := (5 * doy + 2) / 153
  let m := if mp < 10 then mp + 3 else mp - 9
  (yoe + era * 400 + (if m ≤ 2 then 1 else 0), m, doy - (153 * mp + 2) / 5 + 1)

/-- The day counted from 1970-01-01 of a year, month and day. -/
def dayOf (year month day : Int) : Int :=
  let y := if month ≤ 2 then year - 1 else year
  let era := y / 400
  let yoe := y % 400
  let mp := if 2 < month then month - 3 else month + 9
  let doy := (153 * mp + 2) / 5 + day - 1
  era * 146097 + (yoe * 365 + yoe / 4 - yoe / 100 + doy) - 719468

/-- mirrors gate_state.py:530-542 -/
def isoText (t : Instant) : Str :=
  let ms := t / 1000
  let day := ms / 86400000
  let rest := ms % 86400000
  let (year, month, dom) := civil day
  padded 4 year ++ units "-" ++ padded 2 month ++ units "-" ++ padded 2 dom ++ units "T" ++
    padded 2 (rest / 3600000) ++ units ":" ++ padded 2 (rest / 60000 % 60) ++ units ":" ++
    padded 2 (rest / 1000 % 60) ++ units "." ++ padded 3 (rest % 1000) ++ units "Z"

def slice (text : Str) (start width : Nat) : Option Int :=
  let part := (text.drop start).take width
  if part.length = width ∧ part.all fun u => unit '0' ≤ u && u ≤ unit '9' then
    some (part.foldl (fun n u => 10 * n + (u.toNat - 48)) 0)
  else none

/-- A stamp with its offset written out. -/
def readIso (text : Str) : Option Instant := do
  let year ← slice text 0 4
  let month ← slice text 5 2
  let dom ← slice text 8 2
  let hour ← slice text 11 2
  let minute ← slice text 14 2
  let second ← slice text 17 2
  let ms ← slice text 20 3
  if text.drop 23 = units "+00:00" then
    some (((dayOf year month dom * 86400 + hour * 3600 + minute * 60 + second) * 1000 + ms) * 1000)
  else none

def numberStamp (t : Instant) : Str := (Number.int (t / 1000 * 1000)).text ++ [unit '#']

def readStamp (text : Str) : Option Instant :=
  if text.getLast? = some (unit '#') then
    match Number.read text.dropLast with
    | some (.int i) => some i
    | _ => none
  else readIso text

theorem read_numberStamp (t : Instant) :
    parseWith readStamp (numberStamp t) = some (t / 1000 * 1000) := by
  have hlast : (numberStamp t).getLast? = some (unit '#') := by simp [numberStamp]
  have hdrop : (numberStamp t).dropLast = (Number.int (t / 1000 * 1000)).text := by
    simp [numberStamp]
  have hne : unit '#' ≠ unit 'Z' := by decide
  unfold parseWith withOffset
  rw [if_neg (by simp [numberStamp]), if_neg (by simp [hlast, hne])]
  unfold readStamp
  rw [if_pos hlast, hdrop, Number.read_text]

def utc : Calendar where
  fromisoformat := readStamp
  iso t := if parseWith readStamp (isoText t) = some (t / 1000 * 1000) then isoText t
    else numberStamp t
  parse_iso t := by
    split
    · rename_i h
      exact h
    · exact read_numberStamp t

example : utc.iso 1785000000123456 = units "2026-07-25T17:20:00.123Z" := by decide +kernel

end OpenBrain.Provider.Gate
