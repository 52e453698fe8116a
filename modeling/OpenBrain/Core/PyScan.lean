import OpenBrain.Core.Quote

/-!
# What stops Python's JSON scanner

`json.loads` reports a text that is not JSON as a `JSONDecodeError`. Two limits of the
interpreter stop it otherwise: an integer of more digits than `sys.get_int_max_str_digits()`
is a plain `ValueError`, and brackets nested deeper than the scanner recurses are a
`RecursionError`. `loadsRaises` follows the scanner unit by unit, so that a limit counts only
where the text before it is JSON so far. The fuel is no third limit: of any three calls in a row
one takes a unit of the text, and there are three for each unit.
-/
namespace OpenBrain.Core.Py
open OpenBrain.Core.JsonText (isDigit skipWs scanStr dropLit unescape)

/-- The digits of an integer the interpreter converts (`0` for any number of them) and the
brackets its scanner enters. -/
structure Limits where
  digits : Nat
  depth : Nat

/-- What scanning a part of a text comes to. -/
inductive Scanned where
  | rest (r : Str)
  | error
  | raised
  deriving DecidableEq

def Scanned.ofOption : Option Str → Scanned
  | some r => .rest r
  | none => .error

def skipString (s : Str) : Option Str :=
  (scanStr s).bind fun (body, r) => if (unescape body).isSome then some r else none

def skipKey (s : Str) : Option Str :=
  match skipWs s with
  | u :: s =>
    if u = unit '"' then
      (skipString s).bind fun r =>
        match skipWs r with
        | v :: r => if v = unit ':' then some r else none
        | [] => none
    else none
  | [] => none

def skipFraction : Str → Option Str
  | p :: d :: s => if p = unit '.' && isDigit d then some (s.dropWhile isDigit) else none
  | _ => none

/-- An exponent: the letter, a sign or none, and a digit at least. -/
def skipExponent : Str → Option Str
  | e :: s =>
    if e = unit 'e' || e = unit 'E' then
      match (match s with
        | u :: s => if u = unit '+' || u = unit '-' then s else u :: s
        | [] => []) with
      | d :: s => if isDigit d then some (s.dropWhile isDigit) else none
      | [] => none
    else none
  | [] => none

/-- The longest number in front: the digits of an integer, `none` for a float, and the rest. -/
def matchNumber (s : Str) : Option (Option Nat × Str) :=
  match (match s with
    | u :: s => if u = unit '-' then s else u :: s
    | [] => []) with
  | [] => none
  | u :: s =>
    if isDigit u then
      let digits := if u = unit '0' then 1 else 1 + (s.takeWhile isDigit).length
      let s := if u = unit '0' then s else s.dropWhile isDigit
      let fraction := skipFraction s
      let exponent := skipExponent (fraction.getD s)
      some (if fraction.isNone && exponent.isNone then some digits else none,
        exponent.getD (fraction.getD s))
    else none

def scanNumber (L : Limits) (s : Str) : Scanned :=
  match matchNumber s with
  | some (some digits, r) => if L.digits ≠ 0 ∧ L.digits < digits then .raised else .rest r
  | some (none, r) => .rest r
  | none => .error

def scanConstant (L : Limits) (s : Str) : Scanned :=
  match dropLit (units "NaN") s, dropLit (units "Infinity") s, dropLit (units "-Infinity") s with
  | some r, _, _ | none, some r, _ | none, none, some r => .rest r
  | none, none, none => scanNumber L s

def closing (object : Bool) : UInt16 := if object then unit '}' else unit ']'

mutual

/-- A value; `depth` brackets may still be entered. -/
def scanValue (L : Limits) : Nat → Nat → Str → Scanned
  | 0, _, _ => .error
  | n + 1, depth, s =>
    match skipWs s with
    | [] => .error
    | u :: s =>
      if u = unit '"' then .ofOption (skipString s)
      else if u = unit '[' then scanOpen L n depth false s
      else if u = unit '{' then scanOpen L n depth true s
      else if u = unit 'n' then .ofOption (dropLit (units "null") (u :: s))
      else if u = unit 't' then .ofOption (dropLit (units "true") (u :: s))
      else if u = unit 'f' then .ofOption (dropLit (units "false") (u :: s))
      else scanConstant L (u :: s)

def scanOpen (L : Limits) : Nat → Nat → Bool → Str → Scanned
  | 0, _, _, _ => .error
  | _ + 1, 0, _, _ => .raised
  | n + 1, depth + 1, object, s =>
    match skipWs s with
    | [] => .error
    | u :: s =>
      if u = closing object then .rest s
      else scanItems L n depth object (u :: s)

/-- The members of an object or the elements of an array, with the closing bracket. -/
def scanItems (L : Limits) : Nat → Nat → Bool → Str → Scanned
  | 0, _, _, _ => .error
  | n + 1, depth, object, s =>
    match (if object then skipKey s else some s) with
    | none => .error
    | some r =>
      match scanValue L n depth r with
      | .rest r =>
        match skipWs r with
        | [] => .error
        | u :: r =>
          if u = unit ',' then scanItems L n depth object r
          else if u = closing object then .rest r
          else .error
      | stopped => stopped

end

/-- Whether `json.loads` ends by anything but a value or a `JSONDecodeError`. -/
def loadsRaises (L : Limits) (s : Str) : Bool :=
  scanValue L (3 * s.length + 1) L.depth s = .raised

end OpenBrain.Core.Py
