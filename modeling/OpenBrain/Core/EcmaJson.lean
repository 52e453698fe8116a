import OpenBrain.Core.JsonObject

/-!
# `JSON.parse` with every number it reads, and ECMAScript's strings and numbers

A JSON number past the largest double reads as an infinity, as it does in
`Core.PyJson`; `NaN` and the infinities have no JSON text of their own here.
`stringToNumber` is `Number(s)` of a string and `isBlank` is `!s.trim()`.
-/
namespace OpenBrain.Core.Ecma

/-- A Number value. -/
inductive Number where
  | finite (d : Double)
  | inf (neg : Bool)
  | nan
  deriving DecidableEq

/-- A value `JSON.parse` makes. -/
abbrev JsonValue := Json Number

def Number.ofDec (d : Dec) : Number :=
  match Double.ofDec d with
  | some x => .finite x
  | none => .inf d.neg

def Number.read (s : Str) : Option Number :=
  (readNum (chars s)).map fun t => Number.ofDec t.value

/-- `JSON.parse`; `none` is a `SyntaxError`. -/
def parseText (s : Str) : Option JsonValue :=
  (JsonText.parse Number.read JsonText.unquote s).map (Json.build object)

/-- What `JSON.stringify` writes for a number: one that is not finite is `null`. -/
def Number.toJson : Number → Json Double
  | .finite d => .num d
  | .inf _ | .nan => .null

mutual

/-- The value whose text `JSON.stringify` writes. -/
def written : JsonValue → Json Double
  | .null => .null
  | .bool b => .bool b
  | .num n => n.toJson
  | .str s => .str s
  | .arr xs => .arr (writtenElems xs)
  | .obj ms => .obj (writtenMembers ms)

def writtenElems : List JsonValue → List (Json Double)
  | [] => []
  | x :: xs => written x :: writtenElems xs

def writtenMembers : Members Number → Members Double
  | [] => []
  | (k, x) :: ms => (k, written x) :: writtenMembers ms

end

/-- `JSON.stringify` -/
def stringify (v : JsonValue) : Str := json.print (written v)

/-- The integer a number is, as `Number.isInteger` has it. -/
def Number.toInt : Number → Option Int
  | .finite d =>
    if d.1.exp < 0 then none
    else some ((if d.1.neg then -1 else 1) * (d.1.coeff * 10 ^ d.1.exp.toNat : Nat))
  | .inf _ | .nan => none

/-- `WhiteSpace` and `LineTerminator`. -/
def isSpace (u : UInt16) : Bool :=
  (0x09 ≤ u && u ≤ 0x0D) || u == 0x20 || u == 0xA0 || u == 0x1680 ||
    (0x2000 ≤ u && u ≤ 0x200A) || u == 0x2028 || u == 0x2029 || u == 0x202F || u == 0x205F ||
    u == 0x3000 || u == 0xFEFF

/-- `!s.trim()` -/
def isBlank (s : Str) : Bool := s.all isSpace

def trim (s : Str) : Str := ((s.dropWhile isSpace).reverse.dropWhile isSpace).reverse

/-! ## `StringToNumber` -/

/-- The value of a digit in a base up to 16. -/
def digitOf (base : Nat) (c : Char) : Option Nat :=
  let n :=
    if c.isDigit then c.toNat - 48
    else if 'a' ≤ c ∧ c ≤ 'f' then c.toNat - 87
    else if 'A' ≤ c ∧ c ≤ 'F' then c.toNat - 55
    else base
  if n < base then some n else none

/-- A run of digits up to the end of the text, at least one. -/
def digitsIn (base : Nat) (cs : List Char) : Option Nat :=
  match cs with
  | [] => none
  | cs => (cs.mapM (digitOf base)).map fun ds => ds.foldl (fun n d => n * base + d) 0

/-- `StrUnsignedDecimalLiteral` under a sign, less `Infinity`. -/
def decimalLiteral (neg : Bool) (cs : List Char) : Option Dec :=
  let (ip, cs) := spanDigits cs
  let (frac, cs) := match cs with
    | '.' :: cs => spanDigits cs
    | cs => ([], cs)
  if ip = [] ∧ frac = [] then none
  else (readExp cs).map fun exp => NumTok.value ⟨neg, ip, some frac, exp⟩

def signedLiteral (neg : Bool) (cs : List Char) : Number :=
  if cs = "Infinity".toList then .inf neg
  else
    match decimalLiteral neg cs with
    | some d => Number.ofDec d
    | none => .nan

def radixLiteral (base : Nat) (cs : List Char) : Number :=
  match digitsIn base cs with
  | some n => Number.ofDec (Dec.make false n 0)
  | none => .nan

/-- `Number(s)` -/
def stringToNumber (s : Str) : Number :=
  match chars (trim s) with
  | [] => Number.ofDec (Dec.make false 0 0)
  | '0' :: 'x' :: cs | '0' :: 'X' :: cs => radixLiteral 16 cs
  | '0' :: 'o' :: cs | '0' :: 'O' :: cs => radixLiteral 8 cs
  | '0' :: 'b' :: cs | '0' :: 'B' :: cs => radixLiteral 2 cs
  | '+' :: cs => signedLiteral false cs
  | '-' :: cs => signedLiteral true cs
  | cs => signedLiteral false cs

example : stringToNumber (units " 0x1f ") = Number.ofDec (Dec.make false 31 0) ∧
    stringToNumber (units "1e") = .nan := by
  decide +kernel

end OpenBrain.Core.Ecma
