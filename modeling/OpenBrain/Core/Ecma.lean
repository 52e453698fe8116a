import OpenBrain.Core.Json

/-!
# `JSON.stringify`: how ECMAScript quotes a string

`QuoteJSONString`: the two-character escapes, `\u00xx` for the other control
units, `\udxxx` for a surrogate that is not half of a pair, and every other
unit as it stands.
-/
namespace OpenBrain.Core.Ecma

def escapeUnit (u : UInt16) : Str :=
  if u = 0x08 then units "\\b"
  else if u = 0x09 then units "\\t"
  else if u = 0x0A then units "\\n"
  else if u = 0x0C then units "\\f"
  else if u = 0x0D then units "\\r"
  else if u = 0x22 then units "\\\""
  else if u = 0x5C then units "\\\\"
  else if u < 0x20 || isSurrogate u then uEscape u
  else [u]

def escape : Str → Str
  | [] => []
  | [u] => escapeUnit u
  | u :: v :: s =>
    if isHighSurrogate u && isLowSurrogate v then u :: v :: escape s
    else escapeUnit u ++ escape (v :: s)

/-- `QuoteJSONString`. -/
def quote (s : Str) : Str := unit '"' :: escape s ++ [unit '"']

/-- What a program that counts needs of its numbers: their text, the number of
a count, and `=== 0`. -/
structure Numbers (ν : Type) where
  text : ν → Str
  ofNat : Nat → ν
  isZero : ν → Bool
  isZero_ofNat : ∀ n, isZero (ofNat n) = decide (n = 0)

def Numbers.nat : Numbers Nat where
  text := decimal
  ofNat n := n
  isZero n := decide (n = 0)
  isZero_ofNat _ := rfl

/-- `JSON.stringify`. -/
def Numbers.printer {ν : Type} (N : Numbers ν) : Printer ν := ⟨N.text, quote⟩

end OpenBrain.Core.Ecma
