import ShardQuery.Json.Reader
import ShardQuery.Power
import ShardQuery.Text.Blank
/-! # Numeric literals

Numbers as people write them in a query: decimal integers with an optional `L`, hexadecimal integers after
`0x` or `#`, and decimals with an optional exponent and `F` or `D`. An integer that does not fit 64 bits
becomes a double, and what is not finite is no number. -/

namespace ShardQuery.NumericLiteral

open Json (Number)

/-- The integer of a magnitude and a sign, or the double of one below `-2 ^ 63`. -/
def signed (magnitude : Nat) (negative : Bool) : Number :=
  if !negative then .int magnitude
  else if magnitude ≤ 2 ^ 63 then .int (-magnitude)
  else .float (Binary64.ofNat magnitude).neg

def hex? (cs : List Char) (negative : Bool) : Option Number :=
  (Text.readNat? 16 (cs.map Char.toLower)).bind fun n =>
    if n < 2 ^ 64 then some (signed n negative) else none

def mantissa? (cs : List Char) : Option (List Nat × Nat × List Char) :=
  let (whole, rest) := Json.takeDigits cs
  let (fraction, rest) :=
    match rest with
    | '.' :: rest => Json.takeDigits rest
    | rest => ([], rest)
  if whole.isEmpty && fraction.isEmpty then none else some (whole ++ fraction, fraction.length, rest)

def decimal? (cs : List Char) (negative : Bool) : Option Number := do
  let (digits, places, rest) ← mantissa? cs
  let (exponent, rest) ← Json.exponentPart? rest
  if rest.isEmpty then
    (Binary64.ofDecimal? negative digits (exponent.getD 0 - places)).map .float
  else none

/-- A non-empty run of decimal digits: an integer when it fits 64 bits, a double when not. -/
def integer? (cs : List Char) (negative : Bool) : Option Number :=
  (Text.readNat? 10 cs).bind fun n =>
    if n < 2 ^ 64 then some (signed n negative) else decimal? cs negative

def afterHexMark? : List Char → Option (List Char)
  | '0' :: 'x' :: rest | '0' :: 'X' :: rest | '#' :: rest => some rest
  | _ => none

def unsigned? (cs : List Char) (negative : Bool) : Option Number :=
  match afterHexMark? cs with
  | some rest => hex? rest negative
  | none =>
    match cs.getLast? with
    | none => none
    | some last =>
      if last = 'l' ∨ last = 'L' then
        if cs.dropLast.all Char.isDigit then integer? cs.dropLast negative else none
      else if last = 'f' ∨ last = 'F' ∨ last = 'd' ∨ last = 'D' then decimal? cs.dropLast negative
      else if cs.all Char.isDigit then integer? cs negative
      else decimal? cs negative

def read? (cs : List Char) : Option Number :=
  match Text.trim cs with
  | [] => none
  | '-' :: rest => unsigned? rest true
  | '+' :: rest => unsigned? rest false
  | rest => unsigned? rest false

def parse? (s : String) : Option Number := read? s.toList

end ShardQuery.NumericLiteral
