import ShardQuery.Binary64.Printer
import ShardQuery.Binary64.Decimal
import ShardQuery.Power
/-! # JSON numbers

A JSON number is an integer that fits 64 bits, signed or unsigned, or a finite double. The reader keeps
as many leading digits as fit 64 bits, scales them by the rest of the decimal exponent, and refuses a
number beyond the range of a double. -/

namespace ShardQuery.Json

/-- An integer from `-2 ^ 63` to below `2 ^ 64`, or a double. -/
inductive Number where
  | int (n : Int)
  | float (x : Binary64)
deriving DecidableEq, Inhabited

def Number.render : Number → String
  | .int n => Text.decimalInt n
  | .float x => x.render

/-- The parts of a number as written: digits before and after the point, and the exponent. -/
structure Numeral where
  negative : Bool
  whole : List Nat
  fraction : Option (List Nat)
  exponent : Option Int

namespace Numeral

def fits (n d : Nat) : Bool := n * 10 + d < 2 ^ 64

def leading : List Nat → Nat → Nat × Nat
  | [], n => (n, 0)
  | d :: ds, n => if fits n d then leading ds (n * 10 + d) else (n, ds.length + 1)

def float? (t : Numeral) : Option Binary64 := do
  let (whole, dropped) := leading t.whole 0
  let fraction := t.fraction.getD []
  let (coefficient, skipped) := leading fraction whole
  let taken := fraction.length - skipped
  let x ← (Binary64.ofNat coefficient).scaleByTen? (t.exponent.getD 0 + dropped - taken)
  return if t.negative then x.neg else x

/-- The number of a numeral; nothing when it is out of range. Only whole numbers without point and
exponent are integers, and minus zero is a double. -/
def number? (t : Numeral) : Option Number :=
  let n := Text.ofDigits 10 t.whole
  if t.fraction.isNone && t.exponent.isNone && n < 2 ^ 64 then
    if !t.negative then some (.int n)
    else if 0 < n ∧ n ≤ 2 ^ 63 then some (.int (-n))
    else some (.float (Binary64.ofNat n).neg)
  else t.float?.map .float

end Numeral
end ShardQuery.Json
