import ShardQuery.Binary64.Basic
import ShardQuery.Power
import ShardQuery.Text.Numeral
/-! # Shortest decimals

The fewest decimal digits that read back as the same double, and of those the ones nearest to its exact
value. A candidate is one of the two neighbours of the value on a decimal grid, and it reads back when it
lies in the interval of numbers that round to the double. -/

namespace ShardQuery.Binary64

/-- A decimal `digits * 10 ^ exponent`. -/
structure Decimal where
  digits : Nat
  exponent : Int
deriving DecidableEq, Inhabited

/-- Ends of the interval that rounds to a magnitude, in quarters of `2 ^ -1074`. Below a power of two
the neighbour is nearer. -/
def interval (x : Binary64) : Nat × Nat :=
  let unit := 2 ^ x.exponent
  let below := if x.significand = 2 ^ 52 ∧ 0 < x.exponent then unit else 2 * unit
  (4 * x.units - below, 4 * x.units + 2 * unit)

/-- True when `numerator / denominator` lies in the interval; the ends belong to an even significand. -/
def readsBack (x : Binary64) (numerator denominator : Nat) : Bool :=
  let ends := x.interval
  let n := 4 * unitsPerOne * numerator
  if x.significand % 2 = 0 then ends.1 * denominator ≤ n && n ≤ ends.2 * denominator
  else ends.1 * denominator < n && n < ends.2 * denominator

def Decimal.ratio (d : Decimal) : Nat × Nat :=
  match d.exponent with
  | .ofNat e => (d.digits * 10 ^ e, 1)
  | .negSucc e => (d.digits, 10 ^ (e + 1))

/-- The candidate of the grid `10 ^ exponent`: the nearer of the two neighbours that reads back, the even
one of two equally near. -/
def candidate? (x : Binary64) (exponent : Int) : Option Decimal :=
  let grid := Decimal.ratio ⟨1, exponent⟩
  let unit := grid.1 * unitsPerOne
  let value := x.units * grid.2
  let low := value / unit
  let rest := value % unit
  let lowFits := x.readsBack (low * grid.1) grid.2
  let highFits := x.readsBack ((low + 1) * grid.1) grid.2
  let preferHigh := decide (unit < 2 * rest) || (decide (2 * rest = unit) && low % 2 = 1)
  if highFits && (preferHigh || !lowFits) then some ⟨low + 1, exponent⟩
  else if lowFits then some ⟨low, exponent⟩
  else none

def leadingExponent (numerator denominator : Nat) : Nat → Int → Int
  | 0, e => e
  | fuel + 1, e =>
    let grid := Decimal.ratio ⟨1, e⟩
    if grid.1 * denominator ≤ numerator * grid.2 then e
    else leadingExponent numerator denominator fuel (e - 1)

def firstCandidate (x : Binary64) : Nat → Int → Decimal
  | 0, e => ⟨0, e⟩
  | fuel + 1, e =>
    match x.candidate? e with
    | some d => d
    | none => firstCandidate x fuel (e - 1)

def Decimal.stripZeros (d : Decimal) : Nat → Decimal
  | 0 => d
  | fuel + 1 =>
    if d.digits % 10 = 0 ∧ d.digits ≠ 0 then stripZeros ⟨d.digits / 10, d.exponent + 1⟩ fuel else d

def shortest (x : Binary64) : Decimal :=
  let estimate : Int := ((x.units.log2 : Int) - 1074) * 30103 / 100000 + 1
  let top := leadingExponent x.units unitsPerOne 4 estimate
  (firstCandidate x 18 (top + 1)).stripZeros 20

end ShardQuery.Binary64
