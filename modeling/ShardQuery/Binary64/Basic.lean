import ShardQuery.Power
/-! # Double-precision numbers

A finite number of the binary64 format is its 64-bit word. Its magnitude is a whole multiple of the
smallest one, `2 ^ -1074`, and an exact ratio is rounded to the nearest such number, a tie to the even
word; a ratio too large for the format has no rounding. -/

namespace ShardQuery

structure Binary64 where
  word : UInt64
deriving DecidableEq, Inhabited

namespace Binary64

/-- Words of magnitude from here on are not finite. -/
def infinityWord : Nat := 0x7ff0000000000000

/-- True of negative numbers and of minus zero. -/
def isNegative (x : Binary64) : Bool := 2 ^ 63 ≤ x.word.toNat

def magnitudeWord (x : Binary64) : Nat := x.word.toNat % 2 ^ 63

/-- The significand, with its leading bit when the number is normal. -/
def significand (x : Binary64) : Nat :=
  let fraction := x.magnitudeWord % 2 ^ 52
  if x.magnitudeWord < 2 ^ 52 then fraction else 2 ^ 52 + fraction

/-- How many doublings of `2 ^ -1074` the unit of the significand is. -/
def exponent (x : Binary64) : Nat := x.magnitudeWord / 2 ^ 52 - 1

/-- The magnitude as a multiple of `2 ^ -1074`. -/
def units (x : Binary64) : Nat := x.significand * 2 ^ x.exponent

def isZero (x : Binary64) : Bool := x.magnitudeWord = 0

def unitsPerOne : Nat := 2 ^ 1074

def ofMagnitude (negative : Bool) (magnitude : Nat) : Binary64 :=
  ⟨UInt64.ofNat (if negative then 2 ^ 63 + magnitude else magnitude)⟩

def zero (negative : Bool) : Binary64 := ofMagnitude negative 0

/-- The magnitude word nearest to `numerator / denominator`, ties to even, possibly infinite. -/
def roundMagnitude (numerator denominator : Nat) : Nat :=
  let scaled := numerator * unitsPerOne
  let whole := scaled / denominator
  let shift := whole.log2 - 52
  let unit := denominator * 2 ^ shift
  let floor := scaled / unit
  let rest := scaled % unit
  let up := decide (unit < 2 * rest) || (decide (2 * rest = unit) && floor % 2 = 1)
  shift * 2 ^ 52 + floor + if up then 1 else 0

/-- The number nearest to `± numerator / denominator`; nothing when that is not finite. -/
def ofRatio? (negative : Bool) (numerator denominator : Nat) : Option Binary64 :=
  let magnitude := roundMagnitude numerator denominator
  if magnitude < infinityWord then some (ofMagnitude negative magnitude) else none

def ofNat (n : Nat) : Binary64 := ofMagnitude false (roundMagnitude n 1)

def neg (x : Binary64) : Binary64 := ofMagnitude (!x.isNegative) x.magnitudeWord

def mul? (x y : Binary64) : Option Binary64 :=
  ofRatio? (x.isNegative != y.isNegative) (x.units * y.units) (unitsPerOne * unitsPerOne)

def div? (x y : Binary64) : Option Binary64 :=
  ofRatio? (x.isNegative != y.isNegative) x.units y.units

end Binary64
end ShardQuery
