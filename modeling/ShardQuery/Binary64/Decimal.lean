import ShardQuery.Binary64.Basic
import ShardQuery.Power
import ShardQuery.Text.Numeral
/-! # Decimal numbers as doubles

A decimal `digits * 10 ^ exponent` is rounded once, from its exact value. Exponents far outside the
range of the format are settled without computing the power. -/

namespace ShardQuery.Binary64

def ofDecimal? (negative : Bool) (digits : List Nat) (exponent : Int) : Option Binary64 :=
  let digits := digits.dropWhile (· = 0)
  let coefficient := Text.ofDigits 10 digits
  let top := exponent + digits.length
  if digits.isEmpty then some (zero negative)
  else if 310 < top then none
  else if top < -330 then some (zero negative)
  else
    match exponent with
    | .ofNat e => ofRatio? negative (coefficient * 10 ^ e) 1
    | .negSucc e => ofRatio? negative coefficient (10 ^ (e + 1))

def powerOfTen (e : Nat) : Binary64 := ofMagnitude false (roundMagnitude (10 ^ e) 1)

/-- Scales a number by a power of ten in rounded steps of at most 308 places; nothing when the result
is not finite. Below `10 ^ -616` every number that fits 64 bits has become zero. -/
def scaleByTen? (x : Binary64) (exponent : Int) : Option Binary64 :=
  if x.isZero then some x
  else if 308 < exponent then none
  else if 0 ≤ exponent then x.mul? (powerOfTen exponent.toNat)
  else if -308 ≤ exponent then x.div? (powerOfTen (-exponent).toNat)
  else if -616 ≤ exponent then do
    let y ← x.div? (powerOfTen 308)
    y.div? (powerOfTen (-(exponent + 308)).toNat)
  else some (zero x.isNegative)

end ShardQuery.Binary64
