import ShardQuery.Power
import ShardQuery.Text.Numeral
/-! # Radix 36

Signed 64-bit integers in base 36 with lower-case digits. Only the canonical text is read: no leading
zeros, no plus sign, no minus zero. -/

namespace ShardQuery.Radix

def base : Nat := 36

/-- The text of an integer, a minus sign in front of a negative one. -/
def chars : Int → List Char
  | .ofNat n => Text.renderNat base n
  | .negSucc n => '-' :: Text.renderNat base (n + 1)

def render (value : Int) : String := String.ofList (chars value)

def inRange (value : Int) : Bool := -2 ^ 63 ≤ value && value < 2 ^ 63

/-- An integer in any spelling: a run of digits, a minus sign in front or not. -/
def loose? : List Char → Option Int
  | '-' :: ds => (Text.readNat? base ds).map fun n => -(n : Int)
  | ds => (Text.readNat? base ds).map fun n => (n : Int)

/-- The integer whose canonical text this is. -/
def read? (cs : List Char) : Option Int :=
  (loose? cs).filter fun value => inRange value && chars value = cs

def parse? (s : String) : Option Int := read? s.toList

end ShardQuery.Radix
