import ShardQuery.Digest.Sha256
import ShardQuery.Identifier.Error
import ShardQuery.Identifier.Radix
import ShardQuery.Power
import ShardQuery.Text.Fields
/-! # Hash bases

The base `[+TOD.]H0.H1.H2` of an identifier: three seeded hashes of the content in radix 36, and before
them, marked by a plus sign, the millisecond of the day when one is known. -/

namespace ShardQuery

/-- Three content hashes and the milliseconds since midnight, if known. -/
structure HashBase where
  h0 : Int32
  h1 : Int32
  h2 : Int32
  timeOfDay : Option Nat
deriving DecidableEq, Inhabited

namespace HashBase

/-- Hash bases compare by one hash after the other, then by time of day, none coming first. -/
abbrev order : HashBase → HashBase → Ordering :=
  compareLex (compareOn fun b => b.h0.toInt) <| compareLex (compareOn fun b => b.h1.toInt) <|
    compareLex (compareOn fun b => b.h2.toInt) (compareOn timeOfDay)

instance : Ord HashBase := ⟨order⟩

abbrev SeededHash := UInt32 → List UInt8 → Int32

/-- The first four bytes of the SHA-256 digest of the seed and the content. -/
def contentHash : SeededHash := fun seed content =>
  (Sha256.digest (Sha256.wordBytes seed ++ content)).a.toInt32

def ofContentBy (hash : SeededHash) (content : List UInt8) (timeOfDay : Option Nat) : HashBase :=
  ⟨hash 0x9747b28c content, hash 0x5bd1e995 content, hash 0x1b873593 content, timeOfDay⟩

def ofContent (content : List UInt8) (timeOfDay : Option Nat) : HashBase :=
  ofContentBy contentHash content timeOfDay

def hashSegments (b : HashBase) : List (List Char) :=
  [Radix.chars b.h0.toInt, Radix.chars b.h1.toInt, Radix.chars b.h2.toInt]

def timeSegments (b : HashBase) : List (List Char) :=
  match b.timeOfDay with
  | some ms => ['+' :: Radix.chars ms]
  | none => []

def segments (b : HashBase) : List (List Char) := b.timeSegments ++ b.hashSegments

/-- The hashes alone, which the content determines. -/
def hashPortion (b : HashBase) : String := String.ofList (Text.join ['.'] b.hashSegments)

def text (b : HashBase) : String := String.ofList (Text.join ['.'] b.segments)

def readHash? (part : List Char) : Option Int32 :=
  (Radix.read? part).bind fun v =>
    if -2 ^ 31 ≤ v ∧ v < 2 ^ 31 then some (Int32.ofInt v) else none

def readHash (part : List Char) : Except FormatFault Int32 :=
  match readHash? part with
  | some h => .ok h
  | none => .error (.hashSegment (String.ofList part))

def readHashes (timeOfDay : Option Nat) :
    List (List Char) → Except FormatFault (HashBase × List (List Char))
  | p0 :: p1 :: p2 :: rest => do
    let h0 ← readHash p0
    let h1 ← readHash p1
    let h2 ← readHash p2
    return (⟨h0, h1, h2, timeOfDay⟩, rest)
  | _ => .error .missingHashes

def read : List (List Char) → Except FormatFault (HashBase × List (List Char))
  | ('+' :: marked) :: rest =>
    match Radix.read? marked with
    | some (.ofNat ms) =>
      if ms < millisPerDay then readHashes (some ms) rest else .error .timeOfDay
    | _ => .error .timeOfDay
  | parts => readHashes none parts

end HashBase
end ShardQuery
