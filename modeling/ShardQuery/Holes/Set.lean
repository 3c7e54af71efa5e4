import ShardQuery.Holes.Basic
import ShardQuery.Json.Reader
import ShardQuery.Ordered.Set
/-! # Sets of holes

The holes of one field in order. A look-up sweeps up to the first hole that starts above the values asked
for, which no later hole can meet. -/

namespace ShardQuery

abbrev HoleSet := OrderedSet Hole

namespace HoleSet

def validateAll (holes : List Hole) : Except HoleError Unit := holes.forM Hole.validate

def parse (s : String) : Except HoleError HoleSet :=
  match (Json.read? s).bind (Json.asList? Hole.ofJson?) with
  | none => .error .notJson
  | some holes =>
    match validateAll holes with
    | .ok _ => .ok (OrderedSet.ofList holes)
    | .error e => .error e

def overlappingValue (s : HoleSet) (queryStart queryEnd value : String) : List Hole :=
  ((s.toList.takeWhile fun h => !h.after value).filter fun h => !h.before value).filter fun h =>
    h.overlaps queryStart queryEnd value

def overlappingRange (s : HoleSet) (queryStart queryEnd lower upper : String) : List Hole :=
  ((s.toList.takeWhile fun h => !h.after upper).filter fun h => !h.before lower).filter fun h =>
    h.overlapsRange queryStart queryEnd lower upper

/-- True when the index can be trusted for a value. -/
def usableForValue (s : HoleSet) (queryStart queryEnd value : String) : Bool :=
  (s.overlappingValue queryStart queryEnd value).isEmpty

def usableForRange (s : HoleSet) (queryStart queryEnd lower upper : String) : Bool :=
  (s.overlappingRange queryStart queryEnd lower upper).isEmpty

end HoleSet
end ShardQuery
