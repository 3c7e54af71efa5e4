import ShardQuery.Holes.Set
import ShardQuery.Log.Basic
import ShardQuery.Ordered.Map
/-! # Listings of holes

Holes by field, in the order they were recorded. A listing is loaded from a JSON object of arrays, in which
every hole has to be valid. -/

namespace ShardQuery

structure HoleListing where
  byField : OrderedMap String (List Hole) := ∅
deriving DecidableEq

namespace HoleListing

instance : Inhabited HoleListing := ⟨{}⟩

def insert (l : HoleListing) (field : String) (hole : Hole) : HoleListing :=
  ⟨l.byField.insert field (((l.byField.find? field).getD []) ++ [hole])⟩

def fields (l : HoleListing) : List String := l.byField.keys

def holesFor (l : HoleListing) (field : String) : HoleSet :=
  match l.byField.find? field with
  | some holes => OrderedSet.ofList holes
  | none => ∅

def allHoles (l : HoleListing) : List Hole := l.byField.toList.flatMap Prod.snd

/-- A listing read from JSON, of a repeated field the last. -/
def ofJson? (v : Json) : Option HoleListing := do
  let members ← Json.asMembers? (Json.asList? Hole.ofJson?) v
  return ⟨OrderedMap.ofList members⟩

def parse (s : String) : Except HoleError HoleListing :=
  match (Json.read? s).bind ofJson? with
  | none => .error .notJson
  | some l =>
    match HoleSet.validateAll l.allHoles with
    | .ok _ => .ok l
    | .error e => .error e

def reportLoaded (l : HoleListing) (path : String) (log : Log) : Log :=
  log.report .holesLoaded
    [("path", path), ("fields", Text.decimal l.byField.size),
     ("holes", Text.decimal l.allHoles.length)]

end HoleListing
end ShardQuery
