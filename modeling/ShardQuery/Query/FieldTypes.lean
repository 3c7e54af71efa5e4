import ShardQuery.Json.Decode
import ShardQuery.Json.Printer
import ShardQuery.Ordered.Map
import ShardQuery.Ordered.Set
/-! # Declared field types

Which value types each field was declared with. A field without any declared type counts as untyped,
whether it is unknown or declared with an empty list. -/

namespace ShardQuery

inductive FieldType where
  | text | number | date | ip | geo | boolean
deriving DecidableEq, Repr, Inhabited

namespace FieldType

def name : FieldType → String
  | text => "text"
  | number => "number"
  | date => "date"
  | ip => "ip"
  | geo => "geo"
  | boolean => "boolean"

def position : FieldType → Nat
  | text => 0
  | number => 1
  | date => 2
  | ip => 3
  | geo => 4
  | boolean => 5

def all : List FieldType := [text, number, date, ip, geo, boolean]

def ofName? (s : String) : Option FieldType := all.find? fun t => t.name = s

instance : Ord FieldType := ⟨compareOn position⟩
instance : Std.TransOrd FieldType := inferInstanceAs (Std.TransCmp (compareOn position))

theorem position_injective {a b : FieldType} (h : a.position = b.position) : a = b := by
  revert h
  cases a <;> cases b <;> decide

instance : Std.LawfulEqOrd FieldType where
  eq_of_compare h := position_injective (Std.LawfulEqOrd.eq_of_compare h)
  compare_self {a} := Std.ReflOrd.compare_self (a := a.position)

end FieldType

abbrev FieldTypes := OrderedMap String (OrderedSet FieldType)

namespace FieldTypes

def declare (r : FieldTypes) (field : String) (t : FieldType) : FieldTypes :=
  r.insert field (((r.find? field).getD ∅).insert t)

/-- True when a field has at least one declared type. -/
def isDeclared (r : FieldTypes) (field : String) : Bool :=
  match r.find? field with
  | none => false
  | some types => !types.isEmpty

def readType? (v : Json) : Option FieldType := (Json.asChoice? v).bind FieldType.ofName?

def ofJson? (v : Json) : Option FieldTypes := do
  let members ← Json.asMembers? (Json.asList? readType?) v
  return OrderedMap.ofList (members.map fun m => (m.1, OrderedSet.ofList m.2))

def toJson (r : FieldTypes) : Json :=
  .object (r.toList.map fun p => (p.1, .strings (p.2.toList.map FieldType.name)))

end FieldTypes
end ShardQuery
