import ShardQuery.Json.Basic
import ShardQuery.Power
/-! # Typed reading of JSON values

A record is an object with named members, of which unknown ones are skipped and known ones may stand once,
or an array of its fields in order. -/

namespace ShardQuery.Json

/-- The only member of a name; fails when there are several. -/
def uniqueMember? (name : String) (members : List (String × Json)) : Option (Option Json) :=
  match members.filter fun m => m.1 = name with
  | [] => some none
  | [m] => some (some m.2)
  | _ => none

/-- The fields of a record in the order of their names, each absent or given. -/
def record? (names : List String) : Json → Option (List (Option Json))
  | .object members => names.mapM fun name => uniqueMember? name members
  | .array items =>
    if items.length ≤ names.length then
      some (items.map some ++ List.replicate (names.length - items.length) none)
    else none
  | _ => none

def asString? : Json → Option String
  | .string s => some s
  | _ => none

def asBool? : Json → Option Bool
  | .bool b => some b
  | _ => none

def asInt64? : Json → Option Int
  | .number (.int n) => if n < 2 ^ 63 then some n else none
  | _ => none

def asOptional? {α : Type} (read : Json → Option α) : Json → Option (Option α)
  | .null => some none
  | v => (read v).map some

def asList? {α : Type} (read : Json → Option α) : Json → Option (List α)
  | .array items => items.mapM read
  | _ => none

def asMembers? {α : Type} (read : Json → Option α) : Json → Option (List (String × α))
  | .object members => members.mapM fun m => (read m.2).map fun v => (m.1, v)
  | _ => none

/-- The name of a choice without content: a string, or an object whose only member has no value. -/
def asChoice? : Json → Option String
  | .string s => some s
  | .object [(s, .null)] => some s
  | _ => none

def fieldOr {α : Type} (default : α) (read : Json → Option α) : Option Json → Option α
  | none => some default
  | some v => read v

end ShardQuery.Json
