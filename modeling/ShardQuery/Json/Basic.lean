import ShardQuery.Json.Number
/-! # JSON values

A JSON text as a tree. Members of an object keep their order and repetition. A part whose text is
grammatical but names no value, such as a number out of range or half a surrogate pair, is `unreadable`;
a reader that skips a part does not look inside it. -/

namespace ShardQuery

inductive Json where
  | null
  | bool (b : Bool)
  | number (n : Json.Number)
  | string (s : String)
  | array (items : List Json)
  | object (members : List (String × Json))
  | unreadable
deriving Inhabited

namespace Json

mutual
def depth : Json → Nat
  | .array items => depthOfItems items + 1
  | .object members => depthOfMembers members + 1
  | _ => 0
def depthOfItems : List Json → Nat
  | [] => 0
  | v :: vs => max v.depth (depthOfItems vs)
def depthOfMembers : List (String × Json) → Nat
  | [] => 0
  | (_, v) :: ms => max v.depth (depthOfMembers ms)
end

mutual
def isReadable : Json → Bool
  | .array items => itemsReadable items
  | .object members => membersReadable members
  | .unreadable => false
  | _ => true
def itemsReadable : List Json → Bool
  | [] => true
  | v :: vs => v.isReadable && itemsReadable vs
def membersReadable : List (String × Json) → Bool
  | [] => true
  | (_, v) :: ms => v.isReadable && membersReadable ms
end

/-- How many arrays and objects a value may nest that is read as a whole. -/
def depthLimit : Nat := 127

def isWhole (v : Json) : Bool := v.isReadable && v.depth ≤ depthLimit

def lastMembers (members : List (String × Json)) : List (String × Json) :=
  let rec go : List (String × Json) → List (String × Json) → List (String × Json)
    | kept, [] => kept
    | kept, m :: ms => go ((kept.filter fun k => k.1 ≠ m.1) ++ [m]) ms
  (go [] members).mergeSort fun p q => (compare p.1 q.1).isLE

mutual
/-- The same value with the members of every object in order of their names, the last of a repeated one. -/
def sorted : Json → Json
  | .array items => .array (sortedItems items)
  | .object members => .object (lastMembers (sortedMembers members))
  | v => v
def sortedItems : List Json → List Json
  | [] => []
  | v :: vs => v.sorted :: sortedItems vs
def sortedMembers : List (String × Json) → List (String × Json)
  | [] => []
  | (k, v) :: ms => (k, v.sorted) :: sortedMembers ms
end

def nat (n : Nat) : Json := .number (.int n)

def optionalString : Option String → Json
  | none => .null
  | some s => .string s

def strings (l : List String) : Json := .array (l.map .string)

end Json
end ShardQuery
