import ShardQuery.Json.Decode
import ShardQuery.Json.Reader
import ShardQuery.Query.Expression
/-! # Expressions as JSON

An expression is an object whose member `node` names its kind, or an array that starts with that name, with
the fields of the kind beside or after it. A kind below the root may also be given by its number. -/

namespace ShardQuery

inductive NodeKind where
  | and | or | not | compare | function | field | value
deriving DecidableEq, Repr, Inhabited

namespace NodeKind

def name : NodeKind → String
  | and => "and"
  | or => "or"
  | not => "not"
  | compare => "compare"
  | function => "function"
  | field => "field"
  | value => "value"

def all : List NodeKind := [and, or, not, compare, function, field, value]

def fieldNames : NodeKind → List String
  | and | or => ["children"]
  | not => ["child"]
  | compare => ["op", "field", "literal"]
  | function => ["namespace", "name", "args"]
  | field => ["name"]
  | value => ["literal"]

/-- The kind of a tag: a name or, where numbers are accepted, a number. -/
def ofTag? (numbered : Bool) : Json → Option NodeKind
  | .string s => all.find? fun k => k.name = s
  | .number (.int (.ofNat n)) => if numbered then all[n]? else none
  | _ => none

end NodeKind

namespace Literal

def toJson : Literal → Json
  | null => .null
  | bool b => .bool b
  | number n => .number n
  | string s => .string s

def ofJson? : Json → Option Literal
  | .null => some null
  | .bool b => some (bool b)
  | .number n => some (number n)
  | .string s => some (string s)
  | _ => none

end Literal

/-- An operator read from JSON: its symbol, or an object whose only member is named by the symbol and has
no content. -/
def CompareOp.ofJson? : Json → Option CompareOp
  | .string s | .object [(s, .null)] | .object [(s, .object [])] => ofSymbol? s
  | _ => none

namespace Expression

mutual
def toJson : Expression → Json
  | .and children => .object [("node", .string "and"), ("children", .array (toJsons children))]
  | .or children => .object [("node", .string "or"), ("children", .array (toJsons children))]
  | .not child => .object [("node", .string "not"), ("child", child.toJson)]
  | .compare op f literal =>
    .object
      [("node", .string "compare"), ("op", .string op.symbol), ("field", .string f),
       ("literal", literal.toJson)]
  | .function scope name args =>
    .object
      [("node", .string "function"), ("namespace", .string scope), ("name", .string name),
       ("args", .array (toJsons args))]
  | .field name => .object [("node", .string "field"), ("name", .string name)]
  | .value literal => .object [("node", .string "value"), ("literal", literal.toJson)]
def toJsons : List Expression → List Json
  | [] => []
  | e :: es => e.toJson :: toJsons es
end

def nodeFields? (numbered : Bool) (v : Json) : Option (NodeKind × List (Option Json)) :=
  match v with
  | .object members => do
    let tag ← (← Json.uniqueMember? "node" members)
    let kind ← NodeKind.ofTag? numbered tag
    return (kind, ← Json.record? kind.fieldNames v)
  | .array (tag :: items) => do
    let kind ← NodeKind.ofTag? numbered tag
    return (kind, ← Json.record? kind.fieldNames (.array items))
  | _ => none

theorem sizeOf_lt_of_uniqueMember {name : String} {members : List (String × Json)} {x : Json}
    (h : Json.uniqueMember? name members = some (some x)) : sizeOf x < sizeOf members := by
  unfold Json.uniqueMember? at h
  split at h
  · simp at h
  · next m hm =>
    obtain rfl : m.2 = x := by simpa using h
    have hmem : m ∈ members := (List.mem_filter.1 (hm ▸ List.mem_singleton_self m)).1
    have h1 := List.sizeOf_lt_of_mem hmem
    have h2 : sizeOf m.2 < sizeOf m := by cases m; simp only [Prod.mk.sizeOf_spec]; omega
    omega
  · simp at h

theorem mem_of_mapM_eq_some {α β : Type} {f : α → Option β} {l : List α} {l' : List β}
    (h : l.mapM f = some l') : ∀ y ∈ l', ∃ x ∈ l, f x = some y := by
  induction l generalizing l' with
  | nil => obtain rfl : l' = [] := by simpa using h.symm
           simp
  | cons a l ih =>
    simp only [List.mapM_cons, Option.bind_eq_bind, Option.bind_eq_some_iff, Option.pure_def,
      Option.some.injEq] at h
    obtain ⟨b, hb, bs, hbs, rfl⟩ := h
    intro y hy
    rcases List.mem_cons.1 hy with rfl | hy
    · exact ⟨a, by simp, hb⟩
    · obtain ⟨x, hx, hxy⟩ := ih hbs y hy
      exact ⟨x, by simp [hx], hxy⟩

theorem sizeOf_lt_of_mem_record {names : List String} {v x : Json} {fields : List (Option Json)}
    (h : Json.record? names v = some fields) (hx : some x ∈ fields) : sizeOf x < sizeOf v := by
  unfold Json.record? at h
  split at h
  · next members =>
    obtain ⟨name, _, hname⟩ := mem_of_mapM_eq_some h _ hx
    have := sizeOf_lt_of_uniqueMember hname
    simp; omega
  · next items =>
    split at h
    · obtain rfl := Option.some.inj h
      have hx : x ∈ items := by simpa using hx
      have := List.sizeOf_lt_of_mem hx
      simp; omega
    · simp at h
  · simp at h

theorem sizeOf_lt_of_mem_nodeFields {numbered : Bool} {v x : Json} {kind : NodeKind}
    {fields : List (Option Json)} (h : nodeFields? numbered v = some (kind, fields))
    (hx : some x ∈ fields) : sizeOf x < sizeOf v := by
  unfold nodeFields? at h
  split at h
  · simp only [Option.bind_eq_bind, Option.bind_eq_some_iff, Option.pure_def, Option.some.injEq,
      Prod.mk.injEq] at h
    obtain ⟨_, _, _, _, k, _, fields', hr, rfl, rfl⟩ := h
    exact sizeOf_lt_of_mem_record hr hx
  · simp only [Option.bind_eq_bind, Option.bind_eq_some_iff, Option.pure_def, Option.some.injEq,
      Prod.mk.injEq] at h
    obtain ⟨k, _, fields', hr, rfl, rfl⟩ := h
    have := sizeOf_lt_of_mem_record hr hx
    simp only [Json.array.sizeOf_spec, List.cons.sizeOf_spec] at this ⊢
    omega
  · simp at h

mutual
/-- An expression read from JSON; the tag of the root is numbered only where that is said. -/
def ofJson? (numbered : Bool) (v : Json) : Option Expression :=
  match _h : nodeFields? numbered v with
  | some (.and, [some children]) => (listOfJson? children).map .and
  | some (.or, [some children]) => (listOfJson? children).map .or
  | some (.not, [some child]) => (ofJson? true child).map .not
  | some (.compare, [some op, some f, some literal]) => do
    return .compare (← CompareOp.ofJson? op) (← Json.asString? f) (← Literal.ofJson? literal)
  | some (.function, [some scope, some name, none]) => do
    return .function (← Json.asString? scope) (← Json.asString? name) []
  | some (.function, [some scope, some name, some args]) => do
    return .function (← Json.asString? scope) (← Json.asString? name) (← listOfJson? args)
  | some (.field, [some name]) => (Json.asString? name).map .field
  | some (.value, [some literal]) => (Literal.ofJson? literal).map .value
  | _ => none
termination_by sizeOf v
decreasing_by all_goals exact sizeOf_lt_of_mem_nodeFields _h (by simp)
def listOfJson? (v : Json) : Option (List Expression) :=
  match v with
  | .array items => allOfJson? items
  | _ => none
termination_by sizeOf v
decreasing_by simp
def allOfJson? (items : List Json) : Option (List Expression) :=
  match items with
  | [] => some []
  | v :: vs => do
    let e ← ofJson? true v
    return e :: (← allOfJson? vs)
termination_by sizeOf items
decreasing_by all_goals simp <;> omega
end

def parse? (s : String) : Option Expression := (Json.readWhole? s).bind (ofJson? false)

end Expression
end ShardQuery
