import ShardQuery.Json.Decode
import ShardQuery.Json.Printer
import ShardQuery.Ordered.Map
import ShardQuery.Power
import ShardQuery.Text.Numeral
/-! # Query settings

A query as it is submitted: an identifier of 128 bits, a name, the text of its expression and named
parameters. A duplicate keeps expression and parameters under a name and an identifier of its own. -/

namespace ShardQuery

abbrev QueryId := Fin (2 ^ 128)

namespace QueryId

instance : Inhabited QueryId := ⟨0⟩

def groups : List Nat := [8, 4, 4, 4, 12]

def cut : List Nat → List Char → List (List Char)
  | [], _ => []
  | n :: ns, cs => cs.take n :: cut ns (cs.drop n)

def text (id : QueryId) : String :=
  String.ofList (Text.join ['-'] (cut groups (Text.padded 16 32 id.val)))

def ofHex? (cs : List Char) : Option QueryId :=
  if cs.length = 32 then
    (Text.readNat? 16 (cs.map Char.toLower)).bind fun n =>
      if h : n < 2 ^ 128 then some ⟨n, h⟩ else none
  else none

def ofGroups? (cs : List Char) : Option QueryId :=
  if cs.length = 36 ∧ [8, 13, 18, 23].all (fun i => cs[i]? = some '-') then
    ofHex? (cs.filter (· ≠ '-'))
  else none

/-- The identifier of a text: digits alone or in groups, the groups also in braces or as a URN, whose
scheme is in either letter case. -/
def parse? (s : String) : Option QueryId :=
  let cs := s.toList
  if cs.length = 32 then ofHex? cs
  else if cs.length = 38 ∧ cs.head? = some '\x7b' ∧ cs.getLast? = some '\x7d' then
    ofGroups? (cs.drop 1).dropLast
  else if cs.length = 45 ∧ (cs.take 9).map Char.toLower = "urn:uuid:".toList then ofGroups? (cs.drop 9)
  else ofGroups? cs

end QueryId

structure QuerySettings where
  id : QueryId
  name : String
  expression : String
  parameters : OrderedMap String String := ∅
deriving DecidableEq

namespace QuerySettings

instance : Inhabited QuerySettings := ⟨⟨default, "", "", ∅⟩⟩

def syntaxParameter : String := "query.syntax"

def limitParameter : String := "max.results.override"

def chunkSyntax : String := "JEXL"

def set (q : QuerySettings) (key value : String) : QuerySettings :=
  { q with parameters := q.parameters.insert key value }

def get? (q : QuerySettings) (key : String) : Option String := q.parameters.find? key

def duplicate (q : QuerySettings) (name : String) (id : QueryId) : QuerySettings :=
  { q with name, id }

def forChunk (q : QuerySettings) : QuerySettings := q.set syntaxParameter chunkSyntax

def toJson (q : QuerySettings) : Json :=
  .object
    [("id", .string q.id.text), ("name", .string q.name), ("expression", .string q.expression),
     ("parameters", .object (q.parameters.toList.map fun p => (p.1, .string p.2)))]

def ofJson? (v : Json) : Option QuerySettings := do
  match ← Json.record? ["id", "name", "expression", "parameters"] v with
  | [some id, some name, some expression, parameters] =>
    let parameters ← Json.fieldOr [] (Json.asMembers? Json.asString?) parameters
    return ⟨← (Json.asString? id).bind QueryId.parse?, ← Json.asString? name,
      ← Json.asString? expression, OrderedMap.ofList parameters⟩
  | _ => none

end QuerySettings
end ShardQuery
