import ShardQuery.Identifier.Basic
import ShardQuery.Text.Utf8
/-! # Reading identifiers

The encoding is told by shape alone: fewer than three parts, or a first part of more than eight bytes,
make a snowflake, anything else a hash base. A limit keeps the first extra parts; a negative one keeps
all. -/

namespace ShardQuery.Identifier

def isSnowflakeShape (parts : List (List Char)) : Bool :=
  parts.length < 3 || 8 < Text.byteLength (parts.headD [])

def readBase (parts : List (List Char)) : Except FormatFault (IdentifierBase × List (List Char)) :=
  if isSnowflakeShape parts then
    match Snowflake.read? (parts.headD []) with
    | some b => .ok (.snowflake b, parts.tail)
    | none => .error .snowflakeDigits
  else (HashBase.read parts).map fun r => (.hash r.1, r.2)

def keepExtras (limit : Int) (parts : List (List Char)) : List (List Char) :=
  if limit < 0 then parts else parts.take limit.toNat

/-- An identifier read from its text with at most `limit` extra parts. -/
def parse (s : String) (limit : Int) : Except IdentifierError Identifier :=
  if s.isEmpty then .error (.format s .empty)
  else
    match readBase (Text.split '.' s.toList) with
    | .error fault => .error (.format s fault)
    | .ok (base, rest) => .ok ⟨base, mergeExtras ((keepExtras limit rest).map String.ofList)⟩

def parseAll (s : String) : Except IdentifierError Identifier := parse s (-1)

def parseBase (s : String) : Except IdentifierError Identifier := parse s 0

end ShardQuery.Identifier
