import ShardQuery.Identifier.HashBase
import ShardQuery.Identifier.Snowflake
/-! # Identifiers

An identifier is a base and, after it, any further parts its maker attached. Identifiers are ordered with
hash bases before snowflakes, then by base, then by extra text, an absent one first. -/

namespace ShardQuery

/-- The base of an identifier in one of two encodings. -/
inductive IdentifierBase where
  | hash (base : HashBase)
  | snowflake (base : Snowflake)
deriving DecidableEq, Inhabited

structure Identifier where
  base : IdentifierBase
  extra : Option String
deriving DecidableEq, Inhabited

namespace IdentifierBase

def text : IdentifierBase → String
  | hash b => b.text
  | snowflake b => b.text

def timeOfDay : IdentifierBase → Option Nat
  | hash b => b.timeOfDay
  | snowflake b => some b.timeOfDay

/-- The part that decides the shard: the hashes alone, or a whole snowflake. -/
def shardedPortion : IdentifierBase → String
  | hash b => b.hashPortion
  | snowflake b => b.text

def order : IdentifierBase → IdentifierBase → Ordering
  | hash a, hash b => compare a b
  | hash _, snowflake _ => .lt
  | snowflake _, hash _ => .gt
  | snowflake a, snowflake b => compare a b

instance : Ord IdentifierBase := ⟨order⟩

end IdentifierBase

namespace Identifier

def text (u : Identifier) : String :=
  match u.extra with
  | none => u.base.text
  | some e => u.base.text ++ "." ++ e

def extraParts (u : Identifier) : List String :=
  match u.extra with
  | none => []
  | some e => Text.fieldsOf '.' e

def withoutExtra (u : Identifier) : Identifier := ⟨u.base, none⟩

/-- Extra text from its parts; none without any part. -/
def mergeExtras (parts : List String) : Option String :=
  if parts.isEmpty then none else some (Text.joined "." parts)

def ofContentBy (hash : HashBase.SeededHash) (content : List UInt8) (time : Option Instant)
    (extras : List String) : Identifier :=
  ⟨.hash (.ofContentBy hash content (time.map Instant.timeOfDay)), mergeExtras extras⟩

def ofContent (content : List UInt8) (time : Option Instant) (extras : List String) : Identifier :=
  ofContentBy HashBase.contentHash content time extras

def order (a b : Identifier) : Ordering := (a.base.order b.base).then (compare a.extra b.extra)

def orderOptional : Option Identifier → Option Identifier → Ordering
  | none, none => .eq
  | none, some _ => .lt
  | some _, none => .gt
  | some a, some b => a.order b

def sort (l : List Identifier) : List Identifier := l.mergeSort fun a b => (a.order b).isLE

end Identifier
end ShardQuery
