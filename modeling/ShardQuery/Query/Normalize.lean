import ShardQuery.Log.Basic
import ShardQuery.Metrics
import ShardQuery.Query.Error
import ShardQuery.Query.Expression
import ShardQuery.Query.FieldTypes
import ShardQuery.Query.Numeric
/-! # Literal normalisation

A comparison of an untyped field with a string that reads as a number is rewritten to compare with the
number. The sweep passes through and, or and not; the arguments of functions stay as they are. Only the
path to a rewritten comparison is built anew, and every other part of the tree is kept. Each rewrite is
logged, and their number is counted if metrics are attached. -/

namespace ShardQuery

/-- A literal that was rewritten: its comparison, its text and its number. -/
structure Rewrite where
  field : String
  op : CompareOp
  source : String
  number : Json.Number
deriving DecidableEq, Inhabited

def Rewrite.logFields (r : Rewrite) : List (String × String) :=
  [("field", r.field), ("op", r.op.symbol), ("from", r.source), ("to", r.number.render)]

namespace Expression

def replacement? (types : FieldTypes) (f : String) (literal : Literal) : Option (String × Json.Number) :=
  match literal with
  | .string s => if types.isDeclared f then none else (NumericLiteral.parse? s).map fun n => (s, n)
  | _ => none

/-- The children with those replaced that are rewritten; nothing when all of them stay. -/
def replaceIn? (replaced : List (Option Expression)) (children : List Expression) :
    Option (List Expression) :=
  if replaced.all Option.isNone then none
  else some (List.zipWith (fun new old => new.getD old) replaced children)

mutual
/-- The rewritten tree, or nothing when the tree stays as it is, and the rewrites made, from left to
right. -/
def rewrite? (types : FieldTypes) : Expression → Option Expression × List Rewrite
  | .and children =>
    let (replaced, made) := rewriteEach types children
    ((replaceIn? replaced children).map .and, made)
  | .or children =>
    let (replaced, made) := rewriteEach types children
    ((replaceIn? replaced children).map .or, made)
  | .not child =>
    let (replaced, made) := rewrite? types child
    (replaced.map .not, made)
  | .compare op f literal =>
    match replacement? types f literal with
    | some (s, n) => (some (.compare op f (.number n)), [⟨f, op, s, n⟩])
    | none => (none, [])
  | _ => (none, [])
def rewriteEach (types : FieldTypes) : List Expression → List (Option Expression) × List Rewrite
  | [] => ([], [])
  | e :: es =>
    let (replaced, made) := rewrite? types e
    let (rest, more) := rewriteEach types es
    (replaced :: rest, made ++ more)
end

end Expression

structure Normalized where
  expression : Expression
  rewrites : List Rewrite
deriving Inhabited

namespace Normalized

def count (n : Normalized) : Nat := n.rewrites.length

def changed (n : Normalized) : Bool := 0 < n.count

end Normalized

def requireTypes (types : Option FieldTypes) : Except PlanningError FieldTypes :=
  match types with
  | some types => .ok types
  | none => .error .typesMissing

namespace Expression

/-- A tree in which nothing is rewritten is itself the result. -/
def rewritten (types : FieldTypes) (e : Expression) : Normalized :=
  let (replaced, rewrites) := e.rewrite? types
  ⟨replaced.getD e, rewrites⟩

def normalize (types : FieldTypes) (e : Expression) (log : Log) (metrics : Option Metrics) :
    Normalized × Log × Option Metrics :=
  let n := e.rewritten types
  (n, n.rewrites.foldl (fun log r => log.report .literalRewritten r.logFields) log,
    metrics.map fun m => m.rewrote n.count)

end Expression
end ShardQuery
