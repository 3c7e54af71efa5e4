import ShardQuery.Json.Number
import ShardQuery.Text.Fields
/-! # Query expressions

The tree of a query: comparisons of a field with a literal, joined by and, or and not, and function calls
with expressions as arguments. -/

namespace ShardQuery

inductive CompareOp where
  | equal | unequal | matching | unmatching | less | lessEqual | greater | greaterEqual
deriving DecidableEq, Repr, Inhabited

namespace CompareOp

def symbol : CompareOp → String
  | equal => "=="
  | unequal => "!="
  | matching => "=~"
  | unmatching => "!~"
  | less => "<"
  | lessEqual => "<="
  | greater => ">"
  | greaterEqual => ">="

def isRange : CompareOp → Bool
  | less | lessEqual | greater | greaterEqual => true
  | _ => false

def all : List CompareOp :=
  [equal, unequal, matching, unmatching, less, lessEqual, greater, greaterEqual]

def ofSymbol? (s : String) : Option CompareOp := all.find? fun op => op.symbol = s

end CompareOp

inductive Literal where
  | null
  | bool (b : Bool)
  | number (n : Json.Number)
  | string (s : String)
deriving DecidableEq, Inhabited

def Literal.asString? : Literal → Option String
  | string s => some s
  | _ => none

def Literal.asNumber? : Literal → Option Json.Number
  | number n => some n
  | _ => none

inductive Expression where
  | and (children : List Expression)
  | or (children : List Expression)
  | not (child : Expression)
  | compare (op : CompareOp) (field : String) (literal : Literal)
  | function (scope : String) (name : String) (args : List Expression)
  | field (name : String)
  | value (literal : Literal)
deriving Inhabited

namespace Expression

mutual
/-- Number of comparisons at any depth, those among function arguments included. -/
def comparisons : Expression → Nat
  | .and children | .or children => comparisonsIn children
  | .not child => child.comparisons
  | .compare .. => 1
  | .function _ _ args => comparisonsIn args
  | .field _ | .value _ => 0
def comparisonsIn : List Expression → Nat
  | [] => 0
  | e :: es => e.comparisons + comparisonsIn es
end

mutual
def beq : Expression → Expression → Bool
  | .and xs, .and ys | .or xs, .or ys => beqAll xs ys
  | .not x, .not y => x.beq y
  | .compare op f l, .compare op' f' l' => op = op' && f = f' && l = l'
  | .function s n xs, .function s' n' ys => s = s' && n = n' && beqAll xs ys
  | .field n, .field n' => n = n'
  | .value l, .value l' => l = l'
  | _, _ => false
def beqAll : List Expression → List Expression → Bool
  | [], [] => true
  | x :: xs, y :: ys => x.beq y && beqAll xs ys
  | _, _ => false
end

instance : BEq Expression := ⟨beq⟩

end Expression
end ShardQuery
