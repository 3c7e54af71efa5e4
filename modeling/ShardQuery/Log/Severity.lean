/-! # Log severities

Five severities from detail to fatal, ordered by weight. A name is read in any ASCII letter case. -/

namespace ShardQuery.Log

inductive Severity where
  | trace | info | warn | error | fatal
deriving DecidableEq, Repr, Inhabited

namespace Severity

def name : Severity → String
  | trace => "TRACE"
  | info => "INFO"
  | warn => "WARN"
  | error => "ERROR"
  | fatal => "FATAL"

def weight : Severity → Nat
  | trace => 0
  | info => 1
  | warn => 2
  | error => 3
  | fatal => 4

instance : LE Severity := ⟨fun a b => a.weight ≤ b.weight⟩
instance (a b : Severity) : Decidable (a ≤ b) := inferInstanceAs (Decidable (a.weight ≤ b.weight))

def all : List Severity := [trace, info, warn, error, fatal]

end Severity

def upperCase (s : String) : String := String.ofList (s.toList.map Char.toUpper)

/-- The severity of a name in any letter case; the upper-case name when there is none. -/
def Severity.parse (s : String) : Except String Severity :=
  match Severity.all.find? fun v => v.name = upperCase s with
  | some v => .ok v
  | none => .error (upperCase s)

def unknownLevel (name : String) : String := "unknown log level '" ++ name ++ "'"

end ShardQuery.Log
