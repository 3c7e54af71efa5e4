import ShardQuery.Log.Basic
import ShardQuery.Text.Numeral
/-! # Observed scopes

A scope reports its beginning and its end: completed, failed, or left without either. -/

namespace ShardQuery.Log

/-- A piece of work under observation, from the clock reading at its beginning on. -/
structure Scope where
  name : String
  fields : List (String × String)
  begun : Nat
deriving Inhabited

namespace Scope

def enter (name : String) (fields : List (String × String)) (now : Nat) (log : Log) : Scope × Log :=
  (⟨name, fields, now⟩, log.write .info (name ++ "_BEGIN") fields)

/-- Ends a scope in success, with further fields and the time it took. -/
def complete (s : Scope) (extra : List (String × String)) (now : Nat) (log : Log) : Log :=
  log.write .info (s.name ++ "_COMPLETE")
    (s.fields ++ extra ++ [("elapsed_ms", Text.decimal (now - s.begun))])

def fail (s : Scope) (reason : String) (log : Log) : Log :=
  log.write .error (s.name ++ "_FAILED") (s.fields ++ [("reason", reason)])

/-- Leaves a scope that was neither completed nor failed. -/
def abandon (s : Scope) (log : Log) : Log :=
  log.write .warn (s.name ++ "_INCOMPLETE") [("reason", "scope dropped without completion")]

end Scope
end ShardQuery.Log
