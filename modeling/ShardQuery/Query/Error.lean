/-! # Planning errors

Why a query cannot be planned: the library is not configured for it, or the query is malformed. -/

namespace ShardQuery

inductive FailureSeverity where
  | reject | error | fatal
deriving DecidableEq, Repr, Inhabited

def FailureSeverity.name : FailureSeverity → String
  | reject => "REJECT"
  | error => "ERROR"
  | fatal => "FATAL"

def failureText (severity : FailureSeverity) (code reason : String) : String :=
  "[" ++ severity.name ++ "] " ++ code ++ ": " ++ reason

inductive PlanningError where
  | configuration (reason : String)
  | invalidQuery (reason : String)
deriving DecidableEq, Repr, Inhabited

namespace PlanningError

def reason : PlanningError → String
  | configuration r | invalidQuery r => r

def code : PlanningError → String
  | configuration _ => "SHARD_CONFIGURATION_ERROR"
  | invalidQuery _ => "SHARD_QUERY_INVALID"

/-- A fault of the configuration is fatal, one of the query rejects it. -/
def severity : PlanningError → FailureSeverity
  | configuration _ => .fatal
  | invalidQuery _ => .reject

def isFatal (e : PlanningError) : Bool := e.severity = .fatal

def message (e : PlanningError) : String := failureText e.severity e.code e.reason

def typesMissing : PlanningError :=
  .configuration "field type registry is not configured; literal normalization cannot run"

def notExpression : PlanningError := .invalidQuery "invalid query expression JSON"

end PlanningError
end ShardQuery
