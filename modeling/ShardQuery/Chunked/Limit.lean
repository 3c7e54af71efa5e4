import ShardQuery.Power
import ShardQuery.Scan.World
import ShardQuery.Text.Blank
/-! # The cap on results

A parameter of the query may lower the configured cap and never raises it. A value that is no number is
reported and ignored. -/

namespace ShardQuery

namespace Limit

def read? (s : String) : Option Nat :=
  let digits :=
    match s.toList with
    | '+' :: rest => rest
    | rest => rest
  (Text.readNat? 10 digits).filter (· < 2 ^ 64)

/-- The value of the parameter, blank around it dropped; a blank one counts as none. -/
def override? (q : QuerySettings) : Option String :=
  ((q.get? QuerySettings.limitParameter).map Text.trimmed).filter fun s => !s.isEmpty

def lower (configured : Option Nat) (value : Nat) : Nat :=
  match configured with
  | none => value
  | some cap => if value < cap then value else cap

def text : Option Nat → String
  | none => "unlimited"
  | some cap => Text.decimal cap

def resolve {σ : Type} (configured : Option Nat) (q : QuerySettings) (w : World σ) :
    Option Nat × World σ :=
  match override? q with
  | none => (configured, w)
  | some s =>
    match read? s with
    | some value => (some (lower configured value), w)
    | none => (configured, w.report .resultLimitInvalid [("value", s), ("using", text configured)])

end Limit
end ShardQuery
