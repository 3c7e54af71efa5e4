import ShardQuery.Json.Printer
/-! # Row ranges

A range of rows from its start, included, to its end, excluded. An absent bound does not bound. -/

namespace ShardQuery

structure RowRange where
  start : Option String
  stop : Option String
deriving DecidableEq, Repr, Inhabited

namespace RowRange

def all : RowRange := ⟨none, none⟩

def between (start stop : String) : RowRange := ⟨some start, some stop⟩

/-- One row alone: nothing stands between a row and the row with a NUL after it. -/
def row (r : String) : RowRange := between r (r ++ "\x00")

def contains (g : RowRange) (r : String) : Bool :=
  (match g.start with
    | none => true
    | some s => s ≤ r) &&
  (match g.stop with
    | none => true
    | some e => r < e)

def text (g : RowRange) : String := "[" ++ g.start.getD "-inf" ++ "," ++ g.stop.getD "+inf" ++ ")"

def toJson (g : RowRange) : Json :=
  .object [("start", Json.optionalString g.start), ("end", Json.optionalString g.stop)]

end RowRange
end ShardQuery
