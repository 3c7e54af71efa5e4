import ShardQuery.Time.Calendar
import ShardQuery.Text.Numeral
/-! # Instants

Moments in universal time at nanosecond precision. A leap second is the second before it with more than a
thousand million nanoseconds, so milliseconds count it twice. -/

namespace ShardQuery

def millisPerDay : Nat := 86400000

/-- A moment as whole seconds since 1970-01-01 and nanoseconds from there. -/
structure Instant where
  seconds : Int
  nanos : Nat
deriving DecidableEq, Repr, Inhabited

namespace Instant

def ofMillis (ms : Int) : Instant := ⟨ms / 1000, (ms % 1000).toNat * 1000000⟩

def ofNanos (ns : Int) : Instant := ⟨ns / 1000000000, (ns % 1000000000).toNat⟩

def millis (t : Instant) : Int := t.seconds * 1000 + (t.nanos / 1000000 : Nat)

def timeOfDay (t : Instant) : Nat := (t.millis % millisPerDay).toNat

/-- A year with at least four digits, signed outside 0 to 9999. -/
def yearText (year : Int) : String :=
  let digits := String.ofList (Text.padded 10 4 year.natAbs)
  if 0 ≤ year ∧ year ≤ 9999 then digits else (if year < 0 then "-" else "+") ++ digits

/-- The fraction of a second in the fewest of no, three, six or nine digits. -/
def fractionText (nanos : Nat) : String :=
  if nanos = 0 then ""
  else if nanos % 1000000 = 0 then "." ++ String.ofList (Text.padded 10 3 (nanos / 1000000))
  else if nanos % 1000 = 0 then "." ++ String.ofList (Text.padded 10 6 (nanos / 1000))
  else "." ++ String.ofList (Text.padded 10 9 nanos)

def text (t : Instant) : String :=
  let date := Date.ofDays (t.seconds / 86400)
  let second := (t.seconds % 86400).toNat
  let leap := if 1000000000 ≤ t.nanos then 1 else 0
  let two (n : Nat) := String.ofList (Text.padded 10 2 n)
  yearText date.year ++ "-" ++ two date.month ++ "-" ++ two date.day ++ " " ++
    two (second / 3600) ++ ":" ++ two (second / 60 % 60) ++ ":" ++ two (second % 60 + leap) ++
    fractionText (t.nanos % 1000000000) ++ " UTC"

end Instant
end ShardQuery
