import ShardQuery.Power
import ShardQuery.Time.Instant
/-! # RFC 3339 timestamps

`YYYY-MM-DD`, a `T` or a space, `HH:MM:SS` with any fraction, and an offset that is a `Z` or a sign with
hours and minutes below 24 hours. Digits past the ninth of a fraction are dropped. -/

namespace ShardQuery.Rfc3339

def digits? (width : Nat) (cs : List Char) : Option (Nat × List Char) :=
  let ds := cs.take width
  if ds.length = width ∧ ds.all Char.isDigit then
    (Text.readNat? 10 ds).map fun n => (n, cs.drop width)
  else none

def after? (accepted : List Char) : List Char → Option (List Char)
  | c :: cs => if c ∈ accepted then some cs else none
  | [] => none

def fraction? : List Char → Option (Nat × List Char)
  | '.' :: cs =>
    let ds := cs.takeWhile Char.isDigit
    let kept := ds.take 9
    (Text.readNat? 10 kept).map fun n => (n * 10 ^ (9 - kept.length), cs.dropWhile Char.isDigit)
  | cs => some (0, cs)

/-- The offset from universal time in seconds; a minus may be the mathematical sign. -/
def offset? : List Char → Option (Int × List Char)
  | [] => none
  | c :: cs =>
    if c = 'Z' ∨ c = 'z' then some (0, cs)
    else if c = '+' ∨ c = '-' ∨ c = '\u2212' then do
      let (hours, cs) ← digits? 2 cs
      let cs ← after? [':'] cs
      let (minutes, cs) ← digits? 2 cs
      if hours < 24 ∧ minutes < 60 then
        let seconds : Int := hours * 3600 + minutes * 60
        return (if c = '+' then seconds else -seconds, cs)
      else none
    else none

/-- The moment of a timestamp. Second 60 is the leap second after second 59. -/
def parseChars? (cs : List Char) : Option Instant := do
  let (year, cs) ← digits? 4 cs
  let cs ← after? ['-'] cs
  let (month, cs) ← digits? 2 cs
  let cs ← after? ['-'] cs
  let (day, cs) ← digits? 2 cs
  let cs ← after? ['T', 't', ' '] cs
  let (hour, cs) ← digits? 2 cs
  let cs ← after? [':'] cs
  let (minute, cs) ← digits? 2 cs
  let cs ← after? [':'] cs
  let (second, cs) ← digits? 2 cs
  let (nanos, cs) ← fraction? cs
  let (offset, cs) ← offset? cs
  let date : Date := ⟨year, month, day⟩
  if cs.isEmpty ∧ date.isValid ∧ hour < 24 ∧ minute < 60 ∧ second ≤ 60 then
    let leap := second = 60
    let ofDay : Int := hour * 3600 + minute * 60 + if leap then 59 else second
    return ⟨date.toDays * 86400 + ofDay - offset, nanos + if leap then 1000000000 else 0⟩
  else none

def parse? (s : String) : Option Instant := parseChars? s.toList

end ShardQuery.Rfc3339
