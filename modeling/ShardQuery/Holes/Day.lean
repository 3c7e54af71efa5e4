import ShardQuery.Text.Blank
import ShardQuery.Text.Numeral
import ShardQuery.Text.Utf8
import ShardQuery.Time.Calendar
/-! # Day texts

A day is written in eight bytes: a year of up to four digits or of a sign and digits, then a month and a
day of one or two digits each, blank allowed before every number. -/

namespace ShardQuery.DayText

/-- A number of at most `width` digits after any blank. -/
def number? (width : Nat) (cs : List Char) : Option (Nat × List Char) :=
  let cs := Text.trimStart cs
  let ds := (cs.takeWhile Char.isDigit).take width
  (Text.readNat? 10 ds).map fun n => (n, cs.drop ds.length)

/-- A year after any blank; a signed one takes every digit that follows. -/
def year? (cs : List Char) : Option (Int × List Char) :=
  match Text.trimStart cs with
  | '+' :: rest => signed 1 rest
  | '-' :: rest => signed (-1) rest
  | cs => (number? 4 cs).map fun r => ((r.1 : Int), r.2)
where
  signed (sign : Int) (rest : List Char) : Option (Int × List Char) :=
    let ds := rest.takeWhile Char.isDigit
    (Text.readNat? 10 ds).map fun n => (sign * n, rest.drop ds.length)

def parseChars? (cs : List Char) : Option Date := do
  let (year, cs) ← year? cs
  let (month, cs) ← number? 2 cs
  let (day, cs) ← number? 2 cs
  let date : Date := ⟨year, month, day⟩
  if cs.isEmpty ∧ date.isValid then some date else none

/-- True of a day text of eight bytes. -/
def isValid (s : String) : Bool := Text.byteLength s.toList = 8 && (parseChars? s.toList).isSome

end ShardQuery.DayText
