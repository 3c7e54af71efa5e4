import ShardQuery.Json.Basic
import ShardQuery.Json.Quoted
/-! # Reading JSON text

The strict grammar: no trailing comma, no leading zero, no raw control character in a string, four kinds
of blank between the parts, and nothing after the value. -/

namespace ShardQuery.Json

def isSpace (c : Char) : Bool := c = ' ' || c = '\n' || c = '\t' || c = '\r'

def skipSpace (cs : List Char) : List Char := cs.dropWhile isSpace

def takeDigits (cs : List Char) : List Nat × List Char :=
  ((cs.takeWhile Char.isDigit).map (fun c => c.toNat - 48), cs.dropWhile Char.isDigit)

def someDigits? (cs : List Char) : Option (List Nat × List Char) :=
  match takeDigits cs with
  | ([], _) => none
  | r => some r

def wholePart? (cs : List Char) : Option (List Nat × List Char) :=
  match takeDigits cs with
  | ([], _) | (0 :: _ :: _, _) => none
  | r => some r

def fractionPart? : List Char → Option (Option (List Nat) × List Char)
  | '.' :: rest => (someDigits? rest).map fun r => (some r.1, r.2)
  | cs => some (none, cs)

def exponentPart? : List Char → Option (Option Int × List Char)
  | c :: rest =>
    if c = 'e' ∨ c = 'E' then
      let (negative, digits) : Bool × List Char :=
        match rest with
        | '+' :: r => (false, r)
        | '-' :: r => (true, r)
        | r => (false, r)
      (someDigits? digits).map fun r =>
        let n : Int := Text.ofDigits 10 r.1
        (some (if negative then -n else n), r.2)
    else some (none, c :: rest)
  | [] => some (none, [])

def scanNumber? (cs : List Char) : Option (Numeral × List Char) := do
  let (negative, cs) : Bool × List Char :=
    match cs with
    | '-' :: r => (true, r)
    | r => (false, r)
  let (whole, cs) ← wholePart? cs
  let (fraction, cs) ← fractionPart? cs
  let (exponent, cs) ← exponentPart? cs
  return (⟨negative, whole, fraction, exponent⟩, cs)

def afterWord? : List Char → List Char → Option (List Char)
  | [], cs => some cs
  | _ :: _, [] => none
  | w :: ws, c :: cs => if w = c then afterWord? ws cs else none

/-- The string of code units, or a part without a value. -/
def stringOf (units : List CodeUnit) : Json :=
  match assemble units with
  | some cs => .string (String.ofList cs)
  | none => .unreadable

def numberOf (t : Numeral) : Json :=
  match t.number? with
  | some n => .number n
  | none => .unreadable

/-- An object of members; a name without a value spoils it. -/
def objectOf (members : List (Json × Json)) : Json :=
  let named := members.mapM fun m =>
    match m.1 with
    | .string k => some (k, m.2)
    | _ => none
  match named with
  | some ms => .object ms
  | none => .unreadable

mutual
def scanValue : Nat → List Char → Option (Json × List Char)
  | 0, _ => none
  | fuel + 1, cs =>
    match skipSpace cs with
    | [] => none
    | '"' :: rest => (scanString rest).map fun r => (stringOf r.1, r.2)
    | '[' :: rest =>
      match skipSpace rest with
      | ']' :: left => some (.array [], left)
      | left => (scanItems fuel left).map fun r => (.array r.1, r.2)
    | '\x7b' :: rest =>
      match skipSpace rest with
      | '\x7d' :: left => some (.object [], left)
      | left => (scanMembers fuel left).map fun r => (objectOf r.1, r.2)
    | 'n' :: rest => (afterWord? "ull".toList rest).map fun left => (.null, left)
    | 't' :: rest => (afterWord? "rue".toList rest).map fun left => (.bool true, left)
    | 'f' :: rest => (afterWord? "alse".toList rest).map fun left => (.bool false, left)
    | cs => (scanNumber? cs).map fun r => (numberOf r.1, r.2)
def scanItems : Nat → List Char → Option (List Json × List Char)
  | 0, _ => none
  | fuel + 1, cs => do
    let (v, rest) ← scanValue fuel cs
    match skipSpace rest with
    | ']' :: left => some ([v], left)
    | ',' :: left => do
      let (vs, left) ← scanItems fuel left
      return (v :: vs, left)
    | _ => none
def scanMembers : Nat → List Char → Option (List (Json × Json) × List Char)
  | 0, _ => none
  | fuel + 1, cs =>
    match skipSpace cs with
    | '"' :: rest => do
      let (units, rest) ← scanString rest
      match skipSpace rest with
      | ':' :: rest => do
        let (v, rest) ← scanValue fuel rest
        match skipSpace rest with
        | '\x7d' :: left => some ([(stringOf units, v)], left)
        | ',' :: left => do
          let (ms, left) ← scanMembers fuel left
          return ((stringOf units, v) :: ms, left)
        | _ => none
      | _ => none
    | _ => none
end

def read? (s : String) : Option Json :=
  let cs := s.toList
  match scanValue (2 * cs.length + 2) cs with
  | some (v, rest) => if (skipSpace rest).isEmpty then some v else none
  | none => none

/-- The value of a text every part of which names a value, within the depth limit. -/
def readWhole? (s : String) : Option Json := (read? s).filter isWhole

end ShardQuery.Json
