import ShardQuery.Scan.Session
import ShardQuery.Text.Invisible
/-! # Descriptions of sessions

The diagnostic text of a session: every field by name, strings between quotes with invisible characters
escaped by their number. -/

namespace ShardQuery.Session

def describeChar (c : Char) : List Char :=
  if c = '\x00' then ['\\', '0']
  else if c = '\t' then ['\\', 't']
  else if c = '\r' then ['\\', 'r']
  else if c = '\n' then ['\\', 'n']
  else if c = '"' ∨ c = '\\' then ['\\', c]
  else if Text.isInvisible c then ['\\', 'u', '\x7b'] ++ Text.renderNat 16 c.toNat ++ ['\x7d']
  else [c]

def describeString (s : String) : String :=
  String.ofList ('"' :: (s.toList.flatMap describeChar ++ ['"']))

def describeBound : Option String → String
  | none => "None"
  | some s => "Some(" ++ describeString s ++ ")"

def describeRecord (name : String) (fields : List (String × String)) : String :=
  name ++ " \x7b " ++ Text.joined ", " (fields.map fun f => f.1 ++ ": " ++ f.2) ++ " \x7d"

def describeRange (g : RowRange) : String :=
  describeRecord "KeyRange" [("start", describeBound g.start), ("end", describeBound g.stop)]

def describeLabels (a : Authorizations) : String :=
  "Authorizations(\x7b" ++ Text.joined ", " (a.toList.map describeString) ++ "\x7d)"

def describe {κ : Type} (s : Session κ) : String :=
  describeRecord "ScanSession"
    [("table", describeString s.table), ("authorizations", describeLabels s.authorizations),
     ("ranges", "[" ++ Text.joined ", " (s.ranges.map describeRange) ++ "]"),
     ("identity", identityText s.identity), ("open", if s.isOpen then "true" else "false")]

end ShardQuery.Session
