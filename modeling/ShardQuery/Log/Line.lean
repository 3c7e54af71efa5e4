import ShardQuery.Log.Severity
import ShardQuery.Json.Printer
/-! # Log lines

A line is one JSON object: the event, the severity, then the fields in order of their keys, fields of one
key in the order given. Control characters are escaped, so a line holds no line break of its own. -/

namespace ShardQuery.Log

structure Line where
  severity : Severity
  event : String
  fields : List (String × String)
deriving DecidableEq, Inhabited

namespace Line

def sortedFields (l : Line) : List (String × String) :=
  l.fields.mergeSort fun a b => (compare a.1 b.1).isLE

def members (l : Line) : List (String × String) :=
  ("event", l.event) :: ("severity", l.severity.name) :: l.sortedFields

def toJson (l : Line) : Json := .object (l.members.map fun m => (m.1, .string m.2))

def text (l : Line) : String := l.toJson.render

def render (l : Line) : String := l.text ++ "\n"

end Line
end ShardQuery.Log
