import ShardQuery.Log.Event
import ShardQuery.Log.Line
/-! # The log

A log keeps what was written so far and where. An event below the least severity is dropped; errors and
worse go to standard error, all others to standard output unless that carries a response. -/

namespace ShardQuery

namespace Log

inductive Channel where
  | stdout | stderr
deriving DecidableEq, Repr, Inhabited

end Log

structure Log where
  least : Log.Severity := .info
  stderrOnly : Bool := false
  written : List (Log.Channel × Log.Line) := []
deriving Inhabited

namespace Log

def enabled (log : Log) (s : Severity) : Bool := log.least ≤ s

def channel (log : Log) (s : Severity) : Channel :=
  if Severity.error ≤ s ∨ log.stderrOnly then .stderr else .stdout

def write (log : Log) (s : Severity) (event : String) (fields : List (String × String)) : Log :=
  if log.enabled s then { log with written := log.written ++ [(log.channel s, ⟨s, event, fields⟩)] }
  else log

def report (log : Log) (e : Event) (fields : List (String × String)) : Log :=
  log.write e.severity e.name fields

def linesOn (log : Log) (c : Channel) : List Line :=
  (log.written.filter fun w => w.1 = c).map Prod.snd

end Log
end ShardQuery
