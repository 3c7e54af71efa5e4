import ShardQuery.Json.Printer
/-! # Metrics

Counters of chunked execution, scan sessions, rewriting and generation. They only ever grow. -/

namespace ShardQuery

structure Metrics where
  chunksStarted : Nat := 0
  chunksCompleted : Nat := 0
  chunksSkipped : Nat := 0
  sessionsOpened : Nat := 0
  sessionsClosed : Nat := 0
  entriesReturned : Nat := 0
  literalsRewritten : Nat := 0
  identifiersGenerated : Nat := 0
deriving DecidableEq, Repr, Inhabited

namespace Metrics

def sessionsOpen (m : Metrics) : Nat := m.sessionsOpened - m.sessionsClosed

def chunkStarted (m : Metrics) : Metrics := { m with chunksStarted := m.chunksStarted + 1 }

def chunkCompleted (m : Metrics) : Metrics := { m with chunksCompleted := m.chunksCompleted + 1 }

def chunkSkipped (m : Metrics) : Metrics := { m with chunksSkipped := m.chunksSkipped + 1 }

def sessionOpened (m : Metrics) : Metrics := { m with sessionsOpened := m.sessionsOpened + 1 }

def sessionClosed (m : Metrics) : Metrics := { m with sessionsClosed := m.sessionsClosed + 1 }

def entryReturned (m : Metrics) : Metrics := { m with entriesReturned := m.entriesReturned + 1 }

def rewrote (m : Metrics) (n : Nat) : Metrics := { m with literalsRewritten := m.literalsRewritten + n }

def identifierGenerated (m : Metrics) : Metrics :=
  { m with identifiersGenerated := m.identifiersGenerated + 1 }

def toJson (m : Metrics) : Json :=
  .object
    [("chunks_started", .nat m.chunksStarted), ("chunks_completed", .nat m.chunksCompleted),
     ("chunks_skipped", .nat m.chunksSkipped), ("sessions_opened", .nat m.sessionsOpened),
     ("sessions_closed", .nat m.sessionsClosed), ("entries_returned", .nat m.entriesReturned),
     ("literals_rewritten", .nat m.literalsRewritten), ("uids_generated", .nat m.identifiersGenerated)]

end Metrics
end ShardQuery
