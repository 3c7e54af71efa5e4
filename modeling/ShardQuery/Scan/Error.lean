import ShardQuery.Query.Error
/-! # Scan errors

Why a chunk or a scan fails. A failed chunk setup is confined to its chunk; every other failure ends the
query. -/

namespace ShardQuery

inductive ScanFault where
  | configuration | chunkSetup | storeFailed | interrupted | invalidSession
deriving DecidableEq, Repr, Inhabited

namespace ScanFault

def code : ScanFault → String
  | configuration => "SHARD_CONFIGURATION_ERROR"
  | chunkSetup => "SHARD_CHUNK_SETUP_FAILED"
  | storeFailed => "SHARD_STORE_FAILED"
  | interrupted => "SHARD_INTERRUPTED"
  | invalidSession => "SHARD_INVALID_SESSION"

def severity : ScanFault → FailureSeverity
  | configuration => .fatal
  | invalidSession => .reject
  | _ => .error

end ScanFault

structure ScanError where
  fault : ScanFault
  reason : String
deriving DecidableEq, Repr, Inhabited

namespace ScanError

def isChunkLocal (e : ScanError) : Bool := e.fault = .chunkSetup

def isInterrupted (e : ScanError) : Bool := e.fault = .interrupted

def message (e : ScanError) : String := failureText e.fault.severity e.fault.code e.reason

/-- The scan failure that a planning error amounts to: the fault of one chunk unless it is fatal. -/
def ofPlanning (e : PlanningError) : ScanError :=
  if e.isFatal then ⟨.configuration, e.reason⟩ else ⟨.chunkSetup, e.message⟩

def tableMissing (table : String) : ScanError :=
  ⟨.storeFailed, "table '" ++ table ++ "' does not exist"⟩

def rangesMissing (table : String) : ScanError :=
  ⟨.invalidSession, "scan of '" ++ table ++ "' requires at least one range"⟩

end ScanError
end ShardQuery
