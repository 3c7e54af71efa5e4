import ShardQuery.Log.Severity
/-! # Events

The events that the library reports, each with its name and its usual severity. -/

namespace ShardQuery.Log

inductive Event where
  | configLoaded
  | generatorCreated
  | counterCacheDisabled
  | holesLoaded
  | literalRewritten
  | queryInitialize
  | resultLimitInvalid
  | basePassStarted
  | chunkStarted
  | chunkCompleted
  | chunkSkipped
  | baseQueryFallback
  | executionInterrupted
  | sessionOpened
  | sessionClosed
deriving DecidableEq, Repr, Inhabited

namespace Event

def name : Event → String
  | configLoaded => "CONFIG_LOADED"
  | generatorCreated => "UID_GENERATOR_CREATED"
  | counterCacheDisabled => "SNOWFLAKE_CACHE_DISABLED"
  | holesLoaded => "INDEX_HOLES_LOADED"
  | literalRewritten => "LITERAL_REWRITTEN"
  | queryInitialize => "QUERY_INITIALIZE"
  | resultLimitInvalid => "MAX_RESULTS_OVERRIDE_INVALID"
  | basePassStarted => "CHUNKER_PRE_INITIALIZE"
  | chunkStarted => "CHUNK_START"
  | chunkCompleted => "CHUNK_COMPLETE"
  | chunkSkipped => "CHUNK_SKIPPED"
  | baseQueryFallback => "CHUNK_FALLBACK_BASE_QUERY"
  | executionInterrupted => "EXECUTION_INTERRUPTED"
  | sessionOpened => "SESSION_OPEN"
  | sessionClosed => "SESSION_CLOSE"

def severity : Event → Severity
  | counterCacheDisabled | chunkSkipped | executionInterrupted => .warn
  | resultLimitInvalid => .error
  | literalRewritten | baseQueryFallback | sessionOpened | sessionClosed => .trace
  | _ => .info

def all : List Event :=
  [configLoaded, generatorCreated, counterCacheDisabled, holesLoaded, literalRewritten,
   queryInitialize, resultLimitInvalid, basePassStarted, chunkStarted, chunkCompleted, chunkSkipped,
   baseQueryFallback, executionInterrupted, sessionOpened, sessionClosed]

end Event
end ShardQuery.Log
