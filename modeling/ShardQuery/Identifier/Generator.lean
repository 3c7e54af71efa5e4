import ShardQuery.Config
import ShardQuery.Identifier.Basic
import ShardQuery.Identifier.Counter
import ShardQuery.Metrics
/-! # Generating identifiers

A generator makes hash identifiers from content, or snowflakes for one machine from a counter source, and
counts them if metrics are attached. A call that fails issues no identifier. -/

namespace ShardQuery

/-- A source of pairs over some state: the pair or the reason there is none, and the state after. -/
abbrev NextTick (σ : Type) := MachineId → UInt64 → σ → Except CallFailure Tick × σ

namespace Identifier

variable {σ : Type}

def snowflakeFor (next : NextTick σ) (machine : MachineId) (time : Instant) (extras : List String)
    (env : σ) : Except CallFailure Identifier × σ :=
  match time.millis with
  | .negSucc _ => (.error (.error (.configuration (.beforeEpoch time))), env)
  | .ofNat millis =>
    match next machine (UInt64.ofNat millis) env with
    | (.error e, env) => (.error e, env)
    | (.ok tick, env) =>
      match Snowflake.make machine tick.millis tick.counter with
      | .error e => (.error (.error e), env)
      | .ok base => (.ok ⟨.snowflake base, mergeExtras extras⟩, env)

/-- The snowflake of a machine that may be missing or invalid. -/
def snowflake (next : NextTick σ) (machine : Option Int) (time : Instant) (extras : List String)
    (env : σ) : Except CallFailure Identifier × σ :=
  match MachineId.require machine with
  | .error e => (.error (.error e), env)
  | .ok machine => snowflakeFor next machine time extras env

end Identifier

inductive Generator where
  | hash
  | snowflake (machine : MachineId)
deriving DecidableEq, Inhabited

namespace Generator

def encoding : Generator → IdentifierEncoding
  | hash => .hash
  | snowflake _ => .snowflake

def forMachine (machine : Option Int) : Except IdentifierError Generator :=
  (MachineId.require machine).map snowflake

def uncachedWarning : String :=
  "generating snowflake ids without caching could cause uid collisions in the event of clock roll-back"

/-- The generator a configuration asks for, and the counter source it needs. Without a cache, snowflakes
are refused when one is required and counted locally, with a warning, when not. -/
def ofConfig (config : Config) (hasCache : Bool) (log : Log) :
    Except IdentifierError (Generator × CounterSource) × Log :=
  let created (log : Log) : Log := log.report .generatorCreated [("uid_type", config.encoding.name)]
  match config.encoding with
  | .hash => (.ok (.hash, .newLocal), created log)
  | .snowflake =>
    match MachineId.require config.machine with
    | .error e => (.error e, log)
    | .ok machine =>
      if hasCache then (.ok (.snowflake machine, .newCached), created log)
      else if config.cacheRequired then (.error (.configuration .cacheMissing), log)
      else
        (.ok (.snowflake machine, .newLocal),
          created (log.report .counterCacheDisabled [("reason", uncachedWarning)]))

theorem source_of_ofConfig {config : Config} {log log' : Log} {g : Generator} {s : CounterSource}
    (h : ofConfig config false log = (.ok (g, s), log')) : s = .newLocal := by
  unfold ofConfig at h
  split at h
  · cases h
    rfl
  · split at h
    · cases h
    · by_cases hrequired : config.cacheRequired = true
      · simp [hrequired] at h
      · simp only [Bool.false_eq_true, if_false, hrequired, Prod.mk.injEq, Except.ok.injEq] at h
        exact h.1.2.symm

variable {σ : Type}

def make (g : Generator) (next : NextTick σ) (now : Instant) (content : List UInt8)
    (time : Option Instant) (extras : List String) (env : σ) : Except CallFailure Identifier × σ :=
  match g with
  | hash => (.ok (Identifier.ofContent content time extras), env)
  | snowflake machine => Identifier.snowflakeFor next machine (time.getD now) extras env

/-- Makes an identifier and counts it if metrics are attached. -/
def generate (g : Generator) (next : NextTick σ) (now : Instant) (content : List UInt8)
    (time : Option Instant) (extras : List String) (metrics : Option Metrics) (env : σ) :
    Except CallFailure Identifier × Option Metrics × σ :=
  match g.make next now content time extras env with
  | (.error e, env) => (.error e, metrics, env)
  | (.ok u, env) => (.ok u, metrics.map Metrics.identifierGenerated, env)

end Generator
end ShardQuery
