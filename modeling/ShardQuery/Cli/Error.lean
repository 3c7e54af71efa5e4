import ShardQuery.Config
import ShardQuery.Holes.Basic
import ShardQuery.Identifier.Error
import ShardQuery.Query.Error
/-! # Command errors

Why a command fails: a stable code by the part of the library that refused, and what is said. -/

namespace ShardQuery.Cli

inductive Concern where
  | config | io | input | identifier | holes | planner
deriving DecidableEq, Repr, Inhabited

def Concern.code : Concern → String
  | config => "SHARD_CLI_CONFIG_ERROR"
  | io => "SHARD_CLI_IO_ERROR"
  | input => "SHARD_CLI_INVALID_INPUT"
  | identifier => "SHARD_CLI_UID_ERROR"
  | holes => "SHARD_CLI_HOLES_ERROR"
  | planner => "SHARD_CLI_PLANNER_ERROR"

structure Error where
  concern : Concern
  message : String
deriving DecidableEq, Repr, Inhabited

namespace Error

def code (e : Error) : String := e.concern.code

def text (e : Error) : String := e.code ++ ": " ++ e.message

def ofConfig (e : ConfigError) : Error := ⟨.config, e.message⟩

def ofIdentifier (e : IdentifierError) : Error := ⟨.identifier, e.message⟩

def ofHole (e : HoleError) : Error := ⟨.holes, e.message⟩

def ofPlanning (e : PlanningError) : Error := ⟨.planner, e.message⟩

def listingMissing : Error := ⟨.config, "No holes file configured"⟩

def badTimestamp (text : String) : Error := ⟨.input, "Invalid timestamp '" ++ text ++ "'"⟩

def emptyInput : Error := ⟨.input, "Empty input"⟩

def badJson : Error := ⟨.input, "JSON error"⟩

end Error
end ShardQuery.Cli
