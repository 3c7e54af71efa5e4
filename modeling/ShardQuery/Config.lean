import ShardQuery.Identifier.Snowflake
import ShardQuery.Json.Reader
import ShardQuery.Log.Basic
import ShardQuery.Query.FieldTypes
/-! # Configuration

The settings file: a JSON record whose every field has a default. A configuration that was accepted names
a known log level, a cap of at least -1, and a valid machine when identifiers are snowflakes. -/

namespace ShardQuery

inductive IdentifierEncoding where
  | hash | snowflake
deriving DecidableEq, Repr, Inhabited

def IdentifierEncoding.name : IdentifierEncoding → String
  | hash => "hash"
  | snowflake => "snowflake"

def IdentifierEncoding.ofName? (s : String) : Option IdentifierEncoding :=
  [hash, snowflake].find? fun e => e.name = s

structure Config where
  encoding : IdentifierEncoding := .hash
  machine : Option Int := none
  cacheRequired : Bool := false
  maxResults : Int := -1
  logLevel : String := "INFO"
  fieldTypes : Option FieldTypes := none
  holesFile : Option String := none
deriving DecidableEq

inductive ConfigFault where
  | machine (error : IdentifierError)
  | maxResults (value : Int)
  | logLevel (name : String)
deriving DecidableEq

def ConfigFault.message : ConfigFault → String
  | machine error => error.message
  | maxResults value =>
    "max_results must be -1 (unlimited) or >= 0, got " ++ Text.decimalInt value
  | logLevel name => Log.unknownLevel name

inductive ConfigError where
  | unreadable (path : String) (reason : String)
  | notJson
  | invalid (fault : ConfigFault)
deriving DecidableEq

def ConfigError.invalidText (reason : String) : String := "Invalid config: " ++ reason

def ConfigError.message : ConfigError → String
  | unreadable path reason => "Failed to read config " ++ path ++ ": " ++ reason
  | notJson => "Invalid config JSON"
  | invalid fault => invalidText fault.message

namespace Config

instance : Inhabited Config := ⟨{}⟩

def fieldNames : List String :=
  ["uid_type", "machine_id", "snowflake_cache_enabled", "max_results", "log_level", "field_types",
   "holes_file"]

/-- A configuration read from JSON, checked for types only. -/
def ofJson? (v : Json) : Option Config := do
  match ← Json.record? fieldNames v with
  | [encoding, machine, cacheRequired, maxResults, logLevel, fieldTypes, holesFile] =>
    let encoding ←
      Json.fieldOr .hash (fun v => (Json.asChoice? v).bind IdentifierEncoding.ofName?) encoding
    let machine ← Json.fieldOr none (Json.asOptional? Json.asInt64?) machine
    let cacheRequired ← Json.fieldOr false Json.asBool? cacheRequired
    let maxResults ← Json.fieldOr (-1) Json.asInt64? maxResults
    let logLevel ← Json.fieldOr "INFO" Json.asString? logLevel
    let fieldTypes ← Json.fieldOr none (Json.asOptional? FieldTypes.ofJson?) fieldTypes
    let holesFile ← Json.fieldOr none (Json.asOptional? Json.asString?) holesFile
    return { encoding, machine, cacheRequired, maxResults, logLevel, fieldTypes, holesFile }
  | _ => none

/-- The least severity to log, or the upper-case name of an unknown level. -/
def severity (c : Config) : Except String Log.Severity := Log.Severity.parse c.logLevel

/-- Refuses a snowflake configuration without valid machine, a cap below -1 and an unknown level, in
this order. -/
def validate (c : Config) : Except ConfigFault Unit := do
  if c.encoding = .snowflake then
    match MachineId.require c.machine with
    | .ok _ => pure ()
    | .error e => throw (.machine e)
  if c.maxResults < -1 then throw (.maxResults c.maxResults)
  match c.severity with
  | .ok _ => pure ()
  | .error name => throw (.logLevel name)

def parse (s : String) : Except ConfigError Config :=
  match (Json.read? s).bind ofJson? with
  | none => .error .notJson
  | some c =>
    match c.validate with
    | .ok _ => .ok c
    | .error fault => .error (.invalid fault)

/-- The cap on results; none when they are unlimited. -/
def resultCap (c : Config) : Option Nat := if c.maxResults < 0 then none else some c.maxResults.toNat

def applyLogging (c : Config) (log : Log) : Except ConfigError Log :=
  match c.severity with
  | .ok s => .ok { log with least := s }
  | .error name => .error (.invalid (.logLevel name))

def reportLoaded (c : Config) (path : String) (log : Log) : Log :=
  log.report .configLoaded [("path", path), ("uid_type", c.encoding.name)]

def toJson (c : Config) : Json :=
  .object
    [("uid_type", .string c.encoding.name),
     ("machine_id", c.machine.elim .null fun n => .number (.int n)),
     ("snowflake_cache_enabled", .bool c.cacheRequired),
     ("max_results", .number (.int c.maxResults)),
     ("log_level", .string c.logLevel),
     ("field_types", c.fieldTypes.elim .null FieldTypes.toJson),
     ("holes_file", Json.optionalString c.holesFile)]

end Config
end ShardQuery
