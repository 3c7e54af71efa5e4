import ShardQuery.Time.Instant
/-! # Identifier errors

Why an identifier cannot be built or read, and what is said about it. A call for an identifier may also
panic, which is no error. -/

namespace ShardQuery

inductive ConfigurationFault where
  | machineMissing
  | machineOutOfRange (value : Int)
  | beforeEpoch (time : Instant)
  | beyondRange (millis : Nat)
  | cacheMissing
  | stated (reason : String)
deriving DecidableEq, Inhabited

inductive FormatFault where
  | empty
  | snowflakeDigits
  | timeOfDay
  | missingHashes
  | hashSegment (part : String)
deriving DecidableEq, Inhabited

inductive IdentifierError where
  | configuration (fault : ConfigurationFault)
  | format (input : String) (fault : FormatFault)
  | counterUnavailable (reason : String)
deriving DecidableEq, Inhabited

/-- How a call for an identifier ends that gives none: in an error, or in a panic because a millisecond
overflows. -/
inductive CallFailure where
  | error (e : IdentifierError)
  | overflow
deriving DecidableEq, Inhabited

def CallFailure.settled {α : Type} :
    (r : Except CallFailure α) → r ≠ .error .overflow → Except IdentifierError α
  | .ok a, _ => .ok a
  | .error (.error e), _ => .error e
  | .error .overflow, h => absurd rfl h

def machineRequirement : String :=
  "A 20-bit, non-negative, integer machine id must be configured to build snowflake UIDs"

def ConfigurationFault.message : ConfigurationFault → String
  | machineMissing => machineRequirement
  | machineOutOfRange value => machineRequirement ++ " (got " ++ Text.decimalInt value ++ ")"
  | beforeEpoch time => "timestamp " ++ time.text ++ " precedes the epoch"
  | beyondRange millis =>
    "timestamp " ++ Text.decimal millis ++ " exceeds the 44-bit snowflake range"
  | cacheMissing => "snowflake_cache_enabled is set but no counter cache was supplied"
  | stated reason => reason

def FormatFault.message : FormatFault → String
  | empty => "empty input"
  | snowflakeDigits => "snowflake segment must be 24 lowercase hex digits"
  | timeOfDay => "invalid time-of-day segment"
  | missingHashes => "expected three hash segments"
  | hashSegment part => "invalid hash segment '" ++ part ++ "'"

def IdentifierError.message : IdentifierError → String
  | configuration fault => "UID configuration error: " ++ fault.message
  | format input fault => "Not a valid UID '" ++ input ++ "': " ++ fault.message
  | counterUnavailable reason => "Snowflake counter unavailable: " ++ reason

end ShardQuery
