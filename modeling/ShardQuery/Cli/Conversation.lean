import ShardQuery.Cli.Arguments
import ShardQuery.Cli.Error
import ShardQuery.Holes.Listing
import ShardQuery.Identifier.Generator
import ShardQuery.Identifier.Parse
import ShardQuery.Query.ExpressionJson
import ShardQuery.Query.Normalize
import ShardQuery.Query.Render
import ShardQuery.Text.Utf8
import ShardQuery.Time.Rfc3339
/-! # Commands

What every command does, as a conversation with its surroundings: it asks for files, for its input and for
the time, and ends in a response or an error together with the log. -/

namespace ShardQuery.Cli

/-- What becomes of a file that is asked for. -/
inductive FileOutcome where
  | text (content : String)
  | unopened (reason : String)
  | unread (reason : String)
deriving DecidableEq, Repr, Inhabited

/-- A command under way: the next request and what follows the answer. -/
inductive Conversation where
  | done (result : Except Error Json) (log : Log)
  | readFile (path : String) (next : FileOutcome → Conversation)
  | readInput (next : Except String String → Conversation)
  | readClock (next : Instant → Conversation)

instance : Inhabited Conversation := ⟨.done (.error default) {}⟩

def describe (u : Identifier) : Json :=
  let timeOfDay : Int := u.base.timeOfDay.elim (-1) fun n => n
  let common : List (String × Json) :=
    [("uid", .string u.text), ("base", .string u.base.text),
     ("sharded_portion", .string u.base.shardedPortion), ("extra", Json.optionalString u.extra),
     ("time_of_day", .number (.int timeOfDay))]
  match u.base with
  | .hash _ => .object (common ++ [("variant", .string "hash")])
  | .snowflake b =>
    .object
      (common ++
        [("variant", .string "snowflake"), ("machine_id", .nat b.machine.val),
         ("timestamp_millis", .nat b.millis.val), ("counter", .nat b.counter.toNat)])

def withConfig (path : String) (log : Log) (next : Config → Log → Conversation) : Conversation :=
  .readFile path fun outcome =>
    let config : Except ConfigError Config :=
      match outcome with
      | .text content => Config.parse content
      | .unopened reason | .unread reason => .error (.unreadable path reason)
    match config with
    | .error e => .done (.error (.ofConfig e)) log
    | .ok config =>
      let log := config.reportLoaded path log
      match config.applyLogging log with
      | .error e => .done (.error (.ofConfig e)) log
      | .ok log => next config log

/-- Loads the configuration of a path if there is one; without a path the default settings apply. -/
def withConfigOr (path : Option String) (log : Log) (next : Config → Log → Conversation) :
    Conversation :=
  match path with
  | some path => withConfig path log next
  | none =>
    match ({} : Config).applyLogging log with
    | .error e => .done (.error (.ofConfig e)) log
    | .ok log => next {} log

def finishIdentifier (result : Except IdentifierError Identifier) (log : Log) : Conversation :=
  match result with
  | .error e => .done (.error (.ofIdentifier e)) log
  | .ok u => .done (.ok (describe u)) log

/-- The next pair of a counter source that keeps nothing. -/
def localTick : NextTick CounterSource := fun machine now s => s.nextLocal machine now

theorem generate_newLocal_ne (g : Generator) (now : Instant) (content : List UInt8)
    (time : Option Instant) (extras : List String) (metrics : Option Metrics) :
    (g.generate localTick now content time extras metrics .newLocal).1 ≠ .error .overflow := by
  cases g with
  | hash => simp [Generator.generate, Generator.make]
  | snowflake machine =>
    unfold Generator.generate Generator.make Identifier.snowflakeFor
    cases (time.getD now).millis with
    | negSucc n => simp
    | ofNat millis =>
      have htick : (localTick machine (UInt64.ofNat millis) .newLocal).1 =
        .ok ⟨UInt64.ofNat millis, 0⟩ := rfl
      dsimp only
      generalize localTick machine (UInt64.ofNat millis) .newLocal = reply at htick ⊢
      obtain ⟨answer, s⟩ := reply
      cases htick
      dsimp only
      cases Snowflake.make machine (UInt64.ofNat millis) 0 <;> simp

def makeIdentifier (config : Config) (time : Option Instant) (extras : List String) (content : String)
    (log : Log) : Conversation :=
  match h : Generator.ofConfig config false log with
  | (.error e, log) => .done (.error (.ofIdentifier e)) log
  | (.ok (generator, source), log) =>
    let made (now : Instant) : Except IdentifierError Identifier :=
      CallFailure.settled
        (generator.generate localTick now (Text.bytesOf content) time extras none source).1 (by
          cases Generator.source_of_ofConfig h
          exact generate_newLocal_ne generator now _ time extras none)
    match generator, time with
    | .snowflake _, none => .readClock fun now => finishIdentifier (made now) log
    | _, _ => finishIdentifier (made default) log

def identify (config : Config) (timestamp : Option String) (extras : List String)
    (content : String) (log : Log) : Conversation :=
  match timestamp with
  | none => makeIdentifier config none extras content log
  | some s =>
    match Rfc3339.parse? s with
    | none => .done (.error (.badTimestamp s)) log
    | some time => makeIdentifier config (some time) extras content log

def meets (holes : HoleSet) (check : HolesCheck) : List Hole :=
  match check.probe with
  | .value v => holes.overlappingValue check.start check.stop v
  | .range lower upper => holes.overlappingRange check.start check.stop lower upper

def answer (listing : HoleListing) (check : HolesCheck) : Json :=
  let hits := meets (listing.holesFor check.field) check
  .object
    [("field", .string check.field), ("usable", .bool hits.isEmpty),
     ("holes", .array (hits.map Hole.toJson))]

def lookUp (config : Config) (check : HolesCheck) (log : Log) : Conversation :=
  match check.listing.or config.holesFile with
  | none => .done (.error .listingMissing) log
  | some path =>
    .readFile path fun outcome =>
      let listing : Except HoleError HoleListing :=
        match outcome with
        | .text content => HoleListing.parse content
        | .unopened reason => .error (.unreadable reason)
        | .unread _ => .error .notJson
      match listing with
      | .error e => .done (.error (.ofHole e)) log
      | .ok listing => .done (.ok (answer listing check)) (listing.reportLoaded path log)

/-- The expression of an input text; of members of one name the last counts. -/
def readExpression (input : String) : Except Error Expression :=
  if (Text.trimmed input).isEmpty then .error .emptyInput
  else
    match (Json.readWhole? input).bind fun v => Expression.ofJson? false v.sorted with
    | none => .error .badJson
    | some e => .ok e

def normalizedJson (n : Normalized) : Json :=
  .object
    [("expression", n.expression.toJson), ("rendered", .string n.expression.render),
     ("rewritten", .nat n.count)]

def normalizeInput (config : Config) (input : Except String String) (log : Log) : Conversation :=
  match input with
  | .error reason => .done (.error ⟨.io, reason⟩) log
  | .ok input =>
    match readExpression input with
    | .error e => .done (.error e) log
    | .ok e =>
      match requireTypes config.fieldTypes with
      | .error e => .done (.error (.ofPlanning e)) log
      | .ok types =>
        let (n, log, _) := e.normalize types log none
        .done (.ok (normalizedJson n)) log

def Command.run (command : Command) (log : Log) : Conversation :=
  match command with
  | .newIdentifier config timestamp extras content =>
    withConfigOr config log fun config log => identify config timestamp extras content log
  | .readIdentifier limit s => finishIdentifier (Identifier.parse s limit) log
  | .checkHoles check => withConfig check.config log fun config log => lookUp config check log
  | .normalize config =>
    withConfig config log fun config log => .readInput fun input => normalizeInput config input log

def initialLog : Log := { stderrOnly := true }

def response (result : Except Error Json) : String :=
  let envelope : Json :=
    match result with
    | .ok data => .object [("status", .string "ok"), ("data", data)]
    | .error e =>
      .object [("status", .string "error"), ("code", .string e.code), ("message", .string e.message)]
  envelope.sorted.render

def diagnostics (result : Except Error Json) (log : Log) : List String :=
  let lines := (log.linesOn .stderr).map Log.Line.text
  match result with
  | .ok _ => lines
  | .error e => lines ++ [e.text]

def exitCode (result : Except Error Json) : UInt32 :=
  match result with
  | .ok _ => 0
  | .error _ => 1

def refusedCode : UInt32 := 2

end ShardQuery.Cli
