import ShardQuery.Power
import ShardQuery.Text.Numeral
/-! # Command line arguments

The commands and their options. An option takes its value after an equals sign or as the next argument; an
argument that starts with one dash and is longer is no value, save a negative number where one is
accepted. After two dashes alone every argument is positional. What does not fit is refused. -/

namespace ShardQuery.Cli

inductive Probe where
  | value (v : String)
  | range (lower upper : String)
deriving DecidableEq, Repr, Inhabited

structure HolesCheck where
  config : String
  listing : Option String
  field : String
  start : String
  stop : String
  probe : Probe
deriving DecidableEq, Repr, Inhabited

inductive Command where
  | newIdentifier (config timestamp : Option String) (extras : List String) (content : String)
  | readIdentifier (limit : Int) (text : String)
  | checkHoles (check : HolesCheck)
  | normalize (config : String)
deriving DecidableEq, Repr, Inhabited

def defaultConfigPath : String := "./shardscan.json"

structure OptionSpec where
  name : String
  repeatable : Bool := false
  nonEmpty : Bool := false
  negative : Bool := false
deriving DecidableEq, Repr, Inhabited

/-- Arguments sorted into values of options, in order, and positional ones. -/
structure Sorted where
  values : List (String × String) := []
  positional : List String := []
deriving DecidableEq, Repr, Inhabited

namespace Sorted

def all (s : Sorted) (name : String) : List String :=
  (s.values.filter fun v => v.1 = name).map Prod.snd

def first? (s : Sorted) (name : String) : Option String := (s.all name).head?

/-- Adds a value of an option, unless the option has one already or refuses it. -/
def add? (s : Sorted) (o : OptionSpec) (value : String) : Option Sorted :=
  if o.nonEmpty && value.isEmpty then none
  else if !o.repeatable && (s.first? o.name).isSome then none
  else some { s with values := s.values ++ [(o.name, value)] }

def addPositional (s : Sorted) (value : String) : Sorted :=
  { s with positional := s.positional ++ [value] }

end Sorted

inductive Shape where
  | separator
  | long (name : String) (value : Option String)
  | dashed
  | plain
deriving DecidableEq, Repr, Inhabited

def shapeOf (arg : String) : Shape :=
  match arg.toList with
  | ['-', '-'] => .separator
  | '-' :: '-' :: rest =>
    match rest.dropWhile (· ≠ '=') with
    | [] => .long (String.ofList rest) none
    | _ :: value => .long (String.ofList (rest.takeWhile (· ≠ '='))) (some (String.ofList value))
  | '-' :: _ :: _ => .dashed
  | _ => .plain

def isNegativeNumber (arg : String) : Bool :=
  match arg.toList with
  | '-' :: d :: ds => (d :: ds).all Char.isDigit
  | _ => false

/-- Sorts arguments; `waiting` is an option that was named and has no value yet. -/
def sortArguments? (options : List OptionSpec) :
    Option OptionSpec → Sorted → List String → Option Sorted
  | none, s, [] => some s
  | some _, _, [] => none
  | waiting, s, arg :: args =>
    match shapeOf arg, waiting with
    | .separator, none => some (args.foldl Sorted.addPositional s)
    | .separator, some _ => none
    | .long _ _, some _ => none
    | .long name value, none =>
      match options.find? fun o => o.name = name, value with
      | none, _ => none
      | some o, none => sortArguments? options (some o) s args
      | some o, some v => (s.add? o v).bind fun s => sortArguments? options none s args
    | .dashed, none => none
    | .dashed, some o =>
      if o.negative && isNegativeNumber arg then
        (s.add? o arg).bind fun s => sortArguments? options none s args
      else none
    | .plain, none => sortArguments? options none (s.addPositional arg) args
    | .plain, some o => (s.add? o arg).bind fun s => sortArguments? options none s args

def sorted? (options : List OptionSpec) (args : List String) : Option Sorted :=
  sortArguments? options none {} args

def readInt32? (s : String) : Option Int :=
  let value :=
    match s.toList with
    | '-' :: ds => (Text.readNat? 10 ds).map fun n => -(n : Int)
    | '+' :: ds => (Text.readNat? 10 ds).map fun n => (n : Int)
    | ds => (Text.readNat? 10 ds).map fun n => (n : Int)
  value.filter fun n => -2 ^ 31 ≤ n && n < 2 ^ 31

def newIdentifier? (args : List String) : Option Command := do
  let s ← sorted? [⟨"config", false, true, false⟩, { name := "timestamp" },
    ⟨"extra", true, false, false⟩] args
  match s.positional with
  | [content] => some (.newIdentifier (s.first? "config") (s.first? "timestamp") (s.all "extra") content)
  | _ => none

def readIdentifier? (args : List String) : Option Command := do
  let s ← sorted? [⟨"max-extra-parts", false, false, true⟩] args
  match s.positional with
  | [text] =>
    match s.first? "max-extra-parts" with
    | none => some (.readIdentifier (-1) text)
    | some limit => (readInt32? limit).map fun n => .readIdentifier n text
  | _ => none

def probe? (s : Sorted) : Option Probe :=
  match s.first? "value", s.first? "lower", s.first? "upper" with
  | some v, none, none => some (.value v)
  | none, some lower, some upper => some (.range lower upper)
  | _, _, _ => none

def checkHoles? (args : List String) : Option Command := do
  let s ← sorted? [⟨"config", false, true, false⟩, ⟨"holes", false, true, false⟩,
    { name := "field" }, { name := "start" }, { name := "end" }, { name := "value" },
    { name := "lower" }, { name := "upper" }] args
  let field ← s.first? "field"
  let start ← s.first? "start"
  let stop ← s.first? "end"
  let probe ← probe? s
  if s.positional.isEmpty then
    some (.checkHoles
      ⟨(s.first? "config").getD defaultConfigPath, s.first? "holes", field, start, stop, probe⟩)
  else none

def normalize? (args : List String) : Option Command := do
  let s ← sorted? [⟨"config", false, true, false⟩] args
  if s.positional.isEmpty then some (.normalize ((s.first? "config").getD defaultConfigPath)) else none

def Command.parse? : List String → Option Command
  | "uid" :: "new" :: args => newIdentifier? args
  | "uid" :: "parse" :: args => readIdentifier? args
  | "holes" :: "check" :: args => checkHoles? args
  | "normalize" :: args => normalize? args
  | _ => none

end ShardQuery.Cli
