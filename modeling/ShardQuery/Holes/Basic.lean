import ShardQuery.Holes.Day
import ShardQuery.Json.Decode
import ShardQuery.Json.Printer
/-! # Index holes

A hole is a rectangle of values and days in which an index is known to be incomplete. All bounds are
inclusive and compared as strings. -/

namespace ShardQuery

/-- One gap in the coverage of an index. -/
structure Hole where
  startValue : String
  endValue : String
  startDate : String
  endDate : String
deriving DecidableEq, Repr, Inhabited

inductive RangeKind where
  | date | value
deriving DecidableEq, Repr, Inhabited

inductive HoleError where
  | invalidDate (text : String)
  | inverted (kind : RangeKind) (start : String) (stop : String)
  | source (reason : String)
  | notJson
  | unreadable (reason : String)
deriving DecidableEq, Repr, Inhabited

def RangeKind.name : RangeKind → String
  | date => "date"
  | value => "value"

def HoleError.message : HoleError → String
  | invalidDate text => "Invalid hole date '" ++ text ++ "', expected yyyyMMdd"
  | inverted kind start stop => "Inverted " ++ kind.name ++ " range [" ++ start ++ "," ++ stop ++ "]"
  | source reason => "Index hole source failed: " ++ reason
  | notJson => "Invalid index hole JSON"
  | unreadable reason => "I/O error reading index holes: " ++ reason

namespace Hole

/-- Refuses a bad start day, a bad end day, days the wrong way round and values the wrong way round, in
this order. -/
def validate (h : Hole) : Except HoleError Unit := do
  if !DayText.isValid h.startDate then throw (.invalidDate h.startDate)
  if !DayText.isValid h.endDate then throw (.invalidDate h.endDate)
  if h.endDate < h.startDate then throw (.inverted .date h.startDate h.endDate)
  if h.endValue < h.startValue then throw (.inverted .value h.startValue h.endValue)

structure IsValid (h : Hole) : Prop where
  startDate : DayText.isValid h.startDate = true
  endDate : DayText.isValid h.endDate = true
  dates : h.startDate ≤ h.endDate
  values : h.startValue ≤ h.endValue

private theorem refuseIf_eq_ok {c : Prop} [Decidable c] {e : HoleError} {rest : Except HoleError Unit}
    {next : Unit → Except HoleError Unit} :
    (if c then throw e >>= next else rest) = .ok () ↔ ¬ c ∧ rest = .ok () := by
  by_cases h : c <;> simp [h, throw, throwThe, MonadExceptOf.throw, bind, Except.bind]

theorem validate_eq_ok_iff {h : Hole} : h.validate = .ok () ↔ h.IsValid := by
  have hlast {c : Prop} [Decidable c] {e : HoleError} :
      (if c then throw e else pure () : Except HoleError Unit) = .ok () ↔ ¬ c := by
    by_cases h : c <;> simp [h, throw, throwThe, MonadExceptOf.throw, pure, Except.pure]
  simp only [validate, refuseIf_eq_ok, hlast, String.not_lt, Bool.not_eq_true', Bool.not_eq_false]
  exact ⟨fun ⟨h1, h2, h3, h4⟩ => ⟨h1, h2, h3, h4⟩, fun h => ⟨h.1, h.2, h.3, h.4⟩⟩

def overlapsDates (h : Hole) (queryStart queryEnd : String) : Bool :=
  h.startDate ≤ queryEnd && queryStart ≤ h.endDate

/-- True when a value lies in the hole on some day of the query. -/
def overlaps (h : Hole) (queryStart queryEnd value : String) : Bool :=
  h.startValue ≤ value && value ≤ h.endValue && h.overlapsDates queryStart queryEnd

def overlapsRange (h : Hole) (queryStart queryEnd lower upper : String) : Bool :=
  h.startValue ≤ upper && lower ≤ h.endValue && h.overlapsDates queryStart queryEnd

/-- True when all values of the hole are below a value. -/
def before (h : Hole) (value : String) : Bool := h.endValue < value

def after (h : Hole) (value : String) : Bool := value < h.startValue

abbrev order : Hole → Hole → Ordering :=
  compareLex (compareOn startValue) <| compareLex (compareOn endValue) <|
    compareLex (compareOn startDate) (compareOn endDate)

instance : Ord Hole := ⟨order⟩

instance : Std.TransOrd Hole := inferInstanceAs (Std.TransCmp order)

theorem eq_of_order {a b : Hole} (h : order a b = .eq) : a = b := by
  simp only [order, compareLex, compareOn, Ordering.then_eq_eq, Std.LawfulEqOrd.compare_eq_iff_eq] at h
  obtain ⟨h1, h2, h3, h4⟩ := h
  cases a; cases b; simp_all

instance : Std.LawfulEqOrd Hole where
  eq_of_compare := eq_of_order
  compare_self {a} := (Std.ReflCmp.compare_self : order a a = .eq)

def text (h : Hole) : String :=
  "([" ++ h.startValue ++ "," ++ h.endValue ++ "],[" ++ h.startDate ++ "," ++ h.endDate ++ "])"

def fieldNames : List String := ["start_value", "end_value", "start_date", "end_date"]

def toJson (h : Hole) : Json :=
  .object
    [("start_value", .string h.startValue), ("end_value", .string h.endValue),
     ("start_date", .string h.startDate), ("end_date", .string h.endDate)]

def ofJson? (v : Json) : Option Hole := do
  match ← Json.record? fieldNames v with
  | [some startValue, some endValue, some startDate, some endDate] =>
    return ⟨← Json.asString? startValue, ← Json.asString? endValue, ← Json.asString? startDate,
      ← Json.asString? endDate⟩
  | _ => none

end Hole
end ShardQuery
