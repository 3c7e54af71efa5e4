import ShardQuery.Proofs.Query.Atoms
import ShardQuery.Query.Normalize

/-!
# Normalization against a reference

The reference looks at every atom of a tree by itself. Normalization maps the tree by it and records
its rewrites from left to right, although it builds nothing anew where nothing is rewritten. What it
returns holds nothing that would be rewritten again.
-/

namespace ShardQuery

/-- A field is untyped when it is unknown or declared with no type at all. -/
def FieldTypes.IsUntyped (types : FieldTypes) (field : String) : Prop :=
  types.find? field = none ∨ types.find? field = some ∅

instance (types : FieldTypes) (field : String) : Decidable (types.IsUntyped field) :=
  inferInstanceAs (Decidable (_ ∨ _))

theorem FieldTypes.isDeclared_eq_false_iff {types : FieldTypes} {field : String} :
    types.isDeclared field = false ↔ types.IsUntyped field := by
  unfold FieldTypes.isDeclared FieldTypes.IsUntyped
  cases types.find? field with
  | none => simp
  | some declared =>
    have hempty : declared.isEmpty = true ↔ declared = ∅ :=
      List.isEmpty_iff.trans ⟨fun h => OrderedSet.ext h, fun h => h ▸ rfl⟩
    simpa using hempty

def Rewrite.result (r : Rewrite) : Expression := .compare r.op r.field (.number r.number)

/-- The line of the log that tells of a rewrite. -/
def Rewrite.line (r : Rewrite) : Log.Line :=
  ⟨.trace, "LITERAL_REWRITTEN",
    [("field", r.field), ("op", r.op.symbol), ("from", r.source), ("to", r.number.render)]⟩

namespace Expression

/-- The rewrite of an expression taken by itself: it compares an untyped field with a string that
reads as a number. -/
def conversion? (types : FieldTypes) : Expression → Option Rewrite
  | .compare op f (.string s) =>
    if types.IsUntyped f then (NumericLiteral.parse? s).map fun n => ⟨f, op, s, n⟩ else none
  | _ => none

/-- The result of the rewrite of an expression, or the expression when there is none. -/
def convert (types : FieldTypes) (e : Expression) : Expression :=
  match e.conversion? types with
  | some r => r.result
  | none => e

variable {types : FieldTypes}

theorem conversion?_compare (op : CompareOp) (f : String) (literal : Literal) :
    (Expression.compare op f literal).conversion? types =
      (replacement? types f literal).map fun p => ⟨f, op, p.1, p.2⟩ := by
  cases literal with
  | string s =>
    have hdeclared : types.isDeclared f = true ↔ ¬ types.IsUntyped f := by
      rw [← FieldTypes.isDeclared_eq_false_iff, Bool.not_eq_false]
    simp only [conversion?, replacement?, hdeclared, ite_not]
    by_cases huntyped : types.IsUntyped f
    · simp [huntyped, Option.map_map, Function.comp_def]
    · simp [huntyped]
  | null => rfl
  | bool b => rfl
  | number n => rfl

theorem conversion?_eq_some_iff {e : Expression} {r : Rewrite} :
    e.conversion? types = some r ↔
      e = .compare r.op r.field (.string r.source) ∧ types.IsUntyped r.field ∧
        NumericLiteral.parse? r.source = some r.number := by
  obtain ⟨f, op, source, number⟩ := r
  constructor
  · intro h
    unfold conversion? at h
    split at h
    · next op' f' s =>
      split at h
      · next huntyped =>
        obtain ⟨n, hn, hr⟩ := Option.map_eq_some_iff.1 h
        cases hr
        exact ⟨rfl, huntyped, hn⟩
      · cases h
    · cases h
  · rintro ⟨rfl, huntyped, hn⟩
    simp_all [conversion?]

theorem convert_eq_self_iff {e : Expression} :
    e.convert types = e ↔ e.conversion? types = none := by
  unfold convert
  cases h : e.conversion? types with
  | none => simp
  | some r =>
    obtain ⟨rfl, -, -⟩ := conversion?_eq_some_iff.1 h
    simp [Rewrite.result]

theorem conversion?_convert (e : Expression) : (e.convert types).conversion? types = none := by
  unfold convert
  cases h : e.conversion? types with
  | none => exact h
  | some r => simp [Rewrite.result, conversion?]

theorem isAtom_convert {e : Expression} (h : e.IsAtom) : (e.convert types).IsAtom := by
  unfold convert
  cases e.conversion? types with
  | none => exact h
  | some r => trivial

theorem rewrite?_of_isAtom {e : Expression} (h : e.IsAtom) :
    e.rewrite? types =
      ((e.conversion? types).map Rewrite.result, (e.conversion? types).toList) := by
  cases e with
  | and | or | not => exact h.elim
  | compare op f literal =>
    rw [rewrite?, conversion?_compare]
    cases replacement? types f literal <;> rfl
  | function | field | value => rfl

theorem rewriteEach_eq (children : List Expression) :
    rewriteEach types children =
      (children.map fun e => (e.rewrite? types).1,
        children.flatMap fun e => (e.rewrite? types).2) := by
  induction children with
  | nil => rfl
  | cons e children ih => simp [rewriteEach, ih]

/-- Children are put back in their places, those replaced and those kept. -/
theorem getD_replaceIn? (f : Expression → Option Expression) (children : List Expression) :
    (replaceIn? (children.map f) children).getD children = children.map fun e => (f e).getD e := by
  unfold replaceIn?
  split
  · next hkept =>
    have hself : ∀ e ∈ children, (f e).getD e = e := by
      intro e he
      simp_all
    simpa using (List.map_inj_left.2 hself).symm
  · simp [List.zipWith_map_left]

theorem getD_rewrite? (e : Expression) :
    (e.rewrite? types).1.getD e = e.mapAtoms (convert types) := by
  induction e using atoms_induct with
  | and children ih | or children ih =>
    simp only [rewrite?, rewriteEach_eq, mapAtoms, Option.getD_map, getD_replaceIn?]
    rw [List.map_congr_left ih]
  | not child ih => simp only [rewrite?, mapAtoms, Option.getD_map, ih]
  | atom e he =>
    rw [rewrite?_of_isAtom he, mapAtoms_of_isAtom he, convert]
    cases e.conversion? types <;> rfl

theorem rewrites_rewrite? (e : Expression) :
    (e.rewrite? types).2 = e.atoms.filterMap (conversion? types) := by
  induction e using atoms_induct with
  | and children ih | or children ih =>
    simp only [rewrite?, rewriteEach_eq, atoms, List.filterMap_flatMap]
    exact List.flatMap_congr ih
  | not child ih => simp only [rewrite?, atoms, ih]
  | atom e he =>
    rw [rewrite?_of_isAtom he, atoms_of_isAtom he]
    cases h : e.conversion? types <;> simp [h]

end Expression

theorem foldl_report (rewrites : List Rewrite) (log : Log) :
    rewrites.foldl (fun log r => log.report .literalRewritten r.logFields) log =
      { log with
        written := log.written ++
          if log.least = .trace then
            rewrites.map fun r => (if log.stderrOnly then .stderr else .stdout, r.line)
          else [] } := by
  induction rewrites generalizing log with
  | nil => simp
  | cons r rewrites ih =>
    have hstep : log.report .literalRewritten r.logFields =
        if log.least = .trace then
          { log with
            written := log.written ++ [(if log.stderrOnly then .stderr else .stdout, r.line)] }
        else log := by
      obtain ⟨least, stderrOnly, written⟩ := log
      cases least <;> cases stderrOnly <;> rfl
    rw [List.foldl_cons, ih, hstep]
    by_cases htrace : log.least = .trace
    · simp [htrace]
    · simp [htrace]

namespace Expression

theorem expression_rewritten (e : Expression) :
    (e.rewritten types).expression = e.mapAtoms (convert types) := getD_rewrite? e

theorem rewrites_rewritten (e : Expression) :
    (e.rewritten types).rewrites = e.atoms.filterMap (conversion? types) := rewrites_rewrite? e

/-- Nothing is rewritten exactly when the tree stays the same. -/
theorem rewrites_rewritten_eq_nil_iff {e : Expression} :
    (e.rewritten types).rewrites = [] ↔ (e.rewritten types).expression = e := by
  rw [expression_rewritten, rewrites_rewritten, List.filterMap_eq_nil_iff, mapAtoms_eq_self_iff]
  exact forall₂_congr fun a _ => convert_eq_self_iff.symm

theorem rewrites_rewritten_rewritten (e : Expression) :
    ((e.rewritten types).expression.rewritten types).rewrites = [] := by
  have hatoms : (e.mapAtoms (convert types)).atoms = e.atoms.map (convert types) :=
    atoms_mapAtoms fun a ha => isAtom_convert (isAtom_of_mem_atoms ha)
  rw [rewrites_rewritten, expression_rewritten, hatoms, List.filterMap_map,
    List.filterMap_eq_nil_iff]
  exact fun a _ => conversion?_convert a

theorem rewritten_rewritten (e : Expression) :
    (e.rewritten types).expression.rewritten types = ⟨(e.rewritten types).expression, []⟩ := by
  have hnone : ((e.rewritten types).expression.rewritten types).rewrites = [] :=
    rewrites_rewritten_rewritten e
  have hstays : ((e.rewritten types).expression.rewritten types).expression =
      (e.rewritten types).expression := rewrites_rewritten_eq_nil_iff.1 hnone
  calc (e.rewritten types).expression.rewritten types
      = ⟨((e.rewritten types).expression.rewritten types).expression,
          ((e.rewritten types).expression.rewritten types).rewrites⟩ := rfl
    _ = ⟨(e.rewritten types).expression, []⟩ := by rw [hstays, hnone]

theorem normalize_of_rewritten {e e' : Expression} (h : e.rewritten types = ⟨e', []⟩) (log : Log)
    (metrics : Option Metrics) : e.normalize types log metrics = (⟨e', []⟩, log, metrics) := by
  unfold normalize
  rw [h]
  cases metrics <;> rfl

/-- Normalization maps every atom by itself, the joints between them and the arguments of functions
kept. It counts one rewrite for each comparison with a number in the place of a text, adds their
number to the metrics if any are attached, and writes a line for each from left to right where
everything is logged. The tree is the same exactly when there is none, and normalizing it again
changes nothing. -/
theorem normalize_eq_reference (types : FieldTypes) (e : Expression) (log : Log)
    (metrics : Option Metrics) :
    let r := e.normalize types log metrics
    let rewrites := e.atoms.filterMap (conversion? types)
    let number := e.atoms.countP fun a => (a.conversion? types).isSome
    r.1.expression = e.mapAtoms (convert types) ∧
      r.1.rewrites = rewrites ∧
      r.1.count = number ∧
      r.2.1 = { log with
        written := log.written ++
          if log.least = .trace then
            rewrites.map fun w => (if log.stderrOnly then .stderr else .stdout, w.line)
          else [] } ∧
      r.2.2 = metrics.map (fun m =>
        { m with literalsRewritten := m.literalsRewritten + number }) ∧
      (r.1.count = 0 ↔ r.1.expression = e) ∧
      ∀ log' metrics', r.1.expression.normalize types log' metrics' =
        (⟨r.1.expression, []⟩, log', metrics') := by
  intro r rewrites number
  have hrewrites : (e.rewritten types).rewrites = rewrites := rewrites_rewritten e
  have hcount : r.1.count = number := by
    change (e.rewritten types).rewrites.length = number
    rw [hrewrites, List.length_filterMap_eq_countP]
  refine ⟨expression_rewritten e, hrewrites, hcount, ?_, ?_, ?_, ?_⟩
  · change (e.rewritten types).rewrites.foldl _ log = _
    rw [hrewrites]
    exact foldl_report rewrites log
  · rw [← hcount]
    rfl
  · exact List.length_eq_zero_iff.trans rewrites_rewritten_eq_nil_iff
  · intro log' metrics'
    exact normalize_of_rewritten (rewritten_rewritten e) log' metrics'

/-- Of three children the first is no number, the second is rewritten below a not, and the third
holds its comparison among the arguments of a function. -/
example :
    let kept : Expression := .compare .equal "NAME" (.string "bob")
    let call : Expression := .function "filter" "any" [.compare .equal "AGE" (.string "3")]
    let e : Expression := .and [kept, .not (.compare .less "AGE" (.string " 0x1F ")), call]
    (e.normalize ∅ {} (some {})).1 =
        ⟨.and [kept, .not (.compare .less "AGE" (.number (.int 31))), call],
          [⟨"AGE", .less, " 0x1F ", .int 31⟩]⟩ ∧
      (e.normalize ∅ {} (some {})).2.2 = some { literalsRewritten := 1 } := by
  exact ⟨rfl, rfl⟩

end Expression
end ShardQuery
