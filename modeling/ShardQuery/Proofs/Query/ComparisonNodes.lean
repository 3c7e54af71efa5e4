import ShardQuery.Proofs.Query.Normalization

/-!
# Comparisons at any depth

The comparisons of a tree stand from left to right, those among the arguments of functions included.
Normalization reaches a comparison through and, or and not only. So what it leaves to be rewritten
is exactly what could be rewritten among the arguments of functions.
-/

namespace ShardQuery.Expression

def comparisonNodes : Expression → List Expression
  | .and children | .or children => children.flatMap comparisonNodes
  | .not child => child.comparisonNodes
  | .compare op f literal => [.compare op f literal]
  | .function _ _ args => args.flatMap comparisonNodes
  | .field _ | .value _ => []

/-- The comparisons among the arguments of an atom, which has some when it is a function call. -/
def nodesInArguments : Expression → List Expression
  | .function _ _ args => args.flatMap comparisonNodes
  | _ => []

/-- The comparisons of a tree that stand among the arguments of functions, from left to right. -/
def argumentNodes (e : Expression) : List Expression := e.atoms.flatMap nodesInArguments

/-- A comparison of an untyped field with a string that reads as a number. -/
def IsConvertible (types : FieldTypes) (e : Expression) : Prop :=
  ∃ op f s, e = .compare op f (.string s) ∧ types.IsUntyped f ∧
    (NumericLiteral.parse? s).isSome = true

variable {types : FieldTypes}

theorem isConvertible_iff {e : Expression} :
    e.IsConvertible types ↔ (e.conversion? types).isSome = true := by
  rw [Option.isSome_iff_exists]
  constructor
  · rintro ⟨op, f, s, rfl, huntyped, hnumber⟩
    obtain ⟨n, hn⟩ := Option.isSome_iff_exists.1 hnumber
    exact ⟨⟨f, op, s, n⟩, conversion?_eq_some_iff.2 ⟨rfl, huntyped, hn⟩⟩
  · rintro ⟨r, hr⟩
    obtain ⟨rfl, huntyped, hn⟩ := conversion?_eq_some_iff.1 hr
    exact ⟨r.op, r.field, r.source, rfl, huntyped, Option.isSome_iff_exists.2 ⟨_, hn⟩⟩

private theorem length_flatMap_nodes {es : List Expression}
    (h : ∀ e ∈ es, e.comparisonNodes.length = e.comparisons) :
    (es.flatMap comparisonNodes).length = comparisonsIn es := by
  induction es with
  | nil => rfl
  | cons e es ih =>
    rw [List.flatMap_cons, List.length_append, comparisonsIn, h e List.mem_cons_self,
      ih fun e he => h e (List.mem_cons_of_mem _ he)]

/-- The comparisons are as many as are counted. -/
theorem length_comparisonNodes (e : Expression) : e.comparisonNodes.length = e.comparisons := by
  -- the arguments of a function are part of the count, so a function is no leaf here
  induction e using tree_induct with
  | and children ih | or children ih | function _ _ children ih =>
    rw [comparisonNodes, comparisons, length_flatMap_nodes ih]
  | not child ih => rw [comparisonNodes, comparisons, ih]
  | compare => rw [comparisonNodes, comparisons, List.length_singleton]
  | field | value => rw [comparisonNodes, comparisons, List.length_nil]

theorem comparisonNodes_eq_atoms (e : Expression) :
    e.comparisonNodes = e.atoms.flatMap comparisonNodes := by
  induction e using atoms_induct with
  | and children ih | or children ih =>
    rw [comparisonNodes, atoms, List.flatMap_assoc, List.flatMap_congr ih]
  | not child ih => rw [comparisonNodes, atoms, ih]
  | atom e he => rw [atoms_of_isAtom he, List.flatMap_singleton]

theorem atoms_rewritten (e : Expression) :
    (e.rewritten types).expression.atoms = e.atoms.map (convert types) := by
  rw [expression_rewritten]
  exact atoms_mapAtoms fun a ha => isAtom_convert (isAtom_of_mem_atoms ha)

theorem comparisonNodes_rewritten (e : Expression) :
    (e.rewritten types).expression.comparisonNodes =
      e.atoms.flatMap fun a => (a.convert types).comparisonNodes := by
  rw [comparisonNodes_eq_atoms, atoms_rewritten, List.flatMap_map]

theorem length_comparisonNodes_convert (e : Expression) :
    (e.convert types).comparisonNodes.length = e.comparisonNodes.length := by
  unfold convert
  cases h : e.conversion? types with
  | none => rfl
  | some r =>
    obtain ⟨rfl, -, -⟩ := conversion?_eq_some_iff.1 h
    simp [Rewrite.result, comparisonNodes]

/-- Once an atom is converted, only the arguments of a function can be left to be rewritten. -/
theorem filterMap_nodes_convert {e : Expression} (h : e.IsAtom) :
    (e.convert types).comparisonNodes.filterMap (conversion? types) =
      e.nodesInArguments.filterMap (conversion? types) := by
  cases e with
  | and | or | not => exact h.elim
  | function | field | value => simp [convert, conversion?, comparisonNodes, nodesInArguments]
  | compare op f literal =>
    have hkept : (convert types (.compare op f literal)).conversion? types = none :=
      conversion?_convert _
    unfold convert at hkept ⊢
    cases hrewrite : (Expression.compare op f literal).conversion? types with
    | none => simp [comparisonNodes, nodesInArguments, hrewrite]
    | some r =>
      rw [hrewrite] at hkept
      simpa [Rewrite.result, comparisonNodes, nodesInArguments] using hkept

theorem filterMap_nodes_rewritten (e : Expression) :
    (e.rewritten types).expression.comparisonNodes.filterMap (conversion? types) =
      e.argumentNodes.filterMap (conversion? types) := by
  rw [comparisonNodes_rewritten, argumentNodes, List.filterMap_flatMap, List.filterMap_flatMap]
  exact List.flatMap_congr fun a ha => filterMap_nodes_convert (isAtom_of_mem_atoms ha)

/-- Normalization keeps the number of comparisons. The ones of a normalized tree that could still be
rewritten are those among the arguments of functions, all of them and in their order; so none is
left exactly when no argument of a function holds one. -/
theorem convertible_nodes_normalize (types : FieldTypes) (e : Expression) (log : Log)
    (metrics : Option Metrics) :
    let n := (e.normalize types log metrics).1.expression
    n.comparisons = e.comparisons ∧
      n.comparisonNodes.filterMap (conversion? types) =
        e.argumentNodes.filterMap (conversion? types) ∧
      ((∀ a ∈ n.comparisonNodes, ¬ a.IsConvertible types) ↔
        ∀ a ∈ e.argumentNodes, ¬ a.IsConvertible types) := by
  intro n
  have hleft : n.comparisonNodes.filterMap (conversion? types) =
      e.argumentNodes.filterMap (conversion? types) := filterMap_nodes_rewritten e
  have hnone (nodes : List Expression) : (∀ a ∈ nodes, ¬ a.IsConvertible types) ↔
      nodes.filterMap (conversion? types) = [] := by
    simp only [List.filterMap_eq_nil_iff, isConvertible_iff, Option.not_isSome_iff_eq_none]
  refine ⟨?_, hleft, ?_⟩
  · change (e.rewritten types).expression.comparisons = e.comparisons
    rw [← length_comparisonNodes, ← length_comparisonNodes, comparisonNodes_rewritten,
      comparisonNodes_eq_atoms e, List.length_flatMap, List.length_flatMap]
    simp only [length_comparisonNodes_convert]
  · rw [hnone, hnone, hleft]

theorem convertible_argument_stays :
    let argument : Expression := .compare .equal "AGE" (.string "42")
    let n := ((Expression.function "f" "g" [argument]).normalize ∅ {} none).1.expression
    argument ∈ n.comparisonNodes ∧ argument.IsConvertible ∅ := by
  intro argument n
  have hkept : n = .function "f" "g" [argument] := rfl
  refine ⟨?_, .equal, "AGE", "42", rfl, .inl rfl, rfl⟩
  rw [hkept]
  simp [comparisonNodes, argument]

end ShardQuery.Expression
