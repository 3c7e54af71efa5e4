import Mathlib.Data.List.Basic
import ShardQuery.Query.Expression

/-!
# Atoms of an expression

And, or and not join atoms, which are comparisons, function calls, fields and values. The atoms of
a tree stand from left to right, a function call being one of them whatever its arguments are. A
tree is mapped atom by atom with all that joins them kept, and it stays the same exactly when each
of its atoms does.
-/

namespace ShardQuery.Expression

/-- True of an expression that is no and, or or not. -/
def IsAtom : Expression → Prop
  | .and _ | .or _ | .not _ => False
  | .compare .. | .function .. | .field _ | .value _ => True

/-- The atoms reached through and, or and not, from left to right. -/
def atoms : Expression → List Expression
  | .and children | .or children => children.flatMap atoms
  | .not child => child.atoms
  | e => [e]

/-- The tree with something in place of each of its atoms. -/
def mapAtoms (g : Expression → Expression) : Expression → Expression
  | .and children => .and (children.map (mapAtoms g))
  | .or children => .or (children.map (mapAtoms g))
  | .not child => .not (child.mapAtoms g)
  | e => g e

@[elab_as_elim]
theorem tree_induct {motive : Expression → Prop}
    (and : ∀ children, (∀ e ∈ children, motive e) → motive (.and children))
    (or : ∀ children, (∀ e ∈ children, motive e) → motive (.or children))
    (not : ∀ child, motive child → motive (.not child))
    (compare : ∀ op f literal, motive (.compare op f literal))
    (function : ∀ scope name args, (∀ e ∈ args, motive e) → motive (.function scope name args))
    (field : ∀ name, motive (.field name)) (value : ∀ literal, motive (.value literal))
    (e : Expression) : motive e := by
  refine @Expression.rec motive (fun es => ∀ e ∈ es, motive e) and or not compare function field
    value ?nil ?cons e
  case nil => simp
  case cons =>
    intro child children hchild hchildren e he
    rcases List.mem_cons.1 he with rfl | he
    · exact hchild
    · exact hchildren e he

/-- What holds of atoms and passes from the children to what joins them holds of every tree. -/
@[elab_as_elim]
theorem atoms_induct {motive : Expression → Prop}
    (and : ∀ children, (∀ e ∈ children, motive e) → motive (.and children))
    (or : ∀ children, (∀ e ∈ children, motive e) → motive (.or children))
    (not : ∀ child, motive child → motive (.not child))
    (atom : ∀ e : Expression, e.IsAtom → motive e) (e : Expression) : motive e := by
  induction e using tree_induct with
  | and children ih => exact and children ih
  | or children ih => exact or children ih
  | not child ih => exact not child ih
  | compare | function | field | value => exact atom _ trivial

theorem atoms_of_isAtom {e : Expression} (h : e.IsAtom) : e.atoms = [e] := by
  cases e <;> simp_all [IsAtom, atoms]

theorem mapAtoms_of_isAtom {g : Expression → Expression} {e : Expression} (h : e.IsAtom) :
    e.mapAtoms g = g e := by
  cases e <;> simp_all [IsAtom, mapAtoms]

theorem isAtom_of_mem_atoms {e a : Expression} (h : a ∈ e.atoms) : a.IsAtom := by
  induction e using atoms_induct with
  | and children ih | or children ih =>
    rw [atoms] at h
    obtain ⟨child, hchild, ha⟩ := List.mem_flatMap.1 h
    exact ih child hchild ha
  | not child ih =>
    rw [atoms] at h
    exact ih h
  | atom e he =>
    rw [atoms_of_isAtom he] at h
    exact List.mem_singleton.1 h ▸ he

theorem mapAtoms_eq_self_iff {g : Expression → Expression} {e : Expression} :
    e.mapAtoms g = e ↔ ∀ a ∈ e.atoms, g a = a := by
  induction e using atoms_induct with
  | and children ih | or children ih =>
    have hchildren : children.map (mapAtoms g) = children ↔
        ∀ child ∈ children, ∀ a ∈ child.atoms, g a = a := by
      rw [← forall₂_congr ih]
      simpa using (List.map_inj_left : children.map (mapAtoms g) = children.map id ↔ _)
    simp only [mapAtoms, atoms, and.injEq, or.injEq, hchildren, List.mem_flatMap]
    exact ⟨fun h a ⟨child, hchild, ha⟩ => h child hchild a ha,
      fun h child hchild a ha => h a ⟨child, hchild, ha⟩⟩
  | not child ih => simp only [mapAtoms, atoms, not.injEq, ih]
  | atom e he => simp [mapAtoms_of_isAtom he, atoms_of_isAtom he]

theorem atoms_mapAtoms {g : Expression → Expression} {e : Expression}
    (h : ∀ a ∈ e.atoms, (g a).IsAtom) : (e.mapAtoms g).atoms = e.atoms.map g := by
  induction e using atoms_induct with
  | and children ih | or children ih =>
    rw [atoms] at h
    simp only [mapAtoms, atoms, List.flatMap_map, List.map_flatMap]
    refine List.flatMap_congr fun child hchild => ih child hchild fun a ha => ?_
    exact h a (List.mem_flatMap.2 ⟨child, hchild, ha⟩)
  | not child ih =>
    rw [atoms] at h
    rw [mapAtoms, atoms, atoms, ih h]
  | atom e he =>
    have hself : (g e).IsAtom := h e (by simp [atoms_of_isAtom he])
    rw [mapAtoms_of_isAtom he, atoms_of_isAtom hself, atoms_of_isAtom he, List.map_singleton]

end ShardQuery.Expression
