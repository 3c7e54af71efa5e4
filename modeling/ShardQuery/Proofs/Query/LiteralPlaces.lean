import ShardQuery.Proofs.Query.Atoms
import ShardQuery.Query.Render

/-!
# Places of literals

An expression holds literals in its comparisons and as values. Each of them is reached on a way down
through the tree, past the siblings on both sides. The text of the expression is the text of the
literal between two texts that depend on the way alone.
-/

namespace ShardQuery.Expression

/-- The literals of a tree at any depth, from left to right. -/
def literals : Expression → List Literal
  | .and children | .or children => children.flatMap literals
  | .not child => child.literals
  | .compare _ _ literal | .value literal => [literal]
  | .function _ _ args => args.flatMap literals
  | .field _ => []

/-- A way down to a literal, with the siblings before and after each step. -/
inductive Place where
  | compare (op : CompareOp) (field : String)
  | value
  | not (inner : Place)
  | and (before : List Expression) (inner : Place) (after : List Expression)
  | or (before : List Expression) (inner : Place) (after : List Expression)
  | function (scope name : String) (before : List Expression) (inner : Place)
      (after : List Expression)

namespace Place

def fill : Place → Literal → Expression
  | compare op f, literal => .compare op f literal
  | value, literal => .value literal
  | not inner, literal => .not (inner.fill literal)
  | and before inner after, literal => .and (before ++ inner.fill literal :: after)
  | or before inner after, literal => .or (before ++ inner.fill literal :: after)
  | function scope name before inner after, literal =>
    .function scope name (before ++ inner.fill literal :: after)

def leading (sep : String) (es : List Expression) : List Char :=
  ((renderAll es).map String.toList).flatMap (· ++ sep.toList)

def trailing (sep : String) (es : List Expression) : List Char :=
  ((renderAll es).map String.toList).flatMap (sep.toList ++ ·)

def left : Place → List Char
  | compare op f => f.toList ++ ' ' :: (op.symbol.toList ++ [' '])
  | value => []
  | not inner => '!' :: inner.left
  | and before inner _ => '(' :: (leading " && " before ++ inner.left)
  | or before inner _ => '(' :: (leading " || " before ++ inner.left)
  | function scope name before inner _ =>
    scope.toList ++ ':' :: (name.toList ++ '(' :: (leading ", " before ++ inner.left))

/-- What stands to the right of the literal. -/
def right : Place → List Char
  | compare .. | value => []
  | not inner => inner.right
  | and _ inner after => inner.right ++ trailing " && " after ++ [')']
  | or _ inner after => inner.right ++ trailing " || " after ++ [')']
  | function _ _ _ inner after => inner.right ++ trailing ", " after ++ [')']

theorem renderAll_append_cons (before : List Expression) (e : Expression) (after : List Expression) :
    renderAll (before ++ e :: after) = renderAll before ++ e.render :: renderAll after := by
  induction before with
  | nil => rfl
  | cons first before ih => rw [List.cons_append, renderAll, ih, renderAll, List.cons_append]

theorem toList_joined_siblings (sep : String) (before : List Expression) (e : Expression)
    (after : List Expression) :
    (Text.joined sep (renderAll (before ++ e :: after))).toList =
      leading sep before ++ e.render.toList ++ trailing sep after := by
  rw [Text.joined, String.toList_ofList, renderAll_append_cons, List.map_append, List.map_cons,
    Text.join_append_cons, leading, trailing]

/-- The text of a tree is that of the literal between what stands to its left and to its right. -/
theorem toList_render_fill (p : Place) (literal : Literal) :
    (p.fill literal).render.toList = p.left ++ literal.render.toList ++ p.right := by
  induction p with
  | compare op f => simp [fill, render, left, right]
  | value => simp [fill, render, left, right]
  | not inner ih => simp [fill, render, left, right, ih]
  | and before inner after ih | or before inner after ih | function scope name before inner after ih =>
    simp [fill, render, left, right, toList_joined_siblings, ih]

end Place

private theorem exists_fill_among {es : List Expression} {literal : Literal}
    (h : literal ∈ es.flatMap literals)
    (ih : ∀ e ∈ es, literal ∈ e.literals → ∃ p : Place, p.fill literal = e) :
    ∃ before, ∃ p : Place, ∃ after, before ++ p.fill literal :: after = es := by
  obtain ⟨e, he, hl⟩ := List.mem_flatMap.1 h
  obtain ⟨before, after, rfl⟩ := List.append_of_mem he
  obtain ⟨p, rfl⟩ := ih e he hl
  exact ⟨before, p, after, rfl⟩

theorem exists_fill_eq {e : Expression} {literal : Literal} (h : literal ∈ e.literals) :
    ∃ p : Place, p.fill literal = e := by
  induction e using tree_induct with
  | compare op f l =>
    rw [literals, List.mem_singleton] at h
    exact ⟨.compare op f, by rw [h, Place.fill]⟩
  | value l =>
    rw [literals, List.mem_singleton] at h
    exact ⟨.value, by rw [h, Place.fill]⟩
  | field name =>
    rw [literals] at h
    exact absurd h List.not_mem_nil
  | not child ih =>
    rw [literals] at h
    obtain ⟨p, rfl⟩ := ih h
    exact ⟨.not p, rfl⟩
  | and children ih =>
    rw [literals] at h
    obtain ⟨before, p, after, rfl⟩ := exists_fill_among h ih
    exact ⟨.and before p after, rfl⟩
  | or children ih =>
    rw [literals] at h
    obtain ⟨before, p, after, rfl⟩ := exists_fill_among h ih
    exact ⟨.or before p after, rfl⟩
  | function scope name args ih =>
    rw [literals] at h
    obtain ⟨before, p, after, rfl⟩ := exists_fill_among h ih
    exact ⟨.function scope name before p after, rfl⟩

end ShardQuery.Expression
