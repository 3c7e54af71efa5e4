/-! # Entries

A key of row, column and visibility, and the value stored under it. Keys are ordered in that order. -/

namespace ShardQuery

structure Key where
  row : String
  column : String
  visibility : String := ""
deriving DecidableEq, Repr, Inhabited

namespace Key

abbrev order : Key → Key → Ordering :=
  compareLex (compareOn row) <| compareLex (compareOn column) (compareOn visibility)

instance : Ord Key := ⟨order⟩

instance : Std.TransOrd Key := inferInstanceAs (Std.TransCmp order)

theorem eq_of_order {a b : Key} (h : order a b = .eq) : a = b := by
  simp only [order, compareLex, compareOn, Ordering.then_eq_eq, Std.LawfulEqOrd.compare_eq_iff_eq] at h
  obtain ⟨h1, h2, h3⟩ := h
  cases a; cases b; simp_all

instance : Std.LawfulEqOrd Key where
  eq_of_compare := eq_of_order
  compare_self {a} := (Std.ReflCmp.compare_self : order a a = .eq)

end Key

structure Entry where
  key : Key
  value : String
deriving DecidableEq, Repr, Inhabited

end ShardQuery
