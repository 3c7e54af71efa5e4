import Mathlib.Data.List.Dedup
import Mathlib.Data.List.Perm.Basic
import ShardQuery.Proofs.Identifier.IdentifierText

/-!
# The order of identifiers

Identifiers, absent ones included, are totally ordered, and only identifiers of one text compare
as equal. Sorting what a list of texts reads as therefore does not depend on the order of the
texts, and as many different identifiers are read as there are different texts.
-/

namespace ShardQuery

namespace HashBase

instance : Std.TransOrd HashBase := inferInstanceAs (Std.TransCmp order)

theorem eq_of_order {a b : HashBase} (h : order a b = .eq) : a = b := by
  simp only [order, compareLex, compareOn, Ordering.then_eq_eq,
    Std.LawfulEqOrd.compare_eq_iff_eq, Int32.toInt_inj] at h
  cases a
  cases b
  simp_all

instance : Std.LawfulEqOrd HashBase where
  eq_of_compare := eq_of_order
  compare_self {a} := (Std.ReflCmp.compare_self : order a a = .eq)

end HashBase

namespace Snowflake

instance : Std.TransOrd Snowflake := inferInstanceAs (Std.TransCmp order)

theorem eq_of_order {a b : Snowflake} (h : order a b = .eq) : a = b := by
  simp only [order, compareLex, compareOn, Ordering.then_eq_eq,
    Std.LawfulEqOrd.compare_eq_iff_eq] at h
  cases a
  cases b
  simp_all

instance : Std.LawfulEqOrd Snowflake where
  eq_of_compare := eq_of_order
  compare_self {a} := (Std.ReflCmp.compare_self : order a a = .eq)

end Snowflake

namespace IdentifierBase

theorem compare_hash (a b : HashBase) : compare (hash a) (hash b) = compare a b := rfl

theorem compare_snowflake (a b : Snowflake) : compare (snowflake a) (snowflake b) = compare a b := rfl

theorem compare_hash_snowflake (a : HashBase) (b : Snowflake) :
    compare (hash a) (snowflake b) = .lt := rfl

theorem compare_snowflake_hash (a : Snowflake) (b : HashBase) :
    compare (snowflake a) (hash b) = .gt := rfl

instance : Std.TransOrd IdentifierBase where
  eq_swap {a b} := by
    cases a <;> cases b <;>
      simp only [compare_hash, compare_snowflake, compare_hash_snowflake, compare_snowflake_hash,
        Ordering.swap_lt, Ordering.swap_gt]
    case hash.hash => exact Std.OrientedOrd.eq_swap
    case snowflake.snowflake => exact Std.OrientedOrd.eq_swap
  isLE_trans {a b c} hab hbc := by
    cases a <;> cases b <;> cases c <;>
      simp only [compare_hash, compare_snowflake, compare_hash_snowflake,
        compare_snowflake_hash] at hab hbc ⊢
    case hash.hash.hash => exact Std.TransOrd.isLE_trans hab hbc
    case snowflake.snowflake.snowflake => exact Std.TransOrd.isLE_trans hab hbc
    all_goals simp_all

instance : Std.LawfulEqOrd IdentifierBase where
  compare_self {a} := by
    cases a
    case hash => rw [compare_hash, Std.ReflOrd.compare_self]
    case snowflake => rw [compare_snowflake, Std.ReflOrd.compare_self]
  eq_of_compare {a b} h := by
    cases a <;> cases b
    case hash.hash => exact congrArg hash (Std.LawfulEqOrd.eq_of_compare h)
    case snowflake.snowflake => exact congrArg snowflake (Std.LawfulEqOrd.eq_of_compare h)
    all_goals cases h

end IdentifierBase

namespace Identifier

theorem order_eq_compareLex : order = compareLex (compareOn base) (compareOn extra) := rfl

instance : Std.TransCmp order :=
  inferInstanceAs (Std.TransCmp (compareLex (compareOn base) (compareOn extra)))

theorem eq_of_order {a b : Identifier} (h : order a b = .eq) : a = b := by
  simp only [order_eq_compareLex, compareLex, compareOn, Ordering.then_eq_eq,
    Std.LawfulEqOrd.compare_eq_iff_eq] at h
  cases a
  cases b
  simp_all

instance : Std.LawfulEqCmp order where
  eq_of_compare := eq_of_order

instance : Ord Identifier := ⟨order⟩

instance : Std.TransOrd Identifier := inferInstanceAs (Std.TransCmp order)

instance : Std.LawfulEqOrd Identifier := inferInstanceAs (Std.LawfulEqCmp order)

theorem orderOptional_eq (a b : Option Identifier) : orderOptional a b = compare a b := by
  cases a <;> cases b <;> rfl

theorem orderOptional_eq_eq_iff {a b : Option Identifier} :
    orderOptional a b = .eq ↔ a.map text = b.map text := by
  rw [orderOptional_eq, Std.LawfulEqOrd.compare_eq_iff_eq]
  exact (Option.map_injective text_injective).eq_iff.symm

/-! ## Sorting -/

theorem pairwise_sort (us : List Identifier) :
    (sort us).Pairwise fun a b => (order a b).isLE := by
  apply List.pairwise_mergeSort
  · intro a b c
    exact Std.TransCmp.isLE_trans
  · intro a b
    have hswap : order b a = (order a b).swap := Std.OrientedCmp.eq_swap
    rw [hswap]
    cases order a b <;> rfl

/-- A list has one arrangement in order. -/
theorem eq_sort_of_perm {us vs : List Identifier} (hperm : vs.Perm us)
    (hvs : vs.Pairwise fun a b => (order a b).isLE) : vs = sort us := by
  apply List.Perm.eq_of_pairwise _ hvs (pairwise_sort us)
  · exact hperm.trans (List.mergeSort_perm us _).symm
  · intro a b _ _ hab hba
    exact eq_of_order (Std.OrientedCmp.isLE_antisymm hab hba)

theorem sort_eq_of_perm {us vs : List Identifier} (h : us.Perm vs) : sort us = sort vs :=
  eq_sort_of_perm ((List.mergeSort_perm us _).trans h) (pairwise_sort us)

theorem exists_readings {l : List String} (h : ∀ s ∈ l, ∃ u, parseAll s = .ok u) :
    ∃ us, l.mapM parseAll = .ok us ∧ us.map text = l := by
  induction l with
  | nil => exact ⟨[], rfl, rfl⟩
  | cons s l ih =>
    obtain ⟨u, hu⟩ := h s (by simp)
    obtain ⟨us, hus, hl⟩ := ih fun t ht => h t (by simp [ht])
    refine ⟨u :: us, ?_, ?_⟩
    · rw [List.mapM_cons, hu, hus]
      rfl
    · rw [List.map_cons, text_of_parse hu, hl]

/-- Identifiers that may be absent are totally ordered: an absent one comes first, a hash base comes
before a snowflake, and two compare as equal if and only if both are absent or their texts are the
same. Texts in any order read as identifiers that are the same list once sorted, and there are as
many different identifiers as different texts. -/
theorem orderOptional_total :
    (∀ a b, orderOptional b a = (orderOptional a b).swap) ∧
    (∀ a b, (orderOptional a b).isLE → (orderOptional b a).isLE → a = b) ∧
    (∀ a b c, (orderOptional a b).isLE → (orderOptional b c).isLE → (orderOptional a c).isLE) ∧
    (∀ a b, (orderOptional a b).isLE ∨ (orderOptional b a).isLE) ∧
    (∀ a b, orderOptional a b = .eq ↔ a.map text = b.map text) ∧
    (∀ u, orderOptional none (some u) = .lt) ∧
    (∀ b s e f, orderOptional (some ⟨.hash b, e⟩) (some ⟨.snowflake s, f⟩) = .lt) ∧
    ∀ l : List String, (∀ s ∈ l, ∃ u, parseAll s = .ok u) →
      ∃ us, l.mapM parseAll = .ok us ∧ us.dedup.length = l.dedup.length ∧
        (sort us).Perm us ∧ ((sort us).Pairwise fun a b => (order a b).isLE) ∧
        ∀ l' : List String, l'.Perm l → ∃ us', l'.mapM parseAll = .ok us' ∧ sort us' = sort us := by
  simp only [orderOptional_eq]
  refine ⟨?_, ?_, ?_, ?_, ?_, ?_, ?_, ?_⟩
  · intro a b
    exact Std.OrientedOrd.eq_swap
  · intro a b hab hba
    exact Std.LawfulEqOrd.eq_of_compare (Std.OrientedCmp.isLE_antisymm hab hba)
  · intro a b c
    exact Std.TransOrd.isLE_trans
  · intro a b
    rw [Std.OrientedOrd.eq_swap (a := b)]
    cases compare a b <;> simp
  · intro a b
    rw [← orderOptional_eq, orderOptional_eq_eq_iff]
  · intro u
    rfl
  · intro b s e f
    rfl
  · intro l hl
    obtain ⟨us, hus, htexts⟩ := exists_readings hl
    refine ⟨us, hus, ?_, List.mergeSort_perm us _, pairwise_sort us, ?_⟩
    · rw [← htexts, List.dedup_map_of_injective text_injective, List.length_map]
    · intro l' hperm
      obtain ⟨us', hus', htexts'⟩ := exists_readings fun s hs => hl s (hperm.mem_iff.1 hs)
      refine ⟨us', hus', sort_eq_of_perm ?_⟩
      rw [← htexts, ← htexts'] at hperm
      exact (List.map_perm_map_iff text_injective).1 hperm

end Identifier
end ShardQuery
