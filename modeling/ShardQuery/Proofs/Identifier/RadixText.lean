import ShardQuery.Identifier.Radix
import ShardQuery.Proofs.Text.FixedWidth

/-!
# Canonical text in radix 36

Reading accepts the text that an integer of 64 bits is written as and no other. The text consists
of digits after at most one minus sign, and its length is bounded by the size of the integer.
-/

namespace ShardQuery.Radix

theorem mem_chars {value : Int} {c : Char} (h : c ∈ chars value) :
    c = '-' ∨ ∃ d < base, c = Text.digitChar d := by
  cases value with
  | ofNat n => exact Or.inr (Text.exists_digit_of_mem_renderNat (by decide) h)
  | negSucc n =>
    rcases List.mem_cons.1 h with h | h
    · exact Or.inl h
    · exact Or.inr (Text.exists_digit_of_mem_renderNat (by decide) h)

theorem plus_notMem_chars (value : Int) : '+' ∉ chars value := by
  intro h
  rcases mem_chars h with h | ⟨d, hd, h⟩
  · cases h
  · exact Text.digitChar_notMem hd (by simp [← h])

theorem dot_notMem_chars (value : Int) : '.' ∉ chars value := by
  intro h
  rcases mem_chars h with h | ⟨d, hd, h⟩
  · cases h
  · exact Text.digitChar_notMem hd (by simp [← h])

theorem utf8Size_of_mem_chars {value : Int} {c : Char} (h : c ∈ chars value) : c.utf8Size = 1 := by
  rcases mem_chars h with rfl | ⟨d, hd, rfl⟩
  · rfl
  · exact Text.utf8Size_digitChar hd

theorem dash_notMem_renderNat (n : Nat) : '-' ∉ Text.renderNat base n := by
  intro h
  obtain ⟨d, hd, h⟩ := Text.exists_digit_of_mem_renderNat (by decide) h
  exact Text.digitChar_notMem hd (by simp [← h])

private theorem exists_renderNat_eq_cons (n : Nat) :
    ∃ d ds, Text.renderNat base n = d :: ds ∧ '-' ≠ d := by
  have hdash := dash_notMem_renderNat n
  cases h : Text.renderNat base n with
  | nil => exact absurd (List.map_eq_nil_iff.1 h) (Text.digits_ne_nil base n)
  | cons d ds =>
    rw [h, List.mem_cons, not_or] at hdash
    exact ⟨d, ds, rfl, hdash.1⟩

theorem chars_eq_cons_of_nonneg {value : Int} (h : 0 ≤ value) :
    ∃ d ds, chars value = d :: ds ∧ '-' ≠ d := by
  obtain ⟨n, rfl⟩ := Int.eq_ofNat_of_zero_le h
  exact exists_renderNat_eq_cons n

theorem chars_eq_cons_of_neg {value : Int} (h : value < 0) :
    ∃ d ds, chars value = '-' :: d :: ds ∧ '-' ≠ d := by
  obtain ⟨n, rfl⟩ := Int.eq_negSucc_of_lt_zero h
  obtain ⟨d, ds, hdigits, hd⟩ := exists_renderNat_eq_cons (n + 1)
  exact ⟨d, ds, congrArg (List.cons _) hdigits, hd⟩

theorem loose?_chars (value : Int) : loose? (chars value) = some value := by
  cases value with
  | ofNat n =>
    rw [chars, loose?]
    · rw [Text.readNat?_renderNat (by decide) (by decide)]
      rfl
    · -- no numeral starts with a minus sign
      intro ds hds
      exact dash_notMem_renderNat n (hds ▸ List.mem_cons_self)
  | negSucc n =>
    rw [chars, loose?, Text.readNat?_renderNat (by decide) (by decide)]
    rfl

theorem chars_injective {v w : Int} (h : chars v = chars w) : v = w := by
  have hread := loose?_chars v
  rw [h, loose?_chars] at hread
  exact (Option.some.inj hread).symm

theorem read?_eq_some_iff {cs : List Char} {value : Int} :
    read? cs = some value ↔ inRange value = true ∧ cs = chars value := by
  rw [read?, Option.filter_eq_some_iff]
  constructor
  · rintro ⟨-, h⟩
    obtain ⟨hrange, hcs⟩ := Bool.and_eq_true_iff.1 h
    exact ⟨hrange, (of_decide_eq_true hcs).symm⟩
  · rintro ⟨hrange, rfl⟩
    exact ⟨loose?_chars value, by simp [hrange]⟩

theorem length_renderNat_le {n width : Nat} (hw : 0 < width) (hn : n < base ^ width) :
    (Text.renderNat base n).length ≤ width := by
  rw [Text.length_renderNat]
  exact Text.length_digits_le hw hn

theorem length_chars_le {value : Int} {width : Nat} (hw : 0 < width)
    (h : value.natAbs < base ^ width) : (chars value).length ≤ width + 1 := by
  cases value with
  | ofNat n => exact Nat.le_succ_of_le (length_renderNat_le hw h)
  | negSucc n => exact Nat.succ_le_succ (length_renderNat_le hw h)

end ShardQuery.Radix
