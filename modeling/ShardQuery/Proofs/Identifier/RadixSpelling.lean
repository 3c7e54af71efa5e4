import ShardQuery.Proofs.Identifier.IdentifierText

/-!
# Spellings in radix 36

A run of lower-case digits with or without a minus sign spells an integer. It is read unless it has
one of a few faults: zeros in front, a minus sign before zero, or an integer of more than 64 bits.
So each integer of 64 bits is read from one text alone, the one that it is written as, and that
text is short enough for hashes and times of day to be told from snowflakes.
-/

namespace ShardQuery

namespace Text

theorem renderNat_ne_nil (base n : Nat) : renderNat base n ≠ [] := by
  intro h
  exact digits_ne_nil base n (List.map_eq_nil_iff.1 h)

theorem isUpper_digitChar {d : Nat} (h : d < 36) : (digitChar d).isUpper = false := by
  revert d
  decide

theorem eq_zero_of_renderNat_eq_cons {base n : Nat} (hb : 2 ≤ base) (hb' : base ≤ 36)
    {cs : List Char} (h : renderNat base n = '0' :: cs) : n = 0 ∧ cs = [] := by
  have hzero : '0' = digitChar 0 := rfl
  cases hdigits : digits base n with
  | nil => exact absurd hdigits (digits_ne_nil base n)
  | cons d ds =>
    have hd : d < base := digits_lt hb n d (by simp [hdigits])
    rw [renderNat, hdigits, List.map_cons, List.cons.injEq, hzero] at h
    have hd0 : d = 0 := digitChar_injective (by omega) (by omega) h.1
    subst hd0
    cases ds with
    | nil =>
      have hvalue := ofDigits_digits base n
      rw [hdigits] at hvalue
      constructor
      · simpa [ofDigits] using hvalue.symm
      · exact h.2.symm
    | cons e es => exact absurd hdigits (digits_ne_zero_cons base n e es)

theorem eq_renderNat_of_readNat? {base n : Nat} (hb : 2 ≤ base) (hb' : base ≤ 36) {cs : List Char}
    (h : readNat? base cs = some n) (hzero : ∀ c rest, cs ≠ '0' :: c :: rest) :
    cs = renderNat base n := by
  have hpadded := eq_padded_of_readNat? hb hb' h
  unfold padded at hpadded
  cases hcount : cs.length - (renderNat base n).length with
  | zero => simpa [hcount] using hpadded
  | succ count =>
    cases hrest : List.replicate count '0' ++ renderNat base n with
    | nil => exact absurd (List.append_eq_nil_iff.1 hrest).2 (renderNat_ne_nil base n)
    | cons c rest =>
      apply absurd _ (hzero c rest)
      simpa [hcount, List.replicate_succ, hrest] using hpadded

end Text

namespace Radix

inductive Irregular : List Char → Prop
  | empty : Irregular []
  | upperCase {cs : List Char} {c : Char} (hmem : c ∈ cs) (hupper : c.isUpper = true) : Irregular cs
  | plus {cs : List Char} (hmem : '+' ∈ cs) : Irregular cs
  | zerosInFront (c : Char) (cs : List Char) : Irregular ('0' :: c :: cs)
  | minusZero (cs : List Char) : Irregular ('-' :: '0' :: cs)
  | tooWide {cs : List Char} {value : Int} (hspells : loose? cs = some value)
      (hwide : inRange value = false) : Irregular cs

theorem isUpper_of_mem_chars {value : Int} {c : Char} (h : c ∈ chars value) :
    c.isUpper = false := by
  rcases mem_chars h with rfl | ⟨d, hd, rfl⟩
  · rfl
  · exact Text.isUpper_digitChar hd

theorem not_irregular_chars {value : Int} (h : inRange value = true) :
    ¬ Irregular (chars value) := by
  intro hirregular
  generalize hcs : chars value = cs at hirregular
  cases hirregular with
  | empty =>
    cases value with
    | ofNat n => exact Text.renderNat_ne_nil base n hcs
    | negSucc n => cases hcs
  | upperCase hmem hupper =>
    subst hcs
    rw [isUpper_of_mem_chars hmem] at hupper
    cases hupper
  | plus hmem =>
    subst hcs
    exact plus_notMem_chars value hmem
  | zerosInFront c cs =>
    cases value with
    | ofNat n =>
      have hrest := Text.eq_zero_of_renderNat_eq_cons (by decide) (by decide) hcs
      cases hrest.2
    | negSucc n => cases hcs
  | minusZero cs =>
    cases value with
    | ofNat n =>
      have hdash : '-' ∈ Text.renderNat base n := by
        rw [show Text.renderNat base n = '-' :: '0' :: cs from hcs]
        exact List.mem_cons_self
      exact dash_notMem_renderNat n hdash
    | negSucc n =>
      have hdigits : Text.renderNat base (n + 1) = '0' :: cs := (List.cons.inj hcs).2
      have hzero := Text.eq_zero_of_renderNat_eq_cons (by decide) (by decide) hdigits
      cases hzero.1
  | tooWide hspells hwide =>
    rw [← hcs, loose?_chars] at hspells
    cases hspells
    rw [h] at hwide
    cases hwide

theorem exists_of_loose? {cs : List Char} {value : Int} (h : loose? cs = some value) :
    (∃ ds n, cs = '-' :: ds ∧ Text.readNat? base ds = some n ∧ value = -(n : Int)) ∨
      ∃ n, Text.readNat? base cs = some n ∧ value = (n : Int) := by
  unfold loose? at h
  split at h
  · next ds =>
    cases hread : Text.readNat? base ds with
    | none => simp [hread] at h
    | some n => exact Or.inl ⟨ds, n, rfl, hread, by simpa [hread] using h.symm⟩
  · cases hread : Text.readNat? base cs with
    | none => simp [hread] at h
    | some n => exact Or.inr ⟨n, rfl, by simpa [hread] using h.symm⟩

/-- A text without a fault that spells an integer is the text that the integer is written as. -/
theorem eq_chars_of_loose? {cs : List Char} {value : Int} (hspells : loose? cs = some value)
    (h : ¬ Irregular cs) : cs = chars value := by
  rcases exists_of_loose? hspells with ⟨ds, n, rfl, hread, rfl⟩ | ⟨n, hread, rfl⟩
  · have hds : ds = Text.renderNat base n := by
      apply Text.eq_renderNat_of_readNat? (by decide) (by decide) hread
      intro c rest hzero
      subst hzero
      exact h (.minusZero (c :: rest))
    subst hds
    cases n with
    | zero =>
      have hzero : Text.renderNat base 0 = ['0'] := by
        rw [Text.renderNat, Text.digits, if_pos (by decide)]
        rfl
      rw [hzero] at h
      exact absurd (.minusZero []) h
    | succ n => rfl
  · apply Text.eq_renderNat_of_readNat? (by decide) (by decide) hread
    intro c rest hzero
    subst hzero
    exact h (.zerosInFront c rest)

/-- A text is refused when it spells no integer or has a fault, and only then. -/
theorem read?_eq_none_iff {cs : List Char} :
    read? cs = none ↔ loose? cs = none ∨ Irregular cs := by
  constructor
  · intro hnone
    by_cases hirregular : Irregular cs
    · exact Or.inr hirregular
    · cases hspells : loose? cs with
      | none => exact Or.inl rfl
      | some value =>
        have hcs := eq_chars_of_loose? hspells hirregular
        cases hrange : inRange value with
        | false => exact absurd (.tooWide hspells hrange) hirregular
        | true =>
          rw [read?_eq_some_iff.2 ⟨hrange, hcs⟩] at hnone
          cases hnone
  · intro h
    cases hread : read? cs with
    | none => rfl
    | some value =>
      obtain ⟨hrange, hcs⟩ := read?_eq_some_iff.1 hread
      subst hcs
      cases h with
      | inl hnone =>
        rw [loose?_chars] at hnone
        cases hnone
      | inr hirregular => exact absurd hirregular (not_irregular_chars hrange)

/-- The greatest integer of 64 bits, and each of the faults. -/
example : ["1y2p0ij32e8e7", "", "1Z", "+1", "01", "-0", "1y2p0ij32e8e8"].map parse? =
    some (2 ^ 63 - 1) :: List.replicate 6 none := by
  decide +kernel

theorem inRange_iff {value : Int} : inRange value = true ↔ ∃ word : Int64, word.toInt = value := by
  simp only [inRange, Bool.and_eq_true, decide_eq_true_eq]
  constructor
  · intro h
    exact ⟨Int64.ofInt value, Int64.toInt_ofInt_of_le h.1 h.2⟩
  · intro h
    obtain ⟨word, rfl⟩ := h
    exact ⟨word.le_toInt, word.toInt_lt⟩

theorem parse?_eq_some_iff {s : String} {value : Int} :
    parse? s = some value ↔ inRange value = true ∧ s = render value := by
  rw [parse?, read?_eq_some_iff, render, ← String.toList_inj, String.toList_ofList]

theorem length_render (value : Int) : (render value).length = (chars value).length := by
  rw [render, String.length_ofList]

theorem length_render_timeOfDay_le {ms : Nat} (h : ms < millisPerDay) :
    (render ms).length ≤ 6 := by
  rw [length_render]
  exact length_renderNat_le (by decide) (Nat.lt_trans h (by decide))

/-- Every integer of 64 bits is read from the text that it is written as, and from no other text.
A text is refused exactly when it spells no integer or has a fault. A hash takes at most seven
characters and the millisecond of a day at most six, so no segment of a hash base is longer than
eight bytes, and no such base is taken for a snowflake. -/
theorem parse?_render_unique :
    (∀ word : Int64, parse? (render word.toInt) = some word.toInt) ∧
    (∀ s value, parse? s = some value →
      s = render value ∧ ∃ word : Int64, word.toInt = value) ∧
    (∀ s, parse? s = none ↔ loose? s.toList = none ∨ Irregular s.toList) ∧
    (∀ hash : Int32, (render hash.toInt).length ≤ 7) ∧
    (∀ ms : Nat, ms < millisPerDay → (render ms).length ≤ 6) ∧
    ∀ b : HashBase, b.WithinDay →
      (∀ part ∈ b.segments, Text.byteLength part ≤ 8) ∧
        ∀ rest, Identifier.isSnowflakeShape (b.segments ++ rest) = false := by
  refine ⟨?_, ?_, fun s => read?_eq_none_iff, ?_, fun ms => length_render_timeOfDay_le, ?_⟩
  · intro word
    exact parse?_eq_some_iff.2 ⟨inRange_iff.2 ⟨word, rfl⟩, rfl⟩
  · intro s value h
    obtain ⟨hrange, hs⟩ := parse?_eq_some_iff.1 h
    exact ⟨hs, inRange_iff.1 hrange⟩
  · intro hash
    rw [length_render]
    exact HashBase.length_hash_le hash
  · intro b hb
    constructor
    · intro part hpart
      obtain ⟨hlen, hsize⟩ := HashBase.length_le_of_mem_segments hb hpart
      rw [Text.byteLength_eq_length hsize]
      exact hlen
    · exact Identifier.isSnowflakeShape_hash hb

end Radix
end ShardQuery
