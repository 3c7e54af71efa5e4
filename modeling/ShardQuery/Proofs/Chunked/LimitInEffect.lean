import Mathlib.Data.Nat.Digits.Defs
import ShardQuery.Chunked.Start
import ShardQuery.Proofs.Text.DigitRun
import ShardQuery.Proofs.Text.Padding

/-!
# The cap in effect

The cap of a query is the configured one, lowered by a parameter that holds a number between
paddings. The base query has the parameter of the caller's query, and a parameter that holds no
number changes nothing but the log.
-/

namespace ShardQuery

namespace Text

theorem ofDigits_eq (base : Nat) (ds : List Nat) :
    ofDigits base ds = Nat.ofDigits base ds.reverse := by
  rw [Nat.ofDigits_eq_foldr, List.foldr_reverse, ofDigits]
  congr 1
  funext n d
  rw [Nat.cast_id, Nat.mul_comm, Nat.add_comm]

end Text

namespace Limit

variable {σ : Type}

/-- A number below `2 ^ 64` in decimal digits, a plus sign in front or not. -/
def Numeral (cs : List Char) (value : Nat) : Prop :=
  ∃ sign digits : List Char, cs = sign ++ digits ∧ (sign = [] ∨ sign = ['+']) ∧ digits ≠ [] ∧
    (∀ c ∈ digits, c.isDigit = true) ∧
    value = Nat.ofDigits 10 (digits.reverse.map fun c => c.toNat - '0'.toNat) ∧ value < 2 ^ 64

def Holds (text : String) (value : Nat) : Prop :=
  ∃ before numeral after, text.toList = before ++ numeral ++ after ∧ Text.IsPadding before ∧
    Text.IsPadding after ∧ Numeral numeral value

/-- The cap that applies to a query: the minimum of the configured one and the number in the
parameter, and the configured one when the parameter is absent or holds no number. -/
inductive Applies (configured : Option Nat) (q : QuerySettings) : Option Nat → Prop
  | lowered {text : String} {value : Nat}
      (hget : q.get? QuerySettings.limitParameter = some text) (hholds : Holds text value) :
      Applies configured q (some (configured.elim value (min value)))
  | kept (hnone : ∀ text, q.get? QuerySettings.limitParameter = some text →
      ∀ value, ¬ Holds text value) : Applies configured q configured

def inEffect (configured : Option Nat) (q : QuerySettings) : Option Nat :=
  match (q.get? QuerySettings.limitParameter).bind fun text => read? (Text.trimmed text) with
  | none => configured
  | some value =>
    match configured with
    | none => some value
    | some cap => some (min value cap)

private theorem readNat?_of_isDigit {digits : List Char} (hne : digits ≠ [])
    (hdigits : ∀ c ∈ digits, c.isDigit = true) :
    Text.readNat? 10 digits =
      some (Nat.ofDigits 10 (digits.reverse.map fun c => c.toNat - '0'.toNat)) := by
  obtain ⟨ds, rfl, hds⟩ := Text.exists_digits_of_isDigit hdigits
  have hvalues : (ds.map Text.digitChar).reverse.map (fun c => c.toNat - '0'.toNat) =
      ds.reverse := by
    rw [← List.map_reverse, List.map_map]
    apply (List.map_congr_left _).trans (List.map_id _)
    intro d hd
    exact Text.toNat_sub_digitChar (hds d (List.mem_reverse.1 hd))
  rw [hvalues, ← Text.ofDigits_eq]
  exact Text.readNat?_map_digitChar (by decide) (mt List.map_eq_nil_iff.2 hne) hds

private theorem isDigit_of_readNat? {digits : List Char} {value : Nat}
    (h : Text.readNat? 10 digits = some value) :
    digits ≠ [] ∧ ∀ c ∈ digits, c.isDigit = true := by
  obtain ⟨ds, rfl, hds, -⟩ := Text.exists_digits_of_readNat? h
  constructor
  · intro hnil
    rw [hnil] at h
    cases h
  · exact Text.forall_isDigit_map hds

theorem read?_eq_some_iff {s : String} {value : Nat} :
    read? s = some value ↔ Numeral s.toList value := by
  have hread (digits : List Char) :
      (Text.readNat? 10 digits).filter (· < 2 ^ 64) = some value ↔
        digits ≠ [] ∧ (∀ c ∈ digits, c.isDigit = true) ∧
          value = Nat.ofDigits 10 (digits.reverse.map fun c => c.toNat - '0'.toNat) ∧
          value < 2 ^ 64 := by
    rw [Option.filter_eq_some_iff, decide_eq_true_eq]
    constructor
    · intro h
      obtain ⟨hne, hdigits⟩ := isDigit_of_readNat? h.1
      rw [readNat?_of_isDigit hne hdigits] at h
      exact ⟨hne, hdigits, (Option.some.inj h.1).symm, h.2⟩
    · intro h
      obtain ⟨hne, hdigits, hvalue, hlt⟩ := h
      exact ⟨by rw [readNat?_of_isDigit hne hdigits, hvalue], hlt⟩
  unfold read?
  constructor
  · intro h
    split at h
    · next rest hs => exact ⟨['+'], rest, hs, Or.inr rfl, (hread rest).1 h⟩
    · exact ⟨[], s.toList, rfl, Or.inl rfl, (hread s.toList).1 h⟩
  · intro h
    obtain ⟨sign, digits, hs, hsign, hnumeral⟩ := h
    rw [hs]
    rcases hsign with rfl | rfl
    · -- the first digit is no plus sign
      split
      · next rest hplus =>
        rw [List.nil_append] at hplus
        have hdigit := hnumeral.2.1 '+' (by simp [hplus])
        exact absurd hdigit (by decide)
      · exact (hread digits).2 hnumeral
    · exact (hread digits).2 hnumeral

/-- A numeral is no padding and begins and ends with characters that are not blank. -/
theorem Numeral.isCore {cs : List Char} {value : Nat} (h : Numeral cs value) : Text.IsCore cs := by
  obtain ⟨sign, digits, rfl, hsign, -, hdigits, -⟩ := h
  apply Text.isCore_of_forall
  intro c hc
  rcases List.mem_append.1 hc with hc | hc
  · rcases hsign with rfl | rfl
    · cases hc
    · rw [List.mem_singleton.1 hc]
      rfl
  · obtain ⟨d, hd, rfl⟩ := Text.isDigit_iff.1 (hdigits c hc)
    exact Text.isBlank_digitChar hd

theorem holds_iff {text : String} {value : Nat} :
    Holds text value ↔ read? (Text.trimmed text) = some value := by
  rw [read?_eq_some_iff, Text.trimmed, String.toList_ofList]
  constructor
  · intro h
    obtain ⟨before, numeral, after, htext, hbefore, hafter, hnumeral⟩ := h
    rw [Text.trim_of_pads ⟨hnumeral.isCore, before, after, hbefore, hafter, htext⟩]
    exact hnumeral
  · intro h
    obtain ⟨-, before, after, hbefore, hafter, htext⟩ := Text.pads_trim text.toList
    exact ⟨before, _, after, htext, hbefore, hafter, h⟩

theorem applies_iff {configured : Option Nat} {q : QuerySettings} {cap : Option Nat} :
    Applies configured q cap ↔ cap = inEffect configured q := by
  unfold inEffect
  constructor
  · intro h
    cases h with
    | lowered hget hholds =>
      rw [hget, Option.bind_some, holds_iff.1 hholds]
      cases configured with
      | none => rfl
      | some cap => rfl
    | kept hnone =>
      cases hget : q.get? QuerySettings.limitParameter with
      | none => rfl
      | some text =>
        cases hread : read? (Text.trimmed text) with
        | none => rw [Option.bind_some, hread]
        | some value => exact absurd (holds_iff.2 hread) (hnone text hget value)
  · intro h
    subst h
    cases hget : q.get? QuerySettings.limitParameter with
    | none => exact .kept (by simp [hget])
    | some text =>
      cases hread : read? (Text.trimmed text) with
      | none =>
        rw [Option.bind_some, hread]
        apply Applies.kept
        intro text' hget' value hholds
        rw [hget] at hget'
        cases hget'
        rw [holds_iff, hread] at hholds
        cases hholds
      | some value =>
        have hlowered : Applies configured q _ := .lowered hget (holds_iff.2 hread)
        rw [Option.bind_some, hread]
        cases configured with
        | none => exact hlowered
        | some cap => exact hlowered

private theorem read?_of_isEmpty {s : String} (h : s.isEmpty = true) : read? s = none := by
  rw [String.isEmpty_iff.1 h]
  rfl

private theorem lower_some (cap value : Nat) : lower (some cap) value = min value cap := by
  rw [lower]
  split
  · next hlt => exact (Nat.min_eq_left (Nat.le_of_lt hlt)).symm
  · next hle => exact (Nat.min_eq_right (Nat.le_of_not_lt hle)).symm

theorem resolve_fst (configured : Option Nat) (q : QuerySettings) (w : World σ) :
    (resolve configured q w).1 = inEffect configured q := by
  unfold resolve override? inEffect
  cases q.get? QuerySettings.limitParameter with
  | none => rfl
  | some text =>
    by_cases hempty : (Text.trimmed text).isEmpty = true
    · simp [Option.filter, hempty, read?_of_isEmpty hempty]
    · cases hread : read? (Text.trimmed text) with
      | none => simp [Option.filter, hempty, hread]
      | some value =>
        cases configured with
        | none => simp [Option.filter, hempty, hread, lower]
        | some cap => simp [Option.filter, hempty, hread, lower_some]

theorem resolve_snd (configured : Option Nat) (q : QuerySettings) (w : World σ) :
    (resolve configured q w).2 = { w with log := (resolve configured q w).2.log } := by
  unfold resolve
  split
  · rfl
  · split <;> rfl

theorem inEffect_baseOf (configured : Option Nat) (q : QuerySettings) (id : QueryId) :
    inEffect configured (ChunkStream.baseOf q id) = inEffect configured q := by
  have hget : (ChunkStream.baseOf q id).get? QuerySettings.limitParameter =
      q.get? QuerySettings.limitParameter := by
    have hne : QuerySettings.limitParameter ≠ QuerySettings.syntaxParameter := by decide
    exact (OrderedMap.find?_insert ..).trans (if_neg hne)
  rw [inEffect, hget]
  rfl

end Limit
end ShardQuery
