import Mathlib.Data.List.TakeWhile
import ShardQuery.Text.Blank
import ShardQuery.Text.Numeral

/-!
# Runs of decimal digits

The characters that count as decimal digits are the ten figures, so the longest run of them in front
of a text is a list of figures, and what follows it starts with none.
-/

namespace ShardQuery.Text

theorem isDigit_digitChar {d : Nat} (h : d < 10) : (digitChar d).isDigit = true := by
  revert d
  decide

theorem toNat_sub_digitChar {d : Nat} (h : d < 10) : (digitChar d).toNat - 48 = d := by
  revert d
  decide

theorem isBlank_digitChar {d : Nat} (h : d < 10) : isBlank (digitChar d) = false := by
  revert d
  decide

theorem isDigit_iff {c : Char} : c.isDigit = true ↔ ∃ d < 10, c = digitChar d := by
  constructor
  · intro h
    obtain ⟨hlo, hhi⟩ : 48 ≤ c.toNat ∧ c.toNat ≤ 57 := by
      simpa [Char.isDigit, UInt32.le_iff_toNat_le] using h
    refine ⟨c.toNat - 48, by omega, ?_⟩
    rw [digitChar, if_pos (by omega), show 48 + (c.toNat - 48) = c.toNat by omega, Char.ofNat_toNat]
  · rintro ⟨d, hd, rfl⟩
    exact isDigit_digitChar hd

theorem of_isDigit {p : Char → Prop} (h : ∀ d < 10, p (digitChar d)) {c : Char}
    (hc : c.isDigit = true) : p c := by
  obtain ⟨d, hd, rfl⟩ := isDigit_iff.1 hc
  exact h d hd

theorem forall_isDigit_map {ds : List Nat} (h : ∀ d ∈ ds, d < 10) :
    ∀ c ∈ ds.map digitChar, c.isDigit = true := by
  intro c hc
  obtain ⟨d, hd, rfl⟩ := List.mem_map.1 hc
  exact isDigit_digitChar (h d hd)

theorem exists_digits_of_isDigit {cs : List Char} (h : ∀ c ∈ cs, c.isDigit = true) :
    ∃ ds : List Nat, cs = ds.map digitChar ∧ ∀ d ∈ ds, d < 10 := by
  induction cs with
  | nil => exact ⟨[], rfl, by simp⟩
  | cons c cs ih =>
    obtain ⟨hc, hcs⟩ := List.forall_mem_cons.1 h
    obtain ⟨d, hd, rfl⟩ := isDigit_iff.1 hc
    obtain ⟨ds, rfl, hds⟩ := ih hcs
    exact ⟨d :: ds, rfl, List.forall_mem_cons.2 ⟨hd, hds⟩⟩

section

variable {cs rest : List Char} (hcs : ∀ c ∈ cs, c.isDigit = true)
  (hrest : ∀ c ∈ rest.head?, c.isDigit = false)

include hcs hrest

theorem takeWhile_isDigit_append : (cs ++ rest).takeWhile Char.isDigit = cs := by
  rw [List.takeWhile_append_of_pos hcs]
  cases rest with
  | nil => simp
  | cons c rest => simp [hrest c rfl]

theorem dropWhile_isDigit_append : (cs ++ rest).dropWhile Char.isDigit = rest := by
  rw [List.dropWhile_append_of_pos hcs]
  cases rest with
  | nil => rfl
  | cons c rest => simp [hrest c rfl]

end

end ShardQuery.Text
