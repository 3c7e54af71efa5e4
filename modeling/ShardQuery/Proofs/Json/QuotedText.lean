import ShardQuery.Json.Reader
import ShardQuery.Proofs.Text.FixedWidth

/-!
# Quoted texts

A character of a quoted text is written as a letter after a backslash, as four hexadecimal digits or
as itself. Each of the three is read as that character and leaves what follows it, so a quoted text is
read up to its closing quote and no further. No control character is left in what is written.
-/

namespace ShardQuery.Json

/-! ## Escapes -/

theorem escapeChar_cases (c : Char) :
    (∃ e, escapeChar c = ['\\', e] ∧ letterEscape? e = some c ∧ 0x20 ≤ e.toNat) ∨
    (escapeChar c = ['\\', 'u'] ++ Text.padded 16 4 c.toNat ∧ c.toNat < 0x20) ∨
    (escapeChar c = [c] ∧ c ≠ '"' ∧ c ≠ '\\' ∧ 0x20 ≤ c.toNat) := by
  unfold escapeChar
  split
  · next h => exact .inl ⟨'"', by subst h; decide⟩
  split
  · next h => exact .inl ⟨'\\', by subst h; decide⟩
  split
  · next h => exact .inl ⟨'n', by subst h; decide⟩
  split
  · next h => exact .inl ⟨'r', by subst h; decide⟩
  split
  · next h => exact .inl ⟨'t', by subst h; decide⟩
  split
  · next h => exact .inl ⟨'b', by subst h; decide⟩
  split
  · next h => exact .inl ⟨'f', by subst h; decide⟩
  split
  · next h => exact .inr (.inl ⟨rfl, h⟩)
  · next hquote hbackslash _ _ _ _ _ hcontrol =>
    exact .inr (.inr ⟨rfl, hquote, hbackslash, Nat.le_of_not_lt hcontrol⟩)

theorem toLower_digitChar {d : Nat} (h : d < 16) :
    (Text.digitChar d).toLower = Text.digitChar d := by
  revert d
  decide

theorem map_toLower_padded (width n : Nat) :
    (Text.padded 16 width n).map Char.toLower = Text.padded 16 width n := by
  refine (List.map_congr_left fun c hc => ?_).trans (List.map_id _)
  obtain ⟨d, hd, rfl⟩ := Text.exists_digit_of_mem_padded (by decide) hc
  exact toLower_digitChar hd

/-- Four digits below the surrogates stand for the character of their number. -/
theorem hexUnit?_padded {c : Char} (h : c.toNat < 0x20) :
    hexUnit? (Text.padded 16 4 c.toNat) = some (.char c) := by
  have hread : Text.readNat? 16 (Text.padded 16 4 c.toNat) = some c.toNat :=
    Text.readNat?_padded (by decide) (by decide) 4 c.toNat
  have hplain : ¬(0xd800 ≤ c.toNat ∧ c.toNat < 0xe000) := by omega
  simp [hexUnit?, map_toLower_padded, hread, hplain, Char.ofNat_toNat]

/-! ## Reading -/

theorem scanString_letter {e c : Char} (he : letterEscape? e = some c) (rest : List Char) :
    scanString ('\\' :: e :: rest) = (scanString rest).map fun r => (.char c :: r.1, r.2) := by
  unfold letterEscape? at he
  split at he <;> cases he <;> exact Option.map_eq_bind.symm

theorem scanString_digits {ds : List Char} {unit : CodeUnit} (hlength : ds.length = 4)
    (hunit : hexUnit? ds = some unit) (rest : List Char) :
    scanString ('\\' :: 'u' :: (ds ++ rest)) =
      (scanString rest).map fun r => (unit :: r.1, r.2) := by
  obtain ⟨d₁, d₂, d₃, d₄, rfl⟩ : ∃ d₁ d₂ d₃ d₄, ds = [d₁, d₂, d₃, d₄] := by
    match ds, hlength with
    | [d₁, d₂, d₃, d₄], _ => exact ⟨d₁, d₂, d₃, d₄, rfl⟩
  change ((hexUnit? [d₁, d₂, d₃, d₄]).bind fun unit =>
    (scanString rest).bind fun r => some (unit :: r.1, r.2)) = _
  rw [hunit, Option.bind_some, Option.map_eq_bind]
  rfl

theorem scanString_plain {c : Char} (hquote : c ≠ '"') (hbackslash : c ≠ '\\')
    (hcontrol : 0x20 ≤ c.toNat) (rest : List Char) :
    scanString (c :: rest) = (scanString rest).map fun r => (.char c :: r.1, r.2) := by
  rw [scanString, if_neg (Nat.not_lt.2 hcontrol)]
  · exact Option.map_eq_bind.symm
  all_goals simp [hquote, hbackslash]

theorem scanString_escapeChar (c : Char) (rest : List Char) :
    scanString (escapeChar c ++ rest) = (scanString rest).map fun r => (.char c :: r.1, r.2) := by
  rcases escapeChar_cases c with ⟨e, hc, he, -⟩ | ⟨hc, hcontrol⟩ | ⟨hc, hquote, hbackslash, hle⟩
  · rw [hc]
    exact scanString_letter he rest
  · rw [hc]
    exact scanString_digits (Text.length_padded (by decide) (by omega)) (hexUnit?_padded hcontrol) rest
  · rw [hc]
    exact scanString_plain hquote hbackslash hle rest

/-- A quoted text is read up to its closing quote, whatever follows. -/
theorem scanString_flatMap (cs rest : List Char) :
    scanString (cs.flatMap escapeChar ++ '"' :: rest) = some (cs.map .char, rest) := by
  induction cs with
  | nil => rfl
  | cons c cs ih =>
    rw [List.flatMap_cons, List.append_assoc, scanString_escapeChar, ih, Option.map_some, List.map_cons]

theorem assemble_map_char (cs : List Char) : assemble (cs.map .char) = some cs := by
  induction cs with
  | nil => rfl
  | cons c cs ih => rw [List.map_cons, assemble, ih, Option.map_some]

theorem stringOf_map_char (cs : List Char) : stringOf (cs.map .char) = .string (String.ofList cs) := by
  rw [stringOf, assemble_map_char]

/-! ## Control characters -/

theorem le_toNat_of_mem_escapeChar {c d : Char} (h : d ∈ escapeChar c) : 0x20 ≤ d.toNat := by
  rcases escapeChar_cases c with ⟨e, hc, -, hle⟩ | ⟨hc, -⟩ | ⟨hc, -, -, hle⟩
  · rw [hc] at h
    rcases List.mem_cons.1 h with rfl | h
    · decide
    · exact List.mem_singleton.1 h ▸ hle
  · rw [hc] at h
    rcases List.mem_append.1 h with h | h
    · simp only [List.mem_cons, List.not_mem_nil, or_false] at h
      rcases h with rfl | rfl <;> decide
    · obtain ⟨x, hx, rfl⟩ := Text.exists_digit_of_mem_padded (by decide) h
      rw [Text.toNat_digitChar (by omega)]
      split <;> omega
  · rw [hc] at h
    exact List.mem_singleton.1 h ▸ hle

theorem le_toNat_of_mem_quoteChars {cs : List Char} {d : Char} (h : d ∈ quoteChars cs) :
    0x20 ≤ d.toNat := by
  rw [quoteChars, List.mem_cons, List.mem_append, List.mem_flatMap, List.mem_singleton] at h
  rcases h with rfl | ⟨c, -, hd⟩ | rfl
  · decide
  · exact le_toNat_of_mem_escapeChar hd
  · decide

end ShardQuery.Json
