import ShardQuery.Json.Reader
import ShardQuery.Proofs.Text.DigitRun

/-!
# The text of a number

A run of digits in front of a text is read up to the first character that is none. The numeral of an
integer starts with no zero that could be left out, so it is read in full unless more of a number
follows. If the integer fits 64 bits it is the number that is read.
-/

namespace ShardQuery.Json

/-! ## Runs of digits in front of a text -/

theorem values_map_digitChar {ds : List Nat} (hds : ∀ d ∈ ds, d < 10) :
    (ds.map Text.digitChar).map (fun c => c.toNat - 48) = ds := by
  rw [List.map_map]
  exact (List.map_congr_left fun d hd => Text.toNat_sub_digitChar (hds d hd)).trans (List.map_id ds)

theorem takeDigits_append {ds : List Nat} (hds : ∀ d ∈ ds, d < 10) {rest : List Char}
    (hrest : ∀ c ∈ rest.head?, c.isDigit = false) :
    takeDigits (ds.map Text.digitChar ++ rest) = (ds, rest) := by
  have hdigits := Text.forall_isDigit_map hds
  rw [takeDigits, Text.takeWhile_isDigit_append hdigits hrest,
    Text.dropWhile_isDigit_append hdigits hrest, values_map_digitChar hds]

theorem takeDigits_map {ds : List Nat} (hds : ∀ d ∈ ds, d < 10) :
    takeDigits (ds.map Text.digitChar) = (ds, []) := by
  have hread : takeDigits (ds.map Text.digitChar ++ []) = (ds, []) :=
    takeDigits_append hds (by simp)
  rwa [List.append_nil] at hread

theorem eq_of_takeDigits {cs rest : List Char} {ds : List Nat}
    (h : takeDigits cs = (ds, rest)) :
    cs = ds.map Text.digitChar ++ rest ∧ ∀ d ∈ ds, d < 10 := by
  obtain ⟨es, htake, hes⟩ := Text.exists_digits_of_isDigit
    fun c hc => List.mem_takeWhile_imp (p := Char.isDigit) (l := cs) hc
  rw [takeDigits, htake, values_map_digitChar hes] at h
  cases h
  exact ⟨by rw [← htake, List.takeWhile_append_dropWhile], hes⟩

theorem someDigits?_eq_some {cs rest : List Char} {ds : List Nat} :
    someDigits? cs = some (ds, rest) ↔ takeDigits cs = (ds, rest) ∧ ds ≠ [] := by
  rw [someDigits?]
  split
  · next heq =>
    simp only [heq, Prod.mk.injEq, reduceCtorEq, false_iff]
    exact fun h => h.2 h.1.1.symm
  · next hne =>
    rw [Option.some.injEq]
    refine ⟨fun h => ⟨h, fun hnil => hne rest (hnil ▸ h)⟩, And.left⟩

/-! ## Integers -/

def Number.IsWord : Number → Prop
  | .int n => -2 ^ 63 ≤ n ∧ n < 2 ^ 64
  | .float _ => False

def EndsNumber (rest : List Char) : Prop :=
  ∀ c ∈ rest.head?, c.isDigit = false ∧ c ≠ '.' ∧ c ≠ 'e' ∧ c ≠ 'E'

theorem wholePart?_renderNat (n : Nat) {rest : List Char}
    (hrest : ∀ c ∈ rest.head?, c.isDigit = false) :
    wholePart? (Text.renderNat 10 n ++ rest) = some (Text.digits 10 n, rest) := by
  have htake : takeDigits (Text.renderNat 10 n ++ rest) = (Text.digits 10 n, rest) :=
    takeDigits_append (Text.digits_lt (by decide) n) hrest
  rw [wholePart?, htake]
  split
  · next heq => exact absurd (congrArg Prod.fst heq) (Text.digits_ne_nil 10 n)
  · next heq => exact absurd (congrArg Prod.fst heq) (Text.digits_ne_zero_cons 10 n _ _)
  · rfl

theorem fractionPart?_of_endsNumber {rest : List Char} (h : EndsNumber rest) :
    fractionPart? rest = some (none, rest) := by
  unfold fractionPart?
  split
  · exact absurd rfl (h '.' rfl).2.1
  · rfl

theorem exponentPart?_of_endsNumber {rest : List Char} (h : EndsNumber rest) :
    exponentPart? rest = some (none, rest) := by
  cases rest with
  | nil => rfl
  | cons c rest =>
    obtain ⟨-, -, he, hE⟩ := h c rfl
    rw [exponentPart?.eq_def]
    simp [he, hE]

theorem exists_renderNat_eq_cons (n : Nat) :
    ∃ c cs, Text.renderNat 10 n = c :: cs ∧ c.isDigit = true := by
  have hdigits : ∀ c ∈ Text.renderNat 10 n, c.isDigit = true :=
    Text.forall_isDigit_map (Text.digits_lt (by decide) n)
  cases hn : Text.renderNat 10 n with
  | nil => exact absurd (List.map_eq_nil_iff.1 hn) (Text.digits_ne_nil 10 n)
  | cons c cs => exact ⟨c, cs, rfl, hdigits c (hn ▸ List.mem_cons_self)⟩

theorem toList_decimalInt_ofNat (n : Nat) :
    (Text.decimalInt (.ofNat n)).toList = Text.renderNat 10 n := String.toList_ofList

theorem toList_decimalInt_negSucc (n : Nat) :
    (Text.decimalInt (.negSucc n)).toList = '-' :: Text.renderNat 10 (n + 1) := by
  simp [Text.decimalInt, Text.decimal]

theorem exists_decimalInt_eq_cons (k : Int) :
    ∃ c cs, (Text.decimalInt k).toList = c :: cs ∧ (c = '-' ∨ c.isDigit = true) := by
  cases k with
  | ofNat n =>
    obtain ⟨c, cs, hn, hc⟩ := exists_renderNat_eq_cons n
    exact ⟨c, cs, by rw [toList_decimalInt_ofNat, hn], .inr hc⟩
  | negSucc n => exact ⟨'-', Text.renderNat 10 (n + 1), toList_decimalInt_negSucc n, .inl rfl⟩

def numeralOf (k : Int) : Numeral := ⟨k < 0, Text.digits 10 k.natAbs, none, none⟩

theorem scanNumber?_decimalInt (k : Int) {rest : List Char} (h : EndsNumber rest) :
    scanNumber? ((Text.decimalInt k).toList ++ rest) = some (numeralOf k, rest) := by
  have hwhole (n : Nat) := wholePart?_renderNat n fun c hc => (h c hc).1
  cases k with
  | ofNat n =>
    obtain ⟨c, cs, hn, hc⟩ := exists_renderNat_eq_cons n
    have hread := hwhole n
    rw [hn, List.cons_append] at hread
    rw [toList_decimalInt_ofNat, hn, List.cons_append, scanNumber?]
    · simp [hread, fractionPart?_of_endsNumber h, exponentPart?_of_endsNumber h, numeralOf]
    · -- a digit is no minus sign
      rintro r ⟨⟩
      cases hc
  | negSucc n =>
    rw [toList_decimalInt_negSucc, List.cons_append, scanNumber?]
    simp [hwhole, fractionPart?_of_endsNumber h, exponentPart?_of_endsNumber h, numeralOf,
      Int.negSucc_lt_zero]

theorem number?_numeralOf {k : Int} (h : (Number.int k).IsWord) :
    (numeralOf k).number? = some (.int k) := by
  obtain ⟨hlower, hupper⟩ := h
  cases k with
  | ofNat n =>
    have hfits : n < 2 ^ 64 := Int.ofNat_lt.1 hupper
    simp [numeralOf, Numeral.number?, Text.ofDigits_digits, hfits]
  | negSucc n =>
    have hsigned : n + 1 ≤ 2 ^ 63 := by omega
    have hfits : n + 1 < 2 ^ 64 := by omega
    have hvalue : -((n : Int) + 1) = .negSucc n := (Int.negSucc_eq n).symm
    simp [numeralOf, Numeral.number?, Text.ofDigits_digits, hsigned, hfits, hvalue]

end ShardQuery.Json
