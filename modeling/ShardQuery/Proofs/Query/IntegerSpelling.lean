import ShardQuery.Proofs.Query.LiteralReading

/-!
# Integers and their spellings

An integer is spelled in decimal or hexadecimal digits of its magnitude, with a sign. Magnitude and
sign are read apart, and put together they give the integer spelled, exactly when it is one of those
that are kept as integers. No other text gives an integer.
-/

namespace ShardQuery.NumericLiteral

/-- The integers that are kept as such, signed or unsigned in 64 bits. -/
def InRange (n : Int) : Prop := -2 ^ 63 ≤ n ∧ n < 2 ^ 64

/-- A text is a sign and digits of an integer, with any leading zeros and between any paddings. -/
inductive Spells : Int → String → Prop
  | mk {s : String} {sign body : List Char} {negative : Bool} {n : Nat} (hsign : Sign sign negative)
      (hbody : Hexadecimal body n ∨ Integer body n) (hpads : Text.Pads s.toList (sign ++ body)) :
      Spells (signedValue negative n) s

theorem natAbs_signedValue (negative : Bool) (n : Nat) : (signedValue negative n).natAbs = n := by
  cases negative <;> simp

theorem InRange.lt {negative : Bool} {n : Nat} (h : InRange (signedValue negative n)) :
    n < 2 ^ 64 := by
  rw [← natAbs_signedValue negative n]
  generalize signedValue negative n = k at h
  obtain ⟨hlower, hupper⟩ := h
  omega

theorem signed_eq_int_iff {n : Nat} (hn : n < 2 ^ 64) {negative : Bool} {k : Int} :
    signed n negative = .int k ↔ k = signedValue negative n ∧ InRange (signedValue negative n) := by
  cases negative with
  | false =>
    have hrange : InRange n := ⟨by omega, by omega⟩
    rw [signedValue_false, signed, Bool.not_false, if_pos rfl, Json.Number.int.injEq, eq_comm]
    exact (and_iff_left hrange).symm
  | true =>
    have hrange : InRange (-n) ↔ n ≤ 2 ^ 63 := by
      rw [InRange]
      omega
    rw [signedValue_true, hrange, signed, if_neg (by decide)]
    split
    · next hle => simp only [Json.Number.int.injEq, hle, and_true, eq_comm]
    · next hlarge => exact iff_of_false (by rintro ⟨⟩) fun h => hlarge h.2

theorem hex?_eq_int_iff {digits : List Char} {n : Nat} (h : Run 16 (digits.map Char.toLower) n)
    {negative : Bool} {k : Int} :
    hex? digits negative = some (.int k) ↔
      k = signedValue negative n ∧ InRange (signedValue negative n) := by
  rw [hex?_eq_some_iff]
  constructor
  · rintro ⟨m, hm, hrun, hsigned⟩
    cases hrun.unique (by decide) h
    exact (signed_eq_int_iff hm).1 hsigned.symm
  · intro hk
    exact ⟨n, hk.2.lt, h, ((signed_eq_int_iff hk.2.lt).2 hk).symm⟩

theorem integer?_eq_int_iff {digits : List Char} {n : Nat} (h : Run 10 digits n) {negative : Bool}
    {k : Int} :
    integer? digits negative = some (.int k) ↔
      k = signedValue negative n ∧ InRange (signedValue negative n) := by
  rw [integer?_of_run h]
  split
  · next hlt => rw [Option.some.injEq, signed_eq_int_iff hlt]
  · next hlarge => exact iff_of_false not_int_of_decimal? fun hk => hlarge hk.2.lt

/-- A spelled integer is read as itself if it is in range, and as no other integer ever. -/
theorem parse?_of_spells {n : Int} {s : String} (h : Spells n s) (k : Int) :
    parse? s = some (.int k) ↔ k = n ∧ InRange n := by
  obtain ⟨hsign, hbody, hpads⟩ := h
  rw [parse?_of_pads hsign (hbody.elim Hexadecimal.startsUnsigned Integer.startsUnsigned) hpads]
  rcases hbody with hbody | hbody
  · obtain ⟨hmark, hrun⟩ := hbody
    rw [unsigned?_hexadecimal hmark, hex?_eq_int_iff hrun]
  · obtain ⟨hrun, hsuffix⟩ := hbody
    rw [unsigned?_integer hrun hsuffix, integer?_eq_int_iff hrun]

example : parse? " -0X08000000000000000 " = some (.int (-2 ^ 63)) := by rfl

theorem spells_of_parse? {s : String} {k : Int} (h : parse? s = some (.int k)) :
    Spells k s ∧ InRange k := by
  obtain ⟨sign, negative, body, hsign, hpads, hparse⟩ := exists_sign_body s
  rw [hparse] at h
  rcases unsigned?_eq_some h with ⟨n, hlt, hbody, hsigned⟩ | ⟨-, y, hy, -⟩
  · obtain ⟨rfl, hrange⟩ := (signed_eq_int_iff hlt).1 hsigned.symm
    exact ⟨.mk hsign hbody hpads, hrange⟩
  · cases hy

theorem spells_numeral {sign : List Char} {negative : Bool} (hsign : Sign sign negative) (n : Nat) :
    Spells (signedValue negative n) (String.ofList (sign ++ Text.renderNat 10 n)) := by
  have hrun : Run 10 (Text.renderNat 10 n) n :=
    (readNat?_eq_some_iff (by decide)).1 (Text.readNat?_renderNat (by decide) (by decide) n)
  have hinteger : Integer (Text.renderNat 10 n) n := by
    simpa using Integer.mk hrun (show [] ∈ integerSuffixes by decide)
  have hcore : Text.IsCore (sign ++ Text.renderNat 10 n) := by
    refine Text.isCore_of_forall fun c hc => ?_
    rcases List.mem_append.1 hc with hc | hc
    · rcases hsign.isSign c hc with rfl | rfl <;> decide
    · obtain ⟨d, hd, rfl⟩ := Text.exists_digit_of_mem_renderNat (by decide) hc
      exact Text.isBlank_digitChar hd
  refine .mk hsign (.inr hinteger) ?_
  rw [String.toList_ofList]
  exact hcore.pads

theorem spells_render (n : Int) : Spells n (Json.Number.int n).render := by
  cases n with
  | ofNat m => exact spells_numeral .absent m
  | negSucc m =>
    have hrender : (Json.Number.int (.negSucc m)).render =
        String.ofList (['-'] ++ Text.renderNat 10 (m + 1)) := by
      rw [String.ofList_append]
      rfl
    rw [hrender]
    exact spells_numeral .minus (m + 1)

/-- Every spelling of an integer in range gives this integer and no other text does, and out of range
no spelling gives an integer. The text of an integer is a spelling of it. -/
theorem parse?_integers :
    (∀ n s, Spells n s → ∀ k, parse? s = some (.int k) ↔ k = n ∧ InRange n) ∧
    (∀ s k, parse? s = some (.int k) → Spells k s ∧ InRange k) ∧
    ∀ n, InRange n → parse? (Json.Number.int n).render = some (.int n) :=
  ⟨fun _ _ => parse?_of_spells, fun _ _ => spells_of_parse?,
    fun n hn => (parse?_of_spells (spells_render n) n).2 ⟨rfl, hn⟩⟩

end ShardQuery.NumericLiteral
