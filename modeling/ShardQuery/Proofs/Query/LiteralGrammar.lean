import ShardQuery.Proofs.Binary64.Overflow
import ShardQuery.Proofs.Text.DigitRun
import ShardQuery.Proofs.Text.Padding
import ShardQuery.Query.Numeric

/-!
# The grammar of numeric literals

A literal is a sign and a body between paddings. A body is a hexadecimal integer after a mark, a
decimal integer with an optional suffix, or a decimal with an optional suffix of its own. The grammar
gives the value of each form.
-/

namespace ShardQuery.NumericLiteral

/-- A non-empty run of digits of a base, letters in lower case, and its number. -/
inductive Run (base : Nat) : List Char → Nat → Prop
  | mk {ds : List Nat} (hne : ds ≠ []) (hds : ∀ d ∈ ds, d < base) :
      Run base (ds.map Text.digitChar) (Text.ofDigits base ds)

inductive Sign : List Char → Bool → Prop
  | absent : Sign [] false
  | plus : Sign ['+'] false
  | minus : Sign ['-'] true

def signedValue (negative : Bool) (n : Nat) : Int := if negative then -n else n

@[simp]
theorem signedValue_false (n : Nat) : signedValue false n = n := rfl

@[simp]
theorem signedValue_true (n : Nat) : signedValue true n = -n := rfl

def hexMarks : List (List Char) := [['0', 'x'], ['0', 'X'], ['#']]

def integerSuffixes : List (List Char) := [[], ['l'], ['L']]

def decimalSuffixes : List (List Char) := [[], ['f'], ['F'], ['d'], ['D']]

inductive Hexadecimal : List Char → Nat → Prop
  | mk {mark digits : List Char} {n : Nat} (hmark : mark ∈ hexMarks)
      (hdigits : Run 16 (digits.map Char.toLower) n) : Hexadecimal (mark ++ digits) n

inductive Integer : List Char → Nat → Prop
  | mk {digits suffix : List Char} {n : Nat} (hdigits : Run 10 digits n)
      (hsuffix : suffix ∈ integerSuffixes) : Integer (digits ++ suffix) n

/-- Digits with at most one point, at least one digit in all. -/
inductive Mantissa : List Char → ℚ → Prop
  | whole {digits : List Char} {n : Nat} (hdigits : Run 10 digits n) : Mantissa digits n
  | pointed {ws fs : List Nat} (hne : ws ++ fs ≠ []) (hws : ∀ d ∈ ws, d < 10)
      (hfs : ∀ d ∈ fs, d < 10) :
      Mantissa (ws.map Text.digitChar ++ '.' :: fs.map Text.digitChar)
        (Text.ofDigits 10 ws + Text.ofDigits 10 fs / (10 : ℚ) ^ fs.length)

inductive Exponent : List Char → Int → Prop
  | absent : Exponent [] 0
  | marked {mark : Char} {sign digits : List Char} {negative : Bool} {n : Nat}
      (hmark : mark = 'e' ∨ mark = 'E') (hsign : Sign sign negative) (hdigits : Run 10 digits n) :
      Exponent (mark :: (sign ++ digits)) (signedValue negative n)

inductive Decimal : List Char → ℚ → Prop
  | mk {ms es : List Char} {v : ℚ} {e : Int} (hmantissa : Mantissa ms v)
      (hexponent : Exponent es e) : Decimal (ms ++ es) (v * 10 ^ e)

/-- A magnitude that does not fit 64 bits rounds to a finite double. -/
def Fits (v : ℚ) : Prop := (2 : ℚ) ^ 64 ≤ v → v < Binary64.overflowBound

inductive Body : List Char → Prop
  | hexadecimal {cs : List Char} {n : Nat} (h : Hexadecimal cs n) (hlt : n < 2 ^ 64) : Body cs
  | integer {cs : List Char} {n : Nat} (h : Integer cs n) (hfits : Fits n) : Body cs
  | decimal {cs suffix : List Char} {v : ℚ} (h : Decimal cs v) (hsuffix : suffix ∈ decimalSuffixes)
      (hfits : Fits v) : Body (cs ++ suffix)

def Literal (s : String) : Prop :=
  ∃ sign negative body, Sign sign negative ∧ Body body ∧ Text.Pads s.toList (sign ++ body)

theorem fits_iff {v : ℚ} : Fits v ↔ v < Binary64.overflowBound := by
  refine ⟨fun h => ?_, fun h _ => h⟩
  rcases le_or_gt ((2 : ℚ) ^ 64) v with hle | hlt
  · exact h hle
  · exact hlt.trans_le (by exact_mod_cast Binary64.wide_le_overflowBound)

theorem readNat?_eq_some_iff {base n : Nat} (hb : base ≤ 36) {cs : List Char} :
    Text.readNat? base cs = some n ↔ Run base cs n := by
  constructor
  · intro h
    obtain ⟨ds, rfl, hds, rfl⟩ := Text.exists_digits_of_readNat? h
    refine .mk (fun hnil => ?_) hds
    rw [hnil] at h
    cases h
  · rintro ⟨hne, hds⟩
    exact Text.readNat?_map_digitChar hb hne hds

theorem Run.unique {base m n : Nat} (hb : base ≤ 36) {cs : List Char} (hm : Run base cs m)
    (hn : Run base cs n) : m = n :=
  Option.some.inj (((readNat?_eq_some_iff hb).2 hm).symm.trans ((readNat?_eq_some_iff hb).2 hn))

/-! ## The characters of a literal -/

namespace Run

variable {base n : Nat} {cs : List Char}

theorem ne_nil (h : Run base cs n) : cs ≠ [] := by
  obtain ⟨hne, -⟩ := h
  exact mt List.map_eq_nil_iff.1 hne

theorem isDigit (h : Run 10 cs n) : ∀ c ∈ cs, c.isDigit = true := by
  obtain ⟨-, hds⟩ := h
  exact Text.forall_isDigit_map hds

end Run

def IsSign (c : Char) : Prop := c = '+' ∨ c = '-'

instance (c : Char) : Decidable (IsSign c) := inferInstanceAs (Decidable (c = '+' ∨ c = '-'))

def StartsUnsigned (cs : List Char) : Prop := ∀ c ∈ cs.head?, ¬IsSign c

theorem not_isSign_of_isDigit {c : Char} (h : c.isDigit = true) : ¬IsSign c := by
  rintro (rfl | rfl) <;> cases h

theorem Sign.isSign {sign : List Char} {negative : Bool} (h : Sign sign negative) :
    ∀ c ∈ sign, IsSign c := by
  cases h <;> simp [IsSign]

def IsPlain (c : Char) : Prop := c.isDigit = true ∨ c = '.' ∨ c = 'e' ∨ c = 'E' ∨ IsSign c

theorem Mantissa.chars {cs : List Char} {v : ℚ} (h : Mantissa cs v) :
    ∀ c ∈ cs, c.isDigit = true ∨ c = '.' := by
  cases h with
  | whole hdigits => exact fun c hc => .inl (hdigits.isDigit c hc)
  | pointed _ hws hfs =>
    intro c hc
    rcases List.mem_append.1 hc with hc | hc
    · exact .inl (Text.forall_isDigit_map hws c hc)
    · rcases List.mem_cons.1 hc with rfl | hc
      · exact .inr rfl
      · exact .inl (Text.forall_isDigit_map hfs c hc)

theorem Mantissa.ne_nil {cs : List Char} {v : ℚ} (h : Mantissa cs v) : cs ≠ [] := by
  cases h with
  | whole hdigits => exact hdigits.ne_nil
  | pointed => simp

theorem Exponent.chars {cs : List Char} {e : Int} (h : Exponent cs e) : ∀ c ∈ cs, IsPlain c := by
  cases h with
  | absent => simp
  | marked hmark hsign hdigits =>
    intro c hc
    rcases List.mem_cons.1 hc with rfl | hc
    · exact .inr (.inr (hmark.imp_right .inl))
    · rcases List.mem_append.1 hc with hc | hc
      · exact .inr (.inr (.inr (.inr (hsign.isSign c hc))))
      · exact .inl (hdigits.isDigit c hc)

theorem Decimal.chars {cs : List Char} {v : ℚ} (h : Decimal cs v) : ∀ c ∈ cs, IsPlain c := by
  obtain ⟨hmantissa, hexponent⟩ := h
  intro c hc
  rcases List.mem_append.1 hc with hc | hc
  · exact (hmantissa.chars c hc).imp_right .inl
  · exact hexponent.chars c hc

theorem Decimal.ne_nil {cs : List Char} {v : ℚ} (h : Decimal cs v) : cs ≠ [] := by
  obtain ⟨hmantissa, -⟩ := h
  exact mt (fun hnil => (List.append_eq_nil_iff.1 hnil).1) hmantissa.ne_nil

theorem startsUnsigned_append {cs : List Char} (hne : cs ≠ []) (h : ∀ c ∈ cs, ¬IsSign c)
    (rest : List Char) : StartsUnsigned (cs ++ rest) := by
  obtain ⟨c, cs, rfl⟩ := List.exists_cons_of_ne_nil hne
  rintro x ⟨⟩
  exact h c List.mem_cons_self

theorem Decimal.startsUnsigned {cs : List Char} {v : ℚ} (h : Decimal cs v) (rest : List Char) :
    StartsUnsigned (cs ++ rest) := by
  obtain ⟨hmantissa, -⟩ := h
  rw [List.append_assoc]
  refine startsUnsigned_append hmantissa.ne_nil (fun c hc => ?_) _
  rcases hmantissa.chars c hc with hdigit | rfl
  · exact not_isSign_of_isDigit hdigit
  · rintro (h | h) <;> cases h

theorem Hexadecimal.startsUnsigned {cs : List Char} {n : Nat} (h : Hexadecimal cs n) :
    StartsUnsigned cs := by
  obtain ⟨hmark, -⟩ := h
  simp only [hexMarks, List.mem_cons, List.not_mem_nil, or_false] at hmark
  rcases hmark with rfl | rfl | rfl <;> rintro c ⟨⟩ <;> decide

theorem Integer.startsUnsigned {cs : List Char} {n : Nat} (h : Integer cs n) :
    StartsUnsigned cs := by
  obtain ⟨hdigits, -⟩ := h
  exact startsUnsigned_append hdigits.ne_nil
    (fun c hc => not_isSign_of_isDigit (hdigits.isDigit c hc)) _

theorem Body.startsUnsigned {cs : List Char} (h : Body cs) : StartsUnsigned cs := by
  cases h with
  | hexadecimal h => exact h.startsUnsigned
  | integer h => exact h.startsUnsigned
  | decimal h => exact h.startsUnsigned _

/-- No infinity and no NaN is spelled without one of these letters. -/
def IsWordLetter (c : Char) : Prop := c = 'i' ∨ c = 'I' ∨ c = 'n' ∨ c = 'N'

instance (c : Char) : Decidable (IsWordLetter c) :=
  inferInstanceAs (Decidable (c = 'i' ∨ c = 'I' ∨ c = 'n' ∨ c = 'N'))

theorem not_isWordLetter_of_isDigit {c : Char} (h : c.isDigit = true) : ¬IsWordLetter c :=
  Text.of_isDigit (p := fun c => ¬IsWordLetter c) (by decide) h

theorem IsPlain.not_isWordLetter {c : Char} (h : IsPlain c) : ¬IsWordLetter c := by
  rcases h with h | rfl | rfl | rfl | rfl | rfl
  · exact not_isWordLetter_of_isDigit h
  all_goals decide

theorem Body.not_isWordLetter {cs : List Char} (h : Body cs) : ∀ c ∈ cs, ¬IsWordLetter c := by
  have hmarks : ∀ mark ∈ hexMarks, ∀ c ∈ mark, ¬IsWordLetter c := by
    simp [hexMarks, IsWordLetter]
  have hintegers : ∀ suffix ∈ integerSuffixes, ∀ c ∈ suffix, ¬IsWordLetter c := by
    simp [integerSuffixes, IsWordLetter]
  have hdecimals : ∀ suffix ∈ decimalSuffixes, ∀ c ∈ suffix, ¬IsWordLetter c := by
    simp [decimalSuffixes, IsWordLetter]
  intro c hc
  cases h with
  | hexadecimal h =>
    obtain ⟨hmark, hdigits⟩ := h
    rcases List.mem_append.1 hc with hc | hc
    · exact hmarks _ hmark c hc
    · have hlower := List.mem_map_of_mem (f := Char.toLower) hc
      generalize List.map Char.toLower _ = lower at hdigits hlower
      obtain ⟨-, hds⟩ := hdigits
      obtain ⟨d, hd, heq⟩ := List.mem_map.1 hlower
      obtain ⟨hi, hn⟩ : Text.digitChar d ≠ 'i' ∧ Text.digitChar d ≠ 'n' := by
        have hlt := hds d hd
        clear heq hd
        revert d
        decide
      rintro (rfl | rfl | rfl | rfl)
      · exact hi heq
      · exact hi heq
      · exact hn heq
      · exact hn heq
  | integer h =>
    obtain ⟨hdigits, hsuffix⟩ := h
    rcases List.mem_append.1 hc with hc | hc
    · exact not_isWordLetter_of_isDigit (hdigits.isDigit c hc)
    · exact hintegers _ hsuffix c hc
  | decimal h hsuffix =>
    rcases List.mem_append.1 hc with hc | hc
    · exact (h.chars c hc).not_isWordLetter
    · exact hdecimals _ hsuffix c hc

end ShardQuery.NumericLiteral
