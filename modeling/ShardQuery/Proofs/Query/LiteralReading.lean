import Mathlib.Tactic.FieldSimp
import ShardQuery.Proofs.Json.NumberText
import ShardQuery.Proofs.Query.LiteralGrammar

/-!
# Reading numeric literals

The reader accepts the literals of the grammar. What it does with a body depends on the mark in front
and the suffix behind alone, and each of the three ways it can go gives back the form of the grammar
that leads to it.
-/

namespace ShardQuery.NumericLiteral

open Json (takeDigits_append takeDigits_map eq_of_takeDigits someDigits?_eq_some)

/-! ## Decimals -/

theorem pointed_value (ws fs : List Nat) (e : Int) :
    Binary64.decimalValue (ws ++ fs) (e - fs.length) =
      (Text.ofDigits 10 ws + Text.ofDigits 10 fs / (10 : ℚ) ^ fs.length) * 10 ^ e := by
  have hten : (10 : ℚ) ≠ 0 := by norm_num
  have hplaces : (10 : ℚ) ^ fs.length ≠ 0 := pow_ne_zero _ hten
  rw [Binary64.decimalValue, Text.ofDigits_append, Nat.cast_add, Nat.cast_mul, Nat.cast_pow,
    Nat.cast_ofNat, zpow_sub₀ hten, zpow_natCast]
  generalize (10 : ℚ) ^ fs.length = place at hplaces ⊢
  generalize (10 : ℚ) ^ e = scale
  field_simp

theorem mantissa?_append {ms rest : List Char} {v : ℚ} (h : Mantissa ms v)
    (hrest : ∀ c ∈ rest.head?, c.isDigit = false ∧ c ≠ '.') :
    ∃ ds places, mantissa? (ms ++ rest) = some (ds, places, rest) ∧ (∀ d ∈ ds, d < 10) ∧
      ∀ e : Int, Binary64.decimalValue ds (e - places) = v * 10 ^ e := by
  have hdigit : ∀ c ∈ rest.head?, c.isDigit = false := fun c hc => (hrest c hc).1
  cases h with
  | whole hdigits =>
    obtain @⟨ds, hne, hds⟩ := hdigits
    refine ⟨ds, 0, ?_, hds, fun e => by rw [Nat.cast_zero, sub_zero, Binary64.decimalValue]⟩
    rw [mantissa?, takeDigits_append hds hdigit]
    dsimp only
    split
    · exact absurd rfl (hrest '.' rfl).2
    · simp [hne]
  | @pointed ws fs hne hws hfs =>
    refine ⟨ws ++ fs, fs.length, ?_, fun d hd => (List.mem_append.1 hd).elim (hws d) (hfs d),
      pointed_value ws fs⟩
    rw [List.append_assoc, mantissa?, takeDigits_append hws (by rintro c ⟨⟩; rfl)]
    simp only [List.cons_append, takeDigits_append hfs hdigit]
    rw [if_neg]
    simpa using hne

theorem mantissa?_eq_some {cs rest : List Char} {ds : List Nat} {places : Nat}
    (h : mantissa? cs = some (ds, places, rest)) : ∃ ms v, Mantissa ms v ∧ cs = ms ++ rest := by
  rw [mantissa?] at h
  split at h
  next ws left hwhole =>
  obtain ⟨rfl, hws⟩ := eq_of_takeDigits hwhole
  split at h
  next fs behind hfraction =>
  split at h
  · cases h
  · next hne =>
    cases h
    split at hfraction
    · obtain ⟨rfl, hfs⟩ := eq_of_takeDigits hfraction
      refine ⟨_, _, .pointed (fun hnil => hne ?_) hws hfs, by simp⟩
      rw [List.append_eq_nil_iff] at hnil
      simp [hnil]
    · cases hfraction
      refine ⟨_, _, .whole (.mk (fun hnil => hne ?_) hws), rfl⟩
      simp [hnil]

theorem exponentPart?_of_exponent {es : List Char} {e : Int} (h : Exponent es e) :
    ∃ exponent, Json.exponentPart? es = some (exponent, []) ∧ exponent.getD 0 = e := by
  cases h with
  | absent => exact ⟨none, rfl, rfl⟩
  | @marked mark sign digits negative n hmark hsign hdigits =>
    refine ⟨some (signedValue negative n), ?_, rfl⟩
    have hunsigned : StartsUnsigned digits := by
      simpa using startsUnsigned_append hdigits.ne_nil
        (fun c hc => not_isSign_of_isDigit (hdigits.isDigit c hc)) []
    cases hdigits with
    | @mk ds hne hds =>
      have hread := someDigits?_eq_some.2 ⟨takeDigits_map hds, hne⟩
      rw [Json.exponentPart?.eq_def]
      cases hsign with
      | absent =>
        dsimp only
        rw [if_pos hmark, List.nil_append]
        split
        · next heq => exact absurd (.inl rfl) (hunsigned '+' (by rw [heq]; rfl))
        · next heq => exact absurd (.inr rfl) (hunsigned '-' (by rw [heq]; rfl))
        · simp [hread]
      | plus => simp [hmark, hread]
      | minus => simp [hmark, hread]

theorem exponent_of_exponentPart? {cs : List Char} {exponent : Option Int}
    (h : Json.exponentPart? cs = some (exponent, [])) : Exponent cs (exponent.getD 0) := by
  rw [Json.exponentPart?.eq_def] at h
  split at h
  · next mark rest =>
    split at h
    · next hmark =>
      split at h
      next negative digits hsplit =>
      obtain ⟨⟨ds, left⟩, hread, hpair⟩ := Option.map_eq_some_iff.1 h
      cases hpair
      obtain ⟨htake, hne⟩ := someDigits?_eq_some.1 hread
      obtain ⟨hdigits, hds⟩ := eq_of_takeDigits htake
      rw [List.append_nil] at hdigits
      have hrun : Run 10 digits (Text.ofDigits 10 ds) := hdigits ▸ .mk hne hds
      split at hsplit
      · cases hsplit
        exact .marked hmark .plus hrun
      · cases hsplit
        exact .marked hmark .minus hrun
      · cases hsplit
        exact .marked hmark .absent hrun
    · cases h
  · cases h
    exact .absent

theorem Exponent.head {es : List Char} {e : Int} (h : Exponent es e) :
    ∀ c ∈ es.head?, c.isDigit = false ∧ c ≠ '.' := by
  cases h with
  | absent => simp
  | marked hmark =>
    rintro c ⟨⟩
    rcases hmark with rfl | rfl <;> decide

theorem decimal?_isSome_iff_lt {cs : List Char} {v : ℚ} (h : Decimal cs v) (negative : Bool) :
    (decimal? cs negative).isSome ↔ v < Binary64.overflowBound := by
  obtain ⟨hmantissa, hexponent⟩ := h
  obtain ⟨ds, places, hread, hds, hvalue⟩ := mantissa?_append hmantissa hexponent.head
  obtain ⟨exponent, hreadExponent, rfl⟩ := exponentPart?_of_exponent hexponent
  rw [← hvalue, ← Binary64.ofDecimal?_isSome_iff hds negative]
  simp [decimal?, hread, hreadExponent]

theorem decimal?_eq_some {cs : List Char} {negative : Bool} {x : Json.Number}
    (h : decimal? cs negative = some x) :
    (∃ v, Decimal cs v ∧ v < Binary64.overflowBound) ∧ ∃ y, x = .float y ∧ y.IsFinite := by
  have hsome : (decimal? cs negative).isSome := by simp [h]
  simp only [decimal?, bind, Option.bind_eq_some_iff] at h
  obtain ⟨⟨ds, places, rest⟩, hmantissa, ⟨exponent, left⟩, hexponent, h⟩ := h
  dsimp only at hexponent h
  split at h
  · next hempty =>
    obtain ⟨ms, v, hms, rfl⟩ := mantissa?_eq_some hmantissa
    rw [List.isEmpty_iff.1 hempty] at hexponent
    have hdecimal := Decimal.mk hms (exponent_of_exponentPart? hexponent)
    obtain ⟨y, hy, rfl⟩ := Option.map_eq_some_iff.1 h
    exact ⟨⟨_, hdecimal, (decimal?_isSome_iff_lt hdecimal negative).1 hsome⟩, y, rfl,
      Binary64.isFinite_of_ofDecimal? hy⟩
  · cases h

theorem Run.decimal {cs : List Char} {n : Nat} (h : Run 10 cs n) : Decimal cs n := by
  simpa using Decimal.mk (.whole h) .absent

theorem not_int_of_decimal? {cs : List Char} {negative : Bool} {k : Int} :
    decimal? cs negative ≠ some (.int k) := by
  intro h
  obtain ⟨-, y, hint, -⟩ := decimal?_eq_some h
  cases hint

/-! ## Bodies -/

theorem afterHexMark?_eq_some_iff {cs rest : List Char} :
    afterHexMark? cs = some rest ↔ ∃ mark ∈ hexMarks, cs = mark ++ rest := by
  simp only [hexMarks, List.mem_cons, List.not_mem_nil, or_false, exists_eq_or_imp,
    exists_eq_left, List.cons_append, List.nil_append]
  constructor
  · intro h
    unfold afterHexMark? at h
    split at h <;> simp_all
  · rintro (rfl | rfl | rfl) <;> rfl

def IsMarkLetter (c : Char) : Prop := c = 'x' ∨ c = 'X' ∨ c = '#'

instance (c : Char) : Decidable (IsMarkLetter c) :=
  inferInstanceAs (Decidable (c = 'x' ∨ c = 'X' ∨ c = '#'))

theorem afterHexMark?_eq_none {cs : List Char} (h : ∀ c ∈ cs, ¬IsMarkLetter c) :
    afterHexMark? cs = none := by
  have hmarks : ∀ mark ∈ hexMarks, ∃ c ∈ mark, IsMarkLetter c := by simp [hexMarks, IsMarkLetter]
  cases hafter : afterHexMark? cs with
  | none => rfl
  | some rest =>
    obtain ⟨mark, hmark, rfl⟩ := afterHexMark?_eq_some_iff.1 hafter
    obtain ⟨c, hc, hletter⟩ := hmarks mark hmark
    exact absurd hletter (h c (List.mem_append_left _ hc))

theorem not_isMarkLetter_of_isDigit {c : Char} (h : c.isDigit = true) : ¬IsMarkLetter c :=
  Text.of_isDigit (p := fun c => ¬IsMarkLetter c) (by decide) h

theorem IsPlain.not_isMarkLetter {c : Char} (h : IsPlain c) : ¬IsMarkLetter c := by
  rcases h with h | rfl | rfl | rfl | rfl | rfl
  · exact not_isMarkLetter_of_isDigit h
  all_goals decide

theorem afterHexMark?_plain {cs suffix : List Char} (hcs : ∀ c ∈ cs, IsPlain c)
    (hsuffix : suffix ∈ integerSuffixes ++ decimalSuffixes) : afterHexMark? (cs ++ suffix) = none := by
  have hletters : ∀ suffix ∈ integerSuffixes ++ decimalSuffixes, ∀ c ∈ suffix, ¬IsMarkLetter c := by
    simp [integerSuffixes, decimalSuffixes, IsMarkLetter]
  refine afterHexMark?_eq_none fun c hc => ?_
  rcases List.mem_append.1 hc with hc | hc
  · exact (hcs c hc).not_isMarkLetter
  · exact hletters suffix hsuffix c hc

def IsSuffixLetter (c : Char) : Prop :=
  (c = 'l' ∨ c = 'L') ∨ c = 'f' ∨ c = 'F' ∨ c = 'd' ∨ c = 'D'

theorem IsPlain.not_isSuffixLetter {c : Char} (h : IsPlain c) : ¬IsSuffixLetter c := by
  rintro ((rfl | rfl) | rfl | rfl | rfl | rfl) <;> revert h <;> simp [IsPlain, IsSign]

theorem unsigned?_concat {cs : List Char} {last : Char} (hmark : afterHexMark? (cs ++ [last]) = none)
    (negative : Bool) :
    unsigned? (cs ++ [last]) negative =
      if last = 'l' ∨ last = 'L' then
        if cs.all Char.isDigit then integer? cs negative else none
      else if last = 'f' ∨ last = 'F' ∨ last = 'd' ∨ last = 'D' then decimal? cs negative
      else if (cs ++ [last]).all Char.isDigit then integer? (cs ++ [last]) negative
      else decimal? (cs ++ [last]) negative := by
  rw [unsigned?, hmark]
  simp only [List.getLast?_concat, List.dropLast_concat]

theorem unsigned?_hexadecimal {mark : List Char} (hmark : mark ∈ hexMarks) (digits : List Char)
    (negative : Bool) : unsigned? (mark ++ digits) negative = hex? digits negative := by
  rw [unsigned?, afterHexMark?_eq_some_iff.2 ⟨mark, hmark, rfl⟩]

/-- Without a suffix the digits alone decide between an integer and a decimal. -/
theorem unsigned?_plain {cs : List Char} (hne : cs ≠ []) (hcs : ∀ c ∈ cs, IsPlain c)
    (negative : Bool) :
    unsigned? cs negative =
      if cs.all Char.isDigit then integer? cs negative else decimal? cs negative := by
  obtain ⟨init, last, rfl⟩ := (List.eq_nil_or_concat' cs).resolve_left hne
  obtain ⟨hinteger, hdecimal⟩ := not_or.1 (hcs last (by simp)).not_isSuffixLetter
  have hmark := afterHexMark?_plain hcs (show [] ∈ integerSuffixes ++ decimalSuffixes by decide)
  rw [List.append_nil] at hmark
  rw [unsigned?_concat hmark, if_neg hinteger, if_neg hdecimal]

theorem unsigned?_integer {digits suffix : List Char} {n : Nat} (hdigits : Run 10 digits n)
    (hsuffix : suffix ∈ integerSuffixes) (negative : Bool) :
    unsigned? (digits ++ suffix) negative = integer? digits negative := by
  have hall : digits.all Char.isDigit = true := List.all_eq_true.2 hdigits.isDigit
  have hplain : ∀ c ∈ digits, IsPlain c := fun c hc => .inl (hdigits.isDigit c hc)
  have hmark := afterHexMark?_plain hplain (List.mem_append_left _ hsuffix)
  simp only [integerSuffixes, List.mem_cons, List.not_mem_nil, or_false] at hsuffix
  rcases hsuffix with rfl | rfl | rfl
  · rw [List.append_nil, unsigned?_plain hdigits.ne_nil hplain, if_pos hall]
  · rw [unsigned?_concat hmark, if_pos (.inl rfl), if_pos hall]
  · rw [unsigned?_concat hmark, if_pos (.inr rfl), if_pos hall]

theorem unsigned?_decimal {cs suffix : List Char} {v : ℚ} (h : Decimal cs v)
    (hsuffix : suffix ∈ decimalSuffixes) (hne : suffix ≠ []) (negative : Bool) :
    unsigned? (cs ++ suffix) negative = decimal? cs negative := by
  have hmark := afterHexMark?_plain h.chars (List.mem_append_right _ hsuffix)
  simp only [decimalSuffixes, List.mem_cons, List.not_mem_nil, or_false] at hsuffix
  rcases hsuffix with rfl | rfl | rfl | rfl | rfl
  · exact absurd rfl hne
  all_goals
    rw [unsigned?_concat hmark, if_neg (by decide), if_pos (by decide)]

theorem unsigned?_cases (cs : List Char) (negative : Bool) :
    (∃ mark ∈ hexMarks, ∃ digits, cs = mark ++ digits ∧
      unsigned? cs negative = hex? digits negative) ∨
    (∃ suffix ∈ integerSuffixes, ∃ digits, cs = digits ++ suffix ∧
      (unsigned? cs negative = integer? digits negative ∨ unsigned? cs negative = none)) ∨
    (∃ suffix ∈ decimalSuffixes, ∃ body, cs = body ++ suffix ∧
      unsigned? cs negative = decimal? body negative) := by
  cases hmark : afterHexMark? cs with
  | some digits =>
    obtain ⟨mark, hmem, rfl⟩ := afterHexMark?_eq_some_iff.1 hmark
    exact .inl ⟨mark, hmem, digits, rfl, unsigned?_hexadecimal hmem digits negative⟩
  | none =>
    right
    rcases List.eq_nil_or_concat' cs with rfl | ⟨init, last, rfl⟩
    · exact .inr ⟨[], by decide, [], rfl, rfl⟩
    rw [unsigned?_concat hmark]
    split
    · next hlast =>
      refine .inl ⟨[last], by rcases hlast with rfl | rfl <;> decide, init, rfl, ?_⟩
      split
      · exact .inl rfl
      · exact .inr rfl
    split
    · next hlast =>
      exact .inr ⟨[last], by rcases hlast with rfl | rfl | rfl | rfl <;> decide, init, rfl, rfl⟩
    split
    · exact .inl ⟨[], by decide, _, (List.append_nil _).symm, .inl rfl⟩
    · exact .inr ⟨[], by decide, _, (List.append_nil _).symm, rfl⟩

theorem hex?_eq_some_iff {digits : List Char} {negative : Bool} {x : Json.Number} :
    hex? digits negative = some x ↔
      ∃ n < 2 ^ 64, Run 16 (digits.map Char.toLower) n ∧ x = signed n negative := by
  simp only [hex?, Option.bind_eq_some_iff, readNat?_eq_some_iff (show 16 ≤ 36 by decide)]
  constructor
  · rintro ⟨n, hrun, h⟩
    split at h
    · next hlt =>
      cases h
      exact ⟨n, hlt, hrun, rfl⟩
    · cases h
  · rintro ⟨n, hlt, hrun, rfl⟩
    exact ⟨n, hrun, if_pos hlt⟩

theorem integer?_of_run {digits : List Char} {n : Nat} (h : Run 10 digits n) (negative : Bool) :
    integer? digits negative =
      if n < 2 ^ 64 then some (signed n negative) else decimal? digits negative := by
  rw [integer?, (readNat?_eq_some_iff (by decide)).2 h, Option.bind_some]

theorem run_of_integer? {digits : List Char} {negative : Bool} {x : Json.Number}
    (h : integer? digits negative = some x) : ∃ n, Run 10 digits n := by
  obtain ⟨n, hread, -⟩ := Option.bind_eq_some_iff.1 h
  exact ⟨n, (readNat?_eq_some_iff (by decide)).1 hread⟩

theorem integer?_isSome_iff {digits : List Char} {n : Nat} (h : Run 10 digits n) (negative : Bool) :
    (integer? digits negative).isSome ↔ (n : ℚ) < Binary64.overflowBound := by
  rw [integer?_of_run h]
  split
  · next hlt =>
    refine iff_of_true rfl ?_
    exact_mod_cast Binary64.lt_overflowBound hlt
  · exact decimal?_isSome_iff_lt h.decimal negative

theorem unsigned?_eq_some {cs : List Char} {negative : Bool} {x : Json.Number}
    (h : unsigned? cs negative = some x) :
    (∃ n < 2 ^ 64, (Hexadecimal cs n ∨ Integer cs n) ∧ x = signed n negative) ∨
      Body cs ∧ ∃ y, x = .float y ∧ y.IsFinite := by
  rcases unsigned?_cases cs negative with ⟨mark, hmark, digits, rfl, heq⟩ |
    ⟨suffix, hsuffix, digits, rfl, heq | heq⟩ | ⟨suffix, hsuffix, body, rfl, heq⟩
  · rw [heq] at h
    obtain ⟨n, hlt, hrun, hx⟩ := hex?_eq_some_iff.1 h
    exact .inl ⟨n, hlt, .inl (.mk hmark hrun), hx⟩
  · rw [heq] at h
    obtain ⟨n, hrun⟩ := run_of_integer? h
    have hfits := (integer?_isSome_iff hrun negative).1 (by simp [h])
    rw [integer?_of_run hrun] at h
    split at h
    · next hlt => exact .inl ⟨n, hlt, .inr (.mk hrun hsuffix), (Option.some.inj h).symm⟩
    · exact .inr ⟨.integer (.mk hrun hsuffix) (fits_iff.2 hfits), (decimal?_eq_some h).2⟩
  · rw [heq] at h
    cases h
  · rw [heq] at h
    obtain ⟨⟨v, hdecimal, hlt⟩, hfinite⟩ := decimal?_eq_some h
    exact .inr ⟨.decimal hdecimal hsuffix (fits_iff.2 hlt), hfinite⟩

theorem body_of_lt {cs : List Char} {n : Nat} (hlt : n < 2 ^ 64)
    (h : Hexadecimal cs n ∨ Integer cs n) : Body cs := by
  rcases h with h | h
  · exact .hexadecimal h hlt
  · exact .integer h (fits_iff.2 (by exact_mod_cast Binary64.lt_overflowBound hlt))

theorem unsigned?_isSome_of_decimal {cs : List Char} {v : ℚ} (h : Decimal cs v)
    (hlt : v < Binary64.overflowBound) (negative : Bool) : (unsigned? cs negative).isSome := by
  have hread := (decimal?_isSome_iff_lt h negative).2 hlt
  rw [unsigned?_plain h.ne_nil h.chars]
  split
  · next hall =>
    obtain ⟨ds, rfl, hds⟩ := Text.exists_digits_of_isDigit (List.all_eq_true.1 hall)
    have hrun : Run 10 (ds.map Text.digitChar) (Text.ofDigits 10 ds) :=
      .mk (mt (congrArg _) h.ne_nil) hds
    rw [integer?_of_run hrun]
    split
    · rfl
    · exact hread
  · exact hread

/-- The bodies of the grammar are those that are read. -/
theorem unsigned?_isSome_iff {cs : List Char} (negative : Bool) :
    (unsigned? cs negative).isSome ↔ Body cs := by
  constructor
  · intro h
    obtain ⟨x, hx⟩ := Option.isSome_iff_exists.1 h
    rcases unsigned?_eq_some hx with ⟨n, hlt, hdigits, -⟩ | ⟨hbody, -⟩
    · exact body_of_lt hlt hdigits
    · exact hbody
  · intro h
    cases h with
    | hexadecimal h hlt =>
      obtain ⟨hmark, hrun⟩ := h
      rw [unsigned?_hexadecimal hmark, hex?_eq_some_iff.2 ⟨_, hlt, hrun, rfl⟩]
      rfl
    | integer h hfits =>
      obtain ⟨hrun, hsuffix⟩ := h
      rw [unsigned?_integer hrun hsuffix]
      exact (integer?_isSome_iff hrun negative).2 (fits_iff.1 hfits)
    | @decimal cs suffix v h hsuffix hfits =>
      rcases eq_or_ne suffix [] with rfl | hne
      · rw [List.append_nil]
        exact unsigned?_isSome_of_decimal h (fits_iff.1 hfits) negative
      · rw [unsigned?_decimal h hsuffix hne]
        exact (decimal?_isSome_iff_lt h negative).2 (fits_iff.1 hfits)

/-! ## Literals -/

/-- One sign is taken off, and the body alone decides. -/
theorem parse?_of_pads {s : String} {sign body : List Char} {negative : Bool}
    (hsign : Sign sign negative) (hbody : StartsUnsigned body)
    (hpads : Text.Pads s.toList (sign ++ body)) : parse? s = unsigned? body negative := by
  rw [parse?, read?, Text.trim_of_pads hpads]
  cases hsign with
  | absent =>
    rw [List.nil_append]
    split
    · rfl
    · exact absurd (.inr rfl) (hbody '-' rfl)
    · exact absurd (.inl rfl) (hbody '+' rfl)
    · rfl
  | plus => rfl
  | minus => rfl

theorem exists_sign_body (s : String) :
    ∃ sign negative body, Sign sign negative ∧ Text.Pads s.toList (sign ++ body) ∧
      parse? s = unsigned? body negative := by
  have hpads := Text.pads_trim s.toList
  rw [parse?, read?]
  generalize Text.trim s.toList = core at hpads ⊢
  split
  · exact ⟨[], false, [], .absent, hpads, rfl⟩
  · next rest => exact ⟨['-'], true, rest, .minus, hpads, rfl⟩
  · next rest => exact ⟨['+'], false, rest, .plus, hpads, rfl⟩
  · exact ⟨[], false, _, .absent, hpads, rfl⟩

theorem parse?_isSome_iff (s : String) : (parse? s).isSome ↔ Literal s := by
  constructor
  · intro h
    obtain ⟨sign, negative, body, hsign, hpads, heq⟩ := exists_sign_body s
    rw [heq] at h
    exact ⟨sign, negative, body, hsign, (unsigned?_isSome_iff negative).1 h, hpads⟩
  · rintro ⟨sign, negative, body, hsign, hbody, hpads⟩
    rw [parse?_of_pads hsign hbody.startsUnsigned hpads]
    exact (unsigned?_isSome_iff negative).2 hbody

theorem isFinite_of_signed {n : Nat} (hn : n < 2 ^ 64) {negative : Bool} {x : Binary64}
    (h : signed n negative = .float x) : x.IsFinite := by
  rw [signed] at h
  split at h
  · cases h
  split at h
  · cases h
  · rw [← Json.Number.float.inj h]
    exact (Binary64.isFinite_ofNat (Binary64.lt_overflowBound hn)).neg

theorem isFinite_of_parse? {s : String} {x : Binary64} (h : parse? s = some (.float x)) :
    x.IsFinite := by
  obtain ⟨_, negative, body, -, -, hparse⟩ := exists_sign_body s
  rw [hparse] at h
  rcases unsigned?_eq_some h with ⟨n, hlt, -, hsigned⟩ | ⟨-, y, hy, hfinite⟩
  · exact isFinite_of_signed hlt hsigned.symm
  · rw [Json.Number.float.inj hy]
    exact hfinite

/-- A mark or a suffix without digits, or nothing at all. -/
def stubs : List (List Char) := hexMarks ++ integerSuffixes ++ decimalSuffixes

theorem unsigned?_of_stub : ∀ stub ∈ stubs, ∀ negative, unsigned? stub negative = none := by
  decide

theorem startsUnsigned_of_stub : ∀ stub ∈ stubs, StartsUnsigned stub := by
  simp [stubs, hexMarks, integerSuffixes, decimalSuffixes, StartsUnsigned, IsSign]

theorem not_literal_of_signs {s : String} {first second : Char} {rest : List Char}
    (hfirst : IsSign first) (hsecond : IsSign second)
    (hpads : Text.Pads s.toList (first :: second :: rest)) : ¬Literal s := by
  rintro ⟨sign, negative, body, hsign, hbody, hliteral⟩
  have hcore : sign ++ body = first :: second :: rest :=
    (Text.trim_of_pads hliteral).symm.trans (Text.trim_of_pads hpads)
  cases hsign with
  | absent =>
    rw [List.nil_append] at hcore
    exact hbody.startsUnsigned first (by rw [hcore]; rfl) hfirst
  | plus | minus =>
    rw [List.singleton_append, List.cons.injEq] at hcore
    exact hbody.startsUnsigned second (by rw [hcore.2]; rfl) hsecond

theorem not_literal_of_wordLetter {s : String} {c : Char} (hc : c ∈ s.toList)
    (hword : IsWordLetter c) : ¬Literal s := by
  rintro ⟨sign, negative, body, hsign, hbody, hpads⟩
  have hblank : Text.isBlank c = false := by
    rcases hword with rfl | rfl | rfl | rfl <;> decide
  have hmem : c ∈ sign ++ body := by
    rw [← Text.trim_of_pads hpads]
    exact (Text.mem_trim_iff hblank).2 hc
  rcases List.mem_append.1 hmem with hmem | hmem
  · rcases hsign.isSign c hmem with rfl | rfl <;> revert hword <;> decide
  · exact hbody.not_isWordLetter c hmem hword

/-- The texts read as numbers are the literals. So the sign does not matter to whether a text is
read, and words for infinite and undefined values, second signs, and marks and suffixes without
digits are not read. What is read is finite. -/
theorem parse?_accepts :
    (∀ s, (parse? s).isSome ↔ Literal s) ∧
    (∀ s s' sign sign' negative negative' body, Sign sign negative → Sign sign' negative' →
      StartsUnsigned body → Text.Pads s.toList (sign ++ body) → Text.Pads s'.toList (sign' ++ body) →
      ((parse? s).isSome ↔ (parse? s').isSome)) ∧
    (∀ s, ∀ c ∈ s.toList, IsWordLetter c → parse? s = none) ∧
    (∀ s first second rest, IsSign first → IsSign second →
      Text.Pads s.toList (first :: second :: rest) → parse? s = none) ∧
    (∀ s sign negative, ∀ stub ∈ stubs, Sign sign negative → Text.Pads s.toList (sign ++ stub) →
      parse? s = none) ∧
    ∀ s x, parse? s = some (.float x) → x.IsFinite := by
  have hnone {s : String} (h : ¬Literal s) : parse? s = none :=
    Option.not_isSome_iff_eq_none.1 (mt (parse?_isSome_iff s).1 h)
  refine ⟨parse?_isSome_iff, ?_, ?_, ?_, ?_, fun _ _ => isFinite_of_parse?⟩
  · intro s s' sign sign' negative negative' body hsign hsign' hbody hpads hpads'
    rw [parse?_of_pads hsign hbody hpads, parse?_of_pads hsign' hbody hpads',
      unsigned?_isSome_iff, unsigned?_isSome_iff]
  · exact fun s c hc hword => hnone (not_literal_of_wordLetter hc hword)
  · exact fun s first second rest hfirst hsecond hpads =>
      hnone (not_literal_of_signs hfirst hsecond hpads)
  · intro s sign negative stub hstub hsign hpads
    rw [parse?_of_pads hsign (startsUnsigned_of_stub stub hstub) hpads]
    exact unsigned?_of_stub stub hstub negative

end ShardQuery.NumericLiteral
