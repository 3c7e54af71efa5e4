import Mathlib.Data.String.Basic
import ShardQuery.Holes.Day
import ShardQuery.Proofs.Text.DigitRun
import ShardQuery.Proofs.Text.FixedWidth
import ShardQuery.Proofs.Text.Padding
import ShardQuery.Proofs.Time.CalendarOrder

/-!
# Spellings of a day

Eight digits `yyyyMMdd` of a day of the calendar are read as that day, and such texts are in the
order of their days. A day text of eight bytes is of this form unless it holds a blank, which leaves
room for a signed or shorter year or for a month or day of one digit.
-/

namespace ShardQuery.DayText

/-- The eight digits `yyyyMMdd` of a date. -/
def digitsOf (d : Date) : List Char :=
  Text.padded 10 4 d.year.toNat ++ (Text.padded 10 2 d.month ++ Text.padded 10 2 d.day)

/-- A text is the eight digits of a day of the calendar. -/
structure Names (s : String) (d : Date) : Prop where
  isValid : d.isValid = true
  year : 0 ≤ d.year ∧ d.year ≤ 9999
  toList : s.toList = digitsOf d

def Unspaced (cs : List Char) : Prop := ∀ c ∈ cs, Text.isBlank c = false

instance (cs : List Char) : Decidable (Unspaced cs) := List.decidableBAll _ cs

theorem fits_of_isValid {d : Date} (hd : d.isValid = true) : d.month < 10 ^ 2 ∧ d.day < 10 ^ 2 := by
  obtain ⟨⟨-, hmonth⟩, -, hday⟩ := Date.isValid_iff.1 hd
  have hlength := Date.daysInMonth_le d.year d.month
  omega

/-! ## Reading eight digits -/

theorem isDigit_of_mem_padded {width n : Nat} {c : Char} (h : c ∈ Text.padded 10 width n) :
    c.isDigit = true :=
  Text.isDigit_iff.2 (Text.exists_digit_of_mem_padded (by decide) h)

theorem isBlank_of_isDigit {c : Char} (h : c.isDigit = true) : Text.isBlank c = false :=
  Text.of_isDigit (p := fun c => Text.isBlank c = false) (fun _ => Text.isBlank_digitChar) h

theorem trimStart_of_unspaced {cs : List Char} (h : Unspaced cs) : Text.trimStart cs = cs :=
  Text.trimStart_eq_self fun c hc => h c (List.mem_of_mem_head? hc)

theorem number?_padded {width n : Nat} (hw : 0 < width) (hn : n < 10 ^ width) {rest : List Char}
    (hrest : ∀ c ∈ rest, c.isDigit = true) :
    number? width (Text.padded 10 width n ++ rest) = some (n, rest) := by
  have hlen := Text.length_padded hw hn
  have hdigits : ∀ c ∈ Text.padded 10 width n ++ rest, c.isDigit = true := by
    intro c hc
    exact (List.mem_append.1 hc).elim isDigit_of_mem_padded (hrest c)
  have htrim := trimStart_of_unspaced fun c hc => isBlank_of_isDigit (hdigits c hc)
  have htake : ((Text.padded 10 width n ++ rest).takeWhile Char.isDigit).take width =
      Text.padded 10 width n := by
    rw [List.takeWhile_eq_self_iff.2 hdigits]
    exact List.take_left' hlen
  simp only [number?, htrim, htake, Text.readNat?_padded (show 2 ≤ 10 by decide) (by decide),
    Option.map_some]
  rw [List.drop_left' rfl]

theorem year?_of_isDigit {c : Char} (hc : c.isDigit = true) (cs : List Char) :
    year? (c :: cs) = (number? 4 (c :: cs)).map fun r => ((r.1 : Int), r.2) := by
  have htrim : Text.trimStart (c :: cs) = c :: cs :=
    Text.trimStart_eq_self fun x hx => by
      cases hx
      exact isBlank_of_isDigit hc
  rw [year?, htrim]
  split
  · next heq =>
    cases heq
    cases hc
  · next heq =>
    cases heq
    cases hc
  · rfl

theorem parseChars?_digitsOf {d : Date} (hd : d.isValid = true) (hyear : 0 ≤ d.year ∧ d.year ≤ 9999) :
    parseChars? (digitsOf d) = some d := by
  obtain ⟨hmonth, hday⟩ := fits_of_isValid hd
  have hnat : d.year.toNat < 10 ^ 4 := by omega
  have hback : ((d.year.toNat : Nat) : Int) = d.year := Int.toNat_of_nonneg hyear.1
  have hlen : (Text.padded 10 4 d.year.toNat).length = 4 := Text.length_padded (by decide) hnat
  have htail : ∀ c ∈ Text.padded 10 2 d.month ++ Text.padded 10 2 d.day, c.isDigit = true := by
    intro c hc
    exact (List.mem_append.1 hc).elim isDigit_of_mem_padded isDigit_of_mem_padded
  have hread := number?_padded (by decide) hnat htail
  have hreadYear : year? (digitsOf d) =
      some (d.year, Text.padded 10 2 d.month ++ Text.padded 10 2 d.day) := by
    rw [digitsOf]
    cases hfield : Text.padded 10 4 d.year.toNat with
    | nil => simp [hfield] at hlen
    | cons c cs =>
      have hc : c.isDigit = true := isDigit_of_mem_padded (hfield ▸ List.mem_cons_self)
      rw [hfield] at hread
      rw [List.cons_append, year?_of_isDigit hc, ← List.cons_append, hread, Option.map_some, hback]
  have hreadMonth := number?_padded (by decide) hmonth
    fun c (hc : c ∈ Text.padded 10 2 d.day) => isDigit_of_mem_padded hc
  have hreadDay : number? 2 (Text.padded 10 2 d.day) = some (d.day, []) := by
    have hread : number? 2 (Text.padded 10 2 d.day ++ []) = some (d.day, []) :=
      number?_padded (by decide) hday (by simp)
    rwa [List.append_nil] at hread
  simp only [parseChars?, hreadYear, hreadMonth, hreadDay, Option.bind_eq_bind, Option.bind_some,
    List.isEmpty_nil, hd, and_self, if_true]

/-! ## Texts without blank -/

theorem number?_eq_some {width n : Nat} {cs rest : List Char} (hcs : Unspaced cs)
    (h : number? width cs = some (n, rest)) :
    ∃ ds, cs = ds ++ rest ∧ ds = (cs.takeWhile Char.isDigit).take width ∧
      Text.readNat? 10 ds = some n := by
  rw [number?, trimStart_of_unspaced hcs] at h
  obtain ⟨m, hread, hpair⟩ := Option.map_eq_some_iff.1 h
  cases hpair
  refine ⟨_, ?_, rfl, hread⟩
  have hprefix : (cs.takeWhile Char.isDigit).take width <+: cs :=
    (List.take_prefix _ _).trans (List.takeWhile_prefix _)
  exact (List.prefix_iff_eq_append.1 hprefix).symm

theorem utf8Size_of_readNat? {n : Nat} {ds : List Char} (h : Text.readNat? 10 ds = some n) :
    ∀ c ∈ ds, c.utf8Size = 1 := by
  obtain ⟨es, rfl, hes, -⟩ := Text.exists_digits_of_readNat? h
  intro c hc
  obtain ⟨e, he, rfl⟩ := List.mem_map.1 hc
  exact Text.utf8Size_digitChar (Nat.lt_trans (hes e he) (by decide))

/-- After a sign the year takes all digits there are, and without blank no month can follow. -/
theorem number?_after_signed {sign year : Int} {cs rest : List Char} (hcs : Unspaced cs)
    (h : year?.signed sign cs = some (year, rest)) (width : Nat) : number? width rest = none := by
  rw [year?.signed] at h
  obtain ⟨n, -, hpair⟩ := Option.map_eq_some_iff.1 h
  cases hpair
  have hrest : cs.drop (cs.takeWhile Char.isDigit).length = cs.dropWhile Char.isDigit :=
    calc cs.drop (cs.takeWhile Char.isDigit).length
      _ = (cs.takeWhile Char.isDigit ++ cs.dropWhile Char.isDigit).drop
            (cs.takeWhile Char.isDigit).length := by rw [List.takeWhile_append_dropWhile]
      _ = cs.dropWhile Char.isDigit := List.drop_left
  have hnone : ([] ++ cs.dropWhile Char.isDigit).takeWhile Char.isDigit = [] :=
    Text.takeWhile_isDigit_append (by simp) fun c hc => by
      have hhead := List.head?_dropWhile_not Char.isDigit cs
      rwa [Option.mem_def.1 hc] at hhead
  rw [List.nil_append] at hnone
  have hunspaced : Unspaced (cs.dropWhile Char.isDigit) :=
    fun c hc => hcs c ((List.dropWhile_sublist _).mem hc)
  rw [number?, hrest, trimStart_of_unspaced hunspaced, hnone, List.take_nil]
  rfl

/-- A year that is read without a sign, as without blank one always is before a month. -/
theorem year?_eq_some {cs rest : List Char} {year : Int} (hcs : Unspaced cs)
    (h : year? cs = some (year, rest)) {month : Nat × List Char} {width : Nat}
    (hmonth : number? width rest = some month) :
    ∃ n : Nat, year = n ∧ number? 4 cs = some (n, rest) := by
  rw [year?, trimStart_of_unspaced hcs] at h
  split at h
  · next after =>
    have hnone := number?_after_signed (fun c hc => hcs c (List.mem_cons_of_mem _ hc)) h width
    rw [hnone] at hmonth
    cases hmonth
  · next after =>
    have hnone := number?_after_signed (fun c hc => hcs c (List.mem_cons_of_mem _ hc)) h width
    rw [hnone] at hmonth
    cases hmonth
  · obtain ⟨⟨n, left⟩, hread, hpair⟩ := Option.map_eq_some_iff.1 h
    cases hpair
    exact ⟨n, rfl, hread⟩

/-- Without blank a day is read from at most four, two and two digits, with nothing else between
them, so eight bytes leave no choice. -/
theorem names_of_parseChars? {s : String} {d : Date} (hbytes : Text.byteLength s.toList = 8)
    (hs : Unspaced s.toList) (h : parseChars? s.toList = some d) : Names s d := by
  simp only [parseChars?, bind, Option.bind_eq_some_iff] at h
  obtain ⟨⟨year, cs₁⟩, hyear, ⟨month, cs₂⟩, hmonth, ⟨day, cs₃⟩, hday, h⟩ := h
  split at h
  · next hend =>
    obtain ⟨hempty, hvalid⟩ := hend
    cases h
    dsimp only at hmonth hday hempty hvalid ⊢
    obtain ⟨n, rfl, hnumber⟩ := year?_eq_some hs hyear hmonth
    obtain ⟨ds, hsplit, hds, hreadYear⟩ := number?_eq_some hs hnumber
    have hs₁ : Unspaced cs₁ := fun c hc => hs c (hsplit ▸ List.mem_append_right _ hc)
    obtain ⟨es, rfl, hes, hreadMonth⟩ := number?_eq_some hs₁ hmonth
    have hs₂ : Unspaced cs₂ := fun c hc => hs₁ c (List.mem_append_right _ hc)
    obtain ⟨fs, rfl, hfs, hreadDay⟩ := number?_eq_some hs₂ hday
    rw [List.isEmpty_iff.1 hempty, List.append_nil] at hsplit
    have hlength : ds.length + (es.length + fs.length) = 8 := by
      rw [← hbytes, hsplit, Text.byteLength_eq_length, List.length_append, List.length_append]
      intro c hc
      simp only [List.mem_append] at hc
      rcases hc with hc | hc | hc
      · exact utf8Size_of_readNat? hreadYear c hc
      · exact utf8Size_of_readNat? hreadMonth c hc
      · exact utf8Size_of_readNat? hreadDay c hc
    have hwidthYear : ds.length ≤ 4 := hds ▸ List.length_take_le ..
    have hwidthMonth : es.length ≤ 2 := hes ▸ List.length_take_le ..
    have hwidthDay : fs.length ≤ 2 := hfs ▸ List.length_take_le ..
    have hfour : ds.length = 4 := by omega
    have htwo : es.length = 2 := by omega
    have htwo' : fs.length = 2 := by omega
    have hpaddedYear := Text.eq_padded_of_readNat? (by decide) (by decide) hreadYear
    have hpaddedMonth := Text.eq_padded_of_readNat? (by decide) (by decide) hreadMonth
    have hpaddedDay := Text.eq_padded_of_readNat? (by decide) (by decide) hreadDay
    have hlt := Text.lt_of_readNat? hreadYear
    rw [hfour] at hpaddedYear hlt
    rw [htwo] at hpaddedMonth
    rw [htwo'] at hpaddedDay
    have hyear : n ≤ 9999 := Nat.le_of_lt_succ hlt
    refine ⟨hvalid, ⟨Int.natCast_nonneg n, Int.ofNat_le.2 hyear⟩, ?_⟩
    rw [hsplit, digitsOf, hpaddedYear, hpaddedMonth, hpaddedDay]
    rfl
  · cases h

theorem exists_parseChars?_of_isValid {s : String} (h : isValid s = true) :
    ∃ d, parseChars? s.toList = some d ∧ d.isValid = true := by
  obtain ⟨-, hsome⟩ := Bool.and_eq_true_iff.1 h
  obtain ⟨d, hd⟩ := Option.isSome_iff_exists.1 hsome
  refine ⟨d, hd, ?_⟩
  simp only [parseChars?, bind, Option.bind_eq_some_iff] at hd
  obtain ⟨_, _, _, _, _, _, hd⟩ := hd
  split at hd
  · next hend =>
    cases hd
    exact hend.2
  · cases hd

/-- The texts of eight digits are the day texts without blank. -/
theorem names_iff {s : String} {d : Date} :
    Names s d ↔ isValid s = true ∧ Unspaced s.toList ∧ parseChars? s.toList = some d := by
  constructor
  · rintro ⟨hd, hyear, hs⟩
    have hparse := parseChars?_digitsOf hd hyear
    have hdigits : ∀ c ∈ digitsOf d, c.isDigit = true := by
      intro c hc
      simp only [digitsOf, List.mem_append] at hc
      rcases hc with hc | hc | hc <;> exact isDigit_of_mem_padded hc
    have hbytes : Text.byteLength (digitsOf d) = 8 := by
      obtain ⟨hmonth, hday⟩ := fits_of_isValid hd
      rw [Text.byteLength_eq_length]
      · rw [digitsOf, List.length_append, List.length_append,
          Text.length_padded (by decide) (by omega), Text.length_padded (by decide) hmonth,
          Text.length_padded (by decide) hday]
      · intro c hc
        obtain ⟨e, he, rfl⟩ := Text.isDigit_iff.1 (hdigits c hc)
        exact Text.utf8Size_digitChar (Nat.lt_trans he (by decide))
    rw [isValid, hs, hbytes, hparse]
    exact ⟨rfl, fun c hc => isBlank_of_isDigit (hdigits c hc), rfl⟩
  · rintro ⟨hvalid, hs, hparse⟩
    have hbytes := (Bool.and_eq_true_iff.1 hvalid).1
    exact names_of_parseChars? (of_decide_eq_true hbytes) hs hparse

/-! ## Order -/

theorem digitsOf_lt_iff {a b : Date} (ha : a.isValid = true) (hb : b.isValid = true)
    (hayear : 0 ≤ a.year ∧ a.year ≤ 9999) (hbyear : 0 ≤ b.year ∧ b.year ≤ 9999) :
    digitsOf a < digitsOf b ↔ a.Before b := by
  obtain ⟨hamonth, haday⟩ := fits_of_isValid ha
  obtain ⟨hbmonth, hbday⟩ := fits_of_isValid hb
  have hafour : a.year.toNat < 10 ^ 4 := by omega
  have hbfour : b.year.toNat < 10 ^ 4 := by omega
  have hten : 2 ≤ 10 ∧ 10 ≤ 36 := by decide
  have hfield {width m n : Nat} (hw : 0 < width) (hm : m < 10 ^ width) (hn : n < 10 ^ width) :
      (Text.padded 10 width m).length = (Text.padded 10 width n).length ∧
      (Text.padded 10 width m < Text.padded 10 width n ↔ m < n) ∧
      (Text.padded 10 width m = Text.padded 10 width n ↔ m = n) :=
    ⟨(Text.length_padded hw hm).trans (Text.length_padded hw hn).symm,
      Text.padded_lt_padded_iff hten.1 hten.2 hw hm hn,
      Text.padded_injective hten.1 hten.2 width, fun h => h ▸ rfl⟩
  obtain ⟨hyearLength, hyearLt, hyearEq⟩ := hfield (by decide) hafour hbfour
  obtain ⟨hmonthLength, hmonthLt, hmonthEq⟩ := hfield (by decide) hamonth hbmonth
  obtain ⟨-, hdayLt, -⟩ := hfield (by decide) haday hbday
  rw [digitsOf, digitsOf, Text.append_lt_append_iff hyearLength,
    Text.append_lt_append_iff hmonthLength, hyearLt, hyearEq, hmonthLt, hmonthEq, hdayLt, Date.Before]
  omega

theorem Names.le_iff {s t : String} {a b : Date} (hs : Names s a) (ht : Names t b) :
    s ≤ t ↔ a.toDays ≤ b.toDays := by
  rw [← String.not_lt, String.lt_iff_toList_lt, hs.toList, ht.toList,
    digitsOf_lt_iff ht.isValid hs.isValid ht.year hs.year, ← Date.toDays_lt_iff ht.isValid hs.isValid,
    Int.not_lt]

end ShardQuery.DayText
