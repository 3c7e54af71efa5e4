import Mathlib.Algebra.Order.Field.Basic
import Mathlib.Data.Rat.Cast.Order
import Mathlib.Tactic.NormNum
import Mathlib.Tactic.Ring
import ShardQuery.Binary64.Decimal
import ShardQuery.Proofs.Text.FixedWidth

/-!
# Overflow of doubles

Between the greatest double and the power of two after it lies the point from which rounding leaves
the format, a tie there going to the even side above. A ratio or a decimal has a nearest double
exactly when it is below this point.
-/

namespace ShardQuery.Binary64

/-- The point halfway between the greatest double and `2 ^ 1024`. -/
@[irreducible]
def overflowBound : Nat := 2 ^ 1024 - 2 ^ 970

/-- The whole number nearest to a quotient, a tie to the even one. -/
def roundedQuotient (a d : Nat) : Nat :=
  a / d + if decide (d < 2 * (a % d)) || (decide (2 * (a % d) = d) && a / d % 2 = 1) then 1 else 0

/-- How many doublings of the smallest number the unit in the last place of a ratio is. -/
def lastPlace (numerator denominator : Nat) : Nat :=
  (numerator * unitsPerOne / denominator).log2 - 52

theorem roundMagnitude_eq (numerator denominator : Nat) :
    roundMagnitude numerator denominator = lastPlace numerator denominator * 2 ^ 52 +
      roundedQuotient (numerator * unitsPerOne)
        (denominator * 2 ^ lastPlace numerator denominator) := by
  rw [roundMagnitude, roundedQuotient, lastPlace, Nat.add_assoc]

theorem roundedQuotient_le (a d : Nat) : roundedQuotient a d ≤ a / d + 1 := by
  rw [roundedQuotient]
  split <;> omega

theorem div_le_roundedQuotient (a d : Nat) : a / d ≤ roundedQuotient a d := Nat.le_add_right ..

/-- An even number is reached from half a unit below it on. -/
theorem le_roundedQuotient_iff {a d n : Nat} (hd : 0 < d) (hn : 0 < n) (heven : n % 2 = 0) :
    n ≤ roundedQuotient a d ↔ (2 * n - 1) * d ≤ 2 * a := by
  have hdiv := Nat.div_add_mod a d
  have hmod := Nat.mod_lt a hd
  rw [roundedQuotient]
  generalize a / d = q at *
  generalize a % d = r at *
  subst hdiv
  rcases Nat.lt_trichotomy n (q + 1) with hlt | rfl | hgt
  · have hle : (2 * n - 1) * d ≤ 2 * q * d := Nat.mul_le_mul_right d (by omega)
    rw [Nat.mul_assoc, Nat.mul_comm q d] at hle
    constructor <;> intro <;> omega
  · have hhalf : (2 * (q + 1) - 1) * d = 2 * (d * q) + d := by
      rw [show 2 * (q + 1) - 1 = 2 * q + 1 by omega, Nat.succ_mul, Nat.mul_assoc, Nat.mul_comm q d]
    rw [hhalf]
    simp only [Bool.or_eq_true, Bool.and_eq_true, decide_eq_true_eq]
    split <;> omega
  · have hle : (2 * (q + 1) + 1) * d ≤ (2 * n - 1) * d := Nat.mul_le_mul_right d (by omega)
    have hfar : (2 * (q + 1) + 1) * d = 2 * (d * q) + 3 * d := by ring
    rw [hfar] at hle
    constructor
    · split <;> omega
    · omega

/-- A ratio has 53 digits before its last place, or fewer if that is the smallest there is. -/
theorem lastPlace_spec (numerator : Nat) {denominator : Nat} (hd : 0 < denominator) :
    numerator * unitsPerOne < denominator * 2 ^ (lastPlace numerator denominator + 53) ∧
      (0 < lastPlace numerator denominator →
        denominator * 2 ^ (lastPlace numerator denominator + 52) ≤ numerator * unitsPerOne) := by
  rw [lastPlace]
  generalize numerator * unitsPerOne = scaled
  constructor
  · have hlt : scaled / denominator < 2 ^ ((scaled / denominator).log2 - 52 + 53) :=
      Nat.lt_of_lt_of_le Nat.lt_log2_self (Nat.pow_le_pow_right (by decide) (by omega))
    rw [Nat.mul_comm]
    exact (Nat.div_lt_iff_lt_mul hd).1 hlt
  · intro hpos
    have hne : scaled / denominator ≠ 0 := by
      intro hzero
      rw [hzero] at hpos
      exact absurd hpos (by decide)
    have hle := Nat.log2_self_le hne
    rw [show (scaled / denominator).log2 - 52 + 52 = (scaled / denominator).log2 by omega]
    rw [Nat.mul_comm]
    exact (Nat.le_div_iff_mul_le hd).1 hle

theorem unitsPerOne_pos : 0 < unitsPerOne := by decide +kernel

theorem overflowBound_units : overflowBound * (2 * unitsPerOne) = (2 * 2 ^ 53 - 1) * 2 ^ 2045 := by
  decide +kernel

theorem one_le_overflowBound : 1 ≤ overflowBound := by decide +kernel

theorem wide_le_overflowBound : 2 ^ 64 ≤ overflowBound := by decide +kernel

theorem lt_overflowBound {n : Nat} (h : n < 2 ^ 64) : n < overflowBound :=
  Nat.lt_of_lt_of_le h wide_le_overflowBound

theorem two_pow_le_overflowBound {e : Nat} (h : e ≤ 2097) : 2 ^ e ≤ overflowBound * unitsPerOne :=
  Nat.le_trans (Nat.pow_le_pow_right (by decide) h) (by decide +kernel)

theorem overflowBound_le_ten_pow {e : Nat} (h : 310 ≤ e) : overflowBound ≤ 10 ^ e :=
  Nat.le_trans (by decide +kernel) (Nat.pow_le_pow_right (by decide) h)

theorem overflowBound_le_two_pow {e : Nat} (h : 2098 ≤ e) : overflowBound * unitsPerOne ≤ 2 ^ e :=
  Nat.le_trans (by decide +kernel) (Nat.pow_le_pow_right (by decide) h)

section

variable {numerator denominator place : Nat}

private theorem finite_of_place_lt (hd : 0 < denominator) (hplace : place < 2045)
    (hupper : numerator * unitsPerOne < denominator * 2 ^ (place + 53)) :
    place * 2 ^ 52 + roundedQuotient (numerator * unitsPerOne) (denominator * 2 ^ place) <
        infinityWord ∧
      numerator < overflowBound * denominator := by
  constructor
  · have hquotient : numerator * unitsPerOne / (denominator * 2 ^ place) < 2 ^ 53 := by
      rw [Nat.div_lt_iff_lt_mul (Nat.mul_pos hd (Nat.two_pow_pos place))]
      calc numerator * unitsPerOne
        _ < denominator * 2 ^ (place + 53) := hupper
        _ = 2 ^ 53 * (denominator * 2 ^ place) := by rw [Nat.pow_add]; ring
    have hle := roundedQuotient_le (numerator * unitsPerOne) (denominator * 2 ^ place)
    have hplaces : place * 2 ^ 52 ≤ 2044 * 2 ^ 52 := Nat.mul_le_mul_right _ (by omega)
    rw [infinityWord]
    omega
  · refine Nat.lt_of_mul_lt_mul_right (a := unitsPerOne) ?_
    calc numerator * unitsPerOne
      _ < denominator * 2 ^ (place + 53) := hupper
      _ ≤ denominator * (overflowBound * unitsPerOne) :=
          Nat.mul_le_mul_left _ (two_pow_le_overflowBound (by omega))
      _ = overflowBound * denominator * unitsPerOne := by ring

private theorem infinite_of_lt_place (hplace : 2045 < place)
    (hlower : denominator * 2 ^ (place + 52) ≤ numerator * unitsPerOne) (hd : 0 < denominator) :
    infinityWord ≤
        place * 2 ^ 52 + roundedQuotient (numerator * unitsPerOne) (denominator * 2 ^ place) ∧
      overflowBound * denominator ≤ numerator := by
  constructor
  · have hquotient : 2 ^ 52 ≤ numerator * unitsPerOne / (denominator * 2 ^ place) := by
      rw [Nat.le_div_iff_mul_le (Nat.mul_pos hd (Nat.two_pow_pos place))]
      calc 2 ^ 52 * (denominator * 2 ^ place)
        _ = denominator * 2 ^ (place + 52) := by rw [Nat.pow_add]; ring
        _ ≤ numerator * unitsPerOne := hlower
    have hle := div_le_roundedQuotient (numerator * unitsPerOne) (denominator * 2 ^ place)
    have hplaces : 2046 * 2 ^ 52 ≤ place * 2 ^ 52 := Nat.mul_le_mul_right _ (by omega)
    rw [infinityWord]
    omega
  · refine Nat.le_of_mul_le_mul_right (c := unitsPerOne) ?_ unitsPerOne_pos
    calc overflowBound * denominator * unitsPerOne
      _ = denominator * (overflowBound * unitsPerOne) := by ring
      _ ≤ denominator * 2 ^ (place + 52) :=
          Nat.mul_le_mul_left _ (overflowBound_le_two_pow (by omega))
      _ ≤ numerator * unitsPerOne := hlower

/-- At the highest place the significand decides. -/
private theorem finite_iff_at_place (hd : 0 < denominator) :
    2045 * 2 ^ 52 + roundedQuotient (numerator * unitsPerOne) (denominator * 2 ^ 2045) <
        infinityWord ↔
      numerator < overflowBound * denominator := by
  have hreach := le_roundedQuotient_iff (a := numerator * unitsPerOne) (n := 2 ^ 53)
    (Nat.mul_pos hd (Nat.two_pow_pos 2045)) (by decide) (by decide)
  have hscale : (2 * 2 ^ 53 - 1) * (denominator * 2 ^ 2045) =
      overflowBound * denominator * (2 * unitsPerOne) := by
    rw [Nat.mul_left_comm, ← overflowBound_units, Nat.mul_left_comm, ← Nat.mul_assoc]
  have hdouble : 2 * (numerator * unitsPerOne) = numerator * (2 * unitsPerOne) := by ring
  have hpos : 0 < 2 * unitsPerOne := Nat.mul_pos (by decide) unitsPerOne_pos
  rw [hscale, hdouble, Nat.mul_le_mul_right_iff hpos] at hreach
  rw [infinityWord]
  omega

end

/-- A ratio rounds to a finite number exactly below the overflow bound. -/
theorem roundMagnitude_lt_infinityWord_iff {numerator denominator : Nat} (hd : 0 < denominator) :
    roundMagnitude numerator denominator < infinityWord ↔
      numerator < overflowBound * denominator := by
  obtain ⟨hupper, hlower⟩ := lastPlace_spec numerator hd
  rw [roundMagnitude_eq]
  rcases Nat.lt_trichotomy (lastPlace numerator denominator) 2045 with hplace | hplace | hplace
  · obtain ⟨hfinite, hlt⟩ := finite_of_place_lt hd hplace hupper
    exact iff_of_true hfinite hlt
  · rw [hplace]
    exact finite_iff_at_place hd
  · obtain ⟨hinfinite, hle⟩ := infinite_of_lt_place hplace (hlower (by omega)) hd
    exact iff_of_false (Nat.not_lt.2 hinfinite) (Nat.not_lt.2 hle)

theorem ofRatio?_isSome_iff {numerator denominator : Nat} (hd : 0 < denominator) (negative : Bool) :
    (ofRatio? negative numerator denominator).isSome ↔ numerator < overflowBound * denominator := by
  rw [← roundMagnitude_lt_infinityWord_iff hd, ofRatio?]
  split <;> simp [*]

/-! ## Finite numbers -/

def IsFinite (x : Binary64) : Prop := x.magnitudeWord < infinityWord

theorem isFinite_ofMagnitude {magnitude : Nat} (h : magnitude < infinityWord) (negative : Bool) :
    (ofMagnitude negative magnitude).IsFinite := by
  rw [infinityWord] at h
  have hword : (ofMagnitude negative magnitude).magnitudeWord = magnitude := by
    rw [magnitudeWord, ofMagnitude, UInt64.toNat_ofNat']
    split <;> omega
  rw [IsFinite, hword]
  exact h

theorem IsFinite.neg {x : Binary64} (h : x.IsFinite) : x.neg.IsFinite := isFinite_ofMagnitude h _

theorem isFinite_of_ofRatio? {negative : Bool} {numerator denominator : Nat} {x : Binary64}
    (h : ofRatio? negative numerator denominator = some x) : x.IsFinite := by
  rw [ofRatio?] at h
  split at h
  · next hlt =>
    cases h
    exact isFinite_ofMagnitude hlt negative
  · cases h

theorem isFinite_ofNat {n : Nat} (h : n < overflowBound) : (ofNat n).IsFinite :=
  isFinite_ofMagnitude ((roundMagnitude_lt_infinityWord_iff Nat.one_pos).2 (by omega)) false

/-! ## Decimals -/

def decimalValue (digits : List Nat) (exponent : Int) : ℚ :=
  (Text.ofDigits 10 digits : ℚ) * 10 ^ exponent

theorem ofDigits_dropWhile_zero (base : Nat) (ds : List Nat) :
    Text.ofDigits base (ds.dropWhile (· = 0)) = Text.ofDigits base ds := by
  induction ds with
  | nil => rfl
  | cons d ds ih =>
    rw [List.dropWhile_cons]
    split
    · next hzero => rw [ih, Text.ofDigits_cons, of_decide_eq_true hzero, Nat.zero_mul, Nat.zero_add]
    · rfl

theorem decimalValue_bounds {digits : List Nat} (hdigits : ∀ d ∈ digits, d < 10)
    (hne : digits ≠ []) (hfirst : ∀ d ∈ digits.head?, d ≠ 0) (exponent : Int) :
    (10 : ℚ) ^ (exponent + digits.length - 1) ≤ decimalValue digits exponent ∧
      decimalValue digits exponent < (10 : ℚ) ^ (exponent + digits.length) := by
  have hten : (10 : ℚ) ≠ 0 := by norm_num
  have hscale : (0 : ℚ) < 10 ^ exponent := zpow_pos (by norm_num) _
  obtain ⟨d, ds, rfl⟩ := List.exists_cons_of_ne_nil hne
  have hlower : (10 : ℚ) ^ ds.length ≤ (Text.ofDigits 10 (d :: ds) : ℚ) := by
    have hpos : 1 ≤ d := Nat.pos_of_ne_zero (hfirst d rfl)
    have hle : 10 ^ ds.length ≤ Text.ofDigits 10 (d :: ds) := by
      rw [Text.ofDigits_cons]
      exact Nat.le_trans (Nat.le_mul_of_pos_left _ hpos) (Nat.le_add_right ..)
    exact_mod_cast hle
  have hupper : (Text.ofDigits 10 (d :: ds) : ℚ) < (10 : ℚ) ^ (d :: ds).length := by
    exact_mod_cast Text.ofDigits_lt hdigits
  rw [decimalValue]
  constructor
  · calc (10 : ℚ) ^ (exponent + (d :: ds).length - 1)
      _ = (10 : ℚ) ^ ds.length * 10 ^ exponent := by
          rw [List.length_cons, Nat.cast_succ, ← add_assoc, add_sub_cancel_right, zpow_add₀ hten,
            zpow_natCast, mul_comm]
      _ ≤ (Text.ofDigits 10 (d :: ds) : ℚ) * 10 ^ exponent :=
          mul_le_mul_of_nonneg_right hlower hscale.le
  · calc (Text.ofDigits 10 (d :: ds) : ℚ) * 10 ^ exponent
      _ < (10 : ℚ) ^ (d :: ds).length * 10 ^ exponent := mul_lt_mul_of_pos_right hupper hscale
      _ = (10 : ℚ) ^ (exponent + (d :: ds).length) := by
          rw [zpow_add₀ hten, zpow_natCast, mul_comm]

theorem isFinite_of_ofDecimal? {negative : Bool} {digits : List Nat} {exponent : Int} {x : Binary64}
    (h : ofDecimal? negative digits exponent = some x) : x.IsFinite := by
  have hzero : (zero negative).IsFinite := isFinite_ofMagnitude (by decide) negative
  rw [ofDecimal?.eq_def] at h
  dsimp only at h
  split at h
  · cases h
    exact hzero
  split at h
  · cases h
  split at h
  · cases h
    exact hzero
  split at h <;> exact isFinite_of_ofRatio? h

/-- A decimal has a nearest double exactly below the overflow bound. -/
theorem ofDecimal?_isSome_iff {digits : List Nat} (hdigits : ∀ d ∈ digits, d < 10)
    (negative : Bool) (exponent : Int) :
    (ofDecimal? negative digits exponent).isSome ↔
      decimalValue digits exponent < (overflowBound : ℚ) := by
  have hvalue : decimalValue digits exponent =
      decimalValue (digits.dropWhile (· = 0)) exponent := by
    rw [decimalValue, decimalValue, ofDigits_dropWhile_zero]
  have hdigits : ∀ d ∈ digits.dropWhile (· = 0), d < 10 :=
    fun d hd => hdigits d ((List.dropWhile_sublist _).mem hd)
  have hfirst : ∀ d ∈ (digits.dropWhile (· = 0)).head?, d ≠ 0 := by
    intro d hd hzero
    have hnot := List.head?_dropWhile_not (fun d => decide (d = 0)) digits
    rw [Option.mem_def.1 hd, hzero] at hnot
    exact absurd hnot (by decide)
  rw [hvalue, ofDecimal?.eq_def]
  generalize digits.dropWhile (· = 0) = ds at hdigits hfirst
  have hone : (1 : ℚ) ≤ overflowBound := by exact_mod_cast one_le_overflowBound
  dsimp only
  split
  · next hempty =>
    rw [List.isEmpty_iff.1 hempty, decimalValue]
    refine iff_of_true rfl ?_
    rw [Text.ofDigits, List.foldl_nil, Nat.cast_zero, zero_mul]
    exact zero_lt_one.trans_le hone
  next hne =>
  obtain ⟨hlower, hupper⟩ :=
    decimalValue_bounds hdigits (mt List.isEmpty_iff.2 hne) hfirst exponent
  split
  · next hhuge =>
    obtain ⟨e, he⟩ : ∃ e : Nat, exponent + ds.length - 1 = e :=
      ⟨_, (Int.toNat_of_nonneg (by omega)).symm⟩
    have hbound : (overflowBound : ℚ) ≤ (10 : ℚ) ^ e := by
      exact_mod_cast overflowBound_le_ten_pow (by omega)
    rw [he, zpow_natCast] at hlower
    exact iff_of_false Bool.false_ne_true (hbound.trans hlower).not_gt
  split
  · next htiny =>
    have hsmall : (10 : ℚ) ^ (exponent + ds.length) ≤ 1 :=
      zpow_le_one_of_nonpos₀ (by norm_num) (by omega)
    exact iff_of_true rfl ((hupper.trans_le hsmall).trans_le hone)
  cases exponent with
  | ofNat e =>
    rw [ofRatio?_isSome_iff Nat.one_pos, decimalValue, Int.ofNat_eq_natCast, zpow_natCast,
      Nat.mul_one]
    norm_cast
  | negSucc e =>
    have hpos : (0 : ℚ) < 10 ^ (e + 1) := by positivity
    rw [ofRatio?_isSome_iff (Nat.pow_pos (by decide)), decimalValue, zpow_negSucc,
      ← div_eq_mul_inv, div_lt_iff₀ hpos]
    norm_cast

end ShardQuery.Binary64
