import ShardQuery.Power
import ShardQuery.Text.Numeral

/-!
# Numerals of fixed width

A numeral padded with zeros has exactly its width when the number fits, and reading it gives
the number back. Fields of fixed width can therefore be put side by side and told apart again,
and a field that reads as a number is the only one of its width. Fields of one width are in the
order of their numbers.
-/

namespace ShardQuery.Text

theorem length_renderNat (base n : Nat) : (renderNat base n).length = (digits base n).length := by
  simp [renderNat]

theorem length_digits_le {base width n : Nat} (hw : 0 < width)
    (hn : n < base ^ width) : (digits base n).length ≤ width := by
  induction width generalizing n with
  | zero => omega
  | succ width ih =>
    rw [digits]
    split
    · simp
    · next hlarge =>
      have hwidth : 0 < width := by
        rcases Nat.eq_zero_or_pos width with rfl | h
        · simp at hn
          omega
        · exact h
      have hquot : n / base < base ^ width :=
        Nat.div_lt_of_lt_mul (by rwa [Nat.mul_comm, ← Nat.pow_succ])
      have hrec := ih hwidth hquot
      simp only [List.length_append, List.length_cons, List.length_nil]
      omega

theorem length_padded {base width n : Nat} (hw : 0 < width)
    (hn : n < base ^ width) : (padded base width n).length = width := by
  have hle := length_digits_le hw hn
  rw [← length_renderNat] at hle
  simp only [padded, List.length_append, List.length_replicate]
  omega

theorem exists_digit_of_mem_padded {base width n : Nat} (hb : 2 ≤ base) {c : Char}
    (h : c ∈ padded base width n) : ∃ d < base, c = digitChar d := by
  rcases List.mem_append.1 h with h | h
  · exact ⟨0, by omega, List.eq_of_mem_replicate h⟩
  · exact exists_digit_of_mem_renderNat hb h

private theorem ofDigits_zeros (base k : Nat) (ds : List Nat) :
    ofDigits base (List.replicate k 0 ++ ds) = ofDigits base ds := by
  induction k with
  | zero => rfl
  | succ k ih =>
    rw [← ih]
    simp [ofDigits, List.replicate_succ]

theorem readNat?_padded {base : Nat} (hb : 2 ≤ base) (hb' : base ≤ 36) (width n : Nat) :
    readNat? base (padded base width n) = some n := by
  let zeros := width - (renderNat base n).length
  have hmap : padded base width n = (List.replicate zeros 0 ++ digits base n).map digitChar := by
    simp [padded, zeros, renderNat, digitChar]
  have hlt : ∀ d ∈ List.replicate zeros 0 ++ digits base n, d < base := by
    intro d hd
    rcases List.mem_append.1 hd with hd | hd
    · rw [List.eq_of_mem_replicate hd]
      omega
    · exact digits_lt hb n d hd
  rw [hmap, readNat?_map_digitChar hb' (by simp [digits_ne_nil]) hlt, ofDigits_zeros,
    ofDigits_digits]

theorem padded_injective {base : Nat} (hb : 2 ≤ base) (hb' : base ≤ 36) (width : Nat) {m n : Nat}
    (h : padded base width m = padded base width n) : m = n := by
  have hm := readNat?_padded hb hb' width m
  rw [h, readNat?_padded hb hb' width n] at hm
  exact (Option.some.inj hm).symm

theorem ofDigits_cons (base d : Nat) (ds : List Nat) :
    ofDigits base (d :: ds) = d * base ^ ds.length + ofDigits base ds := by
  have hfold : ∀ (ds : List Nat) (n : Nat),
      ds.foldl (fun n d => n * base + d) n = n * base ^ ds.length + ofDigits base ds := by
    intro ds
    induction ds with
    | nil => simp [ofDigits]
    | cons e ds ih =>
      intro n
      have hcons : ofDigits base (e :: ds) =
          (0 * base + e) * base ^ ds.length + ofDigits base ds := ih _
      rw [List.foldl_cons, ih, hcons, List.length_cons, Nat.pow_succ, Nat.add_mul, Nat.mul_assoc,
        Nat.mul_comm base, Nat.zero_mul, Nat.zero_add, Nat.add_assoc]
  rw [ofDigits, List.foldl_cons, hfold]
  simp

theorem ofDigits_append (base : Nat) (ds es : List Nat) :
    ofDigits base (ds ++ es) = ofDigits base ds * base ^ es.length + ofDigits base es := by
  induction ds with
  | nil => simp [ofDigits]
  | cons d ds ih =>
    rw [List.cons_append, ofDigits_cons, ofDigits_cons, ih, List.length_append, Nat.pow_add,
      Nat.add_mul, Nat.mul_assoc, Nat.add_assoc]

theorem ofDigits_lt {base : Nat} {ds : List Nat} (h : ∀ d ∈ ds, d < base) :
    ofDigits base ds < base ^ ds.length := by
  induction ds with
  | nil => simp [ofDigits]
  | cons d ds ih =>
    have hd : d + 1 ≤ base := h d (by simp)
    have hrest := ih fun e he => h e (by simp [he])
    rw [ofDigits_cons, List.length_cons, Nat.pow_succ, Nat.mul_comm _ base]
    calc d * base ^ ds.length + ofDigits base ds
        < d * base ^ ds.length + base ^ ds.length := Nat.add_lt_add_left hrest _
      _ = (d + 1) * base ^ ds.length := (Nat.succ_mul ..).symm
      _ ≤ base * base ^ ds.length := Nat.mul_le_mul_right _ hd

theorem ofDigits_injective {base : Nat} {ds es : List Nat} (hlen : ds.length = es.length)
    (hds : ∀ d ∈ ds, d < base) (hes : ∀ e ∈ es, e < base)
    (h : ofDigits base ds = ofDigits base es) : ds = es := by
  induction ds generalizing es with
  | nil => exact (List.length_eq_zero_iff.1 hlen.symm).symm
  | cons d ds ih =>
    cases es with
    | nil => cases hlen
    | cons e es =>
      have hlen : ds.length = es.length := Nat.succ.inj hlen
      have hds' : ∀ d ∈ ds, d < base := fun x hx => hds x (by simp [hx])
      have hes' : ∀ e ∈ es, e < base := fun x hx => hes x (by simp [hx])
      have hd := ofDigits_lt hds'
      have he := ofDigits_lt hes'
      rw [ofDigits_cons, ofDigits_cons, hlen] at h
      rw [hlen] at hd
      -- the first digit is the quotient by the value of its place, the others are the remainder
      have hpos : 0 < base ^ es.length := by omega
      have hfirst := congrArg (· / base ^ es.length) h
      have hrest := congrArg (· % base ^ es.length) h
      simp only [Nat.mul_comm _ (base ^ es.length), Nat.mul_add_div hpos, Nat.div_eq_of_lt hd,
        Nat.div_eq_of_lt he, Nat.mul_add_mod, Nat.mod_eq_of_lt hd, Nat.mod_eq_of_lt he,
        Nat.add_zero] at hfirst hrest
      rw [hfirst, ih hlen hds' hes' hrest]

theorem lt_of_readNat? {base n : Nat} {cs : List Char} (h : readNat? base cs = some n) :
    n < base ^ cs.length := by
  obtain ⟨ds, rfl, hds, rfl⟩ := exists_digits_of_readNat? h
  rw [List.length_map]
  exact ofDigits_lt hds

theorem eq_padded_of_readNat? {base n : Nat} (hb : 2 ≤ base) (hb' : base ≤ 36) {cs : List Char}
    (h : readNat? base cs = some n) : cs = padded base cs.length n := by
  have hwidth : 0 < cs.length := by
    rcases Nat.eq_zero_or_pos cs.length with hzero | hpos
    · rw [List.length_eq_zero_iff.1 hzero] at h
      cases h
    · exact hpos
  have hlen := length_padded hwidth (lt_of_readNat? h)
  have hpadded := readNat?_padded hb hb' cs.length n
  generalize padded base cs.length n = ps at hlen hpadded ⊢
  obtain ⟨ds, rfl, hds, hn⟩ := exists_digits_of_readNat? h
  obtain ⟨es, rfl, hes, hm⟩ := exists_digits_of_readNat? hpadded
  rw [ofDigits_injective (by simpa using hlen.symm) hds hes (hn.trans hm.symm)]

/-! ## Order -/

theorem toNat_digitChar {d : Nat} (h : d < 36) :
    (digitChar d).toNat = if d < 10 then 48 + d else 87 + d := by
  revert d
  decide

theorem digitChar_lt_iff {d e : Nat} (hd : d < 36) (he : e < 36) :
    digitChar d < digitChar e ↔ d < e := by
  rw [Char.lt_def, UInt32.lt_iff_toNat_lt]
  change (digitChar d).toNat < (digitChar e).toNat ↔ d < e
  rw [toNat_digitChar hd, toNat_digitChar he]
  split <;> split <;> omega

theorem digitChar_injective {d e : Nat} (hd : d < 36) (he : e < 36)
    (h : digitChar d = digitChar e) : d = e := by
  have hread := digitValue?_digitChar hd
  rw [h, digitValue?_digitChar he] at hread
  exact (Option.some.inj hread).symm

/-- Of texts whose first parts are equally long the first parts decide, unless they are equal. -/
theorem append_lt_append_iff {as bs cs ds : List Char} (h : as.length = cs.length) :
    as ++ bs < cs ++ ds ↔ as < cs ∨ as = cs ∧ bs < ds := by
  induction as generalizing cs with
  | nil =>
    rw [List.length_eq_zero_iff.1 h.symm]
    simp
  | cons a as ih =>
    cases cs with
    | nil => cases h
    | cons c cs =>
      rw [List.cons_append, List.cons_append, List.cons_lt_cons_iff, List.cons_lt_cons_iff,
        ih (Nat.succ.inj h), List.cons.injEq]
      grind

private theorem mul_add_lt_of_lt {place d e rest rest' : Nat} (h : d < e) (hrest : rest < place) :
    d * place + rest < e * place + rest' :=
  calc d * place + rest
    _ < d * place + place := Nat.add_lt_add_left hrest _
    _ = (d + 1) * place := (Nat.succ_mul ..).symm
    _ ≤ e * place := Nat.mul_le_mul_right _ h
    _ ≤ e * place + rest' := Nat.le_add_right ..

theorem map_digitChar_lt_iff {base : Nat} (hb : base ≤ 36) {ds es : List Nat}
    (hlen : ds.length = es.length) (hds : ∀ d ∈ ds, d < base) (hes : ∀ e ∈ es, e < base) :
    ds.map digitChar < es.map digitChar ↔ ofDigits base ds < ofDigits base es := by
  induction ds generalizing es with
  | nil =>
    rw [List.length_eq_zero_iff.1 hlen.symm]
    simp
  | cons d ds ih =>
    cases es with
    | nil => cases hlen
    | cons e es =>
      have hlen : ds.length = es.length := Nat.succ.inj hlen
      obtain ⟨hd, hds⟩ := List.forall_mem_cons.1 hds
      obtain ⟨he, hes⟩ := List.forall_mem_cons.1 hes
      have hd36 := Nat.lt_of_lt_of_le hd hb
      have he36 := Nat.lt_of_lt_of_le he hb
      have hrest := ofDigits_lt hds
      have hrest' := ofDigits_lt hes
      rw [hlen] at hrest
      rw [List.map_cons, List.map_cons, List.cons_lt_cons_iff, ih hlen hds hes,
        digitChar_lt_iff hd36 he36, ofDigits_cons, ofDigits_cons, hlen]
      rcases Nat.lt_trichotomy d e with hlt | rfl | hgt
      · simp [hlt, mul_add_lt_of_lt hlt hrest]
      · simp
      · have hne : digitChar d ≠ digitChar e := fun h => by
          have := digitChar_injective hd36 he36 h
          omega
        have hnot : e * base ^ es.length + ofDigits base es <
            d * base ^ es.length + ofDigits base ds := mul_add_lt_of_lt hgt hrest'
        simp only [hne, false_and, or_false]
        omega

theorem padded_lt_padded_iff {base width m n : Nat} (hb : 2 ≤ base) (hb' : base ≤ 36)
    (hw : 0 < width) (hm : m < base ^ width) (hn : n < base ^ width) :
    padded base width m < padded base width n ↔ m < n := by
  obtain ⟨ds, hds, hdigits, rfl⟩ := exists_digits_of_readNat? (readNat?_padded hb hb' width m)
  obtain ⟨es, hes, hdigits', rfl⟩ := exists_digits_of_readNat? (readNat?_padded hb hb' width n)
  have hlen := length_padded hw hm
  have hlen' := length_padded hw hn
  rw [hds, List.length_map] at hlen
  rw [hes, List.length_map] at hlen'
  rw [hds, hes, map_digitChar_lt_iff hb' (hlen.trans hlen'.symm) hdigits hdigits']

end ShardQuery.Text
