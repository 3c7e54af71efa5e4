/-! # Positional numerals

Natural numbers in a base from 2 to 36 with lower-case digits. `renderNat` writes no leading zeros and
`readNat?` reads any run of digits; reading what was written gives the number back. -/

namespace ShardQuery.Text

def digits (base n : Nat) : List Nat :=
  if base < 2 ∨ n < base then [n]
  else digits base (n / base) ++ [n % base]
termination_by n
decreasing_by exact Nat.div_lt_self (by omega) (by omega)

def ofDigits (base : Nat) (ds : List Nat) : Nat := ds.foldl (fun n d => n * base + d) 0

def digitChar (d : Nat) : Char := Char.ofNat (if d < 10 then 48 + d else 87 + d)

def digitValue? (c : Char) : Option Nat :=
  if '0' ≤ c ∧ c ≤ '9' then some (c.toNat - 48)
  else if 'a' ≤ c ∧ c ≤ 'z' then some (c.toNat - 87)
  else none

def renderNat (base n : Nat) : List Char := (digits base n).map digitChar

def readNat? (base : Nat) (cs : List Char) : Option Nat :=
  if cs.isEmpty then none
  else do
    let ds ← cs.mapM digitValue?
    if ds.all (· < base) then some (ofDigits base ds) else none

def decimal (n : Nat) : String := String.ofList (renderNat 10 n)

def decimalInt : Int → String
  | .ofNat n => decimal n
  | .negSucc n => "-" ++ decimal (n + 1)

def padded (base width n : Nat) : List Char :=
  let text := renderNat base n
  List.replicate (width - text.length) '0' ++ text

theorem ofDigits_append_singleton (base : Nat) (ds : List Nat) (d : Nat) :
    ofDigits base (ds ++ [d]) = ofDigits base ds * base + d := by
  simp [ofDigits]

theorem ofDigits_digits (base n : Nat) : ofDigits base (digits base n) = n := by
  fun_induction digits base n with
  | case1 n _ => simp [ofDigits]
  | case2 n h ih =>
    rw [ofDigits_append_singleton, ih, Nat.mul_comm]
    exact Nat.div_add_mod n base

theorem digits_lt {base : Nat} (hb : 2 ≤ base) (n : Nat) : ∀ d ∈ digits base n, d < base := by
  fun_induction digits base n with
  | case1 n h => simp; omega
  | case2 n h ih =>
    intro d hd
    rcases List.mem_append.1 hd with hd | hd
    · exact ih d hd
    · rw [List.mem_singleton.1 hd]
      exact Nat.mod_lt _ (by omega)

theorem digits_ne_nil (base n : Nat) : digits base n ≠ [] := by
  fun_cases digits base n <;> simp

theorem digits_ne_zero_cons (base n d : Nat) (ds : List Nat) : digits base n ≠ 0 :: d :: ds := by
  fun_induction digits base n generalizing d ds with
  | case1 n _ => simp
  | case2 n h ih =>
    intro hzero
    cases hfront : digits base (n / base) with
    | nil => exact digits_ne_nil base (n / base) hfront
    | cons e es =>
      rw [hfront, List.cons_append, List.cons.injEq] at hzero
      obtain ⟨rfl, -⟩ := hzero
      cases es with
      | nil =>
        -- the front would be the numeral of zero, but there is more than one digit
        have hvalue : ofDigits base (digits base (n / base)) = 0 := by rw [hfront]; simp [ofDigits]
        rw [ofDigits_digits] at hvalue
        have hpos : 0 < n / base := Nat.div_pos (by omega) (by omega)
        omega
      | cons f es => exact ih f es hfront

theorem digitValue?_digitChar {d : Nat} (h : d < 36) : digitValue? (digitChar d) = some d := by
  revert d
  decide

theorem digitChar_notMem {d : Nat} (h : d < 36) : digitChar d ∉ ['+', '-', '.'] := by
  revert d
  decide

theorem utf8Size_digitChar {d : Nat} (h : d < 36) : (digitChar d).utf8Size = 1 := by
  revert d
  decide

theorem digitChar_of_digitValue? {c : Char} {d : Nat} (h : digitValue? c = some d) : digitChar d = c := by
  unfold digitValue? at h
  split at h
  · next hc =>
    have hlo : 48 ≤ c.toNat := hc.1
    have hhi : c.toNat ≤ 57 := hc.2
    cases h
    rw [digitChar, if_pos (by omega), show 48 + (c.toNat - 48) = c.toNat by omega, Char.ofNat_toNat]
  · split at h
    · next hc =>
      have hlo : 97 ≤ c.toNat := hc.1
      cases h
      rw [digitChar, if_neg (by omega), show 87 + (c.toNat - 87) = c.toNat by omega, Char.ofNat_toNat]
    · cases h

theorem readNat?_map_digitChar {base : Nat} (hb : base ≤ 36) {ds : List Nat} (hne : ds ≠ [])
    (hds : ∀ d ∈ ds, d < base) : readNat? base (ds.map digitChar) = some (ofDigits base ds) := by
  have hread : ∀ ds : List Nat, (∀ d ∈ ds, d < base) →
      (ds.map digitChar).mapM digitValue? = some ds := by
    intro ds
    induction ds with
    | nil => simp
    | cons d ds ih =>
      intro h
      simp [digitValue?_digitChar (show d < 36 from by have := h d (by simp); omega),
        ih fun e he => h e (by simp [he])]
  simp [readNat?, hne, hread _ hds]
  exact hds

theorem exists_digit_of_mem_renderNat {base n : Nat} (hb : 2 ≤ base) {c : Char}
    (h : c ∈ renderNat base n) : ∃ d < base, c = digitChar d := by
  obtain ⟨d, hd, rfl⟩ := List.mem_map.1 h
  exact ⟨d, digits_lt hb n d hd, rfl⟩

theorem exists_digits_of_readNat? {base n : Nat} {cs : List Char} (h : readNat? base cs = some n) :
    ∃ ds, cs = ds.map digitChar ∧ (∀ d ∈ ds, d < base) ∧ ofDigits base ds = n := by
  have hread : ∀ (cs : List Char) (ds : List Nat), cs.mapM digitValue? = some ds →
      cs = ds.map digitChar := by
    intro cs
    induction cs with
    | nil => simp
    | cons c cs ih =>
      intro ds hds
      simp only [List.mapM_cons, bind, pure, Option.bind_eq_some_iff, Option.some.injEq] at hds
      obtain ⟨d, hd, ds, hrest, rfl⟩ := hds
      rw [List.map_cons, digitChar_of_digitValue? hd, ← ih ds hrest]
  unfold readNat? at h
  split at h
  · cases h
  · simp only [bind, Option.bind_eq_some_iff] at h
    obtain ⟨ds, hds, h⟩ := h
    split at h
    · next hall =>
      cases h
      exact ⟨ds, hread cs ds hds, by simpa using hall, rfl⟩
    · cases h

theorem readNat?_renderNat {base : Nat} (hb : 2 ≤ base) (hb' : base ≤ 36) (n : Nat) :
    readNat? base (renderNat base n) = some n := by
  rw [renderNat, readNat?_map_digitChar hb' (digits_ne_nil base n) (digits_lt hb n),
    ofDigits_digits]

end ShardQuery.Text
