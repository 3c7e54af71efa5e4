import Mathlib.Tactic.SplitIfs
import ShardQuery.Text.Utf8

/-!
# Order of texts by their bytes

UTF-8 keeps order: two texts compare as their bytes do, one byte after the other. A character is
a lead byte with the digits of its number in base 64 after it. Longer codes have greater lead
bytes, and codes of one length are in the order of their digits.
-/

namespace ShardQuery

/-- A map that keeps the strict order of two members keeps how they compare. -/
theorem compare_eq_of_lt {α β : Type} {cmp : α → α → Ordering} [Std.OrientedCmp cmp]
    [Std.LawfulEqCmp cmp] [Ord β] [Std.OrientedOrd β] {f : α → β} {a b : α}
    (hlt : cmp a b = .lt → compare (f a) (f b) = .lt)
    (hgt : cmp b a = .lt → compare (f b) (f a) = .lt) : compare (f a) (f b) = cmp a b := by
  cases h : cmp a b with
  | lt => exact hlt h
  | eq =>
    rw [Std.LawfulEqCmp.eq_of_compare h]
    exact Std.ReflOrd.compare_self
  | gt => exact Std.OrientedCmp.gt_of_lt (hgt (Std.OrientedCmp.lt_of_gt h))

namespace Text

theorem compare_append {as bs cs ds : List UInt8} (h : as.length = cs.length) :
    compare (as ++ bs) (cs ++ ds) = (compare as cs).then (compare bs ds) := by
  induction as generalizing cs with
  | nil =>
    have hcs : cs = [] := List.length_eq_zero_iff.1 h.symm
    simp [hcs]
  | cons a as ih =>
    cases cs with
    | nil => cases h
    | cons c cs =>
      have hlen : as.length = cs.length := Nat.succ.inj h
      simp only [List.cons_append, List.compare_cons_cons, ih hlen, Ordering.then_assoc]

/-- A number with its last digits in base 64 in bytes of their own, `count` of them, and what is
left of it in the byte before, which also holds a mark. -/
def spread (mark : Nat) : Nat → Nat → List UInt8
  | 0, n => [UInt8.ofNat (n + mark)]
  | count + 1, n => spread mark count (n / 64) ++ [UInt8.ofNat (n % 64 + 128)]

/-- The mark in the lead byte of a character by its number, and how many bytes follow that byte. -/
def layout (n : Nat) : Nat × Nat :=
  if n ≤ 127 then (0, 0)
  else if n ≤ 2047 then (192, 1)
  else if n ≤ 65535 then (224, 2)
  else (240, 3)

def leadByte (n : Nat) : Nat := n / 64 ^ (layout n).2 + (layout n).1

theorem length_spread (mark count n : Nat) : (spread mark count n).length = count + 1 := by
  induction count generalizing n with
  | zero => rfl
  | succ count ih => simp [spread, ih]

theorem exists_spread_eq_cons (mark count n : Nat) :
    ∃ bs, spread mark count n = UInt8.ofNat (n / 64 ^ count + mark) :: bs := by
  induction count generalizing n with
  | zero => exact ⟨[], by simp [spread]⟩
  | succ count ih =>
    obtain ⟨bs, hbs⟩ := ih (n / 64)
    rw [spread, hbs, Nat.div_div_eq_div_mul, ← Nat.pow_succ']
    exact ⟨_, List.cons_append⟩

private theorem compare_ofNat {m n : Nat} (h : m < n) (hn : n < 256) :
    compare (UInt8.ofNat m) (UInt8.ofNat n) = .lt := by
  apply Std.compare_eq_lt.2
  rw [UInt8.lt_iff_toNat_lt, UInt8.toNat_ofNat', UInt8.toNat_ofNat']
  omega

theorem compare_spread {mark count m n : Nat} (h : m < n) (hn : n / 64 ^ count + mark < 256) :
    compare (spread mark count m) (spread mark count n) = .lt := by
  induction count generalizing m n with
  | zero =>
    have hbyte : compare (UInt8.ofNat (m + mark)) (UInt8.ofNat (n + mark)) = .lt :=
      compare_ofNat (by omega) (by simpa using hn)
    rw [spread, spread, List.compare_cons_cons, hbyte]
    rfl
  | succ count ih =>
    have hlen : (spread mark count (m / 64)).length = (spread mark count (n / 64)).length := by
      rw [length_spread, length_spread]
    rw [spread, spread, compare_append hlen]
    by_cases hfront : m / 64 < n / 64
    · have hlead : n / 64 / 64 ^ count + mark < 256 := by
        rwa [Nat.div_div_eq_div_mul, ← Nat.pow_succ']
      rw [ih hfront hlead]
      rfl
    · -- only the last digits differ
      have hsame : m / 64 = n / 64 := by omega
      have hlast : compare (UInt8.ofNat (m % 64 + 128)) (UInt8.ofNat (n % 64 + 128)) = .lt :=
        compare_ofNat (by omega) (by omega)
      rw [hsame, Std.ReflOrd.compare_self, List.compare_cons_cons, hlast]
      rfl

theorem layout_eq_or_leadByte_lt {m n : Nat} (h : m < n) :
    layout m = layout n ∨ leadByte m < leadByte n := by
  unfold leadByte layout
  split_ifs <;> simp <;> omega

theorem leadByte_lt {n : Nat} (h : n < 0x110000) : leadByte n < 256 := by
  unfold leadByte layout
  split_ifs <;> simp <;> omega

private theorem toNat_lt (c : Char) : c.val.toNat < 0x110000 := by
  cases c.valid <;> omega

theorem utf8EncodeChar_eq (c : Char) :
    String.utf8EncodeChar c = spread (layout c.val.toNat).1 (layout c.val.toNat).2 c.val.toNat := by
  have hmax := toNat_lt c
  dsimp only [String.utf8EncodeChar, layout]
  generalize c.val.toNat = n at hmax ⊢
  split_ifs
  · rfl
  · have hlead : n / 64 % 32 = n / 64 := by omega
    rw [hlead]
    rfl
  · have hlead : n / 4096 % 16 = n / 64 / 64 := by omega
    rw [hlead]
    rfl
  · have hlead : n / 262144 % 8 = n / 64 / 64 / 64 := by omega
    have hnext : n / 4096 = n / 64 / 64 := by omega
    rw [hlead, hnext]
    rfl

theorem compare_utf8EncodeChar_append {c d : Char} (h : c < d) (bs es : List UInt8) :
    compare (String.utf8EncodeChar c ++ bs) (String.utf8EncodeChar d ++ es) = .lt := by
  have hlt : c.val.toNat < d.val.toNat := h
  have hmax := toNat_lt d
  rw [utf8EncodeChar_eq, utf8EncodeChar_eq]
  generalize c.val.toNat = m at hlt ⊢
  generalize d.val.toNat = n at hlt hmax ⊢
  by_cases hlayout : layout m = layout n
  · have hlead : n / 64 ^ (layout n).2 + (layout n).1 < 256 := leadByte_lt hmax
    rw [hlayout, compare_append (by rw [length_spread, length_spread]), compare_spread hlt hlead]
    rfl
  · have hlead := (layout_eq_or_leadByte_lt hlt).resolve_left hlayout
    obtain ⟨ms, hms⟩ := exists_spread_eq_cons (layout m).1 (layout m).2 m
    obtain ⟨ns, hns⟩ := exists_spread_eq_cons (layout n).1 (layout n).2 n
    have hbyte : compare (UInt8.ofNat (leadByte m)) (UInt8.ofNat (leadByte n)) = .lt :=
      compare_ofNat hlead (leadByte_lt hmax)
    unfold leadByte at hbyte
    rw [hms, hns, List.cons_append, List.cons_append, List.compare_cons_cons, hbyte]
    rfl

theorem compare_utf8_of_lt {cs ds : List Char} (h : cs < ds) :
    compare (utf8 cs) (utf8 ds) = .lt := by
  induction cs generalizing ds with
  | nil =>
    cases ds with
    | nil => cases h
    | cons d ds =>
      obtain ⟨bs, hbs⟩ :=
        exists_spread_eq_cons (layout d.val.toNat).1 (layout d.val.toNat).2 d.val.toNat
      simp only [utf8, List.flatMap_nil, List.flatMap_cons, utf8EncodeChar_eq d, hbs,
        List.cons_append, List.compare_nil_cons]
  | cons c cs ih =>
    cases ds with
    | nil => cases h
    | cons d ds =>
      simp only [utf8, List.flatMap_cons] at ih ⊢
      cases List.cons_lt_cons_iff.1 h with
      | inl hcd => exact compare_utf8EncodeChar_append hcd _ _
      | inr hrest =>
        rw [hrest.1, compare_append rfl, Std.ReflOrd.compare_self, ih hrest.2]
        rfl

theorem compare_bytesOf (s t : String) : compare (bytesOf s) (bytesOf t) = compare s t := by
  have hlt {s t : String} (h : compare s t = .lt) : compare (bytesOf s) (bytesOf t) = .lt :=
    compare_utf8_of_lt (String.lt_iff.1 (compareOfLessAndEq_eq_lt.1 h))
  exact compare_eq_of_lt hlt hlt

end Text
end ShardQuery
