import ShardQuery.Proofs.Identifier.IdentifierOrder
import ShardQuery.Proofs.Text.ByteOrder

/-!
# The order of snowflake texts

A text of a snowflake is its segment of 24 digits, alone or with a dot and the extra text after it.
Fields of fixed width put the segments in the order of the snowflakes. Where they are the same, a
text that ends there comes first and the extra texts decide between two that go on, so the bytes of
two texts are in the order of the identifiers.
-/

namespace ShardQuery

namespace Snowflake

private theorem field_eq_iff {width m n : Nat} :
    Text.padded 16 width m = Text.padded 16 width n ↔ m = n :=
  ⟨Text.padded_injective (by decide) (by decide) width, congrArg _⟩

private theorem field_lt_iff {width m n : Nat} (hw : 0 < width) (hm : m < 16 ^ width)
    (hn : n < 16 ^ width) : Text.padded 16 width m < Text.padded 16 width n ↔ m < n :=
  Text.padded_lt_padded_iff (by decide) (by decide) hw hm hn

private theorem compare_val {bound : Nat} (i j : Fin bound) :
    compare i j = compare i.val j.val := rfl

theorem chars_lt_chars_iff {a b : Snowflake} : a.chars < b.chars ↔ order a b = .lt := by
  have hmachine : (Text.padded 16 5 a.machine.val).length =
      (Text.padded 16 5 b.machine.val).length := by
    rw [length_machine_field, length_machine_field]
  have hmillis : (Text.padded 16 11 a.millis.val).length =
      (Text.padded 16 11 b.millis.val).length := by
    rw [length_millis_field, length_millis_field]
  rw [chars, chars, List.append_assoc, List.append_assoc, Text.append_lt_append_iff hmachine,
    Text.append_lt_append_iff hmillis, field_eq_iff, field_eq_iff,
    field_lt_iff (by decide) a.machine.isLt b.machine.isLt,
    field_lt_iff (by decide) a.millis.isLt b.millis.isLt,
    field_lt_iff (by decide) a.counter.toNat_lt b.counter.toNat_lt]
  simp only [order, compareLex, compareOn, Ordering.then_eq_lt, compare_val, Nat.compare_eq_eq,
    Std.compare_eq_lt, UInt32.lt_iff_toNat_lt]

end Snowflake

namespace Identifier

theorem afterBase_lt_iff {e f : Option String} : afterBase e < afterBase f ↔ compare e f = .lt := by
  cases e with
  | none =>
    cases f with
    | none => simp [afterBase]
    | some f =>
      have hfirst : compare none (some f) = .lt := rfl
      simp [afterBase, hfirst]
  | some e =>
    cases f with
    | none =>
      have hlast : compare (some e) none = .gt := rfl
      simp [afterBase, hlast]
    | some f =>
      have hstrings : compare (some e) (some f) = .lt ↔ e < f := compareOfLessAndEq_eq_lt
      rw [hstrings, String.lt_iff, afterBase, afterBase, List.cons_lt_cons_iff]
      simp

theorem toList_text_snowflake (s : Snowflake) (e : Option String) :
    (text ⟨.snowflake s, e⟩).toList = s.chars ++ afterBase e := by
  rw [toList_text_eq, IdentifierBase.text, Snowflake.text, String.toList_ofList]

theorem order_snowflake (s t : Snowflake) (e f : Option String) :
    order ⟨.snowflake s, e⟩ ⟨.snowflake t, f⟩ = (Snowflake.order s t).then (compare e f) := rfl

theorem text_lt_text_iff_order {s t : Snowflake} {e f : Option String} :
    text ⟨.snowflake s, e⟩ < text ⟨.snowflake t, f⟩ ↔
      order ⟨.snowflake s, e⟩ ⟨.snowflake t, f⟩ = .lt := by
  have hlen : s.chars.length = t.chars.length := s.length_chars.trans t.length_chars.symm
  have heq : s.chars = t.chars ↔ Snowflake.order s t = .eq := by
    constructor
    · intro h
      rw [Snowflake.chars_injective h]
      exact Std.ReflCmp.compare_self
    · intro h
      rw [Snowflake.eq_of_order h]
  rw [String.lt_iff, toList_text_snowflake, toList_text_snowflake,
    Text.append_lt_append_iff hlen, Snowflake.chars_lt_chars_iff, heq, afterBase_lt_iff,
    order_snowflake, Ordering.then_eq_lt]

/-- Snowflakes with any extra texts are in the order of the bytes of their texts. For one machine
this is the order of the millisecond and the counter, and of the extra texts where both are the
same. -/
theorem order_eq_compare_bytes :
    (∀ s t e f, order ⟨.snowflake s, e⟩ ⟨.snowflake t, f⟩ =
      compare (Text.bytesOf (text ⟨.snowflake s, e⟩)) (Text.bytesOf (text ⟨.snowflake t, f⟩))) ∧
    ∀ machine millis counter millis' counter' e f,
      compare (Text.bytesOf (text ⟨.snowflake ⟨machine, millis, counter⟩, e⟩))
          (Text.bytesOf (text ⟨.snowflake ⟨machine, millis', counter'⟩, f⟩)) =
        ((compare millis millis').then (compare counter counter')).then (compare e f) := by
  have hbytes : ∀ s t e f, order ⟨.snowflake s, e⟩ ⟨.snowflake t, f⟩ =
      compare (Text.bytesOf (text ⟨.snowflake s, e⟩)) (Text.bytesOf (text ⟨.snowflake t, f⟩)) := by
    intro s t e f
    have hlt {s t e f} (h : order ⟨.snowflake s, e⟩ ⟨.snowflake t, f⟩ = .lt) :
        compare (text ⟨.snowflake s, e⟩) (text ⟨.snowflake t, f⟩) = .lt :=
      compareOfLessAndEq_eq_lt.2 (text_lt_text_iff_order.2 h)
    rw [Text.compare_bytesOf]
    exact (compare_eq_of_lt hlt hlt).symm
  refine ⟨hbytes, ?_⟩
  intro machine millis counter millis' counter' e f
  rw [← hbytes, order_snowflake]
  simp only [Snowflake.order, compareLex, compareOn, Std.ReflOrd.compare_self, Ordering.then]

end Identifier
end ShardQuery
