import ShardQuery.Identifier.Snowflake
import ShardQuery.Power
import ShardQuery.Proofs.Text.FixedWidth

/-!
# The segment of a snowflake

Machine, millisecond and counter stand in fields of five, eleven and eight digits. The fields
are always full, so different snowflakes never share a segment, and reading accepts the segments
of snowflakes and nothing else.
-/

namespace ShardQuery.Snowflake

theorem length_machine_field (b : Snowflake) : (Text.padded 16 5 b.machine.val).length = 5 :=
  Text.length_padded (by decide) b.machine.isLt

theorem length_millis_field (b : Snowflake) : (Text.padded 16 11 b.millis.val).length = 11 :=
  Text.length_padded (by decide) b.millis.isLt

theorem length_counter_field (b : Snowflake) :
    (Text.padded 16 8 b.counter.toNat).length = 8 :=
  Text.length_padded (by decide) b.counter.toNat_lt

theorem length_chars (b : Snowflake) : b.chars.length = width := by
  simp only [chars, List.length_append, length_machine_field, length_millis_field,
    length_counter_field]
  rfl

theorem exists_digit_of_mem_chars {b : Snowflake} {c : Char} (h : c ∈ b.chars) :
    ∃ d < 16, c = Text.digitChar d := by
  simp only [chars, List.mem_append, or_assoc] at h
  rcases h with h | h | h <;> exact Text.exists_digit_of_mem_padded (by decide) h

theorem dot_notMem_chars (b : Snowflake) : '.' ∉ b.chars := by
  intro h
  obtain ⟨d, hd, h⟩ := exists_digit_of_mem_chars h
  exact Text.digitChar_notMem (Nat.lt_trans hd (by decide)) (by simp [← h])

theorem utf8Size_of_mem_chars {b : Snowflake} {c : Char} (h : c ∈ b.chars) : c.utf8Size = 1 := by
  obtain ⟨d, hd, rfl⟩ := exists_digit_of_mem_chars h
  exact Text.utf8Size_digitChar (Nat.lt_trans hd (by decide))

theorem take_chars (b : Snowflake) : b.chars.take 5 = Text.padded 16 5 b.machine.val := by
  rw [chars, List.append_assoc]
  exact List.take_left' b.length_machine_field

theorem drop_chars (b : Snowflake) : b.chars.drop 5 =
    Text.padded 16 11 b.millis.val ++ Text.padded 16 8 b.counter.toNat := by
  rw [chars, List.append_assoc]
  exact List.drop_left' b.length_machine_field

theorem read?_chars (b : Snowflake) : read? b.chars = some b := by
  have hmillis : (b.chars.drop 5).take 11 = Text.padded 16 11 b.millis.val := by
    rw [drop_chars]
    exact List.take_left' b.length_millis_field
  have hcounter : b.chars.drop 16 = Text.padded 16 8 b.counter.toNat := by
    rw [show 16 = 5 + 11 from rfl, ← List.drop_drop, drop_chars]
    exact List.drop_left' b.length_millis_field
  have hfits : b.machine.val < 2 ^ 20 ∧ b.millis.val < 2 ^ 44 := ⟨b.machine.isLt, b.millis.isLt⟩
  rw [read?, if_pos b.length_chars, take_chars, hmillis, hcounter]
  simp only [Text.readNat?_padded (show 2 ≤ 16 by decide) (by decide), Option.bind_eq_bind,
    Option.bind_some, dif_pos hfits, UInt32.ofNat_toNat, Fin.eta]

theorem eq_chars_of_read? {part : List Char} {b : Snowflake} (h : read? part = some b) :
    part = b.chars := by
  unfold read? at h
  split at h
  · next hlen =>
    have hwidth : part.length = 24 := hlen
    simp only [bind, Option.bind_eq_some_iff] at h
    obtain ⟨machine, hmachine, millis, hmillis, counter, hcounter, h⟩ := h
    split at h
    · cases h
      have hlt := Text.lt_of_readNat? hcounter
      have htake := Text.eq_padded_of_readNat? (by decide) (by decide) hmachine
      have hmid := Text.eq_padded_of_readNat? (by decide) (by decide) hmillis
      have hdrop := Text.eq_padded_of_readNat? (by decide) (by decide) hcounter
      simp only [List.length_take, List.length_drop, hwidth] at hlt htake hmid hdrop
      have hword : (UInt32.ofNat counter).toNat = counter := by
        rw [UInt32.toNat_ofNat']
        exact Nat.mod_eq_of_lt hlt
      calc part
        _ = part.take 5 ++ ((part.drop 5).take 11 ++ (part.drop 5).drop 11) := by
          rw [List.take_append_drop, List.take_append_drop]
        _ = part.take 5 ++ ((part.drop 5).take 11 ++ part.drop 16) := by rw [List.drop_drop]
        _ = chars ⟨⟨machine, _⟩, ⟨millis, _⟩, UInt32.ofNat counter⟩ := by
          rw [htake, hmid, hdrop, chars, hword, List.append_assoc]
          rfl
    · cases h
  · cases h

theorem chars_injective {a b : Snowflake} (h : a.chars = b.chars) : a = b := by
  have hfields := List.append_inj h (by
    simp only [List.length_append, length_machine_field, length_millis_field])
  have hfront := List.append_inj hfields.1 (by
    rw [length_machine_field, length_machine_field])
  have hmachine : a.machine.val = b.machine.val :=
    Text.padded_injective (by decide) (by decide) 5 hfront.1
  have hmillis : a.millis.val = b.millis.val :=
    Text.padded_injective (by decide) (by decide) 11 hfront.2
  have hcounter : a.counter.toNat = b.counter.toNat :=
    Text.padded_injective (by decide) (by decide) 8 hfields.2
  cases a
  cases b
  simp only [Fin.val_inj, UInt32.toNat_inj] at hmachine hmillis hcounter
  rw [hmachine, hmillis, hcounter]

theorem text_injective {a b : Snowflake} (h : a.text = b.text) : a = b :=
  chars_injective (String.ofList_injective h)

end ShardQuery.Snowflake
