import ShardQuery.Identifier.Generator
import ShardQuery.Identifier.Parse
import ShardQuery.Proofs.Identifier.HashText
import ShardQuery.Proofs.Identifier.SnowflakeText

/-!
# The text of an identifier

The parts of a base tell by their shape which encoding they are in, so a base is read from its own
parts and from no others. With all extra parts kept, reading accepts exactly the texts of
well-formed identifiers, and identifiers differ when their texts do.
-/

namespace ShardQuery

namespace IdentifierBase

/-- The parts of the text of a base. -/
def segments : IdentifierBase → List (List Char)
  | hash b => b.segments
  | snowflake b => [b.chars]

def WellFormed : IdentifierBase → Prop
  | hash b => b.WithinDay
  | snowflake b => b.machine.val < 2 ^ 20 ∧ b.millis.val < 2 ^ 44

theorem text_eq (base : IdentifierBase) :
    base.text = String.ofList (Text.join ['.'] base.segments) := by
  cases base <;> rfl

theorem segments_ne_nil (base : IdentifierBase) : base.segments ≠ [] := by
  cases base with
  | hash b => simp [segments, HashBase.segments, HashBase.hashSegments]
  | snowflake b => simp [segments]

theorem dot_notMem_of_mem_segments {base : IdentifierBase} {part : List Char}
    (h : part ∈ base.segments) : '.' ∉ part := by
  cases base with
  | hash b => exact HashBase.dot_notMem_of_mem_segments h
  | snowflake b =>
    rw [List.mem_singleton.1 h]
    exact b.dot_notMem_chars

/-- A snowflake is wider than a hash and, unlike a marked time of day, all digits. -/
private theorem snowflake_segments_ne (s : Snowflake) (b : HashBase)
    (rest rest' : List (List Char)) : s.chars :: rest ≠ b.segments ++ rest' := by
  intro h
  unfold HashBase.segments HashBase.timeSegments at h
  split at h
  · have hfirst := (List.cons.inj h).1
    obtain ⟨d, hd, hplus⟩ := Snowflake.exists_digit_of_mem_chars (hfirst ▸ List.mem_cons_self)
    exact Text.digitChar_notMem (Nat.lt_trans hd (by decide)) (by simp [← hplus])
  · have hlen := HashBase.length_hash_le b.h0
    rw [← (List.cons.inj h).1, s.length_chars, Snowflake.width] at hlen
    omega

/-- The segments of a base determine it, whatever segments follow. -/
theorem eq_of_segments_append_eq {a b : IdentifierBase} {rest rest' : List (List Char)}
    (h : a.segments ++ rest = b.segments ++ rest') : a = b ∧ rest = rest' := by
  cases a with
  | hash a =>
    cases b with
    | hash b =>
      obtain ⟨hbase, hrest⟩ := HashBase.eq_of_segments_append_eq h
      exact ⟨congrArg hash hbase, hrest⟩
    | snowflake s => exact absurd h.symm (snowflake_segments_ne s a rest' rest)
  | snowflake s =>
    cases b with
    | hash b => exact absurd h (snowflake_segments_ne s b rest rest')
    | snowflake t =>
      obtain ⟨hchars, hrest⟩ := List.cons.inj h
      exact ⟨congrArg snowflake (Snowflake.chars_injective hchars), hrest⟩

end IdentifierBase

namespace Identifier

def WellFormed (u : Identifier) : Prop := u.base.WellFormed

private theorem isSnowflakeShape_snowflake (b : Snowflake) (rest : List (List Char)) :
    isSnowflakeShape (b.chars :: rest) = true := by
  have hwidth : b.chars.length = 24 := b.length_chars
  have hbytes : Text.byteLength b.chars = 24 :=
    (Text.byteLength_eq_length fun c hc => b.utf8Size_of_mem_chars hc).trans hwidth
  simp [isSnowflakeShape, hbytes]

theorem isSnowflakeShape_hash {b : HashBase} (hb : b.WithinDay)
    (rest : List (List Char)) : isSnowflakeShape (b.segments ++ rest) = false := by
  cases hparts : b.segments with
  | nil => simp [HashBase.segments, HashBase.hashSegments] at hparts
  | cons first others =>
    have hcount : 3 ≤ (first :: others).length := by
      rw [← hparts]
      simp [HashBase.segments, HashBase.hashSegments]
    obtain ⟨hlen, hsize⟩ := HashBase.length_le_of_mem_segments hb (hparts ▸ List.mem_cons_self)
    rw [← Text.byteLength_eq_length hsize] at hlen
    simp only [List.length_cons] at hcount
    simp only [isSnowflakeShape, List.cons_append, List.headD_cons, List.length_cons,
      List.length_append, Bool.or_eq_false_iff]
    exact ⟨decide_eq_false (by omega), decide_eq_false (by omega)⟩

theorem readBase_segments {base : IdentifierBase} (h : base.WellFormed)
    (rest : List (List Char)) : readBase (base.segments ++ rest) = .ok (base, rest) := by
  cases base with
  | hash b =>
    have hshape := isSnowflakeShape_hash h rest
    simp only [readBase, IdentifierBase.segments, hshape, HashBase.read_segments h]
    rfl
  | snowflake b =>
    have hshape := isSnowflakeShape_snowflake b rest
    simp only [readBase, IdentifierBase.segments, List.singleton_append, hshape, if_true,
      List.headD_cons, Snowflake.read?_chars, List.tail_cons]

theorem eq_segments_of_readBase {parts rest : List (List Char)} {base : IdentifierBase}
    (h : readBase parts = .ok (base, rest)) :
    base.WellFormed ∧ parts = base.segments ++ rest := by
  unfold readBase at h
  split at h
  · split at h
    · next b hread =>
      cases h
      refine ⟨⟨b.machine.isLt, b.millis.isLt⟩, ?_⟩
      have hchars := Snowflake.eq_chars_of_read? hread
      cases parts with
      | nil => cases hread
      | cons part parts =>
        have hpart : part = b.chars := hchars
        rw [hpart]
        rfl
    · cases h
  · cases hread : HashBase.read parts with
    | error fault =>
      rw [hread] at h
      cases h
    | ok found =>
      rw [hread] at h
      cases h
      exact HashBase.eq_segments_of_read hread

/-- What the text of an identifier has after the base. -/
def afterBase : Option String → List Char
  | none => []
  | some e => '.' :: e.toList

theorem toList_text_eq (base : IdentifierBase) (e : Option String) :
    (text ⟨base, e⟩).toList = base.text.toList ++ afterBase e := by
  cases e <;> simp [text, afterBase]

theorem toList_text (base : IdentifierBase) (rest : List (List Char)) :
    (text ⟨base, mergeExtras (rest.map String.ofList)⟩).toList =
      Text.join ['.'] (base.segments ++ rest) := by
  cases rest with
  | nil => simp [text, mergeExtras, base.text_eq]
  | cons part rest =>
    rw [Text.join_append _ base.segments_ne_nil (by simp)]
    simp [text, mergeExtras, base.text_eq, Text.joined]

private theorem exists_extra_parts (extra : Option String) :
    ∃ rest : List (List Char), extra = mergeExtras (rest.map String.ofList) ∧
      ∀ part ∈ rest, '.' ∉ part := by
  cases extra with
  | none => exact ⟨[], rfl, by simp⟩
  | some e =>
    refine ⟨Text.split '.' e.toList, ?_, fun part h => Text.not_mem_of_mem_split h⟩
    simp [mergeExtras, Text.joined, Text.split_ne_nil, Text.join_split]

theorem split_text (u : Identifier) :
    ∃ rest, Text.split '.' u.text.toList = u.base.segments ++ rest ∧
      u.extra = mergeExtras (rest.map String.ofList) := by
  obtain ⟨base, extra⟩ := u
  obtain ⟨rest, rfl, hrest⟩ := exists_extra_parts extra
  refine ⟨rest, ?_, rfl⟩
  rw [toList_text, Text.split_join (by simp [base.segments_ne_nil])]
  intro part hpart
  rcases List.mem_append.1 hpart with hpart | hpart
  · exact IdentifierBase.dot_notMem_of_mem_segments hpart
  · exact hrest part hpart

/-- Identifiers of one text are the same, well formed or not. -/
theorem text_injective : Function.Injective text := by
  intro u v h
  obtain ⟨rest, hu, hextra⟩ := split_text u
  obtain ⟨rest', hv, hextra'⟩ := split_text v
  rw [h, hv] at hu
  obtain ⟨hbase, hrest⟩ := IdentifierBase.eq_of_segments_append_eq hu
  cases u
  cases v
  simp_all

theorem parse_eq_ok_iff {s : String} {limit : Int} {u : Identifier} :
    parse s limit = .ok u ↔ ∃ base rest, readBase (Text.split '.' s.toList) = .ok (base, rest) ∧
      u = ⟨base, mergeExtras ((keepExtras limit rest).map String.ofList)⟩ := by
  unfold parse
  split
  · next hempty =>
    rw [String.isEmpty_iff.1 hempty]
    constructor
    · intro h
      cases h
    · rintro ⟨base, rest, h, -⟩
      cases h
  · cases readBase (Text.split '.' s.toList) with
    | error fault => simp
    | ok found =>
      obtain ⟨base, rest⟩ := found
      constructor
      · intro h
        cases h
        exact ⟨base, rest, rfl, rfl⟩
      · rintro ⟨base, rest, hfound, rfl⟩
        cases hfound
        rfl

theorem wellFormed_of_parse {s : String} {limit : Int} {u : Identifier}
    (h : parse s limit = .ok u) : u.WellFormed := by
  obtain ⟨base, rest, hread, rfl⟩ := parse_eq_ok_iff.1 h
  exact (eq_segments_of_readBase hread).1

theorem parse_text {u : Identifier} (hu : u.WellFormed) : parse u.text (-1) = .ok u := by
  obtain ⟨rest, hsplit, hextra⟩ := split_text u
  refine parse_eq_ok_iff.2 ⟨u.base, rest, ?_, ?_⟩
  · rw [hsplit]
    exact readBase_segments hu rest
  · obtain ⟨base, extra⟩ := u
    exact congrArg (Identifier.mk base) hextra

theorem text_of_parse {s : String} {u : Identifier} (h : parse s (-1) = .ok u) : u.text = s := by
  obtain ⟨base, rest, hread, rfl⟩ := parse_eq_ok_iff.1 h
  have htext := toList_text base rest
  rw [← (eq_segments_of_readBase hread).2, Text.join_split] at htext
  exact String.toList_inj.1 htext

theorem wellFormed_ofContentBy (hash : HashBase.SeededHash) (content : List UInt8)
    (time : Option Instant) (extras : List String) :
    (ofContentBy hash content time extras).WellFormed := by
  intro ms hms
  obtain ⟨t, -, rfl⟩ := Option.map_eq_some_iff.1 hms
  have hlt := Int.emod_lt_of_pos t.millis (show (0 : Int) < millisPerDay by decide)
  have hday : millisPerDay = 86400000 := rfl
  rw [Instant.timeOfDay]
  omega

theorem eq_of_snowflake {σ : Type} {next : NextTick σ} {machine : Option Int} {time : Instant}
    {extras : List String} {env : σ} {u : Identifier}
    (h : (snowflake next machine time extras env).1 = .ok u) :
    ∃ b : Snowflake, u = ⟨.snowflake b, mergeExtras extras⟩ := by
  have hfor (machine : MachineId) (h : (snowflakeFor next machine time extras env).1 = .ok u) :
      ∃ b : Snowflake, u = ⟨.snowflake b, mergeExtras extras⟩ := by
    unfold snowflakeFor at h
    split at h
    · cases h
    · split at h
      · cases h
      · split at h
        · cases h
        · next base _ =>
          cases h
          exact ⟨base, rfl⟩
  unfold snowflake at h
  split at h
  · cases h
  · exact hfor _ h

theorem wellFormed_of_snowflake {σ : Type} {next : NextTick σ} {machine : Option Int}
    {time : Instant} {extras : List String} {env : σ} {u : Identifier}
    (h : (snowflake next machine time extras env).1 = .ok u) : u.WellFormed := by
  obtain ⟨b, rfl⟩ := eq_of_snowflake h
  exact ⟨b.machine.isLt, b.millis.isLt⟩

/-- Whatever makes an identifier makes a well-formed one, and with all extra parts kept reading
accepts exactly the texts of those: it undoes writing, and is undone by it. -/
theorem parse_inverts_text :
    (∀ hash content time extras, (ofContentBy hash content time extras).WellFormed) ∧
    (∀ (σ : Type) (next : NextTick σ) machine time extras env u,
      (snowflake next machine time extras env).1 = .ok u → u.WellFormed) ∧
    (∀ s limit u, parse s limit = .ok u → u.WellFormed) ∧
    (∀ u : Identifier, u.WellFormed → u.withoutExtra.WellFormed) ∧
    (∀ u : Identifier, u.WellFormed → parse u.text (-1) = .ok u) ∧
    (∀ s u, parse s (-1) = .ok u → u.text = s) ∧
    (∀ s, (∃ u, parse s (-1) = .ok u) ↔ ∃ u : Identifier, u.WellFormed ∧ u.text = s) ∧
    ∀ u v : Identifier, u.WellFormed → v.WellFormed → (u = v ↔ u.text = v.text) := by
  refine ⟨wellFormed_ofContentBy, fun _ _ _ _ _ _ _ => wellFormed_of_snowflake,
    fun _ _ _ => wellFormed_of_parse, fun _ hu => hu, fun _ => parse_text, fun _ _ => text_of_parse,
    ?_, ?_⟩
  · intro s
    constructor
    · rintro ⟨u, hu⟩
      exact ⟨u, wellFormed_of_parse hu, text_of_parse hu⟩
    · rintro ⟨u, hu, rfl⟩
      exact ⟨u, parse_text hu⟩
  · intro u v hu hv
    constructor
    · intro h
      rw [h]
    · intro h
      have hread := parse_text hu
      rw [h, parse_text hv] at hread
      exact (Except.ok.inj hread).symm

end Identifier
end ShardQuery
