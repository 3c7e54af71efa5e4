import ShardQuery.Identifier.HashBase
import ShardQuery.Proofs.Identifier.RadixText

/-!
# The segments of a hash base

A hash base is read from its own segments and from no others, whatever segments follow. The mark
of the time of day is not a character of a hash, so the two are never confused.
-/

namespace ShardQuery.HashBase

def WithinDay (b : HashBase) : Prop := ∀ ms, b.timeOfDay = some ms → ms < millisPerDay

theorem readHash?_eq_some_iff {part : List Char} {hash : Int32} :
    readHash? part = some hash ↔ part = Radix.chars hash.toInt := by
  have hlo := hash.le_toInt
  have hhi := hash.toInt_lt
  simp only [readHash?, Option.bind_eq_some_iff, Radix.read?_eq_some_iff]
  constructor
  · rintro ⟨value, ⟨-, rfl⟩, h⟩
    split at h
    · next hfits =>
      cases h
      rw [Int32.toInt_ofInt_of_le hfits.1 hfits.2]
    · cases h
  · rintro rfl
    refine ⟨hash.toInt, ⟨?_, rfl⟩, ?_⟩
    · simp only [Radix.inRange, Bool.and_eq_true, decide_eq_true_eq]
      omega
    · rw [if_pos ⟨hlo, hhi⟩, Int32.ofInt_toInt]

theorem readHash_eq_ok_iff {part : List Char} {hash : Int32} :
    readHash part = .ok hash ↔ part = Radix.chars hash.toInt := by
  rw [← readHash?_eq_some_iff, readHash]
  cases readHash? part <;> simp

theorem readHashes_append (b : HashBase) (timeOfDay : Option Nat) (rest : List (List Char)) :
    readHashes timeOfDay (b.hashSegments ++ rest) = .ok (⟨b.h0, b.h1, b.h2, timeOfDay⟩, rest) := by
  have hread (hash : Int32) : readHash (Radix.chars hash.toInt) = .ok hash :=
    readHash_eq_ok_iff.2 rfl
  simp only [hashSegments, List.cons_append, List.nil_append, readHashes, hread]
  rfl

theorem eq_of_readHashes {timeOfDay : Option Nat} {parts rest : List (List Char)} {b : HashBase}
    (h : readHashes timeOfDay parts = .ok (b, rest)) :
    b.timeOfDay = timeOfDay ∧ parts = b.hashSegments ++ rest := by
  unfold readHashes at h
  split at h
  · next p0 p1 p2 after =>
    cases h0 : readHash p0 with
    | error fault => simp [h0, bind, Except.bind] at h
    | ok hash0 =>
      cases h1 : readHash p1 with
      | error fault => simp [h0, h1, bind, Except.bind] at h
      | ok hash1 =>
        cases h2 : readHash p2 with
        | error fault => simp [h0, h1, h2, bind, Except.bind] at h
        | ok hash2 =>
          simp only [h0, h1, h2, bind, Except.bind, pure, Except.pure, Except.ok.injEq,
            Prod.mk.injEq] at h
          obtain ⟨rfl, rfl⟩ := h
          rw [readHash_eq_ok_iff.1 h0, readHash_eq_ok_iff.1 h1, readHash_eq_ok_iff.1 h2]
          exact ⟨rfl, rfl⟩
  · cases h

private theorem read_unmarked {part : List Char} (h : '+' ∉ part) (parts : List (List Char)) :
    read (part :: parts) = readHashes none (part :: parts) := by
  rw [read]
  intro marked rest hparts
  cases hparts
  exact h List.mem_cons_self

theorem read_segments {b : HashBase} (hb : b.WithinDay) (rest : List (List Char)) :
    read (b.segments ++ rest) = .ok (b, rest) := by
  obtain ⟨h0, h1, h2, timeOfDay⟩ := b
  cases timeOfDay with
  | none =>
    have hunmarked := read_unmarked (Radix.plus_notMem_chars h0.toInt)
      (Radix.chars h1.toInt :: Radix.chars h2.toInt :: rest)
    exact hunmarked.trans (readHashes_append ⟨h0, h1, h2, none⟩ none rest)
  | some ms =>
    have hms : ms < millisPerDay := hb ms rfl
    have hday : millisPerDay = 86400000 := rfl
    have hread : Radix.read? (Radix.chars ms) = some (.ofNat ms) := by
      refine Radix.read?_eq_some_iff.2 ⟨?_, rfl⟩
      simp only [Radix.inRange, Int.ofNat_eq_natCast, Bool.and_eq_true, decide_eq_true_eq]
      omega
    simp only [segments, timeSegments, List.cons_append, read, hread, if_pos hms]
    exact readHashes_append ⟨h0, h1, h2, some ms⟩ (some ms) rest

theorem eq_segments_of_read {parts rest : List (List Char)} {b : HashBase}
    (h : read parts = .ok (b, rest)) : b.WithinDay ∧ parts = b.segments ++ rest := by
  unfold read at h
  split at h
  · next marked after =>
    split at h
    · next ms hread =>
      split at h
      · next hms =>
        obtain ⟨htime, hafter⟩ := eq_of_readHashes h
        have hmarked : marked = Radix.chars (ms : Int) := (Radix.read?_eq_some_iff.1 hread).2
        constructor
        · intro ms' hms'
          rw [htime] at hms'
          cases hms'
          exact hms
        · rw [segments, timeSegments, htime, hafter, hmarked]
          rfl
      · cases h
    · cases h
  · obtain ⟨htime, hparts⟩ := eq_of_readHashes h
    constructor
    · intro ms hms
      rw [htime] at hms
      cases hms
    · rw [segments, timeSegments, htime, hparts]
      rfl

theorem eq_of_segments_append_eq {a b : HashBase} {rest rest' : List (List Char)}
    (h : a.segments ++ rest = b.segments ++ rest') : a = b ∧ rest = rest' := by
  obtain ⟨a0, a1, a2, atime⟩ := a
  obtain ⟨b0, b1, b2, btime⟩ := b
  have hhash {v w : Int32} (h : Radix.chars v.toInt = Radix.chars w.toInt) : v = w :=
    Int32.toInt_inj.1 (Radix.chars_injective h)
  cases atime with
  | none =>
    cases btime with
    | none =>
      simp only [segments, timeSegments, hashSegments, List.nil_append, List.cons_append,
        List.cons.injEq] at h
      obtain ⟨h0, h1, h2, hrest⟩ := h
      rw [hhash h0, hhash h1, hhash h2]
      exact ⟨rfl, hrest⟩
    | some ms =>
      have hfirst := (List.cons.inj h).1
      exact absurd (hfirst ▸ List.mem_cons_self) (Radix.plus_notMem_chars a0.toInt)
  | some ms =>
    cases btime with
    | none =>
      have hfirst := (List.cons.inj h).1
      exact absurd (hfirst ▸ List.mem_cons_self) (Radix.plus_notMem_chars b0.toInt)
    | some ms' =>
      simp only [segments, timeSegments, hashSegments, List.nil_append, List.cons_append,
        List.cons.injEq, true_and] at h
      obtain ⟨htime, h0, h1, h2, hrest⟩ := h
      have hms : ms = ms' := Int.ofNat_inj.1 (Radix.chars_injective htime)
      rw [hms, hhash h0, hhash h1, hhash h2]
      exact ⟨rfl, hrest⟩

theorem dot_notMem_of_mem_segments {b : HashBase} {part : List Char} (h : part ∈ b.segments) :
    '.' ∉ part := by
  have hhash : part ∈ b.hashSegments → '.' ∉ part := by
    intro h
    simp only [hashSegments, List.mem_cons, List.not_mem_nil, or_false] at h
    rcases h with rfl | rfl | rfl <;> exact Radix.dot_notMem_chars _
  rcases List.mem_append.1 h with h | h
  · unfold timeSegments at h
    split at h
    · rw [List.mem_singleton.1 h]
      simp [Radix.dot_notMem_chars]
    · cases h
  · exact hhash h

theorem length_hash_le (hash : Int32) : (Radix.chars hash.toInt).length ≤ 7 := by
  have hlo := hash.le_toInt
  have hhi := hash.toInt_lt
  have hwidth : hash.toInt.natAbs < Radix.base ^ 6 := by
    rw [show Radix.base ^ 6 = 2176782336 by decide]
    omega
  exact Radix.length_chars_le (by decide) hwidth

theorem length_le_of_mem_segments {b : HashBase} (hb : b.WithinDay) {part : List Char}
    (h : part ∈ b.segments) : part.length ≤ 8 ∧ ∀ c ∈ part, c.utf8Size = 1 := by
  rcases List.mem_append.1 h with h | h
  · unfold timeSegments at h
    split at h
    · next ms htime =>
      have hms : ms < Radix.base ^ 6 := Nat.lt_trans (hb ms htime) (by decide)
      rw [List.mem_singleton.1 h]
      refine ⟨Nat.succ_le_succ (Nat.le_succ_of_le (Radix.length_renderNat_le (by decide) hms)), ?_⟩
      intro c hc
      rcases List.mem_cons.1 hc with rfl | hc
      · rfl
      · exact Radix.utf8Size_of_mem_chars hc
    · cases h
  · simp only [hashSegments, List.mem_cons, List.not_mem_nil, or_false] at h
    rcases h with rfl | rfl | rfl <;>
      exact ⟨Nat.le_succ_of_le (length_hash_le _), fun c hc => Radix.utf8Size_of_mem_chars hc⟩

end ShardQuery.HashBase
