import ShardQuery.Proofs.Identifier.IdentifierText

/-!
# Limits on extra parts

A limit leaves the base alone and keeps the first extra parts, so what is read under a limit is what
is read without one, truncated. The text of a truncated identifier reads back as itself in the same
encoding, and of two limits one after the other the tighter counts.
-/

namespace ShardQuery.Identifier

def allowed : Int → List String → List String
  | .ofNat n, parts => parts.take n
  | .negSucc _, parts => parts

/-- The limit that allows what both of two limits allow. -/
def tighter : Int → Int → Int
  | .negSucc _, m => m
  | n, .negSucc _ => n
  | .ofNat n, .ofNat m => .ofNat (min n m)

def truncate (limit : Int) (u : Identifier) : Identifier :=
  ⟨u.base, mergeExtras (allowed limit u.extraParts)⟩

/-- The extra parts of an identifier are the ones given, and its text read under any limit has the
same base and the first of them. -/
def KeepsExtras (u : Identifier) (extras : List String) : Prop :=
  u.extraParts = extras ∧
    ∀ n, ∃ v, parse u.text n = .ok v ∧ v.base = u.base ∧ v.extraParts = allowed n extras

theorem allowed_allowed (n m : Int) (parts : List String) :
    allowed m (allowed n parts) = allowed (tighter n m) parts := by
  cases n with
  | ofNat n =>
    cases m with
    | ofNat m => exact List.take_take.trans (congrArg (parts.take ·) (Nat.min_comm m n))
    | negSucc m => rfl
  | negSucc n => cases m <;> rfl

theorem mem_of_mem_allowed {limit : Int} {parts : List String} {part : String}
    (h : part ∈ allowed limit parts) : part ∈ parts := by
  cases limit with
  | ofNat n => exact List.mem_of_mem_take h
  | negSucc n => exact h

theorem map_keepExtras (limit : Int) (rest : List (List Char)) :
    (keepExtras limit rest).map String.ofList = allowed limit (rest.map String.ofList) := by
  cases limit with
  | ofNat n =>
    have hn : ¬ Int.ofNat n < 0 := Int.not_lt.2 (Int.natCast_nonneg n)
    rw [keepExtras, if_neg hn, allowed, List.map_take]
    rfl
  | negSucc n => rw [keepExtras, if_pos (Int.negSucc_lt_zero n), allowed]

theorem mergeExtras_eq_none_iff {parts : List String} : mergeExtras parts = none ↔ parts = [] := by
  simp [mergeExtras]

theorem extraParts_mergeExtras (base : IdentifierBase) {parts : List String}
    (h : ∀ part ∈ parts, '.' ∉ part.toList) : extraParts ⟨base, mergeExtras parts⟩ = parts := by
  cases parts with
  | nil => rfl
  | cons part parts => exact Text.fieldsOf_joined (List.cons_ne_nil _ _) h

theorem dot_notMem_of_mem_extraParts {u : Identifier} {part : String} (h : part ∈ u.extraParts) :
    '.' ∉ part.toList := by
  unfold extraParts at h
  split at h
  · cases h
  · exact Text.not_mem_of_mem_fieldsOf h

theorem extraParts_truncate (limit : Int) (u : Identifier) :
    (u.truncate limit).extraParts = allowed limit u.extraParts :=
  extraParts_mergeExtras u.base fun _ h => dot_notMem_of_mem_extraParts (mem_of_mem_allowed h)

theorem truncate_truncate (n m : Int) (u : Identifier) :
    (u.truncate n).truncate m = u.truncate (tighter n m) := by
  rw [truncate, extraParts_truncate, allowed_allowed]
  rfl

theorem truncate_zero (u : Identifier) : u.truncate 0 = u.withoutExtra := rfl

theorem parse_eq_map_truncate (s : String) (limit : Int) :
    parse s limit = (parse s (-1)).map (truncate limit) := by
  unfold parse
  split
  · rfl
  · cases hread : readBase (Text.split '.' s.toList) with
    | error fault => rfl
    | ok found =>
      obtain ⟨base, rest⟩ := found
      have hparts : Text.split '.' s.toList = base.segments ++ rest :=
        (eq_segments_of_readBase hread).2
      have hdots : ∀ part ∈ rest.map String.ofList, '.' ∉ part.toList := by
        intro part hpart
        obtain ⟨cs, hcs, rfl⟩ := List.mem_map.1 hpart
        rw [String.toList_ofList]
        exact Text.not_mem_of_mem_split (hparts ▸ List.mem_append_right _ hcs)
      have hall : extraParts ⟨base, mergeExtras (allowed (-1) (rest.map String.ofList))⟩ =
          rest.map String.ofList := extraParts_mergeExtras base hdots
      simp only [Except.map, truncate, map_keepExtras, hall]

theorem exists_parse_of_parse {s : String} {limit : Int} {u : Identifier}
    (h : parse s limit = .ok u) : ∃ v, parse s (-1) = .ok v ∧ u = v.truncate limit := by
  rw [parse_eq_map_truncate] at h
  cases hall : parse s (-1) with
  | error e =>
    rw [hall] at h
    cases h
  | ok v =>
    rw [hall] at h
    cases h
    exact ⟨v, rfl, rfl⟩

theorem parse_text_limit {u : Identifier} (hu : u.WellFormed) (limit : Int) :
    parse u.text limit = .ok (u.truncate limit) := by
  rw [parse_eq_map_truncate, parse_text hu]
  rfl

theorem parse_text_of_parse {s : String} {n : Int} {u : Identifier} (h : parse s n = .ok u)
    (m : Int) : parse u.text m = parse s (tighter n m) := by
  have hu := wellFormed_of_parse h
  obtain ⟨v, hall, rfl⟩ := exists_parse_of_parse h
  rw [parse_text_limit hu, truncate_truncate, parse_eq_map_truncate s, hall]
  rfl

theorem keepsExtras_of_wellFormed {base : IdentifierBase} (hbase : base.WellFormed)
    {extras : List String} (h : ∀ part ∈ extras, '.' ∉ part.toList) :
    KeepsExtras ⟨base, mergeExtras extras⟩ extras := by
  have hparts := extraParts_mergeExtras base h
  have hwell : WellFormed ⟨base, mergeExtras extras⟩ := hbase
  refine ⟨hparts, fun n => ⟨_, parse_text_limit hwell n, rfl, ?_⟩⟩
  rw [extraParts_truncate, hparts]

/-- A limit never decides whether a text reads nor as which base, and keeps the first extra parts.
Writing what was read and reading it under another limit is reading the first text under the
tighter of the two limits, so a shortened identifier stays in its encoding. An identifier made with
extra parts that hold no dot gives back these parts, and the first of them under a limit. -/
theorem parse_under_limits :
    (∀ s n e, parse s n = .error e ↔ parse s (-1) = .error e) ∧
    (∀ s n u v, parse s n = .ok u → parse s (-1) = .ok v →
      u.base = v.base ∧ u.extraParts = allowed n v.extraParts ∧
        (u.extra = none ↔ allowed n v.extraParts = [])) ∧
    (∀ s n u, parse s n = .ok u →
      (∀ m, parse u.text m = parse s (tighter n m) ∧
        ∃ v, parse u.text m = .ok v ∧ v.base = u.base) ∧
      ∀ m, parse u.withoutExtra.text m = .ok u.withoutExtra) ∧
    (∀ hash content time extras, (∀ part ∈ extras, '.' ∉ part.toList) →
      KeepsExtras (ofContentBy hash content time extras) extras) ∧
    ∀ (σ : Type) (next : NextTick σ) machine time extras env u,
      (∀ part ∈ extras, '.' ∉ part.toList) →
      (snowflake next machine time extras env).1 = .ok u → KeepsExtras u extras := by
  refine ⟨?_, ?_, ?_, ?_, ?_⟩
  · intro s n e
    rw [parse_eq_map_truncate]
    cases parse s (-1) <;> simp [Except.map]
  · intro s n u v hu hv
    obtain ⟨w, hw, rfl⟩ := exists_parse_of_parse hu
    obtain rfl : v = w := Except.ok.inj (hv.symm.trans hw)
    exact ⟨rfl, extraParts_truncate n v, mergeExtras_eq_none_iff⟩
  · intro s n u hu
    have hwell := wellFormed_of_parse hu
    have hbare : u.withoutExtra.WellFormed := hwell
    refine ⟨fun m => ⟨parse_text_of_parse hu m, _, parse_text_limit hwell m, rfl⟩, fun m => ?_⟩
    rw [parse_text_limit hbare, ← truncate_zero, truncate_truncate]
    cases m <;> simp [tighter, truncate, allowed]
  · intro hash content time extras hdots
    exact keepsExtras_of_wellFormed (wellFormed_ofContentBy hash content time extras) hdots
  · intro σ next machine time extras env u hdots hu
    have hwell := wellFormed_of_snowflake hu
    obtain ⟨b, rfl⟩ := eq_of_snowflake hu
    exact keepsExtras_of_wellFormed hwell hdots

end ShardQuery.Identifier
