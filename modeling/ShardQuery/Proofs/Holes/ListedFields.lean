import Mathlib.Tactic.Tauto
import ShardQuery.Proofs.Holes.Sweep

/-!
# The fields of a listing

The fields of a listing are those that a text names or that a hole was recorded for, in increasing
order. A field that was recorded has a hole. A field that a text names with an empty list stays
without one until one is recorded for it, and is a field of the listing all the same.
-/

namespace ShardQuery.HoleListing

/-- The fields that a text names, each with the holes listed for it, in the order of the text. -/
def listed (s : String) : List (String × List Hole) :=
  ((Json.read? s).bind (Json.asMembers? (Json.asList? Hole.ofJson?))).getD []

inductive Begins : HoleListing → List (String × List Hole) → Prop
  | new : Begins {} []
  | loaded {s : String} {l : HoleListing} (hparse : parse s = .ok l) : Begins l (listed s)

/-- The last list of a field, which is the one that counts, has no hole. -/
def LeftEmpty (members : List (String × List Hole)) (field : String) : Prop :=
  members.reverse.lookup field = some []

variable {l : HoleListing} {members : List (String × List Hole)} {recorded : List (String × Hole)}
  {field : String}

theorem parse_eq_ok_iff {s : String} :
    parse s = .ok l ↔
      (Json.read? s).bind ofJson? = some l ∧ HoleSet.validateAll l.allHoles = .ok () := by
  unfold parse
  cases (Json.read? s).bind ofJson? with
  | none => simp
  | some l' =>
    dsimp only
    rw [Option.some.injEq]
    cases hvalid : HoleSet.validateAll l'.allHoles with
    | ok =>
      rw [Except.ok.injEq]
      exact ⟨fun h => ⟨h, h ▸ hvalid⟩, And.left⟩
    | error e =>
      refine iff_of_false (by rintro ⟨⟩) ?_
      rintro ⟨rfl, hok⟩
      rw [hvalid] at hok
      cases hok

theorem eq_ofList_of_parse {s : String} (h : parse s = .ok l) : l = ⟨.ofList (listed s)⟩ := by
  obtain ⟨v, hv, hl⟩ := Option.bind_eq_some_iff.1 (parse_eq_ok_iff.1 h).1
  simp only [ofJson?, bind, pure, Option.bind_eq_some_iff, Option.some.injEq] at hl
  obtain ⟨members, hmembers, rfl⟩ := hl
  rw [listed, hv, Option.bind_some, hmembers, Option.getD_some]

theorem Begins.find?_byField (h : Begins l members) (field : String) :
    l.byField.find? field = members.reverse.lookup field := by
  cases h with
  | new => rfl
  | loaded hparse =>
    rw [eq_ofList_of_parse hparse]
    exact OrderedMap.find?_ofList _ field

theorem mem_of_leftEmpty (h : LeftEmpty members field) : (field, []) ∈ members := by
  obtain ⟨before, after, hsplit, -⟩ := List.lookup_eq_some_iff.1 h
  rw [← List.mem_reverse, hsplit]
  exact List.mem_append_right before List.mem_cons_self

/-! ## Fields -/

theorem pairwise_fields (l : HoleListing) : l.fields.Pairwise (· < ·) :=
  List.pairwise_map.2 (l.byField.increasing.imp compareOfLessAndEq_eq_lt.1)

theorem mem_fields_iff : field ∈ l.fields ↔ ∃ holes, l.byField.find? field = some holes :=
  OrderedMap.mem_keys_iff

theorem mem_fields_insert {other : String} {hole : Hole} :
    field ∈ (l.insert other hole).fields ↔ field = other ∨ field ∈ l.fields := by
  rw [mem_fields_iff, mem_fields_iff, insert, OrderedMap.find?_insert]
  by_cases h : field = other <;> simp [h]

theorem mem_fields_insertAll :
    field ∈ (l.insertAll recorded).fields ↔ field ∈ l.fields ∨ field ∈ recorded.map Prod.fst := by
  induction recorded generalizing l with
  | nil => simp [insertAll]
  | cons p recorded ih =>
    have hstep : l.insertAll (p :: recorded) = (l.insert p.1 p.2).insertAll recorded := rfl
    rw [hstep, ih, mem_fields_insert, List.map_cons, List.mem_cons, or_left_comm, or_assoc]

/-! ## Fields with holes -/

theorem isEmpty_holesFor_eq_false_iff :
    (l.holesFor field).isEmpty = false ↔ ∃ hole, hole ∈ l.holesFor field := by
  rw [OrderedSet.isEmpty, List.isEmpty_eq_false_iff_exists_mem]
  rfl

theorem exists_mem_holesFor_iff :
    (∃ hole, hole ∈ l.holesFor field) ↔
      ∃ holes, l.byField.find? field = some holes ∧ holes ≠ [] := by
  have hnone : ¬∃ hole, hole ∈ (∅ : HoleSet) := fun ⟨hole, hmem⟩ => by cases hmem
  rw [holesFor]
  cases l.byField.find? field with
  | none => simpa using hnone
  | some holes => simp [OrderedSet.mem_ofList, ← List.isEmpty_eq_false_iff_exists_mem]

theorem mem_fields_iff_of_begins (h : Begins l members) :
    field ∈ l.fields ↔ (∃ hole, hole ∈ l.holesFor field) ∨ LeftEmpty members field := by
  rw [mem_fields_iff, exists_mem_holesFor_iff, LeftEmpty, ← h.find?_byField]
  cases l.byField.find? field with
  | none => simp
  | some holes => simpa [or_comm] using Classical.em (holes = [])

theorem not_leftEmpty_of_mem (h : Begins l members) {hole : Hole} (hmem : hole ∈ l.holesFor field) :
    ¬LeftEmpty members field := by
  obtain ⟨holes, hfound, hne⟩ := exists_mem_holesFor_iff.1 ⟨hole, hmem⟩
  rw [LeftEmpty, ← h.find?_byField, hfound, Option.some.injEq]
  exact hne

/-- However holes were recorded after the beginning, the fields stand in increasing order, and they
are those that have a hole and those that were left empty in the beginning and not recorded since.
So they are exactly the fields that have a hole when every field left empty was recorded. -/
theorem fields_insertAll (h : Begins l members) (recorded : List (String × Hole)) :
    let r := l.insertAll recorded
    r.fields.Pairwise (· < ·) ∧
    (∀ field, field ∈ r.fields ↔ (r.holesFor field).isEmpty = false ∨
      LeftEmpty members field ∧ field ∉ recorded.map Prod.fst) ∧
    ((∀ field, field ∈ r.fields ↔ (r.holesFor field).isEmpty = false) ↔
      ∀ field, LeftEmpty members field → field ∈ recorded.map Prod.fst) := by
  intro r
  have hrecorded (field : String) :
      (∃ hole, (field, hole) ∈ recorded) ↔ field ∈ recorded.map Prod.fst := by simp
  have hholes (field : String) : (r.holesFor field).isEmpty = false ↔
      (∃ hole, hole ∈ l.holesFor field) ∨ field ∈ recorded.map Prod.fst := by
    rw [isEmpty_holesFor_eq_false_iff, ← hrecorded, ← exists_or]
    exact exists_congr fun hole => mem_holesFor_insertAll
  have hfields (field : String) : field ∈ r.fields ↔ (r.holesFor field).isEmpty = false ∨
      LeftEmpty members field ∧ field ∉ recorded.map Prod.fst := by
    rw [mem_fields_insertAll, mem_fields_iff_of_begins h, hholes]
    tauto
  refine ⟨r.pairwise_fields, hfields, ?_⟩
  constructor
  · intro hexact field hempty
    by_cases hrecorded : field ∈ recorded.map Prod.fst
    · exact hrecorded
    · have hhole := (hexact field).1 ((hfields field).2 (.inr ⟨hempty, hrecorded⟩))
      obtain ⟨hole, hmem⟩ := ((hholes field).1 hhole).resolve_right hrecorded
      exact absurd hempty (not_leftEmpty_of_mem h hmem)
  · intro hall field
    rw [hfields]
    exact or_iff_left fun ⟨hempty, hunrecorded⟩ => hunrecorded (hall field hempty)

theorem fields_insertAll_refilled :
    ∃ l, parse "\x7b\"AGE\":[],\"NAME\":[]\x7d" = .ok l ∧
      let r := l.insertAll [("NAME", ⟨"a", "b", "", ""⟩), ("AGE", ⟨"30", "40", "", ""⟩)]
      r.fields = ["AGE", "NAME"] ∧
        ∀ field, field ∈ r.fields ↔ (r.holesFor field).isEmpty = false := by
  have hparse : parse "\x7b\"AGE\":[],\"NAME\":[]\x7d" =
      .ok ⟨.ofList [("AGE", []), ("NAME", [])]⟩ :=
    parse_eq_ok_iff.2 ⟨by decide +kernel, rfl⟩
  obtain ⟨-, -, hexact⟩ := fields_insertAll (.loaded hparse)
    [("NAME", ⟨"a", "b", "", ""⟩), ("AGE", ⟨"30", "40", "", ""⟩)]
  have hlisted : listed "\x7b\"AGE\":[],\"NAME\":[]\x7d" = [("AGE", []), ("NAME", [])] := by
    decide +kernel
  refine ⟨_, hparse, by decide +kernel, hexact.2 fun field hempty => ?_⟩
  have hmem := mem_of_leftEmpty hempty
  rw [hlisted] at hmem
  simpa [or_comm] using hmem

/-- A field that was loaded with an empty list is a field of the listing and has no hole. -/
theorem fields_of_emptyList :
    ∃ l, parse "\x7b\"AGE\":[]\x7d" = .ok l ∧ l.fields = ["AGE"] ∧
      (l.holesFor "AGE").isEmpty = true := by
  have hparse : parse "\x7b\"AGE\":[]\x7d" = .ok ⟨.ofList [("AGE", [])]⟩ :=
    parse_eq_ok_iff.2 ⟨by decide +kernel, rfl⟩
  exact ⟨_, hparse, rfl, rfl⟩

end ShardQuery.HoleListing
