import ShardQuery.Holes.Listing

/-!
# Sweeps over holes

A set of holes is the increasing list of the holes that it was made from. The sweep of a look-up
may stop at the first hole that starts above the probe, since every later hole starts above it too,
so a look-up gives the members that meet the probe whatever the bounds of holes and probe are. A
listing gives the same sets, field by field.
-/

namespace ShardQuery

namespace Hole

/-- Order by start value, then end value, then start day, then end day. -/
def Precedes (a b : Hole) : Prop :=
  a.startValue < b.startValue ∨ a.startValue = b.startValue ∧
    (a.endValue < b.endValue ∨ a.endValue = b.endValue ∧
      (a.startDate < b.startDate ∨ a.startDate = b.startDate ∧ a.endDate < b.endDate))

theorem order_eq_lt_iff {a b : Hole} : order a b = .lt ↔ a.Precedes b := by
  simp only [order, compareLex, compareOn, Ordering.then_eq_lt, Std.LawfulEqOrd.compare_eq_iff_eq,
    Precedes]
  exact or_congr compareOfLessAndEq_eq_lt <| and_congr_right' <|
    or_congr compareOfLessAndEq_eq_lt <| and_congr_right' <|
      or_congr compareOfLessAndEq_eq_lt <| and_congr_right' compareOfLessAndEq_eq_lt

theorem Precedes.startValue_le {a b : Hole} (h : a.Precedes b) : a.startValue ≤ b.startValue := by
  rcases h with hlt | ⟨heq, -⟩
  · exact Std.le_of_lt hlt
  · exact heq ▸ String.le_refl a.startValue

theorem after_eq_false_iff {h : Hole} {value : String} :
    h.after value = false ↔ h.startValue ≤ value :=
  decide_eq_false_iff_not.trans String.not_lt

theorem before_eq_false_iff {h : Hole} {value : String} :
    h.before value = false ↔ value ≤ h.endValue :=
  decide_eq_false_iff_not.trans String.not_lt

end Hole

namespace HoleSet

/-- A sweep that stops early loses nothing that is looked for, when a hole at which it goes on has
only such holes before it. -/
private theorem filter_takeWhile {goesOn wanted : Hole → Bool} {l : List Hole}
    (hl : l.Pairwise fun a b => goesOn b = true → goesOn a = true)
    (hwanted : ∀ h, wanted h = true → goesOn h = true) :
    (l.takeWhile goesOn).filter wanted = l.filter wanted := by
  induction l with
  | nil => rfl
  | cons h l ih =>
    obtain ⟨hlater, hrest⟩ := List.pairwise_cons.1 hl
    by_cases hgoes : goesOn h = true
    · rw [List.takeWhile_cons_of_pos hgoes, List.filter_cons, List.filter_cons, ih hrest]
    · have hnone : ∀ a ∈ h :: l, ¬ wanted a = true := by
        intro a ha hwant
        rcases List.mem_cons.1 ha with rfl | ha
        · exact hgoes (hwanted a hwant)
        · exact hgoes (hlater a ha (hwanted a hwant))
      rw [List.takeWhile_cons_of_neg hgoes, List.filter_eq_nil_iff.2 hnone, List.filter_nil]

theorem pairwise_precedes (s : HoleSet) : s.toList.Pairwise Hole.Precedes :=
  s.increasing.imp Hole.order_eq_lt_iff.1

/-- Stopping above the upper end of a probe and leaving out what is below its lower end changes
nothing for holes that reach from the one to the other. -/
private theorem sweep_eq_filter (s : HoleSet) {lower upper : String} {meets : Hole → Bool}
    (hmeets : ∀ h, meets h = true → h.startValue ≤ upper ∧ lower ≤ h.endValue) :
    ((s.toList.takeWhile fun h => !h.after upper).filter fun h => !h.before lower).filter meets =
      s.toList.filter meets := by
  have hbefore : ∀ h, (meets h && !h.before lower) = meets h := by
    intro h
    cases hmeet : meets h with
    | false => rfl
    | true => rw [Hole.before_eq_false_iff.2 (hmeets h hmeet).2]; rfl
  simp only [List.filter_filter, hbefore]
  refine filter_takeWhile (s.pairwise_precedes.imp ?_) ?_
  · intro a b hab hb
    have hstart : b.startValue ≤ upper := Hole.after_eq_false_iff.1 (by simpa using hb)
    simpa using Hole.after_eq_false_iff.2 (Std.le_trans hab.startValue_le hstart)
  · intro h hmeet
    simpa using Hole.after_eq_false_iff.2 (hmeets h hmeet).1

theorem overlappingValue_eq_filter (s : HoleSet) (queryStart queryEnd value : String) :
    s.overlappingValue queryStart queryEnd value =
      s.toList.filter fun h => h.overlaps queryStart queryEnd value := by
  refine s.sweep_eq_filter ?_
  intro h hmeets
  simp only [Hole.overlaps, Bool.and_eq_true, decide_eq_true_eq] at hmeets
  exact hmeets.1

theorem overlappingRange_eq_filter (s : HoleSet) (queryStart queryEnd lower upper : String) :
    s.overlappingRange queryStart queryEnd lower upper =
      s.toList.filter fun h => h.overlapsRange queryStart queryEnd lower upper := by
  refine s.sweep_eq_filter ?_
  intro h hmeets
  simp only [Hole.overlapsRange, Bool.and_eq_true, decide_eq_true_eq] at hmeets
  exact hmeets.1

end HoleSet

namespace HoleListing

def insertAll (l : HoleListing) (recorded : List (String × Hole)) : HoleListing :=
  recorded.foldl (fun l p => l.insert p.1 p.2) l

theorem mem_holesFor_insert {l : HoleListing} {field other : String} {hole h : Hole} :
    h ∈ (l.insert field hole).holesFor other ↔
      h ∈ l.holesFor other ∨ other = field ∧ h = hole := by
  have hnone : ¬ h ∈ (∅ : HoleSet) := fun hmem => by cases hmem
  simp only [holesFor, insert, OrderedMap.find?_insert]
  by_cases hfield : other = field
  · subst hfield
    cases l.byField.find? other <;> simp [OrderedSet.mem_ofList, hnone]
  · simp [hfield]

theorem mem_holesFor_insertAll {l : HoleListing} {recorded : List (String × Hole)}
    {field : String} {h : Hole} :
    h ∈ (l.insertAll recorded).holesFor field ↔
      h ∈ l.holesFor field ∨ (field, h) ∈ recorded := by
  induction recorded generalizing l with
  | nil => simp [insertAll]
  | cons p recorded ih =>
    have hstep : l.insertAll (p :: recorded) = (l.insert p.1 p.2).insertAll recorded := rfl
    rw [hstep, ih, mem_holesFor_insert, List.mem_cons, Prod.ext_iff, or_assoc]

end HoleListing

namespace HoleSet

/-- Any holes, valid or not, make the increasing list of themselves, whatever their order and
repetition. Every look-up gives the members that meet its probe, in order and each once, and the
index is usable when there is none. A listing gives the same set for a field once it has the same
holes for that field, however they and the holes of other fields came in. -/
theorem lookups_ofList (holes : List Hole) :
    let s : HoleSet := OrderedSet.ofList holes
    s.toList.Pairwise Hole.Precedes ∧ (∀ h, h ∈ s.toList ↔ h ∈ holes) ∧
      (∀ again : List Hole, (∀ h, h ∈ again ↔ h ∈ holes) → OrderedSet.ofList again = s) ∧
      (∀ queryStart queryEnd value,
        (s.overlappingValue queryStart queryEnd value =
          s.toList.filter fun h => h.overlaps queryStart queryEnd value) ∧
        (s.usableForValue queryStart queryEnd value = true ↔
          s.overlappingValue queryStart queryEnd value = [])) ∧
      (∀ queryStart queryEnd lower upper,
        (s.overlappingRange queryStart queryEnd lower upper =
          s.toList.filter fun h => h.overlapsRange queryStart queryEnd lower upper) ∧
        (s.usableForRange queryStart queryEnd lower upper = true ↔
          s.overlappingRange queryStart queryEnd lower upper = [])) ∧
      ∀ (l : HoleListing) (recorded : List (String × Hole)) (field : String),
        (∀ h, h ∈ l.holesFor field ∨ (field, h) ∈ recorded ↔ h ∈ holes) →
          (l.insertAll recorded).holesFor field = s := by
  intro s
  refine ⟨s.pairwise_precedes, fun _ => OrderedSet.mem_ofList, ?_, ?_, ?_, ?_⟩
  · intro again hagain
    exact OrderedSet.eq_of_mem_iff fun h =>
      OrderedSet.mem_ofList.trans ((hagain h).trans OrderedSet.mem_ofList.symm)
  · intro queryStart queryEnd value
    exact ⟨s.overlappingValue_eq_filter queryStart queryEnd value, List.isEmpty_iff⟩
  · intro queryStart queryEnd lower upper
    exact ⟨s.overlappingRange_eq_filter queryStart queryEnd lower upper, List.isEmpty_iff⟩
  · intro l recorded field hsame
    exact OrderedSet.eq_of_mem_iff fun h =>
      HoleListing.mem_holesFor_insertAll.trans ((hsame h).trans OrderedSet.mem_ofList.symm)

theorem lookups_ofList_twoFields :
    let wide : Hole := ⟨"0", "9", "20200101", "20200131"⟩
    let inverted : Hole := ⟨"7", "3", "20200101", "20200131"⟩
    let l := HoleListing.insertAll {}
      [("name", inverted), ("name", wide), ("date", ⟨"5", "5", "", ""⟩), ("name", wide)]
    l.holesFor "name" = OrderedSet.ofList [wide, inverted] ∧
      (l.holesFor "name").overlappingRange "20200110" "20200110" "3" "7" = [wide, inverted] ∧
      (l.holesFor "name").overlappingRange "20200110" "20200110" "8" "2" = [wide] := by
  intro wide inverted l
  obtain ⟨-, -, -, -, hranges, hlisting⟩ := lookups_ofList [wide, inverted]
  have hsame : l.holesFor "name" = OrderedSet.ofList [wide, inverted] := by
    refine hlisting {} _ "name" fun h => ?_
    have hnone : ¬ h ∈ (({} : HoleListing).holesFor "name") := fun hmem => by cases hmem
    simp [hnone, or_comm]
  rw [hsame]
  refine ⟨rfl, ?_, ?_⟩
  · rw [(hranges _ _ _ _).1]
    decide +kernel
  · rw [(hranges _ _ _ _).1]
    decide +kernel

end HoleSet
end ShardQuery
