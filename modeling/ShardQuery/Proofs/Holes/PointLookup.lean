import ShardQuery.Proofs.Holes.Sweep

/-!
# Range look-ups as point look-ups

A valid hole has its bounds the right way round, so it meets a range of values on a range of days
exactly when it holds one value of the range on one day of the range. The later of the two starts
will do in either direction. A set of valid holes therefore allows the index for a range exactly
when it allows it at every point.
-/

namespace ShardQuery

theorem exists_shared {start stop start' stop' : String} (h : start ≤ stop) (h' : start' ≤ stop')
    (hleft : start ≤ stop') (hright : start' ≤ stop) :
    ∃ x, (x = start ∨ x = start') ∧ (start ≤ x ∧ x ≤ stop) ∧ start' ≤ x ∧ x ≤ stop' := by
  rcases String.le_total start start' with horder | horder
  · exact ⟨start', Or.inr rfl, ⟨horder, hright⟩, String.le_refl start', h'⟩
  · exact ⟨start, Or.inl rfl, ⟨String.le_refl start, h⟩, horder, hleft⟩

namespace Hole

theorem overlaps_iff {h : Hole} {queryStart queryEnd value : String} :
    h.overlaps queryStart queryEnd value = true ↔
      (h.startValue ≤ value ∧ value ≤ h.endValue) ∧
        h.startDate ≤ queryEnd ∧ queryStart ≤ h.endDate := by
  simp [overlaps, overlapsDates]

theorem overlapsRange_iff {h : Hole} {queryStart queryEnd lower upper : String} :
    h.overlapsRange queryStart queryEnd lower upper = true ↔
      (h.startValue ≤ upper ∧ lower ≤ h.endValue) ∧
        h.startDate ≤ queryEnd ∧ queryStart ≤ h.endDate := by
  simp [overlapsRange, overlapsDates]

/-- A hole that holds a point of a rectangle meets the rectangle, valid or not. -/
theorem overlapsRange_of_point {h : Hole} {queryStart queryEnd lower upper day value : String}
    (hvalue : lower ≤ value ∧ value ≤ upper) (hday : queryStart ≤ day ∧ day ≤ queryEnd)
    (hpoint : h.overlaps day day value = true) :
    h.overlapsRange queryStart queryEnd lower upper = true := by
  obtain ⟨⟨hstart, hend⟩, hfrom, hto⟩ := overlaps_iff.1 hpoint
  refine overlapsRange_iff.2 ⟨⟨?_, ?_⟩, ?_, ?_⟩
  · exact Std.le_trans hstart hvalue.2
  · exact Std.le_trans hvalue.1 hend
  · exact Std.le_trans hfrom hday.2
  · exact Std.le_trans hday.1 hto

/-- A valid hole that meets a rectangle holds a point of it, on its own first day or on that of the
rectangle. -/
theorem exists_point_of_overlapsRange {h : Hole} (hvalid : h.IsValid)
    {queryStart queryEnd lower upper : String} (hdays : queryStart ≤ queryEnd)
    (hvalues : lower ≤ upper) (hmeets : h.overlapsRange queryStart queryEnd lower upper = true) :
    ∃ value day, (lower ≤ value ∧ value ≤ upper) ∧ (queryStart ≤ day ∧ day ≤ queryEnd) ∧
      (day = h.startDate ∨ day = queryStart) ∧ h.overlaps day day value = true := by
  obtain ⟨⟨hstart, hend⟩, hfrom, hto⟩ := overlapsRange_iff.1 hmeets
  obtain ⟨value, -, hin, hbetween⟩ := exists_shared hvalid.values hvalues hstart hend
  obtain ⟨day, hwhich, hon, hwithin⟩ := exists_shared hvalid.dates hdays hfrom hto
  exact ⟨value, day, hbetween, hwithin, hwhich, overlaps_iff.2 ⟨hin, hon⟩⟩

end Hole

namespace HoleSet

theorem usableForValue_iff {s : HoleSet} {queryStart queryEnd value : String} :
    s.usableForValue queryStart queryEnd value = true ↔
      ∀ h ∈ s, ¬ h.overlaps queryStart queryEnd value = true := by
  rw [usableForValue, List.isEmpty_iff, overlappingValue_eq_filter, List.filter_eq_nil_iff]
  rfl

theorem usableForRange_iff {s : HoleSet} {queryStart queryEnd lower upper : String} :
    s.usableForRange queryStart queryEnd lower upper = true ↔
      ∀ h ∈ s, ¬ h.overlapsRange queryStart queryEnd lower upper = true := by
  rw [usableForRange, List.isEmpty_iff, overlappingRange_eq_filter, List.filter_eq_nil_iff]
  rfl

/-- It is enough to look at days of some kind to which the first days of the holes and of the
rectangle belong. -/
private theorem usableForRange_iff_ofKind {s : HoleSet} (hvalid : ∀ h ∈ s, h.validate = .ok ())
    {queryStart queryEnd lower upper : String} (hdays : queryStart ≤ queryEnd)
    (hvalues : lower ≤ upper) {IsOfKind : String → Prop} (hfirst : IsOfKind queryStart)
    (hholes : ∀ h ∈ s, IsOfKind h.startDate) :
    s.usableForRange queryStart queryEnd lower upper = true ↔
      ∀ value day, lower ≤ value → value ≤ upper → queryStart ≤ day → day ≤ queryEnd →
        IsOfKind day → s.usableForValue day day value = true := by
  simp only [usableForRange_iff, usableForValue_iff]
  constructor
  · intro hnone value day hlower hupper hfrom hto _ h hmem hpoint
    exact hnone h hmem (Hole.overlapsRange_of_point ⟨hlower, hupper⟩ ⟨hfrom, hto⟩ hpoint)
  · intro hpoints h hmem hmeets
    obtain ⟨value, day, hvalue, hday, hwhich, hpoint⟩ := Hole.exists_point_of_overlapsRange
      (Hole.validate_eq_ok_iff.1 (hvalid h hmem)) hdays hvalues hmeets
    have hkind : IsOfKind day := by
      rcases hwhich with rfl | rfl
      · exact hholes h hmem
      · exact hfirst
    exact hpoints value day hvalue.1 hvalue.2 hday.1 hday.2 hkind h hmem hpoint

/-- With valid holes and a rectangle whose bounds are the right way round the index is usable for
the rectangle exactly when it is usable at each of its points. Only days of the calendar have to be
looked at when the first day of the rectangle is one. Looking up a value is looking up the range of
that value alone. -/
theorem usableForRange_iff_points (s : HoleSet) (hvalid : ∀ h ∈ s, h.validate = .ok ())
    {queryStart queryEnd lower upper : String} (hdays : queryStart ≤ queryEnd)
    (hvalues : lower ≤ upper) :
    (s.usableForRange queryStart queryEnd lower upper = true ↔
      ∀ value day, lower ≤ value → value ≤ upper → queryStart ≤ day → day ≤ queryEnd →
        s.usableForValue day day value = true) ∧
    (DayText.isValid queryStart = true →
      (s.usableForRange queryStart queryEnd lower upper = true ↔
        ∀ value day, lower ≤ value → value ≤ upper → queryStart ≤ day → day ≤ queryEnd →
          DayText.isValid day = true → s.usableForValue day day value = true)) ∧
    ∀ first last value,
      s.usableForValue first last value = s.usableForRange first last value value := by
  refine ⟨?_, ?_, ?_⟩
  · have hall := @usableForRange_iff_ofKind s hvalid queryStart queryEnd lower upper hdays hvalues
      (fun _ => True) trivial fun _ _ => trivial
    simpa only [forall_const] using hall
  · intro hfirst
    exact usableForRange_iff_ofKind hvalid hdays hvalues hfirst fun h hmem =>
      (Hole.validate_eq_ok_iff.1 (hvalid h hmem)).startDate
  · intro first last value
    rw [Bool.eq_iff_iff, usableForValue_iff, usableForRange_iff]
    simp only [Hole.overlaps_iff, Hole.overlapsRange_iff]

/-- Between two holes of January every value is safe on every day, and across the end of the first
one some value is not. -/
theorem usableForRange_iff_points_january :
    let s : HoleSet := OrderedSet.ofList
      [⟨"60", "70", "20200101", "20200131"⟩, ⟨"10", "50", "20200101", "20200131"⟩]
    (∀ h ∈ s, h.validate = .ok ()) ∧
      (∀ value day, "51" ≤ value → value ≤ "59" → "20191201" ≤ day → day ≤ "20200110" →
        s.usableForValue day day value = true) ∧
      ¬ ∀ value day, "45" ≤ value → value ≤ "55" → "20191201" ≤ day → day ≤ "20200110" →
        DayText.isValid day = true → s.usableForValue day day value = true := by
  intro s
  have hvalid : ∀ h ∈ s, h.validate = .ok () := by
    intro h hmem
    simp only [s, OrderedSet.mem_ofList, List.mem_cons, List.not_mem_nil, or_false] at hmem
    rcases hmem with rfl | rfl <;> rfl
  have hdays : "20191201" ≤ "20200110" := by decide
  obtain ⟨hfree, -, -⟩ := s.usableForRange_iff_points hvalid hdays (by decide : "51" ≤ "59")
  obtain ⟨-, hblocked, -⟩ := s.usableForRange_iff_points hvalid hdays (by decide : "45" ≤ "55")
  refine ⟨hvalid, hfree.1 (by decide +kernel), fun hall => ?_⟩
  have hmissed := (hblocked (by decide +kernel)).2 hall
  exact absurd hmissed (by decide +kernel)

end HoleSet
end ShardQuery
