import ShardQuery.Holes.Listing
import ShardQuery.Proofs.Holes.DaySpelling

/-!
# The days of a hole

Holes that are made with a check or loaded are valid, and both their days are days of the calendar.
As long as neither holds a blank they are written in eight digits, so the comparison of their texts
is that of the days. With a blank a hole can end before it starts.
-/

namespace ShardQuery

namespace HoleSet

theorem validateAll_eq_ok_iff {holes : List Hole} :
    validateAll holes = .ok () ↔ ∀ h ∈ holes, h.validate = .ok () := by
  induction holes with
  | nil => simp [validateAll, pure, Except.pure]
  | cons h holes ih =>
    have hforM : validateAll (h :: holes) = h.validate >>= fun _ => validateAll holes := rfl
    rw [List.forall_mem_cons, ← ih, hforM]
    cases h.validate <;> simp [bind, Except.bind]

theorem validate_of_mem_parse {s : String} {set : HoleSet} (h : parse s = .ok set) {hole : Hole}
    (hmem : hole ∈ set) : hole.validate = .ok () := by
  unfold parse at h
  split at h
  · cases h
  · next holes _ =>
    split at h
    · next hall =>
      cases h
      exact validateAll_eq_ok_iff.1 hall hole (OrderedSet.mem_ofList.1 hmem)
    · cases h

end HoleSet

namespace HoleListing

theorem mem_allHoles_of_mem_holesFor {l : HoleListing} {field : String} {hole : Hole}
    (h : hole ∈ l.holesFor field) : hole ∈ l.allHoles := by
  unfold holesFor at h
  split at h
  · next holes hfound =>
    exact List.mem_flatMap.2 ⟨_, OrderedMap.mem_of_find? hfound, OrderedSet.mem_ofList.1 h⟩
  · cases h

theorem validate_of_mem_parse {s : String} {l : HoleListing} (h : parse s = .ok l) {field : String}
    {hole : Hole} (hmem : hole ∈ l.holesFor field) : hole.validate = .ok () := by
  unfold parse at h
  split at h
  · cases h
  · split at h
    · next hall =>
      cases h
      exact HoleSet.validateAll_eq_ok_iff.1 hall hole (mem_allHoles_of_mem_holesFor hmem)
    · cases h

end HoleListing

namespace Hole

open DayText (Names Unspaced)

theorem names_of_isValid {s : String} (h : DayText.isValid s = true) :
    ∃ d : Date, d.isValid = true ∧ DayText.parseChars? s.toList = some d ∧
      (Unspaced s.toList ↔ Names s d) := by
  obtain ⟨d, hparse, hd⟩ := DayText.exists_parseChars?_of_isValid h
  refine ⟨d, hd, hparse, ?_⟩
  rw [DayText.names_iff]
  exact ⟨fun hs => ⟨h, hs, hparse⟩, fun hnames => hnames.2.1⟩

theorem overlapsDates_iff_toDays {h : Hole} {first last a b : Date} {s t : String}
    (hfirst : Names h.startDate first) (hlast : Names h.endDate last) (hs : Names s a)
    (ht : Names t b) :
    h.overlapsDates s t = true ↔ first.toDays ≤ b.toDays ∧ a.toDays ≤ last.toDays := by
  rw [overlapsDates, Bool.and_eq_true, decide_eq_true_eq, decide_eq_true_eq, hfirst.le_iff ht,
    hs.le_iff hlast]

/-- The holes that were checked, when they were made or when they were loaded. -/
inductive Accepted (h : Hole) : Prop
  | made (hvalid : h.validate = .ok ())
  | inSet {s : String} {set : HoleSet} (hparse : HoleSet.parse s = .ok set) (hmem : h ∈ set)
  | inListing {s field : String} {l : HoleListing} (hparse : HoleListing.parse s = .ok l)
      (hmem : h ∈ l.holesFor field)

theorem Accepted.isValid {h : Hole} (hh : Accepted h) : h.IsValid := by
  rw [← validate_eq_ok_iff]
  cases hh with
  | made hvalid => exact hvalid
  | inSet hparse hmem => exact HoleSet.validate_of_mem_parse hparse hmem
  | inListing hparse hmem => exact HoleListing.validate_of_mem_parse hparse hmem

def days (h : Hole) : List String := [h.startDate, h.endDate]

def InCalendar (h : Hole) : Prop :=
  ∃ first last, Names h.startDate first ∧ Names h.endDate last ∧ first.toDays ≤ last.toDays

theorem Accepted.names {h : Hole} (hh : Accepted h) {s : String} (hs : s ∈ h.days) :
    ∃ d : Date, d.isValid = true ∧ DayText.parseChars? s.toList = some d ∧
      (Unspaced s.toList ↔ Names s d) := by
  simp only [days, List.mem_cons, List.not_mem_nil, or_false] at hs
  rcases hs with rfl | rfl
  · exact names_of_isValid hh.isValid.startDate
  · exact names_of_isValid hh.isValid.endDate

theorem Accepted.inCalendar_iff {h : Hole} (hh : Accepted h) :
    InCalendar h ↔ ∀ s ∈ h.days, Unspaced s.toList := by
  rw [days, List.forall_mem_cons, List.forall_mem_singleton]
  constructor
  · rintro ⟨first, last, hfirst, hlast, -⟩
    exact ⟨(DayText.names_iff.1 hfirst).2.1, (DayText.names_iff.1 hlast).2.1⟩
  · rintro ⟨hstart, hend⟩
    obtain ⟨first, -, -, hfirst⟩ := names_of_isValid hh.isValid.startDate
    obtain ⟨last, -, -, hlast⟩ := names_of_isValid hh.isValid.endDate
    have hfirst := hfirst.1 hstart
    have hlast := hlast.1 hend
    exact ⟨first, last, hfirst, hlast, (hfirst.le_iff hlast).1 hh.isValid.dates⟩

/-- Both texts of an accepted hole are read as days of the calendar. They are these days in eight
digits exactly when they hold no blank, and then the hole does not end before it starts. Texts
without blank from any two holes are in the order of their days, and a hole with such texts meets
the days of a query exactly when its days do. -/
theorem calendar_of_accepted {h : Hole} (hh : Accepted h) :
    (∀ s ∈ h.days, ∃ d : Date, d.isValid = true ∧ DayText.parseChars? s.toList = some d ∧
      (Unspaced s.toList ↔ Names s d)) ∧
    (InCalendar h ↔ ∀ s ∈ h.days, Unspaced s.toList) ∧
    (∀ k, Accepted k → ∀ s ∈ h.days, ∀ t ∈ k.days, Unspaced s.toList → Unspaced t.toList →
      ∃ a b, Names s a ∧ Names t b ∧ (s ≤ t ↔ a.toDays ≤ b.toDays)) ∧
    ∀ first last s t a b, Names h.startDate first → Names h.endDate last → Names s a → Names t b →
      (h.overlapsDates s t = true ↔ first.toDays ≤ b.toDays ∧ a.toDays ≤ last.toDays) := by
  refine ⟨fun _ => hh.names, hh.inCalendar_iff, ?_, fun _ _ _ _ _ _ => overlapsDates_iff_toDays⟩
  intro k hk s hs t ht hsUnspaced htUnspaced
  obtain ⟨a, -, -, ha⟩ := hh.names hs
  obtain ⟨b, -, -, hb⟩ := hk.names ht
  have ha := ha.1 hsUnspaced
  have hb := hb.1 htUnspaced
  exact ⟨a, b, ha, hb, ha.le_iff hb⟩

theorem calendar_of_accepted_january :
    Accepted ⟨"10", "50", "20200101", "20200131"⟩ ∧
      InCalendar ⟨"10", "50", "20200101", "20200131"⟩ := by
  have haccepted : Accepted ⟨"10", "50", "20200101", "20200131"⟩ := .made rfl
  obtain ⟨-, hcalendar, -⟩ := calendar_of_accepted haccepted
  have hunspaced : ∀ s ∈ ["20200101", "20200131"], Unspaced s.toList := by
    rw [List.forall_mem_cons, List.forall_mem_singleton]
    exact ⟨by decide, by decide⟩
  exact ⟨haccepted, hcalendar.2 hunspaced⟩

/-- A blank in front leaves one digit for the day and makes a text that is before all others, so a
hole that starts in October can end in January of the same year. -/
theorem accepted_leading_blank :
    Accepted ⟨"a", "b", " 2020101", "20200101"⟩ ∧
      ¬ InCalendar ⟨"a", "b", " 2020101", "20200101"⟩ ∧
      DayText.parseChars? " 2020101".toList = some ⟨2020, 10, 1⟩ ∧
      DayText.parseChars? "20200101".toList = some ⟨2020, 1, 1⟩ ∧
      " 2020101" ≤ "20200101" ∧
      (⟨2020, 1, 1⟩ : Date).toDays < (⟨2020, 10, 1⟩ : Date).toDays := by
  have hblank : ¬ Unspaced " 2020101".toList := by decide
  refine ⟨.made rfl, ?_, rfl, rfl, by decide, by decide⟩
  rintro ⟨first, -, hfirst, -⟩
  exact hblank (DayText.names_iff.1 hfirst).2.1

end Hole
end ShardQuery
