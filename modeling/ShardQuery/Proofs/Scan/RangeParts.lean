import ShardQuery.Scan.MemoryStore

/-!
# Scans in parts

Ranges are split into parts that cover the same rows of a table and follow one another. Since a
table is in order of its rows, the scans of the parts one after the other return what the scan of
the whole returns, however the ranges within a part overlap.
-/

namespace ShardQuery

/-- Some entry of the table stands in the row. -/
def Table.HasRow (rows : Table) (row : String) : Prop :=
  ∃ e ∈ MemoryStore.entries rows, e.key.row = row

def RowRange.Cover (ranges : List RowRange) (row : String) : Prop :=
  ∃ g ∈ ranges, g.contains row = true

namespace RowRange

def Precede (rows : Table) (before after : List RowRange) : Prop :=
  ∀ a b, rows.HasRow a → rows.HasRow b → Cover before a → Cover after b → a < b

/-- The parts cover the rows of the table that the whole covers, and follow one another. -/
structure PartOf (rows : Table) (parts : List (List RowRange)) (whole : List RowRange) :
    Prop where
  cover : ∀ row, rows.HasRow row → (Cover whole row ↔ ∃ part ∈ parts, Cover part row)
  ordered : parts.Pairwise (Precede rows)

theorem PartOf.single (rows : Table) (whole : List RowRange) : PartOf rows [whole] whole where
  cover := by simp
  ordered := List.pairwise_singleton _ _

theorem cover_flatten {parts : List (List RowRange)} {row : String} :
    Cover parts.flatten row ↔ ∃ part ∈ parts, Cover part row := by
  constructor
  · rintro ⟨g, hg, hrow⟩
    obtain ⟨part, hpart, hg⟩ := List.mem_flatten.1 hg
    exact ⟨part, hpart, g, hg, hrow⟩
  · rintro ⟨part, hpart, g, hg, hrow⟩
    exact ⟨g, List.mem_flatten.2 ⟨part, hpart, hg⟩, hrow⟩

theorem contains_between {start stop row : String} :
    (between start stop).contains row = true ↔ start ≤ row ∧ row < stop := by
  simp [contains, between]

theorem PartOf.between (rows : Table) {start middle stop : String} (hstart : start ≤ middle)
    (hstop : middle ≤ stop) :
    PartOf rows [[RowRange.between start middle], [RowRange.between middle stop]]
      [RowRange.between start stop] where
  cover := by
    intro row _
    simp only [Cover, List.mem_cons, List.not_mem_nil, or_false, exists_eq_left, exists_eq_or_imp,
      contains_between]
    constructor
    · rintro ⟨hfrom, hto⟩
      by_cases hrow : row < middle
      · exact Or.inl ⟨hfrom, hrow⟩
      · exact Or.inr ⟨String.not_lt.1 hrow, hto⟩
    · rintro (⟨hfrom, hto⟩ | ⟨hfrom, hto⟩)
      · exact ⟨hfrom, Std.lt_of_lt_of_le hto hstop⟩
      · exact ⟨Std.le_trans hstart hfrom, hto⟩
  ordered := by
    refine List.pairwise_pair.2 ?_
    rintro a b - - ⟨g, hg, ha⟩ ⟨g', hg', hb⟩
    cases List.mem_singleton.1 hg
    cases List.mem_singleton.1 hg'
    exact Std.lt_of_lt_of_le (contains_between.1 ha).2 (contains_between.1 hb).1

end RowRange

theorem Key.row_le_of_lt {a b : Key} (h : compare a b = .lt) : a.row ≤ b.row := by
  have horder : (compare a.row b.row).then ((compare a.column b.column).then
      (compare a.visibility b.visibility)) = .lt := h
  rcases Ordering.then_eq_lt.1 horder with hrow | ⟨hrow, -⟩
  · exact Std.le_of_lt (compareOfLessAndEq_eq_lt.1 hrow)
  · have hsame : a.row = b.row := Std.LawfulEqOrd.eq_of_compare hrow
    exact hsame ▸ String.le_refl a.row

namespace MemoryStore

/-- What a scan of a table returns. -/
def returned (rows : Table) (authorizations : Authorizations) (ranges : List RowRange) :
    List Entry :=
  (entries rows).filter (returns authorizations ranges)

theorem scan_eq {s : MemoryStore} {table : String} {rows : Table} (h : s.find? table = some rows)
    (authorizations : Authorizations) (ranges : List RowRange) :
    s.scan table authorizations ranges = .ok (returned rows authorizations ranges) := by
  rw [scan, h]
  rfl

theorem returns_iff {authorizations : Authorizations} {ranges : List RowRange} {e : Entry} :
    returns authorizations ranges e = true ↔
      RowRange.Cover ranges e.key.row ∧ authorizations.canSee e.key.visibility = true := by
  simp [returns, RowRange.Cover]

theorem entries_increasing (rows : Table) :
    (entries rows).Pairwise fun a b => compare a.key b.key = .lt :=
  List.pairwise_map.2 rows.increasing

theorem returned_increasing (rows : Table) (authorizations : Authorizations)
    (ranges : List RowRange) :
    (returned rows authorizations ranges).Pairwise fun a b => compare a.key b.key = .lt :=
  (entries_increasing rows).filter _

theorem returned_nil (rows : Table) (authorizations : Authorizations) :
    returned rows authorizations [] = [] := by
  simp [returned, returns]

/-- Of entries in order, those of either kind are those of the first and then those of the second
if the rows of the first kind come before those of the second. -/
private theorem filter_or {l : List Entry} (hl : l.Pairwise fun a b => a.key.row ≤ b.key.row)
    {first second : Entry → Bool}
    (h : ∀ a ∈ l, ∀ b ∈ l, first a = true → second b = true → a.key.row < b.key.row) :
    l.filter (fun e => first e || second e) = l.filter first ++ l.filter second := by
  induction l with
  | nil => rfl
  | cons e l ih =>
    obtain ⟨hle, hl⟩ := List.pairwise_cons.1 hl
    have he : e ∈ e :: l := List.mem_cons_self
    have hmem {a : Entry} (ha : a ∈ l) : a ∈ e :: l := List.mem_cons_of_mem e ha
    have hrest := ih hl fun a ha b hb => h a (hmem ha) b (hmem hb)
    have hself : first e = true → second e = true → False :=
      fun hfirst hsecond => String.lt_irrefl _ (h e he e he hfirst hsecond)
    by_cases hfirst : first e = true
    · have hsecond : second e = false := Bool.eq_false_iff.2 (hself hfirst)
      simp [hfirst, hsecond, hrest]
    · by_cases hsecond : second e = true
      · -- all that is left comes after an entry of the second kind
        have hnone : l.filter first = [] := by
          rw [List.filter_eq_nil_iff]
          intro a ha hkind
          exact String.not_lt.2 (hle a ha) (h a (hmem ha) e he hkind hsecond)
        rw [hnone, List.nil_append] at hrest
        simp [hfirst, hsecond, hnone, hrest]
      · simp [hfirst, hsecond, hrest]

theorem returned_congr {rows : Table} (authorizations : Authorizations)
    {these those : List RowRange}
    (h : ∀ row, rows.HasRow row → (RowRange.Cover these row ↔ RowRange.Cover those row)) :
    returned rows authorizations these = returned rows authorizations those := by
  apply List.filter_congr
  intro e he
  rw [Bool.eq_iff_iff, returns_iff, returns_iff, h e.key.row ⟨e, he, rfl⟩]

private theorem returned_flatten (rows : Table) (authorizations : Authorizations)
    {parts : List (List RowRange)} (h : parts.Pairwise (RowRange.Precede rows)) :
    returned rows authorizations parts.flatten = parts.flatMap (returned rows authorizations) := by
  induction parts with
  | nil => exact returned_nil rows authorizations
  | cons part parts ih =>
    obtain ⟨hpart, hparts⟩ := List.pairwise_cons.1 h
    have heither (e : Entry) : returns authorizations (part ++ parts.flatten) e =
        (returns authorizations part e || returns authorizations parts.flatten e) := by
      simp [returns, Bool.and_or_distrib_right]
    have hrows : (entries rows).Pairwise fun a b => a.key.row ≤ b.key.row :=
      (entries_increasing rows).imp Key.row_le_of_lt
    rw [List.flatten_cons, List.flatMap_cons, ← ih hparts, returned, funext heither]
    refine filter_or hrows ?_
    intro a ha b hb hfirst hsecond
    obtain ⟨later, hlater, hrow⟩ := RowRange.cover_flatten.1 (returns_iff.1 hsecond).1
    exact hpart later hlater _ _ ⟨a, ha, rfl⟩ ⟨b, hb, rfl⟩ (returns_iff.1 hfirst).1 hrow

/-- The scans of the parts one after the other return what the scan of the whole returns. -/
theorem returned_parts {rows : Table} (authorizations : Authorizations)
    {parts : List (List RowRange)} {whole : List RowRange}
    (h : RowRange.PartOf rows parts whole) :
    parts.flatMap (returned rows authorizations) = returned rows authorizations whole := by
  rw [← returned_flatten rows authorizations h.ordered]
  exact returned_congr authorizations fun row hrow =>
    RowRange.cover_flatten.trans (h.cover row hrow).symm

end MemoryStore
end ShardQuery
