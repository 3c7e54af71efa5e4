import ShardQuery.Proofs.Scan.WriteLog
import ShardQuery.Proofs.Text.ByteOrder

/-!
# A range of one row

NUL is the least character, so a text with a NUL after it is the next text in order, whatever the
text ends in. The range from a row to the row with a NUL after it therefore contains that row
alone, and a scan over it returns the entries of the row that can be seen and no others.
-/

namespace ShardQuery

namespace Text

private theorem not_lt_nul (c : Char) : ¬ c < '\x00' := Nat.not_lt_zero c.val.toNat

theorem chars_lt_append_nul_iff {cs ds : List Char} : ds < cs ++ ['\x00'] ↔ ¬ cs < ds := by
  induction cs generalizing ds with
  | nil =>
    cases ds with
    | nil => simp
    | cons d ds => simp [List.cons_lt_cons_iff, not_lt_nul]
  | cons c cs ih =>
    cases ds with
    | nil => simp
    | cons d ds =>
      rw [List.cons_append, List.cons_lt_cons_iff, List.cons_lt_cons_iff, ih]
      by_cases heq : d = c
      · subst heq
        have hself : ¬ d < d := Char.lt_irrefl d
        simp only [hself, true_and, false_or]
      · have hlt : d < c ↔ ¬ c < d := by
          rw [Char.not_lt]
          constructor
          · intro h
            exact Std.le_of_lt h
          · intro h
            exact Std.lt_of_le_of_ne h heq
        simp [heq, Ne.symm heq, hlt]

theorem lt_append_nul_iff {r x : String} : x < r ++ "\x00" ↔ x ≤ r := by
  rw [← String.not_lt, String.lt_iff, String.lt_iff, String.toList_append]
  exact chars_lt_append_nul_iff

/-- No text stands strictly between a text and the same text with a NUL after it. -/
theorem not_between_append_nul (r x : String) : ¬ (r < x ∧ x < r ++ "\x00") := by
  intro h
  have hle : x ≤ r := lt_append_nul_iff.1 h.2
  exact String.not_lt.2 hle h.1

theorem bytesOf_not_between_append_nul (r x : String) :
    ¬ (compare (bytesOf r) (bytesOf x) = .lt ∧
      compare (bytesOf x) (bytesOf (r ++ "\x00")) = .lt) := by
  intro h
  rw [compare_bytesOf, compare_bytesOf] at h
  apply not_between_append_nul r x
  exact ⟨compareOfLessAndEq_eq_lt.1 h.1, compareOfLessAndEq_eq_lt.1 h.2⟩

end Text

namespace RowRange

theorem contains_row_iff {r x : String} : (row r).contains x = true ↔ x = r := by
  rw [row, contains_between, Text.lt_append_nul_iff]
  constructor
  · intro h
    exact String.le_antisymm h.2 h.1
  · intro h
    subst h
    exact ⟨String.le_refl x, String.le_refl x⟩

example : ["", "r", "r\x00", "r\x00\x00", "s"].filter (row "r\x00").contains = ["r\x00"] := by
  decide

theorem cover_row_iff {r x : String} : Cover [row r] x ↔ x = r := by
  simp [Cover, contains_row_iff]

end RowRange

namespace MemoryStore

theorem mem_returned_row_iff {t : Table} {authorizations : Authorizations} {r : String}
    {e : Entry} :
    e ∈ returned t authorizations [.row r] ↔
      t.find? e.key = some e.value ∧ e.key.row = r ∧
        authorizations.canSee e.key.visibility = true := by
  rw [returned, List.mem_filter, returns_iff, RowRange.cover_row_iff, mem_entries_iff]

/-- The range of a row contains that row and no other text, and in the order of texts, which is
that of their bytes, nothing stands between its two ends. So a scan over it returns exactly the
entries of the row that can be seen, each once and in the order of their keys, or fails because
there is no such table. -/
theorem scan_row (r : String) :
    (∀ x, (RowRange.row r).contains x = true ↔ x = r) ∧
    (∀ x, ¬ (r < x ∧ x < r ++ "\x00")) ∧
    (∀ x, ¬ (compare (Text.bytesOf r) (Text.bytesOf x) = .lt ∧
      compare (Text.bytesOf x) (Text.bytesOf (r ++ "\x00")) = .lt)) ∧
    ∀ (s : MemoryStore) (table : String) (authorizations : Authorizations),
      match s.find? table with
      | none => s.scan table authorizations [.row r] = .error (.tableMissing table)
      | some t => ∃ answer, s.scan table authorizations [.row r] = .ok answer ∧
          answer.Pairwise (fun a b => a.key.Precedes b.key) ∧
          ∀ key value, ⟨key, value⟩ ∈ answer ↔
            t.find? key = some value ∧ key.row = r ∧
              authorizations.canSee key.visibility = true := by
  refine ⟨fun x => RowRange.contains_row_iff, Text.not_between_append_nul r,
    Text.bytesOf_not_between_append_nul r, ?_⟩
  intro s table authorizations
  cases hfind : s.find? table with
  | none => rw [scan, hfind]
  | some t =>
    refine ⟨returned t authorizations [.row r], scan_eq hfind authorizations [.row r], ?_, ?_⟩
    · exact (returned_increasing t authorizations [.row r]).imp Key.order_eq_lt_iff.1
    · intro key value
      exact mem_returned_row_iff

end MemoryStore
end ShardQuery
