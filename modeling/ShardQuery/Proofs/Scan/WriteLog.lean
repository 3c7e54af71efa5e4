import ShardQuery.Proofs.Scan.RangeParts

/-!
# Scans against the log of writes

A store is what its writes leave. A table exists once a write names it, and it holds under each key
the value of the last insert there, so a scan is read off the log of writes alone: the entries in
the ranges that the authorizations can see, each once and in order of their keys. Which ranges
cover the rows does not matter, nor do writes to other tables, nor do later writes once a cursor is
open.
-/

namespace ShardQuery

def Key.Precedes (a b : Key) : Prop :=
  a.row < b.row ∨ a.row = b.row ∧
    (a.column < b.column ∨ a.column = b.column ∧ a.visibility < b.visibility)

theorem Key.order_eq_lt_iff {a b : Key} : order a b = .lt ↔ a.Precedes b := by
  simp only [order, compareLex, compareOn, Ordering.then_eq_lt, Std.LawfulEqOrd.compare_eq_iff_eq,
    Precedes]
  exact or_congr compareOfLessAndEq_eq_lt <| and_congr_right' <|
    or_congr compareOfLessAndEq_eq_lt <| and_congr_right' compareOfLessAndEq_eq_lt

/-- A write to a store: a table made, or a value given to a key of a table. -/
inductive StoreWrite where
  | createTable (table : String)
  | insert (table : String) (key : Key) (value : String)
deriving DecidableEq, Repr, Inhabited

namespace StoreWrite

def table : StoreWrite → String
  | createTable table | insert table _ _ => table

def run (s : MemoryStore) : StoreWrite → MemoryStore
  | createTable table => s.createTable table
  | insert table key value => s.write table key value

def change : StoreWrite → Table → Table
  | createTable _, rows => rows
  | insert _ key value, rows => rows.insert key value

def valueOf? (table : String) (key : Key) : StoreWrite → Option String
  | createTable _ => none
  | insert into at' value => if into = table ∧ at' = key then some value else none

/-- The value of the last write to a key of a table. -/
def lastValue? (writes : List StoreWrite) (table : String) (key : Key) : Option String :=
  (writes.filterMap (valueOf? table key)).getLast?

theorem valueOf?_of_ne {w : StoreWrite} {table : String} (h : w.table ≠ table) (key : Key) :
    w.valueOf? table key = none := by
  cases w with
  | createTable into => rfl
  | insert into at' value => exact if_neg fun hboth => h hboth.1

theorem find?_change (w : StoreWrite) (rows : Table) (key : Key) :
    (w.change rows).find? key = (w.valueOf? w.table key).or (rows.find? key) := by
  cases w with
  | createTable into => rfl
  | insert into at' value =>
    by_cases hkey : key = at'
    · simp [change, valueOf?, table, OrderedMap.find?_insert, hkey]
    · simp [change, valueOf?, table, OrderedMap.find?_insert, hkey, Ne.symm hkey]

theorem lastValue?_cons (w : StoreWrite) (writes : List StoreWrite) (table : String) (key : Key) :
    lastValue? (w :: writes) table key =
      (lastValue? writes table key).or (w.valueOf? table key) := by
  cases hw : w.valueOf? table key with
  | none => simp [lastValue?, hw]
  | some value => simp [lastValue?, hw, List.getLast?_cons]

end StoreWrite

namespace MemoryStore

open StoreWrite (lastValue?)

def runAll (s : MemoryStore) (writes : List StoreWrite) : MemoryStore :=
  writes.foldl StoreWrite.run s

theorem runAll_append (s : MemoryStore) (earlier later : List StoreWrite) :
    s.runAll (earlier ++ later) = (s.runAll earlier).runAll later := List.foldl_append

def ofWrites (writes : List StoreWrite) : MemoryStore := runAll ∅ writes

/-- The rows of a table, none for a missing one. -/
def rows (s : MemoryStore) (table : String) : Table := (s.find? table).getD ∅

theorem rows_of_find? {s : MemoryStore} {table : String} {rows : Table}
    (h : s.find? table = some rows) : s.rows table = rows := by
  rw [MemoryStore.rows, h, Option.getD_some]

/-- All that a write does: it puts the changed rows under its table. -/
theorem find?_run (s : MemoryStore) (w : StoreWrite) (table : String) :
    (w.run s).find? table =
      if table = w.table then some (w.change (s.rows table)) else s.find? table := by
  have hrun : w.run s = s.insert w.table (w.change (s.rows w.table)) := by cases w <;> rfl
  rw [hrun, OrderedMap.find?_insert]
  split
  · next htable => rw [htable]
  · rfl

theorem find?_run_of_ne {s : MemoryStore} {w : StoreWrite} {table : String} (h : w.table ≠ table) :
    (w.run s).find? table = s.find? table := by
  rw [find?_run, if_neg (Ne.symm h)]

theorem find?_rows_run (s : MemoryStore) (w : StoreWrite) (table : String) (key : Key) :
    ((w.run s).rows table).find? key = (w.valueOf? table key).or ((s.rows table).find? key) := by
  by_cases htable : w.table = table
  · subst htable
    rw [rows, find?_run, if_pos rfl, Option.getD_some, StoreWrite.find?_change]
  · rw [rows, find?_run_of_ne htable, w.valueOf?_of_ne htable, Option.none_or, rows]

theorem find?_rows_runAll (s : MemoryStore) (writes : List StoreWrite) (table : String)
    (key : Key) :
    ((s.runAll writes).rows table).find? key =
      (lastValue? writes table key).or ((s.rows table).find? key) := by
  induction writes generalizing s with
  | nil => rfl
  | cons w writes ih =>
    calc ((s.runAll (w :: writes)).rows table).find? key
        = (lastValue? writes table key).or (((w.run s).rows table).find? key) := ih (w.run s)
      _ = (lastValue? (w :: writes) table key).or ((s.rows table).find? key) := by
          rw [find?_rows_run, StoreWrite.lastValue?_cons, Option.or_assoc]

theorem isSome_find?_runAll {s : MemoryStore} {writes : List StoreWrite} {table : String} :
    ((s.runAll writes).find? table).isSome = true ↔
      (s.find? table).isSome = true ∨ ∃ w ∈ writes, w.table = table := by
  induction writes generalizing s with
  | nil => simp [runAll]
  | cons w writes ih =>
    have hrest : ((s.runAll (w :: writes)).find? table).isSome = true ↔
        ((w.run s).find? table).isSome = true ∨ ∃ w ∈ writes, w.table = table := ih
    rw [hrest, find?_run]
    by_cases htable : w.table = table
    · simp [htable]
    · simp [htable, Ne.symm htable]

theorem find?_runAll_filter {s t : MemoryStore} {table : String} (h : s.find? table = t.find? table)
    (writes : List StoreWrite) :
    (s.runAll (writes.filter fun w => w.table = table)).find? table =
      (t.runAll writes).find? table := by
  induction writes generalizing s t with
  | nil => exact h
  | cons w writes ih =>
    by_cases htable : w.table = table
    · have hstep : (w.run s).find? table = (w.run t).find? table := by
        rw [find?_run, find?_run, rows, rows, h]
      rw [List.filter_cons_of_pos (by simpa using htable)]
      exact ih hstep
    · rw [List.filter_cons_of_neg (by simpa using htable)]
      exact ih (h.trans (find?_run_of_ne htable).symm)

theorem createTable_eq_self {s : MemoryStore} {table : String} (h : (s.find? table).isSome = true) :
    s.createTable table = s := by
  obtain ⟨rows, hrows⟩ := Option.isSome_iff_exists.1 h
  rw [createTable, hrows, Option.getD_some]
  exact OrderedMap.insert_eq_self hrows

theorem mem_entries_iff {rows : Table} {e : Entry} :
    e ∈ entries rows ↔ rows.find? e.key = some e.value := by
  rw [OrderedMap.find?_eq_some_iff, entries, List.mem_map]
  constructor
  · rintro ⟨p, hp, rfl⟩
    exact hp
  · exact fun hp => ⟨(e.key, e.value), hp, rfl⟩

/-- What a cursor yields to pulls before each of which something is written to the store. -/
def pullAmid (cursor : List Entry) (s : MemoryStore) :
    List (List StoreWrite) → List (Option (Except ScanError Entry))
  | [] => []
  | writes :: rest =>
    let reply := scanStore.pull cursor (s.runAll writes)
    reply.value.1 :: pullAmid reply.value.2 reply.env rest

theorem pullAmid_eq (cursor : List Entry) (s : MemoryStore) (schedule : List (List StoreWrite)) :
    pullAmid cursor s schedule =
      (List.range schedule.length).map fun i => cursor[i]?.map Except.ok := by
  induction schedule generalizing cursor s with
  | nil => rfl
  | cons writes rest ih =>
    have hstep : pullAmid cursor s (writes :: rest) =
        cursor[0]?.map Except.ok :: pullAmid cursor.tail (s.runAll writes) rest := by
      cases cursor <;> rfl
    rw [hstep, ih, List.length_cons, List.range_succ_eq_map, List.map_cons, List.map_map]
    simp only [List.getElem?_tail, Function.comp_def]

/-- What a scan answers, read off the log of writes: the last value of every key that lies in some
range and that the authorizations can see. -/
structure AnswerOf (writes : List StoreWrite) (table : String) (authorizations : Authorizations)
    (ranges : List RowRange) (answer : List Entry) : Prop where
  ordered : answer.Pairwise fun a b => a.key.Precedes b.key
  mem : ∀ e, e ∈ answer ↔
    lastValue? writes table e.key = some e.value ∧ RowRange.Cover ranges e.key.row ∧
      authorizations.canSee e.key.visibility = true

theorem isSome_find?_ofWrites {writes : List StoreWrite} {table : String} :
    ((ofWrites writes).find? table).isSome = true ↔ ∃ w ∈ writes, w.table = table :=
  isSome_find?_runAll.trans (or_iff_right (by rintro ⟨⟩))

theorem find?_ofWrites_eq_none_iff {writes : List StoreWrite} {table : String} :
    (ofWrites writes).find? table = none ↔ ∀ w ∈ writes, w.table ≠ table := by
  rw [← Option.not_isSome_iff_eq_none, isSome_find?_ofWrites, not_exists]
  exact forall_congr' fun w => not_and

theorem ofWrites_createTable {earlier : List StoreWrite} {table : String}
    (h : ∃ w ∈ earlier, w.table = table) (later : List StoreWrite) :
    ofWrites (earlier ++ .createTable table :: later) = ofWrites (earlier ++ later) :=
  calc ofWrites (earlier ++ .createTable table :: later)
      = ((ofWrites earlier).createTable table).runAll later :=
        runAll_append ∅ earlier (.createTable table :: later)
    _ = (ofWrites earlier).runAll later := by
        rw [createTable_eq_self (isSome_find?_ofWrites.2 h)]
    _ = ofWrites (earlier ++ later) := (runAll_append ∅ earlier later).symm

theorem scan_eq_error_iff {s : MemoryStore} {table : String} {authorizations : Authorizations}
    {ranges : List RowRange} :
    (∃ e, s.scan table authorizations ranges = .error e ∧ e.fault = .storeFailed) ↔
      s.find? table = none := by
  cases hfind : s.find? table with
  | none => simp [scan, hfind, ScanError.tableMissing]
  | some rows => simp [scan_eq hfind]

/-- Which ranges cover the rows of the table does not matter to a scan. -/
theorem scan_congr {s : MemoryStore} {table : String} (authorizations : Authorizations)
    {ranges others : List RowRange}
    (h : ∀ row, (s.rows table).HasRow row →
      (RowRange.Cover others row ↔ RowRange.Cover ranges row)) :
    s.scan table authorizations others = s.scan table authorizations ranges := by
  cases hfind : s.find? table with
  | none => rw [scan, scan, hfind]
  | some rows =>
    rw [rows_of_find? hfind] at h
    rw [scan_eq hfind, scan_eq hfind, returned_congr authorizations h]

theorem answerOf_returned {writes : List StoreWrite} {table : String} {rows : Table}
    (h : (ofWrites writes).find? table = some rows) (authorizations : Authorizations)
    (ranges : List RowRange) :
    AnswerOf writes table authorizations ranges (returned rows authorizations ranges) where
  ordered := (returned_increasing rows authorizations ranges).imp Key.order_eq_lt_iff.1
  mem := by
    intro e
    have hlast : rows.find? e.key = lastValue? writes table e.key := by
      have hrows := find?_rows_runAll ∅ writes table e.key
      rw [← ofWrites, rows_of_find? h] at hrows
      rw [hrows]
      exact Option.or_none
    rw [returned, List.mem_filter, mem_entries_iff, returns_iff, hlast]

/-- A scan of a store fails exactly when no write ever named its table, and as a failure of the
store. If one did, the answer is read off the log of writes, and a cursor goes on yielding it
whatever is written meanwhile. The answer is the same for all ranges that cover the same rows, and
neither writes to other tables nor the making of a table that is there already matter. -/
theorem scan_ofWrites (writes : List StoreWrite) (table : String) (authorizations : Authorizations)
    (ranges : List RowRange) :
    let s := ofWrites writes
    ((∃ e, s.scan table authorizations ranges = .error e ∧ e.fault = .storeFailed) ↔
        ∀ w ∈ writes, w.table ≠ table) ∧
      ((∃ w ∈ writes, w.table = table) →
        ∃ answer, scanStore.openScan table authorizations ranges s = ⟨.ok answer, s, false⟩ ∧
          AnswerOf writes table authorizations ranges answer ∧
          ∀ schedule, pullAmid answer s schedule =
            (List.range schedule.length).map fun i => answer[i]?.map Except.ok) ∧
      (∀ others : List RowRange,
        (∀ row, (s.rows table).HasRow row →
            (RowRange.Cover others row ↔ RowRange.Cover ranges row)) →
          s.scan table authorizations others = s.scan table authorizations ranges) ∧
      (ofWrites (writes.filter fun w => w.table = table)).scan table authorizations ranges =
        s.scan table authorizations ranges ∧
      ∀ earlier later made, writes = earlier ++ .createTable made :: later →
        (∃ w ∈ earlier, w.table = made) → ofWrites (earlier ++ later) = s := by
  intro s
  refine ⟨scan_eq_error_iff.trans find?_ofWrites_eq_none_iff, ?_,
    fun others => scan_congr authorizations, ?_, ?_⟩
  · intro hnamed
    obtain ⟨rows, hrows⟩ := Option.isSome_iff_exists.1 (isSome_find?_ofWrites.2 hnamed)
    refine ⟨returned rows authorizations ranges, ?_, answerOf_returned hrows authorizations ranges,
      pullAmid_eq (returned rows authorizations ranges) s⟩
    rw [← scan_eq hrows]
    rfl
  · rw [scan, scan, ofWrites, find?_runAll_filter rfl]
    rfl
  · rintro earlier later made rfl hmade
    exact (ofWrites_createTable hmade later).symm

theorem scan_ofWrites_overwritten :
    let written : List StoreWrite :=
      [.insert "shard" ⟨"r2", "a", ""⟩ "old", .insert "shard" ⟨"r1", "a", "SECRET"⟩ "1",
        .insert "other" ⟨"r3", "a", ""⟩ "3", .insert "shard" ⟨"r2", "a", ""⟩ "new"]
    let s := ofWrites (written ++ [.createTable "shard"])
    let ranges := [RowRange.all, RowRange.row "r2"]
    let entry : Entry := ⟨⟨"r2", "a", ""⟩, "new"⟩
    scanStore.openScan "shard" ∅ ranges s = ⟨.ok [entry], s, false⟩ ∧
      pullAmid [entry] s [[.insert "shard" ⟨"r0", "a", ""⟩ "0"], []] = [some (.ok entry), none] ∧
      s.scan "shard" ∅ ranges.reverse = s.scan "shard" ∅ ranges ∧ ofWrites written = s := by
  intro written s ranges entry
  obtain ⟨-, hanswer, hranges, -, hmade⟩ :=
    scan_ofWrites (written ++ [.createTable "shard"]) "shard" ∅ ranges
  obtain ⟨answer, hopened, -, hpulls⟩ := hanswer ⟨.createTable "shard", by simp, rfl⟩
  have hentry : scanStore.openScan "shard" ∅ ranges s = ⟨.ok [entry], s, false⟩ := by rfl
  cases hopened.symm.trans hentry
  refine ⟨hentry, hpulls _, hranges ranges.reverse fun row _ => ?_, ?_⟩
  · simp [RowRange.Cover, ranges, or_comm]
  · have hsame := hmade written [] "shard" rfl ⟨_, List.mem_cons_self, rfl⟩
    rwa [List.append_nil] at hsame

end MemoryStore
end ShardQuery
