import ShardQuery.Proofs.Text.AsciiBytes
import ShardQuery.Scan.Session

/-!
# The identity of a session

What a session is bound to is written field after field, and its identity is the checksum of that.
The order and the repetition of labels leave no trace in it. Every field tells where it ends, so two
sessions whose names hold no separator are written alike only when they are bound to the same.
-/

namespace ShardQuery

section

variable {α β : Type}

end

def RowRange.bounds (g : RowRange) : List String := g.start.toList ++ g.stop.toList

namespace Session

/-- No name holds a separator that it is written next to. -/
structure Delimited (table : String) (labels : List String) (ranges : List RowRange) : Prop where
  table : '\x00' ∉ table.toList
  labels : ∀ l ∈ labels, '\x00' ∉ l.toList ∧ '\x1f' ∉ l.toList
  bounds : ∀ s ∈ ranges.flatMap RowRange.bounds, '\x1f' ∉ s.toList

theorem Delimited.congr {table : String} {labels labels' : List String} {ranges : List RowRange}
    (h : Delimited table labels ranges) (hsame : ∀ l, l ∈ labels' ↔ l ∈ labels) :
    Delimited table labels' ranges :=
  ⟨h.table, fun l hl => h.labels l ((hsame l).1 hl), h.bounds⟩

end Session
end ShardQuery
