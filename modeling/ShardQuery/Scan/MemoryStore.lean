import ShardQuery.Ordered.Map
import ShardQuery.Scan.World
/-! # Stores in memory

Tables of entries in order of their keys. A scan returns the entries of a table whose row is in some range
and whose visibility is satisfied, each once and in order, however the ranges overlap. -/

namespace ShardQuery

abbrev Table := OrderedMap Key String

abbrev MemoryStore := OrderedMap String Table

namespace MemoryStore

def createTable (s : MemoryStore) (table : String) : MemoryStore :=
  s.insert table ((s.find? table).getD ∅)

def write (s : MemoryStore) (table : String) (key : Key) (value : String) : MemoryStore :=
  s.insert table (((s.find? table).getD ∅).insert key value)

def tableSize (s : MemoryStore) (table : String) : Nat :=
  match s.find? table with
  | some t => t.size
  | none => 0

def entries (t : Table) : List Entry := t.toList.map fun p => ⟨p.1, p.2⟩

def returns (authorizations : Authorizations) (ranges : List RowRange) (e : Entry) : Bool :=
  ranges.any (·.contains e.key.row) && authorizations.canSee e.key.visibility

def scan (s : MemoryStore) (table : String) (authorizations : Authorizations)
    (ranges : List RowRange) : Except ScanError (List Entry) :=
  match s.find? table with
  | none => .error (.tableMissing table)
  | some t => .ok ((entries t).filter (returns authorizations ranges))

/-- The store as one that opens scans; a cursor is the list of entries still to come. -/
def scanStore : ScanStore MemoryStore (List Entry) where
  openScan table authorizations ranges s := ⟨s.scan table authorizations ranges, s, false⟩
  pull cursor s :=
    match cursor with
    | [] => ⟨(none, []), s, false⟩
    | e :: rest => ⟨(some (.ok e), rest), s, false⟩
  release _ s := ⟨(), s, false⟩

end MemoryStore
end ShardQuery
