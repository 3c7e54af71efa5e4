import ShardQuery.Chunked.Start
import ShardQuery.Scan.MemoryStore
/-! # Rehearsals

Collaborators that follow a script and note every call made to them: a store in memory with failures on
opening and reading, plans by expression, and a partition that hands out a list of chunks. -/

namespace ShardQuery

inductive Note where
  | opened (table : String) (authorizations : Authorizations) (start : String)
  | released (start : String)
  | planned (q : QuerySettings) (authorizations : Authorizations)
  | based (q : QuerySettings)
  | asked (chunk : Option QuerySettings)
  | observed (table : String) (entries : List Entry)

structure ReadFault where
  due : Nat
  error : ScanError
deriving Inhabited

/-- What the planner does with one expression; what is absent follows from the query. -/
structure PlanScript where
  cancels : Bool := false
  error : Option ScanError := none
  table : Option String := none
  authorizations : Option Authorizations := none
  ranges : Option (List RowRange) := none

instance : Inhabited PlanScript := ⟨{}⟩

structure ObservationScript where
  limit : Option Nat := none
  closes : Bool := false
  chunkId : Option QueryId := none
  error : Option ScanError := none
deriving Inhabited

structure Rehearsal where
  store : MemoryStore := ∅
  openFaults : OrderedMap String ScanError := ∅
  readFaults : OrderedMap String (List ReadFault) := ∅
  plans : OrderedMap String PlanScript := ∅
  observation : Option ObservationScript := none
  silent : Bool := false

namespace Rehearsal

instance : Inhabited Rehearsal := ⟨{}⟩

abbrev Notes := List Note

/-- A scan in progress: what is still to come and how much was pulled. -/
structure Cursor where
  start : String
  entries : List Entry
  faults : List ReadFault
  pulled : Nat := 0
deriving Inhabited

/-- The start of the first range, by which failures are looked up. -/
def startOf (ranges : List RowRange) : String :=
  match ranges with
  | [] => ""
  | g :: _ => g.start.getD ""

def pull (cursor : Cursor) : Option (Except ScanError Entry) × Cursor :=
  let entry : Option (Except ScanError Entry) × Cursor :=
    match cursor.entries with
    | [] => (none, { cursor with pulled := cursor.pulled + 1 })
    | e :: rest => (some (.ok e), { cursor with entries := rest, pulled := cursor.pulled + 1 })
  match cursor.faults with
  | [] => entry
  | fault :: rest =>
    if fault.due ≤ cursor.pulled then (some (.error fault.error), { cursor with faults := rest })
    else entry

def scanStore (r : Rehearsal) : ScanStore Notes Cursor where
  openScan table authorizations ranges notes :=
    let start := startOf ranges
    let notes := .opened table authorizations start :: notes
    match r.openFaults.find? start with
    | some e => ⟨.error e, notes, false⟩
    | none =>
      let cursor := (r.store.scan table authorizations ranges).map fun entries =>
        ⟨start, entries, (r.readFaults.find? start).getD [], 0⟩
      ⟨cursor, notes, false⟩
  pull cursor notes := ⟨pull cursor, notes, false⟩
  release cursor notes := ⟨(), .released cursor.start :: notes, false⟩

/-- The ranges of an expression without script: none for the empty one, else all rows it starts. -/
def rangesOf (expression : String) : List RowRange :=
  if expression.isEmpty then [] else [.between expression (expression ++ "~")]

def plan (r : Rehearsal) (q : QuerySettings) (authorizations : Authorizations) (notes : Notes) :
    Reply Notes (Except ScanError Plan) :=
  let script := (r.plans.find? q.expression).getD {}
  let answer : Except ScanError Plan :=
    match script.error with
    | some e => .error e
    | none =>
      .ok ⟨q.id, script.table.getD "shard", script.authorizations.getD authorizations,
        script.ranges.getD (rangesOf q.expression)⟩
  ⟨answer, .planned q authorizations :: notes, script.cancels⟩

def chunkOf (id : QueryId) (e : Entry) : QuerySettings := ⟨id, e.value, e.key.row, ∅⟩

/-- The end of an observation: it is noted, and leaves its chunks behind those left. -/
def conclude (script : ObservationScript) (table : String) (chunks : List QuerySettings)
    (seen : List Entry) : Observation Notes (List QuerySettings) :=
  let outcome : Except ScanError Unit :=
    match script.error with
    | some e => .error e
    | none => .ok ()
  let found :=
    match script.chunkId with
    | some id => seen.map (chunkOf id)
    | none => []
  let last : Observation Notes (List QuerySettings) := .finish outcome (chunks ++ found)
  .act (fun notes => .observed table seen :: notes) (if script.closes then .close last else last)

/-- An observation that pulls up to `left` further entries; a failure ends it without a note. -/
def observeUpTo (script : ObservationScript) (table : String) (chunks : List QuerySettings) :
    Nat → List Entry → Observation Notes (List QuerySettings)
  | 0, seen => conclude script table chunks seen
  | left + 1, seen => .pull fun item =>
    match item with
    | none => conclude script table chunks seen
    | some (.error e) => .finish (.error e) chunks
    | some (.ok e) => observeUpTo script table chunks left (seen ++ [e])

def storeSize (r : Rehearsal) : Nat := r.store.toList.foldl (fun n t => n + t.2.size) 0

def observe (r : Rehearsal) (plan : Plan) (chunks : List QuerySettings) :
    Observation Notes (List QuerySettings) :=
  let script := r.observation.getD {}
  observeUpTo script plan.table chunks (script.limit.getD (r.storeSize + 1)) []

def nextChunk (r : Rehearsal) (chunks : List QuerySettings) (notes : Notes) :
    Reply Notes (Option QuerySettings × List QuerySettings) :=
  let notes := if r.silent then notes else .asked chunks.head? :: notes
  ⟨(chunks.head?, chunks.tail), notes, false⟩

/-- The scripted partition; a silent one takes no notes and never looks at the base query. -/
def partition (r : Rehearsal) : Partition Notes (List QuerySettings) where
  setBase q chunks notes := ⟨chunks, if r.silent then notes else .based q :: notes, false⟩
  wantsBasePass _ := !r.silent && r.observation.isSome
  observe := r.observe
  next := r.nextChunk
  size := List.length
  size_next_lt chunks notes q h := by
    cases chunks with
    | nil => simp [nextChunk] at h
    | cons _ _ => simp [nextChunk]

def collaborators (r : Rehearsal) : Collaborators Notes Cursor (List QuerySettings) :=
  ⟨r.scanStore, r.plan, r.partition⟩

end Rehearsal
end ShardQuery
