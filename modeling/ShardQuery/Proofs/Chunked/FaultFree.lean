import ShardQuery.Proofs.Scan.RangeParts
import ShardQuery.Chunked.Start

/-!
# Collaborators without faults

A store in memory answers every call, a planner finds ranges of one table for every query, and a
partition hands out finitely many chunks, maybe after it has looked at the entries of the base
query.
-/

namespace ShardQuery

variable {χ : Type}

/-- The observation ends well in this state when it is lent a session on these entries. All it does
to the store leaves it as it is. -/
inductive Observation.EndsWell (store : MemoryStore) :
    Observation MemoryStore χ → List Entry → χ → Prop
  | finish {entries : List Entry} {state : χ} :
      EndsWell store (.finish (.ok ()) state) entries state
  | pull {onItem : Option (Except ScanError Entry) → Observation MemoryStore χ}
      {entries : List Entry} {state : χ}
      (rest : EndsWell store (onItem (entries.head?.map .ok)) entries.tail state) :
      EndsWell store (.pull onItem) entries state
  | close {after : Observation MemoryStore χ} {entries : List Entry} {state : χ}
      (rest : EndsWell store after [] state) : EndsWell store (.close after) entries state
  | act {effect : MemoryStore → MemoryStore} {after : Observation MemoryStore χ}
      {entries : List Entry} {state : χ} (unchanged : effect store = store)
      (rest : EndsWell store after entries state) : EndsWell store (.act effect after) entries state

namespace Partition

/-- From this state on the partition hands out these chunks, and then none whenever it is asked. -/
inductive HandsOut (p : Partition MemoryStore χ) (store : MemoryStore) :
    χ → List QuerySettings → Prop
  | done {state : χ} (h : p.next state store = ⟨(none, state), store, false⟩) :
      HandsOut p store state []
  | chunk {state after : χ} {q : QuerySettings} {chunks : List QuerySettings}
      (h : p.next state store = ⟨(some q, after), store, false⟩)
      (rest : HandsOut p store after chunks) : HandsOut p store state (q :: chunks)

/-- The partition splits the base query into these chunks, at once or after a pass over the entries
of the base query. When the base query has nothing to scan no pass is made and no chunk is asked
for. -/
inductive Splits (p : Partition MemoryStore χ) (store : MemoryStore) (base : QuerySettings)
    (plan : Plan) (entries : List Entry) (state : χ) (chunks : List QuerySettings) : Bool → Prop
  | direct {based : χ} (hset : p.setBase base state store = ⟨based, store, false⟩)
      (hwants : p.wantsBasePass based = false) (hchunks : p.HandsOut store based chunks) :
      Splits p store base plan entries state chunks false
  | observed {based after : χ} (hset : p.setBase base state store = ⟨based, store, false⟩)
      (hwants : p.wantsBasePass based = true) (hwork : plan.hasWork = true)
      (hends : (p.observe plan based).EndsWell store entries after)
      (hchunks : p.HandsOut store after chunks) :
      Splits p store base plan entries state chunks true
  | idle {based : χ} (hset : p.setBase base state store = ⟨based, store, false⟩)
      (hwants : p.wantsBasePass based = true) (hwork : plan.hasWork = false) :
      Splits p store base plan entries state chunks true

/-- A partition that hands out a list of chunks, after a pass that reads one entry if asked for. -/
def queue (pass : Bool) : Partition MemoryStore (List QuerySettings) where
  setBase _ chunks store := ⟨chunks, store, false⟩
  wantsBasePass _ := pass
  observe _ chunks := .pull fun _ => .close (.finish (.ok ()) chunks)
  next chunks store := ⟨(chunks.head?, chunks.tail), store, false⟩
  size := List.length
  size_next_lt := by
    intro chunks store q h
    cases chunks with
    | nil => cases h
    | cons chunk chunks => exact Nat.lt_succ_self _

theorem handsOut_queue (pass : Bool) (store : MemoryStore) (chunks : List QuerySettings) :
    (queue pass).HandsOut store chunks chunks := by
  induction chunks with
  | nil => exact .done rfl
  | cons q chunks ih => exact .chunk rfl ih

theorem splits_queue (pass : Bool) (store : MemoryStore) (base : QuerySettings) (plan : Plan)
    (entries : List Entry) (chunks : List QuerySettings) :
    (queue pass).Splits store base plan entries chunks chunks pass := by
  have hchunks := handsOut_queue pass store chunks
  cases pass with
  | false => exact .direct rfl rfl hchunks
  | true =>
    cases hwork : plan.hasWork with
    | true => exact .observed rfl rfl hwork (.pull (.close .finish)) hchunks
    | false => exact .idle rfl rfl hwork

end Partition

def faultFree (table : String) (rangesOf : QuerySettings → List RowRange)
    (p : Partition MemoryStore χ) : Collaborators MemoryStore (List Entry) χ where
  store := MemoryStore.scanStore
  plan q authorizations store := ⟨.ok ⟨q.id, table, authorizations, rangesOf q⟩, store, false⟩
  partition := p

namespace ChunkStream

def entriesOf (rows : Table) (rangesOf : QuerySettings → List RowRange)
    (authorizations : Authorizations) (chunks : List QuerySettings) : List Entry :=
  chunks.flatMap fun q => MemoryStore.returned rows authorizations (rangesOf q.forChunk)

/-- The chunks that are run: the base query is the only one when the partition gives none. -/
def effective (base : QuerySettings) (chunks : List QuerySettings) : List QuerySettings :=
  if chunks = [] then [base] else chunks

/-- The entries up to a cap. -/
def within : Option Nat → List Entry → List Entry
  | none, entries => entries
  | some cap, entries => entries.take cap

theorem within_cons {cap : Option Nat} (h : cap ≠ some 0) (e : Entry)
    (entries : List Entry) :
    within cap (e :: entries) = e :: within (cap.map (· - 1)) entries := by
  cases cap with
  | none => rfl
  | some n =>
    cases n with
    | zero => exact absurd rfl h
    | succ n => rfl

theorem within_nil (cap : Option Nat) : within cap [] = [] := by
  cases cap with
  | none => rfl
  | some n => exact List.take_nil

theorem length_within_le (cap : Option Nat) (entries : List Entry) :
    (within cap entries).length ≤ entries.length := by
  cases cap with
  | none => exact Nat.le_refl _
  | some n => exact List.length_take_le' n entries

end ChunkStream
end ShardQuery
