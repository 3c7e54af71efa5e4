import ShardQuery.Chunked.Partition
/-! # Streams of chunked results

A stream presents the results of all chunks as one sequence. At most one session is open: the session of an
exhausted chunk is closed before the partition is asked for the next chunk. A failure confined to a chunk
skips it, an interruption or any other failure ends the stream. -/

namespace ShardQuery

/-- A running query: the chunk in progress and what has become of those before it. -/
structure ChunkStream (κ χ : Type) where
  partition : χ
  authorizations : Authorizations
  base : QuerySettings
  plan : Plan
  session : Option (Session κ) := none
  chunk : Nat := 0
  chunkEntries : Nat := 0
  skipped : Nat := 0
  remaining : Option Nat := none
  interrupted : Bool := false
  finished : Bool := false
deriving Inhabited

namespace ChunkStream

variable {σ κ χ : Type}

def isPartial (s : ChunkStream κ χ) : Bool := 0 < s.skipped || s.interrupted

def closeSession (c : Collaborators σ κ χ) (s : ChunkStream κ χ) (w : World σ) : ChunkStream κ χ × World σ :=
  match s.session with
  | none => (s, w)
  | some session =>
    let (_, w) := session.close c.store w
    ({ s with session := none }, w)

def close (c : Collaborators σ κ χ) (s : ChunkStream κ χ) (w : World σ) : ChunkStream κ χ × World σ :=
  let (s, w) := s.closeSession c w
  ({ s with finished := true }, w)

def completeChunk (c : Collaborators σ κ χ) (s : ChunkStream κ χ) (w : World σ) : ChunkStream κ χ × World σ :=
  let (s, w) := s.closeSession c w
  (s, (w.count Metrics.chunkCompleted).report .chunkCompleted
    [("chunk", Text.decimal s.chunk), ("entries", Text.decimal s.chunkEntries)])

/-- Gives up a chunk for a failure confined to it. -/
def skipChunk (c : Collaborators σ κ χ) (e : ScanError) (s : ChunkStream κ χ) (w : World σ) :
    ChunkStream κ χ × World σ :=
  let (s, w) := s.closeSession c w
  ({ s with skipped := s.skipped + 1 },
    (w.count Metrics.chunkSkipped).report .chunkSkipped
      [("chunk", Text.decimal s.chunk), ("code", e.fault.code), ("reason", e.reason)])

def interrupt (c : Collaborators σ κ χ) (reason : String) (s : ChunkStream κ χ) (w : World σ) :
    ChunkStream κ χ × World σ :=
  let (s, w) := { s with interrupted := true }.close c w
  (s, w.report .executionInterrupted [("chunk", Text.decimal s.chunk), ("reason", reason)])

def fail (c : Collaborators σ κ χ) (e : ScanError) (s : ChunkStream κ χ) (w : World σ) :
    ChunkStream κ χ × World σ :=
  if e.isInterrupted then s.interrupt c e.reason w else s.close c w

/-- Plans a chunk under the syntax of chunks and opens its session; a chunk without ranges has none. -/
def openChunk (c : Collaborators σ κ χ) (q : QuerySettings) (s : ChunkStream κ χ) (w : World σ) :
    Except ScanError (Plan × Option (Session κ)) × World σ :=
  match w.ask (c.plan q.forChunk s.authorizations) with
  | (.error e, w) => (.error e, w)
  | (.ok plan, w) =>
    if plan.hasWork then
      match Session.start c.store plan.table plan.authorizations plan.ranges true w with
      | (.error e, w) => (.error e, w)
      | (.ok session, w) => (.ok (plan, some session), w)
    else (.ok (plan, none), w)

/-- Starts a chunk. One without ranges is complete at once. -/
def startChunk (c : Collaborators σ κ χ) (q : QuerySettings) (s : ChunkStream κ χ) (w : World σ) :
    Except ScanError Plan × ChunkStream κ χ × World σ :=
  -- a chunk counts even when it cannot be opened
  let s := { s with chunk := s.chunk + 1, chunkEntries := 0 }
  match s.openChunk c q w with
  | (.error e, w) => (.error e, s, w)
  | (.ok (plan, session), w) =>
    let s := { s with session }
    let w := (w.count Metrics.chunkStarted).report .chunkStarted
      [("chunk", Text.decimal s.chunk), ("query", q.name), ("table", plan.table),
       ("ranges", Text.decimal plan.ranges.length)]
    if plan.hasWork then (.ok plan, s, w)
    else
      let (s, w) := s.completeChunk c w
      (.ok plan, s, w)

def noteEntry (s : ChunkStream κ χ) : ChunkStream κ χ :=
  { s with chunkEntries := s.chunkEntries + 1, remaining := s.remaining.map (· - 1) }

/-- Pulls from the chunk in progress: an item for the caller, or nothing once the chunk is left. -/
def pull (c : Collaborators σ κ χ) (s : ChunkStream κ χ) (w : World σ) :
    Option (Except ScanError Entry) × ChunkStream κ χ × World σ :=
  match s.session with
  | none => (none, s, w)
  | some session =>
    match session.next c.store w with
    | (some (.ok e), session, w) =>
      (some (.ok e), { s with session := some session }.noteEntry, w.count Metrics.entryReturned)
    | (some (.error e), session, w) =>
      let s := { s with session := some session }
      if e.isChunkLocal then
        let (s, w) := s.skipChunk c e w
        (none, s, w)
      else
        let (s, w) := s.fail c e w
        (some (.error e), s, w)
    | (none, session, w) =>
      let (s, w) := { s with session := some session }.completeChunk c w
      (none, s, w)

/-- Enters the next chunk: a failure for the caller, or nothing when the stream can go on. -/
def enter (c : Collaborators σ κ χ) (q : QuerySettings) (s : ChunkStream κ χ) (w : World σ) :
    Option ScanError × ChunkStream κ χ × World σ :=
  match s.startChunk c q w with
  | (.ok _, s, w) => (none, s, w)
  | (.error e, s, w) =>
    if e.isChunkLocal then
      let (s, w) := s.skipChunk c e w
      (none, s, w)
    else
      let (s, w) := s.fail c e w
      (some e, s, w)

@[simp] theorem partition_closeSession (c : Collaborators σ κ χ) (s : ChunkStream κ χ) (w : World σ) :
    (s.closeSession c w).1.partition = s.partition := by
  unfold closeSession
  split <;> rfl

@[simp] theorem partition_close (c : Collaborators σ κ χ) (s : ChunkStream κ χ) (w : World σ) :
    (s.close c w).1.partition = s.partition := partition_closeSession c s w

@[simp] theorem partition_completeChunk (c : Collaborators σ κ χ) (s : ChunkStream κ χ) (w : World σ) :
    (s.completeChunk c w).1.partition = s.partition := partition_closeSession c s w

@[simp] theorem partition_skipChunk (c : Collaborators σ κ χ) (e : ScanError) (s : ChunkStream κ χ)
    (w : World σ) : (s.skipChunk c e w).1.partition = s.partition := partition_closeSession c s w

@[simp] theorem partition_fail (c : Collaborators σ κ χ) (e : ScanError) (s : ChunkStream κ χ)
    (w : World σ) : (s.fail c e w).1.partition = s.partition := by
  unfold fail
  split
  · exact partition_close c { s with interrupted := true } w
  · simp

@[simp] theorem partition_startChunk (c : Collaborators σ κ χ) (q : QuerySettings) (s : ChunkStream κ χ)
    (w : World σ) : (s.startChunk c q w).2.1.partition = s.partition := by
  unfold startChunk
  dsimp only
  split
  · rfl
  · split
    · rfl
    · exact partition_completeChunk ..

@[simp] theorem partition_pull (c : Collaborators σ κ χ) (s : ChunkStream κ χ) (w : World σ) :
    (s.pull c w).2.1.partition = s.partition := by
  unfold pull
  split
  · rfl
  · split
    · rfl
    · dsimp only
      split <;> simp
    · simp

@[simp] theorem partition_enter (c : Collaborators σ κ χ) (q : QuerySettings) (s : ChunkStream κ χ)
    (w : World σ) : (s.enter c q w).2.1.partition = s.partition := by
  have h := partition_startChunk c q s w
  unfold enter
  split
  · next hs => rw [hs] at h; exact h
  · next hs =>
    rw [hs] at h
    dsimp only
    split
    · exact (partition_skipChunk ..).trans h
    · exact (partition_fail ..).trans h

def next (c : Collaborators σ κ χ) (s : ChunkStream κ χ) (w : World σ) :
    Option (Except ScanError Entry) × ChunkStream κ χ × World σ :=
  if s.finished then (none, s, w)
  else if w.cancelled then
    let (s, w) := s.interrupt c "cancelled" w
    (none, s, w)
  else if s.remaining = some 0 then
    let (s, w) := s.close c w
    (none, s, w)
  else
    match _hp : s.pull c w with
    | (some item, s', w) => (some item, s', w)
    | (none, s', w) =>
      -- whatever was open is closed by now
      match _hn : w.ask (c.partition.next s'.partition) with
      | ((none, state), w) => (none, { s' with partition := state, finished := true }, w)
      | ((some q, state), w) =>
        match _he : { s' with partition := state }.enter c q w with
        | (some e, s'', w) => (some (.error e), s'', w)
        | (none, s'', w) => s''.next c w
termination_by c.partition.size s.partition
decreasing_by
  -- pulling and entering leave the partition alone, and taking a chunk makes it smaller
  have h1 : s'.partition = s.partition := by
    simpa using (congrArg (fun r => r.2.1.partition) _hp).symm
  have h2 : s''.partition = state := by
    simpa using (congrArg (fun r => r.2.1.partition) _he).symm
  rw [h2, ← h1]
  simp only [World.ask, Prod.mk.injEq] at _hn
  have h3 := c.partition.size_next_lt s'.partition _ q (by rw [_hn.1])
  rwa [_hn.1] at h3

def take (c : Collaborators σ κ χ) (s : ChunkStream κ χ) :
    Nat → World σ → List (Option (Except ScanError Entry)) × ChunkStream κ χ × World σ
  | 0, w => ([], s, w)
  | n + 1, w =>
    match s.next c w with
    | (none, s, w) => ([none], s, w)
    | (some item, s, w) =>
      let (items, s, w) := s.take c n w
      (some item :: items, s, w)

end ChunkStream
end ShardQuery
