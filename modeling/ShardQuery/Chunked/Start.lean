import ShardQuery.Chunked.Limit
import ShardQuery.Chunked.ChunkStream
/-! # Starting a chunked query

The caller's query is copied under a name and an identifier of its own and under the syntax of chunks. The
partition looks at the results of the copy if it asks for that, and then the first chunk is opened; when
there is no chunk, the copy itself is the only one. Whatever fails here fails the start. -/

namespace ShardQuery.ChunkStream

variable {σ κ χ : Type}

def baseSuffix : String := "-chunk"

def baseOf (q : QuerySettings) (id : QueryId) : QuerySettings :=
  (q.duplicate (q.name ++ baseSuffix) id).forChunk

/-- Lets the partition observe a session of the base query, which is closed before its outcome counts. -/
def observe (c : Collaborators σ κ χ) (plan : Plan) (state : χ) (w : World σ) :
    Except ScanError χ × World σ :=
  match Session.start c.store plan.table plan.authorizations plan.ranges true w with
  | (.error e, w) => (.error e, w)
  | (.ok session, w) =>
    let ((outcome, state), session, w) := (c.partition.observe plan state).run c.store session w
    let (_, w) := session.close c.store w
    (outcome.map fun _ => state, w)

/-- The pass over the base query: the plan when it has nothing to scan, and what the partition makes of the
results when it has. -/
def basePass (c : Collaborators σ κ χ) (base : QuerySettings) (authorizations : Authorizations)
    (state : χ) (w : World σ) : Except ScanError (Plan ⊕ χ) × World σ :=
  match (w.report .basePassStarted [("query", base.name)]).ask (c.plan base authorizations) with
  | (.error e, w) => (.error e, w)
  | (.ok plan, w) =>
    if plan.hasWork then
      let (state, w) := observe c plan state w
      (state.map .inr, w)
    else (.ok (.inl plan), w)

def firstChunk (c : Collaborators σ κ χ) (base : QuerySettings) (state : χ) (w : World σ) :
    QuerySettings × χ × World σ :=
  match w.ask (c.partition.next state) with
  | ((some q, state), w) => (q, state, w)
  | ((none, state), w) => (base, state, w.report .baseQueryFallback [("query", base.name)])

def unstarted (base : QuerySettings) (authorizations : Authorizations) (remaining : Option Nat)
    (state : χ) : ChunkStream κ χ :=
  { partition := state, authorizations, base, plan := ⟨base.id, "", ∅, []⟩, remaining }

/-- Opens the first chunk. When that fails nothing stays open. -/
def openFirst (c : Collaborators σ κ χ) (base : QuerySettings) (authorizations : Authorizations)
    (remaining : Option Nat) (state : χ) (w : World σ) : Except ScanError (ChunkStream κ χ) × World σ :=
  let (q, state, w) := firstChunk c base state w
  match (unstarted base authorizations remaining state).startChunk c q w with
  | (.error e, _, w) => (.error e, w)
  | (.ok plan, s, w) => (.ok { s with plan }, w)

def prepare (c : Collaborators σ κ χ) (state : χ) (limit : Option Nat) (base : QuerySettings)
    (authorizations : Authorizations) (w : World σ) : Except ScanError (ChunkStream κ χ) × World σ :=
  let (state, w) := w.ask (c.partition.setBase base state)
  let (remaining, w) := Limit.resolve limit base w
  if c.partition.wantsBasePass state then
    match basePass c base authorizations state w with
    | (.error e, w) => (.error e, w)
    | (.ok (.inl plan), w) =>
      (.ok { partition := state, authorizations, base, plan, finished := true }, w)
    | (.ok (.inr state), w) => openFirst c base authorizations remaining state w
  else openFirst c base authorizations remaining state w

def start (c : Collaborators σ κ χ) (state : χ) (limit : Option Nat) (q : QuerySettings)
    (id : QueryId) (authorizations : Authorizations) (w : World σ) :
    Except ScanError (ChunkStream κ χ) × World σ :=
  let (scope, log) :=
    Log.Scope.enter Log.Event.queryInitialize.name [("query", q.name), ("query_id", q.id.text)] w.now w.log
  match prepare c state limit (baseOf q id) authorizations { w with log } with
  | (.error e, w) => (.error e, { w with log := scope.fail e.message w.log })
  | (.ok s, w) =>
    (.ok s,
      { w with
        log := scope.complete
          [("table", s.plan.table), ("ranges", Text.decimal s.plan.ranges.length)] w.now w.log })

end ShardQuery.ChunkStream
