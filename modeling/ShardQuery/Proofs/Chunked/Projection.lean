import ShardQuery.Proofs.Chunked.StreamSteps

/-!
# Collaborators that keep more

Collaborators may keep more in their state and their cursors than others and still answer the same.
A run with them is a run with the others, once what they keep beside is left out. So notes that
collaborators take change nothing.
-/

namespace ShardQuery

variable {σ σ' κ κ' χ α β : Type}

def Reply.map (value : α → β) (env : σ' → σ) (r : Reply σ' α) : Reply σ β :=
  ⟨value r.value, env r.env, r.cancels⟩

def World.map (env : σ' → σ) (w : World σ') : World σ :=
  ⟨env w.env, w.log, w.metrics, w.now, w.cancelled⟩

def Session.map (cursor : κ' → κ) (s : Session κ') : Session κ :=
  ⟨s.table, s.authorizations, s.ranges, s.cursor.map cursor, s.opened, s.counted⟩

def ChunkStream.map (cursor : κ' → κ) (s : ChunkStream κ' χ) : ChunkStream κ χ :=
  ⟨s.partition, s.authorizations, s.base, s.plan, s.session.map (Session.map cursor), s.chunk,
    s.chunkEntries, s.skipped, s.remaining, s.interrupted, s.finished⟩

structure ScanStore.Projects (store' : ScanStore σ' κ') (store : ScanStore σ κ) (env : σ' → σ)
    (cursor : κ' → κ) : Prop where
  openScan : ∀ table authorizations ranges m,
    (store'.openScan table authorizations ranges m).map (Except.map cursor) env =
      store.openScan table authorizations ranges (env m)
  pull : ∀ x m, (store'.pull x m).map (Prod.map id cursor) env = store.pull (cursor x) (env m)
  release : ∀ x m, (store'.release x m).map id env = store.release (cursor x) (env m)

/-- The two observations do the same; the first may also act on what the second does not see. -/
inductive Observation.Projects (env : σ' → σ) : Observation σ' χ → Observation σ χ → Prop where
  | finish (outcome : Except ScanError Unit) (state : χ) :
      Projects env (.finish outcome state) (.finish outcome state)
  | pull {onItem' : Option (Except ScanError Entry) → Observation σ' χ}
      {onItem : Option (Except ScanError Entry) → Observation σ χ}
      (rest : ∀ item, Projects env (onItem' item) (onItem item)) :
      Projects env (.pull onItem') (.pull onItem)
  | close {o' : Observation σ' χ} {o : Observation σ χ} (rest : Projects env o' o) :
      Projects env (.close o') (.close o)
  | act {effect' : σ' → σ'} {effect : σ → σ} {o' : Observation σ' χ} {o : Observation σ χ}
      (same : ∀ m, env (effect' m) = effect (env m)) (rest : Projects env o' o) :
      Projects env (.act effect' o') (.act effect o)
  | unseen {effect' : σ' → σ'} {o' : Observation σ' χ} {o : Observation σ χ}
      (same : ∀ m, env (effect' m) = env m) (rest : Projects env o' o) :
      Projects env (.act effect' o') o
  | cancel {o' : Observation σ' χ} {o : Observation σ χ} (rest : Projects env o' o) :
      Projects env (.cancel o') (.cancel o)

structure Partition.Projects (p' : Partition σ' χ) (p : Partition σ χ) (env : σ' → σ) : Prop where
  setBase : ∀ base state m, (p'.setBase base state m).map id env = p.setBase base state (env m)
  wantsBasePass : p'.wantsBasePass = p.wantsBasePass
  observe : ∀ plan state, Observation.Projects env (p'.observe plan state) (p.observe plan state)
  next : ∀ state m, (p'.next state m).map id env = p.next state (env m)

/-- The first collaborators answer as the second do, as states and cursors are viewed. -/
structure Collaborators.Projects (c' : Collaborators σ' κ' χ) (c : Collaborators σ κ χ)
    (env : σ' → σ) (cursor : κ' → κ) : Prop where
  store : c'.store.Projects c.store env cursor
  plan : ∀ q authorizations m,
    (c'.plan q authorizations m).map id env = c.plan q authorizations (env m)
  partition : c'.partition.Projects c.partition env

theorem World.ask_map {value : α → β} {env : σ' → σ} {call' : σ' → Reply σ' α}
    {call : σ → Reply σ β} (h : ∀ m, (call' m).map value env = call (env m)) (w : World σ') :
    (w.map env).ask call = (value (w.ask call').1, (w.ask call').2.map env) := by
  dsimp only [ask, map]
  rw [← h]
  rfl

namespace Session

variable {store' : ScanStore σ' κ'} {store : ScanStore σ κ} {env : σ' → σ} {cursor : κ' → κ}
  (h : store'.Projects store env cursor)

include h

theorem start_map (table : String) (authorizations : Authorizations) (ranges : List RowRange)
    (counted : Bool) (w : World σ') :
    start store table authorizations ranges counted (w.map env) =
      ((start store' table authorizations ranges counted w).1.map (Session.map cursor),
        (start store' table authorizations ranges counted w).2.map env) := by
  unfold start
  split
  · rfl
  · rw [World.ask_map (h.openScan table authorizations ranges)]
    generalize w.ask (store'.openScan table authorizations ranges) = reply
    obtain ⟨answer, w₁⟩ := reply
    cases answer with
    | error e => rfl
    | ok x => cases counted <;> rfl

theorem next_map (s : Session κ') (w : World σ') :
    (s.map cursor).next store (w.map env) =
      ((s.next store' w).1, (s.next store' w).2.1.map cursor, (s.next store' w).2.2.map env) := by
  obtain ⟨table, authorizations, ranges, x, opened, counted⟩ := s
  cases x with
  | none => rfl
  | some x =>
    dsimp only [next, map, Option.map_some]
    rw [World.ask_map (h.pull x)]
    rfl

theorem close_map (s : Session κ') (w : World σ') :
    (s.map cursor).close store (w.map env) =
      ((s.close store' w).1.map cursor, (s.close store' w).2.map env) := by
  obtain ⟨table, authorizations, ranges, x, opened, counted⟩ := s
  cases x with
  | none => rfl
  | some x =>
    dsimp only [close, map, Option.map_some]
    rw [World.ask_map (h.release x)]
    cases counted <;> rfl

end Session

theorem Observation.run_map {store' : ScanStore σ' κ'} {store : ScanStore σ κ} {env : σ' → σ}
    {cursor : κ' → κ} (h : store'.Projects store env cursor) {o' : Observation σ' χ}
    {o : Observation σ χ} (ho : Projects env o' o) (s : Session κ') (w : World σ') :
    o.run store (s.map cursor) (w.map env) =
      ((o'.run store' s w).1, (o'.run store' s w).2.1.map cursor,
        (o'.run store' s w).2.2.map env) := by
  induction ho generalizing s w with
  | finish outcome state => rfl
  | pull rest ih =>
    rw [run, Session.next_map h]
    exact ih _ _ _
  | close rest ih =>
    rw [run, Session.close_map h]
    exact ih _ _
  | @act effect' effect o' o same rest ih =>
    have heffect : ({ w.map env with env := effect (w.map env).env } : World σ) =
        World.map env { w with env := effect' w.env } := by
      dsimp only [World.map]
      rw [same]
    rw [run, heffect]
    exact ih _ _
  | @unseen effect' o' o same rest ih =>
    have heffect : w.map env = World.map env { w with env := effect' w.env } := by
      dsimp only [World.map]
      rw [same]
    rw [heffect]
    exact ih _ _
  | cancel rest ih => exact ih s w.cancel

namespace ChunkStream

private theorem map_finished (cursor : κ' → κ) (s : ChunkStream κ' χ) :
    (s.map cursor).finished = s.finished := rfl

private theorem map_remaining (cursor : κ' → κ) (s : ChunkStream κ' χ) :
    (s.map cursor).remaining = s.remaining := rfl

private theorem map_partition (cursor : κ' → κ) (s : ChunkStream κ' χ) :
    (s.map cursor).partition = s.partition := rfl

private theorem map_cancelled (env : σ' → σ) (w : World σ') :
    (w.map env).cancelled = w.cancelled := rfl

variable {c' : Collaborators σ' κ' χ} {c : Collaborators σ κ χ} {env : σ' → σ} {cursor : κ' → κ}
  (h : c'.Projects c env cursor)

include h

theorem closeSession_map (s : ChunkStream κ' χ) (w : World σ') :
    (s.map cursor).closeSession c (w.map env) =
      ((s.closeSession c' w).1.map cursor, (s.closeSession c' w).2.map env) := by
  obtain ⟨_, _, _, _, session, _, _, _, _, _, _⟩ := s
  cases session with
  | none => rfl
  | some session =>
    dsimp only [closeSession, map, Option.map_some]
    rw [Session.close_map h.store]
    rfl

theorem close_map (s : ChunkStream κ' χ) (w : World σ') :
    (s.map cursor).close c (w.map env) =
      ((s.close c' w).1.map cursor, (s.close c' w).2.map env) := by
  rw [close, closeSession_map h]
  rfl

theorem completeChunk_map (s : ChunkStream κ' χ) (w : World σ') :
    (s.map cursor).completeChunk c (w.map env) =
      ((s.completeChunk c' w).1.map cursor, (s.completeChunk c' w).2.map env) := by
  rw [completeChunk, closeSession_map h]
  rfl

theorem skipChunk_map (e : ScanError) (s : ChunkStream κ' χ) (w : World σ') :
    (s.map cursor).skipChunk c e (w.map env) =
      ((s.skipChunk c' e w).1.map cursor, (s.skipChunk c' e w).2.map env) := by
  rw [skipChunk, closeSession_map h]
  rfl

theorem interrupt_map (reason : String) (s : ChunkStream κ' χ) (w : World σ') :
    (s.map cursor).interrupt c reason (w.map env) =
      ((s.interrupt c' reason w).1.map cursor, (s.interrupt c' reason w).2.map env) := by
  have hclose := close_map h { s with interrupted := true } w
  have hmarked : ({ s.map cursor with interrupted := true } : ChunkStream κ χ) =
      map cursor { s with interrupted := true } := rfl
  rw [interrupt, hmarked, hclose]
  rfl

theorem fail_map (e : ScanError) (s : ChunkStream κ' χ) (w : World σ') :
    (s.map cursor).fail c e (w.map env) =
      ((s.fail c' e w).1.map cursor, (s.fail c' e w).2.map env) := by
  unfold fail
  split
  · exact interrupt_map h e.reason s w
  · exact close_map h s w

theorem openChunk_map (q : QuerySettings) (s : ChunkStream κ' χ) (w : World σ') :
    (s.map cursor).openChunk c q (w.map env) =
      ((s.openChunk c' q w).1.map fun r => (r.1, r.2.map (Session.map cursor)),
        (s.openChunk c' q w).2.map env) := by
  unfold openChunk
  have hsame : (s.map cursor).authorizations = s.authorizations := rfl
  rw [hsame, World.ask_map (h.plan q.forChunk s.authorizations)]
  generalize w.ask (c'.plan q.forChunk s.authorizations) = reply
  obtain ⟨answer, w₁⟩ := reply
  cases answer with
  | error e => rfl
  | ok plan =>
    dsimp only [id]
    split
    · rw [Session.start_map h.store]
      generalize Session.start c'.store plan.table plan.authorizations plan.ranges true w₁ = reply
      obtain ⟨answer, w₂⟩ := reply
      cases answer <;> rfl
    · rfl

theorem startChunk_map (q : QuerySettings) (s : ChunkStream κ' χ) (w : World σ') :
    (s.map cursor).startChunk c q (w.map env) =
      ((s.startChunk c' q w).1, (s.startChunk c' q w).2.1.map cursor,
        (s.startChunk c' q w).2.2.map env) := by
  dsimp only [startChunk]
  have hopen := openChunk_map h q { s with chunk := s.chunk + 1, chunkEntries := 0 } w
  have hcounted : ({ s.map cursor with
      chunk := (s.map cursor).chunk + 1, chunkEntries := 0 } : ChunkStream κ χ) =
      map cursor { s with chunk := s.chunk + 1, chunkEntries := 0 } := rfl
  rw [hcounted, hopen]
  generalize openChunk c' q { s with chunk := s.chunk + 1, chunkEntries := 0 } w = reply
  obtain ⟨answer, w₁⟩ := reply
  cases answer with
  | error e => rfl
  | ok opened =>
    obtain ⟨plan, session⟩ := opened
    simp only [Except.map]
    split
    · rfl
    · have hcomplete := completeChunk_map h
        { s with chunk := s.chunk + 1, chunkEntries := 0, session }
        ((w₁.count Metrics.chunkStarted).report .chunkStarted
          [("chunk", Text.decimal (s.chunk + 1)), ("query", q.name), ("table", plan.table),
            ("ranges", Text.decimal plan.ranges.length)])
      exact Prod.ext rfl hcomplete

theorem pull_map (s : ChunkStream κ' χ) (w : World σ') :
    (s.map cursor).pull c (w.map env) =
      ((s.pull c' w).1, (s.pull c' w).2.1.map cursor, (s.pull c' w).2.2.map env) := by
  unfold pull
  have hsession : (s.map cursor).session = s.session.map (Session.map cursor) := rfl
  rw [hsession]
  cases s.session with
  | none => rfl
  | some session =>
    dsimp only [Option.map_some]
    rw [Session.next_map h.store]
    generalize session.next c'.store w = reply
    obtain ⟨item, session₁, w₁⟩ := reply
    cases item with
    | none => exact Prod.ext rfl (completeChunk_map h { s with session := some session₁ } w₁)
    | some item =>
      cases item with
      | ok entry => rfl
      | error e =>
        dsimp only
        split
        · exact Prod.ext rfl (skipChunk_map h e { s with session := some session₁ } w₁)
        · exact Prod.ext rfl (fail_map h e { s with session := some session₁ } w₁)

theorem enter_map (q : QuerySettings) (s : ChunkStream κ' χ) (w : World σ') :
    (s.map cursor).enter c q (w.map env) =
      ((s.enter c' q w).1, (s.enter c' q w).2.1.map cursor, (s.enter c' q w).2.2.map env) := by
  unfold enter
  rw [startChunk_map h]
  generalize s.startChunk c' q w = reply
  obtain ⟨answer, s₁, w₁⟩ := reply
  cases answer with
  | ok plan => rfl
  | error e =>
    dsimp only
    split
    · rw [skipChunk_map h]
    · rw [fail_map h]

private theorem askChunk_map (state : χ) (w : World σ') :
    (w.map env).ask (c.partition.next state) =
      ((w.ask (c'.partition.next state)).1, (w.ask (c'.partition.next state)).2.map env) :=
  World.ask_map (h.partition.next state) w

/-- A call that leaves a chunk goes on with the next one. -/
private theorem next_map_entering {s s₁ : ChunkStream κ' χ} {w w₁ w₂ : World σ'}
    {q : QuerySettings} {state : χ} (hs : ¬ s.finished = true) (hcancelled : ¬ w.cancelled = true)
    (hcap : ¬ s.remaining = some 0) (hpull : s.pull c' w = (none, s₁, w₁))
    (hask : w₁.ask (c'.partition.next s₁.partition) = ((some q, state), w₂)) :
    (s.map cursor).next c (w.map env) =
      match (map cursor { s₁ with partition := state }).enter c q (w₂.map env) with
      | (some e, s, w) => (some (.error e), s, w)
      | (none, s, w) => s.next c w := by
  rw [next_eq, map_finished, if_neg hs, map_cancelled, if_neg hcancelled, map_remaining,
    if_neg hcap, pull_map h, hpull]
  dsimp only
  rw [map_partition, askChunk_map h, hask]
  rfl

theorem next_map (s : ChunkStream κ' χ) (w : World σ') :
    (s.map cursor).next c (w.map env) =
      ((s.next c' w).1, (s.next c' w).2.1.map cursor, (s.next c' w).2.2.map env) := by
  fun_induction next c' s w with
  | case1 s w hs => rw [next_eq, map_finished, if_pos hs]
  | case2 s w hs hcancelled s₁ w₁ hinterrupt =>
    rw [next_eq, map_finished, if_neg hs, map_cancelled, if_pos hcancelled, interrupt_map h,
      hinterrupt]
  | case3 s w hs hcancelled hcap s₁ w₁ hclose =>
    rw [next_eq, map_finished, if_neg hs, map_cancelled, if_neg hcancelled, map_remaining,
      if_pos hcap, close_map h, hclose]
  | case4 s w hs hcancelled hcap item s₁ w₁ hpull =>
    rw [next_eq, map_finished, if_neg hs, map_cancelled, if_neg hcancelled, map_remaining,
      if_neg hcap, pull_map h, hpull]
  | case5 s w hs hcancelled hcap s₁ w₁ hpull state w₂ hask =>
    rw [next_eq, map_finished, if_neg hs, map_cancelled, if_neg hcancelled, map_remaining,
      if_neg hcap, pull_map h, hpull]
    dsimp only
    rw [map_partition, askChunk_map h, hask]
    rfl
  | case6 s w hs hcancelled hcap s₁ w₁ hpull q state w₂ hask e s₂ w₃ henter =>
    rw [next_map_entering h hs hcancelled hcap hpull hask, enter_map h, henter]
  | case7 s w hs hcancelled hcap s₁ w₁ hpull q state w₂ hask s₂ w₃ henter ih =>
    rw [next_map_entering h hs hcancelled hcap hpull hask, enter_map h, henter]
    exact ih

theorem observe_map (plan : Plan) (state : χ) (w : World σ') :
    observe c plan state (w.map env) =
      ((observe c' plan state w).1, (observe c' plan state w).2.map env) := by
  unfold observe
  rw [Session.start_map h.store]
  generalize Session.start c'.store plan.table plan.authorizations plan.ranges true w = reply
  obtain ⟨answer, w₁⟩ := reply
  cases answer with
  | error e => rfl
  | ok session =>
    simp only [Except.map]
    rw [Observation.run_map h.store (h.partition.observe plan state)]
    dsimp only
    rw [Session.close_map h.store]

theorem basePass_map (base : QuerySettings) (authorizations : Authorizations) (state : χ)
    (w : World σ') :
    basePass c base authorizations state (w.map env) =
      ((basePass c' base authorizations state w).1,
        (basePass c' base authorizations state w).2.map env) := by
  unfold basePass
  have hreport : (w.map env).report .basePassStarted [("query", base.name)] =
      (w.report .basePassStarted [("query", base.name)]).map env := rfl
  rw [hreport, World.ask_map (h.plan base authorizations)]
  generalize (w.report .basePassStarted [("query", base.name)]).ask (c'.plan base authorizations) =
    reply
  obtain ⟨answer, w₁⟩ := reply
  cases answer with
  | error e => rfl
  | ok plan =>
    dsimp only [id]
    split
    · rw [observe_map h]
    · rfl

theorem firstChunk_map (base : QuerySettings) (state : χ) (w : World σ') :
    firstChunk c base state (w.map env) =
      ((firstChunk c' base state w).1, (firstChunk c' base state w).2.1,
        (firstChunk c' base state w).2.2.map env) := by
  unfold firstChunk
  rw [askChunk_map h]
  generalize w.ask (c'.partition.next state) = reply
  obtain ⟨⟨q, state₁⟩, w₁⟩ := reply
  cases q <;> rfl

theorem openFirst_map (base : QuerySettings) (authorizations : Authorizations)
    (remaining : Option Nat) (state : χ) (w : World σ') :
    openFirst c base authorizations remaining state (w.map env) =
      ((openFirst c' base authorizations remaining state w).1.map (ChunkStream.map cursor),
        (openFirst c' base authorizations remaining state w).2.map env) := by
  unfold openFirst
  rw [firstChunk_map h]
  generalize firstChunk c' base state w = first
  obtain ⟨q, state₁, w₁⟩ := first
  dsimp only
  have hunstarted : (unstarted base authorizations remaining state₁ : ChunkStream κ χ) =
      map cursor (unstarted base authorizations remaining state₁) := rfl
  rw [hunstarted, startChunk_map h]
  generalize startChunk c' q _ w₁ = reply
  obtain ⟨answer, s, w₂⟩ := reply
  cases answer <;> rfl

omit h in
private theorem resolve_map (env : σ' → σ) (limit : Option Nat) (q : QuerySettings)
    (w : World σ') :
    Limit.resolve limit q (w.map env) =
      ((Limit.resolve limit q w).1, (Limit.resolve limit q w).2.map env) := by
  unfold Limit.resolve
  split
  · rfl
  · split <;> rfl

theorem prepare_map (state : χ) (limit : Option Nat) (base : QuerySettings)
    (authorizations : Authorizations) (w : World σ') :
    prepare c state limit base authorizations (w.map env) =
      ((prepare c' state limit base authorizations w).1.map (ChunkStream.map cursor),
        (prepare c' state limit base authorizations w).2.map env) := by
  unfold prepare
  rw [World.ask_map (h.partition.setBase base state)]
  generalize w.ask (c'.partition.setBase base state) = reply
  obtain ⟨state₁, w₁⟩ := reply
  dsimp only [id]
  rw [resolve_map, h.partition.wantsBasePass]
  generalize Limit.resolve limit base w₁ = resolved
  obtain ⟨remaining, w₂⟩ := resolved
  dsimp only
  split
  · rw [basePass_map h]
    generalize basePass c' base authorizations state₁ w₂ = pass
    obtain ⟨answer, w₃⟩ := pass
    cases answer with
    | error e => rfl
    | ok outcome =>
      cases outcome with
      | inl plan => rfl
      | inr state₂ => exact openFirst_map h base authorizations remaining state₂ w₃
  · exact openFirst_map h base authorizations remaining state₁ w₂

theorem start_map (state : χ) (limit : Option Nat) (q : QuerySettings) (id : QueryId)
    (authorizations : Authorizations) (w : World σ') :
    start c state limit q id authorizations (w.map env) =
      ((start c' state limit q id authorizations w).1.map (ChunkStream.map cursor),
        (start c' state limit q id authorizations w).2.map env) := by
  unfold start
  have hentered : Log.Scope.enter Log.Event.queryInitialize.name
      [("query", q.name), ("query_id", q.id.text)] (w.map env).now (w.map env).log =
      Log.Scope.enter Log.Event.queryInitialize.name
        [("query", q.name), ("query_id", q.id.text)] w.now w.log := rfl
  rw [hentered]
  generalize Log.Scope.enter Log.Event.queryInitialize.name
    [("query", q.name), ("query_id", q.id.text)] w.now w.log = entered
  obtain ⟨scope, log⟩ := entered
  dsimp only
  have hlog : ({ w.map env with log } : World σ) = World.map env { w with log } := rfl
  rw [hlog, prepare_map h]
  generalize prepare c' state limit (baseOf q id) authorizations { w with log } = prepared
  obtain ⟨answer, w₁⟩ := prepared
  cases answer <;> rfl

end ChunkStream

theorem StreamStep.run_map {c' : Collaborators σ' κ' χ} {c : Collaborators σ κ χ} {env : σ' → σ}
    {cursor : κ' → κ} (h : c'.Projects c env cursor) (step : StreamStep)
    (live : Option (ChunkStream κ' χ)) (w : World σ') :
    step.run c (live.map (ChunkStream.map cursor), w.map env) =
      ((step.run c' (live, w)).1.map (ChunkStream.map cursor),
        (step.run c' (live, w)).2.map env) := by
  cases live with
  | none => cases step <;> rfl
  | some s =>
    cases step with
    | next =>
      dsimp only [run, Option.map_some]
      rw [ChunkStream.next_map h]
    | cancel => rfl
    | close =>
      dsimp only [run, Option.map_some]
      rw [ChunkStream.close_map h]
    | drop =>
      dsimp only [run, Option.map_some]
      rw [ChunkStream.closeSession_map h]
      rfl

theorem Except.toOption_map {ε : Type} (f : α → β) (r : Except ε α) :
    (r.map f).toOption = r.toOption.map f := by
  cases r <;> rfl

namespace ChunkStream

/-- A run with collaborators that keep more is the run with the others. -/
theorem runFrom_map {c' : Collaborators σ' κ' χ} {c : Collaborators σ κ χ} {env : σ' → σ}
    {cursor : κ' → κ} (h : c'.Projects c env cursor) (state : χ) (limit : Option Nat)
    (q : QuerySettings) (id : QueryId) (authorizations : Authorizations) (w : World σ')
    (steps : List StreamStep) :
    runFrom c state limit q id authorizations (w.map env) steps =
      ((runFrom c' state limit q id authorizations w steps).1.map (ChunkStream.map cursor),
        (runFrom c' state limit q id authorizations w steps).2.map env) := by
  unfold runFrom
  rw [start_map h]
  generalize start c' state limit q id authorizations w = started
  obtain ⟨answer, w₁⟩ := started
  dsimp only
  rw [Except.toOption_map]
  generalize answer.toOption = live
  induction steps generalizing live w₁ with
  | nil => rfl
  | cons step steps ih =>
    rw [List.foldl_cons, StreamStep.run_map h]
    exact ih _ _

end ChunkStream
end ShardQuery
