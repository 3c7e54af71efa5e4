import ShardQuery.Proofs.Chunked.StreamRun

/-!
# Records of calls

Collaborators can record every call that is made to them together with their answer. What they
answer does not change, so a run with recording collaborators is a run with the plain ones.
-/

namespace ShardQuery

/-- A call to a collaborator and what it answered. Of a scan that was opened nothing is kept. -/
inductive Call where
  | based (q : QuerySettings)
  | asked (chunk : Option QuerySettings)
  | planned (q : QuerySettings) (authorizations : Authorizations) (plan : Except ScanError Plan)
  | scanned (table : String) (authorizations : Authorizations) (ranges : List RowRange)
      (failure : Option ScanError)
  | observed (plan : Plan)
  | pulled (item : Option (Except ScanError Entry))
  | released

/-- A state and the calls recorded beside it, in order. -/
structure Recorded (σ : Type) where
  env : σ
  calls : List Call := []

variable {σ κ χ α : Type}

def Reply.recorded (r : Reply σ α) (m : Recorded σ) (call : Call) : Reply (Recorded σ) α :=
  ⟨r.value, ⟨r.env, m.calls ++ [call]⟩, r.cancels⟩

def failureOf : Except ScanError α → Option ScanError
  | .error e => some e
  | .ok _ => none

def ScanStore.recorded (store : ScanStore σ κ) : ScanStore (Recorded σ) κ where
  openScan table authorizations ranges m :=
    let reply := store.openScan table authorizations ranges m.env
    reply.recorded m (.scanned table authorizations ranges (failureOf reply.value))
  pull cursor m :=
    let reply := store.pull cursor m.env
    reply.recorded m (.pulled reply.value.1)
  release cursor m := (store.release cursor m.env).recorded m .released

def Observation.recorded : Observation σ χ → Observation (Recorded σ) χ
  | finish outcome state => finish outcome state
  | pull onItem => pull fun item => (onItem item).recorded
  | close rest => close rest.recorded
  | act effect rest => act (fun m => { m with env := effect m.env }) rest.recorded
  | cancel rest => cancel rest.recorded

def Partition.recorded (p : Partition σ χ) : Partition (Recorded σ) χ where
  setBase base state m := (p.setBase base state m.env).recorded m (.based base)
  wantsBasePass := p.wantsBasePass
  observe plan state :=
    .act (fun m => { m with calls := m.calls ++ [.observed plan] }) (p.observe plan state).recorded
  next state m :=
    let reply := p.next state m.env
    reply.recorded m (.asked reply.value.1)
  size := p.size
  size_next_lt state m q h := p.size_next_lt state m.env q h

def Collaborators.recorded (c : Collaborators σ κ χ) : Collaborators (Recorded σ) κ χ where
  store := c.store.recorded
  plan q authorizations m :=
    let reply := c.plan q authorizations m.env
    reply.recorded m (.planned q authorizations reply.value)
  partition := c.partition.recorded

theorem Collaborators.store_recorded (c : Collaborators σ κ χ) :
    c.recorded.store = c.store.recorded := rfl

private theorem Observation.recorded_projects (o : Observation σ χ) :
    Projects Recorded.env o.recorded o := by
  induction o with
  | finish outcome state => exact .finish outcome state
  | pull onItem ih => exact .pull ih
  | close rest ih => exact .close ih
  | act effect rest ih => exact .act (fun _ => rfl) ih
  | cancel rest ih => exact .cancel ih

theorem ScanStore.recorded_projects (store : ScanStore σ κ) :
    store.recorded.Projects store Recorded.env id where
  openScan table authorizations ranges m := by
    rcases hreply : store.openScan table authorizations ranges m.env with ⟨_ | _, _, _⟩
    all_goals simp [recorded, Reply.recorded, Reply.map, hreply, Except.map]
  pull _ _ := rfl
  release _ _ := rfl

theorem Collaborators.recorded_projects (c : Collaborators σ κ χ) :
    c.recorded.Projects c Recorded.env id where
  store := c.store.recorded_projects
  plan _ _ _ := rfl
  partition :=
    { setBase := fun _ _ _ => rfl
      wantsBasePass := rfl
      observe := fun plan state =>
        .unseen (fun _ => rfl) (c.partition.observe plan state).recorded_projects
      next := fun _ _ => rfl }

theorem Session.map_id (s : Session κ) : s.map id = s := by
  obtain ⟨_, _, _, cursor, _, _⟩ := s
  cases cursor <;> rfl

private theorem ChunkStream.map_id (s : ChunkStream κ χ) : s.map id = s := by
  obtain ⟨_, _, _, _, session, _, _, _, _, _, _⟩ := s
  cases session with
  | none => rfl
  | some session => rw [map, Option.map_some, session.map_id]

def World.recorded (w : World σ) : World (Recorded σ) :=
  ⟨⟨w.env, []⟩, w.log, w.metrics, w.now, w.cancelled⟩

def World.unrecorded (w : World (Recorded σ)) : World σ := w.map Recorded.env

namespace StreamRun

def unrecorded (r : StreamRun (Recorded σ) κ χ) : StreamRun σ κ χ :=
  ⟨r.live, r.world.unrecorded, r.returned⟩

theorem run_unrecorded (c : Collaborators σ κ χ) (state : χ) (limit : Option Nat)
    (q : QuerySettings) (id : QueryId) (authorizations : Authorizations) (w : World σ)
    (steps : List StreamStep) :
    run c state limit q id authorizations w steps =
      (run c.recorded state limit q id authorizations w.recorded steps).unrecorded := by
  have hrun := run_map c.recorded_projects state limit q id authorizations w.recorded steps
  rw [show w.recorded.map Recorded.env = w from rfl] at hrun
  rw [hrun, map, unrecorded]
  congr 1
  cases (run c.recorded state limit q id authorizations w.recorded steps).live with
  | none => rfl
  | some s => exact congrArg some (ChunkStream.map_id s)

end StreamRun
end ShardQuery
