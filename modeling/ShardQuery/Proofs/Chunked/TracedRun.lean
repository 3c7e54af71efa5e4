import ShardQuery.Proofs.Chunked.Projection
import ShardQuery.Proofs.Chunked.Tracing

/-!
# A trace changes nothing

Traced collaborators answer as the plain ones do, once traces and numbers are left out, and so a
run with them is a run with the plain ones.
-/

namespace ShardQuery

variable {σ κ χ : Type}

def World.traced (w : World σ) : World (Traced σ) :=
  ⟨⟨w.env, []⟩, w.log, w.metrics, w.now, w.cancelled⟩

def World.plain (w : World (Traced σ)) : World σ :=
  ⟨w.env.env, w.log, w.metrics, w.now, w.cancelled⟩

def Session.plain (s : Session (Nat × κ)) : Session κ :=
  ⟨s.table, s.authorizations, s.ranges, s.cursor.map Prod.snd, s.opened, s.counted⟩

def ChunkStream.plain (s : ChunkStream (Nat × κ) χ) : ChunkStream κ χ :=
  ⟨s.partition, s.authorizations, s.base, s.plan, s.session.map Session.plain, s.chunk,
    s.chunkEntries, s.skipped, s.remaining, s.interrupted, s.finished⟩

private theorem ScanStore.traced_projects (store : ScanStore σ κ) :
    store.traced.Projects store Traced.env Prod.snd where
  openScan table authorizations ranges m := by
    rcases hreply : store.openScan table authorizations ranges m.env with ⟨_ | cursor, env, cancels⟩
    all_goals simp [traced, Reply.map, hreply, Except.map]
  pull _ _ := rfl
  release _ _ := rfl

private theorem Observation.traced_projects (o : Observation σ χ) :
    Projects Traced.env o.traced o := by
  induction o with
  | finish outcome state => exact .finish outcome state
  | pull onItem ih => exact .pull ih
  | close rest ih => exact .close ih
  | act effect rest ih => exact .act (fun _ => rfl) ih
  | cancel rest ih => exact .cancel ih

theorem Collaborators.traced_projects (c : Collaborators σ κ χ) :
    c.traced.Projects c Traced.env Prod.snd where
  store := c.store.traced_projects
  plan _ _ _ := rfl
  partition :=
    { setBase := fun _ _ _ => rfl
      wantsBasePass := rfl
      observe := fun plan state => (c.partition.observe plan state).traced_projects
      next := fun _ _ => rfl }

/-- A run with traced collaborators is the run with the plain ones. -/
theorem ChunkStream.runFrom_plain (c : Collaborators σ κ χ) (state : χ) (limit : Option Nat)
    (q : QuerySettings) (id : QueryId) (authorizations : Authorizations) (w : World (Traced σ))
    (steps : List StreamStep) :
    runFrom c state limit q id authorizations w.plain steps =
      ((runFrom c.traced state limit q id authorizations w steps).1.map plain,
        (runFrom c.traced state limit q id authorizations w steps).2.plain) :=
  runFrom_map c.traced_projects state limit q id authorizations w steps

end ShardQuery
