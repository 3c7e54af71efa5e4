import ShardQuery.Chunked.Start
import ShardQuery.Proofs.Chunked.CursorTrace

/-!
# Collaborators that keep a trace

Any collaborators can be made to note their calls and cursors beside their own state. What they
answer does not change, so a run with the traced collaborators is a run with the plain ones.
-/

namespace ShardQuery

/-- A state and the trace kept beside it. -/
structure Traced (σ : Type) where
  env : σ
  trace : CursorTrace := []

variable {σ κ χ α : Type}

def Reply.withTrace (r : Reply σ α) (trace : CursorTrace) : Reply (Traced σ) α :=
  ⟨r.value, ⟨r.env, trace⟩, r.cancels⟩

/-- A cursor carries its number, by which the trace speaks of it. -/
def ScanStore.traced (store : ScanStore σ κ) : ScanStore (Traced σ) (Nat × κ) where
  openScan table authorizations ranges m :=
    let reply := store.openScan table authorizations ranges m.env
    let trace := m.trace ++ [.askScan]
    match reply.value with
    | .error e => ⟨.error e, ⟨reply.env, trace⟩, reply.cancels⟩
    | .ok cursor =>
      ⟨.ok (trace.opens, cursor), ⟨reply.env, trace ++ [.opened trace.opens]⟩, reply.cancels⟩
  pull cursor m :=
    let reply := store.pull cursor.2 m.env
    ⟨(reply.value.1, cursor.1, reply.value.2), ⟨reply.env, m.trace ++ [.pulled cursor.1]⟩,
      reply.cancels⟩
  release cursor m :=
    (store.release cursor.2 m.env).withTrace (m.trace ++ [.released cursor.1])

def Observation.traced : Observation σ χ → Observation (Traced σ) χ
  | finish outcome state => finish outcome state
  | pull onItem => pull fun item => (onItem item).traced
  | close rest => close rest.traced
  | act effect rest => act (fun m => { m with env := effect m.env }) rest.traced
  | cancel rest => cancel rest.traced

def Partition.traced (p : Partition σ χ) : Partition (Traced σ) χ where
  setBase base state m := (p.setBase base state m.env).withTrace m.trace
  wantsBasePass := p.wantsBasePass
  observe plan state := (p.observe plan state).traced
  next state m := (p.next state m.env).withTrace (m.trace ++ [.askChunk])
  size := p.size
  size_next_lt state m q h := p.size_next_lt state m.env q h

def Collaborators.traced (c : Collaborators σ κ χ) : Collaborators (Traced σ) (Nat × κ) χ where
  store := c.store.traced
  plan q authorizations m :=
    (c.plan q authorizations m.env).withTrace (m.trace ++ [.askPlan])
  partition := c.partition.traced

theorem Collaborators.store_traced (c : Collaborators σ κ χ) : c.traced.store = c.store.traced :=
  rfl

end ShardQuery
