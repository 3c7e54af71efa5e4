import ShardQuery.Proofs.Chunked.Projection

/-!
# What a run returns

A run of steps keeps the stream that is left, its world, and what every call of `next` returned.
-/

namespace ShardQuery

variable {σ σ' κ κ' χ : Type}

/-- What a step returns to its caller. Only a call of `next` on a stream that is there does. -/
def StreamStep.returns (c : Collaborators σ κ χ) :
    StreamStep → Option (ChunkStream κ χ) × World σ → Option (Option (Except ScanError Entry))
  | next, (some s, w) => some (s.next c w).1
  | _, _ => none

/-- A run so far: the stream that is left, if any, its world, and what was returned, in order. -/
structure StreamRun (σ κ χ : Type) where
  live : Option (ChunkStream κ χ)
  world : World σ
  returned : List (Option (Except ScanError Entry)) := []

namespace StreamRun

def entry? : Option (Except ScanError Entry) → Option Entry
  | some (.ok e) => some e
  | _ => none

def entries (r : StreamRun σ κ χ) : List Entry := r.returned.filterMap entry?

def step (c : Collaborators σ κ χ) (r : StreamRun σ κ χ) (step : StreamStep) : StreamRun σ κ χ :=
  let (live, world) := step.run c (r.live, r.world)
  ⟨live, world, r.returned ++ (step.returns c (r.live, r.world)).toList⟩

def start (c : Collaborators σ κ χ) (state : χ) (limit : Option Nat) (q : QuerySettings)
    (id : QueryId) (authorizations : Authorizations) (w : World σ) : StreamRun σ κ χ :=
  let (started, w) := ChunkStream.start c state limit q id authorizations w
  { live := started.toOption, world := w }

def run (c : Collaborators σ κ χ) (state : χ) (limit : Option Nat) (q : QuerySettings)
    (id : QueryId) (authorizations : Authorizations) (w : World σ) (steps : List StreamStep) :
    StreamRun σ κ χ :=
  steps.foldl (step c) (start c state limit q id authorizations w)

theorem steps_induct {P : StreamRun σ κ χ → Prop} (c : Collaborators σ κ χ)
    {steps : List StreamStep} {r : StreamRun σ κ χ} (h : P r)
    (hstep : ∀ r step, step ∈ steps → P r → P (r.step c step)) : P (steps.foldl (step c) r) := by
  induction steps generalizing r with
  | nil => exact h
  | cons step steps ih =>
    exact ih (hstep r step List.mem_cons_self h)
      fun r step hmem => hstep r step (List.mem_cons_of_mem _ hmem)

/-- What holds once the query was started and is kept by every step holds of a run. -/
theorem run_induct {P : StreamRun σ κ χ → Prop} (c : Collaborators σ κ χ) (state : χ)
    (limit : Option Nat) (q : QuerySettings) (id : QueryId) (authorizations : Authorizations)
    (w : World σ) (steps : List StreamStep)
    (hstart : P (start c state limit q id authorizations w))
    (hstep : ∀ r step, step ∈ steps → P r → P (r.step c step)) :
    P (run c state limit q id authorizations w steps) :=
  steps_induct c hstart hstep

/-- The stream and the world of a run are those of the steps alone. -/
theorem run_eq_runFrom (c : Collaborators σ κ χ) (state : χ) (limit : Option Nat)
    (q : QuerySettings) (id : QueryId) (authorizations : Authorizations) (w : World σ)
    (steps : List StreamStep) :
    let r := run c state limit q id authorizations w steps
    (r.live, r.world) = ChunkStream.runFrom c state limit q id authorizations w steps := by
  have hsteps : ∀ r : StreamRun σ κ χ,
      ((steps.foldl (step c) r).live, (steps.foldl (step c) r).world) =
        steps.foldl (fun live step => step.run c live) (r.live, r.world) := by
    induction steps with
    | nil => exact fun _ => rfl
    | cons step steps ih => exact fun r => ih (r.step c step)
  exact hsteps _

def map (env : σ' → σ) (cursor : κ' → κ) (r : StreamRun σ' κ' χ) : StreamRun σ κ χ :=
  ⟨r.live.map (ChunkStream.map cursor), r.world.map env, r.returned⟩

section

variable {c' : Collaborators σ' κ' χ} {c : Collaborators σ κ χ} {env : σ' → σ} {cursor : κ' → κ}
  (h : c'.Projects c env cursor)

include h

private theorem returns_map (step : StreamStep) (live : Option (ChunkStream κ' χ))
    (w : World σ') :
    step.returns c (live.map (ChunkStream.map cursor), w.map env) = step.returns c' (live, w) := by
  cases live with
  | none => cases step <;> rfl
  | some s =>
    cases step with
    | next =>
      dsimp only [StreamStep.returns, Option.map_some]
      rw [ChunkStream.next_map h]
    | cancel => rfl
    | close => rfl
    | drop => rfl

theorem step_map (r : StreamRun σ' κ' χ) (step : StreamStep) :
    (r.map env cursor).step c step = (r.step c' step).map env cursor := by
  dsimp only [StreamRun.step, map]
  rw [StreamStep.run_map h, returns_map h]

theorem start_map (state : χ) (limit : Option Nat) (q : QuerySettings) (id : QueryId)
    (authorizations : Authorizations) (w : World σ') :
    start c state limit q id authorizations (w.map env) =
      (start c' state limit q id authorizations w).map env cursor := by
  dsimp only [start, map]
  rw [ChunkStream.start_map h, Except.toOption_map]

theorem run_map (state : χ) (limit : Option Nat) (q : QuerySettings) (id : QueryId)
    (authorizations : Authorizations) (w : World σ') (steps : List StreamStep) :
    run c state limit q id authorizations (w.map env) steps =
      (run c' state limit q id authorizations w steps).map env cursor := by
  unfold run
  rw [start_map h]
  generalize start c' state limit q id authorizations w = r
  induction steps generalizing r with
  | nil => rfl
  | cons step steps ih =>
    rw [List.foldl_cons, step_map h]
    exact ih _

end

end StreamRun
end ShardQuery
