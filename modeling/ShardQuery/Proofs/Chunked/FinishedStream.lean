import ShardQuery.Chunked.Rehearsal
import ShardQuery.Proofs.Chunked.KeptBooks

/-!
# Finished streams

A stream ends by running out of chunks, at its cap, by a cancellation, an interruption or any other
failure, or because it is closed. However it ended, it is finished for good.
-/

namespace ShardQuery

deriving instance DecidableEq for StreamStep

variable {σ κ χ : Type}

namespace ChunkStream

private theorem finished_fail (c : Collaborators σ κ χ) (e : ScanError) (s : ChunkStream κ χ)
    (w : World σ) : (s.fail c e w).1.finished = true := by
  rw [fail_fst]

private theorem finished_pull (c : Collaborators σ κ χ) (s : ChunkStream κ χ) (w : World σ)
    {e : ScanError} (h : (s.pull c w).1 = some (.error e)) :
    (s.pull c w).2.1.finished = true := by
  unfold pull at h ⊢
  cases hsession : s.session with
  | none => simp [hsession] at h
  | some session =>
    simp only [hsession] at h ⊢
    generalize session.next c.store w = reply at h ⊢
    obtain ⟨_ | _ | _, session', w'⟩ := reply
    · cases h
    · dsimp only at h ⊢
      split at h
      · cases h
      · next hlocal =>
        rw [if_neg hlocal]
        exact finished_fail ..
    · cases h

private theorem finished_enter (c : Collaborators σ κ χ) (q : QuerySettings) (s : ChunkStream κ χ)
    (w : World σ) {e : ScanError} (h : (s.enter c q w).1 = some e) :
    (s.enter c q w).2.1.finished = true := by
  unfold enter at h ⊢
  generalize s.startChunk c q w = reply at h ⊢
  obtain ⟨_ | _, s', w'⟩ := reply
  · dsimp only at h ⊢
    split at h
    · cases h
    · next hlocal =>
      rw [if_neg hlocal]
      exact finished_fail ..
  · cases h

theorem finished_next_error (c : Collaborators σ κ χ) (s : ChunkStream κ χ) (w : World σ)
    {e : ScanError} (h : (s.next c w).1 = some (.error e)) :
    (s.next c w).2.1.finished = true := by
  fun_induction next c s w with
  | case1 => cases h
  | case2 => cases h
  | case3 => cases h
  | case4 s w hs hcancelled hcap item s₁ w₁ hpull =>
    have hfinished := finished_pull c s w (e := e)
    rw [hpull] at hfinished
    exact hfinished h
  | case5 => cases h
  | case6 s w hs hcancelled hcap s₁ w₁ hpull q state w₂ hask e' s₂ w₃ henter =>
    have hfinished := finished_enter c q { s₁ with partition := state } w₂ (e := e')
    rw [henter] at hfinished
    exact hfinished rfl
  | case7 s w hs hcancelled hcap s₁ w₁ hpull q state w₂ hask s₂ w₃ henter ih => exact ih h

theorem next_of_finished (c : Collaborators σ κ χ) {s : ChunkStream κ χ} (h : s.finished = true)
    (w : World σ) : s.next c w = (none, s, w) := by
  rw [next_eq, if_pos h]

theorem close_of_finished (c : Collaborators σ κ χ) {s : ChunkStream κ χ}
    (hfinished : s.finished = true) (hsession : s.session = none) (w : World σ) :
    s.close c w = (s, w) := by
  dsimp only [close]
  rw [closeSession_of_none c hsession, ← hfinished]

end ChunkStream

namespace StreamRun

variable (c : Collaborators σ κ χ)

/-- A run whose stream, if it is still there, is finished. -/
def IsOver (r : StreamRun σ κ χ) : Prop := ∀ s, r.live = some s → s.finished = true

private theorem IsOver.step {r : StreamRun σ κ χ} (h : r.IsOver) (step : StreamStep) :
    (r.step c step).IsOver := by
  obtain ⟨live, world, returned⟩ := r
  cases live with
  | none =>
    intro s hs
    cases step <;> cases hs
  | some s =>
    have hfinished : s.finished = true := h s rfl
    cases step with
    | next =>
      rintro s' ⟨⟩
      rw [ChunkStream.next_of_finished c hfinished]
      exact hfinished
    | cancel =>
      rintro s' ⟨⟩
      exact hfinished
    | close =>
      rintro s' ⟨⟩
      exact congrArg ChunkStream.finished (ChunkStream.close_fst c s world)
    | drop =>
      intro s' hs'
      cases hs'

/-- A stream that has yielded nothing or a failure is finished. -/
private theorem isOver_step {r : StreamRun σ κ χ}
    (h : (∃ item ∈ r.returned, entry? item = none) → r.IsOver) (step : StreamStep)
    (hended : ∃ item ∈ (r.step c step).returned, entry? item = none) :
    (r.step c step).IsOver := by
  obtain ⟨item, hmem, hnone⟩ := hended
  rcases List.mem_append.1 hmem with hmem | hmem
  · exact (h ⟨item, hmem, hnone⟩).step c step
  · obtain ⟨live, world, returned⟩ := r
    rw [Option.mem_toList] at hmem
    cases live with
    | none => cases step <;> cases hmem
    | some s =>
      cases step with
      | next =>
        obtain rfl : (s.next c world).1 = item := Option.some.inj hmem
        rintro s' ⟨⟩
        cases hitem : (s.next c world).1 with
        | none => exact ChunkStream.finished_next c s world hitem
        | some answer =>
          cases answer with
          | error e => exact ChunkStream.finished_next_error c s world hitem
          | ok e =>
            rw [hitem] at hnone
            cases hnone
      | _ => cases hmem

theorem isOver_run (state : χ) (limit : Option Nat) (q : QuerySettings) (id : QueryId)
    (authorizations : Authorizations) (w : World σ) (steps : List StreamStep) :
    let r := run c state limit q id authorizations w steps
    (∃ item ∈ r.returned, entry? item = none) ∨ .close ∈ steps → r.IsOver := by
  rintro r (hended | hclose)
  · refine run_induct (P := fun r => (∃ item ∈ r.returned, entry? item = none) → r.IsOver)
      c state limit q id authorizations w steps ?_ (fun r step _ hr => isOver_step c hr step) hended
    rintro ⟨item, hmem, -⟩
    cases hmem
  · obtain ⟨earlier, later, rfl⟩ := List.append_of_mem hclose
    have hclosed : ∀ r : StreamRun σ κ χ, (r.step c .close).IsOver := by
      rintro ⟨live, world, returned⟩ s hs
      cases live with
      | none => cases hs
      | some s₀ =>
        cases hs
        exact congrArg ChunkStream.finished (ChunkStream.close_fst c s₀ world)
    dsimp only [r, run]
    rw [List.foldl_append, List.foldl_cons]
    exact steps_induct c (hclosed _) fun r step _ hr => hr.step c step

private theorem steps_of_finished {s : ChunkStream κ χ} (hfinished : s.finished = true)
    (hsession : s.session = none) (later : List StreamStep) (hlater : .drop ∉ later)
    (w : World σ) (returned : List (Option (Except ScanError Entry))) :
    later.foldl (step c) ⟨some s, w, returned⟩ =
      ⟨some s, if .cancel ∈ later then w.cancel else w,
        returned ++ List.replicate (later.count .next) none⟩ := by
  induction later generalizing w returned with
  | nil => simp
  | cons step later ih =>
    have hdrop := List.ne_of_not_mem_cons hlater
    have hrest := ih (List.not_mem_of_not_mem_cons hlater)
    rw [List.foldl_cons]
    cases step with
    | next =>
      have hstep : StreamRun.step c ⟨some s, w, returned⟩ .next =
          ⟨some s, w, returned ++ [none]⟩ := by
        dsimp only [StreamRun.step, StreamStep.run, StreamStep.returns]
        rw [ChunkStream.next_of_finished c hfinished]
        rfl
      rw [hstep, hrest, List.count_cons_self, List.replicate_succ]
      simp
    | cancel =>
      have hstep : StreamRun.step c ⟨some s, w, returned⟩ .cancel =
          ⟨some s, w.cancel, returned⟩ :=
        congrArg (StreamRun.mk _ _) (List.append_nil _)
      -- cancelling once more changes nothing
      have hagain : w.cancel.cancel = w.cancel := rfl
      rw [hstep, hrest, hagain]
      simp
    | close =>
      have hstep : StreamRun.step c ⟨some s, w, returned⟩ .close = ⟨some s, w, returned⟩ := by
        dsimp only [StreamRun.step, StreamStep.run, StreamStep.returns]
        rw [ChunkStream.close_of_finished c hfinished hsession]
        exact congrArg (StreamRun.mk _ _) (List.append_nil _)
      rw [hstep, hrest]
      simp
    | drop => exact absurd rfl hdrop

/-- Any collaborators and any steps. Once nothing or a failure was returned, or the stream was
closed or interrupted, it is finished for good: whatever is called later, the stream stays as it is,
nothing is returned, no collaborator is called and nothing is counted or logged. Only the
cancellation flag can still be raised. -/
theorem run_finished (c : Collaborators σ κ χ) (state : χ) (limit : Option Nat)
    (q : QuerySettings) (id : QueryId) (authorizations : Authorizations) (w : World σ)
    (steps later : List StreamStep) {s : ChunkStream κ χ}
    (hlive : (run c.recorded state limit q id authorizations w.recorded steps).live = some s)
    (hended : (∃ item ∈ (run c.recorded state limit q id authorizations w.recorded steps).returned,
      entry? item = none) ∨ .close ∈ steps ∨ s.interrupted = true)
    (hlater : .drop ∉ later) :
    let r := run c.recorded state limit q id authorizations w.recorded steps
    let after := run c.recorded state limit q id authorizations w.recorded (steps ++ later)
    run c state limit q id authorizations w steps = r.unrecorded ∧
      run c state limit q id authorizations w (steps ++ later) = after.unrecorded ∧
      s.finished = true ∧ after.live = some s ∧
      after.world = (if .cancel ∈ later then r.world.cancel else r.world) ∧
      after.returned = r.returned ++ List.replicate (later.count .next) none := by
  intro r after
  obtain ⟨fate, hs⟩ := exists_standing c hlive
  have hfinished : s.finished = true := by
    have hover := isOver_run c.recorded state limit q id authorizations w.recorded steps
    rcases hended with hended | hended | hended
    · exact hover (.inl hended) s hlive
    · exact hover (.inr hended) s hlive
    · exact hs.finished_of hended
  have hafter : after = later.foldl (step c.recorded) r := List.foldl_append ..
  have hr : r = ⟨some s, r.world, r.returned⟩ := by
    rw [← hlive]
  rw [hr, steps_of_finished c.recorded hfinished (hs.session_eq hfinished) later hlater] at hafter
  refine ⟨run_unrecorded c state limit q id authorizations w steps,
    run_unrecorded c state limit q id authorizations w (steps ++ later), hfinished, ?_⟩
  rw [hafter]
  exact ⟨rfl, rfl, rfl⟩

def brokenScan : Rehearsal where
  store := (∅ : MemoryStore).insert "shard" ((∅ : Table).insert ⟨"a", "x", ""⟩ "1")
  readFaults := (∅ : OrderedMap String (List ReadFault)).insert "a" [⟨1, ⟨.storeFailed, "lost"⟩⟩]

theorem run_finished_broken :
    let c := brokenScan.collaborators
    let w : World Rehearsal.Notes := { env := [] }
    let r := run c.recorded [] none ⟨3, "whole", "a", ∅⟩ 4 ∅ w.recorded [.next, .next]
    let after := run c.recorded [] none ⟨3, "whole", "a", ∅⟩ 4 ∅ w.recorded
      ([.next, .next] ++ [.next, .cancel, .close, .next])
    r.returned.map entry? = [some ⟨⟨"a", "x", ""⟩, "1"⟩, none] ∧
      after.live = r.live ∧ after.world = r.world.cancel ∧
      after.returned = r.returned ++ [none, none] := by
  intro c w r after
  have hreturned : r.returned.map entry? = [some ⟨⟨"a", "x", ""⟩, "1"⟩, none] := by
    decide +kernel
  have hlive : r.live.isSome = true := by decide +kernel
  obtain ⟨s, hs⟩ := Option.isSome_iff_exists.1 hlive
  have hended : ∃ item ∈ r.returned, entry? item = none := by
    rw [← List.mem_map, hreturned]
    decide
  obtain ⟨-, -, -, hlive', hworld, hitems⟩ := run_finished c [] none ⟨3, "whole", "a", ∅⟩ 4 ∅ w
    [.next, .next] [.next, .cancel, .close, .next] hs (.inl hended) (by decide)
  exact ⟨hreturned, hlive'.trans hs.symm, hworld, hitems⟩

end StreamRun
end ShardQuery
