import ShardQuery.Chunked.Start

/-!
# Steps of a stream

Leaving a chunk and ending a stream change a stream in the same way whatever the collaborators
answer. Only planning, opening and pulling depend on them. A run is a start and any steps after it.
-/

namespace ShardQuery

variable {σ κ χ : Type}

def World.stage (w : World σ) : σ × Bool := (w.env, w.cancelled)

theorem World.ask_eq {α : Type} {w : World σ} {call : σ → Reply σ α} {a : α}
    (h : call w.env = ⟨a, w.env, false⟩) : w.ask call = (a, w) := by
  simp [World.ask, h]

/-- Releasing a cursor of the store leaves its state as it is and does not cancel. -/
def ScanStore.ReleasesQuietly (store : ScanStore σ κ) : Prop :=
  ∀ cursor env, store.release cursor env = ⟨(), env, false⟩

theorem Session.stage_close {store : ScanStore σ κ} (h : store.ReleasesQuietly) (s : Session κ)
    (w : World σ) : (s.close store w).2.stage = w.stage := by
  unfold close
  cases s.cursor with
  | none => rfl
  | some cursor =>
    dsimp only
    rw [World.ask_eq (h cursor w.env)]
    dsimp only [reportClosed, tally]
    split <;> rfl

/-- What can be done with a stream once it is started. -/
inductive StreamStep where
  | next | cancel | close | drop

/-- A stream that was dropped, or did not start, can only be cancelled. -/
def StreamStep.run (c : Collaborators σ κ χ) :
    StreamStep → Option (ChunkStream κ χ) × World σ → Option (ChunkStream κ χ) × World σ
  | cancel, (live, w) => (live, w.cancel)
  | _, (none, w) => (none, w)
  | next, (some s, w) =>
    let (_, s, w) := s.next c w
    (some s, w)
  | close, (some s, w) =>
    let (s, w) := s.close c w
    (some s, w)
  | drop, (some s, w) =>
    let (_, w) := s.closeSession c w
    (none, w)

namespace ChunkStream

def runFrom (c : Collaborators σ κ χ) (state : χ) (limit : Option Nat) (q : QuerySettings)
    (id : QueryId) (authorizations : Authorizations) (w : World σ) (steps : List StreamStep) :
    Option (ChunkStream κ χ) × World σ :=
  let (started, w) := start c state limit q id authorizations w
  steps.foldl (fun live step => step.run c live) (started.toOption, w)

theorem closeSession_fst (c : Collaborators σ κ χ) (s : ChunkStream κ χ) (w : World σ) :
    (s.closeSession c w).1 = { s with session := none } := by
  unfold closeSession
  cases hsession : s.session with
  | none =>
    dsimp only
    rw [← hsession]
  | some session => rfl

theorem close_fst (c : Collaborators σ κ χ) (s : ChunkStream κ χ) (w : World σ) :
    (s.close c w).1 = { s with session := none, finished := true } := by
  dsimp only [close]
  rw [closeSession_fst]

theorem completeChunk_fst (c : Collaborators σ κ χ) (s : ChunkStream κ χ) (w : World σ) :
    (s.completeChunk c w).1 = { s with session := none } :=
  closeSession_fst c s w

theorem skipChunk_fst (c : Collaborators σ κ χ) (e : ScanError) (s : ChunkStream κ χ)
    (w : World σ) :
    (s.skipChunk c e w).1 = { s with session := none, skipped := s.skipped + 1 } := by
  dsimp only [skipChunk]
  rw [closeSession_fst]

theorem interrupt_fst (c : Collaborators σ κ χ) (reason : String) (s : ChunkStream κ χ)
    (w : World σ) :
    (s.interrupt c reason w).1 =
      { s with session := none, finished := true, interrupted := true } :=
  close_fst c { s with interrupted := true } w

theorem fail_fst (c : Collaborators σ κ χ) (e : ScanError) (s : ChunkStream κ χ) (w : World σ) :
    (s.fail c e w).1 =
      { s with
        session := none, finished := true, interrupted := s.interrupted || e.isInterrupted } := by
  unfold fail
  by_cases h : e.isInterrupted = true
  · rw [if_pos h, interrupt_fst, h, Bool.or_true]
  · rw [if_neg h, close_fst, Bool.eq_false_iff.2 h, Bool.or_false]

section

variable {c : Collaborators σ κ χ} (h : c.store.ReleasesQuietly)

include h

theorem stage_closeSession (s : ChunkStream κ χ) (w : World σ) :
    (s.closeSession c w).2.stage = w.stage := by
  unfold closeSession
  cases s.session with
  | none => rfl
  | some session => exact session.stage_close h w

theorem stage_close (s : ChunkStream κ χ) (w : World σ) : (s.close c w).2.stage = w.stage :=
  stage_closeSession h s w

theorem stage_completeChunk (s : ChunkStream κ χ) (w : World σ) :
    (s.completeChunk c w).2.stage = w.stage :=
  stage_closeSession h s w

theorem stage_skipChunk (e : ScanError) (s : ChunkStream κ χ) (w : World σ) :
    (s.skipChunk c e w).2.stage = w.stage :=
  stage_closeSession h s w

theorem stage_fail (e : ScanError) (s : ChunkStream κ χ) (w : World σ) :
    (s.fail c e w).2.stage = w.stage := by
  unfold fail
  split
  · exact stage_close h { s with interrupted := true } w
  · exact stage_close h s w

end

/-- The loop unfolded once. -/
theorem next_eq (c : Collaborators σ κ χ) (s : ChunkStream κ χ) (w : World σ) :
    s.next c w =
      if s.finished then (none, s, w)
      else if w.cancelled then (none, s.interrupt c "cancelled" w)
      else if s.remaining = some 0 then (none, s.close c w)
      else
        match s.pull c w with
        | (some item, s, w) => (some item, s, w)
        | (none, s, w) =>
          match w.ask (c.partition.next s.partition) with
          | ((none, state), w) => (none, { s with partition := state, finished := true }, w)
          | ((some q, state), w) =>
            match { s with partition := state }.enter c q w with
            | (some e, s, w) => (some (.error e), s, w)
            | (none, s, w) => s.next c w := by
  rw [next]
  split
  · rfl
  · split
    · rfl
    · split
      · rfl
      · split
        · next hpull => rw [hpull]
        · next hpull =>
          rw [hpull]
          dsimp only
          split
          · next hask => rw [hask]
          · next hask =>
            rw [hask]
            dsimp only
            split
            · next henter => rw [henter]
            · next henter => rw [henter]

theorem finished_next (c : Collaborators σ κ χ) (s : ChunkStream κ χ) (w : World σ)
    (h : (s.next c w).1 = none) : (s.next c w).2.1.finished = true := by
  fun_induction next c s w with
  | case1 s w hs => exact hs
  | case2 s w hs hcancelled s₁ w₁ hinterrupt =>
    have hfst := interrupt_fst c "cancelled" s w
    rw [hinterrupt] at hfst
    exact congrArg finished hfst
  | case3 s w hs hcancelled hcap s₁ w₁ hclose =>
    have hfst := close_fst c s w
    rw [hclose] at hfst
    exact congrArg finished hfst
  | case4 => cases h
  | case5 => rfl
  | case6 => cases h
  | case7 s w hs hcancelled hcap s₁ w₁ hpull q state w₂ hask s₂ w₃ henter ih => exact ih h

end ChunkStream
end ShardQuery
