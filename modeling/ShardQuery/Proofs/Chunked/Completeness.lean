import ShardQuery.Proofs.Chunked.FinishedStream

/-!
# Complete results

A stream that has ended without a failure and is not marked as partial has either reached its cap or
yielded everything: the partition had no further chunk, and every chunk was read to its end.
-/

namespace ShardQuery

variable {σ κ χ : Type}

/-- When no chapter has a failure for which its chunk is given up, and the last one is settled, all
chunks are read out. -/
theorem Chapter.Story.readOut {i : Inquiry} {chapters : List Chapter} {f : Fate}
    (h : Story i chapters (some f)) (hf : f.isSettled = true)
    (hskips : chapters.flatten.countP Call.skips = 0) : ∀ t ∈ chapters, ReadOut i t := by
  intro t ht
  obtain ⟨g, htells, hg⟩ := h.settled hf t ht
  have hnone : t.countP Call.skips = 0 := by
    rw [List.countP_eq_zero] at hskips ⊢
    exact fun call hcall => hskips call (List.mem_flatten.2 ⟨t, ht, hcall⟩)
  rw [htells.countP_skips] at hnone
  refine htells.readOut ?_
  cases g with
  | completed => rfl
  | skipped => cases hnone
  | _ => cases hg

namespace StreamRun

variable (c : Collaborators σ κ χ) {i : Inquiry} {before : Metrics} {cap : Option Nat}

def PassFound (r : StreamRun (Recorded σ) κ χ) : Prop :=
  ∀ call ∈ callsBefore r.world.env.calls, call.isIdle = false

/-- Why a stream that was not closed is finished. -/
def Explained (cap : Option Nat) (s : ChunkStream κ χ) (r : StreamRun (Recorded σ) κ χ) : Prop :=
  s.interrupted = true ∨ cap = some r.entries.length ∨ r.IsExhausted ∨
    (∃ e, some (.error e) ∈ r.returned) ∨ ¬ r.PassFound

private theorem Explained.congr {s : ChunkStream κ χ} {r after : StreamRun (Recorded σ) κ χ}
    (h : Explained cap s r) (hentries : after.entries = r.entries)
    (hcalls : after.world.env.calls = r.world.env.calls) (hreturned : r.returned ⊆ after.returned) :
    Explained cap s after := by
  unfold Explained IsExhausted PassFound at h ⊢
  rw [hentries, hcalls]
  exact h.imp_right (Or.imp_right (Or.imp_right (Or.imp_left fun ⟨e, he⟩ => ⟨e, hreturned he⟩)))

private theorem explained_step {r : StreamRun (Recorded σ) κ χ}
    (h : ∀ s, r.live = some s → (∃ fate, Standing i before cap r.entries fate s r.world) ∧
      (s.finished = true → Explained cap s r))
    {step : StreamStep} (hstep : step = .next ∨ step = .cancel) :
    let after := r.step c.recorded step
    ∀ s, after.live = some s → (∃ fate, Standing i before cap after.entries fate s after.world) ∧
      (s.finished = true → Explained cap s after) := by
  have hentries := entries_step c.recorded r step
  obtain ⟨live, world, returned⟩ := r
  cases live with
  | none =>
    intro after s hs
    obtain rfl | rfl := hstep <;> cases hs
  | some s =>
    obtain ⟨⟨fate, hs⟩, hexplained⟩ := h s rfl
    obtain rfl | rfl := hstep
    · obtain ⟨⟨fate', hafter⟩, hover⟩ := hs.next c
      intro after s' hs'
      obtain rfl : (s.next c.recorded world).2.1 = s' := Option.some.inj hs'
      refine ⟨⟨fate', hentries ▸ hafter⟩, fun hfinished => ?_⟩
      cases hbefore : s.finished with
      | true =>
        have hsame := ChunkStream.next_of_finished c.recorded hbefore world
        rw [hsame]
        have hnone :
            ((StreamStep.next.returns c.recorded (some s, world)).bind entry?).toList = [] := by
          dsimp only [StreamStep.returns]
          rw [hsame]
          rfl
        refine (hexplained hbefore).congr ?_ (congrArg (fun r => r.2.2.env.calls) hsame)
          (List.subset_append_left _ _)
        rw [hentries, hnone, List.append_nil]
      | false =>
        rcases hover hbefore hfinished with hinterrupted | hcap | hlast | ⟨e, he⟩
        · exact .inl hinterrupted
        · exact .inr (.inl (hentries ▸ hcap))
        · exact .inr (.inr (.inl hlast))
        · have hmem : some (.error e) ∈ returned ++ [(s.next c.recorded world).1] :=
            List.mem_append_right _ (List.mem_singleton.2 he.symm)
          exact .inr (.inr (.inr (.inl ⟨e, hmem⟩)))
    · have hsame : (StreamRun.step c.recorded ⟨some s, world, returned⟩ .cancel).entries = _ :=
        hentries.trans (List.append_nil _)
      rintro after s' ⟨⟩
      refine ⟨⟨fate, ?_⟩, fun hfinished => ?_⟩
      · dsimp only [after]
        rw [hsame]
        exact hs.relabel _ _ _
      · exact (hexplained hfinished).congr hsame rfl (List.subset_append_left _ _)

private theorem explained_start (state : χ) (limit : Option Nat) (q : QuerySettings)
    (id : QueryId) (authorizations : Authorizations) (w : World σ) :
    let r := start c.recorded state limit q id authorizations w.recorded
    ∀ s, r.live = some s →
      (∃ fate, Standing (.ofQuery q id authorizations) w.metrics (Limit.inEffect limit q)
        r.entries fate s r.world) ∧
      (s.finished = true → Explained (Limit.inEffect limit q) s r) := by
  have hbegun := Begun.start c state limit q id authorizations (.recorded w)
  unfold start
  generalize ChunkStream.start c.recorded state limit q id authorizations w.recorded = begun
    at hbegun ⊢
  cases hbegun with
  | failed n hmetrics hstory hlast =>
    intro r s hs
    cases hs
  | idle hfinished hs hpass =>
    rintro r s ⟨⟩
    refine ⟨⟨none, hs⟩, fun _ => .inr (.inr (.inr (.inr fun hfound => ?_)))⟩
    obtain ⟨call, hmem, hidle⟩ := hpass
    cases (hfound call hmem).symm.trans hidle
  | running hunfinished hs =>
    rintro r s ⟨⟩
    refine ⟨⟨_, hs⟩, fun hfinished => ?_⟩
    cases hunfinished.symm.trans hfinished

/-- Any collaborators, and any calls of `next` and cancellations. When the query has started, its
pass over the base query found ranges if it was made, the stream has yielded nothing at last and no
failure ever, and it is not marked as partial, then the cap is reached, or what was returned are the
entries of all chunks in order, each of which was read to its end, and there was no further one. -/
theorem run_complete (c : Collaborators σ κ χ) (state : χ) (limit : Option Nat)
    (q : QuerySettings) (id : QueryId) (authorizations : Authorizations) (w : World σ)
    (steps : List StreamStep) (hsteps : ∀ step ∈ steps, step = .next ∨ step = .cancel)
    {s : ChunkStream κ χ}
    (hlive : (run c.recorded state limit q id authorizations w.recorded steps).live = some s)
    (hpass : (run c.recorded state limit q id authorizations w.recorded steps).PassFound)
    (hnone : none ∈ (run c.recorded state limit q id authorizations w.recorded steps).returned)
    (herror : ∀ e,
      some (.error e) ∉ (run c.recorded state limit q id authorizations w.recorded steps).returned)
    (hpartial : s.isPartial = false) :
    let r := run c.recorded state limit q id authorizations w.recorded steps
    run c state limit q id authorizations w steps = r.unrecorded ∧
      (Limit.inEffect limit q = some r.entries.length ∨
        r.IsExhausted ∧ r.entries = r.chapters.flatMap Chapter.entries ∧
          ∀ t ∈ r.chapters, Chapter.ReadOut (.ofQuery q id authorizations) t) := by
  intro r
  refine ⟨run_unrecorded c state limit q id authorizations w steps, ?_⟩
  obtain ⟨⟨fate, hs⟩, hexplained⟩ := run_induct
    (P := fun r => ∀ s, r.live = some s →
      (∃ fate, Standing (.ofQuery q id authorizations) w.metrics (Limit.inEffect limit q)
        r.entries fate s r.world) ∧
      (s.finished = true → Explained (Limit.inEffect limit q) s r))
    c.recorded state limit q id authorizations w.recorded steps
    (explained_start c state limit q id authorizations w)
    (fun r step hmem hr => explained_step c hr (hsteps step hmem)) s hlive
  have hfinished : s.finished = true :=
    isOver_run c.recorded state limit q id authorizations w.recorded steps
      (.inl ⟨none, hnone, rfl⟩) s hlive
  obtain ⟨hskipped, hinterrupted⟩ : s.skipped = 0 ∧ s.interrupted = false := by
    simpa [ChunkStream.isPartial] using hpartial
  rcases hexplained hfinished with hpart | hcap | hlast | ⟨e, he⟩ | hpart
  · cases hinterrupted.symm.trans hpart
  · exact .inl hcap
  · obtain ⟨hstory, -, hyielded, hskips, hexhausted⟩ := hs.ledger
    obtain ⟨f, rfl, hf⟩ := hexhausted hlast
    have hsettled := hf.resolve_left (Bool.eq_false_iff.1 (hs.reads.isWaiting_eq_false rfl))
    refine .inr ⟨hlast, ?_, hstory.readOut hsettled (hskips.symm.trans hskipped)⟩
    rw [hyielded, List.filterMap_flatten]
    rfl
  · exact absurd he (herror e)
  · exact absurd hpass hpart

def splitScan : Rehearsal where
  store := (∅ : MemoryStore).insert "shard"
    ((((∅ : Table).insert ⟨"a", "x", ""⟩ "1").insert ⟨"b", "x", ""⟩ "2").insert ⟨"b", "y", ""⟩ "3")
  observation := some { limit := some 1 }

theorem run_complete_split :
    let c := splitScan.collaborators
    let chunks : List QuerySettings := [⟨1, "first", "a", ∅⟩, ⟨2, "second", "b", ∅⟩]
    let q : QuerySettings := ⟨3, "whole", "a", ∅⟩
    let w : World Rehearsal.Notes := { env := [] }
    let r := run c.recorded chunks (some 9) q 4 ∅ w.recorded [.next, .next, .next, .next, .cancel]
    r.entries = [⟨⟨"a", "x", ""⟩, "1"⟩, ⟨⟨"b", "x", ""⟩, "2"⟩, ⟨⟨"b", "y", ""⟩, "3"⟩] ∧
      r.chapters.length = 2 ∧ r.entries = r.chapters.flatMap Chapter.entries ∧
      ∀ t ∈ r.chapters, Chapter.ReadOut (.ofQuery q 4 ∅) t := by
  intro c chunks q w r
  have hreturned : r.returned.map (Option.map Except.toOption) =
      [some (some ⟨⟨"a", "x", ""⟩, "1"⟩), some (some ⟨⟨"b", "x", ""⟩, "2"⟩),
       some (some ⟨⟨"b", "y", ""⟩, "3"⟩), none] := by
    decide +kernel
  have hentries : r.entries =
      [⟨⟨"a", "x", ""⟩, "1"⟩, ⟨⟨"b", "x", ""⟩, "2"⟩, ⟨⟨"b", "y", ""⟩, "3"⟩] := by
    decide +kernel
  have hpartial : r.live.map ChunkStream.isPartial = some false := by decide +kernel
  have hpass : r.PassFound := by
    unfold PassFound
    decide +kernel
  have hnone : none ∈ r.returned := by
    have hmem : none ∈ r.returned.map (Option.map Except.toOption) := by
      rw [hreturned]
      decide
    obtain ⟨item, hitem, hnone⟩ := List.mem_map.1 hmem
    rwa [Option.map_eq_none_iff.1 hnone] at hitem
  have herror : ∀ e, some (.error e) ∉ r.returned := by
    intro e he
    have hmem : some none ∈ r.returned.map (Option.map Except.toOption) :=
      List.mem_map.2 ⟨_, he, rfl⟩
    rw [hreturned] at hmem
    exact absurd hmem (by decide)
  obtain ⟨s, hlive, hwhole⟩ := Option.map_eq_some_iff.1 hpartial
  obtain ⟨-, hcap | ⟨-, hall, hread⟩⟩ := run_complete c chunks (some 9) q 4 ∅ w
    [.next, .next, .next, .next, .cancel] (by decide) hlive hpass hnone herror hwhole
  · have hother : Limit.inEffect (some 9) q ≠ some r.entries.length := by decide +kernel
    exact absurd hcap hother
  · exact ⟨hentries, by decide +kernel, hall, hread⟩

end StreamRun
end ShardQuery
