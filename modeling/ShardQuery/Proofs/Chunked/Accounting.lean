import ShardQuery.Proofs.Chunked.KeptBooks

/-!
# The accounts of a run

The counters of a registry that was fresh when a query started agree with what the run returned,
with its stream, and with one another, after any steps and for any collaborators.
-/

namespace ShardQuery

variable {σ κ χ : Type}

namespace Chapter

def isCompleted (chapter : Chapter) : Bool := chapter.any Call.completes

def isSkipped (chapter : Chapter) : Bool := chapter.any Call.skips

private theorem countP_flatten {p : Call → Bool} {chapters : List Chapter}
    (h : ∀ t ∈ chapters, t.countP p ≤ 1) :
    chapters.flatten.countP p = chapters.countP fun t => t.any p := by
  induction chapters with
  | nil => rfl
  | cons t chapters ih =>
    have hrest := ih fun t ht => h t (List.mem_cons_of_mem _ ht)
    have hfirst : t.countP p = if t.any p then 1 else 0 := by
      have hle := h t List.mem_cons_self
      have hpos : 0 < t.countP p ↔ t.any p = true := by simp [List.countP_pos_iff]
      split
      · next hany =>
        have := hpos.2 hany
        omega
      · next hany =>
        have := mt hpos.1 hany
        omega
    rw [List.flatten_cons, List.countP_append, List.countP_cons, hrest, hfirst, Nat.add_comm]

end Chapter

namespace StreamRun

def hasOpenSession (r : StreamRun σ κ χ) : Bool :=
  (r.live.bind ChunkStream.session).any Session.isOpen

/-- What the metrics of a run say that begins with none. No chunk is among both those completed and
those skipped; when the query did not start, there are no such chunks. -/
structure Accounted (started : Bool) (r : StreamRun (Recorded σ) κ χ) : Prop where
  entries : r.world.metrics.entriesReturned = r.entries.length
  sessions : r.world.metrics.sessionsOpened =
    r.world.metrics.sessionsClosed + if r.hasOpenSession then 1 else 0
  skipped : ∀ s, r.live = some s → r.world.metrics.chunksSkipped = s.skipped
  completed_le : r.world.metrics.chunksCompleted ≤ r.world.metrics.chunksStarted
  started_le : r.world.metrics.chunksStarted ≤ r.chapters.length
  settled_le :
    r.world.metrics.chunksCompleted + r.world.metrics.chunksSkipped ≤ r.chapters.length
  settled_eq : r.IsExhausted →
    r.world.metrics.chunksCompleted + r.world.metrics.chunksSkipped = r.chapters.length
  completed_eq : r.world.metrics.chunksCompleted =
    if started then r.chapters.countP Chapter.isCompleted else 0
  skipped_eq : r.world.metrics.chunksSkipped =
    if started then r.chapters.countP Chapter.isSkipped else 0
  disjoint : ∀ t ∈ r.chapters, ¬ (t.isCompleted = true ∧ t.isSkipped = true)

/-- A chapter that counts as completed and as skipped would have two calls that count. -/
private theorem not_completed_skipped {i : Inquiry} {chapters : List Chapter}
    {fate : Option Fate} (h : Chapter.Story i chapters fate) :
    ∀ t ∈ chapters, ¬ (t.isCompleted = true ∧ t.isSkipped = true) := by
  rintro t ht ⟨hcompleted, hskipped⟩
  obtain ⟨f, htells⟩ := h.exists_tells t ht
  have hcounts := (Chapter.counts_le htells).2.2
  have hone : 0 < t.countP Call.completes := by
    simpa [Chapter.isCompleted, List.countP_pos_iff] using hcompleted
  have hother : 0 < t.countP Call.skips := by
    simpa [Chapter.isSkipped, List.countP_pos_iff] using hskipped
  omega

private theorem Unstarted.accounted {i : Inquiry} {r : StreamRun (Recorded σ) κ χ}
    (h : Unstarted i {} r) : r.Accounted false := by
  obtain ⟨n, hmetrics⟩ := h.metrics
  obtain ⟨fate, hstory⟩ := h.story
  refine ⟨?_, ?_, ?_, ?_, ?_, ?_, ?_, ?_, ?_, not_completed_skipped hstory⟩
  · rw [hmetrics, h.entries_eq]
    rfl
  · rw [hmetrics, hasOpenSession, h.live_eq]
    rfl
  · intro s hlive
    cases h.live_eq.symm.trans hlive
  · rw [hmetrics]
    exact Nat.le_refl 0
  · rw [hmetrics]
    exact Nat.zero_le _
  · rw [hmetrics]
    exact Nat.zero_le _
  · exact fun hexhausted => absurd hexhausted h.last
  · rw [hmetrics]
    rfl
  · rw [hmetrics]
    rfl

private theorem Kept.accounted {i : Inquiry} {cap : Option Nat}
    {r : StreamRun (Recorded σ) κ χ} (h : Kept i {} cap r) : r.Accounted true := by
  obtain ⟨s, fate, hs, hlive⟩ := h
  obtain ⟨hstory, ⟨n, hmetrics⟩, hyielded, hskipped, hexhausted⟩ := hs.ledger
  have hstarted : r.world.metrics.chunksStarted = r.chapters.flatten.countP Call.starts := by
    rw [hmetrics]
    exact Nat.zero_add _
  have hcompleted : r.world.metrics.chunksCompleted = r.chapters.flatten.countP Call.completes := by
    rw [hmetrics]
    exact Nat.zero_add _
  have hskips : r.world.metrics.chunksSkipped = r.chapters.flatten.countP Call.skips := by
    rw [hmetrics]
    exact Nat.zero_add _
  have hreading : r.hasOpenSession = true ↔ fate = some .reading := by
    rw [← hs.reads.isOpen_iff, hasOpenSession]
    obtain hlive | ⟨hlive, hfinished⟩ := hlive
    · rw [hlive]
      rfl
    · rw [hlive, hs.session_eq hfinished]
      rfl
  obtain ⟨hcompleted_le, hstarted_le, hsettled_le⟩ := hstory.counts_le_length
  have htells := hstory.exists_tells
  refine ⟨?_, ?_, ?_, ?_, ?_, ?_, ?_, ?_, ?_, not_completed_skipped hstory⟩
  · rw [hmetrics, hyielded]
    exact Nat.zero_add _
  · have hopens := hstory.countP_opens
    rw [hmetrics]
    simp only [Metrics.tallied, Metrics.withSessions, hopens, hreading]
    omega
  · intro t ht
    obtain hlive | ⟨hlive, -⟩ := hlive
    · cases hlive.symm.trans ht
      rw [hskips]
      exact hskipped.symm
    · cases hlive.symm.trans ht
  · rwa [hcompleted, hstarted]
  · rwa [hstarted]
  · rwa [hcompleted, hskips]
  · intro hlast
    obtain ⟨f, rfl, hf⟩ := hexhausted hlast
    rw [hcompleted, hskips]
    have hwaiting := Bool.eq_false_iff.1 (hs.reads.isWaiting_eq_false rfl)
    exact hstory.counts_eq_length (hf.resolve_left hwaiting)
  · rw [hcompleted, if_pos rfl]
    refine Chapter.countP_flatten fun t ht => ?_
    obtain ⟨f, htold⟩ := htells t ht
    have hcounts := (Chapter.counts_le htold).2.2
    omega
  · rw [hskips, if_pos rfl]
    refine Chapter.countP_flatten fun t ht => ?_
    obtain ⟨f, htold⟩ := htells t ht
    have hcounts := (Chapter.counts_le htold).2.2
    omega

/-- Any collaborators, any query and any steps, over a registry that counts nothing yet. The calls
of the run can be recorded, and its metrics agree with the record. -/
theorem run_accounted (c : Collaborators σ κ χ) (state : χ) (limit : Option Nat)
    (q : QuerySettings) (id : QueryId) (authorizations : Authorizations) (env : σ) (log : Log)
    (now : Nat) (cancelled : Bool) (steps : List StreamStep) :
    let w : World σ := { env, log, now, cancelled }
    let begun := start c.recorded state limit q id authorizations w.recorded
    let r := run c.recorded state limit q id authorizations w.recorded steps
    run c state limit q id authorizations w steps = r.unrecorded ∧
      r.Accounted begun.live.isSome := by
  intro w begun r
  refine ⟨run_unrecorded c state limit q id authorizations w steps, ?_⟩
  obtain ⟨hlive, hr⟩ | ⟨hlive, hr⟩ := run_kept c state limit q id authorizations w steps
  · rw [show begun.live.isSome = false from Option.isSome_eq_false_iff.2 (by rw [hlive]; rfl)]
    exact hr.accounted
  · rw [show begun.live.isSome = true from hlive]
    exact hr.accounted

end StreamRun
end ShardQuery
