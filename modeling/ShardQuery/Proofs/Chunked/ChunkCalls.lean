import ShardQuery.Proofs.Chunked.Chapters

/-!
# The calls for one chunk

Which calls a session makes, which calls it takes to start a chunk and to leave it, and what they
change in the metrics. Each such piece of a chapter is a turn of its fate.
-/

namespace ShardQuery

variable {σ κ χ : Type}

namespace Session

/-- A session that can be pulled from and counts in the metrics. -/
structure InUse (s : Session κ) : Prop where
  isOpen : s.isOpen = true
  counted : s.counted = true

theorem next_recorded (store : ScanStore σ κ) {s : Session κ} (h : s.InUse)
    (w : World (Recorded σ)) :
    let r := s.next store.recorded w
    r.2.1.InUse ∧ r.2.2.env.calls = w.env.calls ++ [.pulled r.1] ∧ r.2.2.metrics = w.metrics := by
  obtain ⟨cursor, hcursor⟩ := Option.isSome_iff_exists.1 h.isOpen
  unfold next
  rw [hcursor]
  exact ⟨⟨rfl, h.counted⟩, rfl, rfl⟩

theorem close_recorded (store : ScanStore σ κ) {s : Session κ} (h : s.InUse)
    (w : World (Recorded σ)) :
    let r := s.close store.recorded w
    r.2.env.calls = w.env.calls ++ [.released] ∧ r.2.metrics = w.metrics.sessionClosed := by
  obtain ⟨cursor, hcursor⟩ := Option.isSome_iff_exists.1 h.isOpen
  unfold close
  rw [hcursor]
  dsimp only [reportClosed, tally]
  rw [if_pos h.counted]
  exact ⟨rfl, rfl⟩

theorem start_recorded (store : ScanStore σ κ) {plan : Plan} (h : plan.hasWork = true)
    (w : World (Recorded σ)) :
    let r := start store.recorded plan.table plan.authorizations plan.ranges true w
    r.2.env.calls = w.env.calls ++
        [.scanned plan.table plan.authorizations plan.ranges (failureOf r.1)] ∧
      r.2.metrics = (if (failureOf r.1).isNone then w.metrics.sessionOpened else w.metrics) ∧
      ∀ s, r.1 = .ok s → s.InUse := by
  have hranges : ¬ plan.ranges.isEmpty = true := by simpa [Plan.hasWork] using h
  unfold start
  rw [if_neg hranges]
  dsimp only [World.ask, ScanStore.recorded, Reply.recorded]
  cases (store.openScan plan.table plan.authorizations plan.ranges w.env.env).value with
  | error e => exact ⟨rfl, rfl, fun s hs => by cases hs⟩
  | ok cursor =>
    refine ⟨rfl, rfl, ?_⟩
    rintro s ⟨⟩
    exact ⟨rfl, rfl⟩

end Session

namespace Fate

/-- The chunk once its stream is closed: one that is being read is abandoned. -/
def leave : Fate → Fate
  | reading => abandoned
  | f => f

namespace Turn

variable {i : Inquiry} {chunk : Option QuerySettings} {f g : Fate} {later : List Call}

theorem filterMap_entry? (h : Turn i f later g) (hfate : f ≠ .reading ∨ g ≠ .reading) :
    later.filterMap Call.entry? = [] := by
  cases h <;> first | rfl | simp at hfate

theorem tallied_waiting (h : Turn i (.waiting chunk) later g) (hreading : g ≠ .reading)
    (hcompleted : g ≠ .completed) (m : Metrics) :
    m.tallied later = if g = .skipped then m.chunkSkipped else m := by
  cases h with
  | idle chunk hplan => exact absurd rfl hcompleted
  | opened chunk hplan => exact absurd rfl hreading
  | unplanned chunk e =>
    cases he : e.isChunkLocal <;>
      simp [Metrics.tallied, Metrics.chunkSkipped, List.filterMap_cons, he]
  | unopened chunk hplan e =>
    cases he : e.isChunkLocal <;>
      simp [Metrics.tallied, Metrics.chunkSkipped, List.filterMap_cons, he, hplan]

end Turn
end Fate

theorem Metrics.tallied_broken (m : Metrics) (e : ScanError) :
    m.tallied [.pulled (some (.error e)), .released] =
      if e.isChunkLocal then m.sessionClosed.chunkSkipped else m.sessionClosed := by
  cases he : e.isChunkLocal <;>
    simp [tallied, chunkSkipped, sessionClosed, List.filterMap_cons, he]

inductive Reads : Option (Session κ) → Option Fate → Prop where
  | reading {session : Session κ} (h : session.InUse) : Reads (some session) (some .reading)
  | idle {fate : Option Fate} (hreading : fate ≠ some .reading)
      (hwaiting : ∀ f, fate = some f → f.isWaiting = false) : Reads none fate

namespace Reads

variable {session : Option (Session κ)} {fate : Option Fate}

theorem isWaiting_eq_false (h : Reads session fate) {f : Fate} (hf : fate = some f) :
    f.isWaiting = false := by
  cases h with
  | reading h =>
    cases hf
    rfl
  | idle hreading hwaiting => exact hwaiting f hf

theorem isOpen_iff (h : Reads session fate) :
    session.any Session.isOpen = true ↔ fate = some .reading := by
  cases h with
  | reading h => simpa using h.isOpen
  | idle hreading hwaiting => simpa using hreading

end Reads

namespace ChunkStream

variable (c : Collaborators σ κ χ) {i : Inquiry} {chunk : Option QuerySettings}

theorem closeSession_recorded {s : ChunkStream κ χ} {session : Session κ}
    (hs : s.session = some session) (h : session.InUse) (w : World (Recorded σ)) :
    let r := s.closeSession c.recorded w
    r.2.env.calls = w.env.calls ++ [.released] ∧ r.2.metrics = w.metrics.sessionClosed := by
  unfold closeSession
  rw [hs]
  exact session.close_recorded c.store h w

theorem closeSession_of_none {s : ChunkStream κ χ} (hs : s.session = none) (w : World σ) :
    s.closeSession c w = (s, w) := by
  unfold closeSession
  rw [hs]

theorem closeSession_snd_congr {s t : ChunkStream κ χ} (h : s.session = t.session) (w : World σ) :
    (s.closeSession c w).2 = (t.closeSession c w).2 := by
  unfold closeSession
  rw [h]
  cases t.session <;> rfl

/-- Ending a stream for a failure closes its session and only writes to the log besides. -/
theorem fail_snd (e : ScanError) (s : ChunkStream κ χ) (w : World σ) :
    ∃ log, (s.fail c e w).2 = { (s.closeSession c w).2 with log } := by
  unfold fail
  split
  · dsimp only [interrupt, close]
    rw [closeSession_snd_congr c (s := { s with interrupted := true }) (t := s) rfl]
    exact ⟨_, rfl⟩
  · exact ⟨_, rfl⟩

private theorem openChunk_cases {q : QuerySettings} (hq : i.query chunk = q.forChunk)
    {s : ChunkStream κ χ} (hs : i.authorizations = s.authorizations) (w : World (Recorded σ)) :
    let r := s.openChunk c.recorded q w
    (∃ e later, r.1 = .error e ∧ Fate.Turn i (.waiting chunk) later (.ofError e) ∧
        r.2.env.calls = w.env.calls ++ later ∧ r.2.metrics = w.metrics) ∨
      (∃ plan later, r.1 = .ok (plan, none) ∧ plan.hasWork = false ∧
        Fate.Turn i (.waiting chunk) later .completed ∧ r.2.env.calls = w.env.calls ++ later ∧
        w.metrics.tallied later = r.2.metrics.chunkStarted.chunkCompleted) ∨
      ∃ plan session later, r.1 = .ok (plan, some session) ∧ plan.hasWork = true ∧
        session.InUse ∧ Fate.Turn i (.waiting chunk) later .reading ∧
        r.2.env.calls = w.env.calls ++ later ∧
        w.metrics.tallied later = r.2.metrics.chunkStarted := by
  unfold openChunk
  generalize hask : w.ask (c.recorded.plan q.forChunk s.authorizations) = reply
  obtain ⟨answer, w₁⟩ := reply
  have hcalls : w₁.env.calls =
      w.env.calls ++ [.planned (i.query chunk) i.authorizations answer] := by
    cases hask
    rw [hq, hs]
    rfl
  have hmetrics : w₁.metrics = w.metrics := by
    cases hask
    rfl
  cases answer with
  | error e => exact .inl ⟨e, _, rfl, .unplanned chunk e, hcalls, hmetrics⟩
  | ok plan =>
    dsimp only
    cases hplan : plan.hasWork with
    | false =>
      rw [if_neg Bool.false_ne_true]
      refine .inr (.inl ⟨plan, _, rfl, hplan, .idle chunk hplan, hcalls, ?_⟩)
      rw [hmetrics]
      simp [Metrics.tallied, Metrics.chunkStarted, Metrics.chunkCompleted, hplan,
        List.filterMap_cons]
    | true =>
      rw [if_pos rfl, Collaborators.store_recorded]
      obtain ⟨hscan, hopened, hinUse⟩ := Session.start_recorded c.store hplan w₁
      rw [hcalls, List.append_assoc] at hscan
      rw [hmetrics] at hopened
      generalize Session.start c.store.recorded plan.table plan.authorizations plan.ranges true w₁ =
        reply at hscan hopened hinUse ⊢
      obtain ⟨answer, w₂⟩ := reply
      cases answer with
      | error e => exact .inl ⟨e, _, rfl, .unopened chunk hplan e, hscan, hopened⟩
      | ok session =>
        refine .inr (.inr ⟨plan, session, _, rfl, hplan, hinUse session rfl, .opened chunk hplan,
          hscan, ?_⟩)
        rw [hopened]
        simp [Metrics.tallied, Metrics.chunkStarted, Metrics.sessionOpened, failureOf, hplan,
          List.filterMap_cons]

private theorem startChunk_cases {q : QuerySettings} (hq : i.query chunk = q.forChunk)
    {s : ChunkStream κ χ} (hs : i.authorizations = s.authorizations) (w : World (Recorded σ)) :
    let r := s.startChunk c.recorded q w
    (∃ e later, r.1 = .error e ∧ r.2.1 = { s with chunk := s.chunk + 1, chunkEntries := 0 } ∧
        Fate.Turn i (.waiting chunk) later (.ofError e) ∧ r.2.2.env.calls = w.env.calls ++ later ∧
        r.2.2.metrics = w.metrics) ∨
      ∃ plan session later f, r.1 = .ok plan ∧
        r.2.1 = { s with session, chunk := s.chunk + 1, chunkEntries := 0 } ∧
        Fate.Turn i (.waiting chunk) later f ∧ r.2.2.env.calls = w.env.calls ++ later ∧
        r.2.2.metrics = w.metrics.tallied later ∧ Reads session (some f) ∧
        (f = .reading ∨ f = .completed) := by
  dsimp only [startChunk]
  obtain ⟨e, later, hanswer, hturn, hcalls, hmetrics⟩ |
      ⟨plan, later, hanswer, hplan, hturn, hcalls, hmetrics⟩ |
      ⟨plan, session, later, hanswer, hplan, hinUse, hturn, hcalls, hmetrics⟩ :=
    openChunk_cases c hq (s := { s with chunk := s.chunk + 1, chunkEntries := 0 }) hs w
  all_goals
    generalize openChunk c.recorded q { s with chunk := s.chunk + 1, chunkEntries := 0 } w =
      reply at hanswer hcalls hmetrics ⊢
    obtain ⟨answer, w₁⟩ := reply
    cases hanswer
  · exact .inl ⟨e, later, rfl, rfl, hturn, hcalls, hmetrics⟩
  · dsimp only
    rw [if_neg (Bool.eq_false_iff.1 hplan)]
    exact .inr ⟨plan, none, later, .completed, rfl, rfl, hturn, hcalls, hmetrics.symm,
      .idle (by simp) (by simp [Fate.isWaiting]), .inr rfl⟩
  · dsimp only
    rw [if_pos hplan]
    exact .inr ⟨plan, some session, later, .reading, rfl, rfl, hturn, hcalls, hmetrics.symm,
      .reading hinUse, .inl rfl⟩

section

variable {c} {q : QuerySettings} {s s' : ChunkStream κ χ} {w w' : World (Recorded σ)}

theorem startChunk_ok {plan : Plan} (hq : i.query chunk = q.forChunk)
    (hs : i.authorizations = s.authorizations)
    (h : s.startChunk c.recorded q w = (.ok plan, s', w')) :
    ∃ session later f, s' = { s with session, chunk := s.chunk + 1, chunkEntries := 0 } ∧
      Fate.Turn i (.waiting chunk) later f ∧ w'.env.calls = w.env.calls ++ later ∧
      w'.metrics = w.metrics.tallied later ∧ Reads session (some f) ∧
      (f = .reading ∨ f = .completed) := by
  have hcases := startChunk_cases c hq hs w
  rw [h] at hcases
  obtain ⟨e, later, hanswer, -⟩ | ⟨plan', session, later, f, -, hstarted⟩ := hcases
  · cases hanswer
  · exact ⟨session, later, f, hstarted⟩

theorem startChunk_error {e : ScanError} (hq : i.query chunk = q.forChunk)
    (hs : i.authorizations = s.authorizations)
    (h : s.startChunk c.recorded q w = (.error e, s', w')) :
    ∃ later, s' = { s with chunk := s.chunk + 1, chunkEntries := 0 } ∧
      Fate.Turn i (.waiting chunk) later (.ofError e) ∧ w'.env.calls = w.env.calls ++ later ∧
      w'.metrics = w.metrics := by
  have hcases := startChunk_cases c hq hs w
  rw [h] at hcases
  obtain ⟨e', later, hanswer, hfailed⟩ | ⟨plan, session, later, f, hanswer, -⟩ := hcases
  · cases hanswer
    exact ⟨later, hfailed⟩
  · cases hanswer

end

theorem firstChunk_recorded (i : Inquiry) (state : χ) (w : World (Recorded σ)) :
    ∃ chunk, let r := firstChunk c.recorded i.base state w
      i.query chunk = r.1.forChunk ∧ r.2.2.env.calls = w.env.calls ++ [.asked chunk] ∧
        r.2.2.metrics = w.metrics := by
  refine ⟨(c.partition.next state w.env.env).value.1, ?_⟩
  unfold firstChunk
  dsimp only [World.ask, Collaborators.recorded, Partition.recorded, Reply.recorded]
  rcases (c.partition.next state w.env.env).value with ⟨_ | _, _⟩ <;> exact ⟨rfl, rfl, rfl⟩

end ChunkStream

namespace Ledger

variable {i : Inquiry} {before : Metrics} {yielded : List Entry} {skipped : Nat}
  {fate : Option Fate}

theorem closeSession (c : Collaborators σ κ χ) {s : ChunkStream κ χ} {w : World (Recorded σ)}
    (h : Ledger i before w.env.calls w.metrics yielded skipped fate)
    (hreads : Reads s.session fate) :
    let r := s.closeSession c.recorded w
    Ledger i before r.2.env.calls r.2.metrics yielded skipped (fate.map Fate.leave) := by
  generalize hsession : s.session = session at hreads
  cases hreads with
  | idle hreading hwaiting =>
    have hleave : fate.map Fate.leave = fate := by
      rcases fate with _ | _ | _ | _ | _ | _ | _ <;> first | rfl | exact absurd rfl hreading
    unfold ChunkStream.closeSession
    rw [hsession, hleave]
    exact h
  | reading hinUse =>
    obtain ⟨hcalls, hmetrics⟩ := ChunkStream.closeSession_recorded c hsession hinUse w
    exact h.turn .left hcalls hmetrics (List.append_nil _).symm rfl

theorem giveUp {calls later calls' : List Call} {m m' : Metrics} {f : Fate} {e : ScanError}
    (h : Ledger i before calls m yielded skipped (some f))
    (hturn : Fate.Turn i f later (.ofError e)) (hcalls : calls' = calls ++ later)
    (hm : m' = m.tallied later) :
    Ledger i before calls' m' yielded (if e.isChunkLocal then skipped + 1 else skipped)
      (some (.ofError e)) := by
  refine h.turn hturn hcalls hm ?_ ?_
  · rw [hturn.filterMap_entry? (.inr Fate.ofError_ne_reading), List.append_nil]
  · rw [hturn.countP_skips]
    simp only [Fate.ofError_eq_skipped]
    split <;> rfl

end Ledger

end ShardQuery
