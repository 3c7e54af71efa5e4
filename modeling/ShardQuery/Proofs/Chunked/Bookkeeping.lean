import ShardQuery.Proofs.Chunked.ChunkCalls

/-!
# The books of a stream

The metrics of a stream, its entries and its number of skipped chunks are those of the record of its
calls. A call of `next` keeps the books in this order, and so does closing the stream.
-/

namespace ShardQuery

variable {σ κ χ : Type}

/-- What a stream that is kept in the books has done so far, and how much it may still yield. -/
structure Standing (i : Inquiry) (before : Metrics) (cap : Option Nat) (yielded : List Entry)
    (fate : Option Fate) (s : ChunkStream κ χ) (w : World (Recorded σ)) : Prop where
  ledger : Ledger i before w.env.calls w.metrics yielded s.skipped fate
  authorizations_eq : i.authorizations = s.authorizations
  reads : Reads s.session fate
  settled : s.finished = false → s.session = none → ∃ f, fate = some f ∧ f.isSettled = true
  remaining_eq : s.finished = false → s.remaining = cap.map (· - yielded.length)
  le_cap : ∀ n, cap = some n → yielded.length ≤ n
  session_eq : s.finished = true → s.session = none
  finished_of : s.interrupted = true → s.finished = true

structure ChunkStream.Underway (i : Inquiry) (cap : Option Nat) (yielded : List Entry)
    (s : ChunkStream κ χ) : Prop where
  authorizations_eq : i.authorizations = s.authorizations
  finished_eq : s.finished = false
  interrupted_eq : s.interrupted = false
  remaining_eq : s.remaining = cap.map (· - yielded.length)
  le_cap : ∀ n, cap = some n → yielded.length ≤ n

variable {i : Inquiry} {before : Metrics} {cap : Option Nat} {yielded : List Entry}
  {fate : Option Fate}

private theorem ChunkStream.Underway.congr {s t : ChunkStream κ χ} (h : s.Underway i cap yielded)
    (hauthorizations : t.authorizations = s.authorizations) (hfinished : t.finished = s.finished)
    (hinterrupted : t.interrupted = s.interrupted) (hremaining : t.remaining = s.remaining) :
    t.Underway i cap yielded where
  authorizations_eq := h.authorizations_eq.trans hauthorizations.symm
  finished_eq := hfinished.trans h.finished_eq
  interrupted_eq := hinterrupted.trans h.interrupted_eq
  remaining_eq := hremaining.trans h.remaining_eq
  le_cap := h.le_cap

namespace Standing

variable (c : Collaborators σ κ χ) {s : ChunkStream κ χ} {w : World (Recorded σ)}

private theorem atEnd (hledger : Ledger i before w.env.calls w.metrics yielded s.skipped fate)
    (hauthorizations : i.authorizations = s.authorizations) (hreads : Reads s.session fate)
    (hsession : s.session = none) (hfinished : s.finished = true)
    (hcap : ∀ n, cap = some n → yielded.length ≤ n) : Standing i before cap yielded fate s w where
  ledger := hledger
  authorizations_eq := hauthorizations
  reads := hreads
  settled h := by cases hfinished.symm.trans h
  remaining_eq h := by cases hfinished.symm.trans h
  le_cap := hcap
  session_eq _ := hsession
  finished_of _ := hfinished

private theorem reads_leave (h : Reads s.session fate) :
    Reads (none : Option (Session κ)) (fate.map Fate.leave) := by
  generalize s.session = session at h
  cases h with
  | reading hinUse => exact .idle (by simp [Fate.leave]) (by simp [Fate.leave, Fate.isWaiting])
  | idle hreading hwaiting =>
    refine .idle ?_ ?_
    all_goals rcases fate with _ | _ | _ | _ | _ | _ | _ <;> simp_all [Fate.leave, Fate.isWaiting]

theorem close (h : Standing i before cap yielded fate s w) :
    let r := s.close c.recorded w
    Standing i before cap yielded (fate.map Fate.leave) r.1 r.2 := by
  have hledger := h.ledger.closeSession c h.reads
  dsimp only
  rw [ChunkStream.close_fst]
  exact atEnd hledger h.authorizations_eq (reads_leave h.reads) rfl rfl h.le_cap

theorem interrupt (reason : String) (h : Standing i before cap yielded fate s w) :
    let r := s.interrupt c.recorded reason w
    Standing i before cap yielded (fate.map Fate.leave) r.1 r.2 := by
  have hledger := h.ledger.closeSession c (s := { s with interrupted := true }) h.reads
  dsimp only
  rw [ChunkStream.interrupt_fst]
  exact atEnd hledger h.authorizations_eq (reads_leave h.reads) rfl rfl h.le_cap

theorem relabel (h : Standing i before cap yielded fate s w) (plan : Plan) (log : Log)
    (cancelled : Bool) :
    Standing i before cap yielded fate { s with plan } { w with log, cancelled } :=
  ⟨h.ledger, h.authorizations_eq, h.reads, h.settled, h.remaining_eq, h.le_cap, h.session_eq,
    h.finished_of⟩

private theorem underway (h : Standing i before cap yielded fate s w) (hs : s.finished = false) :
    s.Underway i cap yielded where
  authorizations_eq := h.authorizations_eq
  finished_eq := hs
  interrupted_eq := by
    rw [← Bool.not_eq_true]
    intro hinterrupted
    cases hs.symm.trans (h.finished_of hinterrupted)
  remaining_eq := h.remaining_eq hs
  le_cap := h.le_cap

private theorem between {f : Fate} (hs : s.Underway i cap yielded) (hsession : s.session = none)
    (hf : f.isSettled = true)
    (hledger : Ledger i before w.env.calls w.metrics yielded s.skipped (some f)) :
    Standing i before cap yielded (some f) s w where
  ledger := hledger
  authorizations_eq := hs.authorizations_eq
  reads := by
    rw [hsession]
    refine .idle ?_ ?_
    · rintro ⟨⟩
      cases hf
    · rintro g ⟨⟩
      cases f <;> first | rfl | cases hf
  settled _ _ := ⟨f, rfl, hf⟩
  remaining_eq _ := hs.remaining_eq
  le_cap := hs.le_cap
  session_eq _ := hsession
  finished_of h := by cases hs.interrupted_eq.symm.trans h

private theorem within {session : Session κ} (hs : s.Underway i cap yielded)
    (hsession : s.session = some session) (hinUse : session.InUse)
    (hledger : Ledger i before w.env.calls w.metrics yielded s.skipped (some .reading)) :
    Standing i before cap yielded (some .reading) s w where
  ledger := hledger
  authorizations_eq := hs.authorizations_eq
  reads := by
    rw [hsession]
    exact .reading hinUse
  settled _ h := by cases hsession.symm.trans h
  remaining_eq _ := hs.remaining_eq
  le_cap := hs.le_cap
  session_eq h := by cases hs.finished_eq.symm.trans h
  finished_of h := by cases hs.interrupted_eq.symm.trans h

private theorem noteEntry {s : ChunkStream κ χ} (hs : s.Underway i cap yielded)
    (hcap : s.remaining ≠ some 0) (e : Entry) :
    s.noteEntry.Underway i cap (yielded ++ [e]) where
  authorizations_eq := hs.authorizations_eq
  finished_eq := hs.finished_eq
  interrupted_eq := hs.interrupted_eq
  remaining_eq := by
    dsimp only [ChunkStream.noteEntry]
    rw [hs.remaining_eq, Option.map_map, List.length_append]
    rfl
  le_cap n hn := by
    have hle := hs.le_cap n hn
    rw [hs.remaining_eq, hn, Option.map_some, ne_eq, Option.some.injEq] at hcap
    rw [List.length_append, List.length_singleton]
    omega

section

variable {session : Session κ} {w₁ : World (Recorded σ)}

private theorem released {item : Option (Except ScanError Entry)} (s : ChunkStream κ χ)
    (hinUse : session.InUse) (hpulled : w₁.env.calls = w.env.calls ++ [.pulled item])
    (hmetrics : w₁.metrics = w.metrics) :
    let r := { s with session := some session }.closeSession c.recorded w₁
    r.2.env.calls = w.env.calls ++ [.pulled item, .released] ∧
      r.2.metrics = w.metrics.sessionClosed := by
  obtain ⟨hcalls, hclosed⟩ := ChunkStream.closeSession_recorded c
    (s := { s with session := some session }) rfl hinUse w₁
  rw [hpulled, List.append_assoc] at hcalls
  rw [hmetrics] at hclosed
  exact ⟨hcalls, hclosed⟩

private theorem readOut (h : Standing i before cap yielded (some .reading) s w)
    (hs : s.finished = false) (hinUse : session.InUse)
    (hpulled : w₁.env.calls = w.env.calls ++ [.pulled none]) (hmetrics : w₁.metrics = w.metrics) :
    let r := { s with session := some session }.completeChunk c.recorded w₁
    Standing i before cap yielded (some .completed) r.1 r.2 := by
  obtain ⟨hcalls, hclosed⟩ := released c s hinUse hpulled hmetrics
  have hledger := h.ledger.turn .readOut hcalls (congrArg Metrics.chunkCompleted hclosed)
    (List.append_nil _).symm rfl
  dsimp only
  rw [ChunkStream.completeChunk_fst]
  exact between ((h.underway hs).congr rfl rfl rfl rfl) rfl rfl hledger

private theorem skipped (h : Standing i before cap yielded (some .reading) s w)
    (hs : s.finished = false) (hinUse : session.InUse) {e : ScanError}
    (he : e.isChunkLocal = true)
    (hpulled : w₁.env.calls = w.env.calls ++ [.pulled (some (.error e))])
    (hmetrics : w₁.metrics = w.metrics) :
    let r := { s with session := some session }.skipChunk c.recorded e w₁
    Standing i before cap yielded (some .skipped) r.1 r.2 := by
  obtain ⟨hcalls, hclosed⟩ := released c s hinUse hpulled hmetrics
  have hledger := h.ledger.giveUp (.broken e) hcalls (w.metrics.tallied_broken e).symm
  simp only [Fate.ofError, he, if_true, ← hclosed] at hledger
  dsimp only
  rw [ChunkStream.skipChunk_fst]
  exact between ((h.underway hs).congr rfl rfl rfl rfl) rfl rfl hledger

private theorem failed (h : Standing i before cap yielded (some .reading) s w)
    (hinUse : session.InUse) {e : ScanError} (he : e.isChunkLocal = false)
    (hpulled : w₁.env.calls = w.env.calls ++ [.pulled (some (.error e))])
    (hmetrics : w₁.metrics = w.metrics) :
    let r := { s with session := some session }.fail c.recorded e w₁
    Standing i before cap yielded (some .failed) r.1 r.2 := by
  obtain ⟨hcalls, hclosed⟩ := released c s hinUse hpulled hmetrics
  have hledger := h.ledger.giveUp (.broken e) hcalls (w.metrics.tallied_broken e).symm
  simp only [Fate.ofError, he, Bool.false_eq_true, if_false, ← hclosed] at hledger
  obtain ⟨log, hlog⟩ := ChunkStream.fail_snd c.recorded e { s with session := some session } w₁
  dsimp only
  rw [ChunkStream.fail_fst, hlog]
  exact atEnd hledger h.authorizations_eq (.idle (by simp) (by simp [Fate.isWaiting])) rfl rfl
    h.le_cap

end

private theorem pull (h : Standing i before cap yielded fate s w) (hs : s.finished = false)
    (hcap : s.remaining ≠ some 0) :
    let r := s.pull c.recorded w
    ∃ fate', Standing i before cap (yielded ++ (StreamRun.entry? r.1).toList) fate' r.2.1 r.2.2 ∧
      (r.1 = none → r.2.1.session = none ∧ r.2.1.finished = false) ∧
      (r.2.1.finished = true → ∃ e, r.1 = some (.error e)) := by
  have hnone : yielded ++ (StreamRun.entry? none).toList = yielded := List.append_nil _
  unfold ChunkStream.pull
  cases hsession : s.session with
  | none =>
    refine ⟨fate, ?_, fun _ => ⟨hsession, hs⟩, fun hfinished => by cases hs.symm.trans hfinished⟩
    rwa [hnone]
  | some session =>
    have hreads := h.reads
    rw [hsession] at hreads
    cases hreads with
    | reading hinUse =>
      obtain ⟨hinUse', hpulled, hmetrics⟩ := session.next_recorded c.store hinUse w
      dsimp only
      rw [Collaborators.store_recorded]
      generalize session.next c.store.recorded w = reply at hinUse' hpulled hmetrics ⊢
      obtain ⟨item, session', w₁⟩ := reply
      dsimp only at hinUse' hpulled hmetrics
      cases item with
      | none =>
        have hafter := h.readOut c hs hinUse' hpulled hmetrics
        dsimp only at hafter ⊢
        rw [ChunkStream.completeChunk_fst] at hafter ⊢
        rw [hnone]
        refine ⟨some .completed, hafter, fun _ => ⟨rfl, hs⟩, fun hfinished => ?_⟩
        cases hs.symm.trans hfinished
      | some item =>
        cases item with
        | ok entry =>
          have hledger := h.ledger.turn (.entry entry) hpulled
            (congrArg Metrics.entryReturned hmetrics) rfl rfl
          have hnoted := noteEntry (s := { s with session := some session' })
            ((h.underway hs).congr rfl rfl rfl rfl) hcap entry
          refine ⟨some .reading, within hnoted rfl hinUse' hledger, ?_, ?_⟩
          · exact fun hnone => by cases hnone
          · exact fun hfinished => by cases hs.symm.trans hfinished
        | error e =>
          dsimp only
          cases he : e.isChunkLocal with
          | true =>
            have hafter := h.skipped c hs hinUse' he hpulled hmetrics
            dsimp only at hafter
            rw [if_pos rfl]
            rw [ChunkStream.skipChunk_fst] at hafter ⊢
            rw [hnone]
            refine ⟨some .skipped, hafter, fun _ => ⟨rfl, hs⟩, fun hfinished => ?_⟩
            cases hs.symm.trans hfinished
          | false =>
            have hafter := h.failed c hinUse' he hpulled hmetrics
            rw [if_neg Bool.false_ne_true]
            refine ⟨some .failed, ?_, (fun hitem => by cases hitem), fun _ => ⟨e, rfl⟩⟩
            rw [show (StreamRun.entry? (some (.error e))).toList = [] from rfl, List.append_nil]
            exact hafter

theorem started {chunk : Option QuerySettings} {q : QuerySettings}
    (hq : i.query chunk = q.forChunk) {plan : Plan} {s' : ChunkStream κ χ}
    {w' : World (Recorded σ)} (hs : s.Underway i cap yielded)
    (hledger : Ledger i before w.env.calls w.metrics yielded s.skipped (some (.waiting chunk)))
    (hstart : s.startChunk c.recorded q w = (.ok plan, s', w')) :
    s'.finished = false ∧ ∃ fate', Standing i before cap yielded fate' s' w' := by
  obtain ⟨session, later, f, rfl, hturn, hcalls, hmetrics, hreads, hf⟩ :=
    ChunkStream.startChunk_ok hq hs.authorizations_eq hstart
  have hafter : Ledger i before w'.env.calls w'.metrics yielded s.skipped (some f) := by
    refine hledger.turn hturn hcalls hmetrics ?_ ?_
    · rw [hturn.filterMap_entry? (.inl (by simp)), List.append_nil]
    · rw [hturn.countP_skips]
      obtain rfl | rfl := hf <;> rfl
  have hunderway : ChunkStream.Underway i cap yielded
      { s with session, chunk := s.chunk + 1, chunkEntries := 0 } := hs.congr rfl rfl rfl rfl
  refine ⟨hs.finished_eq, some f, ?_⟩
  obtain rfl | rfl := hf
  · cases hreads with
    | reading hinUse => exact within hunderway rfl hinUse hafter
    | idle hreading hwaiting => exact absurd rfl hreading
  · cases hreads with
    | idle hreading hwaiting => exact between hunderway rfl rfl hafter

private theorem enter (q : QuerySettings) (hs : s.Underway i cap yielded)
    (hsession : s.session = none)
    (hledger : Ledger i before w.env.calls w.metrics yielded s.skipped
      (some (.waiting (some q)))) :
    let r := s.enter c.recorded q w
    (r.1 = none → r.2.1.finished = false) ∧
      ∃ fate', Standing i before cap yielded fate' r.2.1 r.2.2 := by
  unfold ChunkStream.enter
  have hq : i.query (some q) = q.forChunk := rfl
  generalize hstart : s.startChunk c.recorded q w = reply
  obtain ⟨answer, s', w'⟩ := reply
  cases answer with
  | ok plan =>
    obtain ⟨hfinished, hstanding⟩ := started c hq hs hledger hstart
    exact ⟨fun _ => hfinished, hstanding⟩
  | error e =>
    obtain ⟨later, rfl, hturn, hcalls, hmetrics⟩ :=
      ChunkStream.startChunk_error hq hs.authorizations_eq hstart
    have hafter := hledger.giveUp hturn hcalls rfl
    rw [hturn.tallied_waiting Fate.ofError_ne_reading Fate.ofError_ne_completed, ← hmetrics]
      at hafter
    -- nothing is open that would have to be closed
    have hclose := ChunkStream.closeSession_of_none c.recorded
      (s := { s with chunk := s.chunk + 1, chunkEntries := 0 }) hsession w'
    dsimp only
    cases he : e.isChunkLocal with
    | true =>
      simp only [Fate.ofError, he, if_true] at hafter
      rw [if_pos rfl, ChunkStream.skipChunk_fst]
      dsimp only [ChunkStream.skipChunk]
      rw [hclose]
      exact ⟨fun _ => hs.finished_eq, some .skipped,
        between (hs.congr rfl rfl rfl rfl) rfl rfl hafter⟩
    | false =>
      simp only [Fate.ofError, he, Bool.false_eq_true, if_false, reduceCtorEq] at hafter
      obtain ⟨log, hlog⟩ := ChunkStream.fail_snd c.recorded e
        { s with chunk := s.chunk + 1, chunkEntries := 0 } w'
      rw [if_neg Bool.false_ne_true, ChunkStream.fail_fst, hlog, hclose]
      exact ⟨(fun hitem => by cases hitem), some .failed,
        atEnd hafter hs.authorizations_eq (.idle (by simp) (by simp [Fate.isWaiting])) rfl rfl
          hs.le_cap⟩

/-- Once nothing more comes from a chunk, it is settled before the next one is asked for. -/
private theorem asked {chunk : Option QuerySettings} {state : χ} {s₁ : ChunkStream κ χ}
    {w₁ w₂ : World (Recorded σ)} (h : Standing i before cap yielded fate s w)
    (hs : s.finished = false) (hcap : s.remaining ≠ some 0)
    (hpull : s.pull c.recorded w = (none, s₁, w₁))
    (hask : w₁.ask (c.recorded.partition.next s₁.partition) = ((chunk, state), w₂)) :
    s₁.Underway i cap yielded ∧ s₁.session = none ∧
      w₂.env.calls = w₁.env.calls ++ [.asked chunk] ∧ w₂.metrics = w₁.metrics ∧
      ∃ f, f.isSettled = true ∧
        Ledger i before w₁.env.calls w₁.metrics yielded s₁.skipped (some f) := by
  obtain ⟨fate', hafter, hleft, -⟩ := h.pull c hs hcap
  rw [hpull, show (StreamRun.entry? none).toList = [] from rfl, List.append_nil] at hafter
  rw [hpull] at hleft
  obtain ⟨hsession, hfinished⟩ := hleft rfl
  obtain ⟨f, rfl, hf⟩ := hafter.settled hfinished hsession
  obtain ⟨hanswer, rfl⟩ := Prod.mk.inj hask
  refine ⟨hafter.underway hfinished, hsession, ?_, rfl, f, hf, hafter.ledger⟩
  exact congrArg (fun answer => w₁.env.calls ++ [Call.asked answer.1]) hanswer

/-- What a call of `next` leaves of a stream that is kept in the books. When it ends the stream,
the record or what it returns says why. -/
theorem next (h : Standing i before cap yielded fate s w) :
    let r := s.next c.recorded w
    let after := yielded ++ (StreamRun.entry? r.1).toList
    (∃ fate', Standing i before cap after fate' r.2.1 r.2.2) ∧
      (s.finished = false → r.2.1.finished = true →
        r.2.1.interrupted = true ∨ cap = some after.length ∨
          r.2.2.env.calls.getLast? = some (.asked none) ∨ ∃ e, r.1 = some (.error e)) := by
  have hnone : yielded ++ (StreamRun.entry? none).toList = yielded := List.append_nil _
  fun_induction ChunkStream.next c.recorded s w generalizing fate with
  | case1 s w hs =>
    refine ⟨⟨fate, ?_⟩, fun hunfinished => by cases hs.symm.trans hunfinished⟩
    rwa [hnone]
  | case2 s w hs hcancelled s₁ w₁ hinterrupt =>
    have hafter := h.interrupt c "cancelled"
    have hfst := ChunkStream.interrupt_fst c.recorded "cancelled" s w
    rw [hinterrupt] at hafter hfst
    refine ⟨⟨fate.map Fate.leave, ?_⟩, fun _ _ => .inl (congrArg ChunkStream.interrupted hfst)⟩
    rw [hnone]
    exact hafter
  | case3 s w hs hcancelled hcap s₁ w₁ hclose =>
    have hafter := h.close c
    rw [hclose] at hafter
    dsimp only
    rw [hnone]
    refine ⟨⟨_, hafter⟩, fun hunfinished _ => .inr (.inl ?_)⟩
    rw [h.remaining_eq hunfinished] at hcap
    cases cap with
    | none => cases hcap
    | some n =>
      have hle := h.le_cap n rfl
      rw [Option.map_some, Option.some.injEq] at hcap
      rw [Option.some.injEq]
      omega
  | case4 s w hs hcancelled hcap item s₁ w₁ hpull =>
    obtain ⟨fate', hafter, -, herror⟩ := h.pull c (Bool.eq_false_iff.2 hs) hcap
    rw [hpull] at hafter herror
    exact ⟨⟨fate', hafter⟩, fun _ hfinished => .inr (.inr (.inr (herror hfinished)))⟩
  | case5 s w hs hcancelled hcap s₁ w₁ hpull state w₂ hask =>
    obtain ⟨hs₁, hsession, hcalls, hmetrics, f, hf, hledger⟩ :=
      h.asked c (Bool.eq_false_iff.2 hs) hcap hpull hask
    have hafter := hledger.asked_none hf
    rw [← hcalls, ← hmetrics] at hafter
    have hreads := (between (w := w₁) hs₁ hsession hf hledger).reads
    dsimp only
    rw [hnone, hcalls]
    refine ⟨⟨some f, atEnd hafter hs₁.authorizations_eq hreads hsession rfl hs₁.le_cap⟩,
      fun _ _ => .inr (.inr (.inl ?_))⟩
    rw [List.getLast?_concat]
  | case6 s w hs hcancelled hcap s₁ w₁ hpull q state w₂ hask e s₂ w₃ henter =>
    obtain ⟨hs₁, hsession, hcalls, hmetrics, f, hf, hledger⟩ :=
      h.asked c (Bool.eq_false_iff.2 hs) hcap hpull hask
    have hasked := hledger.asked_some hf q
    rw [← hcalls, ← hmetrics] at hasked
    obtain ⟨-, fate', hafter⟩ := enter c q (s := { s₁ with partition := state })
      (hs₁.congr rfl rfl rfl rfl) hsession hasked
    rw [henter] at hafter
    refine ⟨⟨fate', ?_⟩, fun _ _ => .inr (.inr (.inr ⟨e, rfl⟩))⟩
    rw [show (StreamRun.entry? (some (.error e))).toList = [] from rfl, List.append_nil]
    exact hafter
  | case7 s w hs hcancelled hcap s₁ w₁ hpull q state w₂ hask s₂ w₃ henter ih =>
    obtain ⟨hs₁, hsession, hcalls, hmetrics, f, hf, hledger⟩ :=
      h.asked c (Bool.eq_false_iff.2 hs) hcap hpull hask
    have hasked := hledger.asked_some hf q
    rw [← hcalls, ← hmetrics] at hasked
    obtain ⟨hfinished, fate', hafter⟩ := enter c q (s := { s₁ with partition := state })
      (hs₁.congr rfl rfl rfl rfl) hsession hasked
    rw [henter] at hfinished hafter
    obtain ⟨hstanding, hover⟩ := ih hafter
    exact ⟨hstanding, fun _ => hover (hfinished rfl)⟩

end Standing

end ShardQuery
