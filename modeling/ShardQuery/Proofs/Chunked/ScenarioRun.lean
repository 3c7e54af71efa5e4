import ShardQuery.Proofs.Chunked.Scenario
import ShardQuery.Proofs.Chunked.StreamSteps

/-!
# Streams in a scenario

What a stream has still to yield can be read off its cursor and the chunks left. Every call of
`next` takes the first item of it, so the calls yield what the scenes say and then nothing.
-/

namespace ShardQuery

def Session.unread (s : Session (List ScanItem)) : List ScanItem := s.cursor.getD []

private theorem Session.unread_tail (s : Session (List ScanItem)) :
    Session.unread { s with cursor := s.cursor.map List.tail } = s.unread.tail := by
  unfold Session.unread
  cases s.cursor <;> rfl

namespace Scenario

variable (scenario : Scenario)

private theorem ask_pull (items : List ScanItem) (w : World Scene) :
    w.ask (scenario.collaborators.store.pull items) = ((items.head?, items.tail), w) := by
  simp [World.ask, collaborators]

private theorem releasesQuietly : scenario.collaborators.store.ReleasesQuietly := fun _ _ => rfl

private theorem ask_openScan (table : String) (authorizations : Authorizations)
    (ranges : List RowRange) (w : World Scene) :
    w.ask (scenario.collaborators.store.openScan table authorizations ranges) =
      (w.env.scan table authorizations ranges, w) := by
  simp [World.ask, collaborators]

private theorem ask_plan (q : QuerySettings) (authorizations : Authorizations) (w : World Scene) :
    w.ask (scenario.collaborators.plan q authorizations) = (w.env.plan q authorizations, w) := by
  simp [World.ask, collaborators]

private theorem ask_next (chunks : List StagedChunk) (w : World Scene) :
    w.ask (scenario.collaborators.partition.next chunks) =
      ((chunks.head?.map StagedChunk.query, chunks.tail),
        { w with env := (chunks.head?.map StagedChunk.scene).getD scenario.fallback }) := by
  simp [World.ask, collaborators]

private theorem ask_setBase (base : QuerySettings) (chunks : List StagedChunk) (w : World Scene) :
    w.ask (scenario.collaborators.partition.setBase base chunks) =
      (scenario.setBase base chunks, w) := by
  simp [World.ask, collaborators]

private theorem next_session (s : Session (List ScanItem)) (w : World Scene) :
    s.next scenario.collaborators.store w =
      (s.unread.head?, { s with cursor := s.cursor.map List.tail }, w) := by
  obtain ⟨table, authorizations, ranges, cursor, opened, counted⟩ := s
  cases cursor with
  | none => rfl
  | some items =>
    dsimp only [Session.next]
    rw [ask_pull]
    rfl

private theorem unread_close (s : Session (List ScanItem)) (w : World Scene) :
    (s.close scenario.collaborators.store w).1.unread = [] := by
  unfold Session.close Session.unread
  cases hcursor : s.cursor with
  | none =>
    dsimp only
    rw [hcursor]
    rfl
  | some items => rfl

private theorem start_session (table : String) (authorizations : Authorizations)
    {ranges : List RowRange} (hranges : ranges.isEmpty = false) (counted : Bool) (w : World Scene) :
    let r := Session.start scenario.collaborators.store table authorizations ranges counted w
    r.2.stage = w.stage ∧
      match w.env.scan table authorizations ranges with
      | .error e => r.1 = .error e
      | .ok items => ∃ session, r.1 = .ok session ∧ session.unread = items := by
  unfold Session.start
  rw [if_neg (by simp [hranges]), ask_openScan]
  cases w.env.scan table authorizations ranges with
  | error e => exact ⟨rfl, rfl⟩
  | ok items =>
    refine ⟨?_, _, rfl, rfl⟩
    dsimp only [Session.reportOpened, Session.tally]
    split <;> rfl

/-- An observation comes to its verdict on the items of the session it is lent. -/
private theorem run_observation {o : Observation Scene (List StagedChunk)} (ho : o.NeverCancels)
    (s : Session (List ScanItem)) (w : World Scene) :
    let r := o.run scenario.collaborators.store s w
    r.1 = o.verdict s.unread ∧ r.2.2.cancelled = w.cancelled := by
  induction o generalizing s w with
  | finish outcome state => exact ⟨rfl, rfl⟩
  | pull onItem ih =>
    dsimp only [Observation.run, Observation.verdict]
    rw [next_session]
    rw [← Session.unread_tail]
    exact ih _ (ho _) _ w
  | close rest ih =>
    dsimp only [Observation.run, Observation.verdict]
    obtain ⟨hverdict, hcalm⟩ := ih ho (s.close scenario.collaborators.store w).1
      (s.close scenario.collaborators.store w).2
    refine ⟨?_, hcalm.trans (congrArg Prod.snd (s.stage_close scenario.releasesQuietly w))⟩
    rw [hverdict, unread_close]
  | act effect rest ih => exact ih ho s _
  | cancel rest ih => exact absurd ho id

end Scenario

namespace ChunkStream

variable (scenario : Scenario)

abbrev Staged := ChunkStream (List ScanItem) (List StagedChunk)

def unread (s : Staged) : List ScanItem := s.session.elim [] Session.unread

/-- What a stream has still to yield. -/
def pending (s : Staged) : List ScanItem :=
  if s.finished then []
  else capped s.remaining (emit s.unread (emitChunks s.authorizations s.partition))

private theorem startChunk_staged (q : QuerySettings) (s : Staged) (w : World Scene) :
    let r := s.startChunk scenario.collaborators q w
    r.2.2.stage = w.stage ∧
      match w.env.setUp q.forChunk s.authorizations with
      | .error e => r.1 = .error e ∧ r.2.1 = { s with chunk := s.chunk + 1, chunkEntries := 0 }
      | .ok (plan, items) =>
        r.1 = .ok plan ∧ ∃ session, session.elim [] Session.unread = items ∧
          r.2.1 = { s with chunk := s.chunk + 1, chunkEntries := 0, session } := by
  dsimp only [startChunk, openChunk, Scene.setUp]
  rw [Scenario.ask_plan]
  cases w.env.plan q.forChunk s.authorizations with
  | error e => exact ⟨rfl, rfl, rfl⟩
  | ok plan =>
    dsimp only
    by_cases hwork : plan.hasWork = true
    · have hranges : plan.ranges.isEmpty = false := by simpa [Plan.hasWork] using hwork
      obtain ⟨hstage, hstart⟩ :=
        scenario.start_session plan.table plan.authorizations hranges true w
      generalize Session.start scenario.collaborators.store plan.table plan.authorizations
        plan.ranges true w = reply at hstage hstart ⊢
      obtain ⟨answer, w₁⟩ := reply
      cases hscan : w.env.scan plan.table plan.authorizations plan.ranges with
      | error e =>
        rw [hscan] at hstart
        cases hstart
        simp only [hwork, if_true, and_true]
        exact hstage
      | ok items =>
        rw [hscan] at hstart
        obtain ⟨session, hanswer, hunread⟩ := hstart
        cases hanswer
        simp only [hwork, if_true, true_and]
        exact ⟨hstage, some session, hunread, rfl⟩
    · simp only [hwork, if_false, Bool.false_eq_true, true_and]
      rw [completeChunk_fst]
      exact ⟨stage_completeChunk scenario.releasesQuietly _ _, none, rfl, rfl⟩

private theorem enter_staged (chunk : StagedChunk) {s : Staged} (hs : s.finished = false)
    {w : World Scene} (hw : w.env = chunk.scene) :
    let r := s.enter scenario.collaborators chunk.query w
    let items := emitChunks s.authorizations (chunk :: s.partition)
    r.2.2.stage = w.stage ∧
      (r.1 = none → r.2.1.pending = capped s.remaining items) ∧
      ∀ e, r.1 = some e → items = [.error e] ∧ r.2.1.finished = true := by
  obtain ⟨hstage, hstart⟩ := startChunk_staged scenario chunk.query s w
  rw [hw] at hstart
  dsimp only [enter, emitChunks]
  generalize s.startChunk scenario.collaborators chunk.query w = reply at hstage hstart ⊢
  obtain ⟨answer, s₁, w₁⟩ := reply
  cases hset : chunk.scene.setUp chunk.query.forChunk s.authorizations with
  | error e =>
    rw [hset] at hstart
    obtain ⟨hanswer, hs₁⟩ := hstart
    cases hanswer
    cases hs₁
    dsimp only
    by_cases hlocal : e.isChunkLocal = true
    · rw [if_pos hlocal, if_pos hlocal, skipChunk_fst]
      refine ⟨(stage_skipChunk scenario.releasesQuietly e _ w₁).trans hstage, ?_,
        fun _ h => by cases h⟩
      intro _
      simp [pending, hs, unread, emit]
    · rw [if_neg hlocal, if_neg hlocal, fail_fst]
      refine ⟨(stage_fail scenario.releasesQuietly e _ w₁).trans hstage, ?_, ?_⟩
      · intro h
        cases h
      · intro e' h
        cases h
        exact ⟨rfl, rfl⟩
  | ok planned =>
    obtain ⟨plan, items⟩ := planned
    rw [hset] at hstart
    obtain ⟨hanswer, session, hunread, hs₁⟩ := hstart
    cases hanswer
    cases hs₁
    refine ⟨hstage, ?_, fun _ h => by cases h⟩
    intro _
    simp [pending, hs, unread, hunread]

private theorem capped_ok {cap : Option Nat} (h : cap ≠ some 0) (entry : Entry)
    (items : List ScanItem) :
    capped cap (.ok entry :: items) = .ok entry :: capped (cap.map (· - 1)) items := by
  cases cap with
  | none => rfl
  | some n =>
    cases n with
    | zero => exact absurd rfl h
    | succ n => rfl

private theorem capped_error {cap : Option Nat} (h : cap ≠ some 0) (e : ScanError) :
    capped cap [.error e] = [.error e] := by
  cases cap with
  | none => rfl
  | some n =>
    cases n with
    | zero => exact absurd rfl h
    | succ n => rfl

private theorem capped_nil (cap : Option Nat) : capped cap [] = [] := by
  cases cap with
  | none => rfl
  | some n => cases n <;> rfl

private theorem capped_zero (items : List ScanItem) : capped (some 0) items = [] := by
  cases items with
  | nil => rfl
  | cons item items => cases item <;> rfl

/-- Pulling takes the first item, or leaves the chunk when the items of later ones come next. -/
private theorem pull_staged {s : Staged} (hs : s.finished = false) (hcap : s.remaining ≠ some 0)
    (w : World Scene) :
    let r := s.pull scenario.collaborators w
    r.2.2.stage = w.stage ∧
      match r.1 with
      | some item => s.pending = item :: r.2.1.pending
      | none => s.pending = capped s.remaining (emitChunks s.authorizations s.partition) ∧
          ∃ skipped, r.2.1 = { s with session := none, skipped } := by
  unfold pull
  cases hsession : s.session with
  | none =>
    refine ⟨rfl, by simp [pending, hs, unread, hsession, emit], s.skipped, ?_⟩
    dsimp only
    rw [← hsession]
  | some session =>
    dsimp only
    rw [Scenario.next_session]
    have hunread : s.unread = session.unread := by rw [unread, hsession]; rfl
    have htail := session.unread_tail
    have hpending : s.pending = capped s.remaining (emit session.unread
        (emitChunks s.authorizations s.partition)) := by
      rw [pending, hunread, hs]
      rfl
    rw [hpending]
    -- of the session after the pull only what it has still to read matters
    generalize ({ session with cursor := session.cursor.map List.tail } : Session (List ScanItem)) =
      session₁ at htail ⊢
    cases hitems : session.unread with
    | nil =>
      dsimp only [List.head?_nil, emit]
      rw [completeChunk_fst]
      exact ⟨stage_completeChunk scenario.releasesQuietly _ w, rfl, s.skipped, rfl⟩
    | cons item items =>
      rw [hitems] at htail
      cases item with
      | ok entry =>
        refine ⟨rfl, ?_⟩
        dsimp only [List.head?_cons, emit]
        rw [capped_ok hcap]
        simp [pending, noteEntry, unread, hs, htail]
      | error e =>
        dsimp only [List.head?_cons, emit]
        by_cases hlocal : e.isChunkLocal = true
        · have hstage := stage_skipChunk scenario.releasesQuietly e
            { s with session := some session₁ } w
          rw [if_pos hlocal, if_pos hlocal, skipChunk_fst]
          exact ⟨hstage, rfl, s.skipped + 1, rfl⟩
        · rw [if_neg hlocal, if_neg hlocal, fail_fst, capped_error hcap]
          exact ⟨stage_fail scenario.releasesQuietly e _ w, rfl⟩

private theorem pending_of_finished {s : Staged} (hs : s.finished = true) : s.pending = [] := by
  rw [pending, if_pos hs]

private theorem enter_next {s s₁ : Staged} {w w₁ w₂ : World Scene} {q : QuerySettings}
    {chunks : List StagedChunk} (hs : s.finished = false) (hcap : s.remaining ≠ some 0)
    (hpull : s.pull scenario.collaborators w = (none, s₁, w₁))
    (hask : w₁.ask (scenario.collaborators.partition.next s₁.partition) = ((some q, chunks), w₂)) :
    let r := { s₁ with partition := chunks }.enter scenario.collaborators q w₂
    r.2.2.cancelled = w.cancelled ∧ (r.1 = none → r.2.1.pending = s.pending) ∧
      ∀ e, r.1 = some e → s.pending = [.error e] ∧ r.2.1.finished = true := by
  obtain ⟨hstage, hrest⟩ := pull_staged scenario hs hcap w
  rw [hpull] at hstage hrest
  obtain ⟨hpending, skipped, hs₁⟩ := hrest
  cases hs₁
  rw [Scenario.ask_next] at hask
  cases hpartition : s.partition with
  | nil =>
    rw [hpartition] at hask
    cases hask
  | cons chunk after =>
    rw [hpartition] at hask hpending
    cases hask
    obtain ⟨hentered, hnone, hsome⟩ := enter_staged scenario chunk
      (s := { s with session := none, skipped, partition := after }) hs
      (w := { w₁ with env := chunk.scene }) rfl
    refine ⟨(congrArg Prod.snd hentered).trans (congrArg Prod.snd hstage), ?_, ?_⟩
    · intro h
      rw [hpending]
      exact hnone h
    · intro e h
      obtain ⟨hitems, hfinished⟩ := hsome e h
      refine ⟨?_, hfinished⟩
      rw [hpending]
      exact (congrArg (capped s.remaining) hitems).trans (capped_error hcap e)

private theorem next_staged (s : Staged) {w : World Scene} (hw : w.cancelled = false) :
    let r := s.next scenario.collaborators w
    r.2.2.cancelled = false ∧ r.1 = s.pending.head? ∧ r.2.1.pending = s.pending.tail := by
  -- six ways out of the loop; going round it again keeps what is pending
  fun_induction next scenario.collaborators s w with
  | case1 s w hs =>
    have hpending := pending_of_finished hs
    rw [hpending]
    exact ⟨hw, rfl, hpending⟩
  | case2 s w hs hcancelled => exact absurd hcancelled (by simp [hw])
  | case3 s w hs hcancelled hcap s₁ w₁ hclose =>
    have hpending : s.pending = [] := by rw [pending, if_neg hs, hcap, capped_zero]
    have hstage : (s.close scenario.collaborators w).2.stage = w.stage :=
      stage_close scenario.releasesQuietly s w
    have hfst := close_fst scenario.collaborators s w
    rw [hclose] at hstage hfst
    rw [hpending]
    refine ⟨(congrArg Prod.snd hstage).trans hw, rfl, pending_of_finished ?_⟩
    exact congrArg finished hfst
  | case4 s w hs hcancelled hcap item s₁ w₁ hpull =>
    obtain ⟨hstage, hitem⟩ := pull_staged scenario (Bool.eq_false_iff.2 hs) hcap w
    rw [hpull] at hstage hitem
    rw [hitem]
    exact ⟨(congrArg Prod.snd hstage).trans hw, rfl, rfl⟩
  | case5 s w hs hcancelled hcap s₁ w₁ hpull state w₂ hask =>
    obtain ⟨hstage, hrest⟩ := pull_staged scenario (Bool.eq_false_iff.2 hs) hcap w
    rw [hpull] at hstage hrest
    obtain ⟨hpending, skipped, hs₁⟩ := hrest
    cases hs₁
    rw [Scenario.ask_next] at hask
    cases hpartition : s.partition with
    | nil =>
      rw [hpartition] at hask hpending
      cases hask
      rw [hpending, emitChunks, capped_nil]
      exact ⟨(congrArg Prod.snd hstage).trans hw, rfl, pending_of_finished rfl⟩
    | cons chunk chunks =>
      rw [hpartition] at hask
      cases hask
  | case6 s w hs hcancelled hcap s₁ w₁ hpull q chunks w₂ hask e s₂ w₃ henter =>
    obtain ⟨hcalm, -, hsome⟩ := enter_next scenario (Bool.eq_false_iff.2 hs) hcap hpull hask
    rw [henter] at hcalm hsome
    obtain ⟨hpending, hfinished⟩ := hsome e rfl
    rw [hpending]
    exact ⟨hcalm.trans hw, rfl, pending_of_finished hfinished⟩
  | case7 s w hs hcancelled hcap s₁ w₁ hpull q chunks w₂ hask s₂ w₃ henter ih =>
    obtain ⟨hcalm, hnone, -⟩ := enter_next scenario (Bool.eq_false_iff.2 hs) hcap hpull hask
    rw [henter] at hcalm hnone
    rw [← hnone rfl]
    exact ih (hcalm.trans hw)

private theorem take_staged (s : Staged) {w : World Scene} (hw : w.cancelled = false) {n : Nat}
    (hn : s.pending.length < n) :
    let r := s.take scenario.collaborators n w
    r.1 = s.pending.map some ++ [none] ∧ r.2.1.finished = true := by
  induction n generalizing s w with
  | zero => exact absurd hn (Nat.not_lt_zero _)
  | succ n ih =>
    obtain ⟨hcalm, hitem, hrest⟩ := next_staged scenario s hw
    have hend := finished_next scenario.collaborators s w
    rw [take]
    generalize s.next scenario.collaborators w = reply at hcalm hitem hrest hend ⊢
    obtain ⟨item, s₁, w₁⟩ := reply
    dsimp only at hcalm hitem hrest hend ⊢
    cases hpending : s.pending with
    | nil =>
      rw [hpending] at hitem
      cases hitem
      exact ⟨rfl, hend rfl⟩
    | cons first rest =>
      rw [hpending] at hitem hrest hn
      cases hitem
      have hlater := ih s₁ hcalm (by rw [hrest]; exact Nat.lt_of_succ_lt_succ hn)
      rw [hrest] at hlater
      refine ⟨?_, hlater.2⟩
      dsimp only [List.head?_cons]
      rw [hlater.1]
      rfl

private theorem observe_staged {plan : Plan} (hplan : plan.hasWork = true)
    (chunks : List StagedChunk) (w : World Scene) :
    let r := observe scenario.collaborators plan chunks w
    r.2.cancelled = w.cancelled ∧
      match w.env.scan plan.table plan.authorizations plan.ranges with
      | .error e => r.1 = .error e
      | .ok items =>
        let verdict := (scenario.observe plan chunks).verdict items
        r.1 = verdict.1.map fun _ => verdict.2 := by
  unfold observe
  have hranges : plan.ranges.isEmpty = false := by simpa [Plan.hasWork] using hplan
  obtain ⟨hstage, hstart⟩ :=
    scenario.start_session plan.table plan.authorizations hranges true w
  generalize Session.start scenario.collaborators.store plan.table plan.authorizations
    plan.ranges true w = reply at hstage hstart ⊢
  obtain ⟨answer, w₁⟩ := reply
  cases hscan : w.env.scan plan.table plan.authorizations plan.ranges with
  | error e =>
    rw [hscan] at hstart
    cases hstart
    exact ⟨congrArg Prod.snd hstage, rfl⟩
  | ok items =>
    rw [hscan] at hstart
    obtain ⟨session, hanswer, hunread⟩ := hstart
    cases hanswer
    have hobserve : scenario.collaborators.partition.observe plan chunks =
        scenario.observe plan chunks := rfl
    obtain ⟨hverdict, hcalm⟩ :=
      scenario.run_observation (scenario.neverCancels plan chunks) session w₁
    dsimp only
    rw [hobserve]
    generalize (scenario.observe plan chunks).run scenario.collaborators.store session w₁ =
      observed at hverdict hcalm ⊢
    obtain ⟨verdict, session₁, w₂⟩ := observed
    -- the session is closed before the verdict counts, and closing cannot fail
    have hclosed := session₁.stage_close scenario.releasesQuietly w₂
    rw [hunread] at hverdict
    refine ⟨(congrArg Prod.snd hclosed).trans (hcalm.trans (congrArg Prod.snd hstage)), ?_⟩
    rw [← hverdict]

private theorem basePass_staged (base : QuerySettings) (authorizations : Authorizations)
    (chunks : List StagedChunk) (w : World Scene) :
    let r := basePass scenario.collaborators base authorizations chunks w
    r.2.cancelled = w.cancelled ∧
      match w.env.setUp base authorizations with
      | .error e => r.1 = .error e
      | .ok (plan, items) =>
        if plan.hasWork then
          let verdict := (scenario.observe plan chunks).verdict items
          r.1 = verdict.1.map fun _ => .inr verdict.2
        else r.1 = .ok (.inl plan) := by
  dsimp only [basePass, Scene.setUp]
  rw [Scenario.ask_plan]
  have henv : (w.report .basePassStarted [("query", base.name)]).env = w.env := rfl
  have hcalm : (w.report .basePassStarted [("query", base.name)]).cancelled = w.cancelled := rfl
  rw [henv, ← hcalm]
  generalize w.report .basePassStarted [("query", base.name)] = w₁ at henv ⊢
  cases w.env.plan base authorizations with
  | error e => exact ⟨rfl, rfl⟩
  | ok plan =>
    dsimp only
    by_cases hwork : plan.hasWork = true
    · obtain ⟨hsame, hobserved⟩ := observe_staged scenario hwork chunks w₁
      rw [henv] at hobserved
      generalize observe scenario.collaborators plan chunks w₁ = observed at hsame hobserved ⊢
      obtain ⟨answer, w₂⟩ := observed
      simp only [hwork, if_true]
      refine ⟨hsame, ?_⟩
      cases hscan : w.env.scan plan.table plan.authorizations plan.ranges with
      | error e =>
        rw [hscan] at hobserved
        cases hobserved
        rfl
      | ok items =>
        rw [hscan] at hobserved
        cases hobserved
        simp only [hwork, if_true]
        cases ((scenario.observe plan chunks).verdict items).1 <;> rfl
    · simp [hwork]

private theorem firstChunk_staged (base : QuerySettings) (chunks : List StagedChunk)
    (w : World Scene) :
    let first := chunks.headD ⟨base, scenario.fallback⟩
    let r := firstChunk scenario.collaborators base chunks w
    r.1 = first.query ∧ r.2.1 = chunks.tail ∧ r.2.2.stage = (first.scene, w.cancelled) := by
  unfold firstChunk
  rw [Scenario.ask_next]
  cases chunks with
  | nil => exact ⟨rfl, rfl, rfl⟩
  | cons chunk chunks => exact ⟨rfl, rfl, rfl⟩

private theorem openFirst_staged (base : QuerySettings) (authorizations : Authorizations)
    (cap : Option Nat) (chunks : List StagedChunk) (w : World Scene) :
    let r := openFirst scenario.collaborators base authorizations cap chunks w
    r.2.cancelled = w.cancelled ∧
      match scenario.fromFirst base authorizations cap chunks with
      | .error e => r.1 = .error e
      | .ok items => ∃ s, r.1 = .ok s ∧ s.pending = items := by
  unfold openFirst Scenario.fromFirst
  have hfirst := firstChunk_staged scenario base chunks w
  generalize firstChunk scenario.collaborators base chunks w = taken at hfirst ⊢
  obtain ⟨q, after, w₁⟩ := taken
  obtain ⟨hq, hafter, hstage⟩ := hfirst
  generalize chunks.headD ⟨base, scenario.fallback⟩ = first at hq hstage ⊢
  dsimp only at hq hafter hstage ⊢
  rw [← hq, ← hafter]
  obtain ⟨hkept, hstart⟩ := startChunk_staged scenario q (unstarted base authorizations cap after) w₁
  have hscene : w₁.env = first.scene := congrArg Prod.fst hstage
  have hcalm : w₁.cancelled = w.cancelled := congrArg Prod.snd hstage
  have hwith : (unstarted base authorizations cap after : Staged).authorizations =
      authorizations := rfl
  -- taking the chunk has set its scene, in which it is planned and opened
  rw [hscene, hwith] at hstart
  generalize startChunk scenario.collaborators q (unstarted base authorizations cap after) w₁ =
    reply at hkept hstart ⊢
  obtain ⟨answer, s, w₂⟩ := reply
  have hsame : w₂.cancelled = w.cancelled := (congrArg Prod.snd hkept).trans hcalm
  cases hset : first.scene.setUp q.forChunk authorizations with
  | error e =>
    rw [hset] at hstart
    cases hstart.1
    exact ⟨hsame, rfl⟩
  | ok planned =>
    obtain ⟨plan, items⟩ := planned
    rw [hset] at hstart
    obtain ⟨hanswer, session, hunread, hs⟩ := hstart
    cases hanswer
    cases hs
    refine ⟨hsame, _, rfl, ?_⟩
    simp [pending, unstarted, unread, hunread]

private theorem prepare_staged (chunks : List StagedChunk) (limit : Option Nat)
    (q : QuerySettings) (id : QueryId) (authorizations : Authorizations) {w : World Scene}
    (hw : w.env = scenario.basePass) :
    let r := prepare scenario.collaborators chunks limit (baseOf q id) authorizations w
    r.2.cancelled = w.cancelled ∧
      match scenario.outcome chunks (Limit.inEffect limit q) q id authorizations with
      | .error e => r.1 = .error e
      | .ok items => ∃ s, r.1 = .ok s ∧ s.pending = items := by
  unfold prepare Scenario.outcome
  rw [Scenario.ask_setBase]
  have hcap : (Limit.resolve limit (baseOf q id) w).1 = Limit.inEffect limit q := by
    rw [Limit.resolve_fst, Limit.inEffect_baseOf]
  have henv : (Limit.resolve limit (baseOf q id) w).2.env = scenario.basePass := by
    rw [Limit.resolve_snd]
    exact hw
  have hcalm : (Limit.resolve limit (baseOf q id) w).2.cancelled = w.cancelled := by
    rw [Limit.resolve_snd]
  have hwants : scenario.collaborators.partition.wantsBasePass = scenario.wantsBasePass := rfl
  dsimp only
  rw [hwants, hcap, ← hcalm]
  generalize (Limit.resolve limit (baseOf q id) w).2 = w₁ at henv ⊢
  generalize baseOf q id = base
  generalize scenario.setBase base chunks = staged
  by_cases hpass : scenario.wantsBasePass staged = true
  · simp only [hpass, if_true]
    obtain ⟨hsame, hpassed⟩ := basePass_staged scenario base authorizations staged w₁
    rw [henv] at hpassed
    generalize basePass scenario.collaborators base authorizations staged w₁ = passed
      at hsame hpassed ⊢
    obtain ⟨answer, w₂⟩ := passed
    cases hset : scenario.basePass.setUp base authorizations with
    | error e =>
      rw [hset] at hpassed
      cases hpassed
      exact ⟨hsame, rfl⟩
    | ok planned =>
      obtain ⟨plan, items⟩ := planned
      rw [hset] at hpassed
      dsimp only at hpassed ⊢
      by_cases hwork : plan.hasWork = true
      · simp only [hwork, if_true] at hpassed ⊢
        cases hpassed
        generalize (scenario.observe plan staged).verdict items = verdict
        obtain ⟨outcome, left⟩ := verdict
        cases outcome with
        | error e => exact ⟨hsame, rfl⟩
        | ok _ =>
          dsimp only [Except.map]
          rw [← hsame]
          exact openFirst_staged scenario base authorizations _ left w₂
      · simp only [hwork, if_false, Bool.false_eq_true] at hpassed ⊢
        cases hpassed
        exact ⟨hsame, _, rfl, pending_of_finished rfl⟩
  · simp only [hpass, if_false, Bool.false_eq_true]
    exact openFirst_staged scenario base authorizations _ staged w₁

/-- Starting a query in a scenario fails as the scenes say, or gives a stream whose calls yield
what the scenes say and then nothing, after which it is finished. -/
private theorem start_inEffect (chunks : List StagedChunk) (limit : Option Nat) (q : QuerySettings)
    (id : QueryId) (authorizations : Authorizations) (log : Log) (metrics : Metrics) (now : Nat) :
    let r := start scenario.collaborators chunks limit q id authorizations
      { env := scenario.basePass, log, metrics, now }
    match scenario.outcome chunks (Limit.inEffect limit q) q id authorizations with
    | .error e => r.1 = .error e
    | .ok items => ∃ s, r.1 = .ok s ∧ ∀ n, items.length < n →
        let calls := s.take scenario.collaborators n r.2
        calls.1 = items.map some ++ [none] ∧ calls.2.1.finished = true := by
  unfold start
  generalize Log.Scope.enter Log.Event.queryInitialize.name
    [("query", q.name), ("query_id", q.id.text)] now log = entered
  obtain ⟨scope, log₁⟩ := entered
  dsimp only
  obtain ⟨hcalm, hprepared⟩ := prepare_staged scenario chunks limit q id authorizations
    (w := { env := scenario.basePass, log := log₁, metrics, now }) rfl
  generalize prepare scenario.collaborators chunks limit (baseOf q id) authorizations
    { env := scenario.basePass, log := log₁, metrics, now } = prepared at hcalm hprepared ⊢
  obtain ⟨answer, w₁⟩ := prepared
  cases houtcome : scenario.outcome chunks (Limit.inEffect limit q) q id authorizations with
  | error e =>
    rw [houtcome] at hprepared
    cases hprepared
    rfl
  | ok items =>
    rw [houtcome] at hprepared
    obtain ⟨s, hanswer, hpending⟩ := hprepared
    cases hanswer
    refine ⟨s, rfl, ?_⟩
    intro n hn
    rw [← hpending] at hn ⊢
    refine take_staged scenario s ?_ hn
    exact hcalm

/-- One cap applies to a query: the minimum of the configured one and a number in the parameter.
Under it, starting the query in a scenario fails as the scenes say, or gives a stream whose calls
yield what the scenes say and then nothing, after which it is finished. -/
theorem start_staged (chunks : List StagedChunk) (limit : Option Nat) (q : QuerySettings)
    (id : QueryId) (authorizations : Authorizations) (log : Log) (metrics : Metrics) (now : Nat) :
    let r := start scenario.collaborators chunks limit q id authorizations
      { env := scenario.basePass, log, metrics, now }
    ∃ cap, (∀ other, Limit.Applies limit q other ↔ other = cap) ∧
      match scenario.outcome chunks cap q id authorizations with
      | .error e => r.1 = .error e
      | .ok items => ∃ s, r.1 = .ok s ∧ ∀ n, items.length < n →
          let calls := s.take scenario.collaborators n r.2
          calls.1 = items.map some ++ [none] ∧ calls.2.1.finished = true := by
  intro r
  refine ⟨Limit.inEffect limit q, ?_, ?_⟩
  · intro other
    exact Limit.applies_iff
  · exact start_inEffect scenario chunks limit q id authorizations log metrics now

end ChunkStream
end ShardQuery
