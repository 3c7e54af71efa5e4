import ShardQuery.Proofs.Chunked.LimitInEffect
import ShardQuery.Proofs.Chunked.TracedRun

/-!
# One cursor at a time

However the collaborators behave, and whatever is done with a stream once it is started, its trace
is orderly. The cursor that is open is the one of the session that the stream holds, and a stream
that did not start, has finished or was given up holds none.
-/

namespace ShardQuery

open CursorTrace

variable {σ κ χ : Type}

private theorem leads_askPlan (c : Collaborators σ κ χ) (q : QuerySettings)
    (authorizations : Authorizations) {w : World (Traced σ)} (h : Leads w.env.trace none) :
    Leads (w.ask (c.traced.plan q authorizations)).2.env.trace none :=
  h.call rfl

private theorem leads_askChunk (c : Collaborators σ κ χ) (state : χ) {w : World (Traced σ)}
    (h : Leads w.env.trace none) :
    Leads (w.ask (c.traced.partition.next state)).2.env.trace none :=
  h.call rfl

private theorem leads_askScan (store : ScanStore σ κ) (table : String)
    (authorizations : Authorizations) (ranges : List RowRange) {w : World (Traced σ)}
    (h : Leads w.env.trace none) :
    Leads (w.ask (store.traced.openScan table authorizations ranges)).2.env.trace
      ((w.ask (store.traced.openScan table authorizations ranges)).1.toOption.map Prod.fst) := by
  have hcall : Leads (w.env.trace ++ [.askScan]) none := h.call rfl
  dsimp only [World.ask, ScanStore.traced]
  cases (store.openScan table authorizations ranges w.env.env).value with
  | error e => exact hcall
  | ok cursor => exact hcall.opened

namespace Session

/-- The number of the cursor that a session has open. -/
def held (s : Session (Nat × κ)) : Option Nat := s.cursor.map Prod.fst

private theorem leads_start (store : ScanStore σ κ) (table : String)
    (authorizations : Authorizations) (ranges : List RowRange) (counted : Bool)
    {w : World (Traced σ)} (h : Leads w.env.trace none) :
    let r := start store.traced table authorizations ranges counted w
    Leads r.2.env.trace (r.1.toOption.bind held) := by
  unfold start
  split
  · exact h
  · have hscan := leads_askScan store table authorizations ranges h
    generalize w.ask (store.traced.openScan table authorizations ranges) = reply at hscan ⊢
    obtain ⟨answer, w'⟩ := reply
    cases answer with
    | error e => exact hscan
    | ok cursor =>
      dsimp only [reportOpened, tally]
      split <;> exact hscan

private theorem leads_next (store : ScanStore σ κ) {s : Session (Nat × κ)} {w : World (Traced σ)}
    (h : Leads w.env.trace s.held) :
    let r := s.next store.traced w
    Leads r.2.2.env.trace r.2.1.held := by
  unfold next
  cases hcursor : s.cursor with
  | none => simpa [held, hcursor] using h
  | some cursor =>
    have hopen : Leads w.env.trace (some cursor.1) := by simpa [held, hcursor] using h
    exact hopen.pulled

private theorem leads_close (store : ScanStore σ κ) {s : Session (Nat × κ)} {w : World (Traced σ)}
    (h : Leads w.env.trace s.held) :
    let r := s.close store.traced w
    Leads r.2.env.trace none ∧ r.1.cursor = none := by
  unfold close
  cases hcursor : s.cursor with
  | none => exact ⟨by simpa [held, hcursor] using h, hcursor⟩
  | some cursor =>
    have hopen : Leads w.env.trace (some cursor.1) := by simpa [held, hcursor] using h
    refine ⟨?_, rfl⟩
    dsimp only [reportClosed, tally]
    split <;> exact hopen.released

end Session

private theorem Observation.leads_run (store : ScanStore σ κ) (o : Observation σ χ)
    {s : Session (Nat × κ)} {w : World (Traced σ)} (h : Leads w.env.trace s.held) :
    let r := o.traced.run store.traced s w
    Leads r.2.2.env.trace r.2.1.held := by
  induction o generalizing s w with
  | finish outcome state => exact h
  | pull onItem ih => exact ih _ (Session.leads_next store h)
  | close rest ih =>
    -- the session stays lent out, without a cursor
    obtain ⟨hclosed, hcursor⟩ := Session.leads_close store h
    have hagain : Leads (s.close store.traced w).2.env.trace (s.close store.traced w).1.held := by
      rw [Session.held, hcursor]
      exact hclosed
    exact ih hagain
  | act effect rest ih => exact ih h
  | cancel rest ih => exact ih h

namespace ChunkStream

def held (s : ChunkStream (Nat × κ) χ) : Option Nat := s.session.bind Session.held

private theorem leads_closeSession (c : Collaborators σ κ χ) {s : ChunkStream (Nat × κ) χ}
    {w : World (Traced σ)} (h : Leads w.env.trace s.held) :
    Leads (s.closeSession c.traced w).2.env.trace none := by
  unfold closeSession
  cases hsession : s.session with
  | none => simpa [held, hsession] using h
  | some session =>
    have hheld : Leads w.env.trace session.held := by simpa [held, hsession] using h
    exact (Session.leads_close c.store hheld).1

private theorem leads_completeChunk (c : Collaborators σ κ χ) {s : ChunkStream (Nat × κ) χ}
    {w : World (Traced σ)} (h : Leads w.env.trace s.held) :
    Leads (s.completeChunk c.traced w).2.env.trace none :=
  leads_closeSession c h

private theorem leads_skipChunk (c : Collaborators σ κ χ) (e : ScanError)
    {s : ChunkStream (Nat × κ) χ} {w : World (Traced σ)} (h : Leads w.env.trace s.held) :
    Leads (s.skipChunk c.traced e w).2.env.trace none :=
  leads_closeSession c h

private theorem leads_interrupt (c : Collaborators σ κ χ) (reason : String)
    {s : ChunkStream (Nat × κ) χ} {w : World (Traced σ)} (h : Leads w.env.trace s.held) :
    Leads (s.interrupt c.traced reason w).2.env.trace none :=
  leads_closeSession c (s := { s with interrupted := true }) h

private theorem leads_fail (c : Collaborators σ κ χ) (e : ScanError) {s : ChunkStream (Nat × κ) χ}
    {w : World (Traced σ)} (h : Leads w.env.trace s.held) :
    Leads (s.fail c.traced e w).2.env.trace none := by
  unfold fail
  split
  · exact leads_interrupt c e.reason h
  · exact leads_closeSession c h

private theorem leads_openChunk (c : Collaborators σ κ χ) (q : QuerySettings)
    (s : ChunkStream (Nat × κ) χ) {w : World (Traced σ)} (h : Leads w.env.trace none) :
    let r := s.openChunk c.traced q w
    Leads r.2.env.trace (r.1.toOption.bind fun opened => opened.2.bind Session.held) := by
  unfold openChunk
  have hplan := leads_askPlan c q.forChunk s.authorizations h
  generalize w.ask (c.traced.plan q.forChunk s.authorizations) = reply at hplan ⊢
  obtain ⟨answer, w'⟩ := reply
  cases answer with
  | error e => exact hplan
  | ok plan =>
    dsimp only
    split
    · have hstart := Session.leads_start c.store plan.table plan.authorizations plan.ranges true hplan
      rw [Collaborators.store_traced]
      generalize Session.start c.store.traced plan.table plan.authorizations plan.ranges true w' =
        reply at hstart ⊢
      obtain ⟨answer, w''⟩ := reply
      cases answer with
      | error e => exact hstart
      | ok session => exact hstart
    · exact hplan

private theorem leads_startChunk (c : Collaborators σ κ χ) (q : QuerySettings)
    {s : ChunkStream (Nat × κ) χ} (hs : s.session = none) {w : World (Traced σ)}
    (h : Leads w.env.trace none) :
    let r := s.startChunk c.traced q w
    Leads r.2.2.env.trace r.2.1.held ∧ r.2.1.finished = s.finished ∧
      (r.1.toOption = none → r.2.1.session = none) := by
  dsimp only [startChunk]
  have hopen := leads_openChunk c q { s with chunk := s.chunk + 1, chunkEntries := 0 } h
  generalize openChunk c.traced q { s with chunk := s.chunk + 1, chunkEntries := 0 } w =
    reply at hopen ⊢
  obtain ⟨answer, w'⟩ := reply
  cases answer with
  | error e =>
    have hnone : Leads w'.env.trace none := hopen
    refine ⟨?_, rfl, fun _ => hs⟩
    simpa [held, hs] using hnone
  | ok opened =>
    obtain ⟨plan, session⟩ := opened
    dsimp only
    split
    · exact ⟨hopen, rfl, fun hnone => by cases hnone⟩
    · rw [completeChunk_fst]
      exact ⟨leads_completeChunk c hopen, rfl, fun _ => rfl⟩

/-- What holds between calls: the trace leads to the cursor of the chunk in progress, and a
finished stream has no chunk in progress. -/
structure Tidy (s : ChunkStream (Nat × κ) χ) (w : World (Traced σ)) : Prop where
  leads : Leads w.env.trace s.held
  session_eq : s.finished = true → s.session = none

namespace Tidy

private theorem close (c : Collaborators σ κ χ) {s : ChunkStream (Nat × κ) χ}
    {w : World (Traced σ)} (h : s.Tidy w) :
    (s.close c.traced w).1.Tidy (s.close c.traced w).2 := by
  rw [close_fst]
  exact ⟨leads_closeSession c h.leads, fun _ => rfl⟩

private theorem interrupt (c : Collaborators σ κ χ) (reason : String)
    {s : ChunkStream (Nat × κ) χ} {w : World (Traced σ)} (h : s.Tidy w) :
    (s.interrupt c.traced reason w).1.Tidy (s.interrupt c.traced reason w).2 := by
  rw [interrupt_fst]
  exact ⟨leads_interrupt c reason h.leads, fun _ => rfl⟩

private theorem fail (c : Collaborators σ κ χ) (e : ScanError) {s : ChunkStream (Nat × κ) χ}
    {w : World (Traced σ)} (h : Leads w.env.trace s.held) :
    (s.fail c.traced e w).1.Tidy (s.fail c.traced e w).2 := by
  rw [fail_fst]
  exact ⟨leads_fail c e h, fun _ => rfl⟩

private theorem pull (c : Collaborators σ κ χ) {s : ChunkStream (Nat × κ) χ}
    {w : World (Traced σ)} (h : s.Tidy w) (hs : s.finished = false) :
    let r := s.pull c.traced w
    r.2.1.Tidy r.2.2 ∧ (r.1 = none → r.2.1.session = none ∧ r.2.1.finished = false) := by
  unfold ChunkStream.pull
  cases hsession : s.session with
  | none => exact ⟨h, fun _ => ⟨hsession, hs⟩⟩
  | some session =>
    have hheld : Leads w.env.trace session.held := by simpa [held, hsession] using h.leads
    have hnext := Session.leads_next c.store hheld
    dsimp only
    rw [Collaborators.store_traced]
    generalize session.next c.store.traced w = reply at hnext ⊢
    obtain ⟨item, session', w'⟩ := reply
    cases item with
    | none =>
      dsimp only
      rw [completeChunk_fst]
      exact ⟨⟨leads_completeChunk c hnext, fun _ => rfl⟩, fun _ => ⟨rfl, hs⟩⟩
    | some item =>
      cases item with
      | ok entry =>
        refine ⟨⟨hnext, ?_⟩, fun hnone => by cases hnone⟩
        intro hfinished
        cases hs.symm.trans hfinished
      | error e =>
        dsimp only
        split
        · have hskip := leads_skipChunk c e (s := { s with session := some session' }) hnext
          rw [skipChunk_fst]
          exact ⟨⟨hskip, fun _ => rfl⟩, fun _ => ⟨rfl, hs⟩⟩
        · exact ⟨fail c e hnext, fun hnone => by cases hnone⟩

private theorem enter (c : Collaborators σ κ χ) (q : QuerySettings) {s : ChunkStream (Nat × κ) χ}
    (hs : s.session = none) (hfinished : s.finished = false) {w : World (Traced σ)}
    (h : Leads w.env.trace none) :
    let r := s.enter c.traced q w
    r.2.1.Tidy r.2.2 := by
  unfold ChunkStream.enter
  have hstart := leads_startChunk c q hs h
  generalize s.startChunk c.traced q w = reply at hstart ⊢
  obtain ⟨answer, s', w'⟩ := reply
  obtain ⟨hleads, hsame, hnone⟩ := hstart
  cases answer with
  | ok plan =>
    refine ⟨hleads, ?_⟩
    intro hfinished'
    cases hfinished.symm.trans (hsame.symm.trans hfinished')
  | error e =>
    dsimp only
    split
    · rw [skipChunk_fst]
      exact ⟨leads_skipChunk c e hleads, fun _ => rfl⟩
    · exact fail c e hleads

private theorem askChunk (c : Collaborators σ κ χ) {s s₁ : ChunkStream (Nat × κ) χ}
    {w w₁ w₂ : World (Traced σ)} {answer : Option QuerySettings × χ} (h : s.Tidy w)
    (hs : s.finished = false) (hpull : s.pull c.traced w = (none, s₁, w₁))
    (hask : w₁.ask (c.traced.partition.next s₁.partition) = (answer, w₂)) :
    Leads w₂.env.trace none ∧ s₁.session = none ∧ s₁.finished = false := by
  obtain ⟨htidy, hnone⟩ := h.pull c hs
  rw [hpull] at htidy hnone
  obtain ⟨hsession, hfinished⟩ : s₁.session = none ∧ s₁.finished = false := hnone rfl
  have hleads : Leads w₁.env.trace none := by simpa [held, hsession] using htidy.leads
  have hafter := leads_askChunk c s₁.partition hleads
  rw [hask] at hafter
  exact ⟨hafter, hsession, hfinished⟩

private theorem next (c : Collaborators σ κ χ) {s : ChunkStream (Nat × κ) χ}
    {w : World (Traced σ)} (h : s.Tidy w) :
    let r := s.next c.traced w
    r.2.1.Tidy r.2.2 := by
  -- a session that is left was closed before the next chunk is asked for
  fun_induction ChunkStream.next c.traced s w with
  | case1 s w hs => exact h
  | case2 s w hs hcancelled s₁ w₁ hinterrupt =>
    have hafter := h.interrupt c "cancelled"
    rwa [hinterrupt] at hafter
  | case3 s w hs hcancelled hcap s₁ w₁ hclose =>
    have hafter := h.close c
    rwa [hclose] at hafter
  | case4 s w hs hcancelled hcap item s₁ w₁ hpull =>
    have hafter := (h.pull c (Bool.eq_false_iff.2 hs)).1
    rwa [hpull] at hafter
  | case5 s w hs hcancelled hcap s₁ w₁ hpull state w₂ hask =>
    obtain ⟨hleads, hsession, -⟩ := h.askChunk c (Bool.eq_false_iff.2 hs) hpull hask
    refine ⟨?_, fun _ => hsession⟩
    simpa [held, hsession] using hleads
  | case6 s w hs hcancelled hcap s₁ w₁ hpull q state w₂ hask e s₂ w₃ henter =>
    obtain ⟨hleads, hsession, hfinished⟩ := h.askChunk c (Bool.eq_false_iff.2 hs) hpull hask
    have hafter := enter c q (s := { s₁ with partition := state }) hsession hfinished hleads
    rwa [henter] at hafter
  | case7 s w hs hcancelled hcap s₁ w₁ hpull q state w₂ hask s₂ w₃ henter ih =>
    obtain ⟨hleads, hsession, hfinished⟩ := h.askChunk c (Bool.eq_false_iff.2 hs) hpull hask
    have hafter := enter c q (s := { s₁ with partition := state }) hsession hfinished hleads
    rw [henter] at hafter
    exact ih hafter

end Tidy

private theorem leads_observe (c : Collaborators σ κ χ) (plan : Plan) (state : χ)
    {w : World (Traced σ)} (h : Leads w.env.trace none) :
    Leads (observe c.traced plan state w).2.env.trace none := by
  unfold observe
  have hstart := Session.leads_start c.store plan.table plan.authorizations plan.ranges true h
  rw [Collaborators.store_traced]
  generalize Session.start c.store.traced plan.table plan.authorizations plan.ranges true w =
    reply at hstart ⊢
  obtain ⟨answer, w₁⟩ := reply
  cases answer with
  | error e => exact hstart
  | ok session =>
    have hrun := Observation.leads_run c.store (c.partition.observe plan state) hstart
    exact (Session.leads_close c.store hrun).1

private theorem leads_basePass (c : Collaborators σ κ χ) (base : QuerySettings)
    (authorizations : Authorizations) (state : χ) {w : World (Traced σ)}
    (h : Leads w.env.trace none) :
    Leads (basePass c.traced base authorizations state w).2.env.trace none := by
  unfold basePass
  have hplan := leads_askPlan c base authorizations
    (w := w.report .basePassStarted [("query", base.name)]) h
  generalize (w.report .basePassStarted [("query", base.name)]).ask
    (c.traced.plan base authorizations) = reply at hplan ⊢
  obtain ⟨answer, w₁⟩ := reply
  cases answer with
  | error e => exact hplan
  | ok plan =>
    dsimp only
    split
    · exact leads_observe c plan state hplan
    · exact hplan

private theorem leads_firstChunk (c : Collaborators σ κ χ) (base : QuerySettings) (state : χ)
    {w : World (Traced σ)} (h : Leads w.env.trace none) :
    Leads (firstChunk c.traced base state w).2.2.env.trace none := by
  unfold firstChunk
  have hask := leads_askChunk c state h
  generalize w.ask (c.traced.partition.next state) = reply at hask ⊢
  obtain ⟨⟨q, state'⟩, w₁⟩ := reply
  cases q with
  | none => exact hask
  | some q => exact hask

def TidyLive (live : Option (ChunkStream (Nat × κ) χ)) (w : World (Traced σ)) : Prop :=
  match live with
  | none => Leads w.env.trace none
  | some s => s.Tidy w

private theorem tidy_openFirst (c : Collaborators σ κ χ) (base : QuerySettings)
    (authorizations : Authorizations) (remaining : Option Nat) (state : χ)
    {w : World (Traced σ)} (h : Leads w.env.trace none) :
    let r := openFirst c.traced base authorizations remaining state w
    TidyLive r.1.toOption r.2 := by
  unfold openFirst
  have hfirst := leads_firstChunk c base state h
  generalize firstChunk c.traced base state w = first at hfirst ⊢
  obtain ⟨q, state', w₁⟩ := first
  dsimp only
  have hstart := leads_startChunk c q (s := unstarted base authorizations remaining state') rfl hfirst
  generalize startChunk c.traced q _ w₁ = reply at hstart ⊢
  obtain ⟨answer, s, w₂⟩ := reply
  obtain ⟨hleads, hfinished, hnone⟩ := hstart
  cases answer with
  | error e =>
    have hsession : s.session = none := hnone rfl
    have hclosed : Leads w₂.env.trace none := by simpa [held, hsession] using hleads
    exact hclosed
  | ok plan =>
    refine ⟨hleads, ?_⟩
    intro hfinished'
    cases hfinished.symm.trans hfinished'

private theorem tidy_prepare (c : Collaborators σ κ χ) (state : χ) (limit : Option Nat)
    (base : QuerySettings) (authorizations : Authorizations) {w : World (Traced σ)}
    (h : Leads w.env.trace none) :
    let r := prepare c.traced state limit base authorizations w
    TidyLive r.1.toOption r.2 := by
  unfold prepare
  have hbased : Leads (w.ask (c.traced.partition.setBase base state)).2.env.trace none := h
  generalize w.ask (c.traced.partition.setBase base state) = reply at hbased ⊢
  obtain ⟨state₁, w₁⟩ := reply
  dsimp only at hbased ⊢
  have hlimit : Leads (Limit.resolve limit base w₁).2.env.trace none := by
    rw [Limit.resolve_snd]
    exact hbased
  generalize Limit.resolve limit base w₁ = resolved at hlimit ⊢
  obtain ⟨remaining, w₂⟩ := resolved
  dsimp only at hlimit ⊢
  split
  · have hpass := leads_basePass c base authorizations state₁ hlimit
    generalize basePass c.traced base authorizations state₁ w₂ = pass at hpass ⊢
    obtain ⟨answer, w₃⟩ := pass
    cases answer with
    | error e => exact hpass
    | ok outcome =>
      cases outcome with
      | inl plan => exact ⟨hpass, fun _ => rfl⟩
      | inr state₂ => exact tidy_openFirst c base authorizations remaining state₂ hpass
  · exact tidy_openFirst c base authorizations remaining state₁ hlimit

private theorem tidy_start (c : Collaborators σ κ χ) (state : χ) (limit : Option Nat)
    (q : QuerySettings) (id : QueryId) (authorizations : Authorizations) {w : World (Traced σ)}
    (h : Leads w.env.trace none) :
    let r := start c.traced state limit q id authorizations w
    TidyLive r.1.toOption r.2 := by
  dsimp only [start]
  generalize Log.Scope.enter Log.Event.queryInitialize.name
    [("query", q.name), ("query_id", q.id.text)] w.now w.log = entered
  have hprepare := tidy_prepare c state limit (baseOf q id) authorizations
    (w := { w with log := entered.2 }) h
  generalize prepare c.traced state limit (baseOf q id) authorizations
    { w with log := entered.2 } = prepared at hprepare ⊢
  obtain ⟨answer, w₁⟩ := prepared
  cases answer with
  | error e => exact hprepare
  | ok s => exact ⟨hprepare.leads, hprepare.session_eq⟩

private theorem TidyLive.step (c : Collaborators σ κ χ) (step : StreamStep)
    {live : Option (ChunkStream (Nat × κ) χ)} {w : World (Traced σ)} (h : TidyLive live w) :
    let r := step.run c.traced (live, w)
    TidyLive r.1 r.2 := by
  cases live with
  | none => cases step <;> exact h
  | some s =>
    have htidy : s.Tidy w := h
    cases step with
    | next => exact htidy.next c
    | cancel => exact ⟨htidy.leads, htidy.session_eq⟩
    | close => exact htidy.close c
    | drop => exact leads_closeSession c htidy.leads

private theorem TidyLive.steps (c : Collaborators σ κ χ) (steps : List StreamStep)
    {live : Option (ChunkStream (Nat × κ) χ)} {w : World (Traced σ)} (h : TidyLive live w) :
    let r := steps.foldl (fun live step => step.run c.traced live) (live, w)
    TidyLive r.1 r.2 := by
  induction steps generalizing live w with
  | nil => exact h
  | cons step steps ih => exact ih (h.step c step)

/-- Any collaborators, in any state and cancelled or not, and any steps. The run can be traced, and
its trace is orderly. When the query did not start, or the stream was dropped or is finished, no
cursor is open and every one that was opened was released once. -/
theorem runFrom_orderly (c : Collaborators σ κ χ) (state : χ) (limit : Option Nat)
    (q : QuerySettings) (id : QueryId) (authorizations : Authorizations) (w : World σ)
    (steps : List StreamStep) :
    let r := runFrom c.traced state limit q id authorizations w.traced steps
    let t := r.2.env.trace
    runFrom c state limit q id authorizations w steps = (r.1.map plain, r.2.plain) ∧
      t.Orderly ∧
      ((∀ s, r.1 = some s → s.finished = true) →
        ∀ n, ¬ t.IsOpen n ∧ (.opened n ∈ t → t.count (.released n) = 1)) := by
  intro r t
  have hstart := tidy_start c state limit q id authorizations (w := w.traced) .nil
  have hlive : TidyLive r.1 r.2 := hstart.steps c steps
  have hleads : ∃ held, Leads t held ∧
      ((∀ s, r.1 = some s → s.finished = true) → held = none) := by
    unfold TidyLive at hlive
    cases hr : r.1 with
    | none =>
      rw [hr] at hlive
      exact ⟨none, hlive, fun _ => rfl⟩
    | some s =>
      rw [hr] at hlive
      refine ⟨s.held, hlive.leads, ?_⟩
      intro hfinished
      rw [held, hlive.session_eq (hfinished s rfl)]
      rfl
  obtain ⟨held, hleads, hnone⟩ := hleads
  refine ⟨runFrom_plain c state limit q id authorizations w.traced steps, hleads.orderly, ?_⟩
  intro hfinished n
  rw [hnone hfinished] at hleads
  constructor
  · rw [hleads.isOpen_iff]
    exact fun h => by cases h
  · intro hmem
    have hopened : t.count (.opened n) ≤ 1 := hleads.orderly.opened n
    have hpos : 0 < t.count (.opened n) := List.count_pos_iff.2 hmem
    exact (hleads.balanced n).trans (Nat.le_antisymm hopened hpos)

end ChunkStream
end ShardQuery
