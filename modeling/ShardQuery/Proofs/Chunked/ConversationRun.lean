import ShardQuery.Proofs.Chunked.ChunkCalls
import ShardQuery.Proofs.Chunked.Conversation
import ShardQuery.Proofs.Chunked.LimitInEffect

/-!
# Runs and what they ask

Whatever the collaborators answer, the record of a run is a prologue and rounds after it. Reading
an open cursor and releasing it only adds readings, so a run asks for something only when it starts
and when it enters a chunk.
-/

namespace ShardQuery

variable {σ κ χ : Type}

def World.ReadsOn (w w' : World (Recorded σ)) : Prop :=
  ∃ readings, Readings readings ∧ w'.env.calls = w.env.calls ++ readings

namespace World.ReadsOn

variable {w w' w'' : World (Recorded σ)}

theorem of_eq (h : w'.env.calls = w.env.calls) : w.ReadsOn w' :=
  ⟨[], List.forall_mem_nil _, h.trans (List.append_nil _).symm⟩

theorem trans (h : w.ReadsOn w') (h' : w'.ReadsOn w'') : w.ReadsOn w'' := by
  obtain ⟨readings, hreadings, hcalls⟩ := h
  obtain ⟨further, hfurther, hcalls'⟩ := h'
  refine ⟨readings ++ further, List.forall_mem_append.2 ⟨hreadings, hfurther⟩, ?_⟩
  rw [hcalls', hcalls, List.append_assoc]

end World.ReadsOn

namespace Session

variable (store : ScanStore σ κ) (s : Session κ) (w : World (Recorded σ))

theorem next_readsOn : w.ReadsOn (s.next store.recorded w).2.2 := by
  unfold next
  split
  · exact .of_eq rfl
  · exact ⟨[.pulled _], .singleton rfl, rfl⟩

theorem close_readsOn : w.ReadsOn (s.close store.recorded w).2 := by
  unfold close
  split
  · exact .of_eq rfl
  · refine ⟨[.released], .singleton rfl, ?_⟩
    dsimp only [reportClosed, tally]
    split <;> rfl

end Session

theorem Observation.run_readsOn (store : ScanStore σ κ) (o : Observation σ χ) (s : Session κ)
    (w : World (Recorded σ)) : w.ReadsOn (o.recorded.run store.recorded s w).2.2 := by
  induction o generalizing s w with
  | finish outcome state => exact .of_eq rfl
  | pull onItem ih => exact (s.next_readsOn store w).trans (ih _ _ _)
  | close rest ih => exact (s.close_readsOn store w).trans (ih _ _)
  | act effect rest ih => exact ih s { w with env := { w.env with env := effect w.env.env } }
  | cancel rest ih => exact ih s w.cancel

namespace ChunkStream

variable (c : Collaborators σ κ χ) (s : ChunkStream κ χ) (w : World (Recorded σ))

theorem closeSession_readsOn : w.ReadsOn (s.closeSession c.recorded w).2 := by
  unfold closeSession
  split
  · exact .of_eq rfl
  · exact Session.close_readsOn ..

theorem fail_readsOn (e : ScanError) : w.ReadsOn (s.fail c.recorded e w).2 := by
  unfold fail
  split
  · exact closeSession_readsOn c { s with interrupted := true } w
  · exact closeSession_readsOn c s w

theorem pull_readsOn :
    let r := s.pull c.recorded w
    w.ReadsOn r.2.2 ∧ r.2.1.authorizations = s.authorizations := by
  unfold pull
  cases s.session with
  | none => exact ⟨.of_eq rfl, rfl⟩
  | some session =>
    dsimp only
    have hnext := session.next_readsOn c.store w
    rw [Collaborators.store_recorded]
    generalize session.next c.store.recorded w = reply at hnext ⊢
    obtain ⟨item, session', w₁⟩ := reply
    cases item with
    | none =>
      dsimp only
      rw [completeChunk_fst]
      exact ⟨hnext.trans (closeSession_readsOn c { s with session := some session' } w₁), rfl⟩
    | some item =>
      cases item with
      | ok entry => exact ⟨hnext, rfl⟩
      | error e =>
        dsimp only
        split
        · rw [skipChunk_fst]
          exact ⟨hnext.trans (closeSession_readsOn c { s with session := some session' } w₁), rfl⟩
        · rw [fail_fst]
          exact ⟨hnext.trans (fail_readsOn c { s with session := some session' } w₁ e), rfl⟩

end ChunkStream

variable {i : Inquiry} {wants closed : Bool} {calls : List Call}

theorem Rounds.readings (h : Rounds i calls closed) {readings : List Call}
    (hreadings : Readings readings) : Rounds i (calls ++ readings) closed := by
  induction readings generalizing calls with
  | nil => rwa [List.append_nil]
  | cons call readings ih =>
    rw [List.append_cons]
    exact ih (h.read (hreadings call List.mem_cons_self))
      fun call hcall => hreadings call (List.mem_cons_of_mem _ hcall)

/-- The record of a run that is conducted well, and whether the partition may not be asked again. -/
def Conversed (i : Inquiry) (wants : Bool) (calls : List Call) (closed : Bool) : Prop :=
  ∃ prologue rounds, calls = prologue ++ rounds ∧ Prologue i wants prologue ∧ Rounds i rounds closed

namespace Conversed

variable {w w' : World (Recorded σ)}

theorem unasked (h : Prologue i wants calls) : Conversed i wants calls true :=
  ⟨calls, [], (List.append_nil _).symm, h, .unasked⟩

theorem first (h : Prologue i wants calls) (chunk : Option QuerySettings) {later : List Call}
    {f : Fate} (hturn : Fate.Turn i (.waiting chunk) later f) :
    Conversed i wants (calls ++ .asked chunk :: later) false :=
  ⟨calls, _, rfl, h, .first chunk hturn⟩

theorem further (h : Conversed i wants calls false) (q : QuerySettings) {later : List Call}
    {f : Fate} (hturn : Fate.Turn i (.waiting (some q)) later f) :
    Conversed i wants (calls ++ .asked (some q) :: later) false := by
  obtain ⟨prologue, rounds, rfl, hprologue, hrounds⟩ := h
  exact ⟨prologue, _, List.append_assoc .., hprologue, hrounds.further q hturn⟩

theorem last (h : Conversed i wants calls false) :
    Conversed i wants (calls ++ [.asked none]) true := by
  obtain ⟨prologue, rounds, rfl, hprologue, hrounds⟩ := h
  exact ⟨prologue, _, List.append_assoc .., hprologue, hrounds.last⟩

theorem readsOn (h : Conversed i wants w.env.calls closed) (hreads : w.ReadsOn w') :
    Conversed i wants w'.env.calls closed := by
  obtain ⟨prologue, rounds, hcalls, hprologue, hrounds⟩ := h
  obtain ⟨readings, hreadings, hcalls'⟩ := hreads
  refine ⟨prologue, _, ?_, hprologue, hrounds.readings hreadings⟩
  rw [hcalls', hcalls, List.append_assoc]

end Conversed

/-- A run under way: a partition that may not be asked again is not, since its stream, if there is
one left, has finished. -/
def Conducts (i : Inquiry) (wants : Bool) (live : Option (ChunkStream κ χ))
    (w : World (Recorded σ)) : Prop :=
  ∃ closed, Conversed i wants w.env.calls closed ∧
    ∀ s ∈ live, i.authorizations = s.authorizations ∧ (closed = true → s.finished = true)

namespace Conducts

variable {s : ChunkStream κ χ} {w : World (Recorded σ)}

theorem going (h : Conversed i wants w.env.calls false)
    (hs : i.authorizations = s.authorizations) : Conducts i wants (some s) w := by
  refine ⟨false, h, ?_⟩
  rintro _ ⟨⟩
  exact ⟨hs, fun hclosed => by cases hclosed⟩

theorem finished (h : Conversed i wants w.env.calls closed)
    (hs : i.authorizations = s.authorizations) (hfinished : s.finished = true) :
    Conducts i wants (some s) w := by
  refine ⟨closed, h, ?_⟩
  rintro _ ⟨⟩
  exact ⟨hs, fun _ => hfinished⟩

theorem gone (h : Conversed i wants w.env.calls closed) :
    Conducts i wants (none : Option (ChunkStream κ χ)) w :=
  ⟨closed, h, fun s hs => by cases hs⟩

theorem of_unfinished (h : Conducts i wants (some s) w) (hs : ¬ s.finished = true) :
    Conversed i wants w.env.calls false ∧ i.authorizations = s.authorizations := by
  obtain ⟨closed, hconversed, hlive⟩ := h
  obtain ⟨hauthorizations, hfinished⟩ := hlive s rfl
  cases closed with
  | false => exact ⟨hconversed, hauthorizations⟩
  | true => exact absurd (hfinished rfl) hs

end Conducts

namespace ChunkStream

variable (c : Collaborators σ κ χ)

/-- A chunk is planned as soon as it is entered, and nothing else is asked for. -/
private theorem enter_asked {q : QuerySettings} {s s' : ChunkStream κ χ}
    {w w' : World (Recorded σ)} {failure : Option ScanError}
    (hs : i.authorizations = s.authorizations)
    (h : s.enter c.recorded q w = (failure, s', w')) :
    (∃ (later : List Call) (f : Fate) (w₁ : World (Recorded σ)), Fate.Turn i (.waiting (some q)) later f ∧
      w₁.env.calls = w.env.calls ++ later ∧ w₁.ReadsOn w') ∧
      i.authorizations = s'.authorizations := by
  unfold enter at h
  have hq : i.query (some q) = q.forChunk := rfl
  generalize hstart : s.startChunk c.recorded q w = reply at h
  obtain ⟨answer, s₁, w₁⟩ := reply
  cases answer with
  | ok plan =>
    obtain ⟨session, later, f, rfl, hturn, hcalls, -⟩ := startChunk_ok hq hs hstart
    cases h
    exact ⟨⟨later, f, w', hturn, hcalls, .of_eq rfl⟩, hs⟩
  | error e =>
    obtain ⟨later, rfl, hturn, hcalls, -⟩ := startChunk_error hq hs hstart
    dsimp only at h
    split at h
    · cases h
      rw [skipChunk_fst]
      exact ⟨⟨later, _, w₁, hturn, hcalls, closeSession_readsOn ..⟩, hs⟩
    · cases h
      rw [fail_fst]
      exact ⟨⟨later, _, w₁, hturn, hcalls, fail_readsOn ..⟩, hs⟩

private theorem calls_ask {state state' : χ} {chunk : Option QuerySettings}
    {w w' : World (Recorded σ)}
    (h : w.ask (c.recorded.partition.next state) = ((chunk, state'), w')) :
    w'.env.calls = w.env.calls ++ [.asked chunk] := by
  obtain ⟨hanswer, rfl⟩ := Prod.mk.inj h
  exact congrArg (fun answer => w.env.calls ++ [Call.asked answer.1]) hanswer

private theorem conversed_enter {s s₁ s₂ : ChunkStream κ χ} {w w₁ w₂ w₃ : World (Recorded σ)}
    {q : QuerySettings} {state : χ} {failure : Option ScanError}
    (h : Conducts i wants (some s) w) (hs : ¬ s.finished = true)
    (hpull : s.pull c.recorded w = (none, s₁, w₁))
    (hask : w₁.ask (c.recorded.partition.next s₁.partition) = ((some q, state), w₂))
    (henter : { s₁ with partition := state }.enter c.recorded q w₂ = (failure, s₂, w₃)) :
    Conducts i wants (some s₂) w₃ := by
  obtain ⟨hconversed, hauthorizations⟩ := h.of_unfinished hs
  obtain ⟨hreads, hsame⟩ := s.pull_readsOn c w
  rw [hpull] at hreads hsame
  obtain ⟨⟨later, f, w', hturn, hcalls, hrest⟩, hentered⟩ :=
    enter_asked c (s := { s₁ with partition := state }) (hauthorizations.trans hsame.symm) henter
  rw [calls_ask c hask, List.append_assoc] at hcalls
  have hafter : Conversed i wants w'.env.calls false := by
    rw [hcalls]
    exact (hconversed.readsOn hreads).further q hturn
  exact .going (hafter.readsOn hrest) hentered

theorem next_conducts {s : ChunkStream κ χ} {w : World (Recorded σ)}
    (h : Conducts i wants (some s) w) :
    Conducts i wants (some (s.next c.recorded w).2.1) (s.next c.recorded w).2.2 := by
  fun_induction next c.recorded s w with
  | case1 s w hs => exact h
  | case2 s w hs hcancelled s₁ w₁ hinterrupt =>
    obtain ⟨hconversed, hauthorizations⟩ := h.of_unfinished hs
    have hreads : w.ReadsOn (s.interrupt c.recorded "cancelled" w).2 :=
      closeSession_readsOn c { s with interrupted := true } w
    have hfst := interrupt_fst c.recorded "cancelled" s w
    rw [hinterrupt] at hreads hfst
    obtain rfl := hfst
    exact .finished (hconversed.readsOn hreads) hauthorizations rfl
  | case3 s w hs hcancelled hcap s₁ w₁ hclose =>
    obtain ⟨hconversed, hauthorizations⟩ := h.of_unfinished hs
    have hreads : w.ReadsOn (s.close c.recorded w).2 := closeSession_readsOn c s w
    have hfst := close_fst c.recorded s w
    rw [hclose] at hreads hfst
    obtain rfl := hfst
    exact .finished (hconversed.readsOn hreads) hauthorizations rfl
  | case4 s w hs hcancelled hcap item s₁ w₁ hpull =>
    obtain ⟨hconversed, hauthorizations⟩ := h.of_unfinished hs
    obtain ⟨hreads, hsame⟩ := s.pull_readsOn c w
    rw [hpull] at hreads hsame
    exact .going (hconversed.readsOn hreads) (hauthorizations.trans hsame.symm)
  | case5 s w hs hcancelled hcap s₁ w₁ hpull state w₂ hask =>
    obtain ⟨hconversed, hauthorizations⟩ := h.of_unfinished hs
    obtain ⟨hreads, hsame⟩ := s.pull_readsOn c w
    rw [hpull] at hreads hsame
    have hlast : Conversed i wants w₂.env.calls true := by
      rw [calls_ask c hask]
      exact (hconversed.readsOn hreads).last
    exact .finished hlast (hauthorizations.trans hsame.symm) rfl
  | case6 s w hs hcancelled hcap s₁ w₁ hpull q state w₂ hask e s₂ w₃ henter =>
    exact conversed_enter c h hs hpull hask henter
  | case7 s w hs hcancelled hcap s₁ w₁ hpull q state w₂ hask s₂ w₃ henter ih =>
    exact ih (conversed_enter c h hs hpull hask henter)

private theorem observe_prologue {w : World (Recorded σ)} {plan : Plan} (state : χ)
    (hwants : wants = true) (hplan : plan.hasWork = true)
    (hcalls : w.env.calls = [.based i.base, .planned i.base i.authorizations (.ok plan)]) :
    Prologue i wants (observe c.recorded plan state w).2.env.calls := by
  unfold observe
  rw [Collaborators.store_recorded]
  obtain ⟨hscan, -⟩ := Session.start_recorded c.store hplan w
  rw [hcalls] at hscan
  generalize Session.start c.store.recorded plan.table plan.authorizations plan.ranges true w =
    reply at hscan ⊢
  obtain ⟨answer, w₁⟩ := reply
  cases answer with
  | error e =>
    dsimp only at hscan ⊢
    rw [hscan]
    exact .refused hwants plan e
  | ok session =>
    -- what is shown to the partition is on record before it pulls
    let shown : World (Recorded σ) :=
      { w₁ with env := { w₁.env with calls := w₁.env.calls ++ [.observed plan] } }
    let watched := (c.partition.observe plan state).recorded.run c.store.recorded session shown
    have hreads : shown.ReadsOn (watched.2.1.close c.store.recorded watched.2.2).2 :=
      (Observation.run_readsOn ..).trans (Session.close_readsOn ..)
    obtain ⟨readings, hreadings, hafter⟩ := hreads
    have hshown : shown.env.calls = [.based i.base, .planned i.base i.authorizations (.ok plan),
        .scanned plan.table plan.authorizations plan.ranges none, .observed plan] :=
      congrArg (· ++ [Call.observed plan]) hscan
    rw [hshown] at hafter
    exact hafter ▸ .observed hwants hplan hreadings

private theorem basePass_prologue {w : World (Recorded σ)} (state : χ) (hwants : wants = true)
    (hcalls : w.env.calls = [.based i.base]) :
    Prologue i wants (basePass c.recorded i.base i.authorizations state w).2.env.calls := by
  unfold basePass
  generalize hask : (w.report .basePassStarted [("query", i.base.name)]).ask
    (c.recorded.plan i.base i.authorizations) = reply
  obtain ⟨answer, w₁⟩ := reply
  have hplanned : w₁.env.calls = [.based i.base, .planned i.base i.authorizations answer] := by
    cases hask
    exact congrArg (· ++ _) hcalls
  have hprologue : Prologue i wants w₁.env.calls := hplanned ▸ .planned hwants answer
  cases answer with
  | error e => exact hprologue
  | ok plan =>
    dsimp only
    split
    · next hplan => exact observe_prologue c state hwants hplan hplanned
    · exact hprologue

private theorem openFirst_conducts {w : World (Recorded σ)} (cap : Option Nat) (state : χ)
    (h : Prologue i wants w.env.calls) :
    let r := openFirst c.recorded i.base i.authorizations cap state w
    Conducts i wants r.1.toOption r.2 := by
  unfold openFirst
  obtain ⟨chunk, hq, hasked, -⟩ := firstChunk_recorded c i state w
  generalize firstChunk c.recorded i.base state w = first at hq hasked ⊢
  obtain ⟨q, state', w₁⟩ := first
  dsimp only at hq hasked ⊢
  generalize hstart : startChunk c.recorded q (unstarted i.base i.authorizations cap state') w₁ =
    reply
  obtain ⟨answer, s, w₂⟩ := reply
  cases answer with
  | error e =>
    obtain ⟨later, -, hturn, hcalls, -⟩ := startChunk_error hq rfl hstart
    rw [hasked, List.append_assoc] at hcalls
    have hafter : Conversed i wants w₂.env.calls false := hcalls ▸ .first h chunk hturn
    exact .gone hafter
  | ok plan =>
    obtain ⟨session, later, f, rfl, hturn, hcalls, -⟩ := startChunk_ok hq rfl hstart
    rw [hasked, List.append_assoc] at hcalls
    exact .going (hcalls ▸ .first h chunk hturn) rfl

private theorem prepare_conducts (state : χ) (limit : Option Nat) {w : World (Recorded σ)}
    (hcalls : w.env.calls = []) :
    let r := prepare c.recorded state limit i.base i.authorizations w
    Conducts i (c.partition.wantsBasePass (c.partition.setBase i.base state w.env.env).value)
      r.1.toOption r.2 := by
  unfold prepare
  generalize hask : w.ask (c.recorded.partition.setBase i.base state) = reply
  obtain ⟨state₁, w₁⟩ := reply
  have hstate : (c.partition.setBase i.base state w.env.env).value = state₁ :=
    congrArg Prod.fst hask
  have hbased : w₁.env.calls = [.based i.base] := by
    cases hask
    exact congrArg (· ++ _) hcalls
  dsimp only
  rw [hstate, Limit.resolve_snd]
  generalize Limit.resolve limit i.base w₁ = resolved
  have hresolved : ({ w₁ with log := resolved.2.log } : World (Recorded σ)).env.calls =
      [.based i.base] := hbased
  generalize ({ w₁ with log := resolved.2.log } : World (Recorded σ)) = w₂ at hresolved ⊢
  have hwants : c.recorded.partition.wantsBasePass state₁ = c.partition.wantsBasePass state₁ := rfl
  rw [hwants]
  cases hpass : c.partition.wantsBasePass state₁ with
  | false =>
    rw [if_neg Bool.false_ne_true]
    exact openFirst_conducts c resolved.1 state₁ (hresolved ▸ .based rfl)
  | true =>
    rw [if_pos rfl]
    have hprologue :
        Prologue i true (basePass c.recorded i.base i.authorizations state₁ w₂).2.env.calls :=
      basePass_prologue c state₁ rfl hresolved
    generalize basePass c.recorded i.base i.authorizations state₁ w₂ = pass at hprologue ⊢
    obtain ⟨answer, w₃⟩ := pass
    match answer with
    | .error e => exact .gone (.unasked hprologue)
    | .ok (.inl plan) => exact .finished (.unasked hprologue) rfl rfl
    | .ok (.inr state₂) => exact openFirst_conducts c resolved.1 state₂ hprologue

theorem start_conducts (state : χ) (limit : Option Nat) (q : QuerySettings) (id : QueryId)
    (authorizations : Authorizations) (w : World σ) :
    let r := start c.recorded state limit q id authorizations w.recorded
    Conducts (.ofQuery q id authorizations)
      (c.partition.wantsBasePass (c.partition.setBase (baseOf q id) state w.env).value)
      r.1.toOption r.2 := by
  dsimp only [start]
  generalize Log.Scope.enter Log.Event.queryInitialize.name
    [("query", q.name), ("query_id", q.id.text)] w.recorded.now w.recorded.log = entered
  have hprepare := prepare_conducts c (i := .ofQuery q id authorizations) state limit
    (w := { w.recorded with log := entered.2 }) rfl
  dsimp only [Inquiry.ofQuery] at hprepare
  generalize prepare c.recorded state limit (baseOf q id) authorizations
    { w.recorded with log := entered.2 } = prepared at hprepare ⊢
  obtain ⟨answer, w₁⟩ := prepared
  cases answer with
  | error e => exact hprepare
  | ok s => exact hprepare

end ChunkStream

namespace StreamRun

variable (c : Collaborators σ κ χ)

theorem step_conducts {r : StreamRun (Recorded σ) κ χ} (h : Conducts i wants r.live r.world)
    (step : StreamStep) :
    Conducts i wants (r.step c.recorded step).live (r.step c.recorded step).world := by
  obtain ⟨live, w, returned⟩ := r
  cases live with
  | none =>
    cases step <;> exact h
  | some s =>
    cases step with
    | next => exact s.next_conducts c h
    | cancel => exact h
    | close =>
      obtain ⟨closed, hconversed, hlive⟩ := h
      have hreads := s.closeSession_readsOn c w
      dsimp only [StreamRun.step, StreamStep.run]
      rw [ChunkStream.close_fst]
      exact .finished (hconversed.readsOn hreads) (hlive s rfl).1 rfl
    | drop =>
      obtain ⟨closed, hconversed, -⟩ := h
      exact .gone (hconversed.readsOn (s.closeSession_readsOn c w))

/-- A run gives the partition the base query, lets it observe the results if it wants to, and then
asks it for chunks and has them planned, whatever anybody answers. -/
theorem run_conducted (c : Collaborators σ κ χ) (state : χ) (limit : Option Nat)
    (q : QuerySettings) (id : QueryId) (authorizations : Authorizations) (w : World σ)
    (steps : List StreamStep) :
    let r := run c.recorded state limit q id authorizations w.recorded steps
    run c state limit q id authorizations w steps = r.unrecorded ∧
      ∃ base, base.InChunkSyntax { q with id, name := q.name ++ "-chunk" } ∧
        Conducted base authorizations
          (c.partition.wantsBasePass (c.partition.setBase base state w.env).value)
          r.world.env.calls := by
  refine ⟨run_unrecorded .., ChunkStream.baseOf q id, QuerySettings.forChunk_inChunkSyntax _, ?_⟩
  have hrun := run_induct (P := fun r => Conducts (.ofQuery q id authorizations)
    (c.partition.wantsBasePass (c.partition.setBase (ChunkStream.baseOf q id) state w.env).value)
    r.live r.world) c.recorded state limit q id authorizations w.recorded steps
    (ChunkStream.start_conducts c state limit q id authorizations w)
    fun r step _ h => step_conducts c h step
  obtain ⟨closed, ⟨prologue, rounds, hcalls, hprologue, hrounds⟩, -⟩ := hrun
  rw [hcalls]
  exact hprologue.conducted (QuerySettings.forChunk_forChunk _) hrounds

end StreamRun
end ShardQuery
