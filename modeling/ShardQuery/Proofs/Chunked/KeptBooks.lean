import Mathlib.Data.List.TakeWhile
import ShardQuery.Proofs.Chunked.Bookkeeping
import ShardQuery.Proofs.Chunked.LimitInEffect

/-!
# Runs that keep their books

Whatever the collaborators answer, a query that starts has its books in order, and every step of a
run keeps them so. Before the first chunk is asked for only sessions are counted.
-/

namespace ShardQuery

variable {σ κ χ : Type}

/-- No chunk was asked for. -/
def Unasked (calls : List Call) : Prop := ∀ call ∈ calls, call.isAsk = false

theorem Unasked.concat {calls : List Call} (h : Unasked calls) {call : Call}
    (hcall : call.isAsk = false) : Unasked (calls ++ [call]) := by
  intro other hmem
  rcases List.mem_append.1 hmem with hmem | hmem
  · exact h other hmem
  · rwa [List.mem_singleton.1 hmem]

def callsBefore (calls : List Call) : List Call := calls.takeWhile fun call => !call.isAsk

theorem Unasked.callsBefore_eq {calls : List Call} (h : Unasked calls) :
    callsBefore calls = calls := by
  refine List.takeWhile_eq_self_iff.2 fun call hcall => ?_
  rw [h call hcall]
  rfl

def Call.isIdle : Call → Bool
  | planned _ _ (.ok plan) => !plan.hasWork
  | _ => false

structure Prelude (before : Metrics) (w : World (Recorded σ)) : Prop where
  unasked : Unasked w.env.calls
  metrics : ∃ n, w.metrics = before.withSessions n

namespace Prelude

variable {before : Metrics} {w w' : World (Recorded σ)}

theorem call (h : Prelude before w) {call : Call} (hcall : call.isAsk = false)
    (hcalls : w'.env.calls = w.env.calls ++ [call]) (hmetrics : w'.metrics = w.metrics) :
    Prelude before w' where
  unasked := hcalls ▸ h.unasked.concat hcall
  metrics := hmetrics ▸ h.metrics

theorem ledger (h : Prelude before w) (i : Inquiry) :
    Ledger i before w.env.calls w.metrics [] 0 none := by
  have hnil := Chapter.ofCalls_before h.unasked
  obtain ⟨n, hmetrics⟩ := h.metrics
  refine ⟨hnil ▸ .nil, ⟨n, ?_⟩, hnil ▸ rfl, hnil ▸ rfl, fun hlast => ?_⟩
  · rw [hnil, hmetrics]
    rfl
  · cases h.unasked _ (List.mem_of_getLast? hlast)

theorem recorded (w : World σ) : Prelude w.metrics w.recorded where
  unasked call hcall := by cases hcall
  metrics := ⟨0, rfl⟩

end Prelude

structure Lent (before : Metrics) (s : Session κ) (w : World (Recorded σ)) : Prop where
  unasked : Unasked w.env.calls
  counted : s.counted = true
  metrics : ∃ n, w.metrics =
    if s.isOpen then (before.withSessions n).sessionOpened else before.withSessions n

namespace Lent

variable {before : Metrics} {s : Session κ} {w : World (Recorded σ)} (store : ScanStore σ κ)

private theorem next (h : Lent before s w) :
    let r := s.next store.recorded w
    Lent before r.2.1 r.2.2 := by
  obtain ⟨n, hn⟩ := h.metrics
  by_cases hopen : s.isOpen = true
  · obtain ⟨hinUse, hcalls, hmetrics⟩ := s.next_recorded store ⟨hopen, h.counted⟩ w
    rw [if_pos hopen] at hn
    refine ⟨?_, hinUse.counted, n, ?_⟩
    · rw [hcalls]
      exact h.unasked.concat rfl
    · rw [hmetrics, hn, if_pos hinUse.isOpen]
  · have hcursor : s.cursor = none := by simpa [Session.isOpen] using hopen
    unfold Session.next
    rw [hcursor]
    exact h

private theorem close (h : Lent before s w) :
    let r := s.close store.recorded w
    Prelude before r.2 ∧ Lent before r.1 r.2 := by
  obtain ⟨n, hn⟩ := h.metrics
  have hclosed : (s.close store.recorded w).1.isOpen = false ∧
      (s.close store.recorded w).1.counted = s.counted := by
    unfold Session.close
    cases hcursor : s.cursor with
    | none => exact ⟨by simp [Session.isOpen, hcursor], rfl⟩
    | some cursor => exact ⟨rfl, rfl⟩
  have hprelude : Prelude before (s.close store.recorded w).2 := by
    by_cases hopen : s.isOpen = true
    · obtain ⟨hcalls, hmetrics⟩ := s.close_recorded store ⟨hopen, h.counted⟩ w
      rw [if_pos hopen] at hn
      refine ⟨?_, n + 1, ?_⟩
      · rw [hcalls]
        exact h.unasked.concat rfl
      · rw [hmetrics, hn]
        rfl
    · have hcursor : s.cursor = none := by simpa [Session.isOpen] using hopen
      unfold Session.close
      rw [hcursor]
      exact ⟨h.unasked, n, hn.trans (if_neg hopen)⟩
  obtain ⟨n', hn'⟩ := hprelude.metrics
  refine ⟨hprelude, hprelude.unasked, hclosed.2.trans h.counted, n', ?_⟩
  rw [hn', if_neg (Bool.eq_false_iff.1 hclosed.1)]

private theorem run (h : Lent before s w) (o : Observation σ χ) :
    let r := o.recorded.run store.recorded s w
    Lent before r.2.1 r.2.2 := by
  induction o generalizing s w with
  | finish outcome state => exact h
  | pull onItem ih => exact ih _ (h.next store)
  | close rest ih => exact ih (h.close store).2
  | act effect rest ih => exact ih ⟨h.unasked, h.counted, h.metrics⟩
  | cancel rest ih => exact ih ⟨h.unasked, h.counted, h.metrics⟩

end Lent

namespace Prelude

variable (c : Collaborators σ κ χ) {before : Metrics} {w : World (Recorded σ)}

private theorem observe {plan : Plan} (hplan : plan.hasWork = true) (state : χ)
    (h : Prelude before w) :
    Prelude before (ChunkStream.observe c.recorded plan state w).2 := by
  unfold ChunkStream.observe
  rw [Collaborators.store_recorded]
  obtain ⟨hcalls, hmetrics, hinUse⟩ := Session.start_recorded c.store hplan w
  generalize Session.start c.store.recorded plan.table plan.authorizations plan.ranges true w =
    reply at hcalls hmetrics hinUse ⊢
  obtain ⟨answer, w₁⟩ := reply
  cases answer with
  | error e => exact h.call rfl hcalls hmetrics
  | ok session =>
    obtain ⟨n, hn⟩ := h.metrics
    have hsession : session.InUse := hinUse session rfl
    have hlent : Lent before session w₁ := by
      refine ⟨?_, hsession.counted, n, ?_⟩
      · rw [hcalls]
        exact h.unasked.concat rfl
      · rw [if_pos hsession.isOpen, hmetrics, ← hn]
        rfl
    -- what is shown to the partition is on record before it pulls
    have hshown : Lent before session
        { w₁ with env := { w₁.env with calls := w₁.env.calls ++ [.observed plan] } } :=
      ⟨hlent.unasked.concat rfl, hlent.counted, hlent.metrics⟩
    exact ((hshown.run c.store (c.partition.observe plan state)).close c.store).1

private theorem basePass (base : QuerySettings) (authorizations : Authorizations) (state : χ)
    (h : Prelude before w) :
    let r := ChunkStream.basePass c.recorded base authorizations state w
    Prelude before r.2 ∧ ∀ plan, r.1 = .ok (.inl plan) →
      ∃ call ∈ callsBefore r.2.env.calls, call.isIdle = true := by
  unfold ChunkStream.basePass
  generalize hask : (w.report .basePassStarted [("query", base.name)]).ask
    (c.recorded.plan base authorizations) = reply
  obtain ⟨answer, w₁⟩ := reply
  have hcalls : w₁.env.calls = w.env.calls ++ [.planned base authorizations answer] := by
    cases hask
    rfl
  have hprelude : Prelude before w₁ := h.call rfl hcalls (by cases hask; rfl)
  cases answer with
  | error e => exact ⟨hprelude, fun plan hplan => by cases hplan⟩
  | ok plan =>
    dsimp only
    cases hplan : plan.hasWork with
    | false =>
      rw [if_neg Bool.false_ne_true]
      refine ⟨hprelude, fun _ _ => ⟨.planned base authorizations (.ok plan), ?_, ?_⟩⟩
      · rw [hprelude.unasked.callsBefore_eq, hcalls]
        exact List.mem_append_right _ (List.mem_singleton.2 rfl)
      · rw [Call.isIdle, hplan]
        rfl
    | true =>
      rw [if_pos rfl]
      refine ⟨hprelude.observe c hplan state, ?_⟩
      intro plan' hidle
      cases hobserve : (ChunkStream.observe c.recorded plan state w₁).1 with
      | error e => simp [hobserve, Except.map] at hidle
      | ok state' => simp [hobserve, Except.map] at hidle

end Prelude

/-- How a query can start: it fails, the pass over its base query finds nothing to scan, or its
first chunk is set up. -/
inductive Begun (i : Inquiry) (before : Metrics) (cap : Option Nat) :
    Except ScanError (ChunkStream κ χ) × World (Recorded σ) → Prop where
  | failed {e : ScanError} {w : World (Recorded σ)} {fate : Option Fate} (n : Nat)
      (hmetrics : w.metrics = before.withSessions n)
      (hstory : Chapter.Story i (Chapter.ofCalls w.env.calls) fate)
      (hlast : w.env.calls.getLast? ≠ some (.asked none)) : Begun i before cap (.error e, w)
  | idle {s : ChunkStream κ χ} {w : World (Recorded σ)} (hfinished : s.finished = true)
      (hstanding : Standing i before cap [] none s w)
      (hpass : ∃ call ∈ callsBefore w.env.calls, call.isIdle = true) : Begun i before cap (.ok s, w)
  | running {s : ChunkStream κ χ} {w : World (Recorded σ)} {fate : Option Fate}
      (hfinished : s.finished = false) (hstanding : Standing i before cap [] fate s w) :
      Begun i before cap (.ok s, w)

namespace Begun

variable (c : Collaborators σ κ χ) {before : Metrics} {cap : Option Nat} {w : World (Recorded σ)}

private theorem openFirst (i : Inquiry) (state : χ) (h : Prelude before w) :
    Begun i before cap
      (ChunkStream.openFirst c.recorded i.base i.authorizations cap state w) := by
  unfold ChunkStream.openFirst
  have hfirst := ChunkStream.firstChunk_recorded c i state w
  generalize ChunkStream.firstChunk c.recorded i.base state w = first at hfirst ⊢
  obtain ⟨q, state', w₁⟩ := first
  obtain ⟨chunk, hq, hcalls, hmetrics⟩ := hfirst
  dsimp only at hq hcalls hmetrics ⊢
  have hasked : Ledger i before w₁.env.calls w₁.metrics [] 0 (some (.waiting chunk)) := by
    have hledger := (h.ledger i).asked_first chunk
    rwa [← hcalls, ← hmetrics] at hledger
  have hunderway : (ChunkStream.unstarted i.base i.authorizations cap state' :
      ChunkStream κ χ).Underway i cap [] :=
    ⟨rfl, rfl, rfl, by cases cap <;> rfl, fun _ _ => Nat.zero_le _⟩
  generalize hstart : (ChunkStream.unstarted i.base i.authorizations cap state').startChunk
    c.recorded q w₁ = reply
  obtain ⟨answer, s, w₂⟩ := reply
  cases answer with
  | error e =>
    obtain ⟨later, -, hturn, hcalls', hmetrics'⟩ := ChunkStream.startChunk_error hq rfl hstart
    obtain ⟨n, hn⟩ := h.metrics
    refine .failed n ?_ (hasked.turn hturn hcalls' rfl rfl rfl).story ?_
    · rw [hmetrics', hmetrics, hn]
    · rw [hcalls']
      exact hturn.getLast?_ne _
  | ok plan =>
    obtain ⟨hfinished, fate, hs⟩ := Standing.started c hq hunderway hasked hstart
    exact .running hfinished (hs.relabel plan _ _)

private theorem prepare (state : χ) (limit : Option Nat) (base : QuerySettings)
    (authorizations : Authorizations) (h : Prelude before w) :
    Begun ⟨base, authorizations⟩ before (Limit.inEffect limit base)
      (ChunkStream.prepare c.recorded state limit base authorizations w) := by
  unfold ChunkStream.prepare
  have hbased : Prelude before (w.ask (c.recorded.partition.setBase base state)).2 :=
    h.call (show (Call.based base).isAsk = false from rfl) rfl rfl
  generalize w.ask (c.recorded.partition.setBase base state) = reply at hbased ⊢
  obtain ⟨state₁, w₁⟩ := reply
  dsimp only at hbased ⊢
  have hresolved : Prelude before (Limit.resolve limit base w₁).2 := by
    rw [Limit.resolve_snd]
    exact ⟨hbased.unasked, hbased.metrics⟩
  have hcap := Limit.resolve_fst limit base w₁
  generalize Limit.resolve limit base w₁ = resolved at hresolved hcap ⊢
  obtain ⟨remaining, w₂⟩ := resolved
  dsimp only at hresolved hcap ⊢
  rw [← hcap]
  split
  · obtain ⟨hpass, hidle⟩ := hresolved.basePass c base authorizations state₁
    generalize ChunkStream.basePass c.recorded base authorizations state₁ w₂ = pass
      at hpass hidle ⊢
    obtain ⟨answer, w₃⟩ := pass
    cases answer with
    | error e =>
      obtain ⟨n, hn⟩ := hpass.metrics
      refine .failed n hn (hpass.ledger _).story fun hlast => ?_
      cases hpass.unasked _ (List.mem_of_getLast? hlast)
    | ok outcome =>
      cases outcome with
      | inl plan =>
        refine .idle rfl ⟨hpass.ledger _, rfl, .idle (by simp) (by simp), ?_, ?_, ?_, ?_, ?_⟩
          (hidle plan rfl)
        · exact fun hfinished => by cases hfinished
        · exact fun hfinished => by cases hfinished
        · exact fun _ _ => Nat.zero_le _
        · exact fun _ => rfl
        · exact fun _ => rfl
      | inr state₂ => exact openFirst c ⟨base, authorizations⟩ state₂ hpass
  · exact openFirst c ⟨base, authorizations⟩ state₁ hresolved

theorem start (state : χ) (limit : Option Nat) (q : QuerySettings) (id : QueryId)
    (authorizations : Authorizations) (h : Prelude before w) :
    Begun (.ofQuery q id authorizations) before (Limit.inEffect limit q)
      (ChunkStream.start c.recorded state limit q id authorizations w) := by
  dsimp only [ChunkStream.start]
  generalize Log.Scope.enter Log.Event.queryInitialize.name
    [("query", q.name), ("query_id", q.id.text)] w.now w.log = entered
  have hprepare := prepare c state limit (ChunkStream.baseOf q id) authorizations
    (w := { w with log := entered.2 }) ⟨h.unasked, h.metrics⟩
  rw [Limit.inEffect_baseOf] at hprepare
  generalize ChunkStream.prepare c.recorded state limit (ChunkStream.baseOf q id) authorizations
    { w with log := entered.2 } = prepared at hprepare ⊢
  cases hprepare with
  | failed n hmetrics hstory hlast => exact .failed n hmetrics hstory hlast
  | idle hfinished hs hpass => exact .idle hfinished (hs.relabel _ _ _) hpass
  | running hfinished hs => exact .running hfinished (hs.relabel _ _ _)

end Begun

namespace StreamRun

variable (c : Collaborators σ κ χ) {i : Inquiry} {before : Metrics} {cap : Option Nat}

theorem entries_step (c : Collaborators σ κ χ) (r : StreamRun σ κ χ) (step : StreamStep) :
    (r.step c step).entries =
      r.entries ++ ((step.returns c (r.live, r.world)).bind entry?).toList := by
  dsimp only [StreamRun.step, entries]
  rw [List.filterMap_append]
  congr 1
  cases step.returns c (r.live, r.world) with
  | none => rfl
  | some item => cases hitem : entry? item <;> simp [hitem]

structure Unstarted (i : Inquiry) (before : Metrics) (r : StreamRun (Recorded σ) κ χ) : Prop where
  live_eq : r.live = none
  entries_eq : r.entries = []
  metrics : ∃ n, r.world.metrics = before.withSessions n
  story : ∃ fate, Chapter.Story i (Chapter.ofCalls r.world.env.calls) fate
  last : r.world.env.calls.getLast? ≠ some (.asked none)

theorem Unstarted.step {r : StreamRun (Recorded σ) κ χ} (h : Unstarted i before r)
    (step : StreamStep) : Unstarted i before (r.step c.recorded step) := by
  have hentries := entries_step c.recorded r step
  obtain ⟨live, world, returned⟩ := r
  obtain rfl : live = none := h.live_eq
  have hnone : (StreamRun.step c.recorded ⟨none, world, returned⟩ step).entries = [] := by
    rw [hentries, h.entries_eq]
    cases step <;> rfl
  cases step <;> exact ⟨rfl, hnone, h.metrics, h.story, h.last⟩

/-- A run whose stream is in the books, whether it is still there or was dropped. -/
def Kept (i : Inquiry) (before : Metrics) (cap : Option Nat) (r : StreamRun (Recorded σ) κ χ) :
    Prop :=
  ∃ s fate, Standing i before cap r.entries fate s r.world ∧
    (r.live = some s ∨ r.live = none ∧ s.finished = true)

theorem Kept.step {r : StreamRun (Recorded σ) κ χ} (h : Kept i before cap r) (step : StreamStep) :
    Kept i before cap (r.step c.recorded step) := by
  have hentries := entries_step c.recorded r step
  obtain ⟨s, fate, hs, hlive⟩ := h
  obtain ⟨live, world, returned⟩ := r
  obtain rfl | ⟨rfl, hfinished⟩ : live = some s ∨ live = none ∧ s.finished = true := hlive
  · cases step with
    | next =>
      obtain ⟨⟨fate', hafter⟩, -⟩ := hs.next c
      exact ⟨_, fate', hentries ▸ hafter, .inl rfl⟩
    | cancel =>
      refine ⟨s, fate, ?_, .inl rfl⟩
      rw [hentries.trans (List.append_nil _)]
      exact hs.relabel _ _ _
    | close =>
      refine ⟨_, fate.map Fate.leave, ?_, .inl rfl⟩
      rw [hentries.trans (List.append_nil _)]
      exact hs.close c
    | drop =>
      -- what is dropped is closed first
      refine ⟨(s.close c.recorded world).1, fate.map Fate.leave, ?_, .inr ⟨rfl, ?_⟩⟩
      · rw [hentries.trans (List.append_nil _)]
        exact hs.close c
      · rw [ChunkStream.close_fst]
  · cases step with
    | cancel =>
      refine ⟨s, fate, ?_, .inr ⟨rfl, hfinished⟩⟩
      rw [hentries.trans (List.append_nil _)]
      exact hs.relabel _ _ _
    | _ =>
      refine ⟨s, fate, ?_, .inr ⟨rfl, hfinished⟩⟩
      rw [hentries.trans (List.append_nil _)]
      exact hs

private theorem start_kept (state : χ) (limit : Option Nat) (q : QuerySettings) (id : QueryId)
    (authorizations : Authorizations) (w : World σ) :
    let begun := start c.recorded state limit q id authorizations w.recorded
    begun.live = none ∧ Unstarted (.ofQuery q id authorizations) w.metrics begun ∨
      begun.live.isSome = true ∧
        Kept (.ofQuery q id authorizations) w.metrics (Limit.inEffect limit q) begun := by
  have hbegun : Begun (.ofQuery q id authorizations) w.metrics (Limit.inEffect limit q)
      (ChunkStream.start c.recorded state limit q id authorizations w.recorded) :=
    Begun.start c state limit q id authorizations (.recorded w)
  unfold start
  generalize ChunkStream.start c.recorded state limit q id authorizations w.recorded = begun
    at hbegun ⊢
  cases hbegun with
  | failed n hmetrics hstory hlast =>
    exact .inl ⟨rfl, rfl, rfl, ⟨n, hmetrics⟩, ⟨_, hstory⟩, hlast⟩
  | idle hfinished hs hpass => exact .inr ⟨rfl, _, none, hs, .inl rfl⟩
  | running hfinished hs => exact .inr ⟨rfl, _, _, hs, .inl rfl⟩

/-- Any collaborators, in any state and cancelled or not, and any steps: a query that did not start
leaves sessions in the metrics only, and a run of one that did is in the books. -/
theorem run_kept (state : χ) (limit : Option Nat) (q : QuerySettings) (id : QueryId)
    (authorizations : Authorizations) (w : World σ) (steps : List StreamStep) :
    let begun := start c.recorded state limit q id authorizations w.recorded
    let r := run c.recorded state limit q id authorizations w.recorded steps
    begun.live = none ∧ Unstarted (.ofQuery q id authorizations) w.metrics r ∨
      begun.live.isSome = true ∧
        Kept (.ofQuery q id authorizations) w.metrics (Limit.inEffect limit q) r := by
  obtain ⟨hlive, hbegun⟩ | ⟨hlive, hbegun⟩ :=
    start_kept c state limit q id authorizations w
  · exact .inl ⟨hlive, run_induct c.recorded state limit q id authorizations w.recorded steps hbegun
      fun r step _ hr => hr.step c step⟩
  · exact .inr ⟨hlive, run_induct c.recorded state limit q id authorizations w.recorded steps hbegun
      fun r step _ hr => hr.step c step⟩

theorem exists_standing {state : χ} {limit : Option Nat} {q : QuerySettings} {id : QueryId}
    {authorizations : Authorizations} {w : World σ} {steps : List StreamStep} {s : ChunkStream κ χ}
    (hlive : (run c.recorded state limit q id authorizations w.recorded steps).live = some s) :
    let r := run c.recorded state limit q id authorizations w.recorded steps
    ∃ fate, Standing (.ofQuery q id authorizations) w.metrics (Limit.inEffect limit q) r.entries
      fate s r.world := by
  obtain ⟨-, hr⟩ | ⟨-, s', fate, hs, hsame | ⟨hnone, -⟩⟩ :=
    run_kept c state limit q id authorizations w steps
  · cases hr.live_eq.symm.trans hlive
  · obtain rfl := Option.some.inj (hsame.symm.trans hlive)
    exact ⟨fate, hs⟩
  · cases hnone.symm.trans hlive

def chapters (r : StreamRun (Recorded σ) κ χ) : List Chapter := Chapter.ofCalls r.world.env.calls

def IsExhausted (r : StreamRun (Recorded σ) κ χ) : Prop :=
  r.world.env.calls.getLast? = some (.asked none)

end StreamRun

end ShardQuery
