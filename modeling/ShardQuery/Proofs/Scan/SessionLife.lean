import ShardQuery.Proofs.Chunked.CallRecord

/-!
# The life of a session

A session is opened, pulled from and closed any number of times, and in the end dropped. Until it is
first closed it yields what its cursor yields and nothing else happens. Closing it for the first
time releases the cursor, and after that the world stays as it is.
-/

namespace ShardQuery

variable {σ κ : Type}

/-- The answers to a number of pulls in a row, made at a cursor itself. -/
def ScanStore.drawn (store : ScanStore σ κ) :
    Nat → κ → σ → List (Option (Except ScanError Entry))
  | 0, _, _ => []
  | n + 1, cursor, env =>
    let reply := store.pull cursor env
    reply.value.1 :: store.drawn n reply.value.2 reply.env

def ScanStore.scripted (script : List (Except ScanError Entry)) :
    ScanStore σ (List (Except ScanError Entry)) where
  openScan _ _ _ env := ⟨.ok script, env, false⟩
  pull items env := ⟨(items.head?, items.tail), env, false⟩
  release _ env := ⟨(), env, false⟩

theorem ScanStore.drawn_scripted (script items : List (Except ScanError Entry)) (n : Nat)
    (env : σ) : (scripted script).drawn n items env = (List.range n).map (items[·]?) := by
  induction n generalizing items with
  | zero => rfl
  | succ n ih =>
    rw [drawn, List.range_succ_eq_map, List.map_cons, List.map_map]
    dsimp only [scripted] at ih ⊢
    rw [ih, List.head?_eq_getElem?]
    exact congrArg _ (List.map_congr_left fun k _ => List.getElem?_tail)

inductive SessionStep where
  | pull | close | drop
deriving DecidableEq

namespace SessionStep

def pullsOpen (steps : List SessionStep) : Nat := (steps.takeWhile (· = pull)).length

def pullsClosed (steps : List SessionStep) : Nat :=
  ((steps.dropWhile (· = pull)).takeWhile (· ≠ drop)).count pull

def ends (steps : List SessionStep) : Bool := steps.any (· ≠ pull)

variable (steps : List SessionStep)

@[simp] theorem pullsOpen_pull : pullsOpen (pull :: steps) = pullsOpen steps + 1 := rfl

@[simp] theorem pullsClosed_pull : pullsClosed (pull :: steps) = pullsClosed steps := rfl

@[simp] theorem ends_pull : ends (pull :: steps) = ends steps := rfl

@[simp] theorem pullsOpen_close : pullsOpen (close :: steps) = 0 := rfl

theorem pullsClosed_close :
    pullsClosed (close :: steps) = (steps.takeWhile (· ≠ drop)).count pull := rfl

@[simp] theorem ends_close : ends (close :: steps) = true := rfl

@[simp] theorem pullsOpen_drop : pullsOpen (drop :: steps) = 0 := rfl

@[simp] theorem pullsClosed_drop : pullsClosed (drop :: steps) = 0 := rfl

@[simp] theorem ends_drop : ends (drop :: steps) = true := rfl

theorem ends_of_drop_mem {steps : List SessionStep} (h : drop ∈ steps) : ends steps = true :=
  List.any_eq_true.mpr ⟨drop, h, rfl⟩

end SessionStep

namespace Session

theorem log_reportClosed (s : Session κ) (w : World σ) :
    (s.reportClosed w).log = w.log.report .sessionClosed
      [("table", s.table), ("identity", identityText s.identity),
       ("elapsed_ms", Text.decimal (w.now - s.opened))] := by
  unfold reportClosed tally
  split <;> rfl

theorem metrics_reportClosed (s : Session κ) (w : World σ) :
    (s.reportClosed w).metrics = if s.counted then w.metrics.sessionClosed else w.metrics := by
  unfold reportClosed tally
  split <;> rfl

end Session

/-- A session so far: what is left of it, its world, and what the pulls returned, in order. -/
structure SessionLife (σ κ : Type) where
  live : Option (Session κ)
  world : World σ
  returned : List (Option (Except ScanError Entry)) := []

namespace SessionLife

open SessionStep

def step (store : ScanStore σ κ) (l : SessionLife σ κ) (step : SessionStep) : SessionLife σ κ :=
  match l.live, step with
  | none, _ => l
  | some s, .pull =>
    let (item, s, world) := s.next store l.world
    ⟨some s, world, l.returned ++ [item]⟩
  | some s, .close =>
    let (s, world) := s.close store l.world
    ⟨some s, world, l.returned⟩
  | some s, .drop => ⟨none, (s.close store l.world).2, l.returned⟩

/-- Opens a session and goes through steps. -/
def run (store : ScanStore σ κ) (table : String) (authorizations : Authorizations)
    (ranges : List RowRange) (counted : Bool) (w : World σ) (steps : List SessionStep) :
    SessionLife σ κ :=
  let (opened, w) := Session.start store table authorizations ranges counted w
  steps.foldl (step store) { live := opened.toOption, world := w }

theorem steps_of_dropped (store : ScanStore σ κ) (steps : List SessionStep) (w : World σ)
    (returned : List (Option (Except ScanError Entry))) :
    steps.foldl (step store) ⟨none, w, returned⟩ = ⟨none, w, returned⟩ := by
  induction steps with
  | nil => rfl
  | cons step steps ih => exact ih

theorem steps_of_closed (store : ScanStore σ κ) {s : Session κ} (hs : s.cursor = none)
    (steps : List SessionStep) (w : World σ) (returned : List (Option (Except ScanError Entry))) :
    steps.foldl (step store) ⟨some s, w, returned⟩ =
      ⟨if .drop ∈ steps then none else some s, w,
        returned ++ List.replicate ((steps.takeWhile (· ≠ .drop)).count .pull) none⟩ := by
  induction steps generalizing returned with
  | nil => simp
  | cons first steps ih =>
    have hclose : s.close store w = (s, w) := by rw [Session.close, hs]
    rw [List.foldl_cons]
    cases first with
    | pull =>
      have hpull : step store ⟨some s, w, returned⟩ .pull =
          ⟨some s, w, returned ++ [none]⟩ := by
        simp only [step, Session.next, hs]
      rw [hpull, ih]
      simp [List.replicate_succ]
    | close =>
      have hsame : step store ⟨some s, w, returned⟩ .close = ⟨some s, w, returned⟩ := by
        simp only [step, hclose]
      rw [hsame, ih]
      simp
    | drop =>
      have hgone : step store ⟨some s, w, returned⟩ .drop = ⟨none, w, returned⟩ := by
        simp only [step, hclose]
      rw [hgone, steps_of_dropped]
      simp

def unrecorded (l : SessionLife (Recorded σ) κ) : SessionLife σ κ :=
  ⟨l.live, l.world.unrecorded, l.returned⟩

/-- What an open session has come to after some steps. It passed on what its cursor yielded. When it
ended, the cursor was released and that was reported; nothing was called or reported after it. -/
structure Spent (store : ScanStore σ κ) (s : Session κ) (cursor : κ) (w : World (Recorded σ))
    (returned : List (Option (Except ScanError Entry))) (steps : List SessionStep)
    (l : SessionLife (Recorded σ) κ) : Prop where
  returned_eq : l.returned =
    returned ++ store.drawn (pullsOpen steps) cursor w.env.env ++
      List.replicate (pullsClosed steps) none
  calls_eq : l.world.env.calls =
    w.env.calls ++ (store.drawn (pullsOpen steps) cursor w.env.env).map .pulled ++
      if ends steps then [.released] else []
  log_eq : l.world.log = if ends steps then (s.reportClosed w).log else w.log
  metrics_eq : l.world.metrics = if ends steps then (s.reportClosed w).metrics else w.metrics
  isOpen_eq : l.live.any Session.isOpen = !ends steps
  live_eq_none_iff : l.live = none ↔ .drop ∈ steps

section

variable (store : ScanStore σ κ) {s : Session κ} {cursor : κ} (hs : s.cursor = some cursor)
  (w : World (Recorded σ))

include hs

private theorem close_of_open :
    ∃ w', s.close store.recorded w = ({ s with cursor := none }, w') ∧
      w'.env.calls = w.env.calls ++ [.released] ∧ w'.log = (s.reportClosed w).log ∧
      w'.metrics = (s.reportClosed w).metrics := by
  unfold Session.close
  rw [hs]
  refine ⟨_, rfl, ?_, ?_, ?_⟩
  · dsimp only [Session.reportClosed, Session.tally]
    split <;> rfl
  · rw [Session.log_reportClosed, Session.log_reportClosed]
    rfl
  · rw [Session.metrics_reportClosed, Session.metrics_reportClosed]

theorem steps_of_open (steps : List SessionStep)
    (returned : List (Option (Except ScanError Entry))) :
    Spent store s cursor w returned steps
      (steps.foldl (step store.recorded) ⟨some s, w, returned⟩) := by
  induction steps generalizing s cursor w returned with
  | nil =>
    constructor <;> simp [ScanStore.drawn, pullsOpen, pullsClosed, ends, Session.isOpen, hs]
  | cons first steps ih =>
    rw [List.foldl_cons]
    cases first with
    | pull =>
      generalize hreply : store.pull cursor w.env.env = reply
      have hstep : step store.recorded ⟨some s, w, returned⟩ .pull =
          ⟨some { s with cursor := some reply.value.2 },
            { w with
              env := ⟨reply.env, w.env.calls ++ [.pulled reply.value.1]⟩
              cancelled := w.cancelled || reply.cancels },
            returned ++ [reply.value.1]⟩ := by
        subst hreply
        simp only [step, Session.next, hs]
        rfl
      have hdrawn : store.drawn (pullsOpen steps + 1) cursor w.env.env =
          reply.value.1 :: store.drawn (pullsOpen steps) reply.value.2 reply.env := by
        subst hreply
        rfl
      rw [hstep]
      obtain ⟨hreturned, hcalls, hlog, hmetrics, hopen, hlive⟩ :=
        ih (s := { s with cursor := some reply.value.2 }) rfl
          { w with
            env := ⟨reply.env, w.env.calls ++ [.pulled reply.value.1]⟩
            cancelled := w.cancelled || reply.cancels }
          (returned ++ [reply.value.1])
      rw [Session.log_reportClosed] at hlog
      rw [Session.metrics_reportClosed] at hmetrics
      refine ⟨?_, ?_, ?_, ?_, hopen, ?_⟩
      · rw [hreturned, pullsOpen_pull, hdrawn, pullsClosed_pull]
        simp
      · rw [hcalls, pullsOpen_pull, hdrawn, ends_pull]
        simp
      · rw [hlog, Session.log_reportClosed]
        rfl
      · rw [hmetrics, Session.metrics_reportClosed]
        rfl
      · simpa using hlive
    | close =>
      obtain ⟨w', hclose, hcalls, hlog, hmetrics⟩ := close_of_open store hs w
      have hstep : step store.recorded ⟨some s, w, returned⟩ .close =
          ⟨some { s with cursor := none }, w', returned⟩ := by
        simp only [step, hclose]
      rw [hstep, steps_of_closed _ rfl]
      refine ⟨?_, ?_, hlog, hmetrics, ?_, ?_⟩
      · rw [pullsClosed_close]
        simp [ScanStore.drawn]
      · simpa [ScanStore.drawn] using hcalls
      · dsimp only
        split <;> rfl
      · simp
    | drop =>
      obtain ⟨w', hclose, hcalls, hlog, hmetrics⟩ := close_of_open store hs w
      have hstep : step store.recorded ⟨some s, w, returned⟩ .drop = ⟨none, w', returned⟩ := by
        simp only [step, hclose]
      rw [hstep, steps_of_dropped]
      refine ⟨?_, ?_, hlog, hmetrics, rfl, by simp⟩
      · simp [ScanStore.drawn]
      · simpa [ScanStore.drawn] using hcalls

end

private theorem step_unrecorded (store : ScanStore σ κ) (l : SessionLife (Recorded σ) κ)
    (first : SessionStep) :
    step store l.unrecorded first = (step store.recorded l first).unrecorded := by
  obtain ⟨live, w, returned⟩ := l
  cases live with
  | none => rfl
  | some s =>
    have hnext := Session.next_map store.recorded_projects s w
    have hclose := Session.close_map store.recorded_projects s w
    simp only [Session.map_id] at hnext hclose
    cases first with
    | pull =>
      simp only [step, unrecorded, World.unrecorded]
      rw [hnext]
    | close =>
      simp only [step, unrecorded, World.unrecorded]
      rw [hclose]
    | drop =>
      simp only [step, unrecorded, World.unrecorded]
      rw [hclose]

theorem run_unrecorded (store : ScanStore σ κ) (table : String) (authorizations : Authorizations)
    (ranges : List RowRange) (counted : Bool) (w : World σ) (steps : List SessionStep) :
    run store table authorizations ranges counted w steps =
      (run store.recorded table authorizations ranges counted w.recorded steps).unrecorded := by
  have hstart := Session.start_map store.recorded_projects table authorizations ranges counted
    w.recorded
  rw [show w.recorded.map Recorded.env = w from rfl] at hstart
  unfold run
  rw [hstart]
  generalize Session.start store.recorded table authorizations ranges counted w.recorded = started
  obtain ⟨opened, w₁⟩ := started
  have hlive : (opened.map (Session.map id)).toOption = opened.toOption := by
    cases opened with
    | error e => rfl
    | ok s => exact congrArg some s.map_id
  dsimp only
  rw [hlive]
  generalize ([] : List (Option (Except ScanError Entry))) = returned
  have hsteps : ∀ l : SessionLife (Recorded σ) κ,
      steps.foldl (step store) l.unrecorded = (steps.foldl (step store.recorded) l).unrecorded := by
    induction steps with
    | nil => exact fun l => rfl
    | cons first steps ih =>
      intro l
      rw [List.foldl_cons, step_unrecorded, ih, List.foldl_cons]
  exact hsteps ⟨opened.toOption, w₁, returned⟩

section

variable (store : ScanStore σ κ) (table : String) (authorizations : Authorizations)
  {ranges : List RowRange} (counted : Bool) (w : World σ)

private theorem start_of_opened (hranges : ranges ≠ []) {cursor : κ}
    (hopen : (store.openScan table authorizations ranges w.env).value = .ok cursor) :
    ∃ w', Session.start store.recorded table authorizations ranges counted w.recorded =
        (.ok ⟨table, authorizations, ranges, some cursor, w.now, counted⟩, w') ∧
      w'.env = ⟨(store.openScan table authorizations ranges w.env).env,
        [.scanned table authorizations ranges none]⟩ ∧
      w'.log = w.log.report .sessionOpened
        [("table", table), ("ranges", Text.decimal ranges.length),
         ("identity", Session.identityText (Session.identityOf table authorizations ranges))] ∧
      w'.metrics = if counted then w.metrics.sessionOpened else w.metrics := by
  have hask : w.recorded.ask (store.recorded.openScan table authorizations ranges) =
      (.ok cursor, { w.recorded with
        env := ⟨(store.openScan table authorizations ranges w.env).env,
          [.scanned table authorizations ranges none]⟩
        cancelled := w.cancelled || (store.openScan table authorizations ranges w.env).cancels }) := by
    simp [World.ask, ScanStore.recorded, Reply.recorded, World.recorded, hopen, failureOf]
  unfold Session.start
  rw [if_neg (by simpa using hranges), hask]
  refine ⟨_, rfl, ?_⟩
  cases counted <;> exact ⟨rfl, rfl, rfl⟩

theorem start_of_refused (hranges : ranges ≠ []) {e : ScanError}
    (hopen : (store.openScan table authorizations ranges w.env).value = .error e) :
    ∃ w', Session.start store table authorizations ranges counted w = (.error e, w') ∧
      w'.log = w.log ∧ w'.metrics = w.metrics := by
  have hask : w.ask (store.openScan table authorizations ranges) =
      (.error e, { w with
        env := (store.openScan table authorizations ranges w.env).env
        cancelled := w.cancelled || (store.openScan table authorizations ranges w.env).cancels }) := by
    rw [World.ask, hopen]
  unfold Session.start
  rw [if_neg (by simpa using hranges), hask]
  exact ⟨_, rfl, rfl, rfl⟩

end

def openedLine (table : String) (authorizations : Authorizations) (ranges : List RowRange) :
    Log.Line :=
  ⟨.trace, "SESSION_OPEN",
    [("table", table), ("ranges", Text.decimal ranges.length),
     ("identity", Session.identityText (Session.identityOf table authorizations ranges))]⟩

def closedLine (table : String) (authorizations : Authorizations) (ranges : List RowRange)
    (elapsed : String) : Log.Line :=
  ⟨.trace, "SESSION_CLOSE",
    [("table", table),
     ("identity", Session.identityText (Session.identityOf table authorizations ranges)),
     ("elapsed_ms", elapsed)]⟩

structure Lived (store : ScanStore σ κ) (table : String) (authorizations : Authorizations)
    (ranges : List RowRange) (counted : Bool) (w : World σ) (cursor : κ)
    (steps : List SessionStep) (l : SessionLife (Recorded σ) κ) : Prop where
  /-- It yields what its cursor yields until it is closed, and nothing from then on. -/
  returned_eq : l.returned =
    store.drawn (pullsOpen steps) cursor (store.openScan table authorizations ranges w.env).env ++
      List.replicate (pullsClosed steps) none
  /-- The cursor is pulled while the session is open and released once, when it no longer is. -/
  calls_eq : l.world.env.calls =
    .scanned table authorizations ranges none ::
      ((store.drawn (pullsOpen steps) cursor
        (store.openScan table authorizations ranges w.env).env).map .pulled ++
        if ends steps then [.released] else [])
  isOpen_eq : l.live.any Session.isOpen = !ends steps
  live_eq_none_iff : l.live = none ↔ .drop ∈ steps
  /-- A session that is dropped in the end was reported twice: as it was opened and closed. -/
  written_eq : .drop ∈ steps → w.log.enabled .trace = true → ∃ elapsed,
    l.world.log.written = w.log.written ++
      [(w.log.channel .trace, openedLine table authorizations ranges),
       (w.log.channel .trace, closedLine table authorizations ranges elapsed)]
  metrics_eq : .drop ∈ steps → counted = true → l.world.metrics =
    { w.metrics with
      sessionsOpened := w.metrics.sessionsOpened + 1
      sessionsClosed := w.metrics.sessionsClosed + 1 }

private theorem report_of_trace {log : Log} (h : log.enabled .trace = true) {e : Log.Event}
    (he : e.severity = .trace) (fields : List (String × String)) :
    log.report e fields =
      { log with written := log.written ++ [(log.channel .trace, ⟨.trace, e.name, fields⟩)] } := by
  rw [Log.report, Log.write, he, if_pos h]

/-- The life of a session, from a store that may refuse it to the last of any steps. -/
theorem run_lived (store : ScanStore σ κ) (table : String) (authorizations : Authorizations)
    (ranges : List RowRange) (counted : Bool) (w : World σ) :
    (ranges = [] → Session.start store table authorizations ranges counted w =
      (.error (.rangesMissing table), w)) ∧
    (∀ e, ranges ≠ [] → (store.openScan table authorizations ranges w.env).value = .error e →
      ∃ w', Session.start store table authorizations ranges counted w = (.error e, w') ∧
        w'.log = w.log ∧ w'.metrics = w.metrics) ∧
    ∀ cursor steps, ranges ≠ [] →
      (store.openScan table authorizations ranges w.env).value = .ok cursor →
      run store table authorizations ranges counted w steps =
        (run store.recorded table authorizations ranges counted w.recorded steps).unrecorded ∧
      Lived store table authorizations ranges counted w cursor steps
        (run store.recorded table authorizations ranges counted w.recorded steps) := by
  refine ⟨?_, fun e hranges hopen =>
    start_of_refused store table authorizations counted w hranges hopen, ?_⟩
  · rintro rfl
    rfl
  intro cursor steps hranges hopen
  refine ⟨run_unrecorded store table authorizations ranges counted w steps, ?_⟩
  obtain ⟨w', hstart, henv, hlog, hmetrics⟩ :=
    start_of_opened store table authorizations counted w hranges hopen
  have hrun : run store.recorded table authorizations ranges counted w.recorded steps =
      steps.foldl (step store.recorded)
        ⟨some ⟨table, authorizations, ranges, some cursor, w.now, counted⟩, w', []⟩ := by
    rw [run, hstart]
    rfl
  rw [hrun]
  have hspent := steps_of_open store
    (s := ⟨table, authorizations, ranges, some cursor, w.now, counted⟩) rfl w' steps []
  refine ⟨?_, ?_, hspent.isOpen_eq, hspent.live_eq_none_iff, ?_, ?_⟩
  · simpa [henv] using hspent.returned_eq
  · simpa [henv] using hspent.calls_eq
  · intro hdrop htrace
    refine ⟨Text.decimal (w'.now - w.now), ?_⟩
    rw [hspent.log_eq, if_pos (ends_of_drop_mem hdrop), Session.log_reportClosed, hlog,
      report_of_trace htrace rfl, report_of_trace (by exact htrace) rfl]
    exact List.append_assoc ..
  · intro hdrop hcounted
    rw [hspent.metrics_eq, if_pos (ends_of_drop_mem hdrop), Session.metrics_reportClosed, hmetrics]
    simp [hcounted, Metrics.sessionOpened, Metrics.sessionClosed]

theorem run_lived_past_failure :
    let failure : ScanError := ⟨.storeFailed, "lost"⟩
    let script : List (Except ScanError Entry) := [.error failure, .ok ⟨⟨"r", "c", ""⟩, "v"⟩]
    let l := run (.scripted script) "t" ∅ [⟨none, none⟩] true
      { env := (), log := { least := .trace } } [.pull, .pull, .close, .pull, .close, .drop]
    l.returned = [some (.error failure), some (.ok ⟨⟨"r", "c", ""⟩, "v"⟩), none] ∧
      l.world.metrics = { sessionsOpened := 1, sessionsClosed := 1 } ∧
      l.world.log.written.map (·.2.event) = ["SESSION_OPEN", "SESSION_CLOSE"] := by
  intro failure script l
  obtain ⟨hrun, hlived⟩ := (run_lived (.scripted script) "t" ∅ [⟨none, none⟩] true
    { env := (), log := { least := .trace } }).2.2 script
    [.pull, .pull, .close, .pull, .close, .drop] (by simp) rfl
  rw [show l = _ from hrun]
  refine ⟨?_, hlived.metrics_eq (by decide) rfl, ?_⟩
  · rw [unrecorded, hlived.returned_eq, ScanStore.drawn_scripted]
    rfl
  · obtain ⟨elapsed, hwritten⟩ := hlived.written_eq (by decide) (by decide)
    simp only [unrecorded, World.unrecorded, World.map]
    rw [hwritten]
    rfl

end SessionLife
end ShardQuery
