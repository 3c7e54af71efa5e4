import ShardQuery.Proofs.Chunked.FaultFree
import ShardQuery.Proofs.Chunked.LimitInEffect
import ShardQuery.Proofs.Chunked.StreamSteps

/-!
# Runs without faults

Whatever chunks its partition splits a query into, the stream yields what one scan of all rows
would return, up to the cap, as long as the chunks cover those rows and follow one another.
-/

namespace ShardQuery

variable {χ : Type}

def Session.left (s : Session (List Entry)) : List Entry := s.cursor.getD []

namespace MemoryStore

private theorem releasesQuietly : scanStore.ReleasesQuietly := fun _ _ => rfl

private theorem next_session (s : Session (List Entry)) (w : World MemoryStore) :
    s.next scanStore w =
      (s.left.head?.map .ok, { s with cursor := s.cursor.map List.tail }, w) := by
  obtain ⟨table, authorizations, ranges, cursor, opened, counted⟩ := s
  rcases cursor with _ | _ | ⟨e, rest⟩ <;> simp [Session.next, World.ask, scanStore, Session.left]

private theorem left_tail (s : Session (List Entry)) :
    Session.left { s with cursor := s.cursor.map List.tail } = s.left.tail := by
  unfold Session.left
  cases s.cursor <;> rfl

private theorem left_close (s : Session (List Entry)) (w : World MemoryStore) :
    (s.close scanStore w).1.left = [] := by
  unfold Session.close Session.left
  cases hcursor : s.cursor with
  | none => simp [hcursor]
  | some entries => rfl

private theorem start_session {table : String} {authorizations : Authorizations}
    {ranges : List RowRange} (hranges : ranges.isEmpty = false) {w : World MemoryStore}
    {entries : List Entry} (hscan : w.env.scan table authorizations ranges = .ok entries) :
    ∃ session after, Session.start scanStore table authorizations ranges true w =
      (.ok session, after) ∧ session.left = entries ∧ after.stage = w.stage := by
  have hopen : w.ask (scanStore.openScan table authorizations ranges) = (.ok entries, w) := by
    simp [World.ask, scanStore, hscan]
  let session : Session (List Entry) :=
    ⟨table, authorizations, ranges, some entries, w.now, true⟩
  refine ⟨session, session.reportOpened w, ?_, rfl, rfl⟩
  rw [Session.start, if_neg (by simp [hranges]), hopen]

private theorem run_observation {store : MemoryStore} {o : Observation MemoryStore χ}
    {entries : List Entry} {state : χ} (h : o.EndsWell store entries state)
    {s : Session (List Entry)} (hs : s.left = entries) {w : World MemoryStore}
    (hw : w.env = store) :
    let r := o.run scanStore s w
    r.1 = (.ok (), state) ∧ r.2.2.stage = w.stage := by
  induction h generalizing s w with
  | finish => exact ⟨rfl, rfl⟩
  | pull rest ih =>
    dsimp only [Observation.run]
    rw [next_session, hs]
    exact ih ((left_tail s).trans (congrArg List.tail hs)) hw
  | close rest ih =>
    have hstage := s.stage_close releasesQuietly w
    obtain ⟨hresult, hrun⟩ := ih (left_close s w) ((congrArg Prod.fst hstage).trans hw)
    exact ⟨hresult, hrun.trans hstage⟩
  | act unchanged rest ih =>
    have heffect : ({ w with env := store } : World MemoryStore) = w := by rw [← hw]
    dsimp only [Observation.run]
    rw [hw, unchanged, heffect]
    exact ih hs hw

end MemoryStore

namespace ChunkStream

/-- A stream over a store in memory. -/
abbrev OverMemory (χ : Type) := ChunkStream (List Entry) χ

def left (s : OverMemory χ) : List Entry := s.session.elim [] Session.left

variable (table : String) (rangesOf : QuerySettings → List RowRange) (p : Partition MemoryStore χ)
  {rows : Table}

/-- The stream has these entries still to yield, and then it ends. -/
def Owes (p : Partition MemoryStore χ) (store : MemoryStore) (rows : Table)
    (rangesOf : QuerySettings → List RowRange) (s : OverMemory χ) (entries : List Entry) : Prop :=
  if s.finished then entries = []
  else ∃ chunks, p.HandsOut store s.partition chunks ∧
    entries = within s.remaining (s.left ++ entriesOf rows rangesOf s.authorizations chunks)

private theorem owes_of_running {p : Partition MemoryStore χ} {store : MemoryStore}
    {s : OverMemory χ} (hs : s.finished = false) {chunks : List QuerySettings}
    (hchunks : p.HandsOut store s.partition chunks) {entries : List Entry}
    (hleft : s.left = entries) :
    Owes p store rows rangesOf s
      (within s.remaining (entries ++ entriesOf rows rangesOf s.authorizations chunks)) := by
  rw [Owes, hs, if_neg Bool.false_ne_true]
  exact ⟨chunks, hchunks, by rw [hleft]⟩

private theorem owes_nil_of_finished {p : Partition MemoryStore χ} {store : MemoryStore}
    {s : OverMemory χ} (hs : s.finished = true) : Owes p store rows rangesOf s [] := by
  rw [Owes, hs, if_pos rfl]

private theorem quietly : (faultFree table rangesOf p).store.ReleasesQuietly :=
  MemoryStore.releasesQuietly

private theorem startChunk_faultFree (q : QuerySettings) (s : OverMemory χ) {w : World MemoryStore}
    (htable : w.env.find? table = some rows) :
    let r := s.startChunk (faultFree table rangesOf p) q w
    r.2.2.stage = w.stage ∧ (∃ plan, r.1 = .ok plan) ∧
      ∃ session, r.2.1 = { s with chunk := s.chunk + 1, chunkEntries := 0, session } ∧
        session.elim [] Session.left =
          MemoryStore.returned rows s.authorizations (rangesOf q.forChunk) := by
  have hplan : w.ask ((faultFree table rangesOf p).plan q.forChunk s.authorizations) =
      (.ok ⟨q.forChunk.id, table, s.authorizations, rangesOf q.forChunk⟩, w) :=
    World.ask_eq rfl
  dsimp only [startChunk, openChunk]
  rw [hplan]
  generalize q.forChunk.id = id
  generalize rangesOf q.forChunk = ranges
  dsimp only [Plan.hasWork]
  by_cases hwork : ranges.isEmpty = true
  · rw [List.isEmpty_iff.1 hwork, MemoryStore.returned_nil]
    simp only [List.isEmpty_nil, Bool.not_true, Bool.false_eq_true, if_false]
    rw [completeChunk_fst]
    exact ⟨stage_completeChunk (quietly table rangesOf p) _ _, ⟨_, rfl⟩, none, rfl, rfl⟩
  · have hranges : ranges.isEmpty = false := Bool.eq_false_iff.2 hwork
    obtain ⟨session, after, hstart, hleft, hstage⟩ := MemoryStore.start_session hranges
      (MemoryStore.scan_eq htable s.authorizations ranges)
    have hopen : Session.start (faultFree table rangesOf p).store table s.authorizations ranges
        true w = (.ok session, after) := hstart
    simp only [hopen, hranges, Bool.not_false, if_true]
    exact ⟨hstage, ⟨_, rfl⟩, some session, rfl, hleft⟩

private theorem pull_faultFree (s : OverMemory χ) (w : World MemoryStore) :
    let r := s.pull (faultFree table rangesOf p) w
    r.2.2.stage = w.stage ∧
      match s.left with
      | [] => r.1 = none ∧ r.2.1 = { s with session := none }
      | e :: rest => r.1 = some (.ok e) ∧ ∃ session,
          r.2.1 = { s with session := some session }.noteEntry ∧ session.left = rest := by
  unfold pull left
  cases hsession : s.session with
  | none =>
    refine ⟨rfl, rfl, ?_⟩
    dsimp only
    rw [← hsession]
  | some session =>
    have hnext : session.next (faultFree table rangesOf p).store w =
        (session.left.head?.map .ok, { session with cursor := session.cursor.map List.tail }, w) :=
      MemoryStore.next_session session w
    have htail := MemoryStore.left_tail session
    dsimp only [Option.elim]
    rw [hnext]
    generalize ({ session with cursor := session.cursor.map List.tail } : Session (List Entry)) =
      session₁ at htail ⊢
    cases hleft : session.left with
    | nil =>
      dsimp only [List.head?_nil, Option.map_none]
      rw [completeChunk_fst]
      exact ⟨stage_completeChunk (quietly table rangesOf p) _ _, rfl, rfl⟩
    | cons e rest =>
      rw [hleft] at htail
      exact ⟨rfl, rfl, session₁, rfl, htail⟩

private theorem enter_faultFree (q : QuerySettings) (s : OverMemory χ) {w : World MemoryStore}
    (htable : w.env.find? table = some rows) :
    let r := s.enter (faultFree table rangesOf p) q w
    r.1 = none ∧ r.2.2.stage = w.stage ∧
      ∃ session, r.2.1 = { s with chunk := s.chunk + 1, chunkEntries := 0, session } ∧
        session.elim [] Session.left =
          MemoryStore.returned rows s.authorizations (rangesOf q.forChunk) := by
  obtain ⟨hstage, ⟨plan, hplan⟩, hsession⟩ := startChunk_faultFree table rangesOf p q s htable
  unfold enter
  generalize s.startChunk (faultFree table rangesOf p) q w = reply at hstage hplan hsession ⊢
  obtain ⟨answer, s₁, w₁⟩ := reply
  cases hplan
  exact ⟨rfl, hstage, hsession⟩

/-- What a call of `next` does to a stream that owes entries. -/
private def Pays (p : Partition MemoryStore χ) (store : MemoryStore) (rows : Table)
    (rangesOf : QuerySettings → List RowRange) (entries : List Entry)
    (r : Option (Except ScanError Entry) × OverMemory χ × World MemoryStore) : Prop :=
  r.2.2.stage = (store, false) ∧
    match entries with
    | [] => r.1 = none
    | e :: rest => r.1 = some (.ok e) ∧ Owes p store rows rangesOf r.2.1 rest

private theorem next_onward {store : MemoryStore} {s : OverMemory χ} {w : World MemoryStore}
    (hs : s.finished = false) (hw : w.stage = (store, false)) (hcap : s.remaining ≠ some 0)
    (hleft : s.left = []) :
    ∃ w₁ : World MemoryStore, w₁.stage = (store, false) ∧
      (∀ state w₂, w₁.ask ((faultFree table rangesOf p).partition.next s.partition) =
          ((none, state), w₂) →
        (s.next (faultFree table rangesOf p) w).1 = none ∧
          (s.next (faultFree table rangesOf p) w).2.2 = w₂) ∧
      ∀ q state w₂ s₃ w₃, w₁.ask ((faultFree table rangesOf p).partition.next s.partition) =
          ((some q, state), w₂) →
        { s with session := none, partition := state }.enter (faultFree table rangesOf p) q w₂ =
          (none, s₃, w₃) →
        s.next (faultFree table rangesOf p) w = s₃.next (faultFree table rangesOf p) w₃ := by
  have hcalm : w.cancelled = false := congrArg Prod.snd hw
  obtain ⟨hstage, hpulled⟩ := pull_faultFree table rangesOf p s w
  rw [next_eq, if_neg (by simp [hs]), if_neg (by simp [hcalm]), if_neg hcap]
  generalize s.pull (faultFree table rangesOf p) w = reply at hstage hpulled ⊢
  obtain ⟨item, s₁, w₁⟩ := reply
  rw [hleft] at hpulled
  obtain ⟨hitem, hs₁⟩ := hpulled
  cases hitem
  cases hs₁
  refine ⟨w₁, hstage.trans hw, ?_, ?_⟩
  · intro state w₂ hask
    dsimp only
    rw [hask]
    exact ⟨rfl, rfl⟩
  · intro q state w₂ s₃ w₃ hask henter
    dsimp only
    rw [hask]
    dsimp only
    rw [henter]

section

variable {table} {rangesOf} {p} {store : MemoryStore} {chunks : List QuerySettings}
  {s : OverMemory χ} {w : World MemoryStore}

private theorem next_ready (hchunks : p.HandsOut store s.partition chunks)
    (hs : s.finished = false) (hw : w.stage = (store, false))
    (hready : s.remaining = some 0 ∨ s.left ≠ []) :
    Pays p store rows rangesOf
      (within s.remaining (s.left ++ entriesOf rows rangesOf s.authorizations chunks))
      (s.next (faultFree table rangesOf p) w) := by
  have hcalm : w.cancelled = false := congrArg Prod.snd hw
  rw [next_eq, if_neg (by simp [hs]), if_neg (by simp [hcalm])]
  by_cases hcap : s.remaining = some 0
  · rw [if_pos hcap, hcap]
    exact ⟨(stage_close (quietly table rangesOf p) s w).trans hw, rfl⟩
  · rw [if_neg hcap]
    obtain ⟨hstage, hpulled⟩ := pull_faultFree table rangesOf p s w
    generalize s.pull (faultFree table rangesOf p) w = reply at hstage hpulled ⊢
    obtain ⟨item, s₁, w₁⟩ := reply
    cases hleft : s.left with
    | nil => exact absurd hleft (hready.resolve_left hcap)
    | cons e rest =>
      rw [hleft] at hpulled
      obtain ⟨hitem, session, hs₁, hrest⟩ := hpulled
      cases hitem
      cases hs₁
      rw [List.cons_append, within_cons hcap]
      have hread : left { s with session := some session }.noteEntry = rest := hrest
      exact ⟨hstage.trans hw, rfl, owes_of_running rangesOf
        (s := { s with session := some session }.noteEntry) hs hchunks hread⟩

private theorem next_exhausted (hs : s.finished = false) (hw : w.stage = (store, false))
    (hcap : s.remaining ≠ some 0) (hleft : s.left = [])
    (hchunks : p.HandsOut store s.partition []) :
    Pays p store rows rangesOf [] (s.next (faultFree table rangesOf p) w) := by
  obtain ⟨w₁, hw₁, hlast, -⟩ := next_onward table rangesOf p hs hw hcap hleft
  cases hchunks with
  | done hnone =>
    have hstore : w₁.env = store := congrArg Prod.fst hw₁
    have hask : w₁.ask ((faultFree table rangesOf p).partition.next s.partition) =
        ((none, s.partition), w₁) :=
      World.ask_eq (by rw [hstore]; exact hnone)
    obtain ⟨hitem, hafter⟩ := hlast _ _ hask
    exact ⟨hafter ▸ hw₁, hitem⟩

private theorem next_entered (htable : store.find? table = some rows) (hs : s.finished = false)
    (hw : w.stage = (store, false)) (hcap : s.remaining ≠ some 0) (hleft : s.left = [])
    {q : QuerySettings} (hchunks : p.HandsOut store s.partition (q :: chunks)) :
    ∃ after session w₁, p.HandsOut store after chunks ∧ w₁.stage = (store, false) ∧
      session.elim [] Session.left =
        MemoryStore.returned rows s.authorizations (rangesOf q.forChunk) ∧
      s.next (faultFree table rangesOf p) w =
        next (faultFree table rangesOf p)
          { s with session, partition := after, chunk := s.chunk + 1, chunkEntries := 0 } w₁ := by
  obtain ⟨w₁, hw₁, -, hnext⟩ := next_onward table rangesOf p hs hw hcap hleft
  cases hchunks with
  | @chunk _ after _ _ hsome hrest =>
    have hstore : w₁.env = store := congrArg Prod.fst hw₁
    have hask : w₁.ask ((faultFree table rangesOf p).partition.next s.partition) =
        ((some q, after), w₁) :=
      World.ask_eq (by rw [hstore]; exact hsome)
    have hfound : w₁.env.find? table = some rows := hstore ▸ htable
    obtain ⟨hentered, hstage, session, hs₂, hread⟩ := enter_faultFree table rangesOf p q
      { s with session := none, partition := after } hfound
    have hloop := hnext q after w₁
    generalize enter (faultFree table rangesOf p) q
      { s with session := none, partition := after } w₁ = reply at hentered hstage hs₂ hloop
    obtain ⟨failure, s₂, w₂⟩ := reply
    cases hentered
    cases hs₂
    exact ⟨after, session, w₂, hrest, hstage.trans hw₁, hread, hloop _ _ hask rfl⟩

private theorem next_running (htable : store.find? table = some rows)
    (hchunks : p.HandsOut store s.partition chunks) (hs : s.finished = false)
    (hw : w.stage = (store, false)) :
    Pays p store rows rangesOf
      (within s.remaining (s.left ++ entriesOf rows rangesOf s.authorizations chunks))
      (s.next (faultFree table rangesOf p) w) := by
  -- every round of the loop takes one chunk
  induction chunks generalizing s w with
  | nil =>
    by_cases hready : s.remaining = some 0 ∨ s.left ≠ []
    · exact next_ready hchunks hs hw hready
    · obtain ⟨hcap, hleft⟩ := not_or.1 hready
      have hleft : s.left = [] := Classical.not_not.1 hleft
      rw [hleft, entriesOf, List.flatMap_nil, List.nil_append, within_nil]
      exact next_exhausted hs hw hcap hleft hchunks
  | cons q chunks ih =>
    by_cases hready : s.remaining = some 0 ∨ s.left ≠ []
    · exact next_ready hchunks hs hw hready
    · obtain ⟨hcap, hleft⟩ := not_or.1 hready
      have hleft : s.left = [] := Classical.not_not.1 hleft
      obtain ⟨after, session, w₁, hrest, hw₁, hread, hnext⟩ :=
        next_entered htable hs hw hcap hleft hchunks
      rw [hnext, hleft, List.nil_append, entriesOf, List.flatMap_cons, ← hread]
      let s₁ : OverMemory χ :=
        { s with session, partition := after, chunk := s.chunk + 1, chunkEntries := 0 }
      exact ih (s := s₁) hrest hs hw₁

private theorem next_owes (htable : store.find? table = some rows) {entries : List Entry}
    (h : Owes p store rows rangesOf s entries) (hw : w.stage = (store, false)) :
    Pays p store rows rangesOf entries (s.next (faultFree table rangesOf p) w) := by
  unfold Owes at h
  cases hs : s.finished with
  | true =>
    rw [hs, if_pos rfl] at h
    rw [h, next_eq, if_pos hs]
    exact ⟨hw, rfl⟩
  | false =>
    rw [hs] at h
    obtain ⟨chunks, hchunks, hentries⟩ := h
    rw [hentries]
    exact next_running htable hchunks hs hw

private theorem take_owes (htable : store.find? table = some rows) {entries : List Entry}
    (h : Owes p store rows rangesOf s entries) (hw : w.stage = (store, false)) {n : Nat}
    (hn : entries.length < n) :
    let r := s.take (faultFree table rangesOf p) n w
    r.1 = (entries.map fun e => some (.ok e)) ++ [none] ∧ r.2.1.finished = true := by
  induction n generalizing s w entries with
  | zero => exact absurd hn (Nat.not_lt_zero _)
  | succ n ih =>
    obtain ⟨hstage, hpaid⟩ := next_owes htable h hw
    have hend := finished_next (faultFree table rangesOf p) s w
    rw [take]
    generalize s.next (faultFree table rangesOf p) w = reply at hstage hpaid hend ⊢
    obtain ⟨item, s₁, w₁⟩ := reply
    cases entries with
    | nil =>
      cases hpaid
      exact ⟨rfl, hend rfl⟩
    | cons e rest =>
      obtain ⟨hitem, hrest⟩ := hpaid
      cases hitem
      obtain ⟨hitems, hfinished⟩ := ih hrest hstage (Nat.lt_of_succ_lt_succ hn)
      refine ⟨?_, hfinished⟩
      dsimp only
      rw [hitems]
      rfl

end

private theorem openFirst_faultFree {store : MemoryStore} (htable : store.find? table = some rows)
    (base : QuerySettings) (authorizations : Authorizations) (cap : Option Nat) {state : χ}
    {chunks : List QuerySettings} (hchunks : p.HandsOut store state chunks)
    {w : World MemoryStore} (hw : w.stage = (store, false)) :
    let r := openFirst (faultFree table rangesOf p) base authorizations cap state w
    r.2.stage = (store, false) ∧ ∃ s, r.1 = .ok s ∧ Owes p store rows rangesOf s
      (within cap (entriesOf rows rangesOf authorizations (effective base chunks))) := by
  have hstore : w.env = store := congrArg Prod.fst hw
  have hfirst : ∃ q after w₁ rest, firstChunk (faultFree table rangesOf p) base state w =
      (q, after, w₁) ∧ effective base chunks = q :: rest ∧ p.HandsOut store after rest ∧
      w₁.stage = (store, false) := by
    unfold firstChunk
    cases hchunks with
    | done hnone =>
      have hask : w.ask ((faultFree table rangesOf p).partition.next state) =
          ((none, state), w) := World.ask_eq (by rw [hstore]; exact hnone)
      rw [hask]
      exact ⟨base, state, _, [], rfl, rfl, .done hnone, hw⟩
    | @chunk _ after q rest hsome hrest =>
      have hask : w.ask ((faultFree table rangesOf p).partition.next state) =
          ((some q, after), w) := World.ask_eq (by rw [hstore]; exact hsome)
      rw [hask]
      exact ⟨q, after, w, rest, rfl, if_neg (List.cons_ne_nil _ _), hrest, hw⟩
  obtain ⟨q, after, w₁, rest, htaken, heffective, hrest, hw₁⟩ := hfirst
  have hfound : w₁.env.find? table = some rows := by
    rw [show w₁.env = store from congrArg Prod.fst hw₁]
    exact htable
  unfold openFirst
  rw [htaken, heffective]
  dsimp only
  obtain ⟨hstage, ⟨plan, hplan⟩, session, hs, hread⟩ := startChunk_faultFree table rangesOf p q
    (unstarted base authorizations cap after) hfound
  generalize startChunk (faultFree table rangesOf p) q
    (unstarted base authorizations cap after) w₁ = reply at hstage hplan hs ⊢
  obtain ⟨answer, s, w₂⟩ := reply
  cases hplan
  cases hs
  exact ⟨hstage.trans hw₁, _, rfl, owes_of_running rangesOf rfl hrest hread⟩

private theorem observe_faultFree {store : MemoryStore} {plan : Plan} (hwork : plan.hasWork = true)
    {entries : List Entry}
    (hscan : store.scan plan.table plan.authorizations plan.ranges = .ok entries) {state after : χ}
    (hends : (p.observe plan state).EndsWell store entries after) {w : World MemoryStore}
    (hw : w.stage = (store, false)) :
    let r := observe (faultFree table rangesOf p) plan state w
    r.1 = .ok after ∧ r.2.stage = (store, false) := by
  have hranges : plan.ranges.isEmpty = false := by simpa [Plan.hasWork] using hwork
  have hstore : w.env = store := congrArg Prod.fst hw
  rw [← hstore] at hscan
  obtain ⟨session, w₁, hstart, hleft, hstage⟩ := MemoryStore.start_session hranges hscan
  have hstarted : Session.start (faultFree table rangesOf p).store plan.table plan.authorizations
      plan.ranges true w = (.ok session, w₁) := hstart
  have hstore₁ : w₁.env = store := (congrArg Prod.fst hstage).trans hstore
  obtain ⟨houtcome, hrun⟩ := MemoryStore.run_observation hends hleft hstore₁
  unfold observe
  rw [hstarted]
  dsimp only [faultFree] at houtcome hrun ⊢
  generalize (p.observe plan state).run MemoryStore.scanStore session w₁ = reply
    at houtcome hrun ⊢
  obtain ⟨outcome, session₂, w₂⟩ := reply
  cases houtcome
  refine ⟨rfl, ?_⟩
  exact (session₂.stage_close MemoryStore.releasesQuietly w₂).trans (hrun.trans (hstage.trans hw))

private theorem basePass_idle (base : QuerySettings) (authorizations : Authorizations) (state : χ)
    (w : World MemoryStore) :
    let plan : Plan := ⟨base.id, table, authorizations, rangesOf base⟩
    let r := basePass (faultFree table rangesOf p) base authorizations state w
    plan.hasWork = false → r.1 = .ok (.inl plan) ∧ r.2.stage = w.stage := by
  intro plan r hwork
  have hplan : (w.report .basePassStarted [("query", base.name)]).ask
      ((faultFree table rangesOf p).plan base authorizations) =
      (.ok plan, w.report .basePassStarted [("query", base.name)]) := World.ask_eq rfl
  have hpass : r = (.ok (.inl plan), w.report .basePassStarted [("query", base.name)]) := by
    simp only [r, basePass, hplan, hwork, Bool.false_eq_true, if_false]
  rw [hpass]
  exact ⟨rfl, rfl⟩

private theorem basePass_observed {store : MemoryStore} (htable : store.find? table = some rows)
    {base : QuerySettings} {authorizations : Authorizations} {state after : χ}
    {w : World MemoryStore} (hw : w.stage = (store, false)) :
    let plan : Plan := ⟨base.id, table, authorizations, rangesOf base⟩
    let r := basePass (faultFree table rangesOf p) base authorizations state w
    plan.hasWork = true → (p.observe plan state).EndsWell store
      (MemoryStore.returned rows authorizations (rangesOf base)) after →
    r.1 = .ok (.inr after) ∧ r.2.stage = (store, false) := by
  intro plan r hwork hends
  have hplan : (w.report .basePassStarted [("query", base.name)]).ask
      ((faultFree table rangesOf p).plan base authorizations) =
      (.ok plan, w.report .basePassStarted [("query", base.name)]) := World.ask_eq rfl
  obtain ⟨hafter, hstage⟩ := observe_faultFree table rangesOf p hwork
    (MemoryStore.scan_eq htable authorizations (rangesOf base)) hends
    (w := w.report .basePassStarted [("query", base.name)]) hw
  have hpass : r = ((observe (faultFree table rangesOf p) plan state
      (w.report .basePassStarted [("query", base.name)])).1.map .inr,
      (observe (faultFree table rangesOf p) plan state
        (w.report .basePassStarted [("query", base.name)])).2) := by
    simp only [r, basePass, hplan, hwork, if_true]
  rw [hpass, hafter]
  exact ⟨rfl, hstage⟩

private theorem prepare_faultFree {store : MemoryStore} (htable : store.find? table = some rows)
    {state : χ} (limit : Option Nat) {base : QuerySettings} {authorizations : Authorizations}
    {chunks : List QuerySettings} {pass : Bool}
    (hsplits : p.Splits store base ⟨base.id, table, authorizations, rangesOf base⟩
      (MemoryStore.returned rows authorizations (rangesOf base)) state chunks pass)
    (hidle : pass = true → rangesOf base = [] →
      entriesOf rows rangesOf authorizations (effective base chunks) = [])
    {w : World MemoryStore} (hw : w.stage = (store, false)) :
    let r := prepare (faultFree table rangesOf p) state limit base authorizations w
    r.2.stage = (store, false) ∧ ∃ s, r.1 = .ok s ∧ Owes p store rows rangesOf s
      (within (Limit.inEffect limit base)
        (entriesOf rows rangesOf authorizations (effective base chunks))) := by
  have hstore : w.env = store := congrArg Prod.fst hw
  have hset {based : χ} (h : p.setBase base state store = ⟨based, store, false⟩) :
      w.ask ((faultFree table rangesOf p).partition.setBase base state) = (based, w) :=
    World.ask_eq (by rw [hstore]; exact h)
  have hwants : (faultFree table rangesOf p).partition.wantsBasePass = p.wantsBasePass := rfl
  have hcap := Limit.resolve_fst limit base w
  have hlimit : (Limit.resolve limit base w).2.stage = (store, false) := by
    rw [Limit.resolve_snd]
    exact hw
  unfold prepare
  cases hsplits with
  | direct hbased hno hchunks =>
    rw [hset hbased]
    simp only [hwants, hno, Bool.false_eq_true, if_false, hcap]
    exact openFirst_faultFree table rangesOf p htable base authorizations _ hchunks hlimit
  | observed hbased hyes hwork hends hchunks =>
    obtain ⟨hpass, hstage⟩ := basePass_observed table rangesOf p htable hlimit hwork hends
    rw [hset hbased]
    simp only [hwants, hyes, if_true, hcap]
    generalize basePass (faultFree table rangesOf p) base authorizations _
      (Limit.resolve limit base w).2 = reply at hpass hstage ⊢
    obtain ⟨answer, w₂⟩ := reply
    cases hpass
    exact openFirst_faultFree table rangesOf p htable base authorizations _ hchunks hstage
  | @idle based hbased hyes hwork =>
    obtain ⟨hpass, hstage⟩ := basePass_idle table rangesOf p base authorizations based
      (Limit.resolve limit base w).2 hwork
    have hranges : rangesOf base = [] := by simpa [Plan.hasWork] using hwork
    rw [hset hbased, hidle rfl hranges, within_nil]
    simp only [hwants, hyes, if_true]
    generalize basePass (faultFree table rangesOf p) base authorizations based
      (Limit.resolve limit base w).2 = reply at hpass hstage ⊢
    obtain ⟨answer, w₂⟩ := reply
    cases hpass
    exact ⟨hstage.trans hlimit, _, rfl, owes_nil_of_finished rangesOf rfl⟩

private theorem forChunk_baseOf (q : QuerySettings) (id : QueryId) :
    (baseOf q id).forChunk = baseOf q id :=
  congrArg (fun parameters => { baseOf q id with parameters }) (OrderedMap.insert_insert ..)

/-- The chunks that are run return together what one scan of the whole returns. -/
private theorem entriesOf_effective {q : QuerySettings} {id : QueryId} {chunks : List QuerySettings}
    {whole : List RowRange} (hfallback : chunks = [] → rangesOf (baseOf q id) = whole)
    (hparts : chunks ≠ [] →
      RowRange.PartOf rows (chunks.map fun chunk => rangesOf chunk.forChunk) whole)
    (authorizations : Authorizations) :
    entriesOf rows rangesOf authorizations (effective (baseOf q id) chunks) =
      MemoryStore.returned rows authorizations whole := by
  have hwhole : RowRange.PartOf rows
      ((effective (baseOf q id) chunks).map fun chunk => rangesOf chunk.forChunk) whole := by
    unfold effective
    split
    · next hnone =>
      rw [List.map_singleton, forChunk_baseOf, hfallback hnone]
      exact RowRange.PartOf.single rows whole
    · next hsome => exact hparts hsome
  rw [← MemoryStore.returned_parts authorizations hwhole, List.flatMap_map]
  rfl

/-- Chunking is transparent: when nothing fails and the chunks cover the rows of the table that the
whole covers, one part after the other, the stream yields the entries of one scan of the whole, in
its order and each once, or as many of the first of them as the cap allows. When there is no chunk
the whole is what the base query plans. When a pass over the base query is asked for, nothing is
scanned if the base query plans nothing, so that the whole is then nothing too. -/
theorem start_transparent {store : MemoryStore} {table : String} {rows : Table}
    (htable : store.find? table = some rows) (rangesOf : QuerySettings → List RowRange)
    (p : Partition MemoryStore χ) {state : χ} {q : QuerySettings} {id : QueryId}
    {authorizations : Authorizations} {chunks : List QuerySettings} {pass : Bool}
    (hsplits : p.Splits store (baseOf q id)
      ⟨(baseOf q id).id, table, authorizations, rangesOf (baseOf q id)⟩
      (MemoryStore.returned rows authorizations (rangesOf (baseOf q id))) state chunks pass)
    {whole : List RowRange} (hbase : chunks = [] → rangesOf (baseOf q id) = whole)
    (hpass : pass = true → rangesOf (baseOf q id) = [] → whole = [])
    (hparts : chunks ≠ [] →
      RowRange.PartOf rows (chunks.map fun chunk => rangesOf chunk.forChunk) whole)
    (limit : Option Nat) (log : Log) (metrics : Metrics) (now : Nat) :
    ∃ entries, store.scan table authorizations whole = .ok entries ∧
      (entries.Pairwise fun a b => compare a.key b.key = .lt) ∧
      let r := start (faultFree table rangesOf p) state limit q id authorizations
        { env := store, log, metrics, now }
      ∃ s, r.1 = .ok s ∧ ∀ n, entries.length < n →
        let calls := s.take (faultFree table rangesOf p) n r.2
        calls.1 = ((within (Limit.inEffect limit q) entries).map fun e => some (.ok e)) ++ [none] ∧
          calls.2.1.finished = true := by
  have hentries := entriesOf_effective rangesOf hbase hparts authorizations
  refine ⟨MemoryStore.returned rows authorizations whole,
    MemoryStore.scan_eq htable authorizations whole,
    MemoryStore.returned_increasing rows authorizations whole, ?_⟩
  have hidle : pass = true → rangesOf (baseOf q id) = [] →
      entriesOf rows rangesOf authorizations (effective (baseOf q id) chunks) = [] := by
    intro hpassed hnone
    rw [hentries, hpass hpassed hnone, MemoryStore.returned_nil]
  unfold start
  generalize Log.Scope.enter Log.Event.queryInitialize.name
    [("query", q.name), ("query_id", q.id.text)] now log = entered
  obtain ⟨scope, log₁⟩ := entered
  dsimp only
  obtain ⟨hstage, s, hstarted, howes⟩ := prepare_faultFree table rangesOf p htable limit hsplits
    hidle (w := { env := store, log := log₁, metrics, now }) rfl
  rw [hentries, Limit.inEffect_baseOf] at howes
  generalize prepare (faultFree table rangesOf p) state limit (baseOf q id) authorizations
    { env := store, log := log₁, metrics, now } = prepared at hstage hstarted ⊢
  obtain ⟨answer, w⟩ := prepared
  cases hstarted
  refine ⟨s, rfl, ?_⟩
  intro n hn
  refine take_owes htable howes ?_ (Nat.lt_of_le_of_lt (length_within_le _ _) hn)
  exact hstage

/-- Five entries, of which two stand in the row at which the query is split. -/
def seamRows : Table :=
  ((((∅ : Table).insert ⟨"a", "x", ""⟩ "1").insert ⟨"b", "x", ""⟩ "2").insert ⟨"b", "y", ""⟩ "3"
    |>.insert ⟨"c", "x", ""⟩ "4").insert ⟨"d", "x", ""⟩ "5"

def seamRanges (q : QuerySettings) : List RowRange :=
  if q.expression = "low" then [.between "a" "b"]
  else if q.expression = "high" then [.between "b" "d"]
  else [.between "a" "d"]

theorem start_transparent_seam :
    let c := faultFree "shard" seamRanges (Partition.queue true)
    let chunks : List QuerySettings := [⟨1, "first", "low", ∅⟩, ⟨2, "second", "high", ∅⟩]
    let r := start c chunks (some 3) ⟨3, "whole", "all", ∅⟩ 4 ∅
      { env := (∅ : MemoryStore).insert "shard" seamRows }
    ∃ s, r.1 = .ok s ∧ (s.take c 5 r.2).1 =
      [some (.ok ⟨⟨"a", "x", ""⟩, "1"⟩), some (.ok ⟨⟨"b", "x", ""⟩, "2"⟩),
       some (.ok ⟨⟨"b", "y", ""⟩, "3"⟩), none] := by
  intro c chunks r
  have htable : ((∅ : MemoryStore).insert "shard" seamRows).find? "shard" = some seamRows := by
    rw [OrderedMap.find?_insert, if_pos rfl]
  have hwhole (id : QueryId) : seamRanges (baseOf ⟨3, "whole", "all", ∅⟩ id) =
      [.between "a" "d"] := rfl
  have hparts : RowRange.PartOf seamRows (chunks.map fun chunk => seamRanges chunk.forChunk)
      [.between "a" "d"] := RowRange.PartOf.between seamRows (by decide) (by decide)
  obtain ⟨entries, hscan, -, s, hs, hcalls⟩ := start_transparent htable seamRanges
    (Partition.queue true) (q := ⟨3, "whole", "all", ∅⟩)
    (Partition.splits_queue true _ _ _ _ chunks) (fun _ => hwhole _)
    (fun _ hnone => (hwhole _).symm.trans hnone) (fun _ => hparts) (some 3) {} {} 0
  rw [MemoryStore.scan_eq htable] at hscan
  cases hscan
  refine ⟨s, hs, ?_⟩
  rw [(hcalls 5 (by decide)).1]
  rfl

end ChunkStream
end ShardQuery
