import ShardQuery.Proofs.Identifier.IssueLog
import ShardQuery.Proofs.Identifier.SnowflakeText
import ShardQuery.Proofs.Identifier.Succession

/-!
# Sources that share one cache

Any number of cached sources are in use at the same time over one cache. A call on one of them
reserves a tick and commits it later, and calls on the others may come in between. A source asks
the cache about a machine only before its first tick for it, and from then on counts by itself. So a
tick is above those its source issued before and above those issued before its source last asked
the cache about the machine, but not above what another source issued since.
-/

namespace ShardQuery

/-- What can be told of sources over a cache from outside: one of them has learnt from the cache
what it holds for a machine, or has issued a tick. -/
inductive SharingEvent where
  | asked (source : Nat) (machine : MachineId)
  | issued (issue : Issue)
deriving DecidableEq

namespace SharingEvent

def issue? : SharingEvent → Option Issue
  | asked _ _ => none
  | issued i => some i

theorem mem_filterMap_issue? {events : List SharingEvent} {i : Issue} :
    i ∈ events.filterMap issue? ↔ issued i ∈ events := by
  rw [List.mem_filterMap]
  constructor
  · rintro ⟨_ | k, hk, hi⟩
    · cases hi
    · cases hi
      exact hk
  · intro h
    exact ⟨issued i, h, rfl⟩

end SharingEvent

/-- A step of the sources over a cache: another one joins them, or one of them carries out a part of
a call, in which a load or a store may fail. -/
inductive SharingStep where
  | join
  | reserve (source : Nat) (machine : MachineId) (now : UInt64) (loadFails : Bool)
  | commit (source : Nat) (storeFails : Bool)

/-- The cache, the sources over it with the reservation that each of them is to commit, and what has
happened so far. -/
structure Sharing where
  cache : MemoryCache
  sources : List (CounterSource × Option Reservation) := []
  events : List SharingEvent := []

namespace Sharing

open SharingEvent

/-- A source that has not joined yet does nothing. One with a reservation takes no further call, as its
lock is held until it commits. -/
def step (s : Sharing) : SharingStep → Sharing
  | .join => { s with sources := s.sources ++ [(.newCached, none)] }
  | .reserve n machine now loadFails =>
    match s.sources[n]? with
    | some (source, none) =>
      let asks := source.issued.find? machine = none
      match source.reserve MemoryCache.cache.faulty machine now { inner := s.cache, loadFails } with
      | (.error _, source, c) => { s with cache := c.inner, sources := s.sources.set n (source, none) }
      | (.ok r, source, c) =>
        { cache := c.inner, sources := s.sources.set n (source, some r),
          events := if asks then s.events ++ [asked n machine] else s.events }
    | _ => s
  | .commit n storeFails =>
    match s.sources[n]? with
    | some (source, some r) =>
      match source.commit MemoryCache.cache.faulty r { inner := s.cache, storeFails } with
      | (.error _, source, c) => { s with cache := c.inner, sources := s.sources.set n (source, none) }
      | (.ok tick, source, c) =>
        { cache := c.inner, sources := s.sources.set n (source, none),
          events := s.events ++ [issued ⟨r.machine, tick, n⟩] }
    | _ => s

def run (s : Sharing) (steps : List SharingStep) : Sharing := steps.foldl step s

def onCache (cache : MemoryCache) : Sharing := { cache }

/-- A source takes this tick into account: it issued the tick itself, or asked the cache about the
machine later. -/
def Regards (events : List SharingEvent) (i : Issue) (n : Nat) : Prop :=
  (issued i ∈ events ∧ i.source = n) ∨ [issued i, asked n i.machine].Sublist events

section

variable {events before later l : List SharingEvent} {e x : SharingEvent} {i j : Issue} {n m : Nat}
  {machine : MachineId}

theorem Regards.mem (h : Regards events i n) : issued i ∈ events := by
  rcases h with ⟨hi, -⟩ | h
  · exact hi
  · exact h.subset List.mem_cons_self

private theorem split_concat (h : events ++ [e] = before ++ x :: later) :
    (before = events ∧ x = e) ∨ ∃ rest, events = before ++ x :: rest := by
  rcases List.eq_nil_or_concat later with rfl | ⟨rest, y, rfl⟩
  · obtain ⟨hbefore, hx⟩ := List.append_inj' h rfl
    cases hx
    exact Or.inl ⟨hbefore.symm, rfl⟩
  · rw [List.concat_eq_append, ← List.cons_append, ← List.append_assoc] at h
    exact Or.inr ⟨rest, (List.append_inj' h rfl).1⟩

private theorem exists_split (h : (l ++ [x]).Sublist events) :
    ∃ before later, events = before ++ x :: later ∧ l.Sublist before := by
  obtain ⟨front, back, rfl, hfront, hback⟩ := List.append_sublist_iff.1 h
  obtain ⟨between, later, rfl⟩ := List.append_of_mem (List.singleton_sublist.1 hback)
  exact ⟨front ++ between, later, by simp, hfront.trans (List.sublist_append_left _ _)⟩

private theorem sublist_of_concat (h : (l ++ [x]).Sublist (events ++ [e])) :
    (l ++ [x]).Sublist events ∨ l.Sublist events ∧ x = e := by
  obtain ⟨before, later, hsplit, hl⟩ := exists_split h
  rcases split_concat hsplit with ⟨rfl, rfl⟩ | ⟨rest, rfl⟩
  · exact Or.inr ⟨hl, rfl⟩
  · exact Or.inl (hl.append (List.singleton_sublist.2 List.mem_cons_self))

theorem Regards.of_issued (h : Regards (events ++ [issued j]) i n) :
    Regards events i n ∨ i = j ∧ j.source = n := by
  rcases h with ⟨hi, hsource⟩ | h
  · rcases List.mem_append.1 hi with hi | hi
    · exact Or.inl (Or.inl ⟨hi, hsource⟩)
    · cases List.mem_singleton.1 hi
      exact Or.inr ⟨rfl, hsource⟩
  · rcases sublist_of_concat (l := [issued i]) h with h | ⟨-, h⟩
    · exact Or.inl (Or.inr h)
    · cases h

theorem Regards.of_asked (h : Regards (events ++ [asked m machine]) i n) :
    Regards events i n ∨ issued i ∈ events ∧ i.machine = machine ∧ m = n := by
  rcases h with ⟨hi, hsource⟩ | h
  · rcases List.mem_append.1 hi with hi | hi
    · exact Or.inl (Or.inl ⟨hi, hsource⟩)
    · cases List.mem_singleton.1 hi
  · rcases sublist_of_concat (l := [issued i]) h with h | ⟨hi, h⟩
    · exact Or.inl (Or.inr h)
    · cases h
      exact Or.inr ⟨List.singleton_sublist.1 hi, rfl, rfl⟩

end

/-- What ties a source to the cache and to the events so far: the cache holds what it goes on from,
and its last ticks are not below those that it regards. -/
structure KeepsUp (cache : MemoryCache) (events : List SharingEvent) (n : Nat) (s : CounterSource) :
    Prop where
  backed : s.BackedBy cache
  reached : ∀ i, Regards events i n → ∀ last, s.issued.find? i.machine = some last →
    i.tick < last ∨ i.tick = last

/-- What ties a reservation to them: the cache holds what its tick is to follow, and the tick is
above all that its source regards. -/
structure Leads (cache : MemoryCache) (events : List SharingEvent) (n : Nat) (r : Reservation) :
    Prop where
  held : ∀ last, r.previous = some last → cache.Holds r.machine last.millis
  above : ∀ i, Regards events i n → i.machine = r.machine → i.tick < r.tick

/-- Whenever a tick is issued, it is above all that its source regards. -/
def IssuesAbove (events : List SharingEvent) : Prop :=
  ∀ before j later, events = before ++ issued j :: later →
    ∀ i, Regards before i j.source → i.machine = j.machine → i.tick < j.tick

/-- What ties the events to the cache and to the sources. -/
structure Consistent (s : Sharing) : Prop where
  covered : ∀ i, issued i ∈ s.events → s.cache.Holds i.machine i.tick.millis
  keepsUp : ∀ n source r, s.sources[n]? = some (source, r) → KeepsUp s.cache s.events n source
  leads : ∀ n source r, s.sources[n]? = some (source, some r) → Leads s.cache s.events n r
  increasing : IssuesAbove s.events

theorem Consistent.start (cache : MemoryCache) : Consistent (onCache cache) where
  covered _ h := by cases h
  keepsUp _ _ _ h := by cases h
  leads _ _ _ h := by cases h
  increasing := by simp [onCache, IssuesAbove]

section

variable {s : Sharing} {n : Nat}

theorem Consistent.join (h : s.Consistent) : (s.step .join).Consistent := by
  have hcases {m : Nat} {p : CounterSource × Option Reservation}
      (hm : (s.sources ++ [(.newCached, none)])[m]? = some p) :
      s.sources[m]? = some p ∨ p = (.newCached, none) := by
    rw [List.getElem?_append] at hm
    split at hm
    · exact Or.inl hm
    · exact Or.inr (List.mem_singleton.1 (List.mem_of_getElem? hm))
  exact
    { covered := h.covered
      keepsUp := by
        intro m source r hm
        rcases hcases hm with hm | hm
        · exact h.keepsUp m source r hm
        · cases hm
          exact ⟨fun _ _ hlast => (by cases hlast), fun _ _ _ hlast => (by cases hlast)⟩
      leads := by
        intro m source r hm
        rcases hcases hm with hm | hm
        · exact h.leads m source r hm
        · cases hm
      increasing := h.increasing }

/-- One source moves: what the cache holds it still holds, and the others regard no more than
before. -/
private theorem Consistent.settle (h : s.Consistent) {cache : MemoryCache}
    {events : List SharingEvent} {source : CounterSource} {r : Option Reservation}
    (hholds : ∀ machine millis, s.cache.Holds machine millis → cache.Holds machine millis)
    (hothers : ∀ m, m ≠ n → ∀ i, Regards events i m → Regards s.events i m)
    (hcovered : ∀ i, issued i ∈ events → cache.Holds i.machine i.tick.millis)
    (hkeepsUp : KeepsUp cache events n source) (hleads : ∀ r', r = some r' → Leads cache events n r')
    (hincreasing : IssuesAbove events) :
    Consistent { cache, events, sources := s.sources.set n (source, r) } := by
  have hcases {m : Nat} {p : CounterSource × Option Reservation}
      (hm : (s.sources.set n (source, r))[m]? = some p) :
      m = n ∧ p = (source, r) ∨ m ≠ n ∧ s.sources[m]? = some p := by
    rw [List.getElem?_set] at hm
    split at hm
    · next heq =>
      split at hm
      · cases hm
        exact Or.inl ⟨heq.symm, rfl⟩
      · cases hm
    · next hne => exact Or.inr ⟨Ne.symm hne, hm⟩
  exact
    { covered := hcovered
      keepsUp := by
        intro m other r' hm
        rcases hcases hm with ⟨rfl, hp⟩ | ⟨hne, hm⟩
        · cases hp
          exact hkeepsUp
        · have hbefore := h.keepsUp m other r' hm
          exact
            { backed := fun machine last hlast => hholds _ _ (hbefore.backed machine last hlast)
              reached := fun i hi => hbefore.reached i (hothers m hne i hi) }
      leads := by
        intro m other r' hm
        rcases hcases hm with ⟨rfl, hp⟩ | ⟨hne, hm⟩
        · cases hp
          exact hleads r' rfl
        · have hbefore := h.leads m other r' hm
          exact
            { held := fun last hlast => hholds _ _ (hbefore.held last hlast)
              above := fun i hi => hbefore.above i (hothers m hne i hi) }
      increasing := hincreasing }

private theorem Consistent.unlock (h : s.Consistent) {source after : CounterSource}
    {r : Option Reservation} (hn : s.sources[n]? = some (source, r))
    (hissued : after.issued = source.issued) :
    Consistent { s with sources := s.sources.set n (after, none) } := by
  have hbefore := h.keepsUp n source r hn
  refine h.settle (fun _ _ hheld => hheld) (fun _ _ _ hi => hi) h.covered ?_ ?_ h.increasing
  · exact
      { backed := by simpa only [CounterSource.BackedBy, hissued] using hbefore.backed
        reached := by simpa only [hissued] using hbefore.reached }
  · intro r' hr'
    cases hr'

section

variable {source : CounterSource} {machine : MachineId} {now : UInt64} {tick : Tick}

private theorem Consistent.reserve_own (h : s.Consistent) {r : Option Reservation}
    (hn : s.sources[n]? = some (source, r)) {last : Tick}
    (hlast : source.issued.find? machine = some last)
    (hnext : Tick.next (source.resumed s.cache machine) now = some tick) :
    Consistent { s with
      sources := s.sources.set n (source, some ⟨machine, source.resumed s.cache machine, tick⟩) } := by
  have hbefore := h.keepsUp n source r hn
  refine h.settle (fun _ _ hheld => hheld) (fun _ _ _ hi => hi) h.covered hbefore ?_ h.increasing
  rintro _ ⟨⟩
  refine ⟨fun _ hprevious => hbefore.backed.holds_resumed hprevious, ?_⟩
  rintro i hi rfl
  have hlt := CounterSource.lt_of_next_resumed hlast hnext
  rcases hbefore.reached i hi last hlast with hreached | hreached
  · exact Tick.lt_trans hreached hlt
  · rw [hreached]
    exact hlt

/-- A source that has none learns from the cache of all ticks issued so far. -/
private theorem Consistent.reserve_asked (h : s.Consistent) {r : Option Reservation}
    (hn : s.sources[n]? = some (source, r)) (hlast : source.issued.find? machine = none)
    (hnext : Tick.next (source.resumed s.cache machine) now = some tick) :
    Consistent { s with
      sources := s.sources.set n (source, some ⟨machine, source.resumed s.cache machine, tick⟩)
      events := s.events ++ [asked n machine] } := by
  have hbefore := h.keepsUp n source r hn
  have hmem {i : Issue} (hi : issued i ∈ s.events ++ [asked n machine]) : issued i ∈ s.events := by
    rcases List.mem_append.1 hi with hi | hi
    · exact hi
    · cases List.mem_singleton.1 hi
  refine h.settle (fun _ _ hheld => hheld) ?_ (fun i hi => h.covered i (hmem hi)) ?_ ?_ ?_
  · intro m hne i hi
    rcases hi.of_asked with hi | ⟨-, -, heq⟩
    · exact hi
    · exact absurd heq.symm hne
  · refine ⟨hbefore.backed, ?_⟩
    intro i hi last hfind
    rcases hi.of_asked with hi | ⟨-, hmachine, -⟩
    · exact hbefore.reached i hi last hfind
    · rw [hmachine, hlast] at hfind
      cases hfind
  · rintro _ ⟨⟩
    refine ⟨fun _ hprevious => hbefore.backed.holds_resumed hprevious, ?_⟩
    rintro i hi rfl
    have hheld := h.covered i (hmem hi.mem)
    exact Or.inl (CounterSource.millis_lt_of_next_resumed hlast hheld hnext)
  · intro before j later hsplit
    rcases split_concat hsplit with ⟨-, hasked⟩ | ⟨rest, hsplit⟩
    · cases hasked
    · exact h.increasing before j rest hsplit

theorem Consistent.reserve (h : s.Consistent) (n : Nat) (machine : MachineId) (now : UInt64)
    (loadFails : Bool) : (s.step (.reserve n machine now loadFails)).Consistent := by
  rw [Sharing.step]
  split
  · next source hn =>
    rcases source.reserve_faulty_cases machine now { inner := s.cache, loadFails } with
      ⟨e, after, herror, hissued, -⟩ | ⟨tick, hnext, hok⟩
    · rw [herror]
      exact h.unlock hn hissued
    · rw [hok]
      dsimp only
      cases hlast : source.issued.find? machine with
      | some last =>
        rw [if_neg (by simp)]
        exact h.reserve_own hn hlast hnext
      | none =>
        rw [if_pos rfl]
        exact h.reserve_asked hn hlast hnext
  · exact h

end

private theorem Consistent.issue (h : s.Consistent) {source : CounterSource} {r : Reservation}
    (hn : s.sources[n]? = some (source, some r)) :
    Consistent
      { cache := s.cache.told r.machine r.previous r.tick
        sources := s.sources.set n (source.note r.machine r.tick, none)
        events := s.events ++ [issued ⟨r.machine, r.tick, n⟩] } := by
  have hbefore := h.keepsUp n source _ hn
  have hleads := h.leads n source r hn
  have hheld := MemoryCache.holds_told hleads.held r.tick
  refine h.settle (fun _ _ hheld => hheld.told _ _ _) ?_ ?_ ?_ ?_ ?_
  · intro m hne i hi
    rcases hi.of_issued with hi | ⟨-, heq⟩
    · exact hi
    · exact absurd heq.symm hne
  · intro i hi
    rcases List.mem_append.1 hi with hi | hi
    · exact (h.covered i hi).told _ _ _
    · cases List.mem_singleton.1 hi
      exact hheld
  · refine ⟨(hbefore.backed.told _ _ _).note hheld, ?_⟩
    intro i hi last hlast
    rw [CounterSource.find?_note] at hlast
    rcases hi.of_issued with hi | ⟨rfl, -⟩
    · split at hlast
      · next heq =>
        cases hlast
        exact Or.inl (hleads.above i hi heq)
      · exact hbefore.reached i hi last hlast
    · rw [if_pos rfl] at hlast
      cases hlast
      exact Or.inr rfl
  · intro r' hr'
    cases hr'
  · intro before j later hsplit
    rcases split_concat hsplit with ⟨rfl, hissued⟩ | ⟨rest, hsplit⟩
    · cases hissued
      exact hleads.above
    · exact h.increasing before j rest hsplit

theorem Consistent.commit (h : s.Consistent) (n : Nat) (storeFails : Bool) :
    (s.step (.commit n storeFails)).Consistent := by
  rw [Sharing.step]
  split
  · next source r hn =>
    rcases source.commit_faulty_cases r { inner := s.cache, storeFails } with ⟨e, herror⟩ | hok
    · rw [herror]
      exact h.unlock hn rfl
    · rw [hok]
      exact h.issue hn
  · exact h

end

theorem Consistent.step {s : Sharing} (h : s.Consistent) (x : SharingStep) :
    (s.step x).Consistent := by
  cases x with
  | join => exact h.join
  | reserve n machine now loadFails => exact h.reserve n machine now loadFails
  | commit n storeFails => exact h.commit n storeFails

theorem Consistent.run {s : Sharing} (h : s.Consistent) (steps : List SharingStep) :
    (s.run steps).Consistent := by
  induction steps generalizing s with
  | nil => exact h
  | cons x steps ih => exact ih (h.step x)

/-- A source that issues a tick after another source has issued one for the machine has asked the
cache about the machine in between. -/
def HandedOver (events : List SharingEvent) : Prop :=
  ∀ i ∈ events.filterMap issue?, ∀ j ∈ events.filterMap issue?,
    [issued i, issued j].Sublist events → i.machine = j.machine → i.source ≠ j.source →
      [issued i, asked j.source j.machine, issued j].Sublist events

instance (events : List SharingEvent) : Decidable (HandedOver events) :=
  inferInstanceAs (Decidable (∀ i ∈ events.filterMap issue?, ∀ j ∈ events.filterMap issue?,
    [issued i, issued j].Sublist events → i.machine = j.machine → i.source ≠ j.source →
      [issued i, asked j.source j.machine, issued j].Sublist events))

def base? (i : Issue) : Option Snowflake :=
  (Snowflake.make i.machine i.tick.millis i.tick.counter).toOption

private theorem eq_of_base? {i j : Issue} {b : Snowflake} (hi : base? i = some b)
    (hj : base? j = some b) : i.machine = j.machine ∧ i.tick = j.tick := by
  have hmake {x : Issue} (hx : base? x = some b) :
      Snowflake.make x.machine x.tick.millis x.tick.counter = .ok b := by
    unfold base? at hx
    cases hresult : Snowflake.make x.machine x.tick.millis x.tick.counter with
    | error e =>
      rw [hresult] at hx
      cases hx
    | ok base =>
      rw [hresult] at hx
      cases hx
      rfl
  obtain ⟨himachine, himillis, hicounter⟩ := Snowflake.make_eq_ok (hmake hi)
  obtain ⟨hjmachine, hjmillis, hjcounter⟩ := Snowflake.make_eq_ok (hmake hj)
  have hmillis : i.tick.millis = j.tick.millis := UInt64.toNat_inj.1 (himillis.symm.trans hjmillis)
  have hcounter : i.tick.counter = j.tick.counter := hicounter.symm.trans hjcounter
  refine ⟨himachine.symm.trans hjmachine, ?_⟩
  calc
    i.tick = ⟨i.tick.millis, i.tick.counter⟩ := rfl
    _ = j.tick := by rw [hmillis, hcounter]

section

variable {events : List SharingEvent}

theorem IssuesAbove.lt_of_source_eq (h : IssuesAbove events) {i j : Issue}
    (hsub : [issued i, issued j].Sublist events) (hmachine : i.machine = j.machine)
    (hsource : i.source = j.source) : i.tick < j.tick := by
  obtain ⟨before, later, hsplit, hi⟩ := exists_split (l := [issued i]) hsub
  exact h before j later hsplit i (Or.inl ⟨List.singleton_sublist.1 hi, hsource⟩) hmachine

theorem IssuesAbove.lt_of_asked (h : IssuesAbove events) {i j : Issue}
    (hsub : [issued i, asked j.source j.machine, issued j].Sublist events)
    (hmachine : i.machine = j.machine) : i.tick < j.tick := by
  obtain ⟨before, later, hsplit, hi⟩ :=
    exists_split (l := [issued i, asked j.source j.machine]) hsub
  rw [← hmachine] at hi
  exact h before j later hsplit i (Or.inr hi) hmachine

theorem IssuesAbove.pairwise (h : IssuesAbove events) (hover : HandedOver events) :
    (events.filterMap issue?).Pairwise fun i j => i.machine = j.machine → i.tick < j.tick := by
  rw [List.pairwise_filterMap, List.pairwise_iff_forall_sublist]
  rintro (_ | i) (_ | j) hsub _ ⟨⟩ _ ⟨⟩ hmachine
  by_cases hsource : i.source = j.source
  · exact h.lt_of_source_eq hsub hmachine hsource
  · have hi := mem_filterMap_issue?.2 (hsub.subset List.mem_cons_self)
    have hj := mem_filterMap_issue?.2 (hsub.subset (List.mem_cons_of_mem _ List.mem_cons_self))
    exact h.lt_of_asked (hover i hi j hj hsub hmachine hsource) hmachine

end

/-- Cached sources that join one another over one cache and whose calls overlap in any way. A tick
is above every earlier one of its machine that its own source issued, and above every one issued
before its source last asked the cache about the machine. No tick is issued twice, and no two bases
have the same text, if a source never issues a tick after another source without having asked in
between. -/
theorem run_onCache (cache : MemoryCache) (steps : List SharingStep) :
    let events := (run (onCache cache) steps).events
    let ticks := events.filterMap issue?
    (∀ i j, [issued i, issued j].Sublist events → i.machine = j.machine → i.source = j.source →
      i.tick < j.tick) ∧
    (∀ i j, [issued i, asked j.source j.machine, issued j].Sublist events →
      i.machine = j.machine → i.tick < j.tick) ∧
    (HandedOver events →
      (ticks.Pairwise fun i j => i.machine = j.machine → i.tick < j.tick) ∧
      ((ticks.filterMap base?).map Snowflake.text).Nodup) := by
  intro events ticks
  have habove : IssuesAbove events := ((Consistent.start cache).run steps).increasing
  refine ⟨fun i j => habove.lt_of_source_eq, fun i j => habove.lt_of_asked, ?_⟩
  intro hover
  have hpairwise := habove.pairwise hover
  refine ⟨hpairwise, ?_⟩
  rw [List.Nodup, List.pairwise_map, List.pairwise_filterMap]
  refine hpairwise.imp ?_
  intro i j hlt a ha b hb htext
  rw [← Snowflake.text_injective htext] at hb
  obtain ⟨hmachine, htick⟩ := eq_of_base? ha hb
  have hself := hlt hmachine
  rw [htick] at hself
  exact Tick.lt_irrefl _ hself

def request (source : Nat) (machine : MachineId) (now : UInt64) (storeFails : Bool) :
    List SharingStep :=
  [.reserve source machine now false, .commit source storeFails]

def takeoverSteps (machine : MachineId) : List SharingStep :=
  [.join] ++ request 0 machine 100 false ++ request 0 machine 100 false ++ [.join] ++
    request 1 machine 50 true ++ request 1 machine 50 false ++ request 1 machine 101 false

theorem run_onCache_takeover :
    let events := (run (onCache {}) (takeoverSteps 1)).events
    events =
      [asked 0 1, issued ⟨1, ⟨100, 0⟩, 0⟩, issued ⟨1, ⟨100, 1⟩, 0⟩, asked 1 1, asked 1 1,
       issued ⟨1, ⟨101, 0⟩, 1⟩, issued ⟨1, ⟨101, 1⟩, 1⟩] ∧
      HandedOver events ∧
      (((events.filterMap issue?).filterMap base?).map Snowflake.text).Nodup := by
  intro events
  have hover : HandedOver events := by decide
  exact ⟨by decide, hover, ((run_onCache {} (takeoverSteps 1)).2.2 hover).2⟩

def interleavedSteps (machine : MachineId) : List SharingStep :=
  [.join, .join] ++ request 0 machine 100 false ++ request 1 machine 100 false ++
    request 0 machine 101 false

def overlappingSteps (machine : MachineId) : List SharingStep :=
  [.join, .join, .reserve 0 machine 100 false, .reserve 1 machine 100 false, .commit 0 false,
   .commit 1 false]

/-- The first source does not learn that the second one has issued millisecond 101; and of two
sources that ask at the same time neither learns of the other. -/
theorem not_nodup_run_overlap :
    let interleaved := (run (onCache {}) (interleavedSteps 1)).events.filterMap issue?
    let overlapping := (run (onCache {}) (overlappingSteps 1)).events.filterMap issue?
    interleaved = [⟨1, ⟨100, 0⟩, 0⟩, ⟨1, ⟨101, 0⟩, 1⟩, ⟨1, ⟨101, 0⟩, 0⟩] ∧
      ¬ (interleaved.map fun i => (i.machine, i.tick)).Nodup ∧
      ¬ ((interleaved.filterMap base?).map Snowflake.text).Nodup ∧
      overlapping = [⟨1, ⟨100, 0⟩, 0⟩, ⟨1, ⟨100, 0⟩, 1⟩] := by
  intro interleaved overlapping
  refine ⟨by decide, by decide, ?_, by decide⟩
  intro htexts
  have hbases : (interleaved.filterMap base?).Nodup :=
    List.Pairwise.of_map Snowflake.text (fun _ _ hne heq => hne (congrArg _ heq)) htexts
  exact absurd hbases (by decide)

end Sharing
end ShardQuery
