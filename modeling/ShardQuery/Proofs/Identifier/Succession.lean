import ShardQuery.Proofs.Identifier.CachedTick

/-!
# Sources that succeed one another over one cache

A cached source is given up and another one takes its place over the same cache, any number of
times, and the cache may fail at any call. The cache always holds a millisecond at or above every
one issued, so no tick is issued twice, and a new source starts in a later millisecond.
-/

namespace ShardQuery

/-- A tick that was issued, and the number of the source that issued it. -/
structure Issue where
  machine : MachineId
  tick : Tick
  source : Nat
deriving DecidableEq

inductive SuccessionStep where
  | replace
  | request (machine : MachineId) (now : UInt64) (loadFails storeFails : Bool)

/-- The present source and its number, the cache, and every tick issued so far in order. -/
structure Succession where
  source : CounterSource := .newCached
  cache : MemoryCache
  number : Nat := 0
  issued : List Issue := []

namespace Succession

def step (s : Succession) : SuccessionStep → Succession
  | .replace => { s with source := .newCached, number := s.number + 1 }
  | .request machine now loadFails storeFails =>
    match Fleet.nextTick MemoryCache.cache.faulty machine now
        (s.source, { inner := s.cache, loadFails, storeFails }) with
    | (.error _, source, c) => { s with source, cache := c.inner }
    | (.ok tick, source, c) =>
      { s with source, cache := c.inner, issued := s.issued ++ [⟨machine, tick, s.number⟩] }

def run (s : Succession) (steps : List SuccessionStep) : Succession := steps.foldl step s

def kept? (s : Succession) (machine : MachineId) : Option UInt64 := s.cache.entries.find? machine

def issue (s : Succession) (machine : MachineId) (tick : Tick) : Succession where
  source := s.source.note machine tick
  cache := s.cache.told machine (s.source.resumed s.cache machine) tick
  number := s.number
  issued := s.issued ++ [⟨machine, tick, s.number⟩]

private theorem request_cases {s : Succession} (hs : s.source.cached = true) (machine : MachineId)
    (now : UInt64) (loadFails storeFails : Bool) :
    (∃ source, s.step (.request machine now loadFails storeFails) = { s with source } ∧
      source.issued = s.source.issued ∧ source.cached = s.source.cached) ∨
    ∃ tick, Tick.next (s.source.resumed s.cache machine) now = some tick ∧
      s.step (.request machine now loadFails storeFails) = s.issue machine tick := by
  rcases CounterSource.nextTick_faulty_cases hs machine now
    { inner := s.cache, loadFails, storeFails } with ⟨e, source, herror, hsame⟩ | ⟨tick, hnext, hok⟩
  · exact Or.inl ⟨source, by rw [step, herror], hsame⟩
  · exact Or.inr ⟨tick, hnext, by rw [step, hok]; rfl⟩

/-- A later tick of one machine is above an earlier one, and in a later millisecond if another
source issued it. -/
def Follows (i j : Issue) : Prop :=
  i.machine = j.machine → i.tick < j.tick ∧ (i.source < j.source → i.tick.millis < j.tick.millis)

structure Consistent (s : Succession) : Prop where
  cached : s.source.cached = true
  backed : s.source.BackedBy s.cache
  covered : ∀ i ∈ s.issued, s.cache.Holds i.machine i.tick.millis
  reached : ∀ i ∈ s.issued, ∀ last, s.source.issued.find? i.machine = some last →
    (i.tick < last ∨ i.tick = last) ∧ (i.source < s.number → i.tick.millis < last.millis)
  increasing : s.issued.Pairwise Follows

theorem Consistent.start (cache : MemoryCache) : Consistent { cache } where
  cached := rfl
  backed _ _ h := by cases h
  covered _ h := by cases h
  reached _ h := by cases h
  increasing := List.Pairwise.nil

theorem Consistent.replace {s : Succession} (h : s.Consistent) : (s.step .replace).Consistent where
  cached := rfl
  backed _ _ h := by cases h
  covered := h.covered
  reached _ _ _ h := by cases h
  increasing := h.increasing

section

variable {s : Succession} {machine : MachineId} {tick : Tick} {now : UInt64}

/-- The tick issued next follows every tick issued so far. -/
private theorem Consistent.follows_next (h : s.Consistent)
    (hnext : Tick.next (s.source.resumed s.cache machine) now = some tick) :
    ∀ i ∈ s.issued, Follows i ⟨machine, tick, s.number⟩ := by
  rintro i hi rfl
  -- the source goes on from its own last tick, or else from the cache
  cases hlast : s.source.issued.find? i.machine with
  | some last =>
    have hlt : last < tick := CounterSource.lt_of_next_resumed hlast hnext
    obtain ⟨hreached, hearlier⟩ := h.reached i hi last hlast
    constructor
    · rcases hreached with hreached | hreached
      · exact Tick.lt_trans hreached hlt
      · rw [hreached]
        exact hlt
    · intro hsource
      exact UInt64.lt_of_lt_of_le (hearlier hsource) (Tick.millis_le_of_lt hlt)
  | none =>
    -- the present source has not met this machine: the cache speaks for its predecessors
    have hlt : i.tick.millis < tick.millis :=
      CounterSource.millis_lt_of_next_resumed hlast (h.covered i hi) hnext
    exact ⟨Or.inl hlt, fun _ => hlt⟩

private theorem Consistent.covered_issue (h : s.Consistent) (machine : MachineId) (tick : Tick) :
    ∀ i ∈ (s.issue machine tick).issued,
      (s.issue machine tick).cache.Holds i.machine i.tick.millis := by
  intro i hi
  rcases List.mem_append.1 hi with hi | hi
  · exact (h.covered i hi).told machine _ tick
  · rw [List.mem_singleton.1 hi]
    exact MemoryCache.holds_told (fun _ hlast => h.backed.holds_resumed hlast) tick

private theorem Consistent.reached_issue (h : s.Consistent)
    (hfollows : ∀ i ∈ s.issued, Follows i ⟨machine, tick, s.number⟩) :
    ∀ i ∈ (s.issue machine tick).issued, ∀ last,
      (s.issue machine tick).source.issued.find? i.machine = some last →
        (i.tick < last ∨ i.tick = last) ∧ (i.source < s.number → i.tick.millis < last.millis) := by
  intro i hi last hlast
  rw [issue, CounterSource.find?_note] at hlast
  rcases List.mem_append.1 hi with hi | hi
  · by_cases heq : i.machine = machine
    · rw [if_pos heq] at hlast
      cases hlast
      obtain ⟨hlt, hearlier⟩ := hfollows i hi heq
      exact ⟨Or.inl hlt, hearlier⟩
    · rw [if_neg heq] at hlast
      exact h.reached i hi last hlast
  · rw [List.mem_singleton.1 hi] at hlast ⊢
    rw [if_pos rfl] at hlast
    cases hlast
    exact ⟨Or.inr rfl, fun hlt => absurd hlt (Nat.lt_irrefl _)⟩

theorem Consistent.issue (h : s.Consistent)
    (hnext : Tick.next (s.source.resumed s.cache machine) now = some tick) :
    (s.issue machine tick).Consistent := by
  have hfollows := h.follows_next hnext
  have hcovered := h.covered_issue machine tick
  have hheld := hcovered ⟨machine, tick, s.number⟩
    (List.mem_append_right _ List.mem_cons_self)
  exact
    { cached := h.cached
      backed := (h.backed.told machine _ tick).note hheld
      covered := hcovered
      reached := h.reached_issue hfollows
      increasing := List.pairwise_append.2
        ⟨h.increasing, List.pairwise_singleton _ _,
          fun i hi j hj => List.mem_singleton.1 hj ▸ hfollows i hi⟩ }

end

theorem Consistent.request {s : Succession} (h : s.Consistent) (machine : MachineId) (now : UInt64)
    (loadFails storeFails : Bool) :
    (s.step (.request machine now loadFails storeFails)).Consistent := by
  rcases request_cases h.cached machine now loadFails storeFails with
    ⟨source, hafter, hissued, hcached⟩ | ⟨tick, hnext, hafter⟩
  · rw [hafter]
    exact
      { cached := hcached.trans h.cached
        backed := by simpa only [CounterSource.BackedBy, hissued] using h.backed
        covered := h.covered
        reached := by simpa only [hissued] using h.reached
        increasing := h.increasing }
  · rw [hafter]
    exact h.issue hnext

theorem Consistent.step {s : Succession} (h : s.Consistent) (x : SuccessionStep) :
    (s.step x).Consistent := by
  cases x with
  | replace => exact h.replace
  | request machine now loadFails storeFails => exact h.request machine now loadFails storeFails

theorem Consistent.run {s : Succession} (h : s.Consistent) (steps : List SuccessionStep) :
    (s.run steps).Consistent := by
  induction steps generalizing s with
  | nil => exact h
  | cons x steps ih => exact ih (h.step x)

/-- Cached sources that succeed one another over one cache, whatever it holds at first. The cache
holds at every moment a millisecond at or above every one issued to a machine, the ticks of a
machine increase over the whole run, and those of a later source lie in later milliseconds than
those of an earlier one. -/
theorem run_newCached (cache : MemoryCache) (steps : List SuccessionStep) :
    (∀ moment, moment <+: steps → ∀ i ∈ (run { cache } moment).issued,
      ∃ kept, (run { cache } moment).kept? i.machine = some kept ∧ i.tick.millis ≤ kept) ∧
    (run { cache } steps).issued.Pairwise fun i j => i.machine = j.machine →
      i.tick < j.tick ∧ (i.source < j.source → i.tick.millis < j.tick.millis) := by
  constructor
  · intro moment _
    exact ((Consistent.start cache).run moment).covered
  · exact ((Consistent.start cache).run steps).increasing

def rollbackSteps : List SuccessionStep :=
  [.request 2 100 false false, .request 2 100 false true, .replace, .request 2 99 false false,
   .request 2 500 false true, .request 2 500 false false, .request 1 7 false false, .replace,
   .request 2 400 true false, .request 2 400 false false]

theorem run_newCached_rollback :
    let last := run { cache := {} } rollbackSteps
    last.issued =
      [⟨2, ⟨100, 0⟩, 0⟩, ⟨2, ⟨100, 1⟩, 0⟩, ⟨2, ⟨101, 0⟩, 1⟩, ⟨2, ⟨500, 0⟩, 1⟩, ⟨1, ⟨7, 0⟩, 1⟩,
       ⟨2, ⟨501, 0⟩, 2⟩] ∧
      last.issued.Pairwise fun i j => i.machine = j.machine →
        i.tick < j.tick ∧ (i.source < j.source → i.tick.millis < j.tick.millis) :=
  ⟨by decide, (run_newCached {} rollbackSteps).2⟩

end Succession
end ShardQuery
