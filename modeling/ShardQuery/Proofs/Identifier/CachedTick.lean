import ShardQuery.Identifier.Fleet
import ShardQuery.Proofs.Identifier.TickOrder

/-!
# One tick of a cached source

A call on a cached source fails without trace, panics, or issues the next tick. Over the cache in
memory, which then holds the millisecond of that tick or a later one, a source goes on from the
millisecond that it finds there.
-/

namespace ShardQuery

variable {σ : Type}

/-- What is asked of a cache: its faults are faults of the counter, a load changes nothing, and
neither does a store that fails. -/
structure CounterCache.FailsCleanly (cache : CounterCache σ) : Prop where
  load : ∀ machine env,
    (∃ reason, cache.load machine env = (.error (.counterUnavailable reason), env)) ∨
    ∃ found, cache.load machine env = (.ok found, env)
  store : ∀ machine millis env,
    (∃ reason, cache.store machine millis env = (.error (.counterUnavailable reason), env)) ∨
    ∃ after, cache.store machine millis env = (.ok (), after)

theorem MemoryCache.failsCleanly : MemoryCache.cache.FailsCleanly where
  load _ _ := Or.inr ⟨_, rfl⟩
  store _ _ _ := Or.inr ⟨_, rfl⟩

theorem CounterCache.FailsCleanly.faulty {cache : CounterCache σ} (h : cache.FailsCleanly) :
    cache.faulty.FailsCleanly where
  load machine env := by
    rw [load_faulty]
    split
    · exact Or.inl ⟨_, rfl⟩
    · rcases h.load machine env.inner with ⟨reason, herror⟩ | ⟨found, hok⟩
      · rw [herror]
        exact Or.inl ⟨reason, rfl⟩
      · rw [hok]
        exact Or.inr ⟨found, rfl⟩
  store machine millis env := by
    rw [store_faulty]
    split
    · exact Or.inl ⟨_, rfl⟩
    · rcases h.store machine millis env.inner with ⟨reason, herror⟩ | ⟨after, hok⟩
      · rw [herror]
        exact Or.inl ⟨reason, rfl⟩
      · rw [hok]
        exact Or.inr ⟨_, rfl⟩

namespace CounterSource

section

variable {cache : CounterCache σ}

theorem previous_of_find? {s : CounterSource} {machine : MachineId} {last : Tick}
    (h : s.issued.find? machine = some last) (env : σ) :
    s.previous cache machine env = (.ok (some last), env) := by
  rw [previous, h]

theorem reserve_cases (hcache : cache.FailsCleanly) (s : CounterSource) (machine : MachineId)
    (now : UInt64) (env : σ) :
    (∃ reason, s.reserve cache machine now env =
      (.error (.error (.counterUnavailable reason)), s, env)) ∨
    s.reserve cache machine now env = (.error .overflow, s.poison, env) ∨
    ∃ previous tick, s.previous cache machine env = (.ok previous, env) ∧
      Tick.next previous now = some tick ∧
      s.reserve cache machine now env = (.ok ⟨machine, previous, tick⟩, s, env) := by
  have hprevious : (∃ reason, s.previous cache machine env =
      (.error (.counterUnavailable reason), env)) ∨
      ∃ previous, s.previous cache machine env = (.ok previous, env) := by
    cases hlast : s.issued.find? machine with
    | some last => exact Or.inr ⟨_, previous_of_find? hlast env⟩
    | none =>
      simp only [previous, hlast]
      rcases hcache.load machine env with ⟨reason, herror⟩ | ⟨found, hok⟩
      · exact Or.inl ⟨reason, by rw [herror]⟩
      · exact Or.inr ⟨_, by rw [hok]⟩
  unfold reserve
  split
  · exact Or.inl ⟨_, rfl⟩
  · rcases hprevious with ⟨reason, herror⟩ | ⟨previous, hok⟩
    · exact Or.inl ⟨reason, by rw [herror]⟩
    · rw [hok]
      dsimp only
      cases hnext : Tick.next previous now with
      | none => exact Or.inr (Or.inl rfl)
      | some tick => exact Or.inr (Or.inr ⟨previous, tick, rfl, hnext, rfl⟩)

/-- The second part of a call fails without trace or issues the tick reserved. -/
theorem commit_cases (hcache : cache.FailsCleanly) (s : CounterSource) (r : Reservation) (env : σ) :
    (∃ reason, s.commit cache r env = (.error (.error (.counterUnavailable reason)), s, env)) ∨
    ∃ after, s.commit cache r env = (.ok r.tick, s.note r.machine r.tick, after) := by
  unfold commit
  split
  · rcases hcache.store r.machine r.tick.millis env with ⟨reason, herror⟩ | ⟨after, hok⟩
    · rw [herror]
      exact Or.inl ⟨reason, rfl⟩
    · rw [hok]
      exact Or.inr ⟨after, rfl⟩
  · exact Or.inr ⟨env, rfl⟩

end

end CounterSource

namespace MemoryCache

theorem find?_raised_of_ne (c : MemoryCache) {machine other : MachineId} (h : other ≠ machine)
    (millis : UInt64) : (c.raised machine millis).entries.find? other = c.entries.find? other := by
  rw [raised, OrderedMap.find?_insert, if_neg h]

theorem find?_raised (c : MemoryCache) (machine : MachineId) (millis : UInt64) :
    ∃ kept, (c.raised machine millis).entries.find? machine = some kept ∧ millis ≤ kept ∧
      ∀ before, c.entries.find? machine = some before → before ≤ kept := by
  refine ⟨_, by rw [raised, OrderedMap.find?_insert, if_pos rfl], ?_⟩
  split
  · next hlt =>
    refine ⟨UInt64.le_refl _, ?_⟩
    intro before hbefore
    rw [hbefore] at hlt
    exact UInt64.le_of_lt hlt
  · next hle =>
    refine ⟨UInt64.not_lt.1 hle, ?_⟩
    intro before hbefore
    rw [hbefore]
    exact UInt64.le_refl _

/-- The cache keeps for the machine this millisecond or a later one. -/
def Holds (c : MemoryCache) (machine : MachineId) (millis : UInt64) : Prop :=
  ∃ kept, c.entries.find? machine = some kept ∧ millis ≤ kept

variable {c : MemoryCache} {machine other : MachineId} {previous : Option Tick} {tick : Tick}

/-- The cache once a tick has been issued. -/
def told (c : MemoryCache) (machine : MachineId) (previous : Option Tick) (tick : Tick) :
    MemoryCache :=
  if CounterSource.opensMillis previous tick then c.raised machine tick.millis else c

theorem Holds.told {before : UInt64} (h : c.Holds other before) (machine : MachineId)
    (previous : Option Tick) (tick : Tick) : (c.told machine previous tick).Holds other before := by
  unfold MemoryCache.told
  split
  · obtain ⟨kept, hkept, hle⟩ := h
    by_cases heq : other = machine
    · subst heq
      obtain ⟨raised, hraised, -, hrises⟩ := c.find?_raised other tick.millis
      exact ⟨raised, hraised, UInt64.le_trans hle (hrises kept hkept)⟩
    · exact ⟨kept, (c.find?_raised_of_ne heq _).trans hkept, hle⟩
  · exact h

/-- A tick issued is held, for it opens a millisecond or stays within one that is held. -/
theorem holds_told (h : ∀ last, previous = some last → c.Holds machine last.millis) (tick : Tick) :
    (c.told machine previous tick).Holds machine tick.millis := by
  unfold told
  split
  · obtain ⟨kept, hkept, hle, -⟩ := c.find?_raised machine tick.millis
    exact ⟨kept, hkept, hle⟩
  · next hopens =>
    cases previous with
    | none => exact absurd rfl hopens
    | some last =>
      obtain ⟨kept, hkept, hle⟩ := h last rfl
      have hwithin : tick.millis ≤ last.millis := by
        simpa [CounterSource.opensMillis] using hopens
      exact ⟨kept, hkept, UInt64.le_trans hwithin hle⟩

end MemoryCache

namespace CounterSource

/-- The tick from which a cached source goes on: its own last one, or the exhausted millisecond
that the cache holds. -/
def resumed (s : CounterSource) (c : MemoryCache) (machine : MachineId) : Option Tick :=
  match s.issued.find? machine with
  | some last => some last
  | none => (c.entries.find? machine).map Tick.exhausted

theorem resumed_of_find? {s : CounterSource} {machine : MachineId} {last : Tick}
    (h : s.issued.find? machine = some last) (c : MemoryCache) :
    s.resumed c machine = some last := by
  rw [resumed, h]

private theorem eq_resumed {s : CounterSource} {machine : MachineId} {c : Faulty MemoryCache}
    {previous : Option Tick}
    (h : s.previous MemoryCache.cache.faulty machine c = (.ok previous, c)) :
    previous = s.resumed c.inner machine := by
  unfold CounterSource.previous at h
  unfold resumed
  cases hlast : s.issued.find? machine with
  | some last =>
    rw [hlast] at h
    cases h
    rfl
  | none =>
    rw [hlast] at h
    rw [CounterCache.load_faulty] at h
    by_cases hfails : c.loadFails = true
    · rw [if_pos hfails] at h
      cases h
    · rw [if_neg hfails] at h
      cases h
      rfl

theorem reserve_faulty_cases (s : CounterSource) (machine : MachineId) (now : UInt64)
    (c : Faulty MemoryCache) :
    (∃ e after, s.reserve MemoryCache.cache.faulty machine now c = (.error e, after, c) ∧
      after.issued = s.issued ∧ after.cached = s.cached) ∨
    ∃ tick, Tick.next (s.resumed c.inner machine) now = some tick ∧
      s.reserve MemoryCache.cache.faulty machine now c =
        (.ok ⟨machine, s.resumed c.inner machine, tick⟩, s, c) := by
  rcases reserve_cases MemoryCache.failsCleanly.faulty s machine now c with
    ⟨reason, herror⟩ | hoverflow | ⟨previous, tick, hprevious, hnext, hok⟩
  · exact Or.inl ⟨_, s, herror, rfl, rfl⟩
  · exact Or.inl ⟨_, s.poison, hoverflow, rfl, rfl⟩
  · cases eq_resumed hprevious
    exact Or.inr ⟨tick, hnext, hok⟩

theorem commit_faulty_cases (s : CounterSource) (r : Reservation) (c : Faulty MemoryCache) :
    (∃ e, s.commit MemoryCache.cache.faulty r c = (.error e, s, c)) ∨
    s.commit MemoryCache.cache.faulty r c =
      (.ok r.tick, s.note r.machine r.tick,
        { c with inner := c.inner.told r.machine r.previous r.tick }) := by
  unfold commit MemoryCache.told
  by_cases hopens : opensMillis r.previous r.tick = true
  · rw [if_pos hopens, if_pos hopens]
    rw [CounterCache.store_faulty]
    by_cases hfails : c.storeFails = true
    · rw [if_pos hfails]
      exact Or.inl ⟨_, rfl⟩
    · rw [if_neg hfails]
      exact Or.inr rfl
  · rw [if_neg hopens, if_neg hopens]
    exact Or.inr rfl

theorem nextTick_faulty_cases {s : CounterSource} (hs : s.cached = true) (machine : MachineId)
    (now : UInt64) (c : Faulty MemoryCache) :
    (∃ e after, Fleet.nextTick MemoryCache.cache.faulty machine now (s, c) = (.error e, after, c) ∧
      after.issued = s.issued ∧ after.cached = s.cached) ∨
    ∃ tick, Tick.next (s.resumed c.inner machine) now = some tick ∧
      Fleet.nextTick MemoryCache.cache.faulty machine now (s, c) =
        (.ok tick, s.note machine tick,
          { c with inner := c.inner.told machine (s.resumed c.inner machine) tick }) := by
  unfold Fleet.nextTick next nextCached
  dsimp only
  rw [if_pos hs]
  rcases reserve_faulty_cases s machine now c with ⟨e, after, herror, hsame⟩ | ⟨tick, hnext, hok⟩
  · rw [herror]
    exact Or.inl ⟨e, after, rfl, hsame⟩
  · rw [hok]
    dsimp only
    rcases commit_faulty_cases s ⟨machine, s.resumed c.inner machine, tick⟩ c with
      ⟨e, herror⟩ | hissued
    · rw [herror]
      exact Or.inl ⟨e, s, rfl, rfl, rfl⟩
    · rw [hissued]
      exact Or.inr ⟨tick, hnext, rfl⟩

section

variable {s : CounterSource} {c : MemoryCache} {machine : MachineId}

/-- The cache holds every millisecond that the source goes on from. -/
def BackedBy (s : CounterSource) (c : MemoryCache) : Prop :=
  ∀ machine last, s.issued.find? machine = some last → c.Holds machine last.millis

theorem BackedBy.holds_resumed (h : s.BackedBy c) {last : Tick}
    (hlast : s.resumed c machine = some last) : c.Holds machine last.millis := by
  unfold resumed at hlast
  cases hown : s.issued.find? machine with
  | some own =>
    rw [hown] at hlast
    cases hlast
    exact h machine last hown
  | none =>
    rw [hown] at hlast
    obtain ⟨kept, hkept, hexhausted⟩ := Option.map_eq_some_iff.1 hlast
    cases hexhausted
    exact ⟨kept, hkept, UInt64.le_refl _⟩

theorem BackedBy.told (h : s.BackedBy c) (machine : MachineId) (previous : Option Tick)
    (tick : Tick) : s.BackedBy (c.told machine previous tick) :=
  fun other last hlast => (h other last hlast).told machine previous tick

theorem BackedBy.note (h : s.BackedBy c) {tick : Tick} (hheld : c.Holds machine tick.millis) :
    (s.note machine tick).BackedBy c := by
  intro other last hlast
  rw [find?_note] at hlast
  split at hlast
  · next heq =>
    cases hlast
    rw [heq]
    exact hheld
  · exact h other last hlast

variable {tick : Tick} {now : UInt64}

/-- A source goes on above its own last tick. -/
theorem lt_of_next_resumed {last : Tick} (hlast : s.issued.find? machine = some last)
    (h : Tick.next (s.resumed c machine) now = some tick) : last < tick := by
  rw [resumed_of_find? hlast] at h
  exact Tick.lt_of_next h

/-- The first tick of a source for a machine lies after all that the cache holds. -/
theorem millis_lt_of_next_resumed (hlast : s.issued.find? machine = none) {millis : UInt64}
    (hheld : c.Holds machine millis) (h : Tick.next (s.resumed c machine) now = some tick) :
    millis < tick.millis := by
  obtain ⟨kept, hkept, hle⟩ := hheld
  simp only [resumed, hlast, hkept, Option.map_some] at h
  exact UInt64.lt_of_le_of_lt hle (Tick.millis_lt_of_next_exhausted h)

end

end CounterSource
end ShardQuery
