import ShardQuery.Proofs.Identifier.TickOrder

/-!
# Ticks after a restart

Every tick has a place among all ticks. The next tick takes the place after the last one, or the
first place of the clock's millisecond if that is later, and there is none only after the last of
all. So a source that starts anew over a cache issues its first tick for a machine after all of the
millisecond that the cache holds, and not before the clock, unless that is the last millisecond of
all. Then the call panics and leaves the source locked for good.
-/

namespace ShardQuery

namespace Tick

/-- How many ticks come before this one. -/
def place (t : Tick) : Nat := t.millis.toNat * 2 ^ 32 + t.counter.toNat

def opening (millis : UInt64) : Tick := ⟨millis, 0⟩

def final : Tick := exhausted lastMillis

theorem place_opening (millis : UInt64) : (opening millis).place = millis.toNat * 2 ^ 32 := by
  simp [place, opening]

theorem place_exhausted (millis : UInt64) :
    (exhausted millis).place + 1 = (millis.toNat + 1) * 2 ^ 32 := by
  have hcounter : (exhausted millis).counter.toNat = 2 ^ 32 - 1 := rfl
  have hmillis : (exhausted millis).millis = millis := rfl
  rw [place, hcounter, hmillis]
  omega

theorem place_lt (t : Tick) : t.place < 2 ^ 96 := by
  have hmillis := t.millis.toNat_lt
  have hcounter := t.counter.toNat_lt
  unfold place
  omega

theorem eq_of_place_eq {a b : Tick} (h : a.place = b.place) : a = b := by
  have ha := a.counter.toNat_lt
  have hb := b.counter.toNat_lt
  unfold place at h
  have hmillis : a.millis.toNat = b.millis.toNat := by omega
  have hcounter : a.counter.toNat = b.counter.toNat := by omega
  cases a
  cases b
  simp only [mk.injEq]
  exact ⟨UInt64.toNat_inj.1 hmillis, UInt32.toNat_inj.1 hcounter⟩

theorem place_final : final.place + 1 = 2 ^ 96 := place_exhausted lastMillis

theorem eq_final_of_place {t : Tick} (h : 2 ^ 96 ≤ t.place + 1) : t = final := by
  have hfinal := place_final
  have hlt := t.place_lt
  exact eq_of_place_eq (by omega)

/-- The next tick, if there is one, takes the place after the last one or the first place of the
clock's millisecond, whichever is later. -/
theorem place_of_next {last tick : Tick} {now : UInt64} (h : next (some last) now = some tick) :
    tick.place = max (opening now).place (last.place + 1) := by
  have hcounter := last.counter.toNat_lt
  have hlast : last.place = last.millis.toNat * 2 ^ 32 + last.counter.toNat := rfl
  rw [place_opening]
  rcases next_cases h with ⟨hnow, rfl⟩ | ⟨hnow, ⟨rfl, hlt⟩ | ⟨rfl, hlt, hfull⟩⟩
  · rw [UInt64.lt_iff_toNat_lt] at hnow
    rw [← opening, place_opening]
    omega
  · rw [UInt64.le_iff_toNat_le] at hnow
    rw [UInt32.lt_iff_toNat_lt, UInt32.toNat_add, UInt32.toNat_one] at hlt
    change last.millis.toNat * 2 ^ 32 + (last.counter + 1).toNat = _
    rw [UInt32.toNat_add, UInt32.toNat_one]
    omega
  · have hfull : ¬ last.counter.toNat < 2 ^ 32 - 1 := hfull
    rw [UInt64.le_iff_toNat_le] at hnow
    rw [UInt64.lt_iff_toNat_lt, UInt64.toNat_add, UInt64.toNat_one] at hlt
    rw [← opening, place_opening, UInt64.toNat_add, UInt64.toNat_one]
    omega

/-- After the last tick of all there is no next one, and after any other there is. -/
theorem next_eq_none_iff {last : Tick} {now : UInt64} :
    next (some last) now = none ↔ last = final := by
  constructor
  · intro h
    rw [next] at h
    split at h
    · cases h
    · split at h
      · cases h
      · next hcounter =>
        split at h
        · cases h
        · next hmillis =>
          have hcounter : ¬ last.counter.toNat < 2 ^ 32 - 1 := hcounter
          have hmillis : ¬ last.millis.toNat < 2 ^ 64 - 1 := hmillis
          apply eq_final_of_place
          unfold place
          omega
  · rintro rfl
    cases hnext : next (some final) now with
    | none => rfl
    | some tick =>
      have hplace := place_of_next hnext
      have hfinal := place_final
      have hlt := tick.place_lt
      omega

theorem next_exhausted {millis : UInt64} (h : millis ≠ lastMillis) (now : UInt64) :
    ∃ later : UInt64, next (some (exhausted millis)) now = some (opening later) ∧
      later.toNat = max now.toNat (millis.toNat + 1) := by
  have hne : ∀ last, some (exhausted millis) = some last → last.millis ≠ lastMillis := by
    rintro _ ⟨⟩
    exact h
  obtain ⟨tick, hnext⟩ := exists_next hne now
  rcases next_cases hnext with ⟨hnow, rfl⟩ | ⟨hnow, ⟨-, hlt⟩ | ⟨rfl, hlt, -⟩⟩
  · have hnow : millis.toNat < now.toNat := hnow
    exact ⟨now, hnext, by omega⟩
  · have hlt : (0xffffffff : UInt32) < 0xffffffff + 1 := hlt
    exact absurd hlt (by decide)
  · have hnow : now.toNat ≤ millis.toNat := hnow
    refine ⟨millis + 1, hnext, ?_⟩
    have hlt : millis < millis + 1 := hlt
    rw [UInt64.lt_iff_toNat_lt, UInt64.toNat_add, UInt64.toNat_one] at hlt
    rw [UInt64.toNat_add, UInt64.toNat_one]
    omega

end Tick

namespace CounterSource

variable {σ : Type} {cache : CounterCache σ} {machine : MachineId} {millis : UInt64}
  {env after : σ}

def onceStored (stored : Except IdentifierError Unit) (tick : Tick) : Except CallFailure Tick :=
  match stored with
  | .error e => .error (.error e)
  | .ok _ => .ok tick

theorem nextCached_poison (s : CounterSource) (cache : CounterCache σ) (machine : MachineId)
    (now : UInt64) (env : σ) :
    s.poison.nextCached cache machine now env = (.error (.error lockPoisoned), s.poison, env) := rfl

theorem nextCached_newCached_of_error {e : IdentifierError}
    (hload : cache.load machine env = (.error e, after)) (now : UInt64) :
    (newCached.nextCached cache machine now env).1 = .error (.error e) := by
  have hreserve : newCached.reserve cache machine now env =
      (.error (.error e), newCached, after) := by
    have hprevious : newCached.previous cache machine env = (.error e, after) := by
      have hnew : newCached.issued.find? machine = none := rfl
      rw [previous, hnew, hload]
    unfold reserve
    rw [hprevious]
    rfl
  rw [nextCached, hreserve]

/-- A new source goes on from the cache as if all ticks of the millisecond found there were
issued. -/
theorem reserve_newCached {found : Option UInt64}
    (hload : cache.load machine env = (.ok found, after)) (now : UInt64) :
    newCached.reserve cache machine now env =
      match Tick.next (found.map Tick.exhausted) now with
      | none => (.error .overflow, newCached.poison, after)
      | some tick => (.ok ⟨machine, found.map Tick.exhausted, tick⟩, newCached, after) := by
  have hprevious : newCached.previous cache machine env =
      (.ok (found.map Tick.exhausted), after) := by
    have hnew : newCached.issued.find? machine = none := rfl
    rw [previous, hnew, hload]
  unfold reserve
  rw [hprevious]
  rfl

theorem nextCached_newCached {found : Option UInt64}
    (hload : cache.load machine env = (.ok found, after)) {now later : UInt64}
    (hnext : Tick.next (found.map Tick.exhausted) now = some (Tick.opening later))
    (hlater : ∀ millis, found = some millis → millis < later) :
    (newCached.nextCached cache machine now env).1 =
      onceStored (cache.store machine later after).1 (Tick.opening later) := by
  have hopens : opensMillis (found.map Tick.exhausted) (Tick.opening later) = true := by
    cases found with
    | none => rfl
    | some millis => exact decide_eq_true (hlater millis rfl)
  rw [nextCached, reserve_newCached hload, hnext]
  dsimp only
  rw [commit, if_pos hopens]
  dsimp only [Tick.opening]
  rcases cache.store machine later after with ⟨_ | _, env⟩ <;> rfl

/-- A call fails, or its tick lies after the persisted millisecond and not before the clock. -/
def Rises (persisted now : UInt64) : Except CallFailure Tick → Prop
  | .error (.error _) => True
  | .error .overflow => False
  | .ok tick => persisted < tick.millis ∧ now ≤ tick.millis

theorem nextCached_newCached_of_ne (hload : cache.load machine env = (.ok (some millis), after))
    (h : millis ≠ Tick.lastMillis) (now : UInt64) :
    ∃ later : UInt64, later.toNat = max now.toNat (millis.toNat + 1) ∧
      (newCached.nextCached cache machine now env).1 =
        onceStored (cache.store machine later after).1 (Tick.opening later) := by
  obtain ⟨later, hnext, hlater⟩ := Tick.next_exhausted h now
  refine ⟨later, hlater, nextCached_newCached hload hnext ?_⟩
  rintro _ ⟨⟩
  rw [UInt64.lt_iff_toNat_lt]
  omega

theorem nextCached_newCached_last
    (hload : cache.load machine env = (.ok (some Tick.lastMillis), after)) (now : UInt64) :
    newCached.nextCached cache machine now env = (.error .overflow, newCached.poison, after) := by
  have hnext : Tick.next ((some Tick.lastMillis).map Tick.exhausted) now = none :=
    Tick.next_eq_none_iff.2 rfl
  rw [nextCached, reserve_newCached hload, hnext]

theorem rises_iff (hload : cache.load machine env = (.ok (some millis), after)) (now : UInt64) :
    Rises millis now (newCached.nextCached cache machine now env).1 ↔
      millis ≠ Tick.lastMillis := by
  constructor
  · intro hrises hlast
    subst hlast
    rw [nextCached_newCached_last hload] at hrises
    exact hrises
  · intro h
    obtain ⟨later, hlater, hissued⟩ := nextCached_newCached_of_ne hload h now
    rw [hissued]
    cases (cache.store machine later after).1 with
    | error e => trivial
    | ok =>
      change millis < later ∧ now ≤ later
      rw [UInt64.lt_iff_toNat_lt, UInt64.le_iff_toNat_le]
      omega

/-- The first call on a new source over any cache fails if the cache cannot be read. If the cache
holds nothing for the machine, the tick is the first of the clock's millisecond. If it holds a
millisecond, the tick lies after that one and not before the clock, and only a store that fails
keeps it back; but if that is the last millisecond of all, the call panics, and the source refuses
all later ones. There is a next tick after every one but the last of all. It lies above that one, in
the place after it or in the first of the clock's millisecond. -/
theorem nextCached_rises (cache : CounterCache σ) (machine : MachineId) (now : UInt64) (env : σ) :
    let called := newCached.nextCached cache machine now env
    (match cache.load machine env with
    | (.error e, _) => called.1 = .error (.error e)
    | (.ok none, after) =>
      called.1 = onceStored (cache.store machine now after).1 (Tick.opening now)
    | (.ok (some millis), after) =>
      (Rises millis now called.1 ↔ millis ≠ Tick.lastMillis) ∧
      (millis ≠ Tick.lastMillis → ∃ later : UInt64,
        later.toNat = max now.toNat (millis.toNat + 1) ∧
          called.1 = onceStored (cache.store machine later after).1 (Tick.opening later)) ∧
      (millis = Tick.lastMillis → called.1 = .error .overflow ∧
        ∀ other later env,
          (called.2.1.nextCached cache other later env).1 = .error (.error lockPoisoned))) ∧
    ∀ last : Tick,
      (Tick.next (some last) now = none ↔ last = Tick.final) ∧
      ∀ tick, Tick.next (some last) now = some tick →
        last < tick ∧ tick.place = max (Tick.opening now).place (last.place + 1) := by
  intro called
  constructor
  · rcases hload : cache.load machine env with ⟨e | found, after⟩
    · exact nextCached_newCached_of_error hload now
    · cases found with
      | none => exact nextCached_newCached hload rfl (fun _ hnone => by cases hnone)
      | some millis =>
        refine ⟨rises_iff hload now, fun h => nextCached_newCached_of_ne hload h now, ?_⟩
        rintro rfl
        have hcalled : called = (.error .overflow, newCached.poison, after) :=
          nextCached_newCached_last hload now
        rw [hcalled]
        exact ⟨rfl, fun other later env => by rw [nextCached_poison]⟩
  · intro last
    exact ⟨Tick.next_eq_none_iff, fun _ hnext => ⟨Tick.lt_of_next hnext, Tick.place_of_next hnext⟩⟩

theorem nextCached_rises_rollback :
    let c : MemoryCache := (MemoryCache.cache.store 1 5000 {}).2
    MemoryCache.cache.load 1 c = (.ok (some 5000), c) ∧
      Rises 5000 4000 (newCached.nextCached MemoryCache.cache 1 4000 c).1 ∧
      (newCached.nextCached MemoryCache.cache 1 4000 c).1 = .ok (Tick.opening 5001) := by
  intro c
  obtain ⟨⟨hrises, -⟩, -⟩ := nextCached_rises MemoryCache.cache 1 4000 c
  exact ⟨rfl, hrises.2 (by decide), rfl⟩

/-- A cache that holds the last millisecond of all: the first call on a new source panics, and the
source refuses every later one. -/
theorem not_rises_lastMillis :
    let c : MemoryCache := (MemoryCache.cache.store 1 Tick.lastMillis {}).2
    let called := newCached.nextCached MemoryCache.cache 1 1000 c
    MemoryCache.cache.load 1 c = (.ok (some Tick.lastMillis), c) ∧
      called.1 = .error .overflow ∧
      ¬ Rises Tick.lastMillis 1000 called.1 ∧
      (called.2.1.nextCached MemoryCache.cache 2 1000 c).1 = .error (.error lockPoisoned) ∧
      Tick.next (some Tick.final) 1000 = none := by
  intro c called
  have hcalled : called.1 = .error .overflow := rfl
  refine ⟨rfl, hcalled, ?_, rfl, by decide⟩
  rw [hcalled]
  exact fun hrises => hrises

end CounterSource
end ShardQuery
