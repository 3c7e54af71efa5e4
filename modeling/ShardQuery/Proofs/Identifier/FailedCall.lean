import ShardQuery.Proofs.Identifier.CachedTick
import ShardQuery.Proofs.Identifier.FleetMember

/-!
# Calls that fail

A call for an identifier fails because of its machine, its moment, the counter, or a millisecond
that does not fit the base. Only in the last case has a tick been issued by then. Every other call
that fails leaves all sources and caches as they were, and all later calls return what they would
return had it not been made.
-/

namespace ShardQuery

variable {σ : Type}

/-- The millisecond of the tick does not fit the base. -/
def IdentifierError.IsBeyondRange (e : IdentifierError) : Prop :=
  ∃ millis, e = .configuration (.beyondRange millis)

theorem IdentifierError.not_isBeyondRange_counterUnavailable (reason : String) :
    ¬ (counterUnavailable reason).IsBeyondRange := by
  rintro ⟨millis, h⟩
  cases h

/-- A source that has no tick to give says so in words of its own, and is left as it was. -/
def NextTick.FailsCleanly (next : NextTick σ) : Prop :=
  ∀ machine now env e, (next machine now env).1 = .error (.error e) →
    ¬ e.IsBeyondRange ∧ (next machine now env).2 = env

namespace Fleet

variable {cache : CounterCache σ}

theorem nextTick_cases (hcache : cache.FailsCleanly) (machine : MachineId) (now : UInt64)
    (m : Member σ) :
    (∃ reason, nextTick cache machine now m =
      (.error (.error (.counterUnavailable reason)), m)) ∨
    (nextTick cache machine now m).1 = .error .overflow ∨
    ∃ tick after, nextTick cache machine now m = (.ok tick, m.1.note machine tick, after) ∧
      ∀ last, m.1.issued.find? machine = some last → last < tick := by
  obtain ⟨s, env⟩ := m
  unfold nextTick CounterSource.next
  dsimp only
  split
  · unfold CounterSource.nextCached
    rcases s.reserve_cases hcache machine now env with
      ⟨reason, herror⟩ | hoverflow | ⟨previous, tick, hprevious, hnext, hreserved⟩
    · rw [herror]
      exact Or.inl ⟨reason, rfl⟩
    · rw [hoverflow]
      exact Or.inr (Or.inl rfl)
    · rw [hreserved]
      dsimp only
      rcases s.commit_cases hcache ⟨machine, previous, tick⟩ env with
        ⟨reason, herror⟩ | ⟨after, hissued⟩
      · rw [herror]
        exact Or.inl ⟨reason, rfl⟩
      · rw [hissued]
        refine Or.inr (Or.inr ⟨tick, after, rfl, ?_⟩)
        intro last hlast
        rw [CounterSource.previous_of_find? hlast] at hprevious
        cases hprevious
        exact Tick.lt_of_next hnext
  · unfold CounterSource.nextLocal
    split
    · exact Or.inl ⟨_, rfl⟩
    · cases hnext : Tick.next (s.issued.find? machine) now with
      | none => exact Or.inr (Or.inl rfl)
      | some tick =>
        refine Or.inr (Or.inr ⟨tick, env, rfl, ?_⟩)
        intro last hlast
        rw [hlast] at hnext
        exact Tick.lt_of_next hnext

theorem failsCleanly_nextTick (hcache : cache.FailsCleanly) :
    NextTick.FailsCleanly (nextTick cache) := by
  intro machine now m e h
  rcases nextTick_cases hcache machine now m with
    ⟨reason, herror⟩ | hoverflow | ⟨tick, after, hok, -⟩
  · rw [herror] at h ⊢
    cases h
    exact ⟨IdentifierError.not_isBeyondRange_counterUnavailable reason, rfl⟩
  · rw [hoverflow] at h
    cases h
  · rw [hok] at h
    cases h

theorem source_ne_of_nextTick (hcache : cache.FailsCleanly) {machine : MachineId} {now : UInt64}
    {m after : Member σ} {tick : Tick} (h : nextTick cache machine now m = (.ok tick, after)) :
    after.1 ≠ m.1 := by
  rcases nextTick_cases hcache machine now m with
    ⟨reason, herror⟩ | hoverflow | ⟨_, env, hok, habove⟩
  · rw [herror] at h
    cases h
  · rw [h] at hoverflow
    cases hoverflow
  · rw [hok] at h
    cases h
    intro hsame
    have hfind : m.1.issued.find? machine = some tick := by
      rw [← hsame, CounterSource.find?_note, if_pos rfl]
    exact Tick.lt_irrefl _ (habove tick hfind)

end Fleet

theorem MachineId.not_isBeyondRange_of_require {value : Option Int} {e : IdentifierError}
    (h : MachineId.require value = .error e) : ¬ e.IsBeyondRange := by
  rintro ⟨millis, rfl⟩
  unfold require check at h
  split at h
  · split at h
    · split at h <;> cases h
    · cases h
  · cases h

namespace Identifier

variable {next : NextTick σ} {time : Instant} {extras : List String} {env : σ} {e : IdentifierError}

/-- A call that fails has left the source alone, or has taken a tick that does not fit. -/
theorem snowflakeFor_error (hnext : next.FailsCleanly) {machine : MachineId}
    (h : (snowflakeFor next machine time extras env).1 = .error (.error e)) :
    (¬ e.IsBeyondRange ∧ (snowflakeFor next machine time extras env).2 = env) ∨
      ∃ now tick after, next machine now env = (.ok tick, after) ∧ e.IsBeyondRange ∧
        (snowflakeFor next machine time extras env).2 = after := by
  unfold snowflakeFor at h ⊢
  cases htime : time.millis with
  | negSucc n =>
    rw [htime] at h
    cases h
    refine Or.inl ⟨?_, rfl⟩
    rintro ⟨millis, h⟩
    cases h
  | ofNat millis =>
    rw [htime] at h
    dsimp only at h ⊢
    have hclean := hnext machine (UInt64.ofNat millis) env
    rcases hticked : next machine (UInt64.ofNat millis) env with ⟨_ | tick, after⟩
    · rw [hticked] at h hclean
      cases h
      exact Or.inl (hclean _ rfl)
    · rw [hticked] at h
      refine Or.inr ⟨UInt64.ofNat millis, tick, after, hticked, ?_⟩
      dsimp only at h ⊢
      unfold Snowflake.make at h ⊢
      by_cases hrange : tick.millis.toNat < 2 ^ 44
      · rw [dif_pos hrange] at h
        cases h
      · rw [dif_neg hrange] at h ⊢
        cases h
        exact ⟨⟨_, rfl⟩, rfl⟩

end Identifier

/-- A call for an identifier: a snowflake for a machine that may be missing or invalid, or what a
generator makes. -/
inductive IdentifierCall where
  | snowflake (machine : Option Int) (time : Instant) (extras : List String)
  | generate (generator : Generator) (now : Instant) (content : List UInt8) (time : Option Instant)
      (extras : List String) (metrics : Option Metrics)

namespace IdentifierCall

def make (next : NextTick σ) : IdentifierCall → σ → Except CallFailure Identifier × σ
  | snowflake machine time extras => Identifier.snowflake next machine time extras
  | generate generator now content time extras metrics => fun env =>
    let (result, _, env) := generator.generate next now content time extras metrics env
    (result, env)

theorem make_generate (next : NextTick σ) (generator : Generator) (now : Instant)
    (content : List UInt8) (time : Option Instant) (extras : List String)
    (metrics : Option Metrics) (env : σ) :
    make next (generate generator now content time extras metrics) env =
      generator.make next now content time extras env := by
  simp only [make, Generator.generate]
  rcases generator.make next now content time extras env with ⟨_ | u, after⟩ <;> rfl

/-- A call that fails has left the source alone, or has taken a tick that does not fit. -/
theorem make_error {next : NextTick σ} (hnext : next.FailsCleanly) {call : IdentifierCall} {env : σ}
    {e : IdentifierError} (h : (call.make next env).1 = .error (.error e)) :
    (¬ e.IsBeyondRange ∧ (call.make next env).2 = env) ∨
      ∃ machine now tick after, next machine now env = (.ok tick, after) ∧ e.IsBeyondRange ∧
        (call.make next env).2 = after := by
  cases call with
  | snowflake machine time extras =>
    simp only [make, Identifier.snowflake] at h ⊢
    cases hmachine : MachineId.require machine with
    | error fault =>
      rw [hmachine] at h
      cases h
      exact Or.inl ⟨MachineId.not_isBeyondRange_of_require hmachine, rfl⟩
    | ok machine =>
      rw [hmachine] at h
      exact (Identifier.snowflakeFor_error hnext h).imp_right fun hissued => ⟨machine, hissued⟩
  | generate generator now content time extras metrics =>
    rw [make_generate] at h ⊢
    cases generator with
    | hash => cases h
    | snowflake machine =>
      exact (Identifier.snowflakeFor_error hnext h).imp_right fun hissued => ⟨machine, hissued⟩

end IdentifierCall

/-- What happens to a fleet: the state of a cache changes in whatever way, for one its loads and
stores begin or cease to fail, or a call is made over one of the sources. -/
inductive FleetStep (σ : Type) where
  | change (cache : Nat) (change : σ → σ)
  | call (source : Nat) (call : IdentifierCall)

namespace Fleet

variable [Inhabited σ]

def results (cache : CounterCache σ) :
    List (FleetStep σ) → Fleet σ → List (Except CallFailure Identifier)
  | [], _ => []
  | .change k change :: steps, f => results cache steps (f.setCache k (change (f.cache k)))
  | .call source call :: steps, f =>
    let (result, f) := f.act source (call.make (nextTick cache))
    result :: results cache steps f

variable {cache : CounterCache σ} {f : Fleet σ} {i : Nat} {call : IdentifierCall}
  {e : IdentifierError}

theorem act_eq_of_error (hcache : cache.FailsCleanly)
    (h : (f.act i (call.make (nextTick cache))).1 = .error (.error e))
    (hearly : ¬ e.IsBeyondRange) :
    f.act i (call.make (nextTick cache)) = (.error (.error e), f) := by
  rw [act_eq] at h ⊢
  dsimp only at h
  rcases call.make_error (failsCleanly_nextTick hcache) h with ⟨-, hsame⟩ | ⟨_, _, _, _, -, hlate, -⟩
  · rw [hsame, settle_member, h]
  · exact absurd hlate hearly

theorem act_ne_of_isBeyondRange (hcache : cache.FailsCleanly) (hi : i < f.sources.length)
    (h : (f.act i (call.make (nextTick cache))).1 = .error (.error e)) (hlate : e.IsBeyondRange) :
    (f.act i (call.make (nextTick cache))).2 ≠ f := by
  rw [act_eq] at h ⊢
  dsimp only at h ⊢
  rcases call.make_error (failsCleanly_nextTick hcache) h with
    ⟨hearly, -⟩ | ⟨machine, now, tick, after, hticked, -, hafter⟩
  · exact absurd hlate hearly
  · intro hsame
    have hsource : ((f.settle i after).source i).1 = after.1 := by
      rw [source_settle hi, if_pos rfl]
    rw [← hafter, hsame] at hsource
    exact source_ne_of_nextTick hcache hticked (hafter ▸ hsource.symm)

/-- Over any cache whose faults are clean, a call that fails leaves a fleet as it was, whatever its
sources and caches hold, unless its tick does not fit the base; then all later calls return what
they would return without it. -/
theorem act_of_error (hcache : cache.FailsCleanly) (f : Fleet σ) {i : Nat}
    (hi : i < f.sources.length) (call : IdentifierCall) {e : IdentifierError}
    (h : (f.act i (call.make (nextTick cache))).1 = .error (.error e)) :
    ((f.act i (call.make (nextTick cache))).2 = f ↔ ¬ e.IsBeyondRange) ∧
    (¬ e.IsBeyondRange → ∀ later,
      results cache (.call i call :: later) f = .error (.error e) :: results cache later f) := by
  refine ⟨⟨?_, ?_⟩, ?_⟩
  · intro hsame hlate
    exact act_ne_of_isBeyondRange hcache hi h hlate hsame
  · intro hearly
    rw [act_eq_of_error hcache h hearly]
  · intro hearly later
    rw [results, act_eq_of_error hcache h hearly]

def faultyFleet : Fleet (Faulty MemoryCache) :=
  { caches := [{ inner := {}, storeFails := true }], sources := [(.newCached, some 0)] }

theorem act_of_error_faulty :
    let call := IdentifierCall.snowflake (some 1) (.ofMillis 1000) []
    let e := IdentifierError.counterUnavailable "cache store failed"
    MemoryCache.cache.faulty.FailsCleanly ∧
      (faultyFleet.act 0 (call.make (nextTick MemoryCache.cache.faulty))).1 = .error (.error e) ∧
      ∀ later, results MemoryCache.cache.faulty (.call 0 call :: later) faultyFleet =
        .error (.error e) :: results MemoryCache.cache.faulty later faultyFleet := by
  intro call e
  have hcache := MemoryCache.failsCleanly.faulty
  have herror :
      (faultyFleet.act 0 (call.make (nextTick MemoryCache.cache.faulty))).1 = .error (.error e) := rfl
  have hearly : ¬ e.IsBeyondRange := IdentifierError.not_isBeyondRange_counterUnavailable _
  exact ⟨hcache, herror, (act_of_error hcache faultyFleet (by decide) call herror).2 hearly⟩

/-- The first millisecond that does not fit is not issued as a snowflake, but the machine gets no
earlier one after it. -/
theorem results_beyondRange :
    let f : Fleet MemoryCache := { sources := [(.newLocal, none)] }
    let failing := FleetStep.call 0 (.snowflake (some 1) (.ofMillis (2 ^ 44)) [])
    let later := [FleetStep.call 0 (.snowflake (some 1) (.ofMillis 1000) [])]
    results MemoryCache.cache later f = [.ok ⟨.snowflake ⟨1, 1000, 0⟩, none⟩] ∧
      results MemoryCache.cache (failing :: later) f =
        List.replicate 2 (.error (.error (.configuration (.beyondRange (2 ^ 44))))) :=
  ⟨rfl, rfl⟩

end Fleet
end ShardQuery
