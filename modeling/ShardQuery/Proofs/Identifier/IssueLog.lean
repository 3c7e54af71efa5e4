import ShardQuery.Identifier.Fleet
import ShardQuery.Power
import ShardQuery.Proofs.Identifier.TickOrder

/-!
# Calls for snowflakes and the ticks they take

A counter source is made to note every tick it hands out, whether or not a snowflake comes of it.
A run of calls on one source then shows for each call what was issued and what was returned.
-/

namespace ShardQuery

variable {σ : Type}

/-- A source of ticks that notes those it hands out. -/
def NextTick.recorded (next : NextTick σ) : NextTick (σ × List (MachineId × Tick)) :=
  fun machine now (env, issued) =>
    match next machine now env with
    | (.error e, env) => (.error e, env, issued)
    | (.ok tick, env) => (.ok tick, env, issued ++ [(machine, tick)])

/-- A request for a snowflake, at a moment whose milliseconds fit 64 bits with sign. -/
structure SnowflakeRequest where
  machine : Option Int
  time : Instant
  extras : List String := []
  millis_lt : time.millis < 2 ^ 63

/-- A request with the ticks issued for it and its result. -/
structure SnowflakeCall where
  request : SnowflakeRequest
  issued : List (MachineId × Tick)
  result : Except CallFailure Identifier

def SnowflakeCall.run (next : NextTick σ) : List SnowflakeRequest → σ → List SnowflakeCall
  | [], _ => []
  | r :: rs, env =>
    let (result, env, issued) :=
      Identifier.snowflake next.recorded r.machine r.time r.extras (env, [])
    ⟨r, issued, result⟩ :: run next rs env

theorem MachineId.require_eq_ok {value : Option Int} {machine : MachineId}
    (h : MachineId.require value = .ok machine) : value = some (machine.val : Int) := by
  cases value with
  | none => simp [require] at h
  | some value =>
    cases value with
    | negSucc n => simp [require, check] at h
    | ofNat n =>
      simp only [require, check] at h
      split at h
      · cases h
        rfl
      · cases h

/-- Taking notes changes neither the result nor the state of the source. -/
theorem snowflake_recorded (next : NextTick σ) (machine : Option Int) (time : Instant)
    (extras : List String) (env : σ) (issued : List (MachineId × Tick)) :
    let noted := Identifier.snowflake next.recorded machine time extras (env, issued)
    (noted.1, noted.2.1) = Identifier.snowflake next machine time extras env := by
  unfold Identifier.snowflake Identifier.snowflakeFor NextTick.recorded
  cases MachineId.require machine with
  | error e => rfl
  | ok machine =>
    cases time.millis with
    | negSucc n => rfl
    | ofNat millis =>
      dsimp only
      rcases next machine (UInt64.ofNat millis) env with ⟨_ | tick, env⟩
      · rfl
      · dsimp only
        cases Snowflake.make machine tick.millis tick.counter <;> rfl

theorem Snowflake.make_eq_ok {machine : MachineId} {millis : UInt64} {counter : UInt32}
    {b : Snowflake} (h : Snowflake.make machine millis counter = .ok b) :
    b.machine = machine ∧ b.millis.val = millis.toNat ∧ b.counter = counter := by
  unfold make at h
  split at h
  · cases h
    exact ⟨rfl, rfl, rfl⟩
  · cases h

namespace SnowflakeRequest

/-- The machine and the millisecond for which a request asks the source, if it gets that far. -/
def target (r : SnowflakeRequest) : Option (MachineId × UInt64) :=
  match MachineId.require r.machine, r.time.millis with
  | .ok machine, .ofNat millis => some (machine, UInt64.ofNat millis)
  | _, _ => none

theorem machine_of_target {r : SnowflakeRequest} {machine : MachineId} {now : UInt64}
    (h : r.target = some (machine, now)) : r.machine = some (machine.val : Int) := by
  unfold target at h
  split at h
  · next hmachine _ =>
    cases h
    exact MachineId.require_eq_ok hmachine
  · cases h

theorem millis_of_target {r : SnowflakeRequest} {machine : MachineId} {now : UInt64}
    (h : r.target = some (machine, now)) : r.time.millis = now.toNat := by
  unfold target at h
  split at h
  · next millis _ hmillis =>
    cases h
    have hlt := r.millis_lt
    rw [hmillis] at hlt ⊢
    have hlt : millis < 2 ^ 63 := Int.ofNat_lt.1 hlt
    rw [UInt64.toNat_ofNat', Nat.mod_eq_of_lt (by omega)]
    rfl
  · cases h

theorem snowflake_of_target_none (next : NextTick σ) {r : SnowflakeRequest} (h : r.target = none)
    (env : σ) :
    ∃ e, Identifier.snowflake next r.machine r.time r.extras env = (.error e, env) := by
  unfold target at h
  unfold Identifier.snowflake Identifier.snowflakeFor
  split
  · exact ⟨_, rfl⟩
  · next machine hmachine =>
    split
    · exact ⟨_, rfl⟩
    · next millis hmillis =>
      rw [hmachine, hmillis] at h
      cases h

def resultOf (r : SnowflakeRequest) (machine : MachineId) (tick : Tick) :
    Except CallFailure Identifier :=
  match Snowflake.make machine tick.millis tick.counter with
  | .error e => .error (.error e)
  | .ok base => .ok ⟨.snowflake base, Identifier.mergeExtras r.extras⟩

theorem snowflake_of_target (next : NextTick σ) {r : SnowflakeRequest} {machine : MachineId}
    {now : UInt64} (h : r.target = some (machine, now)) (env : σ) :
    Identifier.snowflake next r.machine r.time r.extras env =
      match next machine now env with
      | (.error e, env) => (.error e, env)
      | (.ok tick, env) => (r.resultOf machine tick, env) := by
  unfold target at h
  split at h
  · next hmachine hmillis =>
    cases h
    rw [Identifier.snowflake, hmachine]
    simp only [Identifier.snowflakeFor, hmillis]
    generalize next _ _ env = reply
    obtain ⟨answer, env₁⟩ := reply
    cases answer with
    | error e => rfl
    | ok tick =>
      unfold resultOf
      dsimp only
      cases Snowflake.make machine tick.millis tick.counter with
      | error e => rfl
      | ok base => rfl
  · cases h

theorem resultOf_eq_ok {r : SnowflakeRequest} {machine : MachineId} {tick : Tick} {u : Identifier}
    (h : r.resultOf machine tick = .ok u) :
    ∃ b, u.base = .snowflake b ∧ b.machine = machine ∧ b.millis.val = tick.millis.toNat ∧
      b.counter = tick.counter := by
  unfold resultOf at h
  split at h
  · cases h
  · next b hmake =>
    cases h
    exact ⟨b, rfl, Snowflake.make_eq_ok hmake⟩

end SnowflakeRequest
end ShardQuery
