import ShardQuery.Identifier.Counter

/-!
# The order of ticks

Ticks are ordered by millisecond and then by counter. The next tick of a machine, if there is one, is
above its last one and not before the clock.
-/

namespace ShardQuery

namespace Tick

def lastMillis : UInt64 := 0xffffffffffffffff

instance : LT Tick :=
  ⟨fun a b => a.millis < b.millis ∨ a.millis = b.millis ∧ a.counter < b.counter⟩

instance (a b : Tick) : Decidable (a < b) :=
  inferInstanceAs (Decidable (a.millis < b.millis ∨ a.millis = b.millis ∧ a.counter < b.counter))

theorem lt_def {a b : Tick} :
    a < b ↔ a.millis < b.millis ∨ a.millis = b.millis ∧ a.counter < b.counter := Iff.rfl

theorem lt_trans {a b d : Tick} (hab : a < b) (hbd : b < d) : a < d := by
  rw [lt_def] at *
  rcases hab with hab | ⟨hab, hab'⟩ <;> rcases hbd with hbd | ⟨hbd, hbd'⟩
  · exact Or.inl (UInt64.lt_trans hab hbd)
  · exact Or.inl (hbd ▸ hab)
  · exact Or.inl (hab ▸ hbd)
  · exact Or.inr ⟨hab.trans hbd, UInt32.lt_trans hab' hbd'⟩

theorem lt_irrefl (a : Tick) : ¬ a < a := by
  rintro (h | ⟨-, h⟩)
  · exact UInt64.lt_irrefl _ h
  · exact UInt32.lt_irrefl _ h

theorem millis_le_of_lt {a b : Tick} (h : a < b) : a.millis ≤ b.millis := by
  rcases lt_def.1 h with h | ⟨h, _⟩
  · exact UInt64.le_of_lt h
  · exact h ▸ UInt64.le_refl _

private theorem lt_succ_millis {m : UInt64} (h : m < 0xffffffffffffffff) : m < m + 1 := by
  have hm : m.toNat < 2 ^ 64 - 1 := h
  rw [UInt64.lt_iff_toNat_lt, UInt64.toNat_add, UInt64.toNat_one, Nat.mod_eq_of_lt (by omega)]
  omega

private theorem lt_succ_counter {n : UInt32} (h : n < 0xffffffff) : n < n + 1 := by
  have hn : n.toNat < 2 ^ 32 - 1 := h
  rw [UInt32.lt_iff_toNat_lt, UInt32.toNat_add, UInt32.toNat_one, Nat.mod_eq_of_lt (by omega)]
  omega

/-- The next tick opens the clock's millisecond, counts on within the last one, or opens the one
after it. -/
theorem next_cases {last tick : Tick} {now : UInt64} (h : next (some last) now = some tick) :
    (last.millis < now ∧ tick = ⟨now, 0⟩) ∨
      now ≤ last.millis ∧
        (tick = ⟨last.millis, last.counter + 1⟩ ∧ last.counter < last.counter + 1 ∨
          tick = ⟨last.millis + 1, 0⟩ ∧ last.millis < last.millis + 1 ∧
            ¬ last.counter < 0xffffffff) := by
  rw [next] at h
  split at h
  · next hnow =>
    cases h
    exact Or.inl ⟨hnow, rfl⟩
  · next hnow =>
    refine Or.inr ⟨UInt64.not_lt.1 hnow, ?_⟩
    split at h
    · next hcounter =>
      cases h
      exact Or.inl ⟨rfl, lt_succ_counter hcounter⟩
    · next hcounter =>
      split at h
      · next hmillis =>
        cases h
        exact Or.inr ⟨rfl, lt_succ_millis hmillis, hcounter⟩
      · cases h

theorem lt_of_next {last tick : Tick} {now : UInt64} (h : next (some last) now = some tick) :
    last < tick := by
  rcases next_cases h with ⟨hnow, rfl⟩ | ⟨-, ⟨rfl, hlt⟩ | ⟨rfl, hlt, -⟩⟩
  · exact Or.inl hnow
  · exact Or.inr ⟨rfl, hlt⟩
  · exact Or.inl hlt

theorem now_le_of_next {previous : Option Tick} {tick : Tick} {now : UInt64}
    (h : next previous now = some tick) : now ≤ tick.millis := by
  cases previous with
  | none =>
    cases h
    exact UInt64.le_refl _
  | some last =>
    rcases next_cases h with ⟨-, rfl⟩ | ⟨hnow, ⟨rfl, -⟩ | ⟨rfl, hlt, -⟩⟩
    · exact UInt64.le_refl _
    · exact hnow
    · exact UInt64.le_trans hnow (UInt64.le_of_lt hlt)

theorem millis_lt_of_next_exhausted {millis now : UInt64} {tick : Tick}
    (h : next (some (exhausted millis)) now = some tick) : millis < tick.millis := by
  rcases next_cases h with ⟨hnow, rfl⟩ | ⟨-, ⟨-, hlt⟩ | ⟨rfl, hlt, -⟩⟩
  · exact hnow
  · -- no counter comes after that of an exhausted millisecond
    have hlt : (0xffffffff : UInt32) < 0xffffffff + 1 := hlt
    exact absurd hlt (by decide)
  · exact hlt

/-- There is a next tick unless the last one stands in the last millisecond of all. -/
theorem exists_next {previous : Option Tick}
    (h : ∀ last, previous = some last → last.millis ≠ lastMillis) (now : UInt64) :
    ∃ tick, next previous now = some tick := by
  cases previous with
  | none => exact ⟨_, rfl⟩
  | some last =>
    have hne : last.millis.toNat ≠ 2 ^ 64 - 1 := fun heq => h last rfl (UInt64.toNat_inj.1 heq)
    have hlt : last.millis < 0xffffffffffffffff := by
      have hbound := last.millis.toNat_lt
      have hlast : (0xffffffffffffffff : UInt64).toNat = 2 ^ 64 - 1 := rfl
      rw [UInt64.lt_iff_toNat_lt, hlast]
      omega
    rw [next]
    split
    · exact ⟨_, rfl⟩
    · split
      · exact ⟨_, rfl⟩
      · exact ⟨_, rfl⟩

end Tick
end ShardQuery
