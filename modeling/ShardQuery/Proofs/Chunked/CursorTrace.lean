import ShardQuery.Chunked.Partition

/-!
# Traces of cursors

Collaborators can note what they are asked for, in order, and which cursors they open, pull from
and release. Cursors are numbered as they are opened. A trace is orderly when no two cursors are
open at once, none is open while a collaborator is asked for a chunk, a plan or a scan, only an
open one is pulled from, and every cursor is released once at most, after it was opened.
-/

namespace ShardQuery

inductive CursorEvent where
  | askChunk | askPlan | askScan
  | opened (n : Nat)
  | pulled (n : Nat)
  | released (n : Nat)
deriving DecidableEq

/-- True of the calls during which no cursor may be open. -/
def CursorEvent.isCall : CursorEvent → Bool
  | askChunk | askPlan | askScan => true
  | _ => false

def CursorEvent.isOpening : CursorEvent → Bool
  | opened _ => true
  | _ => false

abbrev CursorTrace := List CursorEvent

namespace CursorTrace

def IsOpen (t : CursorTrace) (n : Nat) : Prop := .opened n ∈ t ∧ .released n ∉ t

def opens (t : CursorTrace) : Nat := t.countP CursorEvent.isOpening

theorem opens_append (t : CursorTrace) (e : CursorEvent) :
    opens (t ++ [e]) = t.opens + if e.isOpening then 1 else 0 := by
  rw [opens, List.countP_append, List.countP_singleton]
  rfl

structure Orderly (t : CursorTrace) : Prop where
  unique : ∀ p, p <+: t → ∀ m n, IsOpen p m → IsOpen p n → m = n
  closed : ∀ p e, p ++ [e] <+: t → e.isCall = true → ∀ n, ¬ IsOpen p n
  pulled : ∀ p n, p ++ [.pulled n] <+: t → IsOpen p n
  opened : ∀ n, t.count (.opened n) ≤ 1
  released : ∀ p, p <+: t → ∀ n, p.count (.released n) ≤ p.count (.opened n)

/-- The traces that a careful user of cursors makes, and the cursor that is open after each. -/
inductive Leads : CursorTrace → Option Nat → Prop where
  | nil : Leads [] none
  | call {t : CursorTrace} {e : CursorEvent} : Leads t none → e.isCall = true → Leads (t ++ [e]) none
  | opened {t : CursorTrace} : Leads t none → Leads (t ++ [.opened t.opens]) (some t.opens)
  | pulled {t : CursorTrace} {n : Nat} : Leads t (some n) → Leads (t ++ [.pulled n]) (some n)
  | released {t : CursorTrace} {n : Nat} : Leads t (some n) → Leads (t ++ [.released n]) none

namespace Leads

variable {t : CursorTrace} {held : Option Nat}

private theorem opens_of_call {e : CursorEvent} (he : e.isCall = true) :
    opens (t ++ [e]) = t.opens := by
  rw [opens_append]
  cases e <;> first | rfl | cases he

private theorem held_lt (h : Leads t held) : ∀ m, held = some m → m < t.opens := by
  induction h with
  | nil => simp
  | call => simp
  | opened =>
    intro m hm
    cases hm
    rw [opens_append]
    exact Nat.lt_succ_self _
  | pulled _ ih =>
    rw [opens_append]
    exact ih
  | released => simp

private theorem count_opened (h : Leads t held) (n : Nat) :
    t.count (.opened n) = if n < t.opens then 1 else 0 := by
  induction h with
  | nil => simp [opens]
  | @call t e _ he ih =>
    rw [opens_of_call he, List.count_append, ih, List.count_singleton]
    cases e <;> first | rfl | cases he
  | @opened t _ ih =>
    rw [opens_append, List.count_append, ih, List.count_singleton]
    by_cases hn : n = t.opens
    · simp [hn, CursorEvent.isOpening]
    · have hlt : n < t.opens + 1 ↔ n < t.opens := by omega
      simp [hlt, Ne.symm hn, CursorEvent.isOpening]
  | pulled _ ih =>
    rw [opens_append, List.count_append, ih, List.count_singleton]
    rfl
  | released _ ih =>
    rw [opens_append, List.count_append, ih, List.count_singleton]
    rfl

private theorem count_released (h : Leads t held) (n : Nat) :
    t.count (.released n) = if n < t.opens ∧ held ≠ some n then 1 else 0 := by
  induction h with
  | nil => simp [opens]
  | @call t e _ he ih =>
    rw [opens_of_call he, List.count_append, ih, List.count_singleton]
    cases e <;> first | rfl | cases he
  | @opened t _ ih =>
    have hlt : (n < t.opens + 1 ∧ some t.opens ≠ some n) ↔ (n < t.opens ∧ none ≠ some n) := by
      simp only [ne_eq, Option.some.injEq, reduceCtorEq, not_false_eq_true, and_true]
      omega
    have hopens : opens (t ++ [.opened t.opens]) = t.opens + 1 := opens_append ..
    rw [hopens, List.count_append, ih, List.count_singleton]
    simp only [hlt]
    rfl
  | pulled _ ih =>
    rw [opens_append, List.count_append, ih, List.count_singleton]
    rfl
  | @released t m h ih =>
    have hopens : opens (t ++ [.released m]) = t.opens := opens_append ..
    rw [hopens, List.count_append, ih, List.count_singleton]
    -- what is released here was opened, since it was held
    by_cases hn : n = m
    · have hlt := h.held_lt m rfl
      simp [hn, hlt]
    · simp [Ne.symm hn]

theorem isOpen_iff (h : Leads t held) (n : Nat) : IsOpen t n ↔ held = some n := by
  rw [IsOpen, ← List.count_pos_iff, ← List.count_eq_zero, h.count_opened, h.count_released]
  by_cases heq : held = some n
  · simp [heq, h.held_lt n heq]
  · by_cases hlt : n < t.opens
    · simp [heq, hlt]
    · simp [heq, hlt]

private theorem before_last {e : CursorEvent} (h : Leads (t ++ [e]) held) :
    ∃ before, Leads t before ∧ (e.isCall = true → before = none) ∧
      ∀ n, e = .pulled n → before = some n := by
  generalize hu : t ++ [e] = u at h
  cases h with
  | nil => simp at hu
  | call h hcall =>
    obtain ⟨rfl, rfl⟩ := List.append_singleton_inj.1 hu
    exact ⟨none, h, fun _ => rfl, fun n he => by rw [he] at hcall; cases hcall⟩
  | opened h =>
    obtain ⟨rfl, rfl⟩ := List.append_singleton_inj.1 hu
    exact ⟨none, h, fun _ => rfl, fun n he => by cases he⟩
  | pulled h =>
    obtain ⟨rfl, rfl⟩ := List.append_singleton_inj.1 hu
    refine ⟨_, h, ?_, ?_⟩
    · intro hcall
      cases hcall
    · intro n he
      cases he
      rfl
  | released h =>
    obtain ⟨rfl, rfl⟩ := List.append_singleton_inj.1 hu
    refine ⟨_, h, ?_, ?_⟩
    · intro hcall
      cases hcall
    · intro n he
      cases he

private theorem of_prefix {p : CursorTrace} (h : Leads t held) (hp : p <+: t) :
    ∃ before, Leads p before := by
  induction h with
  | nil => exact ⟨none, List.prefix_nil.1 hp ▸ .nil⟩
  | call h he ih =>
    rcases List.prefix_concat_iff.1 hp with rfl | hp
    · exact ⟨none, h.call he⟩
    · exact ih hp
  | opened h ih =>
    rcases List.prefix_concat_iff.1 hp with rfl | hp
    · exact ⟨_, h.opened⟩
    · exact ih hp
  | pulled h ih =>
    rcases List.prefix_concat_iff.1 hp with rfl | hp
    · exact ⟨_, h.pulled⟩
    · exact ih hp
  | released h ih =>
    rcases List.prefix_concat_iff.1 hp with rfl | hp
    · exact ⟨none, h.released⟩
    · exact ih hp

theorem orderly (h : Leads t held) : Orderly t where
  unique p hp m n hm hn := by
    obtain ⟨before, hbefore⟩ := h.of_prefix hp
    have hmn := ((hbefore.isOpen_iff m).1 hm).symm.trans ((hbefore.isOpen_iff n).1 hn)
    exact Option.some.inj hmn
  closed p e hp hcall n hn := by
    obtain ⟨after, hafter⟩ := h.of_prefix hp
    obtain ⟨before, hbefore, hnone, -⟩ := hafter.before_last
    have hsome := (hbefore.isOpen_iff n).1 hn
    rw [hnone hcall] at hsome
    cases hsome
  pulled p n hp := by
    obtain ⟨after, hafter⟩ := h.of_prefix hp
    obtain ⟨before, hbefore, -, hsome⟩ := hafter.before_last
    exact (hbefore.isOpen_iff n).2 (hsome n rfl)
  opened n := by
    rw [h.count_opened]
    split <;> omega
  released p hp n := by
    obtain ⟨before, hbefore⟩ := h.of_prefix hp
    rw [hbefore.count_opened, hbefore.count_released]
    split
    · next hlt => simp [hlt.1]
    · omega

theorem balanced (h : Leads t none) (n : Nat) : t.count (.released n) = t.count (.opened n) := by
  rw [h.count_opened, h.count_released]
  simp

end Leads
end CursorTrace
end ShardQuery
