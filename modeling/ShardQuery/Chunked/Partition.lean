import ShardQuery.Scan.Session
/-! # Partitions

A partition splits a base query into a finite sequence of chunks. It may ask to look at the results of the
base query first, and then says step by step what it does with the session it is lent. -/

namespace ShardQuery

/-- What a partition does with the session of the base query: it pulls, closes, acts on its surroundings,
cancels, and in the end reports an outcome and its own state. -/
inductive Observation (σ χ : Type) where
  | finish (outcome : Except ScanError Unit) (state : χ)
  | pull (onItem : Option (Except ScanError Entry) → Observation σ χ)
  | close (rest : Observation σ χ)
  | act (effect : σ → σ) (rest : Observation σ χ)
  | cancel (rest : Observation σ χ)

namespace Observation

variable {σ κ χ : Type}

def run (store : ScanStore σ κ) :
    Observation σ χ → Session κ → World σ → (Except ScanError Unit × χ) × Session κ × World σ
  | finish outcome state, s, w => ((outcome, state), s, w)
  | pull onItem, s, w =>
    let (item, s, w) := s.next store w
    (onItem item).run store s w
  | close rest, s, w =>
    let (s, w) := s.close store w
    rest.run store s w
  | act effect rest, s, w => rest.run store s { w with env := effect w.env }
  | cancel rest, s, w => rest.run store s w.cancel

end Observation

/-- A way to split queries into an ordered, finite, non-restartable sequence of chunks, over a state of its
own. That it is finite is said by a size that every chunk taken makes smaller. -/
structure Partition (σ χ : Type) where
  setBase : QuerySettings → χ → σ → Reply σ χ
  wantsBasePass : χ → Bool
  observe : Plan → χ → Observation σ χ
  next : χ → σ → Reply σ (Option QuerySettings × χ)
  size : χ → Nat
  /-- The sequence is finite. -/
  size_next_lt : ∀ state env q, (next state env).value.1 = some q →
    size (next state env).value.2 < size state

/-- Everybody whom a chunked query asks: the store, the planner and the partition. -/
structure Collaborators (σ κ χ : Type) where
  store : ScanStore σ κ
  plan : QuerySettings → Authorizations → σ → Reply σ (Except ScanError Plan)
  partition : Partition σ χ

end ShardQuery
