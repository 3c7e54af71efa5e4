import ShardQuery.Log.Scope
import ShardQuery.Metrics
import ShardQuery.Scan.Entry
import ShardQuery.Scan.Error
import ShardQuery.Scan.Plan
/-! # The world of a query

What a running query shares with its collaborators: their own state, the log, the metrics, the clock and the
cancellation flag. A collaborator answers with a value and its state afterwards, and may cancel. -/

namespace ShardQuery

/-- The shared state around a query, over the state of its collaborators. -/
structure World (σ : Type) where
  env : σ
  log : Log := {}
  metrics : Metrics := {}
  now : Nat := 0
  cancelled : Bool := false
deriving Inhabited

structure Reply (σ α : Type) where
  value : α
  env : σ
  cancels : Bool := false
deriving Inhabited

namespace World

variable {σ α : Type}

def ask (w : World σ) (call : σ → Reply σ α) : α × World σ :=
  let r := call w.env
  (r.value, { w with env := r.env, cancelled := w.cancelled || r.cancels })

def report (w : World σ) (e : Log.Event) (fields : List (String × String)) : World σ :=
  { w with log := w.log.report e fields }

def count (w : World σ) (change : Metrics → Metrics) : World σ :=
  { w with metrics := change w.metrics }

def cancel (w : World σ) : World σ := { w with cancelled := true }

end World

/-- A store that opens scans. A cursor yields entries and failures until it has no more, and is released
once. -/
structure ScanStore (σ κ : Type) where
  openScan : String → Authorizations → List RowRange → σ → Reply σ (Except ScanError κ)
  pull : κ → σ → Reply σ (Option (Except ScanError Entry) × κ)
  release : κ → σ → Reply σ Unit

end ShardQuery
