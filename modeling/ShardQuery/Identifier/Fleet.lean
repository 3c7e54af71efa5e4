import ShardQuery.Identifier.Generator
/-! # Fleets of counter sources

Several counter sources and the caches that some of them share, all by number. A source keeps its cache, and
what one source stores the others load. -/

namespace ShardQuery

/-- Sources, each with the number of its cache if it has one, and the states of the caches. -/
structure Fleet (σ : Type) where
  caches : List σ := []
  sources : List (CounterSource × Option Nat) := []
deriving DecidableEq, Inhabited

namespace Fleet

variable {σ : Type}

abbrev Member (σ : Type) := CounterSource × σ

def nextTick (cache : CounterCache σ) : NextTick (Member σ) := fun machine now (s, env) =>
  let (tick, s, env) := s.next cache machine now env
  (tick, s, env)

/-- The last of `n` pairs in a row; a failure ends the row. -/
def lastTick (cache : CounterCache σ) (machine : MachineId) (now : UInt64) :
    Nat → Option Tick → Member σ → Except CallFailure (Option Tick) × Member σ
  | 0, last, m => (.ok last, m)
  | n + 1, _, m =>
    match nextTick cache machine now m with
    | (.error e, m) => (.error e, m)
    | (.ok tick, m) => lastTick cache machine now n (some tick) m

def addCache (f : Fleet σ) (env : σ) : Fleet σ := { f with caches := f.caches ++ [env] }

def addSource (f : Fleet σ) (s : CounterSource) (cache : Option Nat) : Fleet σ :=
  { f with sources := f.sources ++ [(s, cache)] }

def setCache (f : Fleet σ) (k : Nat) (env : σ) : Fleet σ := { f with caches := f.caches.set k env }

def source (f : Fleet σ) (i : Nat) : CounterSource × Option Nat := f.sources.getD i (.newLocal, none)

variable [Inhabited σ]

def cache (f : Fleet σ) (k : Nat) : σ := f.caches.getD k default

/-- Lets a source and its cache do some work. A source without a cache works beside one that it never
uses. -/
def act {α : Type} (f : Fleet σ) (i : Nat) (work : Member σ → α × Member σ) : α × Fleet σ :=
  let (s, k) := f.source i
  let (a, s, env) := work (s, (k.map f.cache).getD default)
  let f := { f with sources := f.sources.set i (s, k) }
  match k with
  | none => (a, f)
  | some k => (a, f.setCache k env)

end Fleet
end ShardQuery
