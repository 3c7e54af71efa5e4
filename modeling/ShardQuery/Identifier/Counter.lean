import ShardQuery.Identifier.Snowflake
import ShardQuery.Ordered.Map
/-! # Counters

A counter source hands out pairs of millisecond and counter for a machine, each later than the one before.
A local source keeps its last pair in memory. A cached source also keeps the last millisecond in a cache
that outlives it, and starts above what it finds there. A source is locked during a call, and a call that
panics leaves the lock poisoned. -/

namespace ShardQuery

/-- A millisecond and a counter within it. -/
structure Tick where
  millis : UInt64
  counter : UInt32
deriving DecidableEq, Inhabited

namespace Tick

/-- The pair after the previous one at a clock reading. A clock that stands still or moved back counts on
within the last millisecond, and past its last counter takes the next millisecond. There is none when that
millisecond overflows. -/
def next (previous : Option Tick) (now : UInt64) : Option Tick :=
  match previous with
  | none => some ⟨now, 0⟩
  | some last =>
    if last.millis < now then some ⟨now, 0⟩
    else if last.counter < 0xffffffff then some ⟨last.millis, last.counter + 1⟩
    else if last.millis < 0xffffffffffffffff then some ⟨last.millis + 1, 0⟩
    else none

/-- The last pair of a millisecond, from which counting never stays within it. -/
def exhausted (millis : UInt64) : Tick := ⟨millis, 0xffffffff⟩

end Tick

abbrev Issued := OrderedMap MachineId Tick

/-- A store of the last millisecond issued to each machine, over a state of its own. -/
structure CounterCache (σ : Type) where
  load : MachineId → σ → Except IdentifierError (Option UInt64) × σ
  store : MachineId → UInt64 → σ → Except IdentifierError Unit × σ

/-- A source of pairs: what it issued, and whether it persists that in a cache. -/
structure CounterSource where
  cached : Bool
  issued : Issued := ∅
  poisoned : Bool := false
deriving DecidableEq

/-- A call on a cached source between its two parts: the pair it reserved, and the one before that. -/
structure Reservation where
  machine : MachineId
  previous : Option Tick
  tick : Tick
deriving DecidableEq

namespace CounterSource

instance : Inhabited CounterSource := ⟨⟨false, ∅, false⟩⟩

def newLocal : CounterSource := { cached := false }

def newCached : CounterSource := { cached := true }

def isPersistent (s : CounterSource) : Bool := s.cached

def note (s : CounterSource) (machine : MachineId) (tick : Tick) : CounterSource :=
  { s with issued := s.issued.insert machine tick }

theorem find?_note (s : CounterSource) (machine other : MachineId) (tick : Tick) :
    (s.note machine tick).issued.find? other =
      if other = machine then some tick else s.issued.find? other :=
  OrderedMap.find?_insert ..

/-- What becomes of a source in whose call the program panics. -/
def poison (s : CounterSource) : CounterSource := { s with poisoned := true }

def lockPoisoned : IdentifierError := .counterUnavailable "counter state lock poisoned"

def nextLocal (s : CounterSource) (machine : MachineId) (now : UInt64) :
    Except CallFailure Tick × CounterSource :=
  if s.poisoned then (.error (.error lockPoisoned), s)
  else
    match Tick.next (s.issued.find? machine) now with
    | none => (.error .overflow, s.poison)
    | some tick => (.ok tick, s.note machine tick)

variable {σ : Type}

/-- The pair before the next one: the last one issued, or the exhausted millisecond found in the cache. -/
def previous (cache : CounterCache σ) (s : CounterSource) (machine : MachineId) (env : σ) :
    Except IdentifierError (Option Tick) × σ :=
  match s.issued.find? machine with
  | some last => (.ok (some last), env)
  | none =>
    match cache.load machine env with
    | (.error e, env) => (.error e, env)
    | (.ok found, env) => (.ok (found.map Tick.exhausted), env)

/-- True when a pair starts a millisecond that the cache has to learn of. -/
def opensMillis (previous : Option Tick) (tick : Tick) : Bool :=
  match previous with
  | none => true
  | some last => last.millis < tick.millis

/-- The first part of a call on a cached source: locks it, loads from the cache if need be, and chooses the
next pair. -/
def reserve (cache : CounterCache σ) (s : CounterSource) (machine : MachineId) (now : UInt64)
    (env : σ) : Except CallFailure Reservation × CounterSource × σ :=
  if s.poisoned then (.error (.error lockPoisoned), s, env)
  else
    match s.previous cache machine env with
    | (.error e, env) => (.error (.error e), s, env)
    | (.ok previous, env) =>
      match Tick.next previous now with
      | none => (.error .overflow, s.poison, env)
      | some tick => (.ok ⟨machine, previous, tick⟩, s, env)

/-- The second part: stores a new millisecond and issues the pair. A pair that cannot be stored is not
issued. -/
def commit (cache : CounterCache σ) (s : CounterSource) (r : Reservation) (env : σ) :
    Except CallFailure Tick × CounterSource × σ :=
  if opensMillis r.previous r.tick then
    match cache.store r.machine r.tick.millis env with
    | (.error e, env) => (.error (.error e), s, env)
    | (.ok _, env) => (.ok r.tick, s.note r.machine r.tick, env)
  else (.ok r.tick, s.note r.machine r.tick, env)

/-- The next pair of a source over a cache. Other sources may use the cache between the two parts. -/
def nextCached (cache : CounterCache σ) (s : CounterSource) (machine : MachineId) (now : UInt64)
    (env : σ) : Except CallFailure Tick × CounterSource × σ :=
  match s.reserve cache machine now env with
  | (.error e, s, env) => (.error e, s, env)
  | (.ok r, s, env) => s.commit cache r env

def next (cache : CounterCache σ) (s : CounterSource) (machine : MachineId) (now : UInt64) (env : σ) :
    Except CallFailure Tick × CounterSource × σ :=
  if s.cached then s.nextCached cache machine now env
  else
    let (tick, s) := s.nextLocal machine now
    (tick, s, env)

end CounterSource

structure MemoryCache where
  entries : OrderedMap MachineId UInt64 := ∅
deriving DecidableEq

namespace MemoryCache

instance : Inhabited MemoryCache := ⟨{}⟩

/-- The cache that keeps for a machine the greater of a millisecond and the one kept so far. -/
def raised (c : MemoryCache) (machine : MachineId) (millis : UInt64) : MemoryCache :=
  let kept := (c.entries.find? machine).getD millis
  { entries := c.entries.insert machine (if kept < millis then millis else kept) }

def cache : CounterCache MemoryCache where
  load machine c := (.ok (c.entries.find? machine), c)
  store machine millis c := (.ok (), c.raised machine millis)

end MemoryCache

/-- The state of a cache, and which of its two operations fail at present. -/
structure Faulty (σ : Type) where
  inner : σ
  loadFails : Bool := false
  storeFails : Bool := false
deriving DecidableEq, Inhabited

/-- A cache each of whose two operations can be made to fail, which then does nothing. -/
def CounterCache.faulty {σ : Type} (cache : CounterCache σ) : CounterCache (Faulty σ) where
  load machine c :=
    if c.loadFails then (.error (.counterUnavailable "cache load failed"), c)
    else
      let (found, inner) := cache.load machine c.inner
      (found, { c with inner })
  store machine millis c :=
    if c.storeFails then (.error (.counterUnavailable "cache store failed"), c)
    else
      let (outcome, inner) := cache.store machine millis c.inner
      (outcome, { c with inner })

theorem CounterCache.load_faulty {σ : Type} (cache : CounterCache σ) (machine : MachineId)
    (c : Faulty σ) :
    cache.faulty.load machine c =
      if c.loadFails then (.error (.counterUnavailable "cache load failed"), c)
      else ((cache.load machine c.inner).1, { c with inner := (cache.load machine c.inner).2 }) := rfl

theorem CounterCache.store_faulty {σ : Type} (cache : CounterCache σ) (machine : MachineId)
    (millis : UInt64) (c : Faulty σ) :
    cache.faulty.store machine millis c =
      if c.storeFails then (.error (.counterUnavailable "cache store failed"), c)
      else
        ((cache.store machine millis c.inner).1,
          { c with inner := (cache.store machine millis c.inner).2 }) := rfl

end ShardQuery
