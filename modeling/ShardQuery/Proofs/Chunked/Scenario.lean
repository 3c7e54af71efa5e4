import ShardQuery.Proofs.Chunked.LimitInEffect

/-!
# Scenarios

A scenario says for every chunk what planning it, opening its scan and reading its cursor come to,
and the same for the base query. What a stream yields in a scenario is computed here from the
scenes alone, without sessions or worlds.
-/

namespace ShardQuery

abbrev ScanItem := Except ScanError Entry

/-- What planner and store do with one query. -/
structure Scene where
  plan : QuerySettings → Authorizations → Except ScanError Plan
  scan : String → Authorizations → List RowRange → Except ScanError (List ScanItem)

structure StagedChunk where
  query : QuerySettings
  scene : Scene

namespace Observation

variable {σ χ : Type}

def NeverCancels : Observation σ χ → Prop
  | finish _ _ => True
  | pull onItem => ∀ item, (onItem item).NeverCancels
  | close rest => rest.NeverCancels
  | act _ rest => rest.NeverCancels
  | cancel _ => False

def verdict : Observation σ χ → List ScanItem → Except ScanError Unit × χ
  | finish outcome state, _ => (outcome, state)
  | pull onItem, items => (onItem items.head?).verdict items.tail
  | close rest, _ => rest.verdict []
  | act _ rest, items => rest.verdict items
  | cancel rest, items => rest.verdict items

end Observation

/-- Scenes for the pass over the base query and for the base query as the only chunk, and a
partition that holds staged chunks and never cancels. -/
structure Scenario where
  basePass : Scene
  fallback : Scene
  setBase : QuerySettings → List StagedChunk → List StagedChunk
  wantsBasePass : List StagedChunk → Bool
  observe : Plan → List StagedChunk → Observation Scene (List StagedChunk)
  neverCancels : ∀ plan chunks, (observe plan chunks).NeverCancels

def Scene.setUp (scene : Scene) (q : QuerySettings) (authorizations : Authorizations) :
    Except ScanError (Plan × List ScanItem) :=
  match scene.plan q authorizations with
  | .error e => .error e
  | .ok plan =>
    if plan.hasWork then
      match scene.scan plan.table plan.authorizations plan.ranges with
      | .error e => .error e
      | .ok items => .ok (plan, items)
    else .ok (plan, [])

/-- The items of one chunk, and then those of the chunks after it. A failure confined to the chunk
drops the rest of it, any other is the last item. -/
def emit : List ScanItem → List ScanItem → List ScanItem
  | [], after => after
  | .ok entry :: items, after => .ok entry :: emit items after
  | .error e :: _, after => if e.isChunkLocal then after else [.error e]

def emitChunks (authorizations : Authorizations) : List StagedChunk → List ScanItem
  | [] => []
  | chunk :: chunks =>
    match chunk.scene.setUp chunk.query.forChunk authorizations with
    | .ok (_, items) => emit items (emitChunks authorizations chunks)
    | .error e => if e.isChunkLocal then emitChunks authorizations chunks else [.error e]

def upTo : Nat → List ScanItem → List ScanItem
  | 0, _ => []
  | _ + 1, [] => []
  | n + 1, .ok entry :: items => .ok entry :: upTo n items
  | n + 1, .error e :: items => .error e :: upTo (n + 1) items

def capped : Option Nat → List ScanItem → List ScanItem
  | none, items => items
  | some cap, items => upTo cap items

namespace Scenario

/-- The items from the first chunk on, which is the base query when there is none. Whatever fails
while the first chunk is set up fails the start. -/
def fromFirst (scenario : Scenario) (base : QuerySettings) (authorizations : Authorizations)
    (cap : Option Nat) (chunks : List StagedChunk) : Except ScanError (List ScanItem) :=
  let first := chunks.headD ⟨base, scenario.fallback⟩
  match first.scene.setUp first.query.forChunk authorizations with
  | .error e => .error e
  | .ok (_, items) => .ok (capped cap (emit items (emitChunks authorizations chunks.tail)))

def outcome (scenario : Scenario) (chunks : List StagedChunk) (cap : Option Nat)
    (q : QuerySettings) (id : QueryId) (authorizations : Authorizations) :
    Except ScanError (List ScanItem) :=
  let base := ChunkStream.baseOf q id
  let chunks := scenario.setBase base chunks
  if scenario.wantsBasePass chunks then
    match scenario.basePass.setUp base authorizations with
    | .error e => .error e
    | .ok (plan, items) =>
      if plan.hasWork then
        match (scenario.observe plan chunks).verdict items with
        | (.error e, _) => .error e
        | (.ok _, chunks) => scenario.fromFirst base authorizations cap chunks
      else .ok []
  else scenario.fromFirst base authorizations cap chunks

/-- The collaborators that play a scenario. Taking a chunk sets the scene for it. -/
def collaborators (scenario : Scenario) :
    Collaborators Scene (List ScanItem) (List StagedChunk) where
  store :=
    { openScan := fun table authorizations ranges scene =>
        ⟨scene.scan table authorizations ranges, scene, false⟩
      pull := fun items scene => ⟨(items.head?, items.tail), scene, false⟩
      release := fun _ scene => ⟨(), scene, false⟩ }
  plan q authorizations scene := ⟨scene.plan q authorizations, scene, false⟩
  partition :=
    { setBase := fun base chunks scene => ⟨scenario.setBase base chunks, scene, false⟩
      wantsBasePass := scenario.wantsBasePass
      observe := scenario.observe
      next := fun chunks _ =>
        ⟨(chunks.head?.map StagedChunk.query, chunks.tail),
          (chunks.head?.map StagedChunk.scene).getD scenario.fallback, false⟩
      size := List.length
      size_next_lt := by
        intro chunks scene q h
        cases chunks with
        | nil => cases h
        | cons chunk chunks => exact Nat.lt_succ_self _ }

end Scenario
end ShardQuery
