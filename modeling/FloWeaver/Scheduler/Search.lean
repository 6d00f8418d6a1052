import FloWeaver.Scheduler.Admission
import FloWeaver.Py.Sort
import Mathlib.Data.List.Lex

/-!
# Choosing the order of the candidates

Which ready action is tried first is decided by a sort key, and in conservative mode by a
beam search over a window of coming actions.  Both only propose an order: whatever they
propose still has to pass the admission test, one action after the other.

* `candidateSortKey` — the order of the greedy loop.
* `buildBatchFromOrder` — fills a batch from a proposed order.
* `corridorSearchFirstBatch` — the beam search over a window.
* `extractOptimizableCorridor`, `extractFrontierWindow`, `extractBleApiFrontierWindow` — the
  windows.
-/

namespace FloWeaver.Scheduler

open Py

variable (ctx : Ctx)

/-! ## The sort key -/

/-- The number of soft predecessors that are neither done nor selected. -/
def softOrderPredecessorPressure (candidate : String) (selected done : List String) : ℕ :=
  (ctx.derived.softOrderPairs.filter fun p =>
    p.2 = candidate && !done.contains p.1 && !selected.contains p.1).length

/-- The selected actions that share a group with the candidate. -/
def groupAffinity (actionId : String) (selectedGroupCounts : ℕ × String → ℤ) : ℤ :=
  ((ctx.affinityTokens actionId).map selectedGroupCounts).sum

/-- The type of `candidateSortKey`. -/
abbrev SortKey := ℤ ×ₗ ℤ ×ₗ ℕ ×ₗ ℤ ×ₗ ℚ ×ₗ ℤ ×ₗ ℕ ×ₗ String

def candidateSortKey (node : String) (selected done : List String)
    (selectedGroupCounts : ℕ × String → ℤ) : SortKey :=
  let priority := ctx.observableAnchorPriority node
  let rank := ctx.rank node
  toLex (if ctx.conservativeGrouping then (rank : ℤ) else priority,
    toLex (if ctx.conservativeGrouping then priority else 0,
      toLex (softOrderPredecessorPressure ctx node selected done,
        toLex (-ctx.criticalBoost node,
          toLex (-ctx.criticalScore node,
            toLex (-groupAffinity ctx node selectedGroupCounts, toLex (rank, node)))))))

/-! ## Filling a batch -/

/-- The first candidate that may join the batch. -/
def pickFromOrder (allowBleApiFrontier stopOnProtocolSwitch : Bool) (orderedCandidates : List String)
    (st : BatchBuildState) (ready done : List String) : Option String :=
  orderedCandidates.find? fun a =>
    ready.contains a && !st.selected.contains a &&
    !(stopOnProtocolSwitch &&
      st.selected.head?.any fun first => ctx.protocol a ≠ ctx.protocol first) &&
    candidateAllowedInBatch ctx allowBleApiFrontier a st ready done

/-- Picks until no candidate may join any more; every round uses up one ready action. -/
def buildLoop (pick : BatchBuildState → Option String) : ℕ → BatchBuildState → BatchBuildState
  | 0, st => st
  | fuel + 1, st =>
      match pick st with
      | some picked => buildLoop pick fuel (applyPickToBatchState ctx picked st)
      | none => st

def buildBatchFromOrder (allowBleApiFrontier stopOnProtocolSwitch : Bool)
    (orderedCandidates ready done : List String) : BatchBuildState :=
  buildLoop ctx
    (fun st => pickFromOrder ctx allowBleApiFrontier stopOnProtocolSwitch orderedCandidates st
      ready done)
    ready.length {}

/-! ## Windows -/

def countProtocol (protocol : Protocol) (actions : List String) : ℕ :=
  (actions.filter fun a => ctx.protocol a = protocol).length

def unscheduled (done : List String) : List String :=
  ctx.index.keys.filter fun a => !done.contains a

/-- The run of eligible reads at the head of the unscheduled actions, when it is long enough. -/
def extractOptimizableCorridor (done : List String) : List String :=
  let corridor := (unscheduled ctx done).takeWhile (corridorActionEligible ctx)
  if corridor.length < 6 || countProtocol ctx .cloud corridor < 3 ||
      countProtocol ctx .localNet corridor < 2 then []
  else corridor

/-- The unscheduled actions from the first ready eligible read on; a writeback or a later
phase before it ends the search. -/
def dropToFrontier (ready : List String) : List String → List String
  | [] => []
  | a :: rest =>
      if ready.contains a then if corridorActionEligible ctx a then a :: rest else []
      else if ctx.isWriteback a || ctx.phase a ≠ .preControlAcquisition then []
      else dropToFrontier ready rest

def extractFrontierWindow (ready done : List String) : List String :=
  let window := ((dropToFrontier ctx ready (unscheduled ctx done)).takeWhile
    (corridorActionEligible ctx)).take 16
  let cloud := countProtocol ctx .cloud window
  let local' := countProtocol ctx .localNet window
  if (window.filter (ready.contains ·)).length < 2 || cloud + local' < 3 then []
  else if cloud ≥ 4 || local' ≥ 3 || (cloud ≥ 2 && local' ≥ 2) then window
  else []

/-- A BLE action at the head and the ready reads that follow it. -/
def extractBleApiFrontierWindow (ready done : List String) : List String :=
  match unscheduled ctx done with
  | [] => []
  | anchor :: rest =>
      if ready.contains anchor && bleFrontierAnchorEligible ctx anchor then
        let reads := (rest.takeWhile fun a =>
          ctx.protocol a ≠ .ble && apiFrontierActionEligible ctx a && ready.contains a &&
            (ctx.protocol a ≠ .cloud || actionHasExplicitGroupMetadata (ctx.action a))).take 19
        let cloud := countProtocol ctx .cloud reads
        let local' := countProtocol ctx .localNet reads
        if reads.length < 2 then []
        else if cloud ≥ 2 || local' ≥ 2 || (cloud ≥ 1 && local' ≥ 1) then anchor :: reads
        else []
      else []

/-! ## Beam search -/

/-- A partial schedule of the window. -/
structure CorridorSearchState where
  done : List String
  indegree : String → ℕ
  ready : List String
  scheduledBatches : List (List String)
  score : ℚ

/-- The orders the search tries from a state, with the flag that keeps a batch to one protocol. -/
def corridorCandidateOrders (ready done : List String) : List (List String × Bool) :=
  let key (node : String) := candidateSortKey ctx node [] done (fun _ => 0)
  let defaultOrder := sortedBy key ready
  let stableProtocolOrder (primary : Protocol) : List String :=
    sortedBy (fun node => toLex (if ctx.protocol node = primary then 0 else 1, key node)) ready
  let focusOrder (focus : String) : List String × Bool :=
    let protocol := ctx.protocol focus
    let rest := defaultOrder.filter (· ≠ focus)
    (focus :: (rest.filter fun node => ctx.protocol node = protocol) ++
        rest.filter (fun node => ctx.protocol node ≠ protocol),
      protocol = .cloud || protocol = .localNet)
  let orders := [(defaultOrder, false), (stableProtocolOrder .cloud, true),
    (stableProtocolOrder .localNet, true)] ++ (defaultOrder.take 4).map focusOrder
  orders.eraseDups.take 6

/-- The least cost of what remains: requests for the cloud calls, one share for the local
reads, one unit for each BLE action. -/
def corridorRemainingLowerBound (remaining : List String) : ℚ :=
  let slots := (remaining.filter fun a => ctx.protocol a = .cloud).map ctx.cloudRequestSlot
  let requests (slot : String × ℤ) : ℤ :=
    let size := max 1 slot.2
    max 1 (((slots.filter (· = slot)).length + size - 1) / size)
  ((slots.dedup.map requests).sum : ℚ) +
    (if 0 < countProtocol ctx .localNet remaining then 35 / 100 else 0) +
    countProtocol ctx .ble remaining

/-- A later action of the protocol was taken while an earlier one remains. -/
def overtakes (protocol : Protocol) (selected remainingAfter : List String) : Bool :=
  let ranks := (selected.filter fun a => ctx.protocol a = protocol).map ctx.rank
  !ranks.isEmpty && remainingAfter.any fun a =>
    ctx.protocol a = protocol && ctx.rank a < ranks.foldl max 0

def corridorBatchCost (cheapLocalOverlap : Bool) (st : BatchBuildState)
    (remainingAfter readyBefore previous : List String) : ℚ :=
  let selected := st.selected
  if selected.isEmpty then 10000
  else
    let hasCloud : Bool := st.cloudCount > 0
    let hasLocal : Bool := st.localCount > 0
    let hasBle : Bool := st.bleCount > 0
    let remainingCloud := 0 < countProtocol ctx .cloud remainingAfter
    let remainingLocal := 0 < countProtocol ctx .localNet remainingAfter
    let unusedReadyCloud := readyBefore.any fun a =>
      !selected.contains a && ctx.protocol a = .cloud
    (if hasBle then 1 else 0) +
    (if hasCloud then 1 + max 0 (st.cloudCount - 1 : ℚ) * (35 / 100) else 0) +
    (if hasLocal && !hasCloud then 35 / 100
      else if hasLocal && hasCloud then (if cheapLocalOverlap then 5 / 100 else 9 / 10) else 0) +
    (if hasLocal && remainingCloud then 4 else 0) +
    (if hasCloud && hasLocal && remainingCloud then 6 else 0) +
    (if hasLocal && !hasCloud && remainingLocal then 3 / 2 else 0) +
    (if (previous.any fun a => ctx.protocol a = .localNet) && hasCloud then 3 else 0) -
    (if hasBle && (hasCloud || hasLocal) then 8 / 10 else 0) +
    (if hasLocal && unusedReadyCloud then 3 else 0) +
    (if overtakes ctx .cloud selected remainingAfter then 5 else 0) +
    (if overtakes ctx .localNet selected remainingAfter then 5 else 0)

/-- Completes a batch inside the window, where counters never go below zero. -/
def corridorComplete (window : List String) (st : CorridorSearchState) (actionId : String) :
    CorridorSearchState :=
  let st := { st with done := st.done.insert actionId, ready := st.ready.erase actionId }
  ((ctx.hard.graph.out actionId).filter (window.contains ·)).foldl
    (fun st nxt =>
      let left := st.indegree nxt - 1
      { st with
        indegree := Function.update st.indegree nxt left
        ready := if left = 0 && !st.done.contains nxt then st.ready.insert nxt else st.ready })
    st

/-- The parameters of a search. -/
structure SearchOptions where
  beamWidth : ℕ := 4
  lookaheadDepth : ℕ := 3
  cheapLocalOverlap : Bool := false
  requiredFirstBatchActions : List String := []
  minFirstBatchSize : ℕ := 1
  allowBleApiFrontier : Bool := false

/-- The actions of the window that are not done. -/
def windowRemaining (window : List String) (st : CorridorSearchState) : List String :=
  window.filter fun a => !st.done.contains a

/-- One batch after a state, with the estimate of the whole. -/
def corridorSuccessor (window : List String) (opts : SearchOptions) (st : CorridorSearchState)
    (batchState : BatchBuildState) : ℚ × CorridorSearchState :=
  let batch := batchState.selected
  let next := batch.foldl (corridorComplete ctx window) st
  let remainingAfter := windowRemaining window next
  let batchScore := corridorBatchCost ctx opts.cheapLocalOverlap batchState remainingAfter st.ready
    (st.scheduledBatches.getLast?.getD [])
  (st.score + batchScore + corridorRemainingLowerBound ctx remainingAfter,
    { next with
      scheduledBatches := st.scheduledBatches ++ [batch]
      score := st.score + batchScore })

/-- The different batches that the candidate orders give from a state. -/
def corridorBatches (opts : SearchOptions) (st : CorridorSearchState) : List BatchBuildState :=
  let built := (corridorCandidateOrders ctx st.ready st.done).map fun order =>
    buildBatchFromOrder ctx opts.allowBleApiFrontier order.2 order.1 st.ready st.done
  let usable := built.filter fun b =>
    !b.selected.isEmpty &&
    (!st.scheduledBatches.isEmpty ||
      (opts.requiredFirstBatchActions.all (b.selected.contains ·) &&
        opts.minFirstBatchSize ≤ b.selected.length))
  usable.foldl
    (fun kept b => if kept.any (fun k => k.selected = b.selected) then kept else kept ++ [b]) []

def corridorExpand (window : List String) (opts : SearchOptions) (st : CorridorSearchState) :
    List (ℚ × CorridorSearchState) :=
  if (windowRemaining window st).isEmpty || st.ready.isEmpty then [(st.score, st)]
  else (corridorBatches ctx opts st).map (corridorSuccessor ctx window opts st)

/-- The order of the beam: the estimate, then the number of batches, then the batches. -/
abbrev BeamKey := ℚ ×ₗ ℕ ×ₗ List (List String)

def beamKey (estimate : ℚ) (st : CorridorSearchState) : BeamKey :=
  toLex (estimate, toLex (st.scheduledBatches.length, st.scheduledBatches))

/-- The beam after some rounds; `none` when a round leaves nothing. -/
def corridorBeam (window : List String) (opts : SearchOptions) :
    ℕ → List CorridorSearchState → Option (List CorridorSearchState)
  | 0, beam => some beam
  | depth + 1, beam =>
      let expanded := beam.flatMap (corridorExpand ctx window opts)
      if expanded.isEmpty then none
      else corridorBeam window opts depth
        (((sortedBy (fun item => beamKey item.1 item.2) expanded).take opts.beamWidth).map (·.2))

def corridorSearchFirstBatch (window ready done : List String) (indegree : String → ℕ)
    (opts : SearchOptions) : List String :=
  let initialReady := window.filter fun a => ready.contains a && indegree a = 0
  if initialReady.length < 2 then []
  else
    let initial : CorridorSearchState :=
      { done, indegree, ready := initialReady, scheduledBatches := [], score := 0 }
    match corridorBeam ctx window opts opts.lookaheadDepth [initial] with
    | none => []
    | some beam =>
        let final (st : CorridorSearchState) : BeamKey :=
          beamKey (st.score + corridorRemainingLowerBound ctx (windowRemaining window st)) st
        match (sortedBy final beam).head? with
        | some best => best.scheduledBatches.headD []
        | none => []

end FloWeaver.Scheduler
