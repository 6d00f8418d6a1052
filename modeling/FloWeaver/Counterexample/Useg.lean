import FloWeaver.Align.Verify
import FloWeaver.Counterexample.State
import FloWeaver.Py.Sort

/-!
# The unified graph

Two programs are put into one graph along an alignment.  At every place the first aligned block
that fits is taken, else the pair of the two current nodes, else all nodes up to the next aligned
one on either side.

* `advance` — what is taken at a place.
* `alignedNode`, `splitNode` — the nodes of the graph.
* `buildUseg` — the graph.
-/

namespace FloWeaver.Counterexample

open Py Ir Align

structure USEGNode where
  usegNodeId : String
  kind : String
  baselineNodeIds : List String := []
  optimizedNodeIds : List String := []
  suspiciousRegionId : Option String := none
  unsupportedAlignment : Bool := false
  crossesObservationBoundary : Bool := false
  mergeTarget : Option (Option String × Option String) := none
  weight : ℕ := 0
deriving DecidableEq

structure USEG where
  nodes : List USEGNode := []
deriving DecidableEq

/-! ## Suspicious regions -/

/-- What is read of a region; a missing entry is the empty text. -/
structure RegionPayload where
  regionId : String := ""
  baselineNodeIds : List String := []
  optimizedNodeIds : List String := []
  reason : String := ""
  unsupportedAlignment : Bool := false

/-- `region.to_dict()`. -/
def regionPayload (region : SuspiciousRegion) : RegionPayload where
  regionId := region.regionId
  baselineNodeIds := region.baselineNodeIds
  optimizedNodeIds := region.optimizedNodeIds
  reason := region.reason

/-- `_alignment_region_key`. -/
def alignmentRegionKey (baselineNodeIds optimizedNodeIds : List String) : List String :=
  sortedStr baselineNodeIds ++ ["|"] ++ sortedStr optimizedNodeIds

/-- `_region_lookup`. -/
def regionLookup (regions : List RegionPayload) : OrderedDict (List String) RegionPayload :=
  .ofList (regions.map fun region =>
    (alignmentRegionKey region.baselineNodeIds region.optimizedNodeIds, region))

/-- `lookup.get(key, {})`. -/
def regionOf (lookup : OrderedDict (List String) RegionPayload)
    (baselineNodeIds optimizedNodeIds : List String) : RegionPayload :=
  (lookup.get? (alignmentRegionKey baselineNodeIds optimizedNodeIds)).getD {}

namespace RegionPayload

def unsupportedReasons : List String := ["LOW_CONFIDENCE_ALIGNMENT", "UNSUPPORTED_ALIGNMENT"]

/-- `_is_supported_region`. -/
def isSupported (region : RegionPayload) : Bool :=
  !region.unsupportedAlignment && !unsupportedReasons.contains (upper (strip region.reason))

/-- The flag of a graph node; the reason is not stripped here. -/
def isUnsupported (region : RegionPayload) : Bool :=
  region.unsupportedAlignment || unsupportedReasons.contains (upper region.reason)

/-- `str(region.get("region_id", "")) or None`. -/
def id? (region : RegionPayload) : Option String :=
  if region.regionId = "" then none else some region.regionId

end RegionPayload

/-! ## Summaries -/

/-- Is a node observed at its boundary? -/
def atBoundary (schema : CounterexampleObservationSchema) (node : IRNode) : Bool :=
  node.summary.emitsObservation || schema.semanticOps.contains node.summary.op ||
    node.observationBoundary

/-- `_crosses_observation_boundary`. -/
def crossesObservationBoundary (program : IRProgram) (nodeIds : List String)
    (schema : CounterexampleObservationSchema) : Except PyErr Bool :=
  nodeIds.anyM fun nodeId => do return atBoundary schema (← program.node nodeId)

/-- The kind, the action and the key of an effect. -/
def effectSignature (effect : Dict) : String ×ₗ String ×ₗ String :=
  toLex ((effect.getD "resource_kind" (.str "")).pyStr,
    toLex ((effect.getD "action" (.str "")).pyStr, (effect.getD "key" (.str "")).pyStr))

/-- `tuple(sorted(params.items()))`. -/
def sortedItems (params : Dict) : List (String × Val) := sortedBy (·.1) params

/-- `_summary_signature(a) == _summary_signature(b)`. -/
def sameSignature (a b : IRSummary) : Bool :=
  decide (a.provider = b.provider) && decide (a.op = b.op) && decide (a.target = b.target) &&
    decide (a.phase = b.phase) &&
    decide ((sortedItems a.params).map (·.1) = (sortedItems b.params).map (·.1)) &&
    eqvItems ((sortedItems a.params).map (·.2)) ((sortedItems b.params).map (·.2)) &&
    decide (sortedBy id (a.resourceEffects.map effectSignature) =
      sortedBy id (b.resourceEffects.map effectSignature)) &&
    decide (a.exceptionCategory = b.exceptionCategory)

/-- The relations under which a pair may be executed as one. -/
def pairRelations : List String :=
  ["EXACT", "STUTTER", "REORDER_EQ", "REUSE_EQ", "BATCH_EQ", "SERIAL_EQ"]

/-- `_pair_compatible`. -/
def pairCompatible (baselineIr optimizedIr : IRProgram) (item : AlignedPair) :
    Except PyErr Bool := do
  if item.confidence < 0.75 then return false
  if !pairRelations.contains item.relation then return false
  let baseline ← baselineIr.node item.baselineNodeId
  let optimized ← optimizedIr.node item.optimizedNodeId
  return sameSignature baseline.summary optimized.summary

/-! ## The nodes of the graph -/

section Nodes

variable (baselineIr optimizedIr : IRProgram) (schema : CounterexampleObservationSchema)

/-- Does one of the two segments cross an observation boundary? -/
def crossesEither (baselineNodeIds optimizedNodeIds : List String) : Except PyErr Bool := do
  if ← crossesObservationBoundary baselineIr baselineNodeIds schema then return true
  crossesObservationBoundary optimizedIr optimizedNodeIds schema

/-- `_aligned_node`. -/
def alignedNode (baselineNodeIds optimizedNodeIds : List String) (confidence : ℚ)
    (splitOpen : Bool) (region : RegionPayload) (index : ℕ) : Except PyErr USEGNode := do
  let crossesBoundary ← crossesEither baselineIr optimizedIr schema baselineNodeIds optimizedNodeIds
  let compatible := decide (0.75 ≤ confidence) && region.isSupported
  return {
    usegNodeId := nodeIdText "useg" index
    kind := if splitOpen && compatible then "MERGE" else if compatible then "UNIFIED" else "SPLIT"
    baselineNodeIds := baselineNodeIds
    optimizedNodeIds := optimizedNodeIds
    suspiciousRegionId := region.id?
    unsupportedAlignment := region.isUnsupported
    crossesObservationBoundary := crossesBoundary
    mergeTarget :=
      if splitOpen then some (baselineNodeIds.getLast?, optimizedNodeIds.getLast?) else none
    weight := if compatible then 0 else 1 }

/-- The node of what is not aligned. -/
def splitNode (baselineSegment optimizedSegment : List String) (region : RegionPayload)
    (index : ℕ) : Except PyErr USEGNode := do
  let crossesBoundary ← crossesEither baselineIr optimizedIr schema baselineSegment optimizedSegment
  return {
    usegNodeId := nodeIdText "useg" index
    kind := "SPLIT"
    baselineNodeIds := baselineSegment
    optimizedNodeIds := optimizedSegment
    suspiciousRegionId := region.id?
    unsupportedAlignment := region.isUnsupported
    crossesObservationBoundary := crossesBoundary
    weight := 2 }

end Nodes

/-! ## What is taken at a place -/

/-- The nodes that are still to come: `order[i:]` of both programs. -/
structure Position where
  baseline : List String
  optimized : List String
deriving DecidableEq

/-- `node_pairs`: the last pair of two nodes counts. -/
def nodePairs (map : AlignmentMap) : OrderedDict (String × String) AlignedPair :=
  .ofList (map.nodeAlignments.map fun item => ((item.baselineNodeId, item.optimizedNodeId), item))

/-- Are these the next nodes?  None always are. -/
def isNext (nodeIds order : List String) : Bool :=
  nodeIds.isEmpty || decide (order.take nodeIds.length = nodeIds)

/-- Does a block fit at a place? -/
def fits (position : Position) (block : AlignedBlock) : Bool :=
  isNext block.baselineNodeIds position.baseline &&
    isNext block.optimizedNodeIds position.optimized &&
    !(block.baselineNodeIds.isEmpty && block.optimizedNodeIds.isEmpty)

/-- The pair of the two current nodes. -/
def currentPair (map : AlignmentMap) : Position → Option AlignedPair
  | ⟨baselineNodeId :: _, optimizedNodeId :: _⟩ =>
      (nodePairs map).get? (baselineNodeId, optimizedNodeId)
  | _ => none

/-- Is a baseline node in a block or in a pair? -/
def isAlignedBaseline (map : AlignmentMap) (nodeId : String) : Bool :=
  map.blockAlignments.any (·.baselineNodeIds.contains nodeId) ||
    map.nodeAlignments.any (·.baselineNodeId = nodeId)

/-- Is an optimized node in a block or in a pair? -/
def isAlignedOptimized (map : AlignmentMap) (nodeId : String) : Bool :=
  map.blockAlignments.any (·.optimizedNodeIds.contains nodeId) ||
    map.nodeAlignments.any (·.optimizedNodeId = nodeId)

/-- What the loop takes. -/
inductive Advance where
  | block (aligned : AlignedBlock)
  | pair (item : AlignedPair)
  | scan (baselineSegment optimizedSegment : List String)

/-- The choice of the loop at a place. -/
def advance (map : AlignmentMap) (position : Position) : Advance :=
  match map.blockAlignments.find? (fits position) with
  | some block => .block block
  | none =>
      match currentPair map position with
      | some item => .pair item
      | none =>
          .scan (position.baseline.takeWhile fun nodeId => !isAlignedBaseline map nodeId)
            (position.optimized.takeWhile fun nodeId => !isAlignedOptimized map nodeId)

/-- The nodes that are taken. -/
def Advance.taken : Advance → Position
  | .block aligned => ⟨aligned.baselineNodeIds, aligned.optimizedNodeIds⟩
  | .pair item => ⟨[item.baselineNodeId], [item.optimizedNodeId]⟩
  | .scan baselineSegment optimizedSegment => ⟨baselineSegment, optimizedSegment⟩

/-- The place after some nodes. -/
def Position.after (position taken : Position) : Position where
  baseline := position.baseline.drop taken.baseline.length
  optimized := position.optimized.drop taken.optimized.length

/-! ## The loop -/

section Build

variable (baselineIr optimizedIr : IRProgram) (map : AlignmentMap)
variable (schema : CounterexampleObservationSchema)
variable (lookup : OrderedDict (List String) RegionPayload)

/-- The graph node of a choice. -/
def nodeOf (splitOpen : Bool) (index : ℕ) : Advance → Except PyErr USEGNode
  | .block block =>
      alignedNode baselineIr optimizedIr schema block.baselineNodeIds block.optimizedNodeIds
        block.confidence splitOpen (regionOf lookup block.baselineNodeIds block.optimizedNodeIds)
        index
  | .pair item => do
      let compatible ← pairCompatible baselineIr optimizedIr item
      alignedNode baselineIr optimizedIr schema [item.baselineNodeId] [item.optimizedNodeId]
        (if compatible then item.confidence else min item.confidence 0.54) splitOpen
        (regionOf lookup [item.baselineNodeId] [item.optimizedNodeId]) index
  | .scan baselineSegment optimizedSegment =>
      splitNode baselineIr optimizedIr schema baselineSegment optimizedSegment
        (regionOf lookup baselineSegment optimizedSegment) index

/-- The loop; `none` when it has not ended. -/
def buildFrom : ℕ → Position → Bool → List USEGNode → Except PyErr (Option (List USEGNode))
  | _, ⟨[], []⟩, _, nodes => .ok (some nodes)
  | 0, _, _, _ => .ok none
  | fuel + 1, position, splitOpen, nodes => do
      let taken := advance map position
      let node ← nodeOf baselineIr optimizedIr schema lookup splitOpen nodes.length taken
      buildFrom fuel (position.after taken.taken) (node.kind = "SPLIT") (nodes ++ [node])

end Build

/-- `build_useg`; `none` when the loop has not ended after so many steps. -/
def buildUseg (baselineIr optimizedIr : IRProgram) (map : AlignmentMap)
    (schema : CounterexampleObservationSchema) (suspiciousRegions : List RegionPayload)
    (fuel : ℕ) : Except PyErr (Option USEG) := do
  let regions := if suspiciousRegions.isEmpty then map.suspiciousRegions.map regionPayload
    else suspiciousRegions
  let nodes ← buildFrom baselineIr optimizedIr map schema (regionLookup regions) fuel
    ⟨baselineIr.order, optimizedIr.order⟩ false []
  return nodes.map fun nodes => { nodes := nodes }

end FloWeaver.Counterexample
