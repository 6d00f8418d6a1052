import FloWeaver.Mssu.Build

/-!
# Merging MSSUs

MSSUs of one action, lane, type and effect family become one.  Then the owners of the nodes and
the candidates are computed again, and MSSUs of the tear-down are dropped or changed.

* `mergeKey`, `mergeBucket` — which MSSUs are merged, and what comes of them.
* `mergedCandidates` — the candidates after the merge.
* `normalizeTeardown`, `propagateSharedCleanupResourceTags` — what is changed after the merge.
* `build` — the MSSUs, their edges and the candidates.
-/

namespace FloWeaver.Mssu

open Py

/-! ## Keys -/

/-- What MSSUs that are merged have in common. -/
inductive MergeKey where
  /-- For the effects that are merged in every phase. -/
  | byFamily (action lane type family resource : String)
  /-- For other effects, at run time only. -/
  | byScope (action type phase lane resource : String) (guards : List String) (family : String)
      (files : List String)
deriving DecidableEq, Repr

def mergeableEffectFamilies : List String := ["ble_op", "cloud_http_call", "state_write"]

/-- The files of the nodes of an MSSU. -/
def mssuFileScope (graph : ReducedGraph) (mssu : BuiltMSSU) : List String :=
  sortedSet ((mssu.nodeIds.filterMap fun nodeId =>
    (graph.nodes.get? nodeId).map GraphNode.filePath).filter (strip · ≠ ""))

def mergeKey (graph : ReducedGraph) (mssu : BuiltMSSU) : Option MergeKey :=
  let family := primaryEffectFamily mssu
  if primaryActionOf mssu = "" then none
  else if mssu.isSharedInfra || mssu.isAggregateSink then none
  else if !(["ACT", "UPDATE"].contains (upper mssu.mssuType)) then none
  else if mergeableEffectFamilies.contains family then
    some (.byFamily (primaryActionOf mssu) (laneOf mssu) (upper (strip mssu.mssuType)) family
      (strip (mssu.resourceInstanceTag.getD "")))
  else if upper mssu.phase ≠ Phase.runtime then none
  else
    some (.byScope (mssu.primaryActionRef.getD "None") mssu.mssuType mssu.phase
      (mssu.laneTag.getD "") (mssu.resourceInstanceTag.getD "")
      (mssu.requiredGuards.insertionSort (· ≤ ·)) family (mssuFileScope graph mssu))

/-! ## Groups -/

def mergedPhase (base : BuiltMSSU) (bucket : List BuiltMSSU) : String :=
  let phases := bucket.map fun mssu => upper (strip mssu.phase)
  ([Phase.runtime, Phase.setup, Phase.teardown].find? (phases.contains ·)).getD
    (upper (strip base.phase))

/-- The MSSU that takes the place of a group; it keeps the name of the first. -/
def mergeBucket (base : BuiltMSSU) (bucket : List BuiltMSSU) : BuiltMSSU :=
  { base with
    phase := mergedPhase base bucket
    nodeIds := sortedSet (bucket.flatMap (·.nodeIds))
    inputs := sortedSet (bucket.flatMap (·.inputs))
    outputs := sortedSet (bucket.flatMap (·.outputs))
    sideEffectSig := sortedSet (bucket.flatMap (·.sideEffectSig))
    exceptions := sortedSet (bucket.flatMap (·.exceptions))
    requiredGuards := sortedSet (bucket.flatMap (·.requiredGuards))
    critical := bucket.any (·.critical)
    secondaryActionRefs := sortedSet (bucket.flatMap (·.secondaryActionRefs))
    actionRefs := sortedSet (bucket.flatMap (·.actionRefs))
    isSharedInfra := bucket.any (·.isSharedInfra)
    isAggregateSink := bucket.any (·.isAggregateSink) }

section Merge

variable (graph : ReducedGraph) (mssus : List BuiltMSSU)

/-- The MSSUs without a key, and the groups of the others in the order of their keys. -/
def mergeGroups : List (List BuiltMSSU) :=
  (mssus.filter fun mssu => (mergeKey graph mssu).isNone).map ([·]) ++
    ((mssus.filterMap (mergeKey graph)).eraseDups.map fun key =>
      mssus.filter fun mssu => mergeKey graph mssu = some key)

/-- The MSSU of a group; a single MSSU stays as it is. -/
def mergeGroup : List BuiltMSSU → List BuiltMSSU
  | [] => []
  | [mssu] => [mssu]
  | base :: rest => [mergeBucket base (base :: rest)]

def mergedMssus : List BuiltMSSU := (mergeGroups graph mssus).flatMap mergeGroup

/-- The name of the MSSU that takes the place of another. -/
def idMap (mssuId : String) : String :=
  (((mergeGroups graph mssus).filter fun group =>
    group.any (·.mssuId = mssuId)).getLast?.bind fun group =>
      group.head?.map (·.mssuId)).getD mssuId

end Merge

/-- The owner of a node after the merge: the last MSSU that contains it. -/
def lastOwner (merged : List BuiltMSSU) (nodeId : String) : Option String :=
  ((merged.filter fun mssu => mssu.nodeIds.contains nodeId).getLast?).map (·.mssuId)

/-- The last MSSU with an id. -/
def lastRowOf (merged : List BuiltMSSU) (mssuId : String) : Option BuiltMSSU :=
  (merged.filter (·.mssuId = mssuId)).getLast?

/-- The edges between the nodes of a merged MSSU. -/
def mergedInternalEdges (graph : ReducedGraph) (merged : List BuiltMSSU)
    (internalEdges : OrderedDict String (List GraphEdge)) (mssu : BuiltMSSU) : List GraphEdge :=
  ((((internalEdges.get? mssu.mssuId).getD []).filter fun edge =>
    mssu.nodeIds.contains edge.src && mssu.nodeIds.contains edge.dst) ++
    graph.edges.filter fun edge =>
      decide (lastOwner merged edge.src = some mssu.mssuId) &&
        decide (lastOwner merged edge.dst = some mssu.mssuId)).eraseDups

/-- The candidates after the merge: those of the edges, and those that there were. -/
def mergedCandidates (graph : ReducedGraph) (mssus : List BuiltMSSU)
    (candidates : List Candidate) : List Candidate :=
  let merged := mergedMssus graph mssus
  edgeCandidates graph (lastOwner merged) (lastRowOf merged) ++
    candidates.filterMap fun row =>
      candidateBetween mayPair (lastRowOf merged) row.2.2 (idMap graph mssus row.1)
        (idMap graph mssus row.2.1)

/-! ## After the merge -/

def dropTeardownUnownedBleOps (mssu : BuiltMSSU) : Bool :=
  decide (upper mssu.phase = Phase.teardown) && (trimmed mssu.actionRefs).isEmpty &&
    mssu.isSharedInfra && (effectsOf mssu).all (["ble_op", "external_call_ble"].contains ·)

/-- A shared connection at tear-down whose action is called `A2`. -/
def dropTeardownConnectMssu (mssu : BuiltMSSU) : Bool :=
  decide (upper mssu.phase = Phase.teardown) && decide (primaryActionOf mssu = "A2") &&
    (effectsOf mssu).contains "ble_connect" && mssu.isSharedInfra

/-- Such a connection loses its action to another MSSU, or is moved to the setup. -/
def normalizeTeardownConnectMssu (mssu : BuiltMSSU) (peers : List BuiltMSSU) : BuiltMSSU :=
  if !dropTeardownConnectMssu mssu then mssu
  else if peers.any fun peer =>
      decide (peer.mssuId ≠ mssu.mssuId) && decide (primaryActionOf peer = "A2") &&
        decide (upper (strip peer.phase) ≠ Phase.teardown) then
    { mssu with
      primaryActionRef := none
      secondaryActionRefs := []
      actionRefs := []
      isSharedInfra := true
      isAggregateSink := false
      laneTag := none
      resourceInstanceTag := none
      critical := false }
  else { mssu with phase := Phase.setup }

/-- The MSSUs one after the other; the earlier ones are seen as they are by then. -/
def normalizeTeardown : List BuiltMSSU → List BuiltMSSU → List BuiltMSSU
  | before, [] => before
  | before, mssu :: rest =>
      normalizeTeardown
        (before ++ [normalizeTeardownConnectMssu mssu (before ++ mssu :: rest)]) rest

/-- The tags of the subscriptions, for the files of some nodes or for all. -/
def subscribeTags (graph : ReducedGraph) (mssus : List BuiltMSSU) (tag : BuiltMSSU → String)
    (files : List String) : List String :=
  let tagged := (mssus.filter fun mssu => primaryEffectFamily mssu = "subscribe").filter
    fun mssu => tag mssu ≠ ""
  let ofFiles := ((tagged.filter fun mssu => mssuFileScope graph mssu = files).map tag).eraseDups
  let all := (tagged.map tag).eraseDups
  if ofFiles.isEmpty ∧ all.length = 1 then all else ofFiles

/-- The only element of a list. -/
def onlyOne (tags : List String) : Option String :=
  match tags with
  | [tag] => some tag
  | _ => none

def resourceOf (mssu : BuiltMSSU) : String := strip (mssu.resourceInstanceTag.getD "")

/-- A clean-up without a resource takes over the tags of the subscription. -/
def propagateTags (graph : ReducedGraph) (mssus : List BuiltMSSU) (mssu : BuiltMSSU) : BuiltMSSU :=
  if primaryEffectFamily mssu ≠ "unsubscribe" ∨ resourceOf mssu ≠ "" then mssu
  else
    let files := mssuFileScope graph mssu
    let resource := onlyOne (subscribeTags graph mssus resourceOf files)
    let lane := if laneOf mssu = "" then onlyOne (subscribeTags graph mssus laneOf files) else none
    { mssu with
      resourceInstanceTag := resource.orElse fun _ => mssu.resourceInstanceTag
      laneTag := lane.orElse fun _ => mssu.laneTag }

def propagateSharedCleanupResourceTags (graph : ReducedGraph) (mssus : List BuiltMSSU) :
    List BuiltMSSU :=
  mssus.map (propagateTags graph mssus)

/-! ## The result -/

/-- The MSSUs, the edges inside them, and the candidates. -/
structure MSSUBuildResult where
  mssus : List BuiltMSSU
  mssuInternalEdges : List (String × List GraphEdge)
  dependencyCandidates : List Candidate

def sortedCandidates (candidates : List Candidate) : List Candidate :=
  sortedBy (fun row : Candidate => (toLex (row.1, toLex (row.2.1, row.2.2)) :
    String ×ₗ String ×ₗ String)) candidates.eraseDups

/-- The MSSUs that are kept after the merge. -/
def keptMssus (graph : ReducedGraph) (mssus : List BuiltMSSU) : List BuiltMSSU :=
  (mergedMssus graph mssus).filter fun mssu => !dropTeardownUnownedBleOps mssu

def compactMssus (graph : ReducedGraph) (s : BuildState) (candidates : List Candidate) :
    MSSUBuildResult :=
  let merged := mergedMssus graph s.mssus
  let kept := keptMssus graph s.mssus
  let keptIds := kept.map (·.mssuId)
  let filtered := propagateSharedCleanupResourceTags graph (normalizeTeardown [] kept)
  let internal := (OrderedDict.ofList (merged.map fun mssu =>
    (mssu.mssuId, mergedInternalEdges graph merged s.internalEdges mssu))).rows
  let deps := mergedCandidates graph s.mssus candidates
  { mssus := sortedBy (·.mssuId) filtered
    mssuInternalEdges :=
      if filtered.length ≠ merged.length then internal.filter fun row => keptIds.contains row.1
      else internal
    dependencyCandidates := sortedCandidates
      (if filtered.length ≠ merged.length then
        deps.filter fun row => keptIds.contains row.1 && keptIds.contains row.2.1
      else deps) }

/-- `MSSUBuilder.build`, without the summary. -/
def build (input : BuildInput) : Except PyErr MSSUBuildResult := do
  let s ← input.buildMssus
  return compactMssus input.graph s (dependencyCandidates input.graph s)

end FloWeaver.Mssu
