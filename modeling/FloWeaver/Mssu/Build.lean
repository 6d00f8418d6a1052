import FloWeaver.Mssu.Binding

/-!
# Building MSSUs

Every strong or medium marker becomes an MSSU.  A node belongs to the first MSSU that takes it;
an edge between the nodes of two MSSUs makes the second a candidate to depend on the first.

* `seedNodes` — the markers with their nodes, in the order in which they are built.
* `buildStep`, `buildMssus` — the MSSU of one marker, and the MSSUs of all.
* `mayDepend` — may an edge make one MSSU depend on another?
* `dependencyCandidates` — the candidates before MSSUs are merged.
-/

namespace FloWeaver.Mssu

open Py

/-! ## Seeds -/

/-- A marker and the nodes that it starts from. -/
abbrev Seed := Marker × List String

def seedNodes (markers : List Marker) (markerToNodes : OrderedDict String (List String)) :
    List Seed :=
  let seeds := (markers.filter fun marker => ["STRONG", "MEDIUM"].contains marker.strength).map
    fun marker => (marker, ((markerToNodes.get? marker.markerId).getD []).eraseDups)
  sortedBy (fun seed : Seed =>
      (toLex ((if isTargetAnchor seed.1 then 0 else 1),
        toLex ((if seed.1.strength = "STRONG" then 0 else 1),
          toLex (seed.1.lineStart, seed.1.markerType))) : ℕ ×ₗ ℕ ×ₗ ℤ ×ₗ String))
    (seeds.filter fun seed => !seed.2.isEmpty)

def markersById (markers : List Marker) : OrderedDict String Marker :=
  .ofList (markers.map fun marker => (marker.markerId, marker))

/-! ## Types, phases and names -/

/-- The types that markers of a kind stand for. -/
def markerToMssuType : List (String × String) :=
  [("ENTRY_SETUP", "INIT"), ("ENTRY_UNLOAD", "CLEANUP"), ("ENTRY_REMOVE", "CLEANUP"),
    ("COORD_REFRESH", "SYNC"), ("COORD_FIRST_REFRESH", "SYNC"), ("STATE_WRITE", "UPDATE"),
    ("SUBSCRIBE", "PREPARE"), ("UNSUBSCRIBE", "CLEANUP"), ("BLE_OP", "ACT"), ("CLOUD_OP", "ACT"),
    ("BLE_CONNECT", "PREPARE"), ("BLE_DISCONNECT", "CLEANUP"), ("BLE_GATT_OP", "ACT"),
    ("BLE_SCAN", "PREPARE"), ("BLE_RETRY_OR_TIMEOUT", "FALLBACK"),
    ("CLOUD_TOKEN_REFRESH", "PREPARE"), ("CLOUD_HTTP_CALL", "ACT"), ("CLOUD_429_CHECK", "CHECK"),
    ("CLOUD_BACKOFF_SLEEP", "FALLBACK"), ("CLOUD_RETRY_OR_TIMEOUT", "FALLBACK"),
    ("RETRY_OR_TIMEOUT", "FALLBACK")]

def mssuTypeForMarker (markerType : String) : String :=
  (markerToMssuType.lookup (upper (strip markerType))).getD "ACT"

def phaseForMarker (marker : Marker) : String :=
  if [Phase.setup, Phase.runtime, Phase.teardown].contains marker.phase then marker.phase
  else Phase.runtime

def requiredGuardsFor (marker : Marker) : List String :=
  sortedSet ((if startsWith marker.type "BLE_" then ["resource_available"] else []) ++
    (if startsWith marker.type "CLOUD_" then ["rate_limit_budget_ok"] else []) ++
    if marker.type = "STATE_WRITE" then ["state_write_contract_ok"] else [])

/-- `f"{mssu_id_prefix}_{idx:03d}_{marker.marker_type.lower()}"`. -/
def mssuIdText (mssuIdPrefix : String) (idx : ℕ) (marker : Marker) : String :=
  let digits := toString idx
  mssuIdPrefix ++ "_" ++ String.ofList (List.replicate (3 - digits.length) '0') ++ digits ++ "_" ++
    lower marker.markerType

/-! ## One MSSU after the other -/

/-- A candidate: the second MSSU depends on the first by an edge of a kind. -/
abbrev Candidate := String × String × String

/-- What the builder carries from one marker to the next; the assigned nodes are those with an
owner. -/
structure BuildState where
  mssus : List BuiltMSSU := []
  internalEdges : OrderedDict String (List GraphEdge) := .empty
  nodeOwner : OrderedDict String String := .empty
  overlapDeps : List Candidate := []

/-- What stays the same while MSSUs are built. -/
structure BuildInput where
  builder : Builder := {}
  graph : ReducedGraph
  markers : List Marker
  markerToNodes : OrderedDict String (List String)
  target : Option OptimizationTarget := none
  mssuIdPrefix : String := "mssu"

namespace BuildInput

variable (input : BuildInput)

/-- The nodes around a seed that are left by the MSSUs before, or borrowed. -/
def closedNodes (assigned : List String) (seed : Seed) : List String :=
  let (marker, seedNodes) := seed
  let closed := claimNodes (expandClosure input.graph input.builder marker seedNodes) seedNodes
    assigned
  let closed := borrowOverlapContext input.graph marker closed
    (seedNodes.filter (assigned.contains ·)) assigned
  filterActionLocalNodes marker closed seedNodes input.graph (markersById input.markers)
    input.target

/-- The binding of a marker with the nodes of its MSSU. -/
def bindingFor (marker : Marker) (nodeIds : List String) : Except PyErr Binding := do
  let binding ← actionBindingForMarker marker input.target
  return refineBindingFromClosure marker nodeIds input.graph (markersById input.markers)
    input.target binding

/-- The MSSU of a marker. -/
def assembleMssu (mssuId : String) (marker : Marker) (nodeIds : List String) (io : NodeIO)
    (binding : Binding) : BuiltMSSU where
  mssuId := mssuId
  mssuType := mssuTypeForMarker marker.markerType
  phase := phaseForMarker marker
  nodeIds := sortedSet nodeIds
  inputs := io.inputs
  outputs := io.outputs
  sideEffectSig := sortedSet (io.effects ++ [lower marker.markerType])
  exceptions := io.exceptions
  requiredGuards := requiredGuardsFor marker
  critical := binding.critical
  primaryActionRef := binding.primaryActionRef
  secondaryActionRefs := binding.secondaryActionRefs
  actionRefs := binding.actionRefs
  isSharedInfra := binding.isSharedInfra
  isAggregateSink := binding.isAggregateSink
  laneTag := binding.laneTag
  resourceInstanceTag := binding.resourceInstanceTag

/-- The edges between the nodes of an MSSU. -/
def internalEdgesOf (nodeIds : List String) : List GraphEdge :=
  (nodeIds.flatMap fun nodeId =>
    input.graph.edges.filter fun edge =>
      (decide (edge.src = nodeId) || decide (edge.dst = nodeId)) &&
        nodeIds.contains edge.src && nodeIds.contains edge.dst).eraseDups

/-- The candidates for the nodes that an MSSU shares with one before it. -/
def overlapCandidates (nodeOwner : OrderedDict String String) (mssuId : String)
    (overlapSeedNodes : List String) : List Candidate :=
  overlapSeedNodes.flatMap fun nodeId =>
    match nodeOwner.get? nodeId with
    | some owner =>
        if owner ≠ "" ∧ owner ≠ mssuId then
          (overlapDepKinds input.graph nodeId).map fun kind => (owner, mssuId, kind)
        else []
    | none => []

/-- The MSSU of one marker. -/
def buildStep (s : BuildState) (row : Seed × ℕ) : Except PyErr BuildState := do
  let ((marker, seeds), idx) := row
  let assigned := s.nodeOwner.keys
  let overlapSeedNodes := seeds.filter (assigned.contains ·)
  let closed := input.closedNodes assigned (marker, seeds)
  let mssuId := mssuIdText input.mssuIdPrefix idx marker
  let closed ← pruneToCap input.graph input.builder marker closed seeds overlapSeedNodes
  let io ← deriveIO input.graph closed
  let binding ← input.bindingFor marker closed
  return {
    mssus := s.mssus ++ [assembleMssu mssuId marker closed io binding]
    internalEdges := s.internalEdges.set mssuId (input.internalEdgesOf closed)
    nodeOwner := (closed.filter (!assigned.contains ·)).foldl
      (fun owner nodeId => owner.set nodeId mssuId) s.nodeOwner
    overlapDeps := s.overlapDeps ++ input.overlapCandidates s.nodeOwner mssuId overlapSeedNodes }

/-- The MSSUs of all markers. -/
def buildMssus : Except PyErr BuildState :=
  (seedNodes input.markers input.markerToNodes).zipIdx.foldlM input.buildStep {}

end BuildInput

/-! ## Candidates -/

/-- The effects of an MSSU, trimmed and in lower case. -/
def effectsOf (mssu : BuiltMSSU) : List String :=
  (mssu.sideEffectSig.map fun item => lower (strip item)).filter (· ≠ "")

/-- The first of the families that an MSSU has an effect of, or all its effects. -/
def primaryEffectFamily (mssu : BuiltMSSU) : String :=
  (["ble_op", "cloud_http_call", "state_write", "subscribe", "unsubscribe", "ble_connect",
    "ble_disconnect", "entry_setup", "entry_unload"].find? ((effectsOf mssu).contains ·)).getD
      (join "|" (sortedSet (effectsOf mssu)))

/-- `str(mssu.primary_action_ref or "").strip()`. -/
def primaryActionOf (mssu : BuiltMSSU) : String := strip (mssu.primaryActionRef.getD "")

def laneOf (mssu : BuiltMSSU) : String := strip (mssu.laneTag.getD "")

def sameLaneOrWriteback (src dst : BuiltMSSU) : Bool :=
  decide (primaryActionOf src ≠ "" ∧ primaryActionOf src = primaryActionOf dst) ||
    decide (primaryActionOf src = "" ∧ primaryActionOf dst = "" ∧ laneOf src = "" ∧
      laneOf dst = "") ||
    decide (laneOf src ≠ "" ∧ laneOf src = laneOf dst) ||
    (writebackLanes.contains (laneOf src) || writebackLanes.contains (laneOf dst))

/-- The pairs that are never candidates. -/
def forbidCandidatePair (src dst : BuiltMSSU) : Bool :=
  let type (mssu : BuiltMSSU) := upper (strip mssu.mssuType)
  let phase (mssu : BuiltMSSU) := upper (strip mssu.phase)
  decide (type src = "ACT" ∧ type dst = "INIT") ||
    decide (phase src = Phase.runtime ∧ phase dst = Phase.setup) ||
    decide (type src = "ACT" ∧ type dst = "ACT" ∧ primaryEffectFamily src = "cloud_http_call" ∧
      primaryEffectFamily dst = "cloud_op") ||
    ((effectsOf src).contains "entry_setup" && (effectsOf dst).contains "unsubscribe")

/-- A cloud operation without an action and a lane. -/
def skipCandidateSourceOrTarget (mssu : BuiltMSSU) : Bool :=
  decide (primaryActionOf mssu = "" ∧ laneOf mssu = "") &&
    (effectsOf mssu).all (["cloud_op", "external_call_cloud"].contains ·) &&
    ["cloud_op", "external_call_cloud"].all ((effectsOf mssu).contains ·)

/-- May one MSSU depend on another at all? -/
def mayPair (src dst : BuiltMSSU) : Bool :=
  !skipCandidateSourceOrTarget src && !skipCandidateSourceOrTarget dst &&
    !forbidCandidatePair src dst

/-- May an edge make one MSSU depend on another? -/
def mayDepend (src dst : BuiltMSSU) : Bool := mayPair src dst && sameLaneOrWriteback src dst

def interMssuEdgeTypes : List String :=
  ["DATA_DEP", "LIFECYCLE_DEP", "CONTROL_DEP", "EXCEPTION_DEP"]

/-- The candidate of a kind between two MSSUs, given by their names. -/
def candidateBetween (may : BuiltMSSU → BuiltMSSU → Bool) (rowOf : String → Option BuiltMSSU)
    (kind src dst : String) : Option Candidate :=
  if src = "" ∨ dst = "" ∨ src = dst then none
  else
    match rowOf src, rowOf dst with
    | some srcRow, some dstRow => if may srcRow dstRow then some (src, dst, kind) else none
    | _, _ => none

/-- The candidates of the edges, for an owner of every node and a row of every owner. -/
def edgeCandidates (graph : ReducedGraph) (ownerOf : String → Option String)
    (rowOf : String → Option BuiltMSSU) : List Candidate :=
  graph.edges.filterMap fun edge =>
    if !interMssuEdgeTypes.contains edge.edgeType then none
    else
      match ownerOf edge.src, ownerOf edge.dst with
      | some src, some dst => candidateBetween mayDepend rowOf edge.edgeType src dst
      | _, _ => none

/-- The first MSSU with an id. -/
def rowOf (mssus : List BuiltMSSU) (mssuId : String) : Option BuiltMSSU :=
  mssus.find? (·.mssuId = mssuId)

/-- The candidates before MSSUs are merged. -/
def dependencyCandidates (graph : ReducedGraph) (s : BuildState) : List Candidate :=
  edgeCandidates graph s.nodeOwner.get? (rowOf s.mssus) ++ s.overlapDeps

end FloWeaver.Mssu
