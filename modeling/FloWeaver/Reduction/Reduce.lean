import FloWeaver.Reduction.Anchors
import FloWeaver.Reduction.Attach
import FloWeaver.Reduction.FullGraph
import FloWeaver.Reduction.SpatialFacts

/-!
# What the reducer keeps

The reducer keeps the statements between the markers of a function, those that the markers depend
on, those that name an anchor of the target, and those of the lifecycle of the component.

* `temporalKeep`, `spatialKeep`, `lifecycleKeep` — what is kept for the markers.
* `keptNodeIds` — all that is kept.
* `exists_keptNodeIds` — what is found by its anchors is kept.
* `anchorsKept_iff` — every statement that names an anchor is kept, whatever the markers are,
  exactly where no anchor is lost to the hyphens.
* `characteristic_not_kept` — a statement that names a characteristic.
-/

namespace FloWeaver.Reduction

open Py
open Mssu (GraphEdge)

/-- The settings of the reducer. -/
structure Reducer where
  spatialDepth : ℤ := 2
  cfgBackDepth : ℤ := 1
  temporalSlackLines : ℤ := 1
  lifecycleSpatialDepth : Option ℤ := none
  lifecycleTemplates : List Dict := []

/-! ## Markers -/

def sharedInfraMarkerTypes : List String :=
  ["ENTRY_SETUP", "ENTRY_UNLOAD", "ENTRY_REMOVE", "SUBSCRIBE", "UNSUBSCRIBE", "COORD_REFRESH",
    "COORD_FIRST_REFRESH"]

/-- `str(marker.marker_type).strip().upper()`. -/
def markerType (marker : Marker) : String := upper (strip marker.markerType)

def markerExpansionAllowed (marker : Marker) : Bool :=
  !sharedInfraMarkerTypes.contains (markerType marker)

/-- The texts that are not blank, trimmed. -/
def trimmed (texts : List String) : List String := (texts.map strip).filter (· ≠ "")

def markerActionRefs (marker : Marker) : List String :=
  trimmed (marker.primaryActionId.getD "" :: marker.secondaryActionIds)

def markerSupportsGeneralizedSecondaryBinding (marker : Marker) : Bool :=
  let evidence := trimmed marker.evidence
  evidence.contains "action_match:generalized_profile_secondary_binding" ||
    (evidence.any (startsWith · "grounding_profile_rule:") &&
      !(trimmed marker.secondaryActionIds).isEmpty)

def closureDepthForMarker (marker : Marker) (defaultDepth : ℤ) : ℤ :=
  if (markerActionRefs marker).isEmpty then 0
  else if ["CLOUD_HTTP_CALL", "CLOUD_OP", "STATE_WRITE"].contains (markerType marker) then 1
  else if ["BLE_CONNECT", "BLE_GATT_OP", "BLE_DISCONNECT", "BLE_OP"].contains
      (markerType marker) then min (max 1 defaultDepth) 1
  else if ["ENTRY_SETUP", "ENTRY_UNLOAD", "ENTRY_REMOVE", "SUBSCRIBE", "UNSUBSCRIBE"].contains
      (markerType marker) then 1
  else max 1 defaultDepth

def allowedEdgeTypesForMarker (marker : Marker) : List String :=
  if ["CLOUD_HTTP_CALL", "CLOUD_OP", "BLE_OP", "BLE_GATT_OP", "STATE_WRITE", "BLE_CONNECT",
      "BLE_DISCONNECT", "SUBSCRIBE", "UNSUBSCRIBE"].contains (markerType marker) then
    ["DATA_DEP", "EXCEPTION_DEP"]
  else ["DATA_DEP", "CONTROL_DEP", "LIFECYCLE_DEP", "EXCEPTION_DEP"]

def cfgChainLimitForMarker (marker : Marker) : ℤ :=
  if ["BLE_OP", "BLE_GATT_OP", "BLE_CONNECT", "BLE_DISCONNECT", "CLOUD_HTTP_CALL", "CLOUD_OP",
      "STATE_WRITE", "SUBSCRIBE", "UNSUBSCRIBE"].contains (markerType marker) then 1
  else 2

/-! ## Between the markers -/

/-- An ordinal and those above it. -/
def ordinalsUp : ℕ → String → List String
  | 0, _ => []
  | steps + 1, cur =>
      if cur = "" then []
      else cur :: if contains cur "." then ordinalsUp steps (beforeLastDot cur) else []

/-- With a statement of a `try`, all of it is kept. -/
def expandTryRelatedNodes (keep : List String) (fnNodes : List GraphNode) : List String :=
  if keep.isEmpty || fnNodes.isEmpty then keep
  else
    let ordinal (node : GraphNode) : String := nodeOrdinal node.nodeId
    let ordinalMap : OrderedDict String GraphNode :=
      .ofList (fnNodes.map fun node => (ordinal node, node))
    let keptOrdinals := (fnNodes.filter fun node => keep.contains node.nodeId).map ordinal
    let tryRoots := (keptOrdinals.flatMap fun cur => ordinalsUp cur.toList.length cur).filter
      fun cur => (ordinalMap.get? cur).any (·.stmtKind = "Try")
    keep ++ (fnNodes.filter fun node => tryRoots.any fun root =>
      ordinal node = root || isBelow (ordinal node) root).map GraphNode.nodeId

/-- The statements from a marker to the next one. -/
def nodesBetween (reducer : Reducer) (fnNodes : List GraphNode) (left right : Marker) :
    List GraphNode :=
  let last := right.lineStart + reducer.temporalSlackLines
  let starts := fnNodes.map (·.lineStart)
  let scanLo := walkBack fnNodes (fun node => decide (left.lineStart ≤ node.lineEnd))
    (bisectLeft starts left.lineStart)
  ((fnNodes.take (bisectRight starts last)).drop scanLo).filter fun node =>
    left.lineStart ≤ node.lineStart ∧ node.lineStart ≤ last

def temporalKeepFunction (reducer : Reducer)
    (fnIndex : OrderedDict (String × String) (List GraphNode))
    (markerToNodes : OrderedDict String (List String)) (keep : List String)
    (row : (String × String) × List Marker) : List String :=
  let fnNodes := (fnIndex.get? row.1).getD []
  if fnNodes.isEmpty then keep
  else
    let fnMarkers := sortedBy (fun marker => marker.lineStart) row.2
    let attached := fnMarkers.flatMap fun marker => (markerToNodes.get? marker.markerId).getD []
    let between := (fnMarkers.zip fnMarkers.tail).flatMap fun pair =>
      (nodesBetween reducer fnNodes pair.1 pair.2).map GraphNode.nodeId
    expandTryRelatedNodes (keep ++ attached ++ between) fnNodes

def temporalKeep (reducer : Reducer) (fnIndex : OrderedDict (String × String) (List GraphNode))
    (markers : List Marker) (markerToNodes : OrderedDict String (List String)) : List String :=
  (OrderedDict.grouped Marker.function markers).rows.foldl
    (temporalKeepFunction reducer fnIndex markerToNodes) []

/-! ## What the markers depend on -/

/-- A marker with its statements and the depth of its search. -/
structure SpatialSeed where
  marker : Marker
  nodeIds : List String
  depth : ℤ

def spatialSeeds (reducer : Reducer) (markers : List Marker)
    (markerToNodes : OrderedDict String (List String)) (respectBindingPolicy : Bool) :
    List SpatialSeed :=
  let markerById : OrderedDict String Marker :=
    .ofList (markers.map fun marker => (marker.markerId, marker))
  let seeds := markerToNodes.rows.filterMap fun row => (markerById.get? row.1).map fun marker =>
    { marker, nodeIds := row.2
      depth := if respectBindingPolicy then closureDepthForMarker marker reducer.spatialDepth
        else reducer.spatialDepth : SpatialSeed }
  seeds.filter fun seed => !seed.nodeIds.isEmpty &&
    (!respectBindingPolicy || markerExpansionAllowed seed.marker) && 0 < seed.depth

def spatialKeep (reducer : Reducer) (visits : Visits) (graph : ReducedGraph)
    (markers : List Marker) (markerToNodes : OrderedDict String (List String))
    (respectBindingPolicy : Bool) : List String :=
  let seeds := spatialSeeds reducer markers markerToNodes respectBindingPolicy
  let table {α : Type} (f : SpatialSeed → α) (seeds : List SpatialSeed) : OrderedDict String α :=
    .ofList (seeds.map fun seed => (seed.marker.markerId, f seed))
  let keep (seeds' : List SpatialSeed) (cfgBackDepth : ℤ) : List String :=
    spatialKeepWithPolicy graph visits (table SpatialSeed.nodeIds seeds')
      (table (fun seed => allowedEdgeTypesForMarker seed.marker) seeds)
      (table SpatialSeed.depth seeds) (table (fun seed => cfgChainLimitForMarker seed.marker) seeds)
      cfgBackDepth
  let strong (seed : SpatialSeed) : Bool := upper (strip seed.marker.strength) = "STRONG"
  keep (seeds.filter strong) reducer.cfgBackDepth ++ keep (seeds.filter fun s => !strong s) 0

/-! ## Seeds -/

/-- The operations that the target is anchored at. -/
def targetAnchorOps (target : OptimizationTarget) : Except PyErr (List String) := do
  let ops ← (target.targetAnchors.getD "anchor_ops" (.list [])).needItems
  (ops.filter fun op => strip op.pyStr ≠ "").mapM fun op => match op with
    | .str s => return upper s
    | _ => throw .attributeError

def abstractHints : List String := ["BLE_OP", "CLOUD_OP"]

def hasExplicitAnchorSignal (marker : Marker) : Bool :=
  let evidence := trimmed marker.evidence
  evidence.contains "target_anchor_seed" || evidence.contains "target_anchor_op"

/-- Does a marker of a more special type stand for the same actions in the same file? -/
def hasSpecificPeer (markers : List Marker) (specificAnchorOps : List String) (marker : Marker) :
    Bool :=
  let candidates := if markerType marker = "CLOUD_OP" then
      ["CLOUD_HTTP_CALL", "CLOUD_STATUS_CALL", "CLOUD_429_CHECK", "CLOUD_BACKOFF_SLEEP",
        "CLOUD_TOKEN_REFRESH"]
    else if markerType marker = "BLE_OP" then ["BLE_GATT_OP", "BLE_CONNECT", "BLE_DISCONNECT"]
    else []
  let specificTypes := candidates.filter (specificAnchorOps.contains ·)
  let refs := markerActionRefs marker
  markers.any fun peer =>
    peer.markerId ≠ marker.markerId && specificTypes.contains (markerType peer) &&
      strip peer.filePath = strip marker.filePath &&
      refs.any ((markerActionRefs peer).contains ·) &&
      !(markerSupportsGeneralizedSecondaryBinding marker &&
        !refs.all ((markerActionRefs peer).contains ·))

def isTargetSeed (markers : List Marker) (anchorOps : List String) (marker : Marker) : Bool :=
  let specificAnchorOps := anchorOps.filter (!abstractHints.contains ·)
  hasExplicitAnchorSignal marker || specificAnchorOps.contains (markerType marker) ||
    (abstractHints.contains (markerType marker) && anchorOps.contains (markerType marker) &&
      !(markerActionRefs marker).isEmpty && !hasSpecificPeer markers specificAnchorOps marker)

def targetSeedMarkers (markers : List Marker) :
    Option OptimizationTarget → Except PyErr (List Marker)
  | none => return markers
  | some target => do
      let anchorOps ← targetAnchorOps target
      let selected := markers.filter (isTargetSeed markers anchorOps)
      return if selected.isEmpty then markers else selected

/-! ## The lifecycle -/

def templateMarkerTypes (template : Dict) : List String :=
  ["requires", "requires_order"].flatMap fun field => match template.get field with
    | .list items => (trimmed (items.map Val.pyStr)).map upper
    | _ => []

def semanticTokens : List String :=
  ["unsubscribe", "unload", "remove", "teardown", "cleanup", "first_refresh",
    "refresh_before_state_write"]

def isSemanticRequiredTemplate (template : Dict) : Bool :=
  let types := templateMarkerTypes template
  let templateId := lower (strip (template.getD "template_id" (.str "")).pyStr)
  (template.get "semantic_required").truthy || (!types.isEmpty &&
    (types.contains "ENTRY_UNLOAD" || types.contains "ENTRY_REMOVE" ||
      types.contains "UNSUBSCRIBE" ||
      (types.contains "COORD_REFRESH" && types.contains "STATE_WRITE") ||
      semanticTokens.any (contains templateId ·)))

def lifecycleRequiredMarkers (markers : List Marker) (templates : List Dict) : List Marker :=
  let requiredTypes := (templates.filter isSemanticRequiredTemplate).flatMap templateMarkerTypes
  markers.filter fun marker => requiredTypes.contains (upper marker.markerType)

/-- The first statement of a marker; the columns are kept beside the graph. -/
def primaryMarkerNode (graph : ReducedGraph) (columns : String → ℤ × ℤ)
    (markerToNodes : OrderedDict String (List String)) (marker : Marker) : Option String :=
  let nodes := ((markerToNodes.get? marker.markerId).getD []).filterMap fun nodeId =>
    (graph.nodes.get? nodeId).map fun node => (nodeId, node)
  (firstMinBy (fun row : String × GraphNode =>
    toLex (row.2.lineStart, toLex ((columns row.1).1, toLex (row.2.lineEnd,
      toLex ((columns row.1).2, toLex (nodeOrdinal row.1, row.1)))))) nodes).map (·.1)

def lifecycleSpatialDepthForMarker (reducer : Reducer) (marker : Marker) : ℤ :=
  reducer.lifecycleSpatialDepth.getD
    (if ["UNSUBSCRIBE", "ENTRY_UNLOAD", "LOCK_RELEASE", "ENTRY_REMOVE", "DISCONNECT",
      "BLE_DISCONNECT"].contains (markerType marker) then 2 else 1)

/-- The statements of the lifecycle markers, and those they depend on depth by depth. -/
def lifecycleKeep (reducer : Reducer) (visits : Visits) (graph : ReducedGraph)
    (columns : String → ℤ × ℤ) (markers : List Marker)
    (markerToNodes : OrderedDict String (List String)) : List String :=
  let primaries := (lifecycleRequiredMarkers markers reducer.lifecycleTemplates).filterMap
    fun marker => (primaryMarkerNode graph columns markerToNodes marker).map fun id => (marker, id)
  let expanded := primaries.filter fun row => markerExpansionAllowed row.1
  let byDepth := OrderedDict.grouped
    (fun row : Marker × String => lifecycleSpatialDepthForMarker reducer row.1) expanded
  let spatial := ((sortedBy id byDepth.keys).filter (0 < ·)).flatMap fun depth =>
    let rows := (byDepth.get? depth).getD []
    let table {α : Type} (f : String → α) : OrderedDict String α :=
      .ofList (rows.map fun row => (row.1.markerId, f row.2))
    spatialKeepWithPolicy graph visits (table fun id => [id])
      (table fun _ => ["DATA_DEP", "EXCEPTION_DEP"]) (table fun _ => depth) (table fun _ => 0) 0
  primaries.map (·.2) ++ spatial

/-! ## The reducer -/

/-- The statements that `reduce` keeps; the notes of the markers in the statements are not read. -/
def keptNodeIds (reducer : Reducer) (visits : Visits) (graph : ReducedGraph)
    (columns : String → ℤ × ℤ) (markers : List Marker) (target : Option OptimizationTarget) :
    Except PyErr (List String) := do
  let markerToNodes := (attachMarkerRefs graph markers).1
  let expandable := (← targetSeedMarkers markers target).filter markerExpansionAllowed
  let seeds : OrderedDict String (List String) := .ofList (expandable.map fun marker =>
    (marker.markerId, (markerToNodes.get? marker.markerId).getD []))
  let anchors ← anchorKeepNodes graph target
  return temporalKeep reducer (indexFnNodes graph) expandable markerToNodes ++
    spatialKeep reducer visits graph expandable seeds target.isSome ++ anchors ++
    lifecycleKeep reducer visits graph columns markers markerToNodes

/-! ## Anchors are kept -/

section Anchors

variable {graph : ReducedGraph} {target : Option OptimizationTarget} {terms : AnchorTerms}

/-- A target whose anchors are lists, and whose operations are texts. -/
structure ReadableTarget (target : Option OptimizationTarget) (terms : AnchorTerms) : Prop where
  anchors : anchorTerms target = .ok terms
  anchorOps : ∀ given, target = some given → ∃ ops, targetAnchorOps given = .ok ops

theorem ReadableTarget.exists_seeds (h : ReadableTarget target terms) (markers : List Marker) :
    ∃ seeds, targetSeedMarkers markers target = .ok seeds ∧ seeds ⊆ markers := by
  cases target with
  | none => exact ⟨markers, rfl, List.Subset.refl _⟩
  | some given =>
    obtain ⟨ops, hops⟩ := h.anchorOps given rfl
    refine ⟨_, bind_eq_ok.2 ⟨ops, hops, rfl⟩, ?_⟩
    split_ifs
    · exact List.Subset.refl _
    · exact List.filter_subset_self _

/-- The reducer keeps what its anchors find; without markers it keeps nothing else. -/
theorem exists_keptNodeIds (h : ReadableTarget target terms) (reducer : Reducer) (visits : Visits)
    (columns : String → ℤ × ℤ) (markers : List Marker) :
    ∃ kept, keptNodeIds reducer visits graph columns markers target = .ok kept ∧
      (∀ node ∈ graph.nodes.values, terms.found (nodeText node) = true → node.nodeId ∈ kept) ∧
      (markers = [] → ∀ node ∈ graph.nodes.values, node.nodeId ∈ kept →
        terms.found (nodeText node) = true) := by
  obtain ⟨seeds, hseeds, hsub⟩ := h.exists_seeds markers
  obtain ⟨anchors, hanchors, hfound⟩ := @anchorKeepNodes_eq_ok _ graph _ h.anchors
  refine ⟨_, bind_eq_ok.2 ⟨seeds, hseeds, bind_eq_ok.2 ⟨anchors, hanchors, rfl⟩⟩, ?_, ?_⟩
  · intro node hnode hmatch
    exact List.mem_append_left _ (List.mem_append_right _ ((hfound node hnode).2 hmatch))
  · rintro rfl node hnode hkept
    obtain rfl := List.subset_nil.1 hsub
    have htemporal : ∀ index m, temporalKeep reducer index [] m = [] := fun _ _ => rfl
    have hspatial : ∀ respect, spatialKeep reducer visits graph [] (.ofList []) respect = [] :=
      fun _ => rfl
    have hlifecycle : ∀ m, lifecycleKeep reducer visits graph columns [] m = [] := fun _ => rfl
    rw [List.filter_nil, List.map_nil, htemporal, hspatial, hlifecycle, List.nil_append,
      List.nil_append, List.append_nil] at hkept
    exact (hfound node hnode).1 hkept

/-- **Every statement that names an anchor is kept**, whatever the markers are, exactly where no
anchor is lost to the hyphens. -/
theorem anchorsKept_iff (h : ReadableTarget target terms) :
    (∀ (reducer : Reducer) (visits : Visits) (columns : String → ℤ × ℤ) (markers : List Marker),
      ∃ kept, keptNodeIds reducer visits graph columns markers target = .ok kept ∧
        ∀ node ∈ graph.nodes.values, NamesAnchor terms node.rawRepr → node.nodeId ∈ kept) ↔
      AnchorsFound terms graph := by
  rw [anchorsFound_iff]
  constructor
  · intro hall node hnode hnamed
    obtain ⟨kept, hkept, hanchored⟩ := hall {} listedVisits (fun _ => (0, 0)) []
    obtain ⟨kept', hkept', -, hnothing⟩ :=
      @exists_keptNodeIds graph _ _ h {} listedVisits (fun _ => (0, 0)) []
    obtain rfl := Except.ok.inj (hkept.symm.trans hkept')
    exact hnothing rfl node hnode (hanchored node hnode hnamed)
  · intro hfound reducer visits columns markers
    obtain ⟨kept, hkept, hmatch, -⟩ := exists_keptNodeIds h reducer visits columns markers
    exact ⟨kept, hkept, fun node hnode hnamed => hmatch node hnode (hfound node hnode hnamed)⟩

end Anchors

/-! ## A characteristic -/

/-- A statement that reads a characteristic. -/
def readNode : GraphNode where
  nodeId := "0a1b2c3d:update:0:2"
  functionName := "update"
  lineStart := 2
  lineEnd := 2
  stmtKind := "Expr"
  rawRepr := "Expr(Constant('00002a37-0000-1000-8000-00805f9b34fb'))"

def readGraph : ReducedGraph where
  nodes := .ofList [(readNode.nodeId, readNode)]
  keyed row hrow := by
    have hrow : row = (readNode.nodeId, readNode) := List.mem_singleton.1 hrow
    rw [hrow]

/-- A target with that characteristic. -/
def readTarget : OptimizationTarget where
  targetAnchors := [("characteristics", .list [.str "00002A37-0000-1000-8000-00805F9B34FB"])]

def readTerms : AnchorTerms where
  uuids := ["00002a37-0000-1000-8000-00805f9b34fb"]

theorem readableTarget_readTarget : ReadableTarget (some readTarget) readTerms where
  anchors := by
    have hshown : (anchorTerms (some readTarget)).toOption.map id = some readTerms := by
      decide +kernel
    obtain ⟨terms, hterms, rfl⟩ := exists_ok_of_shows hshown
    exact hterms
  anchorOps given hgiven := by
    obtain rfl := Option.some.inj hgiven
    exact ⟨[], rfl⟩

theorem anchorsKept_iff_readTarget : ReadableTarget (some readTarget) readTerms ∧
    ((∀ (reducer : Reducer) (visits : Visits) (columns : String → ℤ × ℤ) (markers : List Marker),
      ∃ kept, keptNodeIds reducer visits readGraph columns markers (some readTarget) = .ok kept ∧
        ∀ node ∈ readGraph.nodes.values, NamesAnchor readTerms node.rawRepr →
          node.nodeId ∈ kept) ↔ AnchorsFound readTerms readGraph) :=
  ⟨readableTarget_readTarget, anchorsKept_iff readableTarget_readTarget⟩

/-- The statement reads the characteristic and is not kept. -/
theorem characteristic_not_kept : ReadableTarget (some readTarget) readTerms ∧
    NamesAnchor readTerms readNode.rawRepr ∧ readNode ∈ readGraph.nodes.values ∧
    ∀ visits columns, ∃ kept,
      keptNodeIds {} visits readGraph columns [] (some readTarget) = .ok kept ∧
        readNode.nodeId ∉ kept := by
  have hnode : readNode ∈ readGraph.nodes.values := List.mem_singleton_self readNode
  have hnamed : readTerms.namesUuid readNode.rawRepr = true := by decide +kernel
  have hlost : readTerms.found (nodeText readNode) = false := by
    rw [AnchorTerms.found, namesUuid_nodeText]
    simp [AnchorTerms.namesEntity, AnchorTerms.namesEndpoint, AnchorTerms.namesMac,
      AnchorTerms.namesPrefix, readTerms]
  refine ⟨readableTarget_readTarget, .inr (.inr (.inl hnamed)), hnode, fun visits columns => ?_⟩
  obtain ⟨kept, hkept, -, hnothing⟩ :=
    exists_keptNodeIds readableTarget_readTarget {} visits columns []
  refine ⟨kept, hkept, fun hmem => ?_⟩
  exact Bool.false_ne_true (hlost.symm.trans (hnothing rfl readNode hnode hmem))

end FloWeaver.Reduction
