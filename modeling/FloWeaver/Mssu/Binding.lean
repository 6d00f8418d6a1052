import FloWeaver.Mssu.Closure
import FloWeaver.Scheduler.Action

/-!
# The actions of an MSSU

A marker names the actions that it belongs to.  The builder binds the MSSU of the marker to
them, looks at the other markers of its nodes, and drops the binding where it would be a guess.

* `effectiveMarkerActionRefs` — the actions that a marker names.
* `filterActionLocalNodes` — the nodes that do not belong to another action.
* `actionBindingForMarker` — the binding of a marker.
* `refineBindingFromClosure` — the binding after a look at the nodes.
-/

namespace FloWeaver.Mssu

open Py
open Scheduler (target execCfg firstOf)

/-! ## Actions -/

/-- `str(action.get("action_id", "")).strip()`. -/
def actionIdOf (action : Dict) : String := strip (action.getD "action_id" (.str "")).pyStr

/-- The actions of a target by trimmed id; the last one of an id counts. -/
def actionIndex (target : Option OptimizationTarget) : OrderedDict String Dict :=
  .ofList ((((target.map OptimizationTarget.vdevActions).getD []).map fun action =>
    (actionIdOf action, action)).filter fun row => row.1 ≠ "")

/-- `str(action.get("protocol", "")).strip().upper()`. -/
def protocolOf (action : Dict) : String := upper (strip (action.getD "protocol" (.str "")).pyStr)

/-- The entity that an action writes to, in lower case. -/
def entityOf (action : Dict) : String :=
  lower (firstOf [(target action).get "entity_id", (target action).get "id"]).pyStr

def laneTagForAction (action : Dict) : Option String :=
  if protocolOf action = "BLE" then some "BLE_LOCAL"
  else if protocolOf action = "CLOUD" then some "CLOUD"
  else if protocolOf action = "HA" then
    if contains (entityOf action) "overall" then some "WRITEBACK_OVERALL"
    else if contains (entityOf action) "ble_lane" then some "WRITEBACK_BLE"
    else if contains (entityOf action) "cloud_lane" then some "WRITEBACK_CLOUD"
    else some "WRITEBACK"
  else none

/-- The first of the fields of the target that is not blank. -/
def resourceInstanceTag (action : Dict) : Option String :=
  (["device_id", "endpoint", "entity_id", "id"].map fun key =>
    strip ((target action).getD key (.str "")).pyStr).find? (· ≠ "")

def isAggregateSinkAction (action : Option Dict) : Bool :=
  action.any fun action =>
    decide (protocolOf action = "HA") && contains (entityOf action) "overall"

def writebackLanes : List String :=
  ["WRITEBACK", "WRITEBACK_BLE", "WRITEBACK_CLOUD", "WRITEBACK_OVERALL"]

/-! ## Kinds of markers -/

/-- The trimmed texts that are not blank. -/
def trimmed (texts : List String) : List String := (texts.map strip).filter (· ≠ "")

def markerSupportsGeneralizedSecondaryBinding (marker : Marker) : Bool :=
  let evidence := trimmed marker.evidence
  evidence.contains "action_match:generalized_profile_secondary_binding" ||
    (evidence.any (startsWith · "grounding_profile_rule:") &&
      !(trimmed marker.secondaryActionIds).isEmpty)

def sharedInfraTypes : List String :=
  ["SUBSCRIBE", "UNSUBSCRIBE", "BLE_CONNECT", "BLE_DISCONNECT", "CLOUD_BATCH_CALL",
    "CLOUD_SESSION_REUSE", "ENTRY_SETUP", "ENTRY_UNLOAD", "ENTRY_REMOVE"]

def markerIsSharedInfra (marker : Marker) : Bool :=
  (!marker.secondaryActionIds.isEmpty && !markerSupportsGeneralizedSecondaryBinding marker) ||
    sharedInfraTypes.contains marker.type ||
    marker.bindingReason.contains "shared_infra_secondary_binding"

def isPolicyOnlySharedMarker (markerType : String) : Bool :=
  ["ENTRY_SETUP", "ENTRY_UNLOAD", "ENTRY_REMOVE", "COORD_REFRESH", "COORD_FIRST_REFRESH"].contains
    (upper (strip markerType))

def isGenericProtocolMarker (markerType : String) : Bool :=
  ["BLE_OP", "CLOUD_OP"].contains (upper (strip markerType))

def markerHasSpecificActionSignal (marker : Marker) : Bool :=
  (trimmed marker.evidence).contains "target_anchor_seed" ||
    (trimmed marker.bindingReason).any (["literal_overlap", "scope_token_match"].contains ·)

/-- Is the marker one of those that the target asks for? -/
def isTargetAnchor (marker : Marker) : Bool :=
  marker.evidence.contains "target_anchor_seed" || marker.evidence.contains "target_anchor_op"

/-! ## The actions that a marker names -/

/-- The primary action, and the other ones sorted. -/
def effectiveMarkerActionRefs (marker : Marker) : Option String × List String :=
  let primary := strip (marker.primaryActionId.getD "")
  let legacyRefs := trimmed marker.relatedActionIds
  let secondary := trimmed marker.secondaryActionIds
  (if primary = "" then legacyRefs.head? else some primary,
    sortedSet (if secondary.isEmpty then legacyRefs.drop 1 else secondary))

/-- May the marker stand for several actions? -/
def namesSecondaryActions (marker : Marker) : Bool :=
  markerIsSharedInfra marker || markerSupportsGeneralizedSecondaryBinding marker

def effectiveMarkerActionRefSet (marker : Marker) : List String :=
  let (primary, secondary) := effectiveMarkerActionRefs marker
  trimmed (primary.toList ++ if namesSecondaryActions marker then secondary else [])

/-- Does another marker of the file name the same action by a more specific operation? -/
def hasMoreSpecificProtocolPeer (marker : Marker) (actionId : String)
    (markersById : OrderedDict String Marker) : Bool :=
  let specificTypes :=
    if marker.type = "CLOUD_OP" then
      ["CLOUD_HTTP_CALL", "CLOUD_429_CHECK", "CLOUD_BACKOFF_SLEEP", "CLOUD_TOKEN_REFRESH"]
    else if marker.type = "BLE_OP" then ["BLE_GATT_OP", "BLE_CONNECT", "BLE_DISCONNECT"]
    else []
  markersById.values.any fun peer =>
    decide (peer.markerId ≠ marker.markerId) &&
      decide (strip peer.filePath = strip marker.filePath) &&
      decide (strip (peer.primaryActionId.getD "") = actionId) &&
      specificTypes.contains peer.type &&
      !(markerSupportsGeneralizedSecondaryBinding marker &&
        !(effectiveMarkerActionRefSet marker).isEmpty &&
        !(effectiveMarkerActionRefSet marker).all ((effectiveMarkerActionRefSet peer).contains ·))

/-! ## Nodes of other actions -/

/-- The words of an action. -/
def actionScopeTokens (action : Dict) : List String :=
  let rawValues := [action.getD "action_id" (.str "")] ++
    (["id", "entity_id", "device_id", "endpoint"].map fun key =>
      (target action).getD key (.str "")) ++
    (["domain", "service"].map fun key => (execCfg action).getD key (.str ""))
  let generic := ["sensor", "light", "switch", "cloud", "status", "device", "entity"]
  (rawValues.flatMap fun raw => splitBy (fun c => c.isAlphanum || c = '_') (lower raw.pyStr)).filter
    fun token => decide (4 ≤ token.length) && !generic.contains token

/-- The words of a statement. -/
def nodeScopeTokens (node : GraphNode) : List String :=
  let rawText := lower (join " " [node.rawRepr, node.functionName, join " " (sortedSet node.defs),
    join " " (sortedSet node.uses)])
  (splitBy (fun c => c.isAlphanum || c = '_') rawText).filter (4 ≤ ·.length)

/-- `str(getattr(marker, "primary_action_id", "")).strip()`; a missing id reads as `None`. -/
def primaryText (marker : Marker) : String := strip (marker.primaryActionId.getD "None")

/-- Does a node belong to an action other than the one of the seed? -/
def conflictsWith (seedAction : String) (markersById : OrderedDict String Marker)
    (node : GraphNode) : Bool :=
  node.markerRefs.any fun markerId =>
    (markersById.get? markerId).any fun neighbor =>
      decide (primaryText neighbor ≠ "") && decide (primaryText neighbor ≠ seedAction) &&
        !markerIsSharedInfra neighbor

/-- Is a node kept with the action of the seed? -/
def isActionLocal (seedAction : String) (actionRow : Dict)
    (markersById : OrderedDict String Marker) (node : GraphNode) : Bool :=
  if node.markerRefs.isEmpty then true
  else if conflictsWith seedAction markersById node then false
  else if ["CLOUD", "HA"].contains (protocolOf actionRow) &&
      !(actionScopeTokens actionRow).isEmpty then
    -- a node without markers was kept above
    if !node.markerRefs.isEmpty then true
    else (nodeScopeTokens node).any ((actionScopeTokens actionRow).contains ·)
  else true

def filterActionLocalNodes (marker : Marker) (nodeIds seedNodes : List String)
    (graph : ReducedGraph) (markersById : OrderedDict String Marker)
    (target : Option OptimizationTarget) : List String :=
  let seedAction := primaryText marker
  if seedAction = "" ∨ markerIsSharedInfra marker then nodeIds
  else
    let actionRow := ((actionIndex target).get? seedAction).getD []
    nodeIds.filter fun nodeId =>
      seedNodes.contains nodeId ||
        ((graph.nodes.get? nodeId).map (isActionLocal seedAction actionRow markersById)).getD true

/-! ## The binding -/

/-- The actions that an MSSU is bound to. -/
structure Binding where
  actionRefs : List String := []
  primaryActionRef : Option String := none
  secondaryActionRefs : List String := []
  critical : Bool := false
  isSharedInfra : Bool := false
  supportsGeneralizedSecondaryBinding : Bool := false
  isAggregateSink : Bool := false
  laneTag : Option String := none
  resourceInstanceTag : Option String := none

def supportsMultiActionBinding (binding : Binding) : Bool :=
  binding.isSharedInfra || binding.supportsGeneralizedSecondaryBinding

def markerMatchesActionHint (markerType : String) (actionHints : List String) : Bool :=
  let marker := upper markerType
  actionHints.contains marker ||
    (startsWith marker "BLE_" && actionHints.contains "BLE_OP") ||
    (startsWith marker "CLOUD_" && actionHints.contains "CLOUD_OP") ||
    (["COORD_REFRESH", "COORD_FIRST_REFRESH"].contains marker &&
      (actionHints.contains "COORD_REFRESH" || actionHints.contains "COORD_FIRST_REFRESH"))

/-- The actions whose hints match a marker. -/
def hintedActions (marker : Marker) (target : OptimizationTarget) : Except PyErr (List String) := do
  let rows ← target.vdevActions.mapM fun action => do
    let hints ← (action.getD "marker_hints" (.list [])).needItems
    let hints := hints.map fun item => upper item.pyStr
    return if actionIdOf action ≠ "" ∧ markerMatchesActionHint marker.markerType hints then
        [actionIdOf action]
      else []
  return sortedSet rows.flatten

/-- The actions of a marker: all, the primary one and the other ones. -/
structure MarkerRefs where
  refs : List String
  primary : Option String
  secondary : List String

/-- The actions that a marker names in the target, or else those whose hints match it. -/
def markerRefs (marker : Marker) (target : OptimizationTarget) : Except PyErr MarkerRefs := do
  let index := actionIndex (some target)
  let (primary, secondary) := effectiveMarkerActionRefs marker
  let refs := sortedSet ((primary.toList ++ if namesSecondaryActions marker then secondary else
    []).filter fun actionId => (index.get? actionId).isSome)
  if refs.isEmpty then
    let hinted ← hintedActions marker target
    return if hinted ≠ [] ∧ (namesSecondaryActions marker ∨ hinted.length = 1) then
        ⟨hinted, hinted.head?, hinted.drop 1⟩
      else if !markerIsSharedInfra marker ∧ 1 < hinted.length then ⟨[], primary, []⟩
      else ⟨hinted, primary, secondary⟩
  else return ⟨refs, primary, secondary⟩

def actionBindingForMarker (marker : Marker) (target : Option OptimizationTarget) :
    Except PyErr Binding :=
  match target with
  | none => .ok {}
  | some target => do
      let index := actionIndex (some target)
      let known (actionId : String) := (index.get? actionId).isSome
      let ⟨refs, primary, secondary⟩ ← markerRefs marker target
      let actionRow := primary.bind index.get?
      return {
        actionRefs := refs
        primaryActionRef := primary.filter known
        secondaryActionRefs := if namesSecondaryActions marker then secondary.filter known else []
        critical := isTargetAnchor marker || refs.any fun actionId =>
          (index.get? actionId).any fun action =>
            (action.getD "critical" (.bool false)).truthy ||
              target.criticalActionIds.contains actionId
        isSharedInfra := markerIsSharedInfra marker
        supportsGeneralizedSecondaryBinding := markerSupportsGeneralizedSecondaryBinding marker
        isAggregateSink := isAggregateSinkAction actionRow
        laneTag := actionRow.bind laneTagForAction
        resourceInstanceTag := actionRow.bind Mssu.resourceInstanceTag }

/-! ## The binding after a look at the nodes -/

/-- What a marker adds to the scores of its actions. -/
def markerScores (marker : Marker) : List (String × ℚ) :=
  let weight : ℚ :=
    if ["ENTRY_SETUP", "ENTRY_UNLOAD", "ENTRY_REMOVE", "SUBSCRIBE", "UNSUBSCRIBE",
        "COORD_REFRESH", "COORD_FIRST_REFRESH"].contains marker.type then 1 / 4
    else 1
  let (primary, secondary) := effectiveMarkerActionRefs marker
  (primary.toList.map fun actionId => (actionId, weight)) ++
    if namesSecondaryActions marker then
      secondary.map fun actionId => (actionId, weight * (4 / 5))
    else []

/-- The scores of the actions that the markers of some nodes name. -/
def actionOwnershipScore (nodeIds : List String) (graph : ReducedGraph)
    (markersById : OrderedDict String Marker) : List (String × ℚ) :=
  let scores := nodeIds.flatMap fun nodeId =>
    (((graph.nodes.get? nodeId).map GraphNode.markerRefs).getD []).flatMap fun markerId =>
      ((markersById.get? markerId).map markerScores).getD []
  (scores.map (·.1)).eraseDups.map fun actionId =>
    (actionId, ((scores.filter (·.1 = actionId)).map (·.2)).sum)

def preserveExplicitProfileBinding (marker : Marker) (binding : Binding) : Bool :=
  decide (strip (binding.primaryActionRef.getD "") ≠ "") &&
    !isPolicyOnlySharedMarker (upper (strip marker.markerType)) &&
    (trimmed marker.evidence).any (startsWith · "grounding_profile_rule:")

/-- Drops the actions of a binding and marks it as shared. -/
def clearActionBinding (refined : Binding) : Binding :=
  { refined with
    primaryActionRef := none
    secondaryActionRefs := []
    actionRefs := []
    laneTag := none
    resourceInstanceTag := none
    isSharedInfra := true }

section Refine

variable (marker : Marker) (index : OrderedDict String Dict) (binding : Binding)

def known (actionId : String) : Bool := (index.get? actionId).isSome

/-- The trimmed primary action, or the empty text. -/
def primaryOf (binding : Binding) : String := strip (binding.primaryActionRef.getD "")

/-- The actions of the binding that are actions of the target. -/
def explicitRefs : List String :=
  (primaryOf binding :: trimmed binding.secondaryActionRefs).filter fun actionId =>
    decide (actionId ≠ "") && known index actionId

/-- A write keeps the writeback action that its marker names. -/
def preservesWriteback : Bool :=
  let row := (index.get? (primaryOf binding)).getD []
  decide (marker.type = "STATE_WRITE") && decide (primaryOf binding ≠ "") &&
    (decide (protocolOf row = "HA") || writebackLanes.contains ((laneTagForAction row).getD ""))

/-- The binding with a primary action and other ones, if it may have any. -/
def bindTo (primary : Option String) (secondary : List String) : Binding :=
  let secondary := if supportsMultiActionBinding binding then secondary else []
  { binding with
    primaryActionRef := primary
    secondaryActionRefs := secondary
    actionRefs := primary.toList ++ secondary }

/-- The binding to the action with the highest score. -/
def bindToOwner (ranked : List (String × ℚ)) : Binding :=
  match ranked with
  | [] => binding
  | (primaryAction, maxScore) :: rest =>
      let ownershipSecondary := (rest.filter fun row =>
        known index row.1 && decide (maxScore - 1 / 4 ≤ row.2)).map (·.1)
      let preferredSecondary := (explicitRefs index binding).filter (· ≠ primaryAction)
      bindTo binding (if known index primaryAction then some primaryAction else none)
        (sortedSet ((preferredSecondary ++ ownershipSecondary).filter fun actionId =>
          decide (actionId ≠ "") && known index actionId && decide (actionId ≠ primaryAction)))

/-- The binding by the profile, by the scores of the nodes, or by the marker. -/
def rebind (ownership : List (String × ℚ)) : Binding :=
  let explicit :=
    if known index (primaryOf binding) then some (primaryOf binding) else none
  if preserveExplicitProfileBinding marker binding then
    bindTo binding explicit
      ((explicitRefs index binding).filter fun actionId => some actionId ≠ explicit)
  else if !ownership.isEmpty && !isPolicyOnlySharedMarker marker.type &&
      !preservesWriteback marker index binding then
    bindToOwner index binding
      (sortedBy (fun row => (toLex (-row.2, row.1) : ℚ ×ₗ String)) ownership)
  else if preservesWriteback marker index binding then
    let secondary :=
      if supportsMultiActionBinding binding then binding.secondaryActionRefs else []
    { binding with
      primaryActionRef := explicit
      secondaryActionRefs := secondary
      actionRefs := (explicit.toList ++ secondary).filter (known index ·) }
  else binding

/-- A generic operation yields to a more specific marker of its action. -/
def yieldToPeer (markersById : OrderedDict String Marker) (refined : Binding) : Binding :=
  if primaryOf refined ≠ "" ∧ isGenericProtocolMarker marker.type ∧
      !markerHasSpecificActionSignal marker ∧
      hasMoreSpecificProtocolPeer marker (primaryOf refined) markersById then
    clearActionBinding refined
  else refined

/-- A write that is not on a writeback lane has no action. -/
def clearForeignWrite (refined : Binding) : Binding :=
  let lane := refined.laneTag.getD ""
  let row := (index.get? (primaryOf refined)).getD []
  if marker.type = "STATE_WRITE" ∧ ((lane ≠ "" ∧ !writebackLanes.contains lane) ∨
      ["BLE", "CLOUD"].contains (protocolOf row)) then
    clearActionBinding refined
  else refined

/-- The tags of the primary action. -/
def tagPrimary (refined : Binding) : Binding :=
  if primaryOf refined = "" then refined
  else
    let row := index.get? (primaryOf refined)
    { refined with
      isAggregateSink := isAggregateSinkAction row
      laneTag := row.bind laneTagForAction
      resourceInstanceTag := row.bind Mssu.resourceInstanceTag }

end Refine

def refineBindingFromClosure (marker : Marker) (nodeIds : List String) (graph : ReducedGraph)
    (markersById : OrderedDict String Marker) (target : Option OptimizationTarget)
    (binding : Binding) : Binding :=
  let index := actionIndex target
  let refined := rebind marker index binding (actionOwnershipScore nodeIds graph markersById)
  let refined :=
    if isPolicyOnlySharedMarker marker.type then clearActionBinding refined else refined
  let refined := yieldToPeer marker markersById refined
  let refined := clearForeignWrite marker index refined
  let refined :=
    if refined.isSharedInfra ∧ refined.primaryActionRef.getD "" = "" then
      clearActionBinding refined
    else refined
  tagPrimary index refined

end FloWeaver.Mssu
