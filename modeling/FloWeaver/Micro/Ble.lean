import FloWeaver.Lib.OrderedDict
import FloWeaver.Lib.Spans
import FloWeaver.Micro.Latency
import FloWeaver.Py.Sort

/-!
# Refining BLE corridors

BLE actions that follow each other share one radio, so their transfers stay one after the other.
Their preparation may overlap: an action may advertise, and perhaps connect, while the one before it
is still at work.  A validator then looks at the events and rejects what is not conservative.

* `phaseDurations` — how the latency of an action is split into phases.
* `advOverlapAdmission`, `connectOverlapAdmission` — why preparation may not overlap.
* `expandConservativeOverlap` — the events of a corridor.
* `validateRefinedCorridor` — what the validator says of them.
-/

namespace FloWeaver.Micro

open Py
open Scheduler (dataTemplate execCfg target)
open Spans (neighbours)

inductive BLEMicroPhase where
  | prepareAdvSide
  | prepareConnectSide
  | bleXfer
  | bleSettle
deriving DecidableEq, Repr

def bleMicroPhases : List BLEMicroPhase :=
  [.prepareAdvSide, .prepareConnectSide, .bleXfer, .bleSettle]

/-- What the policy says about corridors that were selected. -/
structure BLEMicroRefinementPolicy where
  maxLookaheadActions : ℤ := 1
  requireSharedScanner : Bool := true
  assumeSharedScannerAvailable : Bool := true
  requireSourceResolutionForAdvOverlap : Bool := true
  allowUnknownSourceAdvOverlap : Bool := false
  requireConnectableControllerForConnectPrep : Bool := true
  assumeConnectableControllerAvailable : Bool := true
  enforceConnectionSlotGuard : Bool := true
  connectableSlotLimit : ℤ := 1
  currentXferSlotCost : ℤ := 1
  nextConnectPrepareSlotCost : ℤ := 1
  allowAdvPrepareOverlap : Bool := true
  allowConnectPrepareOverlap : Bool := false
  allowSubscribeLikeAdvOverlap : Bool := false
  allowSameDeviceAdvOverlap : Bool := false
  allowSameSessionAdvOverlap : Bool := false
  sourceCapabilityOverrides : OrderedDict String (List String) :=
    .ofList [("switchbot", ["adv_anchor_safe"]), ("xiaomi_ble", ["adv_anchor_safe"]),
      ("esphome", ["subscribe_adv_overlap_safe"])]
  kindCapabilityOverrides : OrderedDict String (List String) :=
    .ofList [("refresh_cover", ["read_like_ble_op"]), ("read_sensor", ["read_like_ble_op"]),
      ("read_status", ["read_like_ble_op"]), ("connect", ["session_chain_ble_op"]),
      ("subscribe", ["session_chain_ble_op"]), ("set_cover_position", ["control_like_ble_op"]),
      ("set_percentage", ["control_like_ble_op"]), ("turn_on", ["control_like_ble_op"]),
      ("turn_off", ["control_like_ble_op"])]
  allowAdvPrepareDuringConnectCapabilities : List String := ["adv_anchor_safe"]
  allowSubscribeLikeAdvOverlapCapabilities : List String := ["subscribe_adv_overlap_safe"]
  allowAdvPrepareDuringConnectForSources : List String := ["switchbot", "xiaomi_ble"]
  allowSubscribeLikeAdvOverlapSources : List String := ["esphome"]
  prepareAdvTimeoutMs : ℤ := 120
  prepareConnectTimeoutMs : ℤ := 180
  prepareMustBeSideEffectFree : Bool := true

structure BLEMicroEvent where
  actionId : String
  phase : BLEMicroPhase
  startMs : ℤ
  endMs : ℤ
deriving DecidableEq, Repr

/-! ## What is read off an action -/

def normalizedDeviceId (action : Dict) : String :=
  firstText [(target action).get "device_id", (target action).get "id",
    (target action).get "endpoint", (dataTemplate action).get "device_id",
    (dataTemplate action).get "endpoint"]

def scannerSource (action : Dict) : String :=
  let token := firstText (["source", "scanner_source", "backend_source"].map (target action).get)
  if token ≠ "" then token
  else if startsWith (normalizedDeviceId action) "ble:" then
    beforeFirst (afterFirst (normalizedDeviceId action) ":") ":"
  else ""

def sessionGroup (action : Dict) : String :=
  let token := firstText
    (["session_group", "connection_group", "device_session_group"].map (target action).get)
  if token ≠ "" then token
  else if ["connect", "subscribe"].contains (actionKind action) then normalizedDeviceId action
  else ""

def actionIsSubscribeLike (action : Dict) : Bool :=
  let service := lower (textOf ((execCfg action).get "service"))
  ["subscribe", "notification", "notify", "listen"].any fun token =>
    contains (actionKind action) token || contains service token

def actionRequiresConnectable (action : Dict) : Bool :=
  decide (actionKind action = "connect") || actionIsSubscribeLike action ||
    decide (actionProtocol action = "BLE")

/-- Is the source of an action one of some sources? -/
def isSafeSource (action : Dict) (sources : List String) : Bool :=
  decide (scannerSource action ≠ "") && (sources.map strip).contains (scannerSource action)

def bleCapabilities (action : Dict) (policy : BLEMicroRefinementPolicy) : List String :=
  let kind := actionKind action
  let overrides := (policy.kindCapabilityOverrides.get? kind).getD [] ++
    (policy.sourceCapabilityOverrides.get? (scannerSource action)).getD []
  (overrides.map strip).filter (· ≠ "") ++
    [if actionIsSubscribeLike action then "session_chain_ble_op"
      else if kind = "connect" then "session_chain_ble_op"
      else if ["refresh_cover", "read_sensor", "read_status"].contains kind then "read_like_ble_op"
      else if ["set_cover_position", "set_percentage", "turn_on", "turn_off"].contains kind then
        "control_like_ble_op"
      else "generic_ble_op"]

def hasBleCapability (action : Dict) (policy : BLEMicroRefinementPolicy) (capability : String) :
    Bool :=
  (bleCapabilities action policy).contains capability

/-! ## Durations -/

/-- The phases of an action, in milliseconds. -/
structure PhaseDurations where
  adv : ℤ
  connect : ℤ
  xfer : ℤ
  settle : ℤ
deriving DecidableEq, Repr

def advMin : ℤ := 30
def connectMin : ℤ := 40
def xferMin : ℤ := 120
def settleMin : ℤ := 30

/-- `int(round(total_ms * share))` of a share in percent. -/
def shareOf (totalMs percent : ℤ) : ℤ := Val.roundHalfEven ((totalMs : ℚ) * ((percent : ℚ) / 100))

/-- What the phases should take: the transfer takes what the others leave. -/
def targetDurations (action : Dict) (policy : BLEMicroRefinementPolicy) : PhaseDurations :=
  let totalMs := estimatedActionLatencyMs action
  let (adv, connect, settle) :=
    if actionIsSubscribeLike action then
      (max advMin (shareOf totalMs 8), max 70 (shareOf totalMs 24),
        max settleMin (shareOf totalMs 12))
    else if actionKind action = "connect" then
      (max advMin (shareOf totalMs 10), max 75 (shareOf totalMs 26),
        max settleMin (shareOf totalMs 10))
    else
      (max advMin (shareOf totalMs 12), max connectMin (shareOf totalMs 18),
        max settleMin (shareOf totalMs 10))
  let adv := min policy.prepareAdvTimeoutMs adv
  let connect := min policy.prepareConnectTimeoutMs connect
  ⟨adv, connect, totalMs - adv - connect - settle, settle⟩

/-- A transfer that is too short takes time from a phase that is longer than it must be. -/
def borrow (minimum ms xfer : ℤ) : ℤ × ℤ :=
  if xferMin ≤ xfer then (ms, xfer)
  else
    let reduction := min (xferMin - xfer) (max 0 (ms - minimum))
    (ms - reduction, xfer + reduction)

/-- Cuts a phase as far as the phases take too long. -/
def cut (minimum ms overflow : ℤ) : ℤ × ℤ :=
  if 0 < overflow then
    let amount := min overflow (max 0 (ms - minimum))
    (ms - amount, overflow - amount)
  else (ms, overflow)

def phaseDurations (action : Dict) (policy : BLEMicroRefinementPolicy) : PhaseDurations :=
  let totalMs := estimatedActionLatencyMs action
  let wanted := targetDurations action policy
  let (connect, xfer) := borrow connectMin wanted.connect wanted.xfer
  let (adv, xfer) := borrow advMin wanted.adv xfer
  let (settle, xfer) := borrow settleMin wanted.settle xfer
  let (adv, connect, xfer, settle) :=
    if xfer < xferMin then
      let (settle, overflow) := cut settleMin settle (adv + connect + settle + xferMin - totalMs)
      let (connect, overflow) := cut connectMin connect overflow
      let (adv, overflow) := cut advMin adv overflow
      (adv, connect, xferMin, if 0 < overflow then max 1 (settle - overflow) else settle)
    else (adv, connect, xfer, settle)
  let settle := settle + (totalMs - (adv + connect + xfer + settle))
  ⟨adv, connect, xfer, max 1 settle⟩

/-! ## Admission -/

section Admission

variable (currentAction nextAction : Dict) (policy : BLEMicroRefinementPolicy)

/-- Are two texts the same, and not blank? -/
def sameText (left right : String) : Bool := decide (left ≠ "") && decide (left = right)

def allowConservativeSubscribeAdvOverlap : Bool :=
  actionIsSubscribeLike nextAction &&
    (isSafeSource nextAction policy.allowSubscribeLikeAdvOverlapSources ||
      policy.allowSubscribeLikeAdvOverlapCapabilities.any (hasBleCapability nextAction policy)) &&
    decide (actionKind currentAction = "connect") &&
    sameText (scannerSource currentAction) (scannerSource nextAction) &&
    (decide (normalizedDeviceId currentAction ≠ "") && decide (normalizedDeviceId nextAction ≠ "") &&
      decide (normalizedDeviceId currentAction ≠ normalizedDeviceId nextAction)) &&
    !sameText (sessionGroup currentAction) (sessionGroup nextAction) &&
    !(policy.requireConnectableControllerForConnectPrep &&
      !policy.assumeConnectableControllerAvailable)

/-- Why the next action may not advertise while the current one is at work. -/
def advOverlapAdmission : List String :=
  let subscribeLike := actionIsSubscribeLike nextAction
  let allowSubscribeOverlap := allowConservativeSubscribeAdvOverlap currentAction nextAction policy
  if !policy.allowAdvPrepareOverlap then ["adv_overlap_disabled"]
  else
    (if policy.requireSharedScanner && !policy.assumeSharedScannerAvailable then
        ["shared_scanner_unavailable"] else []) ++
      (if policy.requireSourceResolutionForAdvOverlap &&
          (decide (scannerSource currentAction = "") || decide (scannerSource nextAction = "")) &&
          !policy.allowUnknownSourceAdvOverlap then ["scanner_source_unresolved"] else []) ++
      (if policy.requireConnectableControllerForConnectPrep &&
          actionRequiresConnectable nextAction &&
          !policy.assumeConnectableControllerAvailable then
        ["connectable_controller_unavailable"] else []) ++
      (if subscribeLike && !(policy.allowSubscribeLikeAdvOverlap || allowSubscribeOverlap) then
        ["subscribe_like_next_action"] else []) ++
      (if sameText (normalizedDeviceId currentAction) (normalizedDeviceId nextAction) &&
          !policy.allowSameDeviceAdvOverlap then ["same_device_overlap_blocked"] else []) ++
      (if sameText (sessionGroup currentAction) (sessionGroup nextAction) &&
          !policy.allowSameSessionAdvOverlap then ["same_session_overlap_blocked"] else []) ++
      (if policy.prepareMustBeSideEffectFree && subscribeLike && !allowSubscribeOverlap then
        ["subscribe_prepare_not_side_effect_free"] else [])

/-- May the next action advertise while the current one still connects? -/
def allowAdvAnchorDuringConnectPrepare : Bool :=
  (advOverlapAdmission currentAction nextAction policy).isEmpty &&
    !(decide (actionKind currentAction = "connect") || actionIsSubscribeLike currentAction) &&
    (isSafeSource nextAction policy.allowAdvPrepareDuringConnectForSources ||
      policy.allowAdvPrepareDuringConnectCapabilities.any (hasBleCapability nextAction policy))

/-- Why the next action may not connect while the current one is at work. -/
def connectOverlapAdmission : List String :=
  if !policy.allowConnectPrepareOverlap then ["connect_prepare_overlap_disabled"]
  else
    (if policy.requireConnectableControllerForConnectPrep &&
        !policy.assumeConnectableControllerAvailable then
        ["connectable_controller_unavailable"] else []) ++
      (if policy.enforceConnectionSlotGuard && decide (policy.connectableSlotLimit <
          policy.currentXferSlotCost + policy.nextConnectPrepareSlotCost) then
        ["connection_slot_conflict"] else []) ++
      (if sameText (normalizedDeviceId currentAction) (normalizedDeviceId nextAction) then
        ["same_device_connect_prepare_blocked"] else [])

end Admission

/-! ## Expansion -/

/-- An action on the time line. -/
structure PlacedAction where
  actionId : String
  action : Dict
  advStart : ℤ
  connectStart : ℤ
  xferStart : ℤ
  durations : PhaseDurations

namespace PlacedAction

variable (placed : PlacedAction)

def advEnd : ℤ := placed.advStart + placed.durations.adv
def connectEnd : ℤ := placed.connectStart + placed.durations.connect
def xferEnd : ℤ := placed.xferStart + placed.durations.xfer
def settleEnd : ℤ := placed.xferEnd + placed.durations.settle

def events : List BLEMicroEvent :=
  [⟨placed.actionId, .prepareAdvSide, placed.advStart, placed.advEnd⟩,
    ⟨placed.actionId, .prepareConnectSide, placed.connectStart, placed.connectEnd⟩,
    ⟨placed.actionId, .bleXfer, placed.xferStart, placed.xferEnd⟩,
    ⟨placed.actionId, .bleSettle, placed.xferEnd, placed.settleEnd⟩]

end PlacedAction

section Expand

variable (policy : BLEMicroRefinementPolicy)

/-- The first action of a corridor. -/
def placeFirst (actionId : String) (action : Dict) : PlacedAction :=
  let durations := phaseDurations action policy
  ⟨actionId, action, 0, durations.adv, max (durations.adv + durations.connect) 0, durations⟩

/-- An action after the previous one. -/
def placeNext (previous : PlacedAction) (actionId : String) (action : Dict) : PlacedAction :=
  let durations := phaseDurations action policy
  let advStart :=
    if (advOverlapAdmission previous.action action policy).isEmpty then
      if allowAdvAnchorDuringConnectPrepare previous.action action policy then
        previous.connectStart
      else previous.xferStart
    else previous.settleEnd
  let advEnd := advStart + durations.adv
  let connectStart :=
    if (connectOverlapAdmission previous.action action policy).isEmpty then
      max advEnd previous.xferStart
    else max advEnd previous.settleEnd
  ⟨actionId, action, advStart, connectStart,
    max (connectStart + durations.connect) previous.xferEnd, durations⟩

def placeAfter (previous : PlacedAction) : List (String × Dict) → List PlacedAction
  | [] => []
  | (actionId, action) :: rest =>
      let placed := placeNext policy previous actionId action
      placed :: placeAfter placed rest

def placeAll : List (String × Dict) → List PlacedAction
  | [] => []
  | (actionId, action) :: rest =>
      let placed := placeFirst policy actionId action
      placed :: placeAfter policy placed rest

/-- The actions of some ids. -/
def actionRows (actionIds : List String) (actionLookup : OrderedDict String Dict) :
    Except PyErr (List (String × Dict)) :=
  actionIds.mapM fun actionId =>
    match actionLookup.get? actionId with
    | some action => .ok (actionId, action)
    | none => .error .keyError

def expandConservativeOverlap (actionIds : List String) (actionLookup : OrderedDict String Dict) :
    Except PyErr (List BLEMicroEvent) := do
  let rows ← actionRows actionIds actionLookup
  return (placeAll policy rows).flatMap PlacedAction.events

end Expand

/-- `max((event.end_ms for event in refined_events), default=0)`. -/
def refinedLatencyMs (refinedEvents : List BLEMicroEvent) : ℤ :=
  match refinedEvents.map BLEMicroEvent.endMs with
  | [] => 0
  | endMs :: rest => rest.foldl max endMs

/-! ## Validation -/

section Validation

variable (refinedEvents : List BLEMicroEvent) (policy : BLEMicroRefinementPolicy)

/-- The events of an action in the order of their starts. -/
def phasesOf (actionId : String) : List BLEMicroEvent :=
  sortedBy BLEMicroEvent.startMs (refinedEvents.filter (·.actionId = actionId))

def phaseOrderReasons (actionId : String) : List String :=
  let phases := phasesOf refinedEvents actionId
  if phases.map BLEMicroEvent.phase ≠ bleMicroPhases then [actionId ++ ":invalid_phase_sequence"]
  else (neighbours phases).filterMap fun row =>
    if row.2.startMs < row.1.endMs then some (actionId ++ ":phase_timing_inversion") else none

def rollbackReasons (actionId : String) : List String :=
  match phasesOf refinedEvents actionId with
  | adv :: connect :: rest =>
      if (adv :: connect :: rest).map BLEMicroEvent.phase ≠ bleMicroPhases then []
      else
        (if policy.prepareAdvTimeoutMs < adv.endMs - adv.startMs then
          [actionId ++ ":adv_prepare_timeout_exceeded"] else []) ++
        (if policy.prepareConnectTimeoutMs < connect.endMs - connect.startMs then
          [actionId ++ ":connect_prepare_timeout_exceeded"] else [])
  | _ => []

def xferReasons : List String :=
  (neighbours (sortedBy BLEMicroEvent.startMs (refinedEvents.filter (·.phase = .bleXfer)))).filterMap
    fun row =>
      if row.2.startMs < row.1.endMs then
        some (row.1.actionId ++ "->" ++ row.2.actionId ++ ":xfer_overlap")
      else none

/-- The actions in the order of their ends. -/
def completionOrder : List String :=
  let completion : OrderedDict String ℤ := .ofList
    ((refinedEvents.filter (·.phase = .bleSettle)).map fun event => (event.actionId, event.endMs))
  (sortedBy (fun row => (toLex (row.2, row.1) : ℤ ×ₗ String)) completion.rows).map (·.1)

def maxActiveActions : ℕ :=
  Spans.depth BLEMicroEvent.actionId BLEMicroEvent.startMs BLEMicroEvent.endMs refinedEvents

/-- The last event of a phase of an action. -/
def eventOf (actionId : String) (phase : BLEMicroPhase) : Option BLEMicroEvent :=
  (refinedEvents.filter fun event => event.actionId = actionId ∧ event.phase = phase).getLast?

/-- What is wrong with two actions that follow each other. -/
structure PairReasons where
  kind : List String := []
  scanner : List String := []
  connect : List String := []

def pairReasons (left right : String × Dict) : PairReasons :=
  let tag (reason : String) := left.1 ++ "->" ++ right.1 ++ ":" ++ reason
  match eventOf refinedEvents left.1 .prepareConnectSide, eventOf refinedEvents left.1 .bleXfer,
      eventOf refinedEvents left.1 .bleSettle, eventOf refinedEvents right.1 .prepareAdvSide,
      eventOf refinedEvents right.1 .prepareConnectSide with
  | some leftConnect, some leftXfer, some leftSettle, some rightAdv, some rightConnect =>
      let advOverlaps := rightAdv.startMs < leftSettle.endMs
      let admission := advOverlapAdmission left.2 right.2 policy
      let anchored := advOverlaps ∧ admission.isEmpty ∧ rightAdv.startMs < leftXfer.startMs
      { kind :=
          if advOverlaps ∧ ¬ admission.isEmpty then admission.map tag
          else if anchored ∧ ¬ allowAdvAnchorDuringConnectPrepare left.2 right.2 policy then
            [tag "connect_phase_adv_anchor_not_allowed"]
          else []
        scanner :=
          if anchored ∧ rightAdv.startMs < leftConnect.startMs then
            [tag "adv_prepare_started_before_connect_prepare"]
          else []
        connect :=
          if rightConnect.startMs < leftSettle.endMs then
            (connectOverlapAdmission left.2 right.2 policy).map tag
          else [] }
  | _, _, _, _, _ => {}

structure BLEMicroValidationResult where
  passed : Bool
  coarseCompletionOrderPreserved : Bool
  phaseOrderValid : Bool
  xferSerialized : Bool
  lookaheadDepthOk : Bool
  scannerConstraintsOk : Bool
  connectableConstraintsOk : Bool
  slotConstraintsOk : Bool
  typeConstraintsOk : Bool
  rollbackConstraintsOk : Bool
  reasons : List String

/-- The verdict about the actions of a corridor. -/
def validateRows (rows : List (String × Dict)) : BLEMicroValidationResult :=
  let coarseActionIds := rows.map Prod.fst
  let pairs := (neighbours rows).map fun row => pairReasons refinedEvents policy row.1 row.2
  let phaseOrderValid := coarseActionIds.all fun actionId =>
    (phaseOrderReasons refinedEvents actionId).isEmpty
  let rollbackOk := coarseActionIds.all fun actionId =>
    (rollbackReasons refinedEvents policy actionId).isEmpty
  let xferSerialized := (xferReasons refinedEvents).isEmpty
  let completionOk := decide (completionOrder refinedEvents = coarseActionIds)
  let lookaheadOk := decide ((maxActiveActions refinedEvents : ℤ) ≤ policy.maxLookaheadActions + 1)
  let typeOk := pairs.all (·.kind.isEmpty)
  let scannerOk := typeOk && pairs.all (·.scanner.isEmpty)
  let connectOk := pairs.all (·.connect.isEmpty)
  { passed := phaseOrderValid && xferSerialized && completionOk && lookaheadOk && scannerOk &&
      connectOk && connectOk && typeOk && rollbackOk
    coarseCompletionOrderPreserved := completionOk
    phaseOrderValid := phaseOrderValid
    xferSerialized := xferSerialized
    lookaheadDepthOk := lookaheadOk
    scannerConstraintsOk := scannerOk
    connectableConstraintsOk := connectOk
    slotConstraintsOk := connectOk
    typeConstraintsOk := typeOk
    rollbackConstraintsOk := rollbackOk
    reasons :=
      (coarseActionIds.flatMap fun actionId =>
        phaseOrderReasons refinedEvents actionId ++
          rollbackReasons refinedEvents policy actionId) ++
      xferReasons refinedEvents ++
      (if completionOk then [] else ["coarse_completion_order_changed"]) ++
      (if lookaheadOk then [] else
        ["lookahead_depth_exceeded:" ++ toString (maxActiveActions refinedEvents)]) ++
      pairs.flatMap fun pair => pair.kind ++ pair.scanner ++ pair.connect }

def validateRefinedCorridor (coarseActionIds : List String)
    (actionLookup : OrderedDict String Dict) : Except PyErr BLEMicroValidationResult := do
  let rows ← actionRows coarseActionIds actionLookup
  return validateRows refinedEvents policy rows

end Validation

end FloWeaver.Micro
