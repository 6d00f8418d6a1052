import FloWeaver.Lib.OrderedDict
import FloWeaver.Lib.Spans
import FloWeaver.Micro.Latency
import FloWeaver.Py.Sort

/-!
# Refining API corridors

Batches of API calls that follow each other are steps of a corridor when they are of one kind.  A
step sends its requests after the step before it has written its states.  What prepares the requests
may run earlier, while the step before it waits for its response.

* `selectCorridors` — the steps of a plan, and the corridors among them.
* `allocatePhaseDurations` — how the latency of a step is split into phases.
* `expandRefinedSteps` — the events of a corridor.
* `validateRefinedCorridor` — what the validator says of them.
* `refineCorridor` — a corridor, refined.
-/

namespace FloWeaver.Micro.Api

open Py
open Scheduler (actionIndex dataTemplate execCfg target)
open Spans (neighbours)

inductive APIMicroPhase where
  | cloudAuthCheck
  | cloudRateBudgetCheck
  | apiPrepare
  | apiSessionReady
  | cloudRequestSend
  | apiResponseRecv
  | cloudBackoffWait
  | apiParseNormalize
  | apiAggregate
  | cloudBatchGroupCommit
  | haStateWrite
  | localEndpointResolve
  | localSessionReady
  | localRequestSend
  | localResponseRecv
  | localParse
  | localCacheUpdate
  | mqttLastMsgRead
  | mqttCacheParse
deriving DecidableEq, Repr

inductive APIPhaseKind where
  | cloud
  | localHttp
  | mqtt
deriving DecidableEq, Repr

def cloudMicroPhases : List APIMicroPhase :=
  [.cloudAuthCheck, .cloudRateBudgetCheck, .apiPrepare, .apiSessionReady, .cloudRequestSend,
    .apiResponseRecv, .cloudBackoffWait, .apiParseNormalize, .apiAggregate, .cloudBatchGroupCommit,
    .haStateWrite]

def localHttpMicroPhases : List APIMicroPhase :=
  [.localEndpointResolve, .localSessionReady, .localRequestSend, .localResponseRecv, .localParse,
    .localCacheUpdate, .haStateWrite]

def mqttMicroPhases : List APIMicroPhase := [.mqttLastMsgRead, .mqttCacheParse, .haStateWrite]

def apiDurationMs : List (String × ℤ) :=
  [("status", 350), ("read_runtime", 450), ("turn_on", 400), ("turn_off", 380),
    ("set_temperature", 420), ("set_hvac_mode", 420), ("set_fan_mode", 400),
    ("set_percentage", 390), ("get_state", 100), ("read_last_message", 80)]

def defaultApiDurationMs : ℤ := 120

structure APIMicroRefinementPolicy where
  minCorridorLength : ℤ := 2
  minCorridorLatencyMs : ℤ := 700
  cloudReadMinCorridorLength : ℤ := 2
  cloudReadMinCorridorLatencyMs : ℤ := 700
  cloudControlMinCorridorLength : ℤ := 2
  cloudControlMinCorridorLatencyMs : ℤ := 760
  localHttpReadMinCorridorLength : ℤ := 2
  localHttpReadMinCorridorLatencyMs : ℤ := 180
  localHttpControlMinCorridorLength : ℤ := 2
  localHttpControlMinCorridorLatencyMs : ℤ := 220
  mqttReadMinCorridorLength : ℤ := 3
  mqttReadMinCorridorLatencyMs : ℤ := 220
  maxLookaheadSteps : ℤ := 1
  disallowEntityLevelOverlap : Bool := true
  requireSharedWebSession : Bool := true
  allowLocalPrepareOverlap : Bool := true
  allowCloudPrepareOverlap : Bool := true
  allowCloudAuthBudgetOverlap : Bool := true
  disallowBackoffBypass : Bool := true
  parseAsyncSafeMaxMs : ℤ := 220
  aggregateAsyncSafeMaxMs : ℤ := 180
  availabilityMustPrecedeWrite : Bool := true
  requireKnownSessionKey : Bool := true
  requireKnownHostKey : Bool := true
  requireKnownEndpointKey : Bool := false
  requireKnownBucketKey : Bool := false
  cloudBackoffWaitMs : ℤ := 220
  treatMqttAsNonOverlapLane : Bool := true

structure APIMicroEvent where
  stepId : String
  phase : APIMicroPhase
  startMs : ℤ
  endMs : ℤ
deriving DecidableEq, Repr

structure APIBatchStep where
  stepId : String
  batchId : String
  protocol : String
  phaseKind : APIPhaseKind
  capabilityClass : String
  actionIds : List String
  latencyMs : ℤ
  hostKey : String
  bucketKey : String
  sessionKey : String
  endpointKey : String
  hasBackoffWait : Bool
deriving DecidableEq, Repr

structure APIMicroCorridor where
  corridorId : String
  protocol : String
  phaseKind : APIPhaseKind
  capabilityClass : String
  stepIds : List String
  batchIds : List String
  actionIds : List String
  originalLatencyMs : ℤ
  score : ℤ
  overlapCandidatePairs : ℕ := 0

/-! ## What is read off an action -/

def targetKey (action : Dict) : String :=
  firstText [(target action).get "endpoint", (target action).get "device_id",
    (target action).get "id", (dataTemplate action).get "endpoint",
    (dataTemplate action).get "device_id"]

/-- The first of some values that is not blank, or else a text. -/
def firstTextOr (values : List Val) (default : String) : String :=
  if firstText values = "" then default else firstText values

def hostKey (action : Dict) : String :=
  firstTextOr [(dataTemplate action).get "host_group_key", (execCfg action).get "provider"]
    (if contains (targetKey action) ":" then beforeFirst (targetKey action) ":" else "")

def bucketKey (action : Dict) : String :=
  firstTextOr [(dataTemplate action).get "endpoint_group_key",
    (dataTemplate action).get "bucket_key"] (hostKey action)

def sessionKey (action : Dict) : String :=
  firstTextOr [(dataTemplate action).get "session_group_key",
    (dataTemplate action).get "host_group_key"] (hostKey action)

def endpointKey (action : Dict) : String :=
  firstTextOr [(dataTemplate action).get "endpoint", (dataTemplate action).get "device_id"]
    (targetKey action)

def isControlLike (action : Dict) : Bool :=
  ["turn_on", "turn_off", "set_", "open", "close", "play_media", "set_volume"].any
    (contains (actionKind action) ·)

def isMqttLike (action : Dict) : Bool :=
  contains (actionKind action) "read_last_message" ||
    contains (lower (textOf ((execCfg action).get "service"))) "read_last_message" ||
    startsWith (targetKey action) "mqtt:"

def isRuntimeApiAction (action : Dict) : Bool :=
  ["CLOUD", "LOCAL"].contains (actionProtocol action) &&
    decide (textOf (action.get "target_kind") ≠ "state_write") &&
    decide (textOf ((execCfg action).get "kind") = "ha_service_call")

def estimatedActionLatencyMs (action : Dict) : ℤ :=
  let protocol := actionProtocol action
  let kind := actionKind action
  if protocol = "CLOUD" then
    if contains kind "runtime" then 450 else if isControlLike action then 400 else 350
  else if protocol = "LOCAL" then if isMqttLike action then 80 else 100
  else if protocol = "HA" then 50
  else (apiDurationMs.lookup kind).getD defaultApiDurationMs

/-! ## Steps -/

section Steps

variable (actionLookup : OrderedDict String Dict)

def groupLatencyMs (group : List String) : ℤ :=
  let actions := group.filterMap actionLookup.get?
  let protocols := (actions.map actionProtocol).eraseDups
  let costs := actions.map estimatedActionLatencyMs
  let extra : ℤ := actions.length - 1
  if actions.isEmpty then 0
  else if protocols = ["LOCAL"] then maxCost costs + max 0 (20 * extra)
  else if protocols = ["CLOUD"] then maxCost costs + max 0 (120 * extra)
  else if protocols = ["HA"] then maxCost costs + max 0 (10 * extra)
  else maxCost costs

def batchLatencyMs (batch : Batch) : ℤ :=
  maxCost (batch.parallelGroups.map (groupLatencyMs actionLookup))

/-- The actions of a batch that are known, with their ids. -/
def batchRows (batch : Batch) : List (String × Dict) :=
  batch.parallelGroups.flatten.filterMap fun actionId =>
    (actionLookup.get? actionId).map fun action => (actionId, action)

def batchActions (batch : Batch) : List Dict := (batchRows actionLookup batch).map Prod.snd

/-- The only one of some texts. -/
def soleText (texts : List String) : String :=
  match texts.eraseDups with
  | [text] => text
  | _ => ""

def batchProtocol (batch : Batch) : String :=
  soleText ((batchActions actionLookup batch).map actionProtocol)

def batchPhaseKind (batch : Batch) : Option APIPhaseKind :=
  let protocol := batchProtocol actionLookup batch
  if protocol = "CLOUD" then some .cloud
  else if protocol ≠ "LOCAL" then none
  else if (batchActions actionLookup batch).isEmpty then none
  else if (batchActions actionLookup batch).all isMqttLike then some .mqtt
  else some .localHttp

def batchAllRuntimeApi (batch : Batch) : Bool :=
  !(batchActions actionLookup batch).isEmpty &&
    (batchActions actionLookup batch).all isRuntimeApiAction

end Steps

def backoffKinds : List String := ["BACKOFF", "BACKOFF_WAIT", "RETRY_AFTER", "RATE_LIMIT_BACKOFF"]

def backoffKeys : List String := ["retry_after_ms", "retry_after_s", "backoff_ms", "backoff_wait_ms"]

/-- `isinstance(value, (int, float)) and value > 0`. -/
def isPositive : Val → Bool
  | .bool b => b
  | .int i => decide (0 < i)
  | .float q _ => decide (0 < q)
  | _ => false

/-- Does a guard or a fallback row ask to wait? -/
def isBackoffRow (item : Dict) : Bool :=
  let upperText (key : String) := upper (textOf (item.get key))
  backoffKinds.contains (upperText "kind") ||
    ["WAIT_BACKOFF", "HONOR_BACKOFF", "RETRY_AFTER"].contains (upperText "action") ||
    backoffKeys.any (fun key => ((item.get "params").asDict.get? key).isSome) ||
    contains (upperText "expr") "RETRY_AFTER" || contains (upperText "expr") "BACKOFF"

def batchBackoffBarrier (batch : Batch) : Bool :=
  batch.constraints.any (fun item => backoffKinds.contains (upper (strip item))) ||
    backoffKeys.any (fun key => isPositive (batch.ratePolicy.get key)) ||
    (batch.guards ++ batch.fallback).any isBackoffRow

def stepCapabilityClass (protocol : String) (phaseKind : APIPhaseKind) (actions : List Dict) :
    String :=
  if phaseKind = .mqtt then "mqtt_read"
  else if protocol = "CLOUD" then
    if actions.any isControlLike then "cloud_control" else "cloud_read"
  else if phaseKind = .localHttp then
    if actions.any isControlLike then "local_http_control" else "local_http_read"
  else "generic_api"

/-- The step of a batch of API calls of one protocol. -/
def makeStep (actionLookup : OrderedDict String Dict) (batch : Batch) : Option APIBatchStep :=
  let protocol := batchProtocol actionLookup batch
  let actions := batchActions actionLookup batch
  let soleKey (key : Dict → String) := soleText ((actions.map key).filter (· ≠ ""))
  match batchPhaseKind actionLookup batch with
  | none => none
  | some phaseKind =>
      if batchAllRuntimeApi actionLookup batch && ["CLOUD", "LOCAL"].contains protocol then
        some {
          stepId := batch.batchId
          batchId := batch.batchId
          protocol := protocol
          phaseKind := phaseKind
          capabilityClass := stepCapabilityClass protocol phaseKind actions
          actionIds := (batchRows actionLookup batch).map Prod.fst
          latencyMs := batchLatencyMs actionLookup batch
          hostKey := soleKey hostKey
          bucketKey := soleKey bucketKey
          sessionKey := soleKey sessionKey
          endpointKey := soleKey endpointKey
          hasBackoffWait := batchBackoffBarrier batch }
      else none

/-! ## Admission -/

section Admission

variable (left right : APIBatchStep) (policy : APIMicroRefinementPolicy)

/-- Is a text of one of the two steps missing? -/
def isUnresolved (key : APIBatchStep → String) : Bool :=
  decide (key left = "") || decide (key right = "")

/-- Why a local step may not prepare while the step before it waits. -/
def localPrepareOverlapAdmission : List String :=
  (if policy.allowLocalPrepareOverlap then [] else ["local_prepare_overlap_disabled"]) ++
    (if left.protocol ≠ "LOCAL" ∨ right.protocol ≠ "LOCAL" then ["local_protocol_mismatch"]
      else []) ++
    (if left.phaseKind ≠ .localHttp ∨ right.phaseKind ≠ .localHttp then
      ["local_phase_kind_unsupported"] else []) ++
    (if policy.requireSharedWebSession && policy.requireKnownSessionKey &&
        isUnresolved left right APIBatchStep.sessionKey then
      ["local_session_key_unresolved"] else []) ++
    (if policy.requireKnownEndpointKey && isUnresolved left right APIBatchStep.endpointKey then
      ["local_endpoint_key_unresolved"] else [])

/-- Why a cloud step may not prepare while the step before it waits. -/
def cloudPrepareOverlapAdmission : List String :=
  (if policy.allowCloudPrepareOverlap then [] else ["cloud_prepare_overlap_disabled"]) ++
    (if left.protocol ≠ "CLOUD" ∨ right.protocol ≠ "CLOUD" then ["cloud_protocol_mismatch"]
      else []) ++
    (if left.phaseKind ≠ .cloud ∨ right.phaseKind ≠ .cloud then ["cloud_phase_kind_unsupported"]
      else []) ++
    (if policy.requireKnownHostKey && isUnresolved left right APIBatchStep.hostKey then
      ["cloud_host_key_unresolved"] else []) ++
    (if policy.requireKnownBucketKey && isUnresolved left right APIBatchStep.bucketKey then
      ["cloud_bucket_key_unresolved"] else []) ++
    (if left.hasBackoffWait ∧ policy.disallowBackoffBypass ∧ left.hostKey ≠ "" ∧
        right.hostKey ≠ "" ∧ left.hostKey = right.hostKey then ["cloud_backoff_barrier"] else [])

end Admission

/-! ## Corridors -/

section Corridors

variable (policy : APIMicroRefinementPolicy)

def corridorThresholds (capabilityClass : String) : ℤ × ℤ :=
  if capabilityClass = "cloud_read" then
    (policy.cloudReadMinCorridorLength, policy.cloudReadMinCorridorLatencyMs)
  else if capabilityClass = "cloud_control" then
    (policy.cloudControlMinCorridorLength, policy.cloudControlMinCorridorLatencyMs)
  else if capabilityClass = "local_http_read" then
    (policy.localHttpReadMinCorridorLength, policy.localHttpReadMinCorridorLatencyMs)
  else if capabilityClass = "local_http_control" then
    (policy.localHttpControlMinCorridorLength, policy.localHttpControlMinCorridorLatencyMs)
  else if capabilityClass = "mqtt_read" then
    (policy.mqttReadMinCorridorLength, policy.mqttReadMinCorridorLatencyMs)
  else (policy.minCorridorLength, policy.minCorridorLatencyMs)

/-- May the right step prepare while the left one waits? -/
def isCandidatePair (left right : APIBatchStep) : Bool :=
  match left.phaseKind, right.phaseKind with
  | .localHttp, .localHttp => (localPrepareOverlapAdmission left right policy).isEmpty
  | .cloud, .cloud => (cloudPrepareOverlapAdmission left right policy).isEmpty
  | _, _ => false

def candidatePairs (steps : List APIBatchStep) : ℕ :=
  (neighbours steps).countP fun pair => isCandidatePair policy pair.1 pair.2

/-- The corridor of some steps, when there is one. -/
def corridorOf (index : ℕ) (capabilityClass : String) : List APIBatchStep → Option APIMicroCorridor
  | [] => none
  | first :: rest =>
      let steps := first :: rest
      let originalLatencyMs := (steps.map APIBatchStep.latencyMs).sum
      let pairCount := candidatePairs policy steps
      let (minLength, minLatency) := corridorThresholds policy capabilityClass
      if minLength ≤ steps.length ∧ minLatency ≤ originalLatencyMs ∧ 0 < pairCount ∧
          ¬ (policy.treatMqttAsNonOverlapLane ∧ first.phaseKind = .mqtt) then
        some {
          corridorId := "corridor_" ++ (if index < 10 then "0" else "") ++ toString index
          protocol := first.protocol
          phaseKind := first.phaseKind
          capabilityClass :=
            if capabilityClass = "" then first.capabilityClass else capabilityClass
          stepIds := steps.map APIBatchStep.stepId
          batchIds := steps.map APIBatchStep.batchId
          actionIds := steps.flatMap APIBatchStep.actionIds
          originalLatencyMs := originalLatencyMs
          score := originalLatencyMs + 120 * pairCount
          overlapCandidatePairs := pairCount }
      else none

/-- The corridors so far, and the steps that are not in one yet. -/
structure CorridorScan where
  corridors : List APIMicroCorridor := []
  currentSteps : List APIBatchStep := []
  currentCapabilityClass : String := ""

/-- Does a step go with those that are not in a corridor yet? -/
def continues (scan : CorridorScan) (step : APIBatchStep) : Bool :=
  match scan.currentSteps.getLast? with
  | none => true
  | some last =>
      decide (step.protocol = last.protocol) && decide (step.phaseKind = last.phaseKind) &&
        decide (step.capabilityClass = scan.currentCapabilityClass)

/-- Closes the steps that are not in a corridor yet. -/
def closeCorridor (scan : CorridorScan) : List APIMicroCorridor :=
  scan.corridors ++ (corridorOf policy scan.corridors.length scan.currentCapabilityClass
    scan.currentSteps).toList

def scanStep (scan : CorridorScan) : Option APIBatchStep → CorridorScan
  | none => ⟨closeCorridor policy scan, [], ""⟩
  | some step =>
      if continues scan step then
        ⟨scan.corridors, scan.currentSteps ++ [step], step.capabilityClass⟩
      else ⟨closeCorridor policy scan, [step], step.capabilityClass⟩

def selectCorridors (plan : ExecutionPlan) (target : OptimizationTarget) :
    List APIBatchStep × List APIMicroCorridor :=
  let stepsByBatch := plan.orderedBatches.map (makeStep (actionIndex target))
  (stepsByBatch.filterMap (·), ((stepsByBatch ++ [none]).foldl (scanStep policy) {}).corridors)

end Corridors

/-! ## Durations -/

def phaseSequence : APIPhaseKind → List APIMicroPhase
  | .cloud => cloudMicroPhases
  | .mqtt => mqttMicroPhases
  | .localHttp => localHttpMicroPhases

/-- A phase, its shortest duration and its share of what is left. -/
structure PhaseSpec (ν : Type) where
  phase : ν
  minMs : ℤ
  weight : ℤ

/-- `int(round(float(total) * float(part) / float(whole)))`. -/
def shareOf (total part whole : ℤ) : ℤ := Val.roundHalfEven ((total : ℚ) * part / whole)

/-- The shortest durations scaled down; the last phase takes what the others leave. -/
def scaledDurations {ν : Type} (totalMs minTotal scaledTotal : ℤ) :
    List (PhaseSpec ν) → List (ν × ℤ)
  | [] => []
  | [spec] => [(spec.phase, max 0 (totalMs - scaledTotal))]
  | spec :: rest =>
      let dur := max 0 (shareOf totalMs spec.minMs minTotal)
      (spec.phase, dur) :: scaledDurations totalMs minTotal (scaledTotal + dur) rest

/-- The shortest durations and what is left by weight; the last phase takes what the others
leave. -/
def extendedDurations {ν : Type} (remaining weightTotal allocated : ℤ) :
    List (PhaseSpec ν) → List (ν × ℤ)
  | [] => []
  | [spec] => [(spec.phase, spec.minMs + max 0 (remaining - allocated))]
  | spec :: rest =>
      let extra := if weightTotal ≤ 0 then 0 else shareOf remaining spec.weight weightTotal
      (spec.phase, spec.minMs + max 0 extra) ::
        extendedDurations remaining weightTotal (allocated + extra) rest

/-- Whatever is missing or too much goes to the last phase. -/
def addDrift {ν : Type} (totalMs : ℤ) (durations : List (ν × ℤ)) : List (ν × ℤ) :=
  match durations.getLast? with
  | none => []
  | some (phase, ms) =>
      durations.dropLast ++ [(phase, ms + (totalMs - (durations.map Prod.snd).sum))]

def allocatePhaseDurations {ν : Type} (totalMs : ℤ) (specs : List (PhaseSpec ν)) : List (ν × ℤ) :=
  let minTotal := (specs.map PhaseSpec.minMs).sum
  if totalMs ≤ 0 then specs.map fun spec => (spec.phase, 0)
  else if totalMs ≤ minTotal then addDrift totalMs (scaledDurations totalMs minTotal 0 specs)
  else
    let weightTotal := ((specs.map PhaseSpec.weight).filter (0 < ·)).sum
    addDrift totalMs (extendedDurations (totalMs - minTotal) weightTotal 0 specs)

section Expand

variable (policy : APIMicroRefinementPolicy)

def phaseSpecs (step : APIBatchStep) : List (PhaseSpec APIMicroPhase) :=
  match step.phaseKind with
  | .cloud =>
      [⟨.cloudAuthCheck, 10, 5⟩, ⟨.cloudRateBudgetCheck, 8, 4⟩, ⟨.apiPrepare, 14, 8⟩,
        ⟨.apiSessionReady, 8, 4⟩, ⟨.cloudRequestSend, 24, 18⟩, ⟨.apiResponseRecv, 24, 16⟩,
        ⟨.cloudBackoffWait, if step.hasBackoffWait then policy.cloudBackoffWaitMs else 0, 0⟩,
        ⟨.apiParseNormalize, 12, 8⟩, ⟨.apiAggregate, 10, 6⟩, ⟨.cloudBatchGroupCommit, 8, 4⟩,
        ⟨.haStateWrite, 8, 3⟩]
  | .mqtt => [⟨.mqttLastMsgRead, 20, 12⟩, ⟨.mqttCacheParse, 12, 6⟩, ⟨.haStateWrite, 8, 2⟩]
  | .localHttp =>
      [⟨.localEndpointResolve, 12, 8⟩, ⟨.localSessionReady, 10, 6⟩, ⟨.localRequestSend, 18, 14⟩,
        ⟨.localResponseRecv, 18, 12⟩, ⟨.localParse, 12, 8⟩, ⟨.localCacheUpdate, 10, 5⟩,
        ⟨.haStateWrite, 8, 3⟩]

def phaseDurations (step : APIBatchStep) : List (APIMicroPhase × ℤ) :=
  allocatePhaseDurations step.latencyMs (phaseSpecs policy step)

/-- `durations.get(phase, 0)` of a step. -/
def durationOf (step : APIBatchStep) (phase : APIMicroPhase) : ℤ :=
  ((phaseDurations policy step).lookup phase).getD 0

/-! ## Events -/

/-- Phases of a step one after the other. -/
def chainFrom (step : APIBatchStep) (cursor : ℤ) : List APIMicroPhase → List APIMicroEvent
  | [] => []
  | phase :: phases =>
      let endMs := cursor + durationOf policy step phase
      ⟨step.stepId, phase, cursor, endMs⟩ :: chainFrom step endMs phases

def serialEventsFrom (cursor : ℤ) : List APIBatchStep → List APIMicroEvent
  | [] => []
  | step :: steps =>
      let phases := phaseSequence step.phaseKind
      chainFrom policy step cursor phases ++
        serialEventsFrom (cursor + (phases.map (durationOf policy step)).sum) steps

def serialEventsForSteps (steps : List APIBatchStep) : List APIMicroEvent :=
  serialEventsFrom policy 0 steps

/-- The phases of a step that may run before the step before it has written. -/
def overlapPhases (previousStep step : APIBatchStep) : List APIMicroPhase :=
  match step.phaseKind with
  | .localHttp =>
      if (localPrepareOverlapAdmission previousStep step policy).isEmpty then
        [.localEndpointResolve, .localSessionReady]
      else []
  | .cloud =>
      if (cloudPrepareOverlapAdmission previousStep step policy).isEmpty then
        (if policy.allowCloudAuthBudgetOverlap then [.cloudAuthCheck, .cloudRateBudgetCheck]
          else []) ++ [.apiPrepare]
      else []
  | .mqtt => []

/-- The request and the response of the step before, between which a step may prepare. -/
def windowPhases : APIPhaseKind → Option (APIMicroPhase × APIMicroPhase)
  | .localHttp => some (.localRequestSend, .localResponseRecv)
  | .cloud => some (.cloudRequestSend, .apiResponseRecv)
  | .mqtt => none

/-- `previous[phase]`. -/
def eventAt (events : List APIMicroEvent) (phase : APIMicroPhase) : Except PyErr APIMicroEvent :=
  match events.find? (·.phase = phase) with
  | some event => .ok event
  | none => .error .keyError

/-- The phases of a step that run while the step before it waits: up to the end of its response, and
not before its request. -/
def overlapEvents (previousStep : APIBatchStep) (previous : List APIMicroEvent)
    (step : APIBatchStep) : Except PyErr (List APIMicroEvent) :=
  match windowPhases step.phaseKind with
  | none => .ok []
  | some (request, response) => do
      let leftRequest ← eventAt previous request
      let leftResponse ← eventAt previous response
      let phases := overlapPhases policy previousStep step
      let overlapTotal := (phases.map (durationOf policy step)).sum
      return chainFrom policy step (max leftRequest.startMs (leftResponse.endMs - overlapTotal))
        phases

/-- The events of a step by those of the step before it. -/
def expandStep (previousStep : APIBatchStep) (previous : List APIMicroEvent)
    (step : APIBatchStep) : Except PyErr (List APIMicroEvent) := do
  let phases := phaseSequence step.phaseKind
  let write ← eventAt previous .haStateWrite
  let overlapped ← overlapEvents policy previousStep previous step
  let post := chainFrom policy step write.endMs
    (phases.filter fun phase => phase ∉ overlapped.map APIMicroEvent.phase)
  return phases.filterMap fun phase => (overlapped ++ post).find? (·.phase = phase)

def expandAfter (previousStep : APIBatchStep) (previous : List APIMicroEvent) :
    List APIBatchStep → Except PyErr (List APIMicroEvent)
  | [] => .ok []
  | step :: steps => do
      let events ← expandStep policy previousStep previous step
      let rest ← expandAfter step events steps
      return events ++ rest

def expandRefinedSteps : List APIBatchStep → Except PyErr (List APIMicroEvent)
  | [] => .ok []
  | step :: steps => do
      let events := chainFrom policy step 0 (phaseSequence step.phaseKind)
      let rest ← expandAfter policy step events steps
      return events ++ rest

end Expand

/-! ## Validation -/

/-- What the validator looks at. -/
inductive APICheck where
  | completionOrder
  | phaseOrder
  | requestSend
  | lookaheadDepth
  | coordinator
  | parallelUpdates
  | session
  | backoff
  | eventLoop
  | availability
deriving DecidableEq, Repr

/-- A reason, with the check that fails for it. -/
structure Finding where
  check : APICheck
  reason : String

structure APIMicroValidationResult where
  passed : Bool
  coarseCompletionOrderPreserved : Bool
  phaseOrderValid : Bool
  requestSendConstraintsOk : Bool
  lookaheadDepthOk : Bool
  coordinatorConstraintsOk : Bool
  parallelUpdatesConstraintsOk : Bool
  sessionConstraintsOk : Bool
  backoffConstraintsOk : Bool
  writebackConstraintsOk : Bool
  eventLoopConstraintsOk : Bool
  cadenceConstraintsOk : Bool
  availabilityConstraintsOk : Bool
  reasons : List String

section Validation

variable (refinedEvents : List APIMicroEvent) (policy : APIMicroRefinementPolicy)

/-- The steps in the order of their ends. -/
def completionOrder : List String :=
  let completion := refinedEvents.foldl (fun completion event =>
    completion.set event.stepId (max ((completion.get? event.stepId).getD 0) event.endMs))
    (OrderedDict.empty : OrderedDict String ℤ)
  (sortedBy (fun row => (toLex (row.2, row.1) : ℤ ×ₗ String)) completion.rows).map (·.1)

def maxActiveSteps : ℕ :=
  Spans.depth APIMicroEvent.stepId APIMicroEvent.startMs APIMicroEvent.endMs refinedEvents

/-- The last event of a phase of a step. -/
def eventOf (stepId : String) (phase : APIMicroPhase) : Option APIMicroEvent :=
  (refinedEvents.filter fun event => event.stepId = stepId ∧ event.phase = phase).getLast?

/-- A reason for an event, when there is one that is wrong. -/
def findEvent (event : Option APIMicroEvent) (wrong : APIMicroEvent → Bool) (check : APICheck)
    (reason : String) : List Finding :=
  if event.any wrong then [⟨check, reason⟩] else []

/-- What is wrong with the parsing, the aggregation and the write of a step. -/
def workFindings (step : APIBatchStep) : List Finding :=
  let event := eventOf refinedEvents step.stepId
  let lasts (limit : ℤ) (event : APIMicroEvent) := decide (limit < event.endMs - event.startMs)
  let tag (reason : String) := step.stepId ++ ":" ++ reason
  let late (phase : APIMicroPhase) (reason : String) : List Finding :=
    findEvent (event phase) (fun row => policy.availabilityMustPrecedeWrite &&
      (event .haStateWrite).any fun write => decide (write.startMs < row.endMs)) .availability
      (tag reason)
  match step.phaseKind with
  | .localHttp =>
      findEvent (event .localParse) (lasts policy.parseAsyncSafeMaxMs) .eventLoop
        (tag "local_parse_budget_exceeded") ++
      findEvent (event .localCacheUpdate) (lasts policy.aggregateAsyncSafeMaxMs) .eventLoop
        (tag "local_cache_budget_exceeded") ++
      late .localCacheUpdate "local_availability_write_order_broken"
  | .cloud =>
      findEvent (event .apiParseNormalize) (lasts policy.parseAsyncSafeMaxMs) .eventLoop
        (tag "cloud_parse_budget_exceeded") ++
      findEvent (event .apiAggregate) (lasts policy.aggregateAsyncSafeMaxMs) .eventLoop
        (tag "cloud_aggregate_budget_exceeded") ++
      late .cloudBatchGroupCommit "cloud_availability_write_order_broken"
  | .mqtt =>
      findEvent (event .mqttCacheParse) (lasts policy.parseAsyncSafeMaxMs) .eventLoop
        (tag "mqtt_parse_budget_exceeded") ++
      late .mqttCacheParse "mqtt_availability_write_order_broken"

/-- What is wrong with the events of a step. -/
def stepFindings (step : APIBatchStep) : List Finding :=
  let stepEvents := sortedBy APIMicroEvent.startMs
    (refinedEvents.filter (·.stepId = step.stepId))
  if stepEvents.map APIMicroEvent.phase ≠ phaseSequence step.phaseKind then
    [⟨.phaseOrder, step.stepId ++ ":invalid_phase_sequence"⟩]
  else
    ((neighbours stepEvents).filterMap fun row =>
      if row.2.startMs < row.1.endMs then some ⟨.phaseOrder, step.stepId ++ ":phase_overlap"⟩
      else none) ++
    workFindings refinedEvents policy step

section Pair

variable (left right : APIBatchStep)

def pairTag (reason : String) : String := left.stepId ++ "->" ++ right.stepId ++ ":" ++ reason

/-- What is wrong when a request is sent before the step before has written. -/
def requestFindings (leftWrite : APIMicroEvent) (request : APIMicroPhase) (reason : String) :
    List Finding :=
  let early (row : APIMicroEvent) := decide (row.startMs < leftWrite.endMs)
  findEvent (eventOf refinedEvents right.stepId request) early .requestSend
    (pairTag left right reason) ++
  findEvent (eventOf refinedEvents right.stepId request)
    (fun row => policy.disallowEntityLevelOverlap && early row) .parallelUpdates
    (pairTag left right "entity_level_overlap_detected")

def localPairFindings : List Finding :=
  let leftEvent := eventOf refinedEvents left.stepId
  let rightEvent := eventOf refinedEvents right.stepId
  match rightEvent .localEndpointResolve, leftEvent .localRequestSend,
      leftEvent .localResponseRecv, leftEvent .haStateWrite with
  | some resolve, some leftRequest, some leftResponse, some leftWrite =>
      (if resolve.startMs < leftWrite.endMs then
        (localPrepareOverlapAdmission left right policy).map
          (fun reason => ⟨.session, pairTag left right reason⟩) ++
        (if resolve.startMs < leftRequest.startMs then
          [⟨.requestSend, pairTag left right "local_prepare_started_too_early"⟩] else []) ++
        findEvent (rightEvent .localSessionReady)
          (fun row => decide (leftResponse.endMs < row.endMs)) .requestSend
          (pairTag left right "local_prepare_window_violation")
      else []) ++
      requestFindings refinedEvents policy left right leftWrite .localRequestSend
        "local_request_send_overlap"
  | _, _, _, _ => []

def cloudPairFindings : List Finding :=
  let leftEvent := eventOf refinedEvents left.stepId
  let rightEvent := eventOf refinedEvents right.stepId
  match rightEvent .cloudAuthCheck, leftEvent .cloudRequestSend, leftEvent .apiResponseRecv,
      leftEvent .haStateWrite with
  | some auth, some leftRequest, some leftResponse, some leftWrite =>
      let late (row : APIMicroEvent) := decide (leftResponse.endMs < row.endMs)
      (if auth.startMs < leftWrite.endMs then
        (cloudPrepareOverlapAdmission left right policy).map
          (fun reason => ⟨.coordinator, pairTag left right reason⟩) ++
        (if auth.startMs < leftRequest.startMs then
          [⟨.requestSend, pairTag left right "cloud_auth_started_too_early"⟩] else []) ++
        findEvent (rightEvent .cloudRateBudgetCheck) late .requestSend
          (pairTag left right "cloud_budget_window_violation") ++
        findEvent (rightEvent .apiPrepare) late .requestSend
          (pairTag left right "cloud_prepare_window_violation") ++
        findEvent (leftEvent .cloudBackoffWait) (fun row => decide (row.startMs < row.endMs) &&
          policy.disallowBackoffBypass && decide (auth.startMs < row.endMs)) .backoff
          (pairTag left right "backoff_bypass")
      else []) ++
      requestFindings refinedEvents policy left right leftWrite .cloudRequestSend
        "cloud_request_send_overlap"
  | _, _, _, _ => []

/-- What is wrong with two steps that follow each other. -/
def pairFindings : List Finding :=
  match left.phaseKind, right.phaseKind with
  | .localHttp, .localHttp => localPairFindings refinedEvents policy left right
  | .cloud, .cloud => cloudPairFindings refinedEvents policy left right
  | _, _ => []

end Pair

def validationFindings (stepIds : List String) (steps : List APIBatchStep) : List Finding :=
  steps.flatMap (stepFindings refinedEvents policy) ++
  (if completionOrder refinedEvents = stepIds then []
    else [⟨.completionOrder, "coarse_completion_order_changed"⟩]) ++
  (if (maxActiveSteps refinedEvents : ℤ) ≤ policy.maxLookaheadSteps + 1 then []
    else [⟨.lookaheadDepth,
      "lookahead_depth_exceeded:" ++ toString (maxActiveSteps refinedEvents)⟩]) ++
  (neighbours steps).flatMap fun pair => pairFindings refinedEvents policy pair.1 pair.2

end Validation

def validateRefinedCorridor (corridor : APIMicroCorridor) (steps : List APIBatchStep)
    (refinedEvents : List APIMicroEvent) (policy : APIMicroRefinementPolicy) :
    APIMicroValidationResult :=
  let findings := validationFindings refinedEvents policy corridor.stepIds steps
  let ok (check : APICheck) := findings.all fun finding => finding.check ≠ check
  { passed := findings.isEmpty
    coarseCompletionOrderPreserved := ok .completionOrder
    phaseOrderValid := ok .phaseOrder
    requestSendConstraintsOk := ok .requestSend
    lookaheadDepthOk := ok .lookaheadDepth
    coordinatorConstraintsOk := ok .coordinator
    parallelUpdatesConstraintsOk := ok .parallelUpdates
    sessionConstraintsOk := ok .session
    backoffConstraintsOk := ok .backoff
    writebackConstraintsOk := true
    eventLoopConstraintsOk := ok .eventLoop
    cadenceConstraintsOk := true
    availabilityConstraintsOk := ok .availability
    reasons := findings.map Finding.reason }

/-! ## Refining a corridor -/

structure APIMicroCorridorResult where
  corridor : APIMicroCorridor
  serialEvents : List APIMicroEvent
  refinedEvents : List APIMicroEvent
  refinedLatencyMs : ℤ
  latencySavedMs : ℤ
  validation : APIMicroValidationResult

/-- `max((event.end_ms for event in events), default=0)`. -/
def lastEnd (events : List APIMicroEvent) : ℤ :=
  match events.map APIMicroEvent.endMs with
  | [] => 0
  | endMs :: rest => rest.foldl max endMs

/-- The steps by their ids. -/
def stepsById (steps : List APIBatchStep) : OrderedDict String APIBatchStep :=
  .ofList (steps.map fun step => (step.stepId, step))

def refineCorridor (policy : APIMicroRefinementPolicy)
    (stepsById : OrderedDict String APIBatchStep) (corridor : APIMicroCorridor) :
    Except PyErr APIMicroCorridorResult := do
  let steps := corridor.stepIds.filterMap stepsById.get?
  let refinedEvents ← expandRefinedSteps policy steps
  let validation := validateRefinedCorridor corridor steps refinedEvents policy
  return {
    corridor := corridor
    serialEvents := serialEventsForSteps policy steps
    refinedEvents := refinedEvents
    refinedLatencyMs := lastEnd refinedEvents
    latencySavedMs :=
      if validation.passed then max 0 (corridor.originalLatencyMs - lastEnd refinedEvents) else 0
    validation := validation }

end FloWeaver.Micro.Api
