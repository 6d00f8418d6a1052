import FloWeaver.Scheduler.Context

/-!
# Admission of an action to a batch

A ready action joins the batch under construction when no limit, rule or barrier speaks
against it.

* `conservative…Compatible` — which actions may run side by side in conservative mode.
* `phaseBarrierBlocks`, `minGapConflict`, `budgetConflict`, `overlapConflict` — the rules.
* `candidateAllowedInBatch` — the whole test.
* `applyPickToBatchState` — the counters after the pick.
-/

namespace FloWeaver.Scheduler

open Py

variable (ctx : Ctx)

/-- A cloud or local read: the actions the conservative rules may overlap. -/
def isApiRead (actionId : String) : Bool :=
  (ctx.protocol actionId = .cloud || ctx.protocol actionId = .localNet) &&
    !ctx.isWriteback actionId && ctx.isBatchSafe actionId

/-- The ready actions that are neither the candidate nor selected. -/
def otherReady (candidate : String) (selected ready : List String) : List String :=
  ready.filter fun a => a ≠ candidate && !selected.contains a

/-! ## Conservative compatibility -/

def conservativeLocalParallelCompatible (candidate : String) (selected : List String) : Bool :=
  (candidate :: selected).all fun a =>
    ctx.protocol a = .localNet && !ctx.isWriteback a && ctx.isBatchSafe a

def conservativeCloudReadParallelCompatible (candidate : String) (selected ready : List String) :
    Bool :=
  let isCloudRead (a : String) : Bool :=
    ctx.protocol a = .cloud && !ctx.isWriteback a && ctx.isReadLike a
  let phase := ctx.phase candidate
  isCloudRead candidate &&
  (phase = .preControlAcquisition || phase = .postControlVerification) &&
  selected.all (fun a => isCloudRead a && ctx.lane a = ctx.lane candidate &&
    ctx.phase a = phase && !ctx.softOrdered a candidate) &&
  2 ≤ selected.length &&
  !(otherReady candidate selected ready).any fun a =>
    isCloudRead a && ctx.phase a = phase && ctx.rank a < ctx.rank candidate

def conservativeWritebackParallelCompatible (candidate : String) (selected : List String) : Bool :=
  let isLaneWriteback (a : String) : Bool :=
    (ctx.lane a).isWriteback && ctx.lane a ≠ .writebackOverall
  let targetId := writebackTargetId (ctx.action candidate)
  isLaneWriteback candidate && targetId ≠ "" &&
    selected.all fun a => isLaneWriteback a && writebackTargetId (ctx.action a) ≠ targetId

/-- A ready read of the leading protocol that could still join the reads already selected. -/
def leadingProtocolWaits (candidate : String) (selected ready : List String)
    (leading : Protocol) : Bool :=
  let leadingSelected := selected.filter fun a => ctx.protocol a = leading
  (otherReady candidate selected ready).any fun a =>
    ctx.protocol a = leading && !ctx.isWriteback a && ctx.isBatchSafe a &&
    if leading = .localNet then conservativeLocalParallelCompatible ctx a leadingSelected
    else (leadingSelected.all fun s => ctx.protocol s = leading && ctx.lane s = ctx.lane a) &&
      ctx.sharesAffinityToken a leadingSelected

def conservativeCrossProtocolReadParallelCompatible (candidate : String)
    (selected ready : List String) : Bool :=
  if selected.isEmpty then true
  else
    let phase := ctx.phase candidate
    let reads := selected.filter (isApiRead ctx)
    let others := otherReady candidate selected ready
    let earlierVerification := phase = .postControlVerification && others.any fun a =>
      !ctx.isWriteback a && ctx.isBatchSafe a && ctx.phase a = .postControlVerification &&
        ctx.rank a < ctx.rank candidate
    let earlierSameProtocol := others.any fun a =>
      ctx.protocol a = ctx.protocol candidate && !ctx.isWriteback a && ctx.isBatchSafe a &&
        ctx.rank a < ctx.rank candidate
    let leadingWaits :=
      match reads.head? with
      | some first => ctx.protocol candidate ≠ ctx.protocol first &&
          leadingProtocolWaits ctx candidate selected ready (ctx.protocol first)
      | none => false
    isApiRead ctx candidate &&
    (phase = .preControlAcquisition || phase = .postControlVerification) &&
    reads.all (fun a => ctx.phase a = phase) &&
    !earlierVerification && !earlierSameProtocol && !leadingWaits &&
    selected.all (fun a => isApiRead ctx a && !ctx.softOrdered a candidate) &&
    selected.any fun a => ctx.protocol a ≠ ctx.protocol candidate

/-- A cloud or local read before the control actions. -/
def corridorActionEligible (actionId : String) : Bool :=
  ctx.phase actionId = .preControlAcquisition && isApiRead ctx actionId

/-- A BLE action before the control actions. -/
def bleFrontierAnchorEligible (actionId : String) : Bool :=
  ctx.protocol actionId = .ble && !ctx.isWriteback actionId &&
    ctx.phase actionId = .preControlAcquisition

/-- The reads that may run beside a BLE action. -/
def apiFrontierActionEligible (actionId : String) : Bool := corridorActionEligible ctx actionId

def conservativeBleApiFrontierCompatible (candidate : String) (selected ready : List String) :
    Bool :=
  let prospective := selected ++ [candidate]
  match prospective.filter fun a => ctx.protocol a = .ble with
  | [ble] =>
    let latestRank (protocol : Protocol) : ℕ :=
      ((prospective.filter fun a => ctx.protocol a = protocol).map ctx.rank).foldl max 0
    let earlierReady (protocol : Protocol) : Bool :=
      (prospective.any fun a => ctx.protocol a = protocol) &&
      ready.any fun a => !prospective.contains a && ctx.protocol a = protocol &&
        apiFrontierActionEligible ctx a && ctx.rank a < latestRank protocol
    prospective.all (fun a =>
      ctx.protocol a = .ble || ctx.protocol a = .cloud || ctx.protocol a = .localNet) &&
    bleFrontierAnchorEligible ctx ble &&
    (prospective.filter (· ≠ ble)).all (fun a =>
      apiFrontierActionEligible ctx a && !ctx.softOrdered a ble) &&
    selected.all (fun a => !ctx.softOrdered a candidate) &&
    !ctx.sharesAffinityToken ble (prospective.filter (· ≠ ble)) &&
    !earlierReady .cloud && !earlierReady .localNet
  | _ => false

def conservativeBatchCompatible (allowBleApiFrontier : Bool) (candidate : String)
    (selected ready : List String) : Bool :=
  if selected.isEmpty then true
  else if ctx.isWriteback candidate || selected.any ctx.isWriteback then
    conservativeWritebackParallelCompatible ctx candidate selected
  else if conservativeCrossProtocolReadParallelCompatible ctx candidate selected ready then true
  else if allowBleApiFrontier &&
      conservativeBleApiFrontierCompatible ctx candidate selected ready then true
  else if ctx.protocol candidate = .localNet then
    conservativeLocalParallelCompatible ctx candidate selected
  else if ctx.protocol candidate = .cloud &&
      conservativeCloudReadParallelCompatible ctx candidate selected ready then true
  else if ctx.protocol candidate = .ble || ctx.protocol candidate = .cloud then
    selected.all (fun a => ctx.protocol a = ctx.protocol candidate &&
      ctx.lane a = ctx.lane candidate) && ctx.sharesAffinityToken candidate selected
  else false

/-! ## Barriers and conflicts -/

/-- Verification waits for every control action; control does not join a verification. -/
def phaseBarrierBlocks (candidate : String) (selected done : List String) : Bool :=
  match ctx.phase candidate with
  | .postControlVerification =>
      ctx.phases.any fun row => row.1 ≠ candidate && row.2 = .control && !done.contains row.1
  | .control => selected.any fun a => ctx.phase a = .postControlVerification
  | _ => false

/-- Before any control action exists, an earlier ready read that fits goes first. -/
def snapshotFrontierBlocksCandidate (candidate : String) (selected ready : List String) : Bool :=
  !selected.isEmpty &&
  !(ctx.phases.any fun row => row.2 = .control || row.2 = .postControlVerification) &&
  corridorActionEligible ctx candidate &&
  (otherReady candidate selected ready).any fun a =>
    corridorActionEligible ctx a && ctx.rank a < ctx.rank candidate &&
      conservativeBatchCompatible ctx false a selected ready

def minGapConflict (candidate : String) (selected : List String) : Bool :=
  selected.any fun src => ctx.derived.minGapPairs.keys.contains (src, candidate)

def budgetConflict (candidate : String) (budgetCounts : ℕ → ℤ) : Bool :=
  (ctx.budgetRuleIds candidate).any fun ruleId =>
    match ctx.derived.budgetRules[ruleId]? with
    | some rule => budgetCounts ruleId ≥ max 1 rule.limit
    | none => false

def overlapConflict (candidate : String) (noOverlapCounts : ℕ → ℤ) : Bool :=
  (ctx.overlapScopeIds candidate).any fun scopeId => noOverlapCounts scopeId > 0

/-! ## Occupancy -/

/-- A cloud call costs a request when it opens a bucket. -/
def cloudRequestIncrement (actionId : String) (cloudRequestCounts : String → ℤ) : ℤ :=
  let (bucket, maxBatchSize) := ctx.cloudRequestSlot actionId
  if cloudRequestCounts bucket % max 1 maxBatchSize = 0 then 1 else 0

/-- A local read costs nothing beside the local reads it is compatible with. -/
def localFrontierIncrement (candidate : String) (selected : List String) : ℤ :=
  if ctx.isWriteback candidate || !ctx.isBatchSafe candidate then 1
  else
    let locals := selected.filter fun a => ctx.protocol a = .localNet
    if locals.any (fun a => ctx.isWriteback a || !ctx.isBatchSafe a ||
        ctx.phase a ≠ ctx.phase candidate || ctx.softOrdered a candidate) then 1
    else if locals.isEmpty then 1 else 0

def candidateOccupancyIncrement (candidate : String) (selected : List String)
    (cloudRequestCounts : String → ℤ) : ℤ :=
  match ctx.protocol candidate with
  | .cloud => cloudRequestIncrement ctx candidate cloudRequestCounts
  | .localNet => localFrontierIncrement ctx candidate selected
  | _ => 1

/-! ## The test and the pick -/

/-- May the candidate join the batch?  One line for each reason against it. -/
def candidateAllowedInBatch (allowBleApiFrontier : Bool) (actionId : String)
    (st : BatchBuildState) (ready done : List String) : Bool :=
  let selected := st.selected
  let derived := ctx.derived
  let resource := ctx.protocol actionId
  let increment := candidateOccupancyIncrement ctx actionId selected st.cloudRequestCounts
  !(st.unknownCount ≥ derived.unknownLimit && !selected.isEmpty) &&
  !(selected.any ctx.isFat) &&
  !(ctx.conservativeGrouping && selected.length ≥ derived.totalLimit && increment > 0 &&
    (resource ≠ .cloud ||
      !conservativeCloudReadParallelCompatible ctx actionId selected ready)) &&
  !phaseBarrierBlocks ctx actionId selected done &&
  !snapshotFrontierBlocksCandidate ctx actionId selected ready &&
  !(ctx.conservativeGrouping &&
    !conservativeBatchCompatible ctx allowBleApiFrontier actionId selected ready) &&
  !(ctx.isFat actionId && !selected.isEmpty) &&
  !(ctx.isWriteback actionId && selected.any ctx.isFat) &&
  !(ctx.isFat actionId && selected.any ctx.isWriteback) &&
  !(st.totalOccupancy + increment > derived.totalLimit) &&
  !(resource = .ble && st.bleCount ≥ derived.bleLimit) &&
  !(resource = .cloud && st.cloudCount + increment > derived.cloudLimit) &&
  !(resource = .localNet && st.localCount ≥ derived.localLimit) &&
  !(resource = .unknown && (st.unknownCount ≥ derived.unknownLimit || !selected.isEmpty)) &&
  !budgetConflict ctx actionId st.budgetCounts &&
  !overlapConflict ctx actionId st.noOverlapCounts &&
  !minGapConflict ctx actionId selected

/-- Counts one more at every place of a list. -/
def bump {κ : Type} [DecidableEq κ] (counts : κ → ℤ) (places : List κ) : κ → ℤ :=
  places.foldl (fun counts k => Function.update counts k (counts k + 1)) counts

/-- The batch after a pick. -/
def applyPickToBatchState (picked : String) (st : BatchBuildState) : BatchBuildState :=
  let resource := ctx.protocol picked
  let increment := candidateOccupancyIncrement ctx picked st.selected st.cloudRequestCounts
  { selected := st.selected ++ [picked]
    totalOccupancy := st.totalOccupancy + increment
    bleCount := if resource = .ble then st.bleCount + 1 else st.bleCount
    cloudCount := if resource = .cloud then st.cloudCount + increment else st.cloudCount
    cloudRequestCounts :=
      if resource = .cloud then bump st.cloudRequestCounts [(ctx.cloudRequestSlot picked).1]
      else st.cloudRequestCounts
    localCount := if resource = .localNet then st.localCount + 1 else st.localCount
    unknownCount := if resource = .unknown then st.unknownCount + 1 else st.unknownCount
    budgetCounts := bump st.budgetCounts (ctx.budgetRuleIds picked)
    noOverlapCounts := bump st.noOverlapCounts (ctx.overlapScopeIds picked)
    selectedGroupCounts := bump st.selectedGroupCounts (ctx.affinityTokens picked) }

end FloWeaver.Scheduler
