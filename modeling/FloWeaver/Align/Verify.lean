import FloWeaver.Align.Search

/-!
# The relational check

An alignment is checked against both versions: the observations of its pairs and blocks, the order
of the cleanups, the use of the resources, and the required targets of the final state.

* `requiredTraceNodes`, `requiredFinalNodes` — the nodes that have to be aligned.
* `traceViolations`, `resourceViolations`, `finalStateViolations` — what goes wrong.
* `checkRelationalConsistency` — the obligations, the violations and the verdict.
* `materializeAlignmentMap` — the alignment without what a trace conflict touches.
* `inferSuspiciousRegions` — where to look for a counterexample.
* `runAlignmentVerification` — the procedure.
-/

namespace FloWeaver.Align

open Py Ir

inductive ViolationKind where
  | traceAnchorConflict
  | resourceProtocolConflict
  | finalStateFlowConflict
deriving DecidableEq

structure AlignmentViolation where
  violationId : String := ""
  kind : ViolationKind
  baselineScope : List String
  optimizedScope : List String
  note : String
  severity : ℚ := 1

inductive ObligationStatus where
  | failed
  | pending
  | discharged
deriving DecidableEq

structure ProofObligation where
  obligationId : String
  kind : String
  baselineScope : List String
  optimizedScope : List String
  status : ObligationStatus
  note : Option String

inductive Verdict where
  | violated
  | proved
  | partiallyProved
  | unknown
deriving DecidableEq

/-! ## Reading the programs -/

/-- `_aligned_node_sets`, as lists. -/
def alignedNodes (pairs : List AlignedPair) (blocks : List AlignedBlock) :
    List String × List String :=
  (pairs.map (·.baselineNodeId) ++ blocks.flatMap (·.baselineNodeIds),
    pairs.map (·.optimizedNodeId) ++ blocks.flatMap (·.optimizedNodeIds))

/-- The kind and the action of one effect. -/
def effectKey (effect : Dict) : String × String :=
  ((effect.getD "resource_kind" (.str "generic")).pyStr, (effect.getD "action" (.str "")).pyStr)

/-- `_resource_effect_counter`. -/
def resourceEffectCounter (program : IRProgram) : Except PyErr (Multiset (String × String)) := do
  let nodes ← program.order.mapM program.node
  return (nodes.flatMap fun node => node.summary.resourceEffects.map effectKey :
    List (String × String))

/-- `_cleanup_positions`. -/
def cleanupPositions (program : IRProgram) : Except PyErr (List ℕ) := do
  let kinds ← program.order.mapM (nodeKind program)
  return (List.range kinds.length).filter fun idx => kinds[idx]? = some "CLEANUP"

/-- `_critical_unmatched`. -/
def criticalUnmatched (program : IRProgram) (nodeIds : List String) :
    Except PyErr (List String) :=
  program.nodesWith isCritical nodeIds

/-- A node that is observed and has to be. -/
def isRequiredTrace (schema : CounterexampleObservationSchema) (node : IRNode) : Bool :=
  node.observationBoundary && ((schema.anchorOps ++ schema.semanticOps).contains node.summary.op ||
    schema.requiredStateWrites.contains node.summary.target)

/-- `_required_trace_nodes`. -/
def requiredTraceNodes (program : IRProgram) (schema : CounterexampleObservationSchema) :
    Except PyErr (List String) :=
  program.nodesWith (isRequiredTrace schema) program.order

/-- A node that writes, or whose target the final state needs. -/
def isRequiredFinal (schema : CounterexampleObservationSchema) (node : IRNode) : Bool :=
  !node.summary.semanticUpdates.isEmpty ||
    ((schema.requiredStateWrites ++ schema.requiredFinalState.map (·.1)).contains
        node.summary.target &&
      ["UPDATE", "ACT", "CHECK"].contains (node.nodeKind "ACT"))

/-- `_required_final_nodes`. -/
def requiredFinalNodes (program : IRProgram) (schema : CounterexampleObservationSchema) :
    Except PyErr (List String) :=
  program.nodesWith (isRequiredFinal schema) program.order

/-! ## Resources -/

/-- How a program uses one kind of resource. -/
structure RuleSummary where
  acquireCount : ℕ
  releaseCount : ℕ
  requiredBeforeViolations : ℕ
  missingRelease : Bool
  overlapViolation : Bool
deriving DecidableEq

/-- The counters while the operations are read. -/
structure RuleScan where
  openCount : ℕ := 0
  maxOpen : ℕ := 0
  acquireCount : ℕ := 0
  releaseCount : ℕ := 0
  requiredBeforeViolations : ℕ := 0
  acquired : Bool := false

def RuleScan.step (rule : ResourceRule) (scan : RuleScan) (op : String) : RuleScan :=
  let scan := if rule.acquireOps.contains op then
      { scan with
        acquireCount := scan.acquireCount + 1
        openCount := scan.openCount + 1
        acquired := true
        maxOpen := max scan.maxOpen (scan.openCount + 1) }
    else scan
  let scan := if rule.requiredBefore.contains op && !scan.acquired then
      { scan with requiredBeforeViolations := scan.requiredBeforeViolations + 1 }
    else scan
  if rule.releaseOps.contains op then
    { scan with
      releaseCount := scan.releaseCount + 1
      openCount := scan.openCount - 1 }
  else scan

/-- `_resource_rule_summary`. -/
def resourceRuleSummary (program : IRProgram) (rule : ResourceRule) : Except PyErr RuleSummary := do
  let nodes ← program.order.mapM program.node
  let scan := (nodes.map (·.summary.op)).foldl (RuleScan.step rule) {}
  return {
    acquireCount := scan.acquireCount
    releaseCount := scan.releaseCount
    requiredBeforeViolations := scan.requiredBeforeViolations
    missingRelease := rule.mustRelease && scan.acquireCount ≠ scan.releaseCount
    overlapViolation := rule.forbidOverlap && 1 < scan.maxOpen }

def RuleSummary.hasIssue (summary : RuleSummary) : Bool :=
  summary.missingRelease || summary.overlapViolation || summary.requiredBeforeViolations ≠ 0

/-! ## Violations -/

section Check

variable (baselineIr optimizedIr : IRProgram) (schema : CounterexampleObservationSchema)

/-- What a block does to the observations. -/
def blockViolations (block : AlignedBlock) : Except PyErr (List AlignmentViolation) := do
  let leftSig ← blockObservationSignature baselineIr block.baselineNodeIds
  let rightSig ← blockObservationSignature optimizedIr block.optimizedNodeIds
  let conflict (note : String) : AlignmentViolation :=
    { kind := .traceAnchorConflict
      baselineScope := block.baselineNodeIds
      optimizedScope := block.optimizedNodeIds
      note := note }
  if block.relation = "STUTTER" then
    if leftSig ≠ 0 ∨ rightSig ≠ 0 then
      return [conflict "stutter block crosses observation boundary"]
    return []
  if leftSig ≠ rightSig then
    return [conflict "aligned block does not preserve observable anchor multiset"]
  return []

/-- What a pair does to the observations and the resources. -/
def pairViolations (pair : AlignedPair) : List AlignmentViolation :=
  (if isCompatible pair.observationCompatibility false then []
    else [{
      kind := .traceAnchorConflict
      baselineScope := [pair.baselineNodeId]
      optimizedScope := [pair.optimizedNodeId]
      note := "pair crosses observation boundary or changes trace anchor" }]) ++
  if isCompatible pair.resourceCompatibility true then []
    else [{
      kind := .resourceProtocolConflict
      baselineScope := [pair.baselineNodeId]
      optimizedScope := [pair.optimizedNodeId]
      note := "resource claims are not compatible" }]

/-- The first cleanup does not move forward. -/
def cleanupViolations : Except PyErr (List AlignmentViolation) := do
  match ← cleanupPositions baselineIr, ← cleanupPositions optimizedIr with
  | b :: _, o :: _ =>
      if o < b then
        return [{
          kind := .resourceProtocolConflict
          baselineScope := baselineIr.order[b]?.toList
          optimizedScope := optimizedIr.order[o]?.toList
          note := "cleanup appears earlier in optimized flow" }]
      return []
  | _, _ => return []

/-- Both versions have the same effects on the resources. -/
def effectViolations : Except PyErr (List AlignmentViolation) := do
  if (← resourceEffectCounter baselineIr) ≠ (← resourceEffectCounter optimizedIr) then
    return [{
      kind := .resourceProtocolConflict
      baselineScope := baselineIr.order
      optimizedScope := optimizedIr.order
      note := "resource effect multiset differs between versions" }]
  return []

/-- Both versions use one kind of resource the same way. -/
def ruleViolations (row : String × ResourceRule) : Except PyErr (List AlignmentViolation) := do
  let baselineSummary ← resourceRuleSummary baselineIr row.2
  let optimizedSummary ← resourceRuleSummary optimizedIr row.2
  if baselineSummary ≠ optimizedSummary then
    return [{
      kind := .resourceProtocolConflict
      baselineScope := baselineIr.order
      optimizedScope := optimizedIr.order
      note := "resource protocol differs for " ++ row.1
      severity := 0.9 }]
  if optimizedSummary.hasIssue && !baselineSummary.hasIssue then
    return [{
      kind := .resourceProtocolConflict
      baselineScope := baselineIr.order
      optimizedScope := optimizedIr.order
      note := "optimized flow violates resource protocol for " ++ row.1
      severity := 0.95 }]
  return []

/-- The targets of the required writes, with multiplicity. -/
def requiredTargets (program : IRProgram) : Except PyErr (Multiset String) := do
  let nodes ← program.order.mapM program.node
  return ((nodes.map (·.summary.target)).filter (schema.requiredStateWrites.contains ·) :
    List String)

/-- Both versions have the same required targets. -/
def targetViolations (requiredBaseline requiredOptimized : List String) :
    Except PyErr (List AlignmentViolation) := do
  if schema.requiredStateWrites.isEmpty then return []
  if (← requiredTargets schema baselineIr) ≠ (← requiredTargets schema optimizedIr) then
    return [{
      kind := .finalStateFlowConflict
      baselineScope := requiredBaseline
      optimizedScope := requiredOptimized
      note := "required final-state targets differ between versions"
      severity := 0.9 }]
  return []

/-- `f"viol_{len(violations):03d}"`. -/
def violationId (idx : ℕ) : String :=
  let digits := toString idx
  "viol_" ++ String.ofList (List.replicate (3 - digits.length) '0') ++ digits

/-! ## The verdict -/

def someIf (test : Bool) (note : String) : Option String := if test then some note else none

/-- The status of an obligation. -/
def obligationStatus (failed pending : Bool) : ObligationStatus :=
  if failed then .failed else if pending then .pending else .discharged

/-- `check_relational_consistency`. -/
def checkRelationalConsistency (alignment : ProvisionalAlignment) (model : ResourceModel) :
    Except PyErr (List ProofObligation × List AlignmentViolation × Verdict) := do
  let aligned := alignedNodes alignment.alignedPairs alignment.alignedBlocks
  let ofBlocks ← alignment.alignedBlocks.mapM (blockViolations baselineIr optimizedIr)
  let ofCleanups ← cleanupViolations baselineIr optimizedIr
  let traceBaseline ← requiredTraceNodes baselineIr schema
  let traceOptimized ← requiredTraceNodes optimizedIr schema
  let unmatchedTraceBaseline := traceBaseline.filter fun nodeId => !aligned.1.contains nodeId
  let unmatchedTraceOptimized := traceOptimized.filter fun nodeId => !aligned.2.contains nodeId
  let finalBaseline ← requiredFinalNodes baselineIr schema
  let finalOptimized ← requiredFinalNodes optimizedIr schema
  let unmatchedFinalBaseline := finalBaseline.filter fun nodeId => !aligned.1.contains nodeId
  let unmatchedFinalOptimized := finalOptimized.filter fun nodeId => !aligned.2.contains nodeId
  let ofEffects ← effectViolations baselineIr optimizedIr
  let ofRules ← model.rules.rows.mapM (ruleViolations baselineIr optimizedIr)
  let ofTargets ← targetViolations baselineIr optimizedIr schema finalBaseline finalOptimized
  let found := ofBlocks.flatten ++ alignment.alignedPairs.flatMap pairViolations ++ ofCleanups ++
    ofEffects ++ ofRules.flatten ++ ofTargets
  let violations := found.mapIdx fun idx violation =>
    { violation with violationId := violationId idx }
  let failed (kind : ViolationKind) : Bool := violations.any (·.kind = kind)
  let criticalBaseline ← criticalUnmatched baselineIr alignment.unmatchedBaselineNodes
  let criticalOptimized ← criticalUnmatched optimizedIr alignment.unmatchedOptimizedNodes
  let tracePending := !(unmatchedTraceBaseline.isEmpty && unmatchedTraceOptimized.isEmpty)
  let finalPending := !(unmatchedFinalBaseline.isEmpty && unmatchedFinalOptimized.isEmpty)
  let criticalPending := !(criticalBaseline.isEmpty && criticalOptimized.isEmpty)
  let resourceFailed := failed .resourceProtocolConflict
  let obligations : List ProofObligation := [
    { obligationId := "obl_trace_eq"
      kind := "TRACE_EQ"
      baselineScope :=
        if unmatchedTraceBaseline.isEmpty then traceBaseline else unmatchedTraceBaseline
      optimizedScope :=
        if unmatchedTraceOptimized.isEmpty then traceOptimized else unmatchedTraceOptimized
      status := obligationStatus (failed .traceAnchorConflict) tracePending
      note := someIf tracePending "required observation anchors remain unaligned" },
    { obligationId := "obl_final_state_eq"
      kind := "FINAL_STATE_EQ"
      baselineScope := unmatchedFinalBaseline
      optimizedScope := unmatchedFinalOptimized
      status := obligationStatus (failed .finalStateFlowConflict) finalPending
      note := someIf finalPending "required final-state flow remains unproved" },
    { obligationId := "obl_resource_protocol"
      kind := "RESOURCE_PROTOCOL_PRESERVATION"
      baselineScope := baselineIr.order
      optimizedScope := optimizedIr.order
      status := obligationStatus resourceFailed criticalPending
      note := someIf (!resourceFailed && criticalPending)
        "resource protocol needs counterexample search" }]
  let coverage := alignment.coverage
  let highRiskUnmatched := tracePending || finalPending || criticalPending
  let verdict : Verdict :=
    if !violations.isEmpty then .violated
    else if 0.999 ≤ coverage.observableRatio && 0.999 ≤ coverage.criticalRatio &&
        !highRiskUnmatched then .proved
    else if 0.6 ≤ coverage.criticalRatio && !failed .traceAnchorConflict && !resourceFailed then
      .partiallyProved
    else .unknown
  return (obligations, violations, verdict)

end Check

end FloWeaver.Align

/-!
## Alignment verification

The whole procedure: both programs are normalised, candidates are generated and extended by the
rules, the search selects an alignment, and the check gives the verdict.
-/

namespace FloWeaver.Align

open Py Ir

structure SuspiciousRegion where
  regionId : String := ""
  baselineNodeIds : List String
  optimizedNodeIds : List String
  reason : String
  severity : ℚ

structure AlignmentMap where
  nodeAlignments : List AlignedPair
  blockAlignments : List AlignedBlock
  unmatchedBaselineNodes : List String
  unmatchedOptimizedNodes : List String
  suspiciousRegions : List SuspiciousRegion := []

structure AlignmentResult where
  verdict : Verdict
  alignmentMap : AlignmentMap
  proofObligations : List ProofObligation
  violations : List AlignmentViolation
  coverage : Coverage

/-! ## The alignment map -/

/-- Does a conflict touch one of these nodes? -/
def intersectsScope (baselineIds optimizedIds : List String) (violation : AlignmentViolation) :
    Bool :=
  overlaps baselineIds violation.baselineScope || overlaps optimizedIds violation.optimizedScope

/-- The nodes of the open obligations that are not aligned. -/
def openScope (scope : ProofObligation → List String) (aligned : List String)
    (obligations : List ProofObligation) : List String :=
  (obligations.filter (·.status ≠ .discharged)).flatMap fun obligation =>
    (scope obligation).filter fun nodeId => !aligned.contains nodeId

/-- `materialize_alignment_map`. -/
def materializeAlignmentMap (alignment : ProvisionalAlignment)
    (obligations : List ProofObligation) (violations : List AlignmentViolation) : AlignmentMap :=
  let traceConflicts := violations.filter (·.kind = .traceAnchorConflict)
  let retainedPairs := alignment.alignedPairs.filter fun pair =>
    !traceConflicts.any (intersectsScope [pair.baselineNodeId] [pair.optimizedNodeId])
  let retainedBlocks := alignment.alignedBlocks.filter fun block =>
    !traceConflicts.any (intersectsScope block.baselineNodeIds block.optimizedNodeIds)
  let aligned := alignedNodes retainedPairs retainedBlocks
  { nodeAlignments := retainedPairs
    blockAlignments := retainedBlocks
    unmatchedBaselineNodes := (alignment.unmatchedBaselineNodes ++
      openScope (·.baselineScope) aligned.1 obligations).eraseDups
    unmatchedOptimizedNodes := (alignment.unmatchedOptimizedNodes ++
      openScope (·.optimizedScope) aligned.2 obligations).eraseDups }

/-! ## Suspicious regions -/

/-- `_REASON_FROM_VIOLATION`. -/
def reasonFromViolation : ViolationKind → String
  | .traceAnchorConflict => "OBSERVATION_BOUNDARY_RISK"
  | .resourceProtocolConflict => "RESOURCE_MISMATCH"
  | .finalStateFlowConflict => "UNSUPPORTED_PATTERN"

/-- `f"sr_{len(regions):03d}"`. -/
def regionId (idx : ℕ) : String :=
  let digits := toString idx
  "sr_" ++ String.ofList (List.replicate (3 - digits.length) '0') ++ digits

/-- What tells two regions apart. -/
def regionKey (region : SuspiciousRegion) : List String × List String × String :=
  (sortedStr region.baselineNodeIds, sortedStr region.optimizedNodeIds, region.reason)

/-- `add_region`: the first region of a key is kept. -/
def addRegion (regions : List SuspiciousRegion) (region : SuspiciousRegion) :
    List SuspiciousRegion :=
  if (regions.map regionKey).contains (regionKey region) then regions
  else regions ++ [{ region with regionId := regionId regions.length }]

/-- A region for an alignment with little confidence. -/
def lowConfidenceRegion (baselineIds optimizedIds : List String) (confidence : ℚ) :
    List SuspiciousRegion :=
  if confidence < 0.75 then
    [{ baselineNodeIds := baselineIds, optimizedNodeIds := optimizedIds
       reason := "LOW_CONFIDENCE_ALIGNMENT", severity := 1 - confidence }]
  else []

/-- The regions in the order in which they are added. -/
def suspiciousRegions (map : AlignmentMap) (obligations : List ProofObligation)
    (violations : List AlignmentViolation) (baselineIr optimizedIr : IRProgram) :
    Except PyErr (List SuspiciousRegion) := do
  let criticalBaseline ← criticalUnmatched baselineIr map.unmatchedBaselineNodes
  let criticalOptimized ← criticalUnmatched optimizedIr map.unmatchedOptimizedNodes
  return (map.nodeAlignments.flatMap fun pair =>
      lowConfidenceRegion [pair.baselineNodeId] [pair.optimizedNodeId] pair.confidence) ++
    (map.blockAlignments.flatMap fun block =>
      lowConfidenceRegion block.baselineNodeIds block.optimizedNodeIds block.confidence) ++
    (violations.map fun violation =>
      { baselineNodeIds := violation.baselineScope, optimizedNodeIds := violation.optimizedScope
        reason := reasonFromViolation violation.kind, severity := max 0.8 violation.severity }) ++
    ((obligations.filter (·.status = .pending)).map fun obligation =>
      { baselineNodeIds := obligation.baselineScope, optimizedNodeIds := obligation.optimizedScope
        reason := if obligation.kind = "TRACE_EQ" then "OBSERVATION_BOUNDARY_RISK"
          else "UNSUPPORTED_PATTERN"
        severity := 0.75 }) ++
    (criticalBaseline.map fun nodeId =>
      { baselineNodeIds := [nodeId], optimizedNodeIds := []
        reason := "UNSUPPORTED_PATTERN", severity := 0.85 }) ++
    criticalOptimized.map fun nodeId =>
      { baselineNodeIds := [], optimizedNodeIds := [nodeId]
        reason := "UNSUPPORTED_PATTERN", severity := 0.85 }

/-- `infer_suspicious_regions`. -/
def inferSuspiciousRegions (map : AlignmentMap) (obligations : List ProofObligation)
    (violations : List AlignmentViolation) (baselineIr optimizedIr : IRProgram) :
    Except PyErr (List SuspiciousRegion) := do
  return (← suspiciousRegions map obligations violations baselineIr optimizedIr).foldl addRegion []

/-! ## The procedure -/

section Run

variable (baselineIr optimizedIr : IRProgram) (schema : CounterexampleObservationSchema)
variable (model : ResourceModel) (rules : List String) (config : AlignmentConfig)

/-- The alignment of two normalised programs. -/
def alignPrograms : Except PyErr ProvisionalAlignment := do
  let (candidatePairs, candidateBlocks) ←
    generateAlignmentCandidates baselineIr optimizedIr schema model config
  let (expandedPairs, expandedBlocks) ← applyRealignmentRules baselineIr optimizedIr candidatePairs
    candidateBlocks (normalizeAlignmentRules rules) config.maxRuleApplications
  let graph ← buildAlignmentGraph baselineIr optimizedIr schema model expandedPairs expandedBlocks
  searchAlignment graph config

/-- `run_alignment_verification`. -/
def runAlignmentVerification : Except PyErr AlignmentResult := do
  let normalizedBaseline ← normalizeIr schema baselineIr
  let normalizedOptimized ← normalizeIr schema optimizedIr
  let alignment ← alignPrograms normalizedBaseline normalizedOptimized schema model rules config
  let (obligations, violations, verdict) ← checkRelationalConsistency normalizedBaseline
    normalizedOptimized schema alignment model
  let map := materializeAlignmentMap alignment obligations violations
  let regions ←
    inferSuspiciousRegions map obligations violations normalizedBaseline normalizedOptimized
  return {
    verdict := verdict
    alignmentMap := { map with suspiciousRegions := regions }
    proofObligations := obligations
    violations := violations
    coverage := alignment.coverage }

end Run

end FloWeaver.Align
