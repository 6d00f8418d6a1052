import FloWeaver.Counterexample.Executor
import FloWeaver.Counterexample.ResourceCheck
import FloWeaver.Lib.BestFirst
import FloWeaver.Trace.Observation

/-!
# The search for counterexamples

The configurations of the unified graph are searched from the first rank on.  One that diverges
gives a witness, any other one its successors; the witness that is least is returned.

* `checkTraceMismatch`, `checkFinalStateMismatch`, `checkUnsupportedAlignment` — the checks.
* `checkDivergence` — all of them, in order.
* `rankConfig` — which configuration is visited first.
* `materializeWitness`, `minimizeWitnesses` — the witness of a configuration, and the least one.
* `generateCounterexample` — the search.
-/

namespace FloWeaver.Counterexample

open Py Ir Trace Align BestFirst

/-! ## The checks of a configuration

A configuration diverges when its alignment is not supported, when the traces of the two sides are
not tolerantly equal, when their final states differ, or when the resource protocol is broken.  A
difference of traces is left to the check of resources when its first hunk names operations of the
resource protocol only.
-/

/-- The schema, with the settings under which traces are compared. -/
structure DivergenceSchema extends CounterexampleObservationSchema where
  traceCompareConfig : TraceCompareConfig := {}

def traceMismatch : String := "TRACE_MISMATCH"

def finalStateMismatch : String := "FINAL_STATE_MISMATCH"

def unsupportedAlignment : String := "UNSUPPORTED_ALIGNMENT"

/-! ## Traces -/

/-- `RESOURCE_PROTOCOL_OPS`. -/
def resourceProtocolOps : List String :=
  ["SUBSCRIBE", "UNSUBSCRIBE", "BLE_CONNECT", "BLE_DISCONNECT", "CLOUD_SESSION_REUSE",
    "ENTRY_UNLOAD"]

/-- `_latest_hunk`: the first hunk. -/
def latestHunk (diffHunks : List DiffHunk) : Option DiffHunk := diffHunks.head?

/-- The operation that a token of a hunk names. -/
def tokenOp (token : String) : String :=
  match splitMax token ":" 3 with
  | _ :: _ :: op :: _ => normalizeOpName op
  | _ => normalizeOpName token

/-- The operations of a hunk, on both sides. -/
def hunkOps (hunk : DiffHunk) : List String :=
  (hunk.baselineOps ++ hunk.optimizedOps).map tokenOp

/-- Does the latest hunk name operations of the resource protocol only? -/
def resourceOnly (diffHunks : List DiffHunk) : Bool :=
  let ops := ((latestHunk diffHunks).map hunkOps).getD []
  !ops.isEmpty && ops.all (resourceProtocolOps.contains ·)

/-- `dict(hunk.__dict__)`. -/
def hunkDict (hunk : DiffHunk) : Dict :=
  [("anchor", .str hunk.anchor), ("baseline_ops", .list (hunk.baselineOps.map Val.str)),
    ("optimized_ops", .list (hunk.optimizedOps.map Val.str)), ("severity", .str hunk.severity)]

/-- `check_trace_mismatch`, without the record of the settings in the details. -/
def checkTraceMismatch (sha1 : String → String) (config : TraceCompareConfig) (cfg : SymConfig) :
    Except PyErr DivergenceResult := do
  let diff ← compareTraces sha1 cfg.baseline.trace cfg.optimized.trace config
  return if diff.tolerantEqual then { isDivergent := false }
    else if resourceOnly diff.diffSignature then
      { isDivergent := false, details := [("defer_to_resource_protocol", .bool true)] }
    else
      { isDivergent := true
        violatedProperty := some traceMismatch
        reason := "trace_prefix_mismatch"
        details := [("diff_hunks", .list (diff.diffSignature.map fun h => .dict (hunkDict h)))] }

/-! ## Final states -/

/-- `_final_state_values`. -/
def finalStateValues (events : List Event) : OrderedDict String Val :=
  events.foldl (fun values event =>
    if normalizeOpName event.op = "STATE_WRITE" then values.set event.target (writtenValue event)
    else values) .empty

/-- `values.get(entity_id)`. -/
def finalValue (values : OrderedDict String Val) (entityId : String) : Val :=
  (values.get? entityId).getD .none

/-- A final state that differs, and why. -/
def brokenFinalState (reason : String) (details : Dict) : DivergenceResult where
  isDivergent := true
  violatedProperty := some finalStateMismatch
  reason := reason
  details := details

def optText (text : Option String) : Val := (text.map Val.str).getD .none

/-- `check_final_state_mismatch`. -/
def checkFinalStateMismatch (cfg : SymConfig) (schema : DivergenceSchema) : DivergenceResult :=
  let baseline := finalStateValues cfg.baseline.trace
  let optimized := finalStateValues cfg.optimized.trace
  let baselineException := cfg.baseline.semanticState.exceptionCategory
  let optimizedException := cfg.optimized.semanticState.exceptionCategory
  if !(Val.dict baseline.rows).eqv (.dict optimized.rows) then
    brokenFinalState "final_state_values_differ"
      [("baseline_final_state", .dict baseline.rows), ("optimized_final_state", .dict optimized.rows)]
  else if baselineException ≠ optimizedException then
    brokenFinalState "exception_category_differ"
      [("baseline_exception", optText baselineException),
        ("optimized_exception", optText optimizedException)]
  else
    match schema.requiredFinalState.find? fun row =>
        !(finalValue baseline row.1).eqv (finalValue optimized row.1) with
    | some row => brokenFinalState "required_final_state_mismatch"
        [("entity_id", .str row.1), ("baseline", finalValue baseline row.1),
          ("optimized", finalValue optimized row.1), ("expected", row.2)]
    | none => { isDivergent := false }

/-! ## Alignment -/

/-- `check_unsupported_alignment`. -/
def checkUnsupportedAlignment (cfg : SymConfig) : DivergenceResult :=
  match cfg.divergenceStatus.currentUsegNode with
  | some current =>
      if current.unsupportedAlignment && current.crossesObservationBoundary then
        { isDivergent := true
          violatedProperty := some unsupportedAlignment
          reason := "split_region_crosses_observation_boundary"
          details := [("suspicious_region_id", optText current.suspiciousRegionId)] }
      else { isDivergent := false }
  | none => { isDivergent := false }

/-! ## All checks -/

/-- What a configuration that does not diverge reports: `{"current_useg_node": current}`. -/
def statusDict (cfg : SymConfig) : Dict :=
  match cfg.divergenceStatus.currentUsegNode with
  | some current =>
      [("useg_node_id", .str current.usegNodeId), ("kind", .str current.kind),
        ("suspicious_region_id", optText current.suspiciousRegionId),
        ("unsupported_alignment", .bool current.unsupportedAlignment),
        ("crosses_observation_boundary", .bool current.crossesObservationBoundary)]
  | none => []

/-- `check_divergence`. -/
def checkDivergence (sha1 : String → String) (schema : DivergenceSchema)
    (resourceModel : ResourceModel) (cfg : SymConfig) : Except PyErr DivergenceResult := do
  let unsupported := checkUnsupportedAlignment cfg
  if unsupported.isDivergent then return unsupported
  let traces ← checkTraceMismatch sha1 schema.traceCompareConfig cfg
  if traces.isDivergent then return traces
  let finalState := checkFinalStateMismatch cfg schema
  if cfg.divergenceStatus.atTerminal && finalState.isDivergent then return finalState
  let resources := checkResourceProtocolViolation cfg resourceModel
  if resources.isDivergent then return resources
  return { isDivergent := false, details := [("current_useg_node", .dict (statusDict cfg))] }

/-! ## Ranks -/

/-- `step_bound_exceeded`. -/
def stepBoundExceeded (cfg : SymConfig) (maxSteps : ℕ) : Bool := decide (maxSteps ≤ cfg.executedSteps)

/-- Do the two traces end alike? -/
def endsAlike (cfg : SymConfig) : Bool :=
  decide (cfg.baseline.trace.length = cfg.optimized.trace.length) &&
    match cfg.baseline.trace.getLast?, cfg.optimized.trace.getLast? with
    | some b, some o => decide (b.op = o.op) && decide (b.target = o.target)
    | _, _ => true

/-- `0 if urgent else 1`. -/
def penalty (urgent : Bool) : ℕ := if urgent then 0 else 1

abbrev Rank := ℕ ×ₗ ℕ ×ₗ ℕ ×ₗ ℕ ×ₗ ℕ

/-- Five numbers, the first one first. -/
def rankOf (a b c d e : ℕ) : Rank := toLex (a, toLex (b, toLex (c, toLex (d, e))))

/-- `rank_config`. -/
def rankConfig (suspiciousRegions : List RegionPayload) (cfg : SymConfig) : Rank :=
  let suspiciousIds := (suspiciousRegions.map (·.regionId)).filter (· ≠ "")
  rankOf (penalty (cfg.suspiciousRegionId.any (suspiciousIds.contains ·)))
    (penalty (cfg.divergenceStatus.currentUsegNode.any (·.crossesObservationBoundary)))
    (penalty (!cfg.baseline.resourceKeys.isEmpty || !cfg.optimized.resourceKeys.isEmpty))
    (penalty (decide (cfg.mode = "SPLIT") || !endsAlike cfg))
    cfg.executedSteps

/-! ## Witnesses -/

inductive CounterexampleVerdict where
  | diffFound
  | noDiffWithinBound
  | inconclusive
deriving DecidableEq, Repr

/-- What is assumed on the way to a configuration. -/
structure Assumptions where
  inputAssumptions : Dict := []
  environmentAssumptions : Dict := []
  minimalConditions : List String := []

structure DivergencePoint where
  step : ℕ
  usegNodeId : Option String
  kind : Option String
  reason : String
  details : Dict

structure StateAtDivergence where
  stateWrites : Dict
  exceptionCategory : Option String
  resourceKeys : List String

structure CounterexampleWitness where
  verdict : CounterexampleVerdict
  violatedProperty : Option String := none
  assumptions : Assumptions := {}
  baselineTracePrefix : List Event := []
  optimizedTracePrefix : List Event := []
  divergencePoint : Option DivergencePoint := none
  baselineStateAtDivergence : Option StateAtDivergence := none
  optimizedStateAtDivergence : Option StateAtDivergence := none
  suspiciousRegionId : Option String := none
  refinementHint : Option String := none
  protocolContext : Option String := none
  phaseContext : Option String := none
  triggerPattern : Option String := none
  suspectedRuleGap : Option String := none
  visitedUsegNodes : List String := []
  mode : Option String := none

/-- `events[-n:]`. -/
def lastEvents (n : ℕ) (events : List Event) : List Event := events.drop (events.length - n)

/-- `_protocol_context_from_cfg`. -/
def protocolContext (cfg : SymConfig) (status : DivergenceResult) : String :=
  let contexts := [("BLE", "BLE"), ("CLOUD", "CLOUD"), ("HA", "LOCAL_API")]
  let events := lastEvents 4 cfg.baseline.trace ++ lastEvents 4 cfg.optimized.trace
  let reason := lower status.reason
  match events.findSome? fun event => contexts.lookup (upper event.provider) with
  | some context => context
  | none =>
      if contains reason "ble" then "BLE"
      else if contains reason "session" || contains reason "cloud" then "CLOUD"
      else "UNKNOWN"

/-- `_phase_context_from_cfg`. -/
def phaseContext (cfg : SymConfig) : String :=
  let events := lastEvents 2 cfg.baseline.trace ++ lastEvents 2 cfg.optimized.trace
  ((events.map fun event => upper event.phase).find? fun phase =>
    ["SETUP", "RUNTIME", "TEARDOWN"].contains phase).getD "UNKNOWN"

def triggerPatterns : List (String × String) :=
  [("premature_cleanup", "premature_cleanup"),
    ("missing_release_or_unsubscribe", "missing_unsubscribe"),
    ("wrong_session_reuse_or_missing_required_before", "wrong_session_reuse"),
    ("trace_prefix_mismatch", "state_write_order_mismatch"),
    ("final_state_values_differ", "return_value_mismatch"),
    ("exception_category_differ", "exception_category_mismatch"),
    ("required_final_state_mismatch", "state_write_order_mismatch"),
    ("split_region_crosses_observation_boundary", "unsupported_alignment_pattern")]

def suspectedRuleGaps : List (String × String) :=
  [("premature_cleanup", "MISSING_HARD_LIFECYCLE_EDGE"),
    ("missing_release_or_unsubscribe", "MISSING_HARD_LIFECYCLE_EDGE"),
    ("wrong_session_reuse_or_missing_required_before", "RESOURCE_REUSE_RULE_TOO_LOOSE"),
    ("trace_prefix_mismatch", "OBSERVATION_BOUNDARY_TOO_COARSE"),
    ("split_region_crosses_observation_boundary", "ALIGNMENT_RULE_MISSING")]

/-- What a witness says of one side. -/
def Side.atDivergence (side : Side) : StateAtDivergence where
  stateWrites := side.semanticState.stateWrites
  exceptionCategory := side.semanticState.exceptionCategory
  resourceKeys := side.resourceKeys

/-- `solve_and_materialize_witness`; the choice of the assumptions is a parameter. -/
def materializeWitness (minimalAssumptions : SymConfig → Assumptions) (cfg : SymConfig)
    (status : DivergenceResult) : CounterexampleWitness :=
  let current := cfg.divergenceStatus.currentUsegNode
  { verdict := .diffFound
    violatedProperty := some (status.violatedProperty.getD "None")
    assumptions := minimalAssumptions cfg
    baselineTracePrefix := cfg.baseline.trace
    optimizedTracePrefix := cfg.optimized.trace
    divergencePoint := some {
      step := cfg.usegIndex
      usegNodeId := current.map (·.usegNodeId)
      kind := current.map (·.kind)
      reason := status.reason
      details := status.details }
    baselineStateAtDivergence := some cfg.baseline.atDivergence
    optimizedStateAtDivergence := some cfg.optimized.atDivergence
    suspiciousRegionId := cfg.suspiciousRegionId.or (current.bind (·.suspiciousRegionId))
    protocolContext := some (protocolContext cfg status)
    phaseContext := some (phaseContext cfg)
    triggerPattern := some ((triggerPatterns.lookup status.reason).getD "unknown_trigger")
    suspectedRuleGap := suspectedRuleGaps.lookup status.reason
    visitedUsegNodes := cfg.visitedUsegNodes
    mode := some cfg.mode }

/-- `make_inconclusive_witness`. -/
def inconclusiveWitness : CounterexampleWitness where
  verdict := .inconclusive
  refinementHint := some "insufficient_bound_or_model"

/-- `make_no_diff_within_bound_witness`. -/
def noDiffWithinBoundWitness : CounterexampleWitness where
  verdict := .noDiffWithinBound
  refinementHint := some "no_counterexample_within_current_bound"

/-- `len(value)`. -/
def itemCount : Val → ℕ
  | .list items => items.length
  | .dict rows => rows.length
  | _ => 0

/-- `len(value) if isinstance(value, dict) else 1`. -/
def inputCount : Val → ℕ
  | .dict rows => rows.length
  | _ => 1

/-- `_sort_key`. -/
def sortKey (witness : CounterexampleWitness) : Rank :=
  let environment := witness.assumptions.environmentAssumptions
  let count (key : String) := itemCount (environment.getD key (.list []))
  rankOf (((witness.divergencePoint.map (·.step))).getD (10 ^ 9))
    (max witness.baselineTracePrefix.length witness.optimizedTracePrefix.length)
    (count "path_assumptions" + count "device_results" + count "toggle_assumptions" +
      count "framework_events")
    (count "resource_assumptions")
    ((witness.assumptions.inputAssumptions.map fun row => inputCount row.2).sum)

/-- `minimize_witnesses`. -/
def minimizeWitnesses (candidates : List CounterexampleWitness) : Option CounterexampleWitness :=
  (sortedBy sortKey candidates).head?

def refinementHints : List (String × String) :=
  [(traceMismatch, "check_observation_schema_or_alignment_rule"),
    (resourceProtocolViolation, "upgrade_soft_constraint_or_add_guard"),
    (unsupportedAlignment, "add_realignment_rule_or_expand_ir_summary"),
    (finalStateMismatch, "inspect_data_and_lifecycle_boundary_crossing")]

/-- `infer_refinement_hint`. -/
def inferRefinementHint (witness : CounterexampleWitness) : String :=
  (refinementHints.lookup (witness.violatedProperty.getD "")).getD
    "insufficient_signal_for_refinement"

/-! ## The search -/

structure CounterexampleInputBundle where
  baselineIr : IRProgram
  optimizedIr : IRProgram
  alignmentMap : AlignmentMap
  observationSchema : DivergenceSchema := {}
  environmentModel : EnvState := {}
  resourceModel : ResourceModel := {}
  suspiciousRegions : List RegionPayload := []

section Search

-- `minimalAssumptions cfg` is the choice of `minimal_assumptions`
variable (sha1 : String → String) (minimalAssumptions : SymConfig → Assumptions)
variable (bundle : CounterexampleInputBundle)

/-- `build_counterexample_useg`. -/
def buildCounterexampleUseg (fuel : ℕ) : Except PyErr (Option USEG) :=
  buildUseg bundle.baselineIr bundle.optimizedIr bundle.alignmentMap
    bundle.observationSchema.toCounterexampleObservationSchema bundle.suspiciousRegions fuel

/-- One round of the loop. -/
def visitConfig (useg : USEG) (maxSteps : ℕ) (cfg : SymConfig) :
    Except PyErr (Visit SymConfig CounterexampleWitness) := do
  if stepBoundExceeded cfg maxSteps then return .skip
  let status ← checkDivergence sha1 bundle.observationSchema bundle.resourceModel cfg
  if status.isDivergent then return .report (materializeWitness minimalAssumptions cfg status)
  return .expand (← stepUseg useg bundle.baselineIr bundle.optimizedIr cfg)

/-- The loop over the worklist: whether it was emptied before `max_paths`, and the candidates. -/
def exploreUseg (useg : USEG) (maxSteps maxPaths : ℕ) :
    Except PyErr (Bool × List CounterexampleWitness) :=
  let initCfg := initSymbolicConfig useg bundle.environmentModel
  explore (visitConfig sha1 minimalAssumptions bundle useg maxSteps)
    (rankConfig bundle.suspiciousRegions) maxPaths
    [⟨rankConfig bundle.suspiciousRegions initCfg, 0, initCfg⟩] 1 []

/-- `generate_counterexample`; `none` when the graph is not built after so many steps. -/
def generateCounterexample (maxSteps maxPaths fuel : ℕ) :
    Except PyErr (Option CounterexampleWitness) := do
  let some useg ← buildCounterexampleUseg bundle fuel | return none
  let (emptied, candidates) ← exploreUseg sha1 minimalAssumptions bundle useg maxSteps maxPaths
  match minimizeWitnesses candidates with
  | some minimized =>
      return some { minimized with refinementHint := some (inferRefinementHint minimized) }
  | none => return some (if emptied then noDiffWithinBoundWitness else inconclusiveWitness)

end Search

end FloWeaver.Counterexample
