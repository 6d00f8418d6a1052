import FloWeaver.Counterexample.State
import FloWeaver.Counterexample.Useg

/-!
# Execution of the unified graph

A configuration stands at a node of the graph.  A unified node runs on both sides at once; at a
split node either side takes its next step.  Every branch of the environment and every way to
decide the guards gives a successor.

* `initSymbolicConfig` — the first configuration.
* `advanceUnifiedNode`, `advanceSplitBranch` — one step.
* `stepUseg` — all successors.
-/

namespace FloWeaver.Counterexample

open Py Ir Trace

/-! ## The first configuration -/

/-- What the status says of a node of the graph. -/
def statusOf (usegNode : USEGNode) : UsegStatus where
  usegNodeId := usegNode.usegNodeId
  kind := usegNode.kind
  suspiciousRegionId := usegNode.suspiciousRegionId
  unsupportedAlignment := usegNode.unsupportedAlignment
  crossesObservationBoundary := usegNode.crossesObservationBoundary

/-- `init_symbolic_config`. -/
def initSymbolicConfig (useg : USEG) (env : EnvState) : SymConfig where
  pathCondition := env.assumptions
  envState := env
  divergenceStatus := {
    currentUsegNode := useg.nodes.head?.map statusOf
    atTerminal := useg.nodes.isEmpty }

/-! ## One step -/

/-- `_finish_status`. -/
def finishStatus (cfg : SymConfig) (useg : USEG) (usegNode : USEGNode) : SymConfig :=
  { cfg with
    divergenceStatus := {
      currentUsegNode := some (statusOf usegNode)
      atTerminal := decide (useg.nodes.length ≤ cfg.usegIndex) } }

/-- `ids[-1] if ids else pc`. -/
def lastOr (pc : Option String) (nodeIds : List String) : Option String := nodeIds.getLast?.or pc

section Step

variable (useg : USEG) (baselineIr optimizedIr : IRProgram)

/-- One side of `_advance_unified_node`. -/
def Side.advance (program : IRProgram) (nodeIds active : List String) (side : Side) :
    Except PyErr Side :=
  applyNodes program active
    { side with splitOffset := 0, pc := lastOr (lastOr side.pc nodeIds) active }

/-- `_advance_unified_node`. -/
def advanceUnifiedNode (cfg : SymConfig) (usegNode : USEGNode) (clauses : List String)
    (baselineNodeIds optimizedNodeIds : List String) : Except PyErr SymConfig := do
  let baseline ← cfg.baseline.advance baselineIr usegNode.baselineNodeIds baselineNodeIds
  let optimized ← cfg.optimized.advance optimizedIr usegNode.optimizedNodeIds optimizedNodeIds
  return { cfg with
    usegIndex := cfg.usegIndex + 1
    mode := "UNIFIED"
    suspiciousRegionId := usegNode.suspiciousRegionId
    visitedUsegNodes := cfg.visitedUsegNodes ++ [usegNode.usegNodeId]
    pathCondition := extendCondition cfg.pathCondition clauses
    baseline := baseline
    optimized := optimized
    executedSteps := cfg.executedSteps + max (max baselineNodeIds.length optimizedNodeIds.length)
      (if clauses.isEmpty then 0 else 1) }

/-- The next node of one side of a split, applied or passed over. -/
def Side.advanceSplit (program : IRProgram) (nodeId : String) (applyNode : Bool) (side : Side) :
    Except PyErr Side := do
  let side ← if applyNode then
      applyNodes program [nodeId] { side with pc := some nodeId }
    else pure side
  return { side with splitOffset := side.splitOffset + 1 }

/-- Both sides have passed the node. -/
def leaveSplit (cfg : SymConfig) (usegNode : USEGNode) : SymConfig :=
  if usegNode.baselineNodeIds.length ≤ cfg.baseline.splitOffset ∧
      usegNode.optimizedNodeIds.length ≤ cfg.optimized.splitOffset then
    { cfg with
      usegIndex := cfg.usegIndex + 1
      baseline := { cfg.baseline with splitOffset := 0 }
      optimized := { cfg.optimized with splitOffset := 0 } }
  else cfg

/-- `_advance_split_branch`, with the two sides after the step. -/
def advanceSplitBranch (cfg : SymConfig) (usegNode : USEGNode) (clauses : List String)
    (baseline optimized : Side) : SymConfig :=
  finishStatus (leaveSplit { cfg with
    mode := "SPLIT"
    suspiciousRegionId := usegNode.suspiciousRegionId
    visitedUsegNodes := cfg.visitedUsegNodes ++ [usegNode.usegNodeId]
    pathCondition := extendCondition cfg.pathCondition clauses
    baseline := baseline
    optimized := optimized
    executedSteps := cfg.executedSteps + 1 } usegNode) useg usegNode

/-- `_merge_compatible`. -/
def mergeCompatible (cfg : SymConfig) : Bool :=
  let baseline := cfg.baseline.semanticState
  let optimized := cfg.optimized.semanticState
  decide (baseline.exceptionCategory = optimized.exceptionCategory) &&
    sameSet cfg.baseline.resourceKeys cfg.optimized.resourceKeys &&
    baseline.stateWrites.all fun row =>
      (optimized.stateWrites.get? row.1).all fun value => row.2.eqv value

/-! ## All successors -/

/-- The successors in which both sides run the node. -/
def unifiedSuccessors (cfg : SymConfig) (usegNode : USEGNode) (baseClauses : List String)
    (baselineOptions optimizedOptions : List ExecutionOption) : Except PyErr (List SymConfig) := do
  let successors ← baselineOptions.mapM fun baselineOption =>
    optimizedOptions.mapM fun optimizedOption => do
      let next ← advanceUnifiedNode baselineIr optimizedIr cfg usegNode
        (baseClauses ++ baselineOption.2 ++ optimizedOption.2) baselineOption.1 optimizedOption.1
      let whole := decide (baselineOption.1 = usegNode.baselineNodeIds) &&
        decide (optimizedOption.1 = usegNode.optimizedNodeIds)
      let none := baselineOption.1.isEmpty && optimizedOption.1.isEmpty
      let next := if whole || none then next else { next with mode := "SPLIT" }
      return finishStatus next useg usegNode
  return successors.flatten

/-- The successors in which the baseline takes its next step. -/
def baselineSuccessors (cfg : SymConfig) (usegNode : USEGNode) (baseClauses : List String) :
    Except PyErr (List SymConfig) :=
  match usegNode.baselineNodeIds[cfg.baseline.splitOffset]? with
  | none => return []
  | some nodeId => do
      let options ← nodeGuardOptions (← baselineIr.node nodeId) cfg.envState
      options.mapM fun option => do
        let baseline ← cfg.baseline.advanceSplit baselineIr nodeId option.1
        return advanceSplitBranch useg cfg usegNode (baseClauses ++ option.2) baseline cfg.optimized

/-- The successors in which the optimized program takes its next step. -/
def optimizedSuccessors (cfg : SymConfig) (usegNode : USEGNode) (baseClauses : List String) :
    Except PyErr (List SymConfig) :=
  match usegNode.optimizedNodeIds[cfg.optimized.splitOffset]? with
  | none => return []
  | some nodeId => do
      let options ← nodeGuardOptions (← optimizedIr.node nodeId) cfg.envState
      options.mapM fun option => do
        let optimized ← cfg.optimized.advanceSplit optimizedIr nodeId option.1
        return advanceSplitBranch useg cfg usegNode (baseClauses ++ option.2) cfg.baseline optimized

/-- The successors in which one side takes its next step. -/
def splitSuccessors (cfg : SymConfig) (usegNode : USEGNode) (baseClauses : List String) :
    Except PyErr (List SymConfig) := do
  let usegNode := { usegNode with kind := "SPLIT" }
  return (← baselineSuccessors useg baselineIr cfg usegNode baseClauses) ++
    (← optimizedSuccessors useg optimizedIr cfg usegNode baseClauses)

/-- The successor at a split with no nodes. -/
def emptySuccessors (cfg : SymConfig) (usegNode : USEGNode) : List SymConfig :=
  if usegNode.baselineNodeIds.isEmpty && usegNode.optimizedNodeIds.isEmpty then
    [finishStatus { cfg with usegIndex := cfg.usegIndex + 1 } useg usegNode]
  else []

/-- The successors under one branch of the environment. -/
def branchSuccessors (cfg : SymConfig) (usegNode : USEGNode) (baseClauses : List String) :
    Except PyErr (List SymConfig) := do
  if usegNode.kind = "UNIFIED" ∨ usegNode.kind = "MERGE" then
    let baselineOptions ← executionOptions baselineIr usegNode.baselineNodeIds cfg.envState
    let optimizedOptions ← executionOptions optimizedIr usegNode.optimizedNodeIds cfg.envState
    if usegNode.kind = "UNIFIED" ∨ mergeCompatible cfg = true then
      unifiedSuccessors useg baselineIr optimizedIr cfg usegNode baseClauses baselineOptions
        optimizedOptions
    else splitSuccessors useg baselineIr optimizedIr cfg usegNode baseClauses
  else if usegNode.kind = "SPLIT" then
    return (← splitSuccessors useg baselineIr optimizedIr cfg usegNode baseClauses) ++
      emptySuccessors useg cfg usegNode
  else return []

/-- `step_useg`. -/
def stepUseg (cfg : SymConfig) : Except PyErr (List SymConfig) :=
  match useg.nodes[cfg.usegIndex]? with
  | none => return []
  | some usegNode => do
      let successors ← (branchClauses cfg.envState usegNode.usegNodeId).mapM
        (branchSuccessors useg baselineIr optimizedIr cfg usegNode)
      return successors.flatten

end Step

end FloWeaver.Counterexample
