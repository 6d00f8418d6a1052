import FloWeaver.Trust.Replay
import FloWeaver.Trust.Signals

/-!
# The rollback loop

As long as the replays show counterexamples the trust layer tries the next strategy of the first
level, then the patch of the rules, then the patch of the graph.  After a patch the scenarios are
replayed on the new plan.  The loop ends without a counterexample, without a patch, without a way
to replay, or when the steps are used up.

* `patchRule` — what happens to one rule.
* `applyLevel2RulePatch` — the patched rules and the row for the rollback log.
* `overlayConstraint`, `applyRuleOverlayToDag` — the constraints after the patch.
* `level3PatchActionOrder` — the order that is written into the graph.
* `implicatedActionIds` — the actions that the counterexamples point at.
* `applyLevel3ConstraintPatch` — the patched graph and the row for the rollback log.
* `RollbackState` — what the loop carries from one round to the next.
* `tryLevel1`, `tryLevel2`, `tryLevel3` — the three attempts of a round.
* `round`, `rollbackLoop` — one round, and the rounds.
* `finalSummary` — the verdict that is reported.
-/

/-!
## Level-2 rollback

The second answer to a counterexample is a patch of the rules: a soft rule that the
counterexample involves is disabled when it is a protocol rule, and otherwise gets a guard that
holds in safe mode only.  The patch is then laid over the soft constraints of the graph.
-/

namespace FloWeaver.Trust

open Py
open Scheduler (strList)

/-- `str(value).strip().lower() == "protocol"` for the category of a rule. -/
def isProtocolRule (rule : Rule) : Bool := lower (strip rule.category) = "protocol"

/-- Does a guard name the safe mode? -/
def namesSafeMode (guard : String) : Bool := contains (upper guard) "ROLLBACK_SAFE_MODE"

/-- A guard that holds in safe mode only. -/
def safeModeGuard (guard : String) : String :=
  if guard = "true" then "rollback_safe_mode" else "(" ++ guard ++ ") AND rollback_safe_mode"

/-! ## Rules -/

/-- What the patch did to a rule. -/
inductive RuleChange where
  | disabled
  | tightened
  | kept
deriving DecidableEq, Repr

/-- A rule after the patch, with the change if the counterexamples involve it. -/
def patchRule (counterexamples : List CounterExample) (rule : Rule) :
    Except PyErr (Rule × Option (RuleChange × Dict)) :=
  if rule.status ≠ RuleStatus.soft then .ok (rule, none)
  else do
    if ← ruleInvolvedInCounterexamples rule counterexamples then
      return if isProtocolRule rule then
          ({ rule with status := RuleStatus.disabled },
            some (.disabled,
              [("rule_id", .str rule.ruleId), ("op", .str "set_status"),
                ("from", .str rule.status), ("to", .str RuleStatus.disabled),
                ("reason", .str "counterexample_marker_match_protocol")]))
        else if rule.guard = "true" ∨ !namesSafeMode rule.guard then
          ({ rule with guard := safeModeGuard rule.guard },
            some (.tightened,
              [("rule_id", .str rule.ruleId), ("op", .str "tighten_guard"),
                ("from", .str rule.guard), ("to", .str (safeModeGuard rule.guard)),
                ("reason", .str "counterexample_marker_match_semantic_rule")]))
        else
          (rule,
            some (.kept,
              [("rule_id", .str rule.ruleId), ("op", .str "keep_soft_with_risk_warning"),
                ("status", .str rule.status), ("guard", .str rule.guard),
                ("reason", .str "counterexample_marker_match_semantic_rule")]))
    else return (rule, none)

/-- The row of the rollback log for a patch of the rules. -/
structure RulePatch where
  reason : Dict
  changes : List Dict
  disabledRuleIds : List String
  tightenedRuleIds : List String
  dagEffects : List Dict := []

def RulePatch.toDict (patch : RulePatch) : Dict :=
  [("kind", .str "rule_patch"), ("level", .str "LEVEL_2"), ("reason", .dict patch.reason),
    ("changes", rowsVal patch.changes), ("disabled_rule_ids", strList patch.disabledRuleIds),
    ("tightened_rule_ids", strList patch.tightenedRuleIds)] ++
    (if patch.dagEffects.isEmpty then [] else [("dag_effects", rowsVal patch.dagEffects)])

/-- The ids of the rules that had a change of a kind. -/
def changedRuleIds (kind : RuleChange) (rows : List (Rule × Option (RuleChange × Dict))) :
    List String :=
  (rows.filter fun row => row.2.map (·.1) = some kind).map (·.1.ruleId)

/-- The patched rules and the patch; without a change the rules as they were and no patch. -/
def applyLevel2RulePatch (rules : List Rule) (counterexamples : List CounterExample) :
    Except PyErr (List Rule × Option RulePatch) := do
  let rows ← rules.mapM (patchRule counterexamples)
  let changes := rows.filterMap fun row => row.2.map (·.2)
  return if changes.isEmpty then (rules, none)
    else (rows.map (·.1),
      some { reason := rollReason counterexamples, changes
             disabledRuleIds := changedRuleIds .disabled rows
             tightenedRuleIds := changedRuleIds .tightened rows })

/-! ## Constraints -/

/-- `str(constraint.params.get("rule_id", ""))`. -/
def constraintRuleId (constraint : SoftConstraint) : String :=
  (constraint.params.getD "rule_id" (.str "")).pyStr

/-- Is the constraint one of a list of rules? -/
def ruleIn (ids : List String) (constraint : SoftConstraint) : Bool :=
  decide (constraintRuleId constraint ≠ "") && ids.contains (constraintRuleId constraint)

/-- The guard of a constraint under a patch. -/
def overlayGuard (patch : RulePatch) (constraint : SoftConstraint) : String :=
  if ruleIn patch.tightenedRuleIds constraint && !namesSafeMode constraint.guard then
    safeModeGuard constraint.guard
  else constraint.guard

/-- A constraint under a patch, if it is kept, and the change. -/
def overlayConstraint (patch : RulePatch) (constraint : SoftConstraint) :
    Option SoftConstraint × List Dict :=
  if ruleIn patch.disabledRuleIds constraint then
    (none,
      [[("op", .str "drop_soft_constraint"), ("rule_id", .str (constraintRuleId constraint)),
        ("kind", .str constraint.kind), ("scope", strList constraint.scope)]])
  else
    let guard := overlayGuard patch constraint
    (some { constraint with guard },
      if guard = constraint.guard then []
      else
        [[("op", .str "tighten_soft_constraint_guard"),
          ("rule_id", .str (constraintRuleId constraint)), ("kind", .str constraint.kind),
          ("from", .str constraint.guard), ("to", .str guard)]])

def applyRuleOverlayToDag (dag : TypedDAG) (patch : RulePatch) : TypedDAG × List Dict :=
  let rows := dag.softConstraints.map (overlayConstraint patch)
  ({ dag with softConstraints := rows.filterMap (·.1) }, rows.flatMap (·.2))

end FloWeaver.Trust

/-!
## Level-3 rollback

The last answer to a counterexample is a patch of the graph: a soft order between neighbours in
the order of execution, where one of them is implicated, and no overlap of the Bluetooth actions.
-/

namespace FloWeaver.Trust

open Py
open Scheduler (strList Phase actionSemanticStrings actionIsBatchSafe controlTokens)

/-! ## Phases -/

/-- `str(action.get("protocol", "")).strip().upper()`. -/
def upperProtocol (action : Dict) : String := upper (strip (action.getD "protocol" (.str "")).pyStr)

def actionIsWriteback (action : Dict) : Bool :=
  upperProtocol action = "HA" ||
    lower (strip ((Scheduler.target action).getD "kind" (.str "")).pyStr) = "ha_entity"

def actionIsReadLike (action : Dict) : Bool := !actionIsWriteback action && actionIsBatchSafe action

def actionIsControlLike (action : Dict) : Bool :=
  if actionIsWriteback action || actionIsReadLike action then false
  else (actionSemanticStrings action).any fun value => controlTokens.any (contains value ·)

/-- The declared actions that have an id. -/
def orderedActions (target : Option OptimizationTarget) : List (String × Dict) :=
  ((vdevActions target).map fun action => (trimmedId action, action)).filter (·.1 ≠ "")

/-- The phase of every action; the last declaration of an id counts. -/
def actionPhaseMap (target : Option OptimizationTarget) : OrderedDict String Phase :=
  let actions := orderedActions target
  let lastControl := ((actions.zipIdx.filter fun row =>
    !actionIsWriteback row.1.2 && actionIsControlLike row.1.2).map (·.2)).getLast?
  .ofList (actions.zipIdx.map fun row =>
    (row.1.1,
      if actionIsWriteback row.1.2 then Phase.writeback
      else if actionIsControlLike row.1.2 then .control
      else
        match lastControl with
        | some last => if last < row.2 then .postControlVerification else .preControlAcquisition
        | none => .preControlAcquisition))

/-! ## The order -/

/-- The ids of a list, with the group of some of them put where the first of them stands. -/
def gatherAtFirst (group : List String) (order : List String) : List String :=
  let before := order.takeWhile fun a => !group.contains a
  let after := order.dropWhile fun a => !group.contains a
  before ++ group ++ after.filter fun a => !group.contains a

/-- The order of execution, with what is declared and not in it at the end, and with the
verification actions together. -/
def level3PatchActionOrder (plan : MetaPlan) (target : Option OptimizationTarget) :
    Except PyErr (List String) := do
  let planned ← planExecutionOrder plan.toExecutionPlan
  let planned := (planned.filter (· ≠ "")).eraseDups
  match target with
  | none => return planned
  | some _ => do
      let targetOrder := (orderedActions target).map (·.1)
      let actionOrder := (planned ++ targetOrder).eraseDups
      let phases := actionPhaseMap target
      let verification := targetOrder.filter fun a =>
        phases.get? a = some .postControlVerification && actionOrder.contains a
      if verification.isEmpty && !phases.values.any (· = .control) then return targetOrder
      else if verification.isEmpty then return actionOrder
      else return gatherAtFirst verification actionOrder

/-! ## Execution contexts -/

/-- Where an action runs: its batch, its group, and whether in the parallel part of it. -/
structure ExecutionContext where
  batchIdx : ℕ
  groupIdx : ℕ
  parallel : Bool
deriving DecidableEq

def groupContexts (batch : Batch) (batchIdx groupIdx : ℕ) (group : List String) :
    Except PyErr (List (String × ExecutionContext)) :=
  let ids := orderedGroup group
  if ids.isEmpty then .ok []
  else do
    let (parallelIds, serialIds) ← groupExecutionLayout batch ids
    return parallelIds.map (fun a => (a, ⟨batchIdx, groupIdx, true⟩)) ++
      serialIds.map fun a => (a, ⟨batchIdx, groupIdx, false⟩)

/-- The context of every action; its last listing counts. -/
def planActionExecutionContexts (plan : MetaPlan) :
    Except PyErr (OrderedDict String ExecutionContext) := do
  let rows ← plan.orderedBatches.zipIdx.mapM fun (batch, batchIdx) =>
    batch.parallelGroups.zipIdx.mapM fun (group, groupIdx) =>
      groupContexts batch batchIdx groupIdx group
  return .ofList rows.flatten.flatten

/-! ## Implicated actions -/

/-- The action ids in the trace prefixes of the counterexamples. -/
def counterexampleActionIds (counterexamples : List CounterExample) : List String :=
  counterexamples.flatMap fun counterexample =>
    ["baseline_trace_prefix", "optimized_trace_prefix"].flatMap fun key =>
      match counterexample.diffSummary.getD key (.list []) with
      | .list events =>
          (events.map fun event =>
            strip ((event.asDict.get "params_abst").asDict.getD "action_id" (.str "")).pyStr).filter
              (· ≠ "")
      | _ => []

/-- The targets of the culprits and of the anchors. -/
def counterexampleTargetTokens (counterexamples : List CounterExample) : List String :=
  counterexamples.flatMap fun counterexample =>
    let anchors :=
      match counterexample.diffSummary.getD "hunks" (.list []) with
      | .list hunks => hunks.filterMap fun hunk =>
          match hunk with
          | .dict rows => some (Dict.getD rows "anchor" (.str "")).pyStr
          | _ => none
      | _ => []
    ((counterexample.culpritIds ++ anchors).map eventReprTarget).filter (· ≠ "")

def actionTargetTokens (action : Dict) : List String :=
  let target := Scheduler.target action
  (["id", "entity_id", "device_id", "host"].map fun key =>
    eventReprTarget (target.get key).pyStr).filter (· ≠ "")

def implicatedActionIds (target : Option OptimizationTarget)
    (counterexamples : List CounterExample) : List String :=
  let tokens := counterexampleTargetTokens counterexamples
  counterexampleActionIds counterexamples ++
    ((orderedActions target).filter fun row =>
      (actionTargetTokens row.2).any (tokens.contains ·)).map (·.1)

/-! ## The patch -/

/-- What tells two soft constraints apart: kind, sorted scope, guard and fallback. -/
def softKey (constraint : SoftConstraint) : String × List String × String × String :=
  (constraint.kind, sortedStr constraint.scope, constraint.guard, constraint.fallback)

/-- Adds a constraint unless one with its key is there. -/
def addConstraint (state : List SoftConstraint × List Dict) (constraint : SoftConstraint)
    (scope : List String) : List SoftConstraint × List Dict :=
  if (state.1.map softKey).contains (softKey constraint) then state
  else (state.1 ++ [constraint],
    state.2 ++ [[("op", .str "add_soft_constraint"), ("kind", .str constraint.kind),
      ("scope", strList scope)]])

def orderConstraint (src dst : String) : SoftConstraint where
  kind := SoftConstraintKind.softOrder
  scope := sortedSet [src, dst]
  params := [("reason", .str "m6_level3_action_order"), ("source", .str "m6"),
    ("ordered_scope", strList [src, dst])]
  guard := "true"
  fallback := "preserve_action_order"

def bleConstraint (scope : List String) : SoftConstraint where
  kind := SoftConstraintKind.noOverlap
  scope := scope
  params := [("reason", .str "m6_level3_ble_serial"), ("source", .str "m6")]
  guard := "true"
  fallback := "set_ble_parallelism_to_1"

/-- Do two actions run in the parallel part of one group? -/
def runTogether (contexts : OrderedDict String ExecutionContext) (src dst : String) : Bool :=
  match contexts.get? src, contexts.get? dst with
  | some a, some b => a.parallel && decide (a = b)
  | _, _ => false

/-- The soft order of two neighbours, unless neither is implicated or they run together. -/
def addNeighbours (implicated : List String) (contexts : OrderedDict String ExecutionContext)
    (state : List SoftConstraint × List Dict) (pair : String × String) :
    List SoftConstraint × List Dict :=
  let (src, dst) := pair
  if !implicated.isEmpty && !implicated.contains src && !implicated.contains dst then state
  else if runTogether contexts src dst then state
  else addConstraint state (orderConstraint src dst) [src, dst]

/-- The patched graph and the patch; without a change the graph as it was and no patch. -/
def applyLevel3ConstraintPatch (dag : TypedDAG) (plan : MetaPlan)
    (target : Option OptimizationTarget) (counterexamples : List CounterExample) :
    Except PyErr (TypedDAG × Option Dict) := do
  let actionOrder ← level3PatchActionOrder plan target
  let contexts ← planActionExecutionContexts plan
  let implicated := implicatedActionIds target counterexamples
  let ordered := (actionOrder.zip actionOrder.tail).foldl (addNeighbours implicated contexts)
    (dag.softConstraints, [])
  let bleScope := actionOrder.filter fun a =>
    ((actionIndex target).get? a).any fun action => upperProtocol action = "BLE"
  let (constraints, changes) :=
    if 2 ≤ bleScope.length then addConstraint ordered (bleConstraint bleScope) bleScope else ordered
  return if changes.isEmpty then (dag, none)
    else ({ dag with softConstraints := constraints },
      some [("kind", .str "constraint_patch"), ("level", .str "LEVEL_3"),
        ("reason", .dict (rollReason counterexamples)), ("changes", rowsVal changes)])

end FloWeaver.Trust

namespace FloWeaver.Trust

open Py Trace

/-- What the loop calls: the replays of a plan and the scheduler.  The number counts the patches
that were applied before, so that two calls may differ. -/
structure Hooks where
  replayWithPlan : Option (ℕ → MetaPlan → Except PyErr (List ReplayResult)) := none
  replanWithDag : Option (ℕ → TypedDAG → Except PyErr MetaPlan) := none

/-- What stays the same in a run. -/
structure RunInput where
  layer : SearchLayer
  hooks : Hooks
  target : Option OptimizationTarget
  rollbackMaxSteps : ℤ := 6

/-- `max(1, int(rollback_max_steps))`. -/
def RunInput.maxSteps (input : RunInput) : ℕ := (max 1 input.rollbackMaxSteps).toNat

/-- What the loop carries along. -/
structure RollbackState where
  plan : Option MetaPlan
  referencePlan : Option MetaPlan
  dag : TypedDAG
  rules : List Rule
  replays : List ReplayResult
  log : List Dict := []
  appliedSteps : ℕ := 0
  triedLevel1 : List Level1Strategy := []
  level2Applied : Bool := false
  level3Applied : Bool := false
  config : TraceCompareConfig := {}
  summary : ReplaySummary := ⟨0, 0, []⟩
  summaryIsCurrent : Bool := false

/-- What comes of a round. -/
inductive Outcome where
  /-- A patch was applied and the scenarios were replayed. -/
  | patched (s : RollbackState)
  /-- The loop ends. -/
  | ended (s : RollbackState)

section Round

variable (input : RunInput)

/-- The scenarios replayed after a patch. -/
def replayAfter (replay : ℕ → MetaPlan → Except PyErr (List ReplayResult)) (s : RollbackState)
    (plan : MetaPlan) (patch : Dict) : Except PyErr RollbackState := do
  let replays ← replay s.appliedSteps plan
  return { s with
    plan := some plan, replays, log := s.log ++ [patch], appliedSteps := s.appliedSteps + 1
    summaryIsCurrent := false }

/-- The verdict on the replays at hand. -/
def judge (s : RollbackState) : Except PyErr RollbackState := do
  let config ← traceCompareConfig input.target s.plan
  let summary ← summarizeReplay input.layer s.replays input.target config s.appliedSteps
  return { s with config, summary, summaryIsCurrent := true }

/-- The next strategy of the first level. -/
def nextLevel1 (s : RollbackState) : Except PyErr (Option Level1Strategy) := do
  let chain ← level1StrategyChain s.summary.counterexamples
  return chain.find? fun strategy => !s.triedLevel1.contains strategy

/-- The patch of a strategy that is still to be tried, with the strategy marked as tried. -/
def tryLevel1 (s : RollbackState) (plan : MetaPlan) :
    Except PyErr (RollbackState × Option (MetaPlan × Dict)) := do
  match ← nextLevel1 s with
  | none => return (s, none)
  | some strategy => do
      let (patched, patch) ← applyLevel1Patch plan (level1Strategies.idxOf strategy) input.target
        s.summary.counterexamples
      return ({ s with triedLevel1 := s.triedLevel1 ++ [strategy] },
        patch.map fun patch => (patched, patch))

/-- The patch of the rules, tried once. -/
def tryLevel2 (s : RollbackState) (plan : MetaPlan) :
    Except PyErr (RollbackState × Option (MetaPlan × Dict)) :=
  if s.level2Applied then .ok (s, none)
  else do
    let (rules, patch) ← applyLevel2RulePatch s.rules s.summary.counterexamples
    let s := { s with level2Applied := true }
    match patch with
    | none => return (s, none)
    | some patch => do
        let (dag, effects) := applyRuleOverlayToDag s.dag patch
        let s := { s with rules, dag := if effects.isEmpty then s.dag else dag }
        let row := { patch with dagEffects := effects }.toDict
        match input.hooks.replanWithDag with
        | none => return (s, some (plan, row))
        | some replan => do
            let plan ← replan s.appliedSteps s.dag
            return ({ s with referencePlan := some plan }, some (plan, row))

/-- The patch of the graph, tried once and only against a difference of order. -/
def tryLevel3 (s : RollbackState) (plan : MetaPlan) :
    Except PyErr (RollbackState × Option (MetaPlan × Dict)) :=
  match s.level3Applied, input.hooks.replanWithDag with
  | false, some replan => do
      if ← s.summary.counterexamples.anyM isOrderTypeCounterexample then
        let (dag, patch) ← applyLevel3ConstraintPatch s.dag (s.referencePlan.getD plan)
          input.target s.summary.counterexamples
        let s := { s with level3Applied := true }
        match patch with
        | none => return (s, none)
        | some patch => do
            let plan ← replan s.appliedSteps dag
            return ({ s with dag }, some (plan, patch))
      else return (s, none)
  | _, _ => .ok (s, none)

/-- The attempts in turn, up to the first that patches. -/
def firstPatch (attempts : List (RollbackState → MetaPlan →
    Except PyErr (RollbackState × Option (MetaPlan × Dict)))) (s : RollbackState)
    (plan : MetaPlan) : Except PyErr (RollbackState × Option (MetaPlan × Dict)) :=
  match attempts with
  | [] => .ok (s, none)
  | attempt :: rest => do
      let (s, patched) ← attempt s plan
      match patched with
      | some patched => return (s, some patched)
      | none => firstPatch rest s plan

/-- One round of the loop. -/
def round (s : RollbackState) : Except PyErr Outcome := do
  let s ← judge input s
  if s.summary.counterexamples.isEmpty then return .ended s
  else
    match s.plan, input.hooks.replayWithPlan with
    | some plan, some replay => do
        let (s, patched) ← firstPatch [tryLevel1 input, tryLevel2 input, tryLevel3 input] s plan
        match patched with
        | some (plan, patch) => do
            let s ← replayAfter replay s plan patch
            return .patched s
        | none => return .ended s
    | _, _ => return .ended s

/-- The rounds; every patch uses up a step. -/
def rollbackLoop : ℕ → RollbackState → Except PyErr RollbackState
  | 0, s => .ok s
  | steps + 1, s => do
      match ← round input s with
      | .patched s => rollbackLoop steps s
      | .ended s => return s

/-- The verdict that is reported: the last one, or a new one after a patch on the last step. -/
def finalSummary (s : RollbackState) : Except PyErr ReplaySummary :=
  if s.summaryIsCurrent then .ok s.summary
  else summarizeReplay input.layer s.replays input.target s.config s.appliedSteps

end Round

end FloWeaver.Trust
