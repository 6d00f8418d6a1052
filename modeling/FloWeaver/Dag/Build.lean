import FloWeaver.Dag.Templates
import FloWeaver.Lib.EdgeList
import FloWeaver.Lib.Tarjan

/-!
# Building the dependency graph

The hard edges come from the dependency candidates, from the templates of the rules, from the
outputs that are inputs of other MSSUs, and from the dependencies of the target.  What may not be
hard becomes a soft order, and so does every edge that is removed to break a cycle.

* `edgeRemovalRank` — which edge goes first.
* `acyclic`, `actionGraphSccs` — the two tests for a cycle.
* `demote` — the loop that both share.
* `breakActionLevelCycles`, `breakCycles` — the two loops.
* `addCandidate`, `addInput` — the edges of one candidate and of one input.
* `injectVdevDependencies` — the dependencies of the target.
* `addSoftConstraints` — the constraints of the rules, and the limits of the target.
* `dedupSoftOrderConstraints` — one soft order for each scope.
* `build` — the whole graph.
-/

namespace FloWeaver.Dag

open Py
open Scheduler (ActionIndex)

/-! ## Breaking cycles

The hard edges are thinned out twice: while the actions they order lie on a cycle, and while the
MSSUs do.  Each time the edge of the least rank goes, and is noted for a soft order.
-/

section Cycles

open DepGraph

abbrev Nodes := OrderedDict String MSSU

variable (lib : Library) (nodes : Nodes)

/-! ### Ranks -/

/-- The last pair key of a template among the justifications, in lower case. -/
def pairKeyOf (justification : List String) : String :=
  ((justification.filter fun text =>
      !startsWith text "rule_template:" && startsWith text "pair_key:").getLast?.map
    fun text => lower (strip (afterFirst text ":"))).getD ""

def edgeIsSemanticLifecycle (edge : DependencyEdge) : Bool :=
  edge.kind = EdgeKind.hardLifecycle &&
    ((edge.justification.any fun item => startsWith item "vdev_dep:" || startsWith item "io:") ||
      ((edge.justification.any (startsWith · "rule_template:")) &&
        ["device_id", "endpoint", "host"].contains (pairKeyOf edge.justification)) ||
      ((nodes.get? edge.dstMssu).map fun dst =>
        dst.mssuType = "CLEANUP" ||
          ["unsubscribe", "disconnect", "ble_disconnect", "close", "cleanup"].any
            ((mssuEffectTokens dst).contains ·)).getD false)

/-- The rank of a kind. -/
def kindRank (kind : String) : ℕ :=
  ([(EdgeKind.hardControl, 0), (EdgeKind.hardLifecycle, 1), (EdgeKind.hardData, 2)].lookup
    kind).getD 3

/-- Unprotected edges go first, then by kind, by source and by the ids. -/
def edgeRemovalRank (edge : DependencyEdge) : List ℕ ×ₗ String ×ₗ String :=
  let isCandidate := edge.justification.any (contains · "candidate:")
  let isTemplate := edge.justification.any (contains · "rule_template:")
  let isIoOrVdev := edge.justification.any fun item =>
    startsWith item "io:" || startsWith item "vdev_dep:"
  let isProtected := isIoOrVdev || edgeIsSemanticLifecycle nodes edge ||
    edge.kind = EdgeKind.hardData
  toLex ([if isProtected then 1 else 0, kindRank edge.kind,
    if isCandidate then 0 else if isTemplate then 1 else 2], toLex (edge.srcMssu, edge.dstMssu))

/-! ### The loop -/

/-- Warns of a demoted edge and records it. -/
def noteDemotion (message key : String) (removed : DependencyEdge)
    (diagnostics : DAGBuildDiagnostics) : DAGBuildDiagnostics :=
  let arrow := removed.srcMssu ++ "->" ++ removed.dstMssu
  (diagnostics.warn (message ++ " detected; demoted edge " ++ arrow ++ " to SOFT_ORDER")
    (key ++ ":" ++ arrow)).recordRemovedEdge removed.srcMssu removed.dstMssu

/-- Removes victims until there is none, and notes each. -/
def demote (victim : List DependencyEdge → Option (DependencyEdge × ℕ)) (message key : String) :
    ℕ → List DependencyEdge → DAGBuildDiagnostics → List DependencyEdge × DAGBuildDiagnostics
  | 0, edges, diagnostics => (edges, diagnostics)
  | rounds + 1, edges, diagnostics =>
      match victim edges with
      | none => (edges, diagnostics)
      | some (removed, idx) =>
          demote victim message key rounds (edges.eraseIdx idx)
            (noteDemotion message key removed diagnostics)

/-! ### Cycles of MSSUs -/

/-- The ends of an edge. -/
def edgeEnds (edge : DependencyEdge) : String × String := (edge.srcMssu, edge.dstMssu)

/-- All nodes are visited by Kahn's algorithm. -/
def acyclic (edges : List DependencyEdge) : Bool :=
  (kahnOrder nodes.keys (edges.map edgeEnds)).length = nodes.keys.length

/-- The edge of the least rank, while there is a cycle. -/
def cycleVictim (edges : List DependencyEdge) : Option (DependencyEdge × ℕ) :=
  if edges.isEmpty || acyclic nodes edges then none
  else firstMinBy (fun row => edgeRemovalRank nodes row.1) edges.zipIdx

def breakCycles (edges : List DependencyEdge) (diagnostics : DAGBuildDiagnostics) :
    List DependencyEdge × DAGBuildDiagnostics :=
  demote (cycleVictim nodes) "Hard cycle" "hard-cycle" edges.length edges diagnostics

/-! ### Cycles of actions -/

/-- The actions of an MSSU; an unknown one has none. -/
def actionsOf (mssuId : String) : List String :=
  ((nodes.get? mssuId).map effectiveActionRefs).getD []

/-- Every action of the source before every other action of the target. -/
def edgeActions (edge : DependencyEdge) : List (String × String) :=
  (actionsOf nodes edge.srcMssu).flatMap fun src =>
    ((actionsOf nodes edge.dstMssu).filter (src ≠ ·)).map fun dst => (src, dst)

def actionEdges (edges : List DependencyEdge) : List (String × String) :=
  edges.flatMap (edgeActions nodes)

/-- The successors of an action, in the order of a set. -/
def adjacency (edges : List DependencyEdge) (action : String) : List String :=
  lib.setOrder (outOf (actionEdges nodes edges) action).eraseDups

/-- The components of the action graph that carry a cycle. -/
def actionGraphSccs (edges : List DependencyEdge) : List (List String) :=
  tarjan (adjacency lib nodes edges)
    ((actionEdges nodes edges).flatMap fun p => [p.1, p.2]).eraseDups

/-- May an edge be removed to break a cycle of actions? -/
def isRemovable (cycleActions : List String) (edge : DependencyEdge) : Bool :=
  (actionsOf nodes edge.srcMssu).any (cycleActions.contains ·) &&
    (actionsOf nodes edge.dstMssu).any (cycleActions.contains ·) &&
    (edge.justification.any fun item =>
      startsWith item "vdev_dep:" || startsWith item "rule_template:") &&
    edge.kind ≠ EdgeKind.hardData

def actionCycleVictim (edges : List DependencyEdge) : Option (DependencyEdge × ℕ) :=
  let cycleActions := (actionGraphSccs lib nodes edges).flatten
  firstMinBy (fun row => edgeRemovalRank nodes row.1)
    (edges.zipIdx.filter fun row => isRemovable nodes cycleActions row.1)

def breakActionLevelCycles (edges : List DependencyEdge) (diagnostics : DAGBuildDiagnostics) :
    List DependencyEdge × DAGBuildDiagnostics :=
  demote (actionCycleVictim lib nodes) "Action-level hard cycle" "action-hard-cycle" edges.length
    edges diagnostics

end Cycles

/-! ## Candidates -/

def softOrderFromCandidate (src dst edgeType : String) : SoftConstraint where
  kind := SoftConstraintKind.softOrder
  scope := [src, dst]
  params := [("reason", .str ("candidate:" ++ edgeType))]
  guard := "true"
  fallback := "preserve_action_order"

/-- Two known MSSUs. -/
def bothKnown (nodes : Nodes) (src dst : String) : Option (MSSU × MSSU) :=
  match nodes.get? src, nodes.get? dst with
  | some srcMssu, some dstMssu => some (srcMssu, dstMssu)
  | _, _ => none

/-- One candidate: a hard edge, a soft order, or nothing. -/
def addCandidate (nodes : Nodes) (edges : Edges) (candidate : String × String × String) : Edges :=
  let (src, dst, edgeType) := candidate
  let soft := edges.addSoft (softOrderFromCandidate src dst edgeType)
  let hard (kind : String) := edges.addHard
    { srcMssu := src, dstMssu := dst, kind, justification := ["candidate:" ++ edgeType] }
  if edgeType = "DATA_DEP" then
    match bothKnown nodes src dst with
    | none => edges
    | some (srcMssu, dstMssu) =>
        if allowCrossActionHardData srcMssu dstMssu none &&
            candidateHardEdgeAllowed srcMssu dstMssu edgeType then hard EdgeKind.hardData
        else soft
  else if edgeType = "LIFECYCLE_DEP" then
    match bothKnown nodes src dst with
    | none => soft
    | some (srcMssu, dstMssu) =>
        if isSemanticLifecycleCandidate srcMssu dstMssu &&
            candidateHardEdgeAllowed srcMssu dstMssu edgeType then hard EdgeKind.hardLifecycle
        else soft
  else if edgeType = "CONTROL_DEP" || edgeType = "EXCEPTION_DEP" then soft
  else edges

/-! ## Inputs -/

/-- The set of the MSSUs that have an output, in the order of a set. -/
def producersOf (lib : Library) (mssus : List MSSU) (name : String) : List String :=
  lib.setOrder (((mssus.filter (·.outputs.contains name)).map MSSU.mssuId).eraseDups)

/-- One producer of an input. -/
def addProducer (nodes : Nodes) (mssu : MSSU) (name : String) (edges : Edges)
    (producerId : String) : Edges :=
  let hard := edges.addHard
    { srcMssu := producerId, dstMssu := mssu.mssuId, kind := EdgeKind.hardData
      justification := ["io:outputs_intersect_inputs"] }
  if producerId = mssu.mssuId then edges
  else
    match nodes.get? producerId with
    | none => hard
    | some producer =>
        if skipCrossActionUpdateHardEdge producer mssu then edges
        else if !allowCrossActionHardData producer mssu (some name) then edges
        else if !candidateHardEdgeAllowed producer mssu "DATA_DEP" then
          edges.addSoft (softOrderFromCandidate producerId mssu.mssuId "DATA_DEP")
        else hard

/-- One input of an MSSU. -/
def addInput (lib : Library) (mssus : List MSSU) (nodes : Nodes) (edges : Edges)
    (row : MSSU × String) : Edges :=
  if genericIoSymbol row.2 then edges
  else (producersOf lib mssus row.2).foldl (addProducer nodes row.1 row.2) edges

def addInputs (lib : Library) (mssus : List MSSU) (nodes : Nodes) (edges : Edges) : Edges :=
  (mssus.flatMap fun mssu => mssu.inputs.map fun name => (mssu, name)).foldl
    (addInput lib mssus nodes) edges

/-! ## Dependencies of the target -/

/-- The MSSU that stands for an action, when there is one. -/
def representativeMssusForAction (nodes : Nodes) (index : ActionIndex) (actionId : String) :
    List String :=
  let actionId := strip actionId
  let scopedNodes := nodes.values.filter fun mssu => (effectiveActionRefs mssu).contains actionId
  let primaryNodes := scopedNodes.filter fun mssu => mssuPrimaryAction mssu = actionId
  let candidates := if primaryNodes.isEmpty then scopedNodes else primaryNodes
  let action := index.get? actionId
  let byType (mssu : MSSU) : ℕ ×ₗ String := toLex (mssuTypePriority mssu, mssu.mssuId)
  let aggregates := candidates.filter (·.isAggregateSink)
  let updates := candidates.filter fun mssu => mssuTypeOf mssu = "UPDATE"
  let chosen :=
    if actionIsAggregateSink action && !aggregates.isEmpty then firstMinBy byType aggregates
    else if actionIsWriteback action && !updates.isEmpty then firstMinBy byType updates
    else firstMinBy
      (fun mssu => toLex (if mssuPrimaryAction mssu = actionId then 0 else 1, byType mssu))
      candidates
  (chosen.map MSSU.mssuId).toList

/-- `str(dep.get(key, "")).strip()`. -/
def dependencyEnd (dep : Dict) (key : String) : String := strip (dep.getD key (.str "")).pyStr

/-- One pair of representatives of a dependency. -/
def addRepresentatives (nodes : Nodes) (dep : Dict) (edges : Edges) (pair : String × String) :
    Edges :=
  let (src, dst) := pair
  let arrow := dependencyEnd dep "before" ++ "->" ++ dependencyEnd dep "after"
  if src = dst then edges
  else
    match bothKnown nodes src dst with
    | none => edges
    | some (srcMssu, dstMssu) =>
        if skipCrossActionUpdateHardEdge srcMssu dstMssu then
          edges.note ("Skipped cross-action UPDATE hard dependency " ++ src ++ "->" ++ dst ++
            " for " ++ arrow)
        else
          edges.addHard
            { srcMssu := src, dstMssu := dst, kind := EdgeKind.hardControl
              justification := ["vdev_dep:" ++ arrow, (dep.getD "reason" (.str "")).pyStr] }

/-- A dependency between two writebacks, neither of which collects the others, stays soft. -/
def softWriteback (scope : List String) (arrow : String) : SoftConstraint where
  kind := SoftConstraintKind.softOrder
  scope := scope
  params := [("reason", .str ("vdev_dep_soft_writeback:" ++ arrow))]
  guard := "true"
  fallback := "preserve_action_order"

/-- `by_action.get(action_id, [])`. -/
def byAction (nodes : Nodes) (index : ActionIndex) (actionId : String) : List String :=
  if index.keys.contains actionId then representativeMssusForAction nodes index actionId else []

/-- A hard dependency between two known actions. -/
def injectKnownDependency (nodes : Nodes) (index : ActionIndex) (edges : Edges) (dep : Dict)
    (beforeAction afterAction : Dict) : Edges :=
  let before := dependencyEnd dep "before"
  let after := dependencyEnd dep "after"
  let arrow := before ++ "->" ++ after
  let srcReps := byAction nodes index before
  let dstReps := byAction nodes index after
  if actionIsWriteback beforeAction && actionIsWriteback afterAction &&
      !actionIsAggregateSink afterAction then
    if actionIsAggregateSink beforeAction then
      edges.note ("Skipped reverse writeback hard dependency " ++ arrow ++
        "; aggregate sink cannot source sibling writeback")
    else
      let scope := sortedSet (srcReps ++ dstReps)
      if scope.isEmpty then edges else edges.addSoft (softWriteback scope arrow)
  else if srcReps.isEmpty || dstReps.isEmpty then
    edges.note ("Skipped vdev dependency without representatives: " ++ arrow)
  else (srcReps.flatMap fun src => dstReps.map fun dst => (src, dst)).foldl
    (addRepresentatives nodes dep) edges

/-- One hard dependency of the target. -/
def injectHardDependency (nodes : Nodes) (index : ActionIndex) (edges : Edges) (dep : Dict) :
    Edges :=
  let before := dependencyEnd dep "before"
  let after := dependencyEnd dep "after"
  if before = "" || after = "" then edges
  else
    match index.get? before, index.get? after with
    | some beforeAction, some afterAction =>
        injectKnownDependency nodes index edges dep beforeAction afterAction
    | _, _ => edges

/-- One soft dependency of the target. -/
def injectSoftDependency (nodes : Nodes) (index : ActionIndex) (edges : Edges) (dep : Dict) :
    Edges :=
  let before := dependencyEnd dep "before"
  let after := dependencyEnd dep "after"
  let scope := sortedSet (byAction nodes index before ++ byAction nodes index after)
  if before = "" || after = "" || scope.isEmpty then edges
  else
    edges.addSoft
      { kind := SoftConstraintKind.minGap, scope
        params := [("reason", .str (dep.getD "reason" (.str "vdev_soft_dependency")).pyStr)]
        guard := "true", fallback := "preserve_action_order" }

def injectVdevDependencies (nodes : Nodes) (target : Option OptimizationTarget) (edges : Edges) :
    Edges :=
  match target with
  | none => edges
  | some target =>
      let index := Scheduler.actionIndex target
      target.softDependencies.foldl (injectSoftDependency nodes index)
        (target.hardDependencies.foldl (injectHardDependency nodes index) edges)

/-! ## Soft constraints -/

/-- The MSSUs that a constraint without a scope is over. -/
def defaultScope (mssus : List MSSU) : List String :=
  let critical := (mssus.filter (·.critical)).map MSSU.mssuId
  if critical.isEmpty then mssus.map MSSU.mssuId else critical

/-- `params.setdefault(key, value)`. -/
def setDefault (params : Dict) (key : String) (value : Val) : Dict :=
  if (params.get? key).isSome then params else params.set key value

/-- `kind in {item.value for item in SoftConstraintKind}`; a list or a dict does not hash. -/
def isSoftConstraintKind : Val → Except PyErr Bool
  | .str kind => .ok (SoftConstraintKind.values.contains kind)
  | .list _ => .error .typeError
  | .dict _ => .error .typeError
  | _ => .ok false

/-- The constraint of one template. -/
def templateConstraint (mssus : List MSSU) (rule : ProfileRule) (tpl : Dict) :
    Except PyErr (List SoftConstraint) := do
  let kind := tpl.getD "kind" (.str SoftConstraintKind.budgetK)
  let valid ← isSoftConstraintKind kind
  let raw := match tpl.getD "scope" (.list []) with
    | .list hints => hints
    | hint => [hint]
  let scopeHint := (raw.map fun hint => strip hint.pyStr).filter (· ≠ "")
  let named := (mssus.filter fun mssu => scopeHint.any (mssuMatchesHint mssu)).map MSSU.mssuId
  let params := setDefault (setDefault (tpl.get "params").asDict "rule_id" (.str rule.ruleId))
    "template_kind" kind
  return if !valid || (named.isEmpty && !scopeHint.isEmpty) then []
    else
      [{ kind := kind.pyStr, scope := if named.isEmpty then defaultScope mssus else named, params
         guard := (tpl.getD "guard" (.str rule.guard)).pyStr
         fallback := (tpl.getD "fallback" (.str rule.fallback)).pyStr }]

/-- Does an MSSU use a resource? -/
def usesResource (resource : String) (mssu : MSSU) : Bool :=
  (mssuEffectTokens mssu).any fun token =>
    (resource = "BLE" && (startsWith token "ble_" || token = "ble_op")) ||
    (resource = "CLOUD" && (startsWith token "cloud_" || token = "cloud_op")) ||
    (resource = "HA" && (["ha_state_write", "state_write", "coord_refresh", "coord_first_refresh",
      "entry_setup", "entry_unload", "entry_remove"].contains token || startsWith token "entry_"))

/-- The limit on one resource. -/
def resourceLimit (mssus : List MSSU) (row : String × Val) : List SoftConstraint :=
  let resource := upper row.1
  let scope := (mssus.filter (usesResource resource)).map MSSU.mssuId
  if row.2.isNumber then
    [{ kind := SoftConstraintKind.budgetK
       scope := if scope.isEmpty then defaultScope mssus else scope
       params := [("resource", .str resource), ("limit", .int row.2.numberInt)]
       guard := "resource_constrained", fallback := "reduce_parallelism" }]
  else []

/-- The limits of the target. -/
def targetLimits (mssus : List MSSU) : Option OptimizationTarget →
    Except PyErr (List SoftConstraint)
  | none => .ok []
  | some target => do
      let knobs ← (Dict.getD target.constraints "optimization_knobs" (.dict [])).needDict
      return ((Dict.get knobs "max_concurrency").asDict).flatMap (resourceLimit mssus)

/-- The constraints of the rules and of the target. -/
def addSoftConstraints (profile : HAPProfile) (mssus : List MSSU)
    (target : Option OptimizationTarget) : Except PyErr (List SoftConstraint) := do
  let fromRules ← (profile.enabledRules.flatMap fun rule =>
    rule.softConstraintTemplates.map fun tpl => (rule, tpl)).mapM
      fun row => templateConstraint mssus row.1 row.2
  let limits ← targetLimits mssus target
  return fromRules.flatten ++ limits

/-! ## Deduplication -/

/-- The last edge of each pair of ends and kind, at the place of the first one. -/
def dedupHardEdges (edges : List DependencyEdge) : List DependencyEdge :=
  (OrderedDict.ofList (edges.map fun edge =>
    ((edge.srcMssu, edge.dstMssu, edge.kind), edge))).values

/-- How much a reason weighs. -/
def softConstraintReasonRank (constraint : SoftConstraint) : ℕ ×ₗ String :=
  let reason := lower (constraint.params.getD "reason" (.str "")).pyStr
  toLex (if reason = "cycle_break" then 3 else if startsWith reason "vdev_dep:" then 2
    else if startsWith reason "template:" then 1 else 0, reason)

/-- Keeps a soft order unless one of the same scope and no lower rank is there. -/
def keepSoftOrder (keep : OrderedDict (List String) SoftConstraint) (constraint : SoftConstraint) :
    OrderedDict (List String) SoftConstraint :=
  match keep.get? constraint.scope with
  | none => keep.set constraint.scope constraint
  | some previous =>
      if softConstraintReasonRank previous < softConstraintReasonRank constraint then
        keep.set constraint.scope constraint
      else keep

/-- One soft order for each scope, after the other constraints. -/
def dedupSoftOrderConstraints (constraints : List SoftConstraint) : List SoftConstraint :=
  constraints.filter (·.kind ≠ SoftConstraintKind.softOrder) ++
    ((constraints.filter (·.kind = SoftConstraintKind.softOrder)).foldl keepSoftOrder
      .empty).values

/-! ## The whole graph -/

/-- The soft order in place of a removed edge. -/
def cycleBreak (edge : String × String) : SoftConstraint where
  kind := SoftConstraintKind.softOrder
  scope := [edge.1, edge.2]
  params := [("reason", .str "cycle_break")]
  guard := "true"
  fallback := "force_topological_local_order"

/-- The hard edges with their duplicates dropped. -/
def Edges.dedupHard (edges : Edges) : Edges := { edges with hard := dedupHardEdges edges.hard }

/-- The MSSUs by id. -/
def nodesOf (mssus : List MSSU) : Nodes := .ofList (mssus.map fun mssu => (mssu.mssuId, mssu))

/-- The edges of the candidates, the templates and the inputs. -/
def collectEdges (lib : Library) (profile : HAPProfile) (mssus : List MSSU)
    (candidates : List (String × String × String)) (target : Option OptimizationTarget) :
    Except PyErr Edges := do
  let nodes := nodesOf mssus
  let edges ← injectRuleTemplateHardEdges lib profile (actionTable target) mssus
    (candidates.foldl (addCandidate nodes) {})
  return (addInputs lib mssus nodes edges).dedupHard

/-- The dependencies of the target, after the edges collected so far.  Their soft constraints come
first. -/
def injectTarget (mssus : List MSSU) (target : Option OptimizationTarget) (edges : Edges) :
    Edges :=
  let injected := (injectVdevDependencies (nodesOf mssus) target
    { edges with soft := [] }).dedupHard
  { injected with soft := injected.soft ++ edges.soft }

/-- The edges that are left when no cycle is, with what was removed. -/
def breakAllCycles (lib : Library) (nodes : Nodes) (edges : Edges) : Edges :=
  let (byAction, diagnostics) := breakActionLevelCycles lib nodes edges.hard edges.diagnostics
  let (hard, diagnostics) := breakCycles nodes byAction diagnostics
  { edges with hard, diagnostics }

def build (lib : Library) (profile : HAPProfile) (mssus : List MSSU)
    (candidates : List (String × String × String)) (target : Option OptimizationTarget) :
    Except PyErr (TypedDAG × DAGBuildDiagnostics) := do
  let collected ← collectEdges lib profile mssus candidates target
  let edges := breakAllCycles lib (nodesOf mssus) (injectTarget mssus target collected)
  let constraints ← addSoftConstraints profile mssus target
  return ({ nodes := nodesOf mssus
            hardEdges := edges.hard
            softConstraints := dedupSoftOrderConstraints
              (edges.soft ++ constraints ++ edges.diagnostics.removedHardEdges.map cycleBreak) },
    edges.diagnostics)

end FloWeaver.Dag
