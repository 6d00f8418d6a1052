import FloWeaver.Lib.Pieces
import FloWeaver.Py.Sort
import FloWeaver.Scheduler.Context
import FloWeaver.Scheduler.HardGraph
import FloWeaver.Scheduler.Policy
import FloWeaver.Scheduler.Search

/-!
# The schedule

`schedule` computes the tables, refuses a cyclic hard graph, and then builds one batch
after the other from the ready actions until every action is done.

* `extendBuckets`, `buildBatchingBuckets` — the shared requests of a layer.
* `groupSelectedActions` — the groups of one layer.
* `softOrderLayers`, `buildParallelGroups` — the groups of a batch.
* `orderedScope` — a set of actions in declaration order.
* `projectSoftConstraint` — one constraint: dropped, rewritten or mapped.
* `projectSoftConstraints` — all of them, and the soft dependencies of the target.
* `prepare` — everything before the loop.
* `optimizerProposal`, `greedyPick`, `forcedPick`, `selectBatch` — how a batch is chosen.
* `scheduleLoop` — the loop, as a list of steps.
* `assembleBatch`, `schedule` — the plan that the steps give.
-/

/-!
## Splitting a batch into parallel groups

The actions selected for a batch are split into layers by the soft order, and each layer into
groups: the shared cloud requests that the batch and session rules ask for, runs of local
reads, and single actions.
-/

namespace FloWeaver.Scheduler

open Py ListCut

variable (ctx : Ctx)

/-- Cloud calls that share requests. -/
structure BatchingBucket where
  ruleKind : String
  groupKey : String
  bucket : String
  members : List String
  maxBatchSize : ℤ
  maxWaitMs : ℤ

/-- The number of requests a bucket needs. -/
def BatchingBucket.chunkCount (b : BatchingBucket) : ℤ :=
  max 1 ((b.members.length + b.maxBatchSize - 1) / b.maxBatchSize)

/-! ## Buckets -/

/-- The actions of a scope in the order of the selection. -/
def scopedActions (scope selected : List String) : List String :=
  selected.filter (scope.contains ·)

/-- The bucket of an action under a rule; the empty text means none. -/
def bucketKey (idempotentOnly : Bool) (valueFn : Dict → String → String) (groupKey actionId : String) :
    String :=
  let action := ctx.action actionId
  if actionProtocol action = .cloud && !actionIsWriteback action &&
      (!idempotentOnly || actionIsIdempotent action) then strip (valueFn action groupKey)
  else ""

/-- The buckets of two or more actions with one key.  The scope actions come in the order of
the selection, so buckets and members are in that order too. -/
def extendBuckets (ruleKind : String) (scopeActions : List String) (groupKey : String)
    (maxBatchSize maxWaitMs : ℤ) (idempotentOnly : Bool) (valueFn : Dict → String → String) :
    List BatchingBucket :=
  let keyOf := bucketKey ctx idempotentOnly valueFn groupKey
  let keys := ((scopeActions.map keyOf).filter (· ≠ "")).eraseDups
  let row (key : String) : BatchingBucket :=
    { ruleKind, groupKey, bucket := key, members := scopeActions.filter (keyOf · = key)
      maxBatchSize := max 1 maxBatchSize, maxWaitMs := max 0 maxWaitMs }
  (keys.map row).filter (2 ≤ ·.members.length)

def batchRuleBuckets (selected : List String) (rule : BatchRule) : List BatchingBucket :=
  let inScope := scopedActions rule.scope selected
  if inScope.length < 2 then []
  else extendBuckets ctx SoftConstraintKind.batchGroup inScope rule.groupKey rule.maxBatchSize
    rule.maxWaitMs rule.idempotentOnly actionBatchGroupValue

def sessionRuleBuckets (selected : List String) (rule : SessionRule) : List BatchingBucket :=
  let inScope := scopedActions rule.scope selected
  if inScope.length < 2 then []
  else
    let overlapping := ctx.derived.batchRules.filter fun row => row.scope.any (inScope.contains ·)
    extendBuckets ctx SoftConstraintKind.sameSessionGroup inScope rule.groupKey
      (minOr 4 (overlapping.map fun row => max 1 row.maxBatchSize))
      (minOr 40 (overlapping.map fun row => max 0 row.maxWaitMs)) false actionGroupValue

/-- The buckets of the batch rules, or of the session rules when there are none. -/
def buildBatchingBuckets (selected : List String) : List BatchingBucket :=
  let buckets := ctx.derived.batchRules.flatMap (batchRuleBuckets ctx selected)
  if !buckets.isEmpty then buckets
  else ctx.derived.sessionRules.flatMap (sessionRuleBuckets ctx selected)

/-! ## Groups of a layer -/

/-- A pending run of local reads becomes a group. -/
def flushGroup (run : List String) : List (List String) := if run.isEmpty then [] else [run]

/-- A local read that may run beside other local reads. -/
def isLocalRead (actionId : String) : Bool :=
  ctx.protocol actionId = .localNet && !ctx.isWriteback actionId && ctx.isBatchSafe actionId

/-- The groups of the actions that no bucket took: runs of local reads, else one by one. -/
def unassignedGroups (assigned : List String) : List String → List String → List (List String)
  | run, [] => flushGroup run
  | run, a :: rest =>
      if assigned.contains a then flushGroup run ++ unassignedGroups assigned [] rest
      else if isLocalRead ctx a then unassignedGroups assigned (run ++ [a]) rest
      else flushGroup run ++ [a] :: unassignedGroups assigned [] rest

/-- The members of a bucket as they are emitted. -/
def bucketMembers (b : BatchingBucket) : List String := b.members.filter (· ≠ "")

/-- The groups of one layer, and the buckets behind them. -/
def groupSelectedActions (selected : List String) :
    List (List String) × List BatchingBucket :=
  if selected.isEmpty then ([], [])
  else if ctx.derived.batchRules.isEmpty && ctx.derived.sessionRules.isEmpty then
    ([selected], [])
  else
    let buckets := buildBatchingBuckets ctx selected
    let assigned := buckets.flatMap bucketMembers
    let groups := buckets.flatMap fun b => chunks (max 1 b.maxBatchSize).toNat (bucketMembers b)
    (groups ++ unassignedGroups ctx assigned [] selected, buckets)

/-! ## Layers -/

/-- The soft order inside a selection. -/
def softEdges (selected : List String) : List (String × String) :=
  (ctx.derived.softOrderPairs.filter fun p =>
    selected.contains p.1 && selected.contains p.2 && p.1 ≠ p.2).dedup

/-- One layer after the other: the remaining actions without a remaining predecessor, or the
first remaining action when the order is cyclic. -/
def layerLoop (edges : List (String × String)) : ℕ → List String → (String → ℕ) → List (List String)
  | 0, _, _ => []
  | _ + 1, [], _ => []
  | fuel + 1, a :: rest, indegree =>
      let free := (a :: rest).filter fun x => indegree x = 0
      let layer := if free.isEmpty then [a] else free
      let remaining := (a :: rest).filter fun x => !layer.contains x
      let indegree' (x : String) : ℕ :=
        indegree x - (edges.filter fun e => layer.contains e.1 && e.2 = x).length
      layer :: layerLoop edges fuel remaining indegree'

def softOrderLayers (selected : List String) : List (List String) :=
  let edges := softEdges ctx selected
  layerLoop edges selected.length selected
    fun x => (edges.filter fun e => e.2 = x).length

/-- The place of a single action in conservative mode. -/
def conservativeKey (actionId : String) : ℕ ×ₗ ℤ ×ₗ ℕ ×ₗ String :=
  toLex (ctx.rank actionId, toLex (ctx.observableAnchorPriority actionId,
    toLex (if ctx.isWriteback actionId then 1 else 0, actionId)))

/-- The order of the single actions in conservative mode. -/
def conservativeOrder (selected : List String) : List String :=
  sortedBy (conservativeKey ctx) selected

/-- The position of the first action of a group in the order. -/
def firstPosition (order group : List String) : ℕ :=
  minOr 10000 (group.map fun a => if order.contains a then order.idxOf a else 10000)

/-- The layers that are grouped one by one. -/
def groupingLayers (selected : List String) : List (List String) :=
  if ctx.conservativeGrouping || (softEdges ctx selected).isEmpty then [selected]
  else softOrderLayers ctx selected

/-- The parallel groups of a batch, and the buckets behind them. -/
def buildParallelGroups (selected : List String) : List (List String) × List BatchingBucket :=
  if selected.isEmpty then ([], [])
  else
    let parts := (groupingLayers ctx selected).map (groupSelectedActions ctx)
    let groups := parts.flatMap (·.1)
    let buckets := parts.flatMap (·.2)
    if ctx.conservativeGrouping then
      (sortedBy (firstPosition (conservativeOrder ctx selected)) groups, buckets)
    else (groups, buckets)

end FloWeaver.Scheduler

/-!
## Projection of the soft constraints

The soft constraints of the graph are over MSSUs and actions; the scheduler needs them over
actions only.
-/

namespace FloWeaver.Scheduler

open Py

/-- The place of an action in the declaration order; unknown actions come last, by id. -/
def declarationKey (index : ActionIndex) (actionId : String) : ℕ ×ₗ String :=
  toLex (if index.keys.contains actionId then index.keys.idxOf actionId else 10000, actionId)

/-- A set of actions in declaration order. -/
def orderedScope (index : ActionIndex) (scopeActions : List String) : List String :=
  sortedBy (declarationKey index) ((scopeActions.filter (· ≠ "")).dedup)

/-- The actions that the scope of a constraint stands for. -/
def scopeActions (dag : TypedDAG) (index : ActionIndex) (scope : List String) : List String :=
  (scope.flatMap fun nodeId =>
    (if index.keys.contains nodeId then [nodeId] else []) ++ mssuToActions dag nodeId).dedup

/-- A control dependency of several local reads on one local writeback becomes one pair per
read. -/
def rewriteControlDepWritebackScope (index : ActionIndex) (kind : String) (scope : List String)
    (params : Dict) (guard fallback : String) : Option (List SoftConstraint) :=
  let action := actionOf index
  let writebacks := scope.filter fun a =>
    index.keys.contains a && actionLane (action a) = .writebackLocal
  let others := scope.filter fun a => !writebacks.contains a && index.keys.contains a
  if upper (strip kind) = SoftConstraintKind.softOrder &&
      strip (params.getD "reason" (.str "")).pyStr = "candidate:CONTROL_DEP" &&
      2 ≤ others.length && (others.all fun a => actionProtocol (action a) = .localNet) &&
      others.all fun a => actionIsReadLike (action a) then
    match writebacks with
    | [writebackId] => some (others.map fun a =>
        { kind, scope := [a, writebackId], params, guard, fallback })
    | _ => none
  else none

/-- The reason under which a minimal gap is dropped for actions that subscribe. -/
def sharedRadioReason : String := "shared_radio_or_transport_budget"

/-- One soft constraint over actions. -/
def projectSoftConstraint (dag : TypedDAG) (index : ActionIndex) (constraint : SoftConstraint) :
    List SoftConstraint :=
  let actions := scopeActions dag index constraint.scope
  let kind := upper (strip constraint.kind)
  let scope := orderedScope index actions
  let known := (scope.filter (index.keys.contains ·)).map (actionOf index)
  let dropped :=
    kind = SoftConstraintKind.minGap &&
    (constraint.params.getD "reason" (.str "")).pyStr = sharedRadioReason &&
    match known with
    | a :: b :: _ => !needsBleMinGap a b
    | _ => false
  if actions.isEmpty || dropped then []
  else
    match rewriteControlDepWritebackScope index kind scope constraint.params constraint.guard
        constraint.fallback with
    | some rewritten => rewritten
    | none => [{ constraint with scope }]

/-- A soft dependency of the target: a minimal gap between two known actions. -/
def projectSoftDependency (index : ActionIndex) (dep : Dict) : List SoftConstraint :=
  let before := (dep.getD "before" (.str "")).pyStr
  let after := (dep.getD "after" (.str "")).pyStr
  let reason := (dep.getD "reason" (.str "vdev_soft_dependency")).pyStr
  if !index.keys.contains before || !index.keys.contains after then []
  else if reason = sharedRadioReason &&
      !needsBleMinGap (actionOf index before) (actionOf index after) then []
  else [{ kind := SoftConstraintKind.minGap, scope := [before, after]
          params := [("reason", .str reason)], guard := "true"
          fallback := "preserve_action_order" }]

def projectSoftConstraints (dag : TypedDAG) (index : ActionIndex) (target : OptimizationTarget) :
    List SoftConstraint :=
  dag.softConstraints.flatMap (projectSoftConstraint dag index) ++
    target.softDependencies.flatMap (projectSoftDependency index)

end FloWeaver.Scheduler

namespace FloWeaver.Scheduler

open Py DepGraph

/-! ## Errors -/

/-- Why there is no plan. -/
inductive ScheduleError where
  /-- A conversion of a malformed value. -/
  | python (e : PyErr)
  /-- `M5 scheduling blocked by hard-edge cycle`. -/
  | hardEdgeCycle (report : List CycleReport)
  /-- `M5 scheduling blocked by unresolved hard-edge cycle`. -/
  | unresolvedCycle (nodes : List String)

/-- The errors that reach the caller as a `ValueError`. -/
def ScheduleError.isValueError : ScheduleError → Bool
  | .python e => e = .valueError
  | .hardEdgeCycle _ | .unresolvedCycle _ => true

/-- Raises the errors of the conversions. -/
def liftPy {α : Type} : Except PyErr α → Except ScheduleError α
  | .ok a => .ok a
  | .error e => .error (.python e)

/-! ## Before the loop -/

/-- `latency_ms` of an action; a weight that is no number fails as soon as it is negated. -/
def latencyWeight (metrics : Dict) (actionId : String) : Except PyErr ℚ := do
  let weights ← (metrics.getD "latency_ms" (.dict [])).needDict
  let weight := weights.getD actionId (.int 1)
  if weight.isNumber then return weight.number else throw .typeError

/-- The weights of all actions. -/
def latencyWeights (metrics : Dict) (actionIds : List String) :
    Except PyErr (OrderedDict String ℚ) := do
  let rows ← actionIds.mapM fun a => do return (a, ← latencyWeight metrics a)
  return .ofList rows

def conservativeObservableGroupingEnabled (target : OptimizationTarget) : Bool :=
  ((Dict.get target.validation "differential_tests").asDict.getD "enabled" (.bool false)).truthy

def baselineTraceHints (target : OptimizationTarget) : Dict :=
  ((Dict.get target.validation "observation").asDict.get "baseline_order_hints").asDict

/-- Caps the recorded parameters of a batch rule. -/
def capActiveRow (row : ActiveConstraint) : Except PyErr ActiveConstraint :=
  if upper (strip row.kind) = SoftConstraintKind.batchGroup then do
    return { row with params := ← applyExecutionBatchCapParams row.params }
  else return row

/-- Caps the batch rules in conservative mode. -/
def capDerived (conservative : Bool) (d : DerivedConstraintPolicy) :
    Except PyErr DerivedConstraintPolicy :=
  if conservative then do
    let active ← d.activeConstraints.mapM capActiveRow
    return { d with batchRules := d.batchRules.map applyExecutionBatchCap
                    activeConstraints := active }
  else return d

/-- The derived policy as the loop uses it: capped in conservative mode, fallbacks once. -/
def finalDerived (conservative : Bool) (index : ActionIndex) (d : DerivedConstraintPolicy) :
    Except PyErr DerivedConstraintPolicy := do
  let d ← capDerived conservative d
  return { d with triggeredFallbacks := dedupeFallbackRows index d.triggeredFallbacks }

/-- The policy, from the base, the target and the metrics. -/
def effectivePolicy (base : SchedulerPolicy) (metrics : Dict) (target : OptimizationTarget) :
    Except PyErr SchedulerPolicy := do
  policyFromMetrics (← policyFromTarget base target) metrics

/-- The derived policy of a run. -/
def derivedPolicy (policy : SchedulerPolicy) (dag : TypedDAG) (metrics : Dict)
    (target : OptimizationTarget) : Except PyErr DerivedConstraintPolicy := do
  let index := actionIndex target
  let d ← derivePolicyFromConstraints policy (projectSoftConstraints dag index target) metrics
    target
  finalDerived (conservativeObservableGroupingEnabled target) index d

/-- Refuses a hard graph with cycles. -/
def refuseCycles (hard : HardGraph) : Except ScheduleError Unit :=
  if (resolveCycles hard).isEmpty then .ok () else .error (.hardEdgeCycle (resolveCycles hard))

/-- The tables of a run; a cyclic hard graph is refused here. -/
def prepare (base : SchedulerPolicy) (dag : TypedDAG) (metrics : Dict)
    (target : OptimizationTarget) : Except ScheduleError Ctx := do
  let policy ← liftPy (effectivePolicy base metrics target)
  let index := actionIndex target
  let hard ← liftPy (projectHardGraph dag index target)
  refuseCycles hard
  let reduced := transitiveReduce hard
  let weights ← liftPy (latencyWeights metrics index.keys)
  let derived ← liftPy (derivedPolicy policy dag metrics target)
  return { index, dag, derived, hard := reduced
           conservativeGrouping := conservativeObservableGroupingEnabled target
           baselineTraceHints := baselineTraceHints target
           criticalScore := criticalPathScore reduced.graph fun a => (weights.get? a).getD 1
           phases := actionPhaseMap index }

/-! ## Choosing a batch -/

variable (ctx : Ctx)

/-- Where a proposal of the optimiser comes from. -/
inductive OptimizerMode where
  | none
  | corridor
  | frontierWindow
  | bleApiFrontier
deriving DecidableEq

/-- The order that the optimiser proposes: from the corridor, else from the frontier window,
else from the window behind a BLE action. -/
def optimizerProposal (f : Frontier String) : OptimizerMode × List String :=
  let search (window : List String) (opts : SearchOptions) : List String :=
    if window.isEmpty then []
    else corridorSearchFirstBatch ctx window f.ready f.done f.indegree opts
  let corridor := search (extractOptimizableCorridor ctx f.done) {}
  let frontier := search (extractFrontierWindow ctx f.ready f.done)
    { beamWidth := 8, lookaheadDepth := 4, cheapLocalOverlap := true }
  let bleApiWindow := extractBleApiFrontierWindow ctx f.ready f.done
  let bleApi := search bleApiWindow
    { beamWidth := 8, lookaheadDepth := 4, cheapLocalOverlap := true
      requiredFirstBatchActions := bleApiWindow.take 1
      minFirstBatchSize := 2, allowBleApiFrontier := true }
  if !ctx.conservativeGrouping then (.none, [])
  else if !corridor.isEmpty then (.corridor, corridor)
  else if !frontier.isEmpty then (.frontierWindow, frontier)
  else if !bleApi.isEmpty then (.bleApiFrontier, bleApi)
  else (.none, [])

/-- The batch that the proposal gives under the admission test. -/
def optimizedState (f : Frontier String) : BatchBuildState :=
  let (mode, order) := optimizerProposal ctx f
  if order.isEmpty then {}
  else buildBatchFromOrder ctx (mode = .bleApiFrontier) false order f.ready f.done

/-- The next pick of the greedy loop. -/
def greedyPick (f : Frontier String) (st : BatchBuildState) : Option String :=
  if (st.unknownCount ≥ ctx.derived.unknownLimit && !st.selected.isEmpty) ||
      st.selected.any ctx.isFat then none
  else
    let remaining := f.ready.filter fun node => !st.selected.contains node
    (sortedBy (fun node => candidateSortKey ctx node st.selected f.done st.selectedGroupCounts)
      remaining).find? fun a => candidateAllowedInBatch ctx false a st f.ready f.done

/-- The batch before forced picks: the optimiser's, else the greedy one. -/
def plannedState (f : Frontier String) : BatchBuildState :=
  let optimized := optimizedState ctx f
  if optimized.selected.isEmpty then buildLoop ctx (greedyPick ctx f) f.ready.length optimized
  else optimized

/-! ## Forced picks -/

/-- A soft rule that stands against a candidate. -/
structure Blocker where
  kind : String
  scope : List String
  params : Dict

def Blocker.toDict (b : Blocker) : Dict :=
  [("kind", .str b.kind), ("scope", strList b.scope), ("params", .dict b.params)]

/-- The soft rules against a candidate. -/
def candidateSoftBlockers (candidate : String) (st : BatchBuildState) (done : List String) :
    List Blocker :=
  let budgets := (ctx.budgetRuleIds candidate).filterMap fun ruleId =>
    match ctx.derived.budgetRules[ruleId]? with
    | some rule =>
        if st.budgetCounts ruleId < max 1 rule.limit then none
        else some { kind := SoftConstraintKind.budgetK
                    scope := sortedStr (rule.scope.filter (· ≠ ""))
                    params := [("resource", .str rule.resource), ("limit", .int (max 1 rule.limit))] }
    | none => none
  let overlaps := (ctx.overlapScopeIds candidate).filterMap fun scopeId =>
    if st.noOverlapCounts scopeId ≤ 0 then none
    else some { kind := SoftConstraintKind.noOverlap
                scope := sortedStr ((ctx.derived.noOverlapScopes[scopeId]?).getD [])
                params := [("scope_id", .int scopeId)] }
  let gaps := st.selected.filterMap fun src =>
    (ctx.derived.minGapPairs.get? (src, candidate)).map fun gapMs =>
      { kind := SoftConstraintKind.minGap, scope := [src, candidate]
        params := [("gap_ms", .int gapMs)] }
  let orders := (sortedPairs ctx.derived.softOrderPairs).filterMap fun p =>
    if p.2 ≠ candidate ∨ p.1 ∈ done ∨ p.1 ∈ st.selected then none
    else some { kind := SoftConstraintKind.softOrder, scope := [p.1, candidate]
                params := [("waiting_for", .str p.1)] }
  budgets ++ overlaps ++ gaps ++ orders

/-- The weight of a blocker of a kind. -/
def blockerWeight (kind : String) : ℕ :=
  if kind = SoftConstraintKind.softOrder then 1
  else if kind = SoftConstraintKind.budgetK then 2
  else if kind = SoftConstraintKind.noOverlap then 3
  else if kind = SoftConstraintKind.minGap then 4
  else 10

/-- The order of the forced picks: safety rules, total weight, number and kinds of the
blockers, then the critical actions, then the id. -/
abbrev ForcedKey := ℕ ×ₗ ℕ ×ₗ ℕ ×ₗ List String ×ₗ ℤ ×ₗ ℚ ×ₗ String

def forcedPickKey (actionId : String) (blockers : List Blocker) : ForcedKey :=
  let kinds := blockers.map (·.kind)
  let safety := kinds.any fun k => k = SoftConstraintKind.noOverlap || k = SoftConstraintKind.minGap
  toLex (if safety then 1 else 0, toLex ((kinds.map blockerWeight).sum, toLex (kinds.length,
    toLex (sortedStr kinds, toLex (-ctx.criticalBoost actionId,
      toLex (-ctx.criticalScore actionId, actionId))))))

def forcedPickRow (actionId : String) (blockers : List Blocker) : FallbackRow where
  kind := "FORCED_PICK"
  scope := [actionId]
  action := "force_pick_despite_soft_conflicts"
  params := [("picked", .str actionId), ("blocked_by", .list (blockers.map (.dict ·.toDict)))]

/-- The ready action with the least blockers, and why it was blocked. -/
def forcedPick (f : Frontier String) : Option (String × List Blocker) :=
  let options := (sortedStr f.ready).map fun a => (a, candidateSoftBlockers ctx a {} f.done)
  (sortedBy (fun option => forcedPickKey ctx option.1 option.2) options).head?

/-- A chosen batch: the actions in the order of the picks, and the forced pick if there was
one. -/
structure Selection where
  selected : List String
  forced : Option (String × List Blocker)

/-- The next batch. -/
def selectBatch (f : Frontier String) : Selection :=
  let planned := (plannedState ctx f).selected
  if planned.isEmpty then
    match forcedPick ctx f with
    | some pick => { selected := [pick.1], forced := some pick }
    | none => { selected := [], forced := none }
  else { selected := planned, forced := none }

/-! ## The loop -/

/-- One round of the loop: what was done before, and the batch that was chosen. -/
structure BatchStep where
  before : Frontier String
  selection : Selection

/-- The rounds of the loop; every batch does at least one action, so their number bounds it. -/
def scheduleLoop : ℕ → Frontier String → Except ScheduleError (List BatchStep)
  | 0, _ => .ok []
  | fuel + 1, f =>
      if ctx.index.keys.length ≤ f.done.length then .ok []
      else if f.ready.isEmpty then
        .error (.unresolvedCycle (sortedStr (ctx.index.keys.filter (!f.done.contains ·))))
      else do
        let selection := selectBatch ctx f
        let rest ← scheduleLoop fuel (f.completeAll ctx.hard.graph selection.selected)
        return { before := f, selection } :: rest

/-! ## The plan -/

/-- A computed float; its text is never printed. -/
def floatVal (q : ℚ) : Val := .float q ""

def BatchRule.toDict (row : BatchRule) : Dict :=
  [("scope", strList row.scope), ("group_key", .str row.groupKey),
    ("max_batch_size", .int row.maxBatchSize), ("max_wait_ms", .int row.maxWaitMs),
    ("idempotent_only", .bool row.idempotentOnly)]

def BatchingBucket.toDict (b : BatchingBucket) : Dict :=
  [("rule_kind", .str b.ruleKind), ("group_key", .str b.groupKey), ("bucket", .str b.bucket),
    ("members", strList b.members), ("size", .int b.members.length),
    ("chunks", .int b.chunkCount), ("max_batch_size", .int b.maxBatchSize),
    ("max_wait_ms", .int b.maxWaitMs)]

/-- The gaps that the batch has to wait for: their first end was done before. -/
def minGapRules (step : BatchStep) : List (String × String × ℤ) :=
  step.selection.selected.flatMap fun after =>
    ((ctx.minGapByAfter after).filter fun row => step.before.done.contains row.1).map
      fun row => (row.1, after, row.2)

/-- The longest of the gaps. -/
def minGapBeforeMs (step : BatchStep) : ℤ :=
  match (minGapRules ctx step).map (·.2.2) with
  | [] => 0
  | gap :: gaps => gaps.foldl max gap

/-- The kinds of the hard edges at the selected actions. -/
def batchConstraintKinds (step : BatchStep) : List String :=
  (ctx.hard.edgeKinds.rows.filter fun row =>
    step.selection.selected.contains row.1.1 || step.selection.selected.contains row.1.2).flatMap
      (·.2)

/-- `f"batch_{idx:03d}"`. -/
def batchIdText (idx : ℕ) : String :=
  let digits := toString idx
  "batch_" ++ String.ofList (List.replicate (3 - digits.length) '0') ++ digits

def sessionPolicy : Dict :=
  [("reuse", .bool ctx.derived.reuseEnabled),
    ("max_age_s", .int (max 1 (Val.truncate (ctx.derived.reuseWindowMs / 1000)))),
    ("session_groups", .list (ctx.derived.sessionRules.map fun rule =>
      .dict [("group_key", .str rule.groupKey), ("scope", strList rule.scope)]))]

def ratePolicy (step : BatchStep) (buckets : List BatchingBucket) (fallback : List FallbackRow) :
    Dict :=
  let forced := step.selection.forced.toList
  [("max_qps", floatVal ctx.derived.maxQps), ("burst", .int ctx.derived.rateLimitBurst),
    ("window_ms", .int ctx.derived.rateLimitWindowMs),
    ("batch_size", .int step.selection.selected.length),
    ("batch_rules", .list (ctx.derived.batchRules.map (.dict ·.toDict))),
    ("batching_buckets", .list (buckets.map (.dict ·.toDict))),
    ("min_gap_before_ms", .int (minGapBeforeMs ctx step)),
    ("min_gap_rules", .list ((minGapRules ctx step).map fun row =>
      .dict [("before", .str row.1), ("after", .str row.2.1), ("gap_ms", .int row.2.2)])),
    ("forced_pick", .bool step.selection.forced.isSome),
    ("forced_pick_target", strList ((forced.map (·.1)).filter (· ≠ ""))),
    ("forced_pick_blocked_kinds", strList (sortedSet (forced.flatMap (·.2.map (·.kind))))),
    ("adaptive_controls", .list (fallback.map (.dict ·.toDict)))]

/-- The batch of a round. -/
def assembleBatch (idx : ℕ) (step : BatchStep) : Batch :=
  let selected := step.selection.selected
  let forcedRows := step.selection.forced.toList.map fun pick => forcedPickRow pick.1 pick.2
  let fallback := collectFallbacks ctx selected forcedRows
  let (groups, buckets) := buildParallelGroups ctx selected
  { batchId := batchIdText idx
    parallelGroups := groups
    constraints := sortedSet (batchConstraintKinds ctx step ++
      if step.selection.forced.isSome then ["FORCED_PICK"] else [])
    sessionPolicy := sessionPolicy ctx
    ratePolicy := ratePolicy ctx step buckets fallback
    guards := collectGuards ctx selected
    fallback := fallback.map FallbackRow.toDict }

/-- The rounds of a run. -/
def scheduleSteps : Except ScheduleError (List BatchStep) :=
  scheduleLoop ctx ctx.index.keys.length (Frontier.start ctx.hard.graph)

/-- The plan of the rounds. -/
def assemblePlan (steps : List BatchStep) : ExecutionPlan :=
  { orderedBatches := steps.zipIdx.map fun row => assembleBatch ctx row.2 row.1 }

/-- The plan, or why there is none.  A target without actions gets the empty plan. -/
def schedule (base : SchedulerPolicy) (dag : TypedDAG) (metrics : Dict)
    (target : OptimizationTarget) : Except ScheduleError ExecutionPlan := do
  if (actionIndex target).keys.isEmpty then
    let _ ← liftPy (effectivePolicy base metrics target)
    return {}
  let ctx ← prepare base dag metrics target
  return assemblePlan ctx (← scheduleSteps ctx)

end FloWeaver.Scheduler
