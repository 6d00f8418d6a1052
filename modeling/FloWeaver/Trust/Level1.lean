import FloWeaver.Contracts
import FloWeaver.Lib.Pieces
import FloWeaver.Plan.Rows
import FloWeaver.Py.Sort
import FloWeaver.Scheduler.Schedule

/-!
# Level-1 rollback

The first answer to a counterexample is a patch of the plan: smaller groups, no session reuse,
one action per batch, or gaps and no overlap.  A patch that changes nothing is no patch.

* `actionRank`, `actionIndex` — the actions of the target, as the trust layer numbers them.
* `appendFallback`, `appendGuard` — rows added to a batch.
* `reduceParallelism`, `disableSessionReuse`, `disableBatching`, `enforceMinGapNoOverlap` — the
  strategies, each with the changes it makes.
* `applyLevel1Patch` — the patched plan and the row for the rollback log.
-/

namespace FloWeaver.Trust

open Py ListCut
open Scheduler (strList floatVal batchIdText)

/-- The strategies of the first level, in the order of `LEVEL1_STRATEGIES`. -/
inductive Level1Strategy where
  | reduceParallelism
  | disableSessionReuse
  | disableBatching
  | enforceMinGapNoOverlap
deriving DecidableEq, Repr

namespace Level1Strategy

def text : Level1Strategy → String
  | reduceParallelism => "reduce_parallelism"
  | disableSessionReuse => "disable_session_reuse"
  | disableBatching => "disable_batching"
  | enforceMinGapNoOverlap => "enforce_min_gap_no_overlap"

end Level1Strategy

def level1Strategies : List Level1Strategy :=
  [.reduceParallelism, .disableSessionReuse, .disableBatching, .enforceMinGapNoOverlap]

/-! ## Actions -/

/-- `str(action.get("action_id", "")).strip()`. -/
def trimmedId (action : Dict) : String := strip (action.getD "action_id" (.str "")).pyStr

def vdevActions (target : Option OptimizationTarget) : List Dict :=
  (target.map OptimizationTarget.vdevActions).getD []

/-- The position of every action in the declaration; the last one of an id counts. -/
def actionRank (target : Option OptimizationTarget) : OrderedDict String ℕ :=
  .ofList (((vdevActions target).zipIdx.map fun row => (trimmedId row.1, row.2)).filter
    fun row => row.1 ≠ "")

/-- `rank.get(action_id, 10_000)`. -/
def rankOf (target : Option OptimizationTarget) (actionId : String) : ℕ :=
  ((actionRank target).get? actionId).getD 10000

def actionIndex (target : Option OptimizationTarget) : OrderedDict String Dict :=
  .ofList (((vdevActions target).map fun action => (trimmedId action, action)).filter
    fun row => row.1 ≠ "")

def normalizedActionProtocol (action : Option Dict) : String :=
  match action with
  | none => "UNKNOWN"
  | some action =>
      let protocol := upper (strip (action.getD "protocol" (.str "")).pyStr)
      if protocol = "MQTT" then "LOCAL" else if protocol = "" then "UNKNOWN" else protocol

/-- The trimmed ids of a batch, by protocol. -/
def batchProtocolScopes (batch : Batch) (index : OrderedDict String Dict) :
    OrderedDict String (List String) :=
  (orderedGroup batch.parallelGroups.flatten).foldl
    (fun scopes actionId =>
      let protocol := normalizedActionProtocol (index.get? actionId)
      let known := (scopes.get? protocol).getD []
      scopes.set protocol (if known.contains actionId then known else known ++ [actionId]))
    .empty

/-! ## Rows -/

/-- Adds a row unless an equal one is there. -/
def addRow (rows : List Dict) (row : Dict) : List Dict :=
  if rows.any fun other => (Val.dict row).eqv (.dict other) then rows else rows ++ [row]

def appendFallback (rows : List Dict) (kind mode : String) (scope : List String)
    (params : Dict) : List Dict :=
  addRow rows [("kind", .str kind), ("scope", strList (scope.filter (strip · ≠ ""))),
    ("action", .str mode), ("params", .dict params)]

/-- A guard row with its four fields read and written back. -/
def normalizeGuard (row : Dict) : Except PyErr Dict := do
  let scope ← rowScope row
  return [("kind", .str (row.getD "kind" (.str "")).pyStr), ("scope", strList scope),
    ("expr", .str (row.getD "expr" (.str "true")).pyStr),
    ("enforced", .bool (row.getD "enforced" (.bool true)).truthy)]

def appendGuard (rows : List Dict) (kind expr : String) (scope : List String) :
    Except PyErr (List Dict) := do
  let normalized ← rows.mapM normalizeGuard
  return addRow normalized [("kind", .str kind), ("scope", strList scope), ("expr", .str expr),
    ("enforced", .bool true)]

/-! ## Changes -/

def change (path : String) (before after : Val) : Dict :=
  [("path", .str path), ("from", before), ("to", after)]

def batchPath (batch : Batch) (field : String) : String :=
  "batch:" ++ batch.batchId ++ "." ++ field

/-- The change of a field, if it is one. -/
def changeIfDifferent (path : String) (before after : Val) : List Dict :=
  if before.eqv after then [] else [change path before after]

def groupsVal (groups : List (List String)) : Val := .list (groups.map strList)

def rowsVal (rows : List Dict) : Val := .list (rows.map .dict)

/-! ## Smaller groups -/

/-- `max(1, old - 1) if old > 1 else 1`. -/
def reduced (old : ℤ) : ℤ := if 1 < old then max 1 (old - 1) else 1

/-- One limit of the policy, reduced. -/
def reduceLimit (policy : Dict) (key : String) : Except PyErr (Dict × List Dict) := do
  let old ← (policy.getD key (.int 1)).toInt
  return if reduced old = old then (policy, [])
    else (policy.set key (.int (reduced old)),
      [change ("meta.policy." ++ key) (.int old) (.int (reduced old))])

/-- The chunks of a group that is too large, in the order of the declaration. -/
def regroup (target : Option OptimizationTarget) (maxGroup : ℕ) (group : List String) :
    List (List String) :=
  let orderedGroup := group.filter (strip · ≠ "")
  if orderedGroup.isEmpty then []
  else if orderedGroup.length ≤ maxGroup then [orderedGroup]
  else chunks maxGroup
    (sortedBy (fun actionId => (toLex (rankOf target actionId, actionId) : ℕ ×ₗ String))
      orderedGroup)

def regroupBatch (target : Option OptimizationTarget) (maxGroup : ℕ) (batch : Batch) :
    Batch × List Dict :=
  let regrouped := batch.parallelGroups.flatMap (regroup target maxGroup)
  if regrouped.isEmpty ∨ regrouped = batch.parallelGroups then (batch, [])
  else ({ batch with parallelGroups := regrouped },
    [change (batchPath batch "parallel_groups") (groupsVal batch.parallelGroups)
      (groupsVal regrouped)])

def reduceParallelism (target : Option OptimizationTarget) (plan : MetaPlan) :
    Except PyErr (MetaPlan × List Dict) := do
  let policy ← (plan.planMeta.getD "policy" (.dict [])).needDict
  let (policy, total) ← reduceLimit policy "max_parallel"
  let (policy, ble) ← reduceLimit policy "ble_parallel"
  let (policy, cloud) ← reduceLimit policy "cloud_parallel"
  let maxParallel ← (policy.getD "max_parallel" (.int 1)).toInt
  let batches := plan.orderedBatches.map (regroupBatch target (max 1 maxParallel).toNat)
  return ({ orderedBatches := batches.map (·.1),
            planMeta := plan.planMeta.set "policy" (.dict policy) },
    total ++ ble ++ cloud ++ batches.flatMap (·.2))

/-! ## No session reuse -/

def stopReuse (batch : Batch) : Batch × List Dict :=
  let after := (batch.sessionPolicy.set "reuse" (.bool false)).set "max_age_s" (.int 0)
  ({ batch with sessionPolicy := after },
    changeIfDifferent (batchPath batch "session_policy") (.dict batch.sessionPolicy) (.dict after))

def disableSessionReuse (plan : MetaPlan) : MetaPlan × List Dict :=
  let batches := plan.orderedBatches.map stopReuse
  ({ plan with orderedBatches := batches.map (·.1) }, batches.flatMap (·.2))

/-! ## One action per batch -/

/-- The batch of a single action. -/
def singleBatch (idx : ℕ) (actionId : String) : Batch where
  batchId := batchIdText idx
  parallelGroups := [[actionId]]
  sessionPolicy := [("reuse", .bool false), ("max_age_s", .int 0)]
  ratePolicy := [("max_qps", .float 1 "1.0"), ("batch_size", .int 1)]
  fallback :=
    [[("kind", .str SoftConstraintKind.minGap), ("scope", .list []),
        ("action", .str "preserve_action_order"), ("params", .dict [])],
      [("kind", .str SoftConstraintKind.noOverlap), ("scope", .list []),
        ("action", .str "set_ble_parallelism_to_1"), ("params", .dict [])]]

/-- The actions in the order of the declaration; those that are equal in it keep their order. -/
def declaredOrder (target : Option OptimizationTarget) (actions : List String) : List String :=
  sortedBy (fun actionId =>
      (toLex (rankOf target actionId,
        ((OrderedDict.ofList actions.zipIdx).get? actionId).getD 10000) : ℕ ×ₗ ℕ))
    actions

def disableBatching (target : Option OptimizationTarget) (plan : MetaPlan) :
    Except PyErr (MetaPlan × List Dict) := do
  let orderedActions ← planExecutionOrder plan.toExecutionPlan
  return if orderedActions.length ≤ 1 then (plan, [])
    else
      let newBatches := (declaredOrder target orderedActions).mapIdx singleBatch
      ({ plan with orderedBatches := newBatches },
        [[("path", .str "ordered_batches"),
          ("from_batch_count", .int plan.orderedBatches.length),
          ("to_batch_count", .int newBatches.length)]])

/-! ## Gaps and no overlap -/

def bleSerialParams : Dict := [("reason", .str "m6_level1_ble_transport_serial")]

def enforceGaps (index : OrderedDict String Dict) (batch : Batch) :
    Except PyErr (Batch × List Dict) := do
  let bleScope := ((batchProtocolScopes batch index).get? "BLE").getD []
  let guards ← appendGuard batch.guards SoftConstraintKind.budgetK "resource_constrained" []
  let fallback :=
    if 2 ≤ bleScope.length then
      appendFallback
        (appendFallback batch.fallback SoftConstraintKind.minGap "preserve_action_order" bleScope
          bleSerialParams)
        SoftConstraintKind.noOverlap "set_ble_parallelism_to_1" bleScope bleSerialParams
    else batch.fallback
  let maxQps ← (batch.ratePolicy.getD "max_qps" (.float 5 "5.0")).toFloat
  let ratePolicy := batch.ratePolicy.set "max_qps" (floatVal (min maxQps 1))
  return ({ batch with guards, fallback, ratePolicy },
    changeIfDifferent (batchPath batch "guards") (rowsVal batch.guards) (rowsVal guards) ++
      changeIfDifferent (batchPath batch "fallback") (rowsVal batch.fallback) (rowsVal fallback) ++
      changeIfDifferent (batchPath batch "rate_policy") (.dict batch.ratePolicy)
        (.dict ratePolicy))

def enforceMinGapNoOverlap (target : Option OptimizationTarget) (plan : MetaPlan) :
    Except PyErr (MetaPlan × List Dict) := do
  let batches ← plan.orderedBatches.mapM (enforceGaps (actionIndex target))
  return ({ plan with orderedBatches := batches.map (·.1) }, batches.flatMap (·.2))

/-! ## The patch -/

/-- What a rollback step is attributed to. -/
def rollReason (counterexamples : List CounterExample) : Dict :=
  [("counterexample_ids", strList (counterexamples.map (·.counterexampleId))),
    ("scenario_ids", strList (counterexamples.map (·.scenarioId))),
    ("culprit_anchors", strList (sortedSet (counterexamples.flatMap (·.culpritIds))))]

/-- The plan after a strategy, with the changes. -/
def level1Changes (target : Option OptimizationTarget) (plan : MetaPlan) :
    Level1Strategy → Except PyErr (MetaPlan × List Dict)
  | .reduceParallelism => reduceParallelism target plan
  | .disableSessionReuse => .ok (disableSessionReuse plan)
  | .disableBatching => disableBatching target plan
  | .enforceMinGapNoOverlap => enforceMinGapNoOverlap target plan

/-- The patched plan and the patch; without a change the plan as it was and no patch. -/
def applyLevel1Patch (plan : MetaPlan) (strategyIndex : ℤ) (target : Option OptimizationTarget)
    (counterexamples : List CounterExample) : Except PyErr (MetaPlan × Option Dict) :=
  if strategyIndex < 0 then .ok (plan, none)
  else
    match level1Strategies[strategyIndex.toNat]? with
    | none => .ok (plan, none)
    | some strategy => do
        let (patched, changes) ← level1Changes target plan strategy
        return if changes.isEmpty then (plan, none)
          else (patched,
            some [("kind", .str "plan_patch"), ("level", .str "LEVEL_1"),
              ("strategy", .str strategy.text), ("reason", .dict (rollReason counterexamples)),
              ("changes", rowsVal changes)])

end FloWeaver.Trust
