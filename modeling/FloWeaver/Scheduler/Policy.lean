import FloWeaver.Scheduler.Action
import FloWeaver.Scheduler.Guard

/-!
# Policies

The limits a schedule has to respect: the base policy, overridden by the knobs of the
target and by the runtime metrics, and then narrowed by the soft constraints whose guards
hold.

* `policyFromTarget`, `policyFromMetrics` — the two overrides.
* `applyFallback`, `applyConstraint`, `deriveStep` — what one soft constraint does.
* `derivePolicyFromConstraints` — the fold over all of them, the inferred batching rules
  and the final clamps.
-/

namespace FloWeaver.Scheduler

open Py

/-- The base limits. -/
structure SchedulerPolicy where
  maxParallel : ℤ := 4
  bleParallel : ℤ := 1
  cloudParallel : ℤ := 3
  localParallel : ℤ := 4
  defaultQps : ℚ := 5

/-- At most `limit` actions of the scope in a batch. -/
structure BudgetRule where
  resource : String
  scope : List String
  limit : ℤ

/-- Cloud calls of the scope with one key may share a request. -/
structure BatchRule where
  scope : List String
  groupKey : String
  maxBatchSize : ℤ
  maxWaitMs : ℤ
  idempotentOnly : Bool

/-- Cloud calls of the scope with one key may share a session. -/
structure SessionRule where
  scope : List String
  groupKey : String
  reuseWindowMs : ℤ

/-- A soft constraint as it was met, with the value of its guard. -/
structure ActiveConstraint where
  kind : String
  scope : List String
  params : Dict
  guard : String
  fallback : String
  enforced : Bool

/-- A fallback that was triggered, over a scope. -/
structure FallbackRow where
  kind : String
  scope : List String
  action : String
  params : Dict

/-- The limits and rules derived from the soft constraints. -/
structure DerivedConstraintPolicy where
  totalLimit : ℤ
  bleLimit : ℤ
  cloudLimit : ℤ
  localLimit : ℤ
  unknownLimit : ℤ
  maxQps : ℚ
  rateLimitBurst : ℤ
  rateLimitWindowMs : ℤ
  reuseEnabled : Bool := true
  reuseWindowMs : ℤ := 20000
  latencyBudgetMs : ℤ
  budgetRules : List BudgetRule := []
  batchRules : List BatchRule := []
  sessionRules : List SessionRule := []
  noOverlapScopes : List (List String) := []
  minGapPairs : OrderedDict (String × String) ℤ := .empty
  softOrderPairs : List (String × String) := []
  activeConstraints : List ActiveConstraint := []
  triggeredFallbacks : List FallbackRow := []

/-! ## Overrides -/

/-- `max(1, int(value))` when a value is a number, else what stood there before. -/
def parallelOverride (value : Val) (old : ℤ) : ℤ :=
  if value.isNumber then max 1 value.numberInt else old

def policyFromTarget (base : SchedulerPolicy) (target : OptimizationTarget) :
    Except PyErr SchedulerPolicy := do
  let knobs ← (Dict.getD target.constraints "optimization_knobs" (.dict [])).needDict
  let policy :=
    match knobs.get "allow_concurrency" with
    | .bool false =>
        { base with maxParallel := 1, bleParallel := 1, cloudParallel := 1, localParallel := 1 }
    | _ => base
  let maxConcurrency := (knobs.get "max_concurrency").asDict
  let maxQps := knobs.get "max_qps"
  return { bleParallel := parallelOverride (maxConcurrency.get "ble") policy.bleParallel
           cloudParallel := parallelOverride (maxConcurrency.get "cloud") policy.cloudParallel
           localParallel := parallelOverride (maxConcurrency.get "local") policy.localParallel
           maxParallel := parallelOverride (maxConcurrency.get "total") policy.maxParallel
           defaultQps := if maxQps.isNumber then maxQps.number else policy.defaultQps }

/-- The overrides an offline tuning run left in the metrics. -/
def policyFromOverrides (base : SchedulerPolicy) (overrides : Dict) : SchedulerPolicy :=
  let maxQps := overrides.get "max_qps"
  { maxParallel := parallelOverride (overrides.get "max_parallel") base.maxParallel
    bleParallel := parallelOverride (overrides.get "ble_parallel") base.bleParallel
    cloudParallel := parallelOverride (overrides.get "cloud_parallel") base.cloudParallel
    localParallel := parallelOverride (overrides.get "local_parallel") base.localParallel
    defaultQps := if maxQps.isNumber then max (1 / 10) maxQps.number else base.defaultQps }

def policyFromMetrics (base : SchedulerPolicy) (metrics : Dict) :
    Except PyErr SchedulerPolicy := do
  let policy := policyFromOverrides base (metrics.get "offline_policy_overrides").asDict
  match metrics.getD "risk_indicators" (.dict []) with
  | .dict risks =>
    let bleTimeout ← (Dict.getD risks "ble_timeout_rate" (.int 0)).toFloat
    let policy := if bleTimeout ≥ 1 / 5 then { policy with bleParallel := 1 } else policy
    let recent429 ← (Dict.getD risks "recent_429_rate" (.int 0)).toFloat
    let policy :=
      if recent429 ≥ 1 / 10 then
        { policy with cloudParallel := min policy.cloudParallel 1
                      defaultQps := min policy.defaultQps 1 }
      else policy
    let loopLoad ← (Dict.getD risks "ha_loop_load" (.int 0)).toFloat
    return if loopLoad ≥ 4 / 5 then { policy with maxParallel := min policy.maxParallel 1 }
      else policy
  | _ => return policy

/-! ## Fallbacks -/

/-- A fallback row that grouping may soften instead of dropping. -/
def isGroupingKind (kind : String) : Bool :=
  kind = SoftConstraintKind.batchGroup || kind = SoftConstraintKind.sameSessionGroup

/-- `min(int(params.get(key, default)), cap)`, written back. -/
def capParam (params : Dict) (key : String) (default cap : ℤ) : Except PyErr Dict := do
  let value ← (params.getD key (.int default)).toInt
  return params.set key (.int (min value cap))

def applyBatchShrinkParams (params : Dict) : Except PyErr Dict := do
  let out ← capParam params "max_batch_size" 20 4
  capParam out "max_wait_ms" 80 40

/-- The parameters, shrunk when asked for. -/
def shrinkIf (shrinks : Bool) (params : Dict) : Except PyErr Dict :=
  if shrinks then applyBatchShrinkParams params else .ok params

/-- The cap of the batch rules in conservative mode, on the parameters of a row. -/
def applyExecutionBatchCapParams (params : Dict) : Except PyErr Dict := do
  let out ← capParam params "max_batch_size" 20 3
  capParam out "max_wait_ms" 80 40

/-- The cap of the batch rules in conservative mode. -/
def applyExecutionBatchCap (rule : BatchRule) : BatchRule :=
  { rule with maxBatchSize := min rule.maxBatchSize 3, maxWaitMs := min rule.maxWaitMs 40 }

def fallbackTriggersOnInactiveGuard (kind guard fallback : String) : Bool :=
  let kindU := upper (strip kind)
  let guardL := lower (strip guard)
  let fallbackL := lower (strip fallback)
  if guardL = "" || guardL = "true" then false
  else if isGroupingKind kindU then true
  else if kindU = SoftConstraintKind.minGap && contains fallbackL "disable_ble_reuse" then true
  else ["_low", "_ok", "allows_batching", "latency_budget_allows", "success_rate_ok"].any
    (contains guardL ·)

def highBatchingRisk (metrics : Dict) : Except PyErr Bool := do
  let recent429 ← ((metricsDict metrics "risk_indicators").getD "recent_429_rate" (.int 0)).toFloat
  let flags := metricsDict metrics "guard_flags"
  return recent429 ≥ 1 / 10 || (metrics.get "trust_mismatch_on_batching").truthy ||
    (metrics.get "replay_error_on_batching").truthy ||
    (flags.get "trust_mismatch_on_batching").truthy ||
    (flags.get "replay_error_on_batching").truthy

def normalizedFallbackMode (kind fallback : String) (metrics : Dict) : Except PyErr String := do
  let mode := strip fallback
  if mode = "" then return mode
  if isGroupingKind (upper (strip kind)) && contains mode "disable_batching" then
    if ← highBatchingRisk metrics then return mode else return "shrink_batch_not_disable"
  return mode

/-- The effects of a fallback mode on the limits and rules. -/
def fallbackEffects (modeL : String) (derived : DerivedConstraintPolicy) :
    DerivedConstraintPolicy :=
  let d := derived
  let d := if contains modeL "disable_reuse" then { d with reuseEnabled := false } else d
  let d := if contains modeL "reduce_qps" then { d with maxQps := min d.maxQps 1 } else d
  let d :=
    if contains modeL "serialize_local_api_reads" then { d with localLimit := 1 }
    else if contains modeL "reduce_parallelism" || contains modeL "serialize" then
      { d with totalLimit := 1 }
    else d
  let d := if contains modeL "set_ble_parallelism_to_1" then { d with bleLimit := 1 } else d
  let d := if contains modeL "set_cloud_parallelism_to_1" then { d with cloudLimit := 1 } else d
  let d := if contains modeL "set_local_parallelism_to_1" then { d with localLimit := 1 } else d
  let d := if contains modeL "serial_unknown" then { d with unknownLimit := 1 } else d
  let d := if contains modeL "disable_batching" then { d with batchRules := [] } else d
  if contains modeL "shrink_batch" then
    { d with batchRules := d.batchRules.map fun row =>
        { row with maxBatchSize := min row.maxBatchSize 4, maxWaitMs := min row.maxWaitMs 40 } }
  else d

def applyFallback (mode : String) (scope : List String) (params : Dict) (kind : String)
    (derived : DerivedConstraintPolicy) : Except PyErr DerivedConstraintPolicy := do
  let modeL := lower mode
  let effectiveParams ← shrinkIf (contains modeL "shrink_batch" && isGroupingKind kind) params
  let row : FallbackRow := { kind, scope, action := mode, params := effectiveParams }
  return fallbackEffects modeL
    { derived with triggeredFallbacks := derived.triggeredFallbacks ++ [row] }

/-! ## One constraint -/

def constraintScopeSet (constraint : SoftConstraint) : List String :=
  sortedSet (constraint.scope.filter (· ≠ ""))

/-- The resources a budget may name. -/
def budgetResources : List String :=
  ["BLE", "BLE_PARALLEL", "CLOUD", "CLOUD_PARALLEL", "LOCAL", "LOCAL_PARALLEL", "HA", "TOTAL",
    "TOTAL_PARALLEL"]

def applyBudget (scope : List String) (params : Dict) (d : DerivedConstraintPolicy) :
    Except PyErr DerivedConstraintPolicy := do
  let resource := upper (params.getD "resource" (.str "")).pyStr
  let limit ← (params.getD "limit" (.int 1)).toInt
  if scope ≠ [] ∧ resource ∈ budgetResources then
    return { d with budgetRules := d.budgetRules ++ [{ resource, scope, limit := max 1 limit }] }
  if resource ∈ ["BLE", "BLE_PARALLEL"] then
    return { d with bleLimit := max 1 (min d.bleLimit limit) }
  if resource ∈ ["CLOUD", "CLOUD_PARALLEL"] then
    return { d with cloudLimit := max 1 (min d.cloudLimit limit) }
  if resource ∈ ["LOCAL", "LOCAL_PARALLEL"] then
    return { d with localLimit := max 1 (min d.localLimit limit) }
  if resource ∈ ["TOTAL", "TOTAL_PARALLEL"] then
    return { d with totalLimit := max 1 (min d.totalLimit limit) }
  return d

def applyNoOverlap (scope : List String) (params : Dict) (d : DerivedConstraintPolicy) :
    DerivedConstraintPolicy :=
  let resource := upper (params.getD "resource" (.str "")).pyStr
  let d := if startsWith resource "BLE" then { d with bleLimit := 1 } else d
  { d with noOverlapScopes := d.noOverlapScopes ++ [scope] }

def applyRateLimit (params : Dict) (d : DerivedConstraintPolicy) : DerivedConstraintPolicy :=
  let maxQps := params.get "max_qps"
  let burst := params.get "burst"
  let windowMs := params.get "window_ms"
  { d with
    maxQps := if maxQps.isNumber then min d.maxQps maxQps.number else d.maxQps
    rateLimitBurst :=
      if burst.isNumber then max 1 (min d.rateLimitBurst burst.numberInt) else d.rateLimitBurst
    rateLimitWindowMs :=
      if windowMs.isNumber then max 1 (min d.rateLimitWindowMs windowMs.numberInt)
      else d.rateLimitWindowMs }

def applyBackoff (params : Dict) (guardActive : Bool) (d : DerivedConstraintPolicy) :
    Except PyErr DerivedConstraintPolicy := do
  if guardActive then
    let factor ← (params.getD "factor" (.int 2)).toFloat
    return { d with maxQps := min d.maxQps (max (1 / 10) (d.maxQps / max 1 factor))
                    cloudLimit := max 1 (min d.cloudLimit 1) }
  return d

/-- Adds a batch rule, unless its size or waiting time makes it void. -/
def addBatchRule (scope : List String) (params : Dict) (d : DerivedConstraintPolicy) :
    Except PyErr DerivedConstraintPolicy := do
  let maxWaitMs ← (params.getD "max_wait_ms" (.int 80)).toInt
  let maxWaitMs :=
    if d.latencyBudgetMs > 0 then min maxWaitMs (max 0 (d.latencyBudgetMs / 4)) else maxWaitMs
  let maxBatchSize ← (params.getD "max_batch_size" (.int 20)).toInt
  let row : BatchRule :=
    { scope, groupKey := (params.getD "group_key" (.str "endpoint")).pyStr, maxBatchSize, maxWaitMs
      idempotentOnly := (params.getD "idempotent_only" (.bool false)).truthy }
  return if maxBatchSize > 1 ∧ maxWaitMs ≥ 0 then { d with batchRules := d.batchRules ++ [row] }
    else d

def addSessionRule (scope : List String) (params : Dict) (d : DerivedConstraintPolicy) :
    Except PyErr DerivedConstraintPolicy := do
  let reuseWindowMs ← (params.getD "reuse_window_ms" (.int 10000)).toInt
  let row : SessionRule :=
    { scope, groupKey := (params.getD "group_key" (.str "host")).pyStr, reuseWindowMs }
  return { d with reuseWindowMs := max d.reuseWindowMs reuseWindowMs
                  sessionRules := d.sessionRules ++ [row] }

/-- The neighbours of a list. -/
def neighbours : List String → List (String × String)
  | a :: b :: rest => (a, b) :: neighbours (b :: rest)
  | _ => []

/-- Records a minimal gap between two actions, which is also an order. -/
def addMinGap (gapMs : ℤ) (d : DerivedConstraintPolicy) (pair : String × String) :
    DerivedConstraintPolicy :=
  { d with
    minGapPairs := d.minGapPairs.set pair (max ((d.minGapPairs.get? pair).getD 0) gapMs)
    softOrderPairs := d.softOrderPairs.insert pair }

def addSoftOrder (d : DerivedConstraintPolicy) (pair : String × String) :
    DerivedConstraintPolicy :=
  { d with softOrderPairs := d.softOrderPairs.insert pair }

/-- What a constraint that holds does, by its kind. -/
def applyConstraint (constraint : SoftConstraint) (params : Dict) (guardActive : Bool)
    (d : DerivedConstraintPolicy) : Except PyErr DerivedConstraintPolicy := do
  let kind := constraint.kind
  let scope := constraintScopeSet constraint
  let ordered := constraint.scope.filter (· ≠ "")
  if kind = SoftConstraintKind.budgetK then applyBudget scope params d
  else if kind = SoftConstraintKind.noOverlap then return applyNoOverlap scope params d
  else if kind = SoftConstraintKind.rateLimit then return applyRateLimit params d
  else if kind = SoftConstraintKind.backoffWindow then applyBackoff params guardActive d
  else if kind = SoftConstraintKind.batchGroup then addBatchRule scope params d
  else if kind = SoftConstraintKind.sameSessionGroup then addSessionRule scope params d
  else if kind = SoftConstraintKind.minGap then
    let gap := params.getD "gap_ms" (params.getD "min_gap_ms" (.int 0))
    let gapMs ← (gap.or (.int 0)).toInt
    return (neighbours ordered).foldl (addMinGap gapMs) d
  else if kind = SoftConstraintKind.softOrder then
    return (neighbours ordered).foldl addSoftOrder d
  else return d

/-- `guard.strip().lower() in {"", "true"}`. -/
def alwaysActive (guard : String) : Bool :=
  let guardL := lower (strip guard)
  guardL = "" || guardL = "true"

/-- The row that records a constraint. -/
def activeRow (constraint : SoftConstraint) (params : Dict) (fallback : String)
    (enforced : Bool) : ActiveConstraint :=
  { kind := constraint.kind, scope := constraintScopeSet constraint, params
    guard := constraint.guard, fallback, enforced }

/-- The fallback of a constraint that was applied. -/
def fallbackAfter (constraint : SoftConstraint) (mode : String) (params : Dict)
    (active onInactive : Bool) (d : DerivedConstraintPolicy) :
    Except PyErr DerivedConstraintPolicy :=
  if constraint.fallback ≠ "" && (alwaysActive constraint.guard || (!onInactive && active)) then
    applyFallback mode (constraintScopeSet constraint) params constraint.kind d
  else return d

/-- One soft constraint. -/
def deriveStep (metrics : Dict) (d : DerivedConstraintPolicy) (constraint : SoftConstraint) :
    Except PyErr DerivedConstraintPolicy := do
  let kind := constraint.kind
  let mode ← normalizedFallbackMode kind constraint.fallback metrics
  let active ← guardActive constraint.guard metrics
  let always := alwaysActive constraint.guard
  let onInactive := fallbackTriggersOnInactiveGuard kind constraint.guard constraint.fallback
  let record (params : Dict) : DerivedConstraintPolicy :=
    { d with activeConstraints :=
        d.activeConstraints ++ [activeRow constraint params mode (always || active)] }
  let finish (params : Dict) (d : DerivedConstraintPolicy) := do
    fallbackAfter constraint mode params active onInactive
      (← applyConstraint constraint params active d)
  if always || active then finish constraint.params (record constraint.params)
  else if constraint.fallback ≠ "" && onInactive then
    let shrinks := contains mode "shrink_batch" && isGroupingKind kind
    let params ← shrinkIf shrinks constraint.params
    let d ← applyFallback mode (constraintScopeSet constraint) params kind (record params)
    -- a softened grouping rule still applies; any other rule is replaced by its fallback
    if shrinks then finish params d else return d
  else return record constraint.params

/-! ## Inferred grouping rules -/

/-- The cloud actions that name a group they share with another one. -/
def inferredCloudGroupScope (target : OptimizationTarget) (groupKey : String)
    (batchOnly : Bool) : List String :=
  let keyed := target.vdevActions.filterMap fun action =>
    let actionId := strip (action.getD "action_id" (.str "")).pyStr
    let explicit := if batchOnly then explicitEndpointGroup action else explicitHostGroup action
    let bucketKey := if batchOnly then actionBatchGroupValue action groupKey
      else canonicalBucketToken (actionGroupValue action groupKey)
    if actionId ≠ "" && actionProtocol action = .cloud && !actionIsWriteback action &&
        (!batchOnly || actionIsBatchSafe action) && strip explicit.pyStr ≠ "" &&
        strip bucketKey ≠ "" then some (bucketKey, actionId)
    else none
  sortedSet ((keyed.filter fun row =>
    2 ≤ (keyed.filter fun other => other.1 = row.1).length).map (·.2))

/-- The guard and fallback of an inferred rule. -/
def inferredRule (kind : String) (scope : List String) (params : Dict) : SoftConstraint :=
  { kind, scope, params
    guard := "latency_budget_allows_batching AND 429_rate_low"
    fallback := "disable_batching_use_singleton_calls" }

/-- The rules inferred from the actions when no constraint of their kind was met. -/
def autoConstraints (target : OptimizationTarget) (d : DerivedConstraintPolicy) :
    List SoftConstraint :=
  let met (kind : String) := d.activeConstraints.any fun row => upper (strip row.kind) = kind
  let batchScope := inferredCloudGroupScope target "endpoint" true
  let sessionScope := inferredCloudGroupScope target "host" false
  (if !met SoftConstraintKind.batchGroup && d.batchRules.isEmpty && 2 ≤ batchScope.length then
    [inferredRule SoftConstraintKind.batchGroup batchScope
      [("group_key", .str "endpoint"), ("max_batch_size", .int 20), ("max_wait_ms", .int 80),
        ("idempotent_only", .bool true)]]
    else []) ++
  (if !met SoftConstraintKind.sameSessionGroup && d.sessionRules.isEmpty &&
      2 ≤ sessionScope.length then
    [inferredRule SoftConstraintKind.sameSessionGroup sessionScope
      [("group_key", .str "host"), ("reuse_window_ms", .int 10000)]]
    else [])

/-- The rule of an inferred constraint. -/
def addGroupingRule (constraint : SoftConstraint) (params : Dict) (d : DerivedConstraintPolicy) :
    Except PyErr DerivedConstraintPolicy :=
  if constraint.kind = SoftConstraintKind.batchGroup then
    addBatchRule (constraintScopeSet constraint) params d
  else if constraint.kind = SoftConstraintKind.sameSessionGroup then
    addSessionRule (constraintScopeSet constraint) params d
  else .ok d

/-- One inferred rule; unlike a given one it applies whether or not its guard holds. -/
def autoStep (metrics : Dict) (d : DerivedConstraintPolicy) (constraint : SoftConstraint) :
    Except PyErr DerivedConstraintPolicy := do
  let kind := constraint.kind
  let mode ← normalizedFallbackMode kind constraint.fallback metrics
  let active ← guardActive constraint.guard metrics
  let enforced := alwaysActive constraint.guard || active
  let onInactive := fallbackTriggersOnInactiveGuard kind constraint.guard constraint.fallback
  let params ← shrinkIf
    (!enforced && constraint.fallback ≠ "" && onInactive && contains mode "shrink_batch")
    constraint.params
  let d := { d with activeConstraints :=
    d.activeConstraints ++ [activeRow constraint params mode enforced] }
  fallbackAfter constraint mode params active onInactive
    (← addGroupingRule constraint params d)

/-! ## The whole policy -/

/-- The latency budget: from the metrics, else from the objectives of the target. -/
def latencyBudget (metrics : Dict) (target : OptimizationTarget) : ℤ :=
  let given := metrics.get "latency_budget_ms"
  if given.isNumber then max 0 given.numberInt
  else
    let e2e := ((Dict.get target.objectives "metrics").asDict.get "e2e_latency_ms").asDict
    match (["p95", "p99", "target", "max"].map e2e.get).find? Val.isNumber with
    | some value => max 0 value.numberInt
    | none => 0

/-- The limits before any constraint. -/
def initialDerived (policy : SchedulerPolicy) (latencyBudgetMs : ℤ) : DerivedConstraintPolicy :=
  { totalLimit := max 1 policy.maxParallel
    bleLimit := max 1 policy.bleParallel
    cloudLimit := max 1 policy.cloudParallel
    localLimit := max 1 policy.localParallel
    unknownLimit := 1
    maxQps := max (1 / 10) policy.defaultQps
    rateLimitBurst := max 1 policy.maxParallel
    rateLimitWindowMs := 1000
    latencyBudgetMs }

/-- The final clamps. -/
def clampLimits (policy : SchedulerPolicy) (d : DerivedConstraintPolicy) :
    DerivedConstraintPolicy :=
  let totalLimit := max 1 (min d.totalLimit policy.maxParallel)
  { d with
    totalLimit
    bleLimit := max 1 (min d.bleLimit totalLimit)
    cloudLimit := max 1 (min d.cloudLimit totalLimit)
    localLimit := max 1 (min d.localLimit totalLimit)
    unknownLimit := max 1 (min d.unknownLimit totalLimit)
    rateLimitBurst := max 1 d.rateLimitBurst
    rateLimitWindowMs := max 1 d.rateLimitWindowMs
    maxQps := max (1 / 10) d.maxQps }

def derivePolicyFromConstraints (policy : SchedulerPolicy) (constraints : List SoftConstraint)
    (metrics : Dict) (target : OptimizationTarget) : Except PyErr DerivedConstraintPolicy := do
  let d ← constraints.foldlM (deriveStep metrics)
    (initialDerived policy (latencyBudget metrics target))
  let d ← (autoConstraints target d).foldlM (autoStep metrics) d
  return clampLimits policy d

end FloWeaver.Scheduler
