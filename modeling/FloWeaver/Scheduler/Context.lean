import FloWeaver.Lib.Frontier
import FloWeaver.Scheduler.HardGraph
import FloWeaver.Scheduler.Policy

/-!
# What the batch loop works with

Before its loop the scheduler computes tables that stay fixed while the batches are built.
`Ctx` holds them; the functions below read them for one action.

* `Ctx.rank`, `Ctx.phase`, `Ctx.budgetRuleIds`, `Ctx.overlapScopeIds`, … — the tables.
* `BatchBuildState` — the batch under construction with its counters.
* `normalizeFallbackRow`, `dedupeFallbackRows` — the normal form of fallback rows.
* `collectGuards`, `collectFallbacks` — the rows of a batch.
-/

namespace FloWeaver.Scheduler

open Py DepGraph

/-- The fixed tables of a run. -/
structure Ctx where
  index : ActionIndex
  dag : TypedDAG
  derived : DerivedConstraintPolicy
  /-- The hard graph after transitive reduction. -/
  hard : HardGraph
  conservativeGrouping : Bool
  /-- `baseline_order_hints` of the target. -/
  baselineTraceHints : Dict
  criticalScore : String → ℚ
  phases : List (String × Phase)

/-- The batch under construction. -/
structure BatchBuildState where
  selected : List String := []
  totalOccupancy : ℤ := 0
  bleCount : ℤ := 0
  cloudCount : ℤ := 0
  cloudRequestCounts : String → ℤ := fun _ => 0
  localCount : ℤ := 0
  unknownCount : ℤ := 0
  budgetCounts : ℕ → ℤ := fun _ => 0
  noOverlapCounts : ℕ → ℤ := fun _ => 0
  selectedGroupCounts : ℕ × String → ℤ := fun _ => 0

namespace Ctx

variable (ctx : Ctx) (actionId : String)

def action : Dict := actionOf ctx.index actionId

def protocol : Protocol := actionProtocol (ctx.action actionId)

def lane : Lane := actionLane (ctx.action actionId)

def isWriteback : Bool := actionIsWriteback (ctx.action actionId)

def isBatchSafe : Bool := actionIsBatchSafe (ctx.action actionId)

def isReadLike : Bool := actionIsReadLike (ctx.action actionId)

/-- The declaration position of an action. -/
def rank : ℕ :=
  if ctx.index.keys.contains actionId then ctx.index.keys.idxOf actionId else 10000

def phase : Phase := phaseOf ctx.phases actionId

def isFat : Bool := isFatAction ctx.dag actionId

/-- Is there a soft order between two actions, in either direction? -/
def softOrdered (a b : String) : Bool :=
  ctx.derived.softOrderPairs.contains (a, b) || ctx.derived.softOrderPairs.contains (b, a)

/-- The budget rules over an action, by position. -/
def budgetRuleIds : List ℕ :=
  (ctx.derived.budgetRules.zipIdx.filter fun row => row.1.scope.contains actionId).map (·.2)

/-- The no-overlap scopes over an action, by position. -/
def overlapScopeIds : List ℕ :=
  (ctx.derived.noOverlapScopes.zipIdx.filter fun row => row.1.contains actionId).map (·.2)

/-- The gaps that end in an action. -/
def minGapByAfter : List (String × ℤ) :=
  ((ctx.derived.minGapPairs.rows.insertionSort fun a b => pairLe a.1 b.1).filter
    fun row => row.1.2 = actionId).map fun row => (row.1.1, row.2)

/-- The request an action shares: its bucket and the size of the bucket.  The last rule over
the action decides. -/
def cloudRequestSlot : String × ℤ :=
  let slots := ctx.derived.batchRules.filterMap fun rule =>
    let bucket := actionBatchGroupValue (ctx.action actionId) rule.groupKey
    if rule.scope.contains actionId && ctx.index.keys.contains actionId &&
        ctx.protocol actionId = .cloud && !ctx.isWriteback actionId &&
        ctx.isReadLike actionId && bucket ≠ "" then
      some ("bucket:" ++ bucket, max 1 rule.maxBatchSize)
    else none
  slots.getLast?.getD ("single:" ++ actionId, 1)

/-- The groups an action belongs to: session rules first, then batch rules. -/
def affinityTokens : List (ℕ × String) :=
  let token (scope : List String) (value : String) (idx : ℕ) : Option (ℕ × String) :=
    if scope.contains actionId && ctx.index.keys.contains actionId && value ≠ "" then
      some (idx, value)
    else none
  let sessions := ctx.derived.sessionRules.zipIdx.filterMap fun row =>
    token row.1.scope (actionGroupValue (ctx.action actionId) row.1.groupKey) row.2
  let batches := ctx.derived.batchRules.zipIdx.filterMap fun row =>
    token row.1.scope (actionBatchGroupValue (ctx.action actionId) row.1.groupKey)
      (ctx.derived.sessionRules.length + row.2)
  sessions ++ batches

/-- Does the candidate share a group with a selected action? -/
def sharesAffinityToken (selected : List String) : Bool :=
  selected.any fun other => (ctx.affinityTokens actionId).any ((ctx.affinityTokens other).contains ·)

/-- `critical` of an action. -/
def criticalBoost : ℤ :=
  if ((ctx.action actionId).getD "critical" (.bool false)).truthy then 1 else 0

/-- The effects of an MSSU as tokens, with the generic token of each specific one. -/
def mssuEffectTokens (mssu : MSSU) : List String :=
  mssu.sideEffectSig.flatMap fun effect =>
    let normalized := replaceChar (replaceChar (lower (strip effect)) '-' '_') ' ' '_'
    if normalized = "" then []
    else normalized :: (if normalized = "ble_gatt_op" then ["ble_op"]
      else if normalized = "cloud_http_call" then ["cloud_op"]
      else if normalized = "state_write" then ["ha_state_write"]
      else [])

/-- The order in which a baseline run shows the action: the given hint, else the declaration
order, else an estimate from its lane and effects. -/
def observableAnchorPriority : ℤ :=
  let explicit := (ctx.baselineTraceHints.get "action_order").asDict
  let hint := Dict.get explicit actionId
  if hint.isInt then hint.numberInt
  else if ctx.index.keys.contains actionId then ctx.index.keys.idxOf actionId
  else
    let lane := ctx.lane actionId
    let effects := (actionToMssus ctx.dag actionId).flatMap fun mssuId =>
      ((ctx.dag.nodes.get? mssuId).map mssuEffectTokens).getD []
    let has (tokens : List String) := tokens.any (effects.contains ·)
    if lane = .writebackOverall then 50
    else if lane.isWriteback then 30
    else if has ["cloud_http_call", "cloud_op"] || lane = .cloud then 0
    else if has ["ble_gatt_op", "ble_op"] || lane = .bleLocal then 10
    else if has ["ble_connect", "subscribe", "coord_refresh"] then 15
    else if has ["local_api_read"] || lane = .localNet then 20
    else if has ["state_write", "ha_state_write"] then 30
    else 40

end Ctx

end FloWeaver.Scheduler

/-!
## Guard and fallback rows

A batch carries the guards of the constraints over its actions and the fallbacks that were
triggered for them, each row once.
-/

namespace FloWeaver.Scheduler

open Py

/-- A list of strings as a value. -/
def strList (l : List String) : Val := .list (l.map .str)

/-- Keeps the first of the rows that agree. -/
def dedupeBy {α : Type} (same : α → α → Bool) (rows : List α) : List α :=
  rows.foldl (fun kept row => if kept.any (same row) then kept else kept ++ [row]) []

/-! ## Fallback rows -/

/-- A row with its scope sorted; an order row over cloud actions that a candidate dependency
gave is carried out in topological order. -/
def normalizeFallbackRow (index : ActionIndex) (row : FallbackRow) : FallbackRow :=
  let scope := sortedSet (row.scope.filter fun token => strip token ≠ "")
  let reason := strip (row.params.getD "reason" (.str "")).pyStr
  let lanes := (scope.filter (index.keys.contains ·)).map fun a => actionLane (actionOf index a)
  let local' := upper (strip row.kind) = SoftConstraintKind.softOrder &&
    strip row.action = "preserve_action_order" && startsWith reason "candidate:" &&
    !lanes.isEmpty && lanes.all (· = .cloud)
  { row with scope, action := if local' then "force_topological_local_order" else row.action }

/-- Two rows with the same mode, kind, scope and parameters. -/
def sameFallback (a b : FallbackRow) : Bool :=
  strip a.action = strip b.action && strip a.kind = strip b.kind && a.scope = b.scope &&
    (Val.dict a.params).freeze.eqv (Val.dict b.params).freeze

def dedupeFallbackRows (index : ActionIndex) (rows : List FallbackRow) : List FallbackRow :=
  dedupeBy sameFallback (rows.map (normalizeFallbackRow index))

def FallbackRow.toDict (row : FallbackRow) : Dict :=
  [("kind", .str row.kind), ("scope", strList row.scope), ("action", .str row.action),
    ("params", .dict row.params)]

/-! ## The rows of a batch -/

/-- The rows whose scope names an action. -/
def rowsOf {α : Type} (scopeOf : α → List String) (rows : List α) (actionId : String) : List α :=
  rows.filter fun row => ((scopeOf row).map strip).contains actionId

/-- The guards of the enforced constraints over the selected actions. -/
def collectGuards (ctx : Ctx) (selected : List String) : List Dict :=
  let enforced := ctx.derived.activeConstraints.filter (·.enforced)
  let rows := dedupeBy
    (fun a b => a.kind = b.kind && a.scope = b.scope && a.guard = b.guard)
    (selected.flatMap (rowsOf ActiveConstraint.scope enforced))
  rows.map fun row =>
    [("kind", .str row.kind), ("scope", strList (sortedStr (row.scope.filter (· ≠ "")))),
      ("expr", .str row.guard), ("enforced", .bool true)]

/-- The fallbacks over the selected actions, cut down to them, and the forced picks. -/
def collectFallbacks (ctx : Ctx) (selected : List String) (forced : List FallbackRow) :
    List FallbackRow :=
  let same (a b : FallbackRow) : Bool :=
    a.kind = b.kind && a.scope = b.scope && a.action = b.action &&
      (Val.dict a.params).freeze.eqv (Val.dict b.params).freeze
  let rows := dedupeBy same
    (selected.flatMap (rowsOf FallbackRow.scope ctx.derived.triggeredFallbacks))
  let cut := rows.map fun row =>
    { row with scope := sortedStr (row.scope.filter (selected.contains ·)) }
  dedupeFallbackRows ctx.index (dedupeBy same (cut ++ forced))

end FloWeaver.Scheduler
