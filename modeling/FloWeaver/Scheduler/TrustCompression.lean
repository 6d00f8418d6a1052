import FloWeaver.Contracts
import FloWeaver.Lib.MergedRows
import FloWeaver.Plan.Rows
import FloWeaver.Py.Frozen
import FloWeaver.Scheduler.Context

/-!
# The plan that the trust layer reads

Before a plan is judged, the guard rows and the fallback rows of each batch are merged: rows that
say the same over actions of one lane family become one row over all their actions.

* `scopeFamily` — the lane family of a scope.
* `mergedGuards`, `mergedFallbacks` — the merged rows of a batch.
* `policyBlocks` — what the merged rows ask for, by lane family.
* `compressPlanForTrust` — the compressed plan.
-/

namespace FloWeaver.Scheduler

open Py MergeByKey

/-! ## Lane families -/

/-- The lanes of the actions, as the plan notes them. -/
def actionLanes (planMeta : Dict) : Except PyErr (List (String × String)) := do
  let rows ← ((planMeta.getD "action_lanes" (.dict [])).or (.dict [])).needDict
  return (rows.filter fun row => strip row.1 ≠ "").map fun row => (row.1, row.2.pyStr)

/-- The lane that the actions of a scope share, or what their lanes have in common. -/
def scopeFamily (lanes : List (String × String)) (scope : List String) : String :=
  let found := ((scope.filter (strip · ≠ "")).map fun a =>
    (lanes.lookup (strip a)).getD "UNKNOWN").filter (· ≠ "")
  match found.dedup with
  | [] => "UNKNOWN"
  | [lane] => lane
  | several => if several.all (startsWith · "WRITEBACK") then "WRITEBACK" else "MIXED"

/-! ## Merged rows -/

/-- `sorted(str(token) for token in row.get("scope", []) if str(token))`. -/
def sortedScope (row : Dict) : Except PyErr (List String) := do
  return sortedStr ((← rowScope row).filter (· ≠ ""))

/-- What guard rows have to agree in. -/
structure GuardKey where
  kind : String
  expr : String
  enforced : Bool
  family : String
deriving DecidableEq

def GuardKey.same (k k' : GuardKey) : Bool := k = k'

/-- What fallback rows have to agree in. -/
structure FallbackKey where
  kind : String
  action : String
  params : Dict
  family : String

/-- The parameters are compared in their frozen form. -/
def FallbackKey.same (k k' : FallbackKey) : Bool :=
  k.kind = k'.kind && k.action = k'.action &&
    (Val.dict k.params).freeze.eqv (Val.dict k'.params).freeze && k.family = k'.family

def rowText (row : Dict) (field default : String) : String :=
  (row.getD field (.str default)).pyStr

def rowParams (row : Dict) : Dict := (row.getD "params" (.dict [])).asDict

def readGuard (lanes : List (String × String)) (row : Dict) :
    Except PyErr (GuardKey × List String) := do
  let scope ← sortedScope row
  return ({ kind := rowText row "kind" "", expr := rowText row "expr" "true"
            enforced := (row.getD "enforced" (.bool false)).truthy
            family := scopeFamily lanes scope }, scope)

def readFallback (lanes : List (String × String)) (row : Dict) :
    Except PyErr (FallbackKey × List String) := do
  let scope ← sortedScope row
  return ({ kind := rowText row "kind" "", action := rowText row "action" ""
            params := rowParams row, family := scopeFamily lanes scope }, scope)

/-- `sorted(set(existing["scope"]) | set(scope))`. -/
def mergeScopes (scope other : List String) : List String := sortedSet (scope ++ other)

def mergedGuards (lanes : List (String × String)) (rows : List Dict) :
    Except PyErr (List (GuardKey × List String)) := do
  return mergeRows GuardKey.same mergeScopes (← rows.mapM (readGuard lanes))

def mergedFallbacks (lanes : List (String × String)) (rows : List Dict) :
    Except PyErr (List (FallbackKey × List String)) := do
  return mergeRows FallbackKey.same mergeScopes (← rows.mapM (readFallback lanes))

def guardDict (row : GuardKey × List String) : Dict :=
  [("kind", .str row.1.kind), ("scope", strList row.2), ("expr", .str row.1.expr),
    ("enforced", .bool row.1.enforced)]

def fallbackDict (row : FallbackKey × List String) : Dict :=
  [("kind", .str row.1.kind), ("scope", strList row.2), ("action", .str row.1.action),
    ("params", .dict row.1.params)]

/-! ## Policy blocks -/

/-- What the rows of a lane family ask for; no block without an action. -/
def policyBlock (lanes : List (String × String)) (guards : List (GuardKey × List String))
    (fallbacks : List (FallbackKey × List String)) (family : String) : Option Val :=
  let guards := guards.filter fun row => scopeFamily lanes row.2 = family
  let fallbacks := fallbacks.filter fun row => scopeFamily lanes row.2 = family
  let scope := sortedSet ((guards.map (·.2) ++ fallbacks.map (·.2)).flatten.filter (strip · ≠ ""))
  if scope.isEmpty then none
  else some (.dict [("policy_block", .str (lower family ++ "_policy")), ("scope", strList scope),
    ("guard_kinds", strList (sortedSet (guards.map (·.1.kind)))),
    ("fallback_actions", strList (sortedSet (fallbacks.map (·.1.action))))])

/-- The blocks of the families that are known and not mixed. -/
def policyBlocks (lanes : List (String × String)) (guards : List (GuardKey × List String))
    (fallbacks : List (FallbackKey × List String)) : List Val :=
  let families := sortedSet ((guards.map (·.2) ++ fallbacks.map (·.2)).map (scopeFamily lanes))
  (families.filter fun family => !(["UNKNOWN", "MIXED"].contains family)).filterMap
    (policyBlock lanes guards fallbacks)

/-! ## The compressed plan -/

def uniqueConstraints (batch : Batch) : List String :=
  sortedSet (batch.constraints.filter (strip · ≠ ""))

def compressBatch (lanes : List (String × String)) (batch : Batch) : Except PyErr Batch := do
  let guards ← mergedGuards lanes batch.guards
  let fallbacks ← mergedFallbacks lanes batch.fallback
  return { batch with
    constraints := uniqueConstraints batch
    ratePolicy := batch.ratePolicy.set "trust_policy_blocks"
      (.list (policyBlocks lanes guards fallbacks))
    guards := guards.map guardDict
    fallback := fallbacks.map fallbackDict }

/-- The note about a batch that got fewer rows. -/
def compressionNote (batch compressed : Batch) : Option Val :=
  let total (b : Batch) : ℕ := b.constraints.length + b.guards.length + b.fallback.length
  if total compressed < total batch then
    some (.dict [("batch_id", .str batch.batchId),
      ("original_constraint_count", .int (total batch)),
      ("compressed_constraint_count", .int (total compressed))])
  else none

/-- `len(value)`. -/
def needLen : Val → Except PyErr ℤ
  | .list items => .ok items.length
  | .str s => .ok s.length
  | .dict rows => .ok rows.length
  | _ => .error .typeError

def trustBlocks (batch : Batch) : Except PyErr (List Val) := do
  let blocks ← (batch.ratePolicy.getD "trust_policy_blocks" (.list [])).needItems
  return blocks.filter fun block => match block with
    | .dict _ => true
    | _ => false

/-- The notes about the compressed plan. -/
def compressedMeta (planMeta : Dict) (batches compressed : List Batch) : Except PyErr Dict := do
  let mssus ← ((planMeta.getD "action_to_mssus" (.dict [])).or (.dict [])).needDict
  let counts ← mssus.mapM fun row => do return (row.1, Val.int (← needLen row.2))
  let blocks ← compressed.mapM trustBlocks
  let notes := (batches.zip compressed).filterMap fun pair => compressionNote pair.1 pair.2
  return [("policy", planMeta.getD "policy" (.dict [])),
    ("node_kind", .str (planMeta.getD "node_kind" (.str "action_id")).pyStr),
    ("profile_version", planMeta.get "profile_version"),
    ("canonicalization_version", planMeta.get "canonicalization_version"),
    ("action_lanes", planMeta.getD "action_lanes" (.dict [])),
    ("trust_compression", .dict [("action_to_mssu_count", .dict counts),
      ("policy_blocks", .list blocks.flatten), ("merged_constraints", .list notes)])] ++
    ((planMeta.get? "objectives").toList.map fun objectives => ("objectives", objectives))

def compressPlanForTrust (plan : MetaPlan) : Except PyErr MetaPlan := do
  let lanes ← actionLanes plan.planMeta
  let batches ← plan.orderedBatches.mapM (compressBatch lanes)
  return { orderedBatches := batches
           planMeta := ← compressedMeta plan.planMeta plan.orderedBatches batches }

end FloWeaver.Scheduler
