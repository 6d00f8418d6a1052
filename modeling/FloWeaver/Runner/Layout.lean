import FloWeaver.Plan.Rows
import FloWeaver.Runner.Guard

/-!
# What the generated runner starts together

The runner executes the batches of a plan in order.  It cuts the groups of a batch where a
fallback row disables or shrinks batching, and of every piece it starts the parallel actions
together and the serial ones one by one.

* `reshapeGroupsForFallbacks` — the pieces of the groups.
* `serializeTargets` — the actions that a failed guard or a fallback row makes serial.
* `runGroup`, `runBatch`, `run` — the steps of a group, of a batch and of a plan, each the
  actions that are started together.
-/

namespace FloWeaver.Runner

open Py

/-- The actions of the target by id. -/
abbrev Actions := List (String × Dict)

/-- Raises a Python exception. -/
def liftPy {α : Type} (x : Except PyErr α) : Except RunnerError α := x.mapError .python

/-! ## Rows -/

/-- A fallback row as the runner reads it; a row without a mode has it under `fallback`. -/
def readFallback (row : Dict) : Except PyErr FallbackMode := do
  let scope ← rowScope row
  return { mode := (row.getD "action" (row.getD "fallback" (.str ""))).pyStr, scope,
           params := (row.get "params").asDict }

def readGuard (row : Dict) : Except PyErr GuardRow := do
  let scope ← rowScope row
  return { expr := (row.getD "expr" (.str "true")).pyStr, scope }

def rowsForGroup {α : Type} (actionIds : List String) (scopeOf : α → List String)
    (rows : List α) : List α :=
  rowsTouching actionIds scopeOf rows

/-! ## Reshaping -/

/-- Does a mode disable or shrink batching? -/
def reshapes (mode : String) : Bool :=
  contains (lower mode) "disable_batch" || contains (lower mode) "shrink_batch"

/-- The number of actions that may stay together. -/
def chunkSize (row : FallbackMode) : Except PyErr ℕ :=
  if contains (lower row.mode) "disable_batch" then .ok 1
  else do
    let size ← (row.params.getD "new_max_batch_size"
      (row.params.getD "max_batch_size" (.int 1))).toInt
    return (max 1 size).toNat

/-- The actions that a reshaping row is meant for. -/
def reshapeScope (group : List String) (row : FallbackMode) : List String :=
  let scope := row.scope.filter (· ≠ "")
  if scope.isEmpty then group else scope

/-- Puts one action of a segment into the last piece, if there is room, or into a new one. -/
def placeAction (scope : List String) (size : ℕ) (next : List (List String)) (actionId : String) :
    List (List String) :=
  if !scope.contains actionId then next ++ [[actionId]]
  else
    match next.getLast? with
    | some last =>
        if last.length < size && last.all (scope.contains ·) then
          next.dropLast ++ [last ++ [actionId]]
        else next ++ [[actionId]]
    | none => next ++ [[actionId]]

/-- The pieces of a group after one row. -/
def reshapeRow (group : List String) (segments : List (List String)) (row : FallbackMode) :
    Except PyErr (List (List String)) :=
  if !reshapes row.mode then .ok segments
  else
    let scope := reshapeScope group row
    segments.foldlM (fun next segment =>
      if (segment.filter (scope.contains ·)).length ≤ 1 then .ok (next ++ [segment])
      else do
        let size ← chunkSize row
        return segment.foldl (placeAction scope size) next) []

/-- The pieces of a group after all rows. -/
def reshapeGroup (fallbackRows : List FallbackMode) (group : List String) :
    Except PyErr (List (List String)) :=
  fallbackRows.foldlM (reshapeRow group) [group]

def reshapeGroupsForFallbacks (groups : List (List String)) (fallbackRows : List FallbackMode) :
    Except PyErr (List (List String)) := do
  let pieces ← groups.mapM (reshapeGroup fallbackRows)
  return pieces.flatten

/-! ## One group -/

/-- `str(self.actions.get(action_id, {}).get("protocol", "")).upper()`. -/
def protocolOf (actions : Actions) (actionId : String) : String :=
  upper (((actions.lookup actionId).getD []).getD "protocol" (.str "")).pyStr

/-- The actions of a group that a row makes serial. -/
def rowTargets (actions : Actions) (actionIds : List String) (row : FallbackMode) :
    List String :=
  let targets := scopeTargets actionIds row.scope
  if ["preserve_action_order", "force_pick_despite_soft_conflicts"].contains row.mode then targets
  else if ["reduce_parallelism", "reduce_qps_and_parallelism"].contains row.mode then
    targets.filter (protocolOf actions · = "CLOUD")
  else if ["set_ble_parallelism_to_1", "serialize_ble_ops_and_disable_reuse"].contains row.mode then
    targets.filter (protocolOf actions · = "BLE")
  else []

def serializeTargets (actions : Actions) (actionIds : List String) (failedGuards : List GuardRow)
    (fallbackRows : List FallbackMode) : List String :=
  (failedGuards.flatMap fun row => scopeTargets actionIds row.scope) ++
    fallbackRows.flatMap (rowTargets actions actionIds)

def groupRequiresOrderPreservation (actionIds : List String) (fallbackRows : List FallbackMode) :
    Bool :=
  preservesOrder actionIds fallbackRows

/-- The guards that do not hold. -/
def failedGuards (serviceData : Dict) : List GuardRow → Except RunnerError (List GuardRow)
  | [] => .ok []
  | row :: rows => do
      let ok ← guardOk row.expr serviceData
      let failed ← failedGuards serviceData rows
      return if ok then failed else row :: failed

/-- The steps in which a group is started. -/
def runGroup (actions : Actions) (serviceData : Dict) (guards : List GuardRow)
    (fallback : List FallbackMode) (actionIds : List String) :
    Except RunnerError (List (List String)) := do
  let relevantFallback := rowsForGroup actionIds FallbackMode.scope fallback
  let failed ← failedGuards serviceData (rowsForGroup actionIds GuardRow.scope guards)
  let targets := serializeTargets actions actionIds failed relevantFallback
  return if groupRequiresOrderPreservation actionIds relevantFallback then startSteps [] actionIds
    else startSteps (actionIds.filter (!targets.contains ·))
      (actionIds.filter (targets.contains ·))

/-! ## Runs -/

/-- The steps of a batch. -/
def runBatch (actions : Actions) (serviceData : Dict) (batch : Batch) :
    Except RunnerError (List (List String)) := do
  let guards ← liftPy (batch.guards.mapM readGuard)
  let fallback ← liftPy (batch.fallback.mapM readFallback)
  let groups ← liftPy (reshapeGroupsForFallbacks batch.parallelGroups fallback)
  let steps ← groups.mapM (runGroup actions serviceData guards fallback)
  return steps.flatten

/-- The steps of a plan, when every action succeeds. -/
def run (actions : Actions) (serviceData : Dict) (plan : ExecutionPlan) :
    Except RunnerError (List (List String)) := do
  let steps ← plan.orderedBatches.mapM (runBatch actions serviceData)
  return steps.flatten

end FloWeaver.Runner
