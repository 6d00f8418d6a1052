import FloWeaver.Contracts

/-!
# Guard and fallback rows of a plan

A fallback row names a mode and the actions it is meant for; a row without a scope is meant for
every action of its batch.  The trust layer and the generated runner both read these rows to
decide which actions of a group run together.

* `FallbackMode` — a row with its texts read.
* `rowsTouching`, `scopeTargets`, `preservesOrder` — what both readers share.
* `startSteps` — the order in which a group is started: the parallel actions together, then the
  serial ones one by one.
* `groupExecutionLayout` — the parallel and the serial actions of a group.
* `parallelActionScopes`, `planExecutionOrder` — the sets and the order for a plan.
-/

namespace FloWeaver

open Py

/-- `[str(token) for token in row.get("scope", [])]`. -/
def rowScope (row : Dict) : Except PyErr (List String) := do
  let tokens ← (row.getD "scope" (.list [])).needItems
  return tokens.map Val.pyStr

/-- A fallback row: its mode, its scope and its parameters. -/
structure FallbackMode where
  mode : String
  scope : List String
  params : Dict := []

/-- A guard row: its expression and its scope. -/
structure GuardRow where
  expr : String
  scope : List String

section Group

variable (ids : List String)

/-- The rows without a scope and those whose scope names an action of the group. -/
def rowsTouching {α : Type} (scopeOf : α → List String) (rows : List α) : List α :=
  rows.filter fun row => (scopeOf row).isEmpty || ids.any ((scopeOf row).contains ·)

/-- The actions of the group that a row is meant for. -/
def scopeTargets (scope : List String) : List String :=
  let named := scope.filter (ids.contains ·)
  if named.isEmpty then ids else named

/-- Does a row ask for the order of the group to be kept? -/
def preservesOrder (rows : List FallbackMode) : Bool :=
  rows.any fun row =>
    ["preserve_action_order", "force_topological_local_order"].contains row.mode &&
      (row.scope.any (ids.contains ·) || row.scope.isEmpty)

end Group

/-- The parallel actions are started together, the serial ones one after the other. -/
def startSteps (parallel serial : List String) : List (List String) :=
  (if parallel.isEmpty then [] else [parallel]) ++ serial.map ([·])

/-- The sets of two or more actions that are started together. -/
def concurrentSets (steps : List (List String)) : List (List String) :=
  steps.filter (2 ≤ ·.length)

@[simp] theorem concurrentSets_append (a b : List (List String)) :
    concurrentSets (a ++ b) = concurrentSets a ++ concurrentSets b :=
  List.filter_append ..

theorem concurrentSets_serial (serial : List String) :
    concurrentSets (serial.map ([·])) = [] := by
  simp [concurrentSets]

theorem concurrentSets_startSteps (parallel serial : List String) :
    concurrentSets (startSteps parallel serial) =
      if 2 ≤ parallel.length then [parallel] else [] := by
  rw [startSteps, concurrentSets_append, concurrentSets_serial, List.append_nil]
  cases parallel with
  | nil => rfl
  | cons a as => simp [concurrentSets, List.filter_cons]

theorem flatten_singles (l : List String) : (l.map ([·])).flatten = l := by
  induction l with
  | nil => rfl
  | cons a l ih => rw [List.map_cons, List.flatten_cons, ih, List.singleton_append]

theorem flatten_startSteps (parallel serial : List String) :
    (startSteps parallel serial).flatten = parallel ++ serial := by
  rw [startSteps, List.flatten_append, flatten_singles]
  cases parallel <;> simp

/-- A single action in front of the serial ones is one more of them. -/
theorem startSteps_single (a : String) (serial : List String) :
    startSteps [a] serial = startSteps [] (a :: serial) := rfl

end FloWeaver

/-!
## What the trust layer takes to run in parallel

The trust layer tolerates a reordering inside a set of actions that run in parallel, and reads
these sets and the order of execution off the groups and the fallback rows of a plan.
-/

namespace FloWeaver.Trust

open Py

/-- A fallback row as the trust layer reads it. -/
def readFallback (row : Dict) : Except PyErr FallbackMode := do
  let scope ← rowScope row
  return { mode := (row.getD "action" (.str "")).pyStr, scope }

def rowsForGroup (actionIds : List String) (rows : List FallbackMode) : List FallbackMode :=
  rowsTouching actionIds FallbackMode.scope rows

/-- The actions that a row takes out of the parallel set, in the order of the group. -/
def serializeTargetsForGroup (actionIds : List String) (fallbackRows : List FallbackMode) :
    List String :=
  let serializeTargets := fallbackRows.flatMap fun row =>
    if ["preserve_action_order", "force_pick_despite_soft_conflicts"].contains row.mode then
      scopeTargets actionIds row.scope
    else []
  actionIds.filter (serializeTargets.contains ·)

def groupRequiresOrderPreservation (actionIds : List String) (fallbackRows : List FallbackMode) :
    Bool :=
  preservesOrder actionIds fallbackRows

/-- The parallel and the serial actions of a group. -/
def groupExecutionLayout (batch : Batch) (group : List String) :
    Except PyErr (List String × List String) := do
  let rows ← batch.fallback.mapM readFallback
  let fallbackRows := rowsForGroup group rows
  let serialIds := serializeTargetsForGroup group fallbackRows
  return if groupRequiresOrderPreservation group fallbackRows then ([], group)
    else (group.filter (!serialIds.contains ·), serialIds)

/-- The trimmed ids of a group. -/
def orderedGroup (group : List String) : List String := (group.map strip).filter (· ≠ "")

/-- The parallel set of a group, if there are two actions in it. -/
def groupScopes (batch : Batch) (group : List String) : Except PyErr (List (List String)) :=
  let ids := orderedGroup group
  if ids.length < 2 then .ok []
  else do
    let (parallelIds, _) ← groupExecutionLayout batch ids
    return if 1 < parallelIds.length then [parallelIds] else []

def groupOrder (batch : Batch) (group : List String) : Except PyErr (List String) :=
  let ids := orderedGroup group
  if ids.isEmpty then .ok []
  else do
    let (parallelIds, serialIds) ← groupExecutionLayout batch ids
    return parallelIds ++ serialIds

/-- The sets of actions that run in parallel. -/
def parallelActionScopes (plan : ExecutionPlan) : Except PyErr (List (List String)) := do
  let scopes ← plan.orderedBatches.mapM fun batch => batch.parallelGroups.mapM (groupScopes batch)
  return scopes.flatten.flatten

/-- The order in which the actions run. -/
def planExecutionOrder (plan : ExecutionPlan) : Except PyErr (List String) := do
  let orders ← plan.orderedBatches.mapM fun batch => batch.parallelGroups.mapM (groupOrder batch)
  return orders.flatten.flatten

end FloWeaver.Trust
