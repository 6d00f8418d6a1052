import FloWeaver.Lib.Frontier
import FloWeaver.Py.Sort
import FloWeaver.Scheduler.Action

/-!
# The naive topological scheduler

The baseline scheduler works through the explicit order of the actions of a target and puts
into every batch as many of the ready actions as its limits allow.

* `explicitGraph` — the declared dependencies, `must_happen_before`, and every action outside
  Home Assistant before every action inside.
* `canJoin` — may an action join the selected ones?
* `scheduleLoop`, `schedule` — the batches and the plan.
-/

namespace FloWeaver.Naive

open Py DepGraph
open Scheduler (ActionIndex Protocol actionOf execCfg dataTemplate)

/-- The limits of a batch. -/
structure NaiveTopoPolicy where
  maxParallel : ℤ := 4
  bleParallel : ℤ := 1
  cloudParallel : ℤ := 4
  localParallel : ℤ := 4

/-- Why there is no plan: a value that cannot be read, or an explicit cycle with the actions
that are not done. -/
inductive NaiveError where
  | python (e : PyErr)
  | blocked (unresolved : List String)

/-! ## Actions -/

/-- `str(action.get("action_id"))` of the actions that have an id. -/
def actionIds (target : OptimizationTarget) : List (String × Dict) :=
  (target.vdevActions.filter fun action =>
    strip (action.getD "action_id" (.str "")).pyStr ≠ "").map
      fun action => ((action.get "action_id").pyStr, action)

def actionIndex (target : OptimizationTarget) : ActionIndex := .ofList (actionIds target)

/-- The position of an action in the index. -/
def rank (actions : ActionIndex) (aid : String) : ℕ := actions.keys.idxOf aid

def protocol (action : Dict) : Protocol :=
  let value := upper (strip ((action.get "protocol").or (.str "")).pyStr)
  if value = "MQTT" then .localNet
  else if value = "BLE" then .ble
  else if value = "CLOUD" then .cloud
  else if value = "LOCAL" then .localNet
  else if value = "HA" then .ha
  else .unknown

/-- The first non-empty token, or the empty text. -/
def firstToken (tokens : List String) : String := (tokens.find? (· ≠ "")).getD ""

/-- `str(value or "").strip().lower()`. -/
def keyToken (value : Val) : String := lower (strip (value.or (.str "")).pyStr)

/-- What an action acts on. -/
def targetKey (action : Dict) : String :=
  let target := Scheduler.target action
  let exec := execCfg action
  let data := dataTemplate action
  firstToken (["entity_id", "device_id", "id", "host", "endpoint"].map
      (fun key => keyToken ((target.get key).or (exec.get key))) ++
    ["entity_id", "device_id", "host", "endpoint"].map (fun key => keyToken (data.get key)))

def semanticValues (action : Dict) : List Val :=
  let target := Scheduler.target action
  let exec := execCfg action
  [action.get "type", action.get "kind", action.get "action_kind", exec.get "kind",
    exec.get "service", target.get "kind", target.get "id", target.get "entity_id"]

/-- Does an action only read? -/
def readOnly (action : Dict) : Bool :=
  if protocol action = .ha then false
  else
    let text := join " " ((semanticValues action).map fun v => lower v.pyStr)
    ["read", "get", "status", "refresh", "list", "sensor", "runtime"].any (contains text ·) &&
      !(["turn_on", "turn_off", "toggle", "set_", "open", "close", "lock", "unlock", "play",
        "pause"].any (contains text ·))

/-- Two actions on the same thing, not both of them reading. -/
def sameDeviceConflict (left right : Dict) : Bool :=
  let leftKey := targetKey left
  if leftKey = "" ∨ leftKey ≠ targetKey right then false
  else !(readOnly left && readOnly right)

/-! ## The explicit graph -/

/-- `action.get("must_happen_before", []) or []`. -/
def mustHappenBefore (action : Dict) : Except PyErr (List String) := do
  let items ← ((action.getD "must_happen_before" (.list [])).or (.list [])).needItems
  return items.map Val.pyStr

def hardPairs (target : OptimizationTarget) : List (String × String) :=
  target.hardDependencies.map fun dep =>
    ((dep.getD "before" (.str "")).pyStr, (dep.getD "after" (.str "")).pyStr)

def mustPairs (actions : ActionIndex) : Except PyErr (List (String × String)) := do
  let pairs ← actions.rows.mapM fun row => do
    let items ← mustHappenBefore row.2
    return items.map fun dst => (row.1, dst)
  return pairs.flatten

def haPairs (actions : ActionIndex) : List (String × String) :=
  let haActions := (actions.rows.filter fun row => protocol row.2 = .ha).map (·.1)
  let nonHaActions := actions.keys.filter fun aid => !haActions.contains aid
  nonHaActions.flatMap fun src => haActions.map fun dst => (src, dst)

/-- The explicit order between the actions; `addEdge` leaves out unknown actions, loops and
repetitions. -/
def explicitGraph (target : OptimizationTarget) (actions : ActionIndex) :
    Except PyErr (CountedGraph String) := do
  let must ← mustPairs actions
  return (hardPairs target ++ must ++ haPairs actions).foldl (fun g p => g.addEdge p.1 p.2)
    (CountedGraph.empty actions.keys actions.keys_nodup)

/-! ## Latencies -/

def defaultLatency : Protocol → Val
  | .ble => .float 1800 "1800.0"
  | .cloud => .float 900 "900.0"
  | .localNet => .float 120 "120.0"
  | .ha => .float 50 "50.0"
  | .unknown => .float 500 "500.0"

/-- The latency of every action, as given or by protocol. -/
def latencyMs (actions : ActionIndex) (runtimeMetrics : Dict) :
    Except PyErr (List (String × ℚ)) :=
  let provided := (runtimeMetrics.get "latency_ms").asDict
  actions.rows.mapM fun row => do
    let latency ← (provided.getD row.1 (defaultLatency (protocol row.2))).toFloat
    return (row.1, latency)

/-! ## Batches -/

section Batches

variable (policy : NaiveTopoPolicy) (actions : ActionIndex) (latencies : List (String × ℚ))

/-- The number of actions of a protocol. -/
def protocolCount (p : Protocol) (aids : List String) : ℤ :=
  (aids.filter fun aid => protocol (actionOf actions aid) = p).length

/-- May an action join the selected ones? -/
def canJoin (aid : String) (selected : List String) : Bool :=
  !selected.any (fun other => sameDeviceConflict (actionOf actions aid) (actionOf actions other)) &&
    decide (((selected ++ [aid]).length : ℤ) ≤ policy.maxParallel ∧
      protocolCount actions .ble (selected ++ [aid]) ≤ policy.bleParallel ∧
      protocolCount actions .cloud (selected ++ [aid]) ≤ policy.cloudParallel ∧
      protocolCount actions .localNet (selected ++ [aid]) ≤ policy.localParallel)

/-- Takes the actions that can join, up to the first that cannot join a non-empty selection. -/
def takeJoining : List String → List String → List String
  | [], selected => selected
  | aid :: rest, selected =>
      if canJoin policy actions aid selected then takeJoining rest (selected ++ [aid])
      else if selected.isEmpty then takeJoining rest selected
      else selected

def readyKey (aid : String) : ℕ ×ₗ ℚ ×ₗ String :=
  toLex (rank actions aid, toLex (-(latencies.lookup aid).getD 1, aid))

/-- The next batch out of the ready actions. -/
def selectBatch (ready : List String) : List String :=
  let selected := takeJoining policy actions (sortedBy (readyKey actions latencies) ready) []
  if selected.isEmpty then
    (sortedBy (fun aid => (toLex (rank actions aid, aid) : ℕ ×ₗ String)) ready).take 1
  else selected

/-- One batch after the other; every batch completes an action, so that the number of actions
bounds the rounds. -/
def scheduleLoop (g : CountedGraph String) : ℕ → Frontier String →
    Except NaiveError (List (List String))
  | 0, _ => .ok []
  | fuel + 1, f =>
      if g.nodes.length ≤ f.done.length then .ok []
      else if f.ready.isEmpty then
        .error (.blocked (sortedStr (g.nodes.filter fun aid => !f.done.contains aid)))
      else do
        let selected := selectBatch policy actions latencies f.ready
        let rest ← scheduleLoop g fuel (f.completeAll g selected)
        return selected :: rest

end Batches

/-- `f"naive_batch_{idx:03d}"`. -/
def batchId (idx : ℕ) : String :=
  let digits := toString idx
  "naive_batch_" ++ String.ofList (List.replicate (3 - digits.length) '0') ++ digits

def liftPy {α : Type} (x : Except PyErr α) : Except NaiveError α := x.mapError .python

/-- The plan for a target. -/
def schedule (policy : NaiveTopoPolicy) (target : OptimizationTarget) (runtimeMetrics : Dict) :
    Except NaiveError ExecutionPlan := do
  let actions := actionIndex target
  let g ← liftPy (explicitGraph target actions)
  let latencies ← liftPy (latencyMs actions runtimeMetrics)
  let batches ← scheduleLoop policy actions latencies g actions.keys.length (Frontier.start g)
  return { orderedBatches := batches.mapIdx fun idx selected =>
    { batchId := batchId idx, parallelGroups := [selected] } }

end FloWeaver.Naive
