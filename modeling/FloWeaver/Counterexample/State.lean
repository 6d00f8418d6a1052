import FloWeaver.Ir.Program
import FloWeaver.Py.Sort
import FloWeaver.Trace.Observation

/-!
# Symbolic configurations

Both programs are executed side by side.  Each side has a trace, a semantic state and a count for
every resource it has met.

* `resourceEffects`, `semanticUpdates` — the effects of an operation.
* `eventToIrNode`, `traceToIrProgram` — the program of a trace.
* `ResourceState`, `applyResourceEffects` — the counts, and what a node does to them.
* `Side`, `applyNodes` — one program, and the run of some of its nodes.
* `SymConfig` — the two sides, the place in the graph and the path condition.
* `guardOptions` — the ways to decide some guards one after the other.
* `nodeGuards`, `nodeGuardOptions` — the guards of a node, and the ways to decide them.
* `executionOptions` — the nodes that are executed, with the clauses decided on the way.
* `branchClauses`, `extendCondition` — the branches of the environment, and the path condition.
-/

/-!
## Programs of traces

A trace is turned into an intermediate program of one node per event.  The summary of a node says
what its operation does to the resources and to the observed state.
-/

namespace FloWeaver.Counterexample

open Py Ir Trace

/-- One effect on a resource. -/
def resourceEffect (resourceKind action key : String) : Dict :=
  [("resource_kind", .str resourceKind), ("action", .str action), ("key", .str key)]

/-- `target or "entry"`. -/
def entryKey (target : String) : String := if target = "" then "entry" else target

/-- `_resource_effects`. -/
def resourceEffects (event : Event) : List Dict :=
  let op := normalizeOpName event.op
  let target := event.target
  if op = "ENTRY_SETUP" then [resourceEffect "manager" "acquire" (entryKey target)]
  else if op = "SUBSCRIBE" then [resourceEffect "listener" "acquire" target]
  else if op = "UNSUBSCRIBE" then [resourceEffect "listener" "release" target]
  else if op = "BLE_CONNECT" then [resourceEffect "connection" "acquire" target]
  else if op = "BLE_DISCONNECT" then [resourceEffect "connection" "release" target]
  else if op = "ENTRY_UNLOAD" then
    [resourceEffect "connection" "release" target,
      resourceEffect "manager" "release" (entryKey target),
      resourceEffect "session" "release" (entryKey target)]
  else if op = "CLOUD_SESSION_REUSE" then
    [resourceEffect "cloud_session" "acquire" target, resourceEffect "session" "acquire" target]
  else []

/-- The value that a write reports: the first state parameter, all of them when there is none. -/
def reportedValue (params : Dict) : Val :=
  match (stateKeys.findSome? params.get?).getD .none with
  | .none => .dict params
  | value => value

/-- `params.get("category") or params.get("exception") or "Exception"`, as a text. -/
def categoryOf (params : Dict) : String :=
  (((params.get "category").or (params.get "exception")).or (.str "Exception")).pyStr

/-- `_semantic_updates`. -/
def semanticUpdates (event : Event) : Dict :=
  let op := normalizeOpName event.op
  if op = "STATE_WRITE" then
    [("state_write", .dict [(event.target, reportedValue event.paramsAbst)])]
  else if op = "EXCEPTION" then [("exception", .str (categoryOf event.paramsAbst))]
  else []

/-- `_exception_category`. -/
def exceptionCategory (event : Event) : Option String :=
  if normalizeOpName event.op = "EXCEPTION" then some (categoryOf event.paramsAbst) else none

/-- `f"{prefix}_{index:04d}"`. -/
def nodeIdText (pre : String) (index : ℕ) : String :=
  pre ++ "_" ++ String.ofList (List.replicate (4 - (toString index).length) '0') ++ toString index

/-- The node of an event; its time stamps are left out. -/
def eventToIrNode (event : Event) (index : ℕ) (pre : String) : IRNode where
  nodeId := nodeIdText pre index
  summary := {
    provider := event.provider
    op := normalizeOpName event.op
    target := event.target
    phase := event.phase
    params := event.paramsAbst
    emitsObservation := true
    resourceEffects := resourceEffects event
    semanticUpdates := semanticUpdates event
    exceptionCategory := exceptionCategory event }

/-- The nodes of a trace, in order. -/
def traceNodes (sha1 : String → String) (config : TraceCompareConfig) (programId : String)
    (trace : List Event) : List IRNode :=
  (trace.map (canonicalizeEvent sha1 config.volatileParamKeys)).mapIdx fun index event =>
    eventToIrNode event index programId

/-- A node with the one that follows it. -/
def withSuccessors : List IRNode → List IRNode
  | node :: next :: rest =>
      { node with successors := [next.nodeId] } :: withSuccessors (next :: rest)
  | nodes => nodes

/-- `trace_to_ir_program`. -/
def traceToIrProgram (sha1 : String → String) (config : TraceCompareConfig) (trace : List Event)
    (programId : String) : IRProgram :=
  let nodes := withSuccessors (traceNodes sha1 config programId trace)
  let order := nodes.map (·.nodeId)
  { programId := programId
    nodes := .ofList (nodes.map fun node => (node.nodeId, node))
    entryNode := order.head?
    exitNode := order.getLast?
    order := order }

end FloWeaver.Counterexample

namespace FloWeaver.Counterexample

open Py Ir Trace

/-! ## Resources -/

/-- What happened to one resource. -/
structure ResourcePayload where
  count : ℤ := 0
  history : List String := []
  prematureRelease : Bool := false
deriving DecidableEq, Repr

/-- The resources of each kind, by their keys. -/
abbrev ResourceState := OrderedDict String (OrderedDict String ResourcePayload)

/-- `resource_state.get(resource_kind, {})`. -/
def resourcesOf (state : ResourceState) (resourceKind : String) :
    OrderedDict String ResourcePayload :=
  (state.get? resourceKind).getD .empty

/-- The entry of a resource; a new one has no count. -/
def payloadOf (state : ResourceState) (resourceKind key : String) : ResourcePayload :=
  ((resourcesOf state resourceKind).get? key).getD {}

/-- One action on a resource. -/
def ResourcePayload.act (payload : ResourcePayload) (action : String) : ResourcePayload :=
  let payload := { payload with history := payload.history ++ [action] }
  if action = "acquire" then { payload with count := payload.count + 1 }
  else if action = "release" then
    if payload.count ≤ 0 then { payload with prematureRelease := true }
    else { payload with count := payload.count - 1 }
  else payload

/-- The kind, the key and the action of an effect. -/
def readEffect (target : String) (effect : Dict) : String × String × String :=
  ((effect.getD "resource_kind" (.str "generic")).pyStr,
    (effect.getD "key" (.str target)).pyStr, (effect.getD "action" (.str "")).pyStr)

def applyResourceEffect (target : String) (state : ResourceState) (effect : Dict) :
    ResourceState :=
  let (resourceKind, key, action) := readEffect target effect
  state.set resourceKind
    ((resourcesOf state resourceKind).set key ((payloadOf state resourceKind key).act action))

/-- `_apply_resource_effects`. -/
def applyResourceEffects (state : ResourceState) (node : IRNode) : ResourceState :=
  node.summary.resourceEffects.foldl (applyResourceEffect node.summary.target) state

/-- The resources that are held, as sorted texts. -/
def resourceKeys (state : ResourceState) : List String :=
  sortedBy id (state.rows.flatMap fun row =>
    (row.2.rows.filter fun entry => entry.2.count ≠ 0).map fun entry => row.1 ++ ":" ++ entry.1)

/-! ## One program -/

/-- The state of one program. -/
structure Side where
  pc : Option String := none
  splitOffset : ℕ := 0
  trace : List Event := []
  semanticState : SemanticState := {}
  resourceKeys : List String := []
  resourceState : ResourceState := .empty

/-- `_event_from_node`. -/
def eventFromNode (node : IRNode) : Event where
  provider := node.summary.provider
  op := node.summary.op
  target := node.summary.target
  paramsAbst := node.summary.params
  phase := node.summary.phase

/-- Does a node add an event to the trace? -/
def observed (node : IRNode) : Bool := node.summary.emitsObservation || node.observationBoundary

/-- One node. -/
def applyNode (side : Side) (node : IRNode) : Except PyErr Side := do
  let semanticState ← applySemanticUpdates side.semanticState node
  return { side with
    trace := if observed node then side.trace ++ [eventFromNode node] else side.trace
    semanticState := semanticState
    resourceState := applyResourceEffects side.resourceState node }

/-- `_apply_nodes`. -/
def applyNodes (program : IRProgram) (nodeIds : List String) (side : Side) : Except PyErr Side := do
  let side ← nodeIds.foldlM (fun side nodeId => do applyNode side (← program.node nodeId)) side
  return { side with resourceKeys := resourceKeys side.resourceState }

/-! ## Both programs -/

/-- The environment, as far as it is known. -/
structure EnvState where
  requestParams : Dict := []
  deviceResults : Dict := []
  toggles : Dict := []
  frameworkEvents : List String := []
  assumptions : List String := []
  branches : OrderedDict String (List String) := .empty

/-- What the status says of a graph node. -/
structure UsegStatus where
  usegNodeId : String
  kind : String
  suspiciousRegionId : Option String := none
  unsupportedAlignment : Bool := false
  crossesObservationBoundary : Bool := false
deriving DecidableEq, Repr

structure DivergenceStatus where
  currentUsegNode : Option UsegStatus := none
  atTerminal : Bool := false
deriving DecidableEq, Repr

structure SymConfig where
  usegIndex : ℕ := 0
  pathCondition : List String := []
  envState : EnvState := {}
  baseline : Side := {}
  optimized : Side := {}
  mode : String := "UNIFIED"
  divergenceStatus : DivergenceStatus := {}
  suspiciousRegionId : Option String := none
  visitedUsegNodes : List String := []
  executedSteps : ℕ := 0

/-! ## What an effect changes -/

theorem payloadOf_set (state : ResourceState) (resourceKind key k l : String)
    (payload : ResourcePayload) :
    payloadOf (state.set resourceKind ((resourcesOf state resourceKind).set key payload)) k l =
      if k = resourceKind ∧ l = key then payload else payloadOf state k l := by
  rw [payloadOf, resourcesOf, OrderedDict.get?_set]
  by_cases hk : k = resourceKind
  · subst hk
    rw [if_pos rfl, Option.getD_some, OrderedDict.get?_set]
    by_cases hl : l = key
    · simp [hl]
    · simp only [hl, if_false, and_false]
      rfl
  · simp only [hk, if_false, false_and]
    rfl

/-- The actions of some effects on a resource. -/
def actionsOn (effects : List (String × String × String)) (resourceKind key : String) :
    List String :=
  (effects.filter fun e => e.1 = resourceKind ∧ e.2.1 = key).map (·.2.2)

theorem payloadOf_applyResourceEffect (target : String) (state : ResourceState) (effect : Dict)
    (resourceKind key : String) :
    payloadOf (applyResourceEffect target state effect) resourceKind key =
      (actionsOn [readEffect target effect] resourceKind key).foldl ResourcePayload.act
        (payloadOf state resourceKind key) := by
  rw [applyResourceEffect, payloadOf_set, actionsOn]
  by_cases h : resourceKind = (readEffect target effect).1 ∧ key = (readEffect target effect).2.1
  · obtain ⟨rfl, rfl⟩ := h
    simp
  · have h' : ¬ ((readEffect target effect).1 = resourceKind ∧
        (readEffect target effect).2.1 = key) := fun h' => h ⟨h'.1.symm, h'.2.symm⟩
    rw [if_neg h, List.filter_cons_of_neg (by simpa using h')]
    rfl

end FloWeaver.Counterexample

/-!
## Guards of nodes

A node may be guarded by request parameters, device results, toggles and framework events.  A guard
that the environment decides is taken or left; any other one is taken on one path and left on
another.
-/

namespace FloWeaver.Counterexample

open Py Ir

/-! ## One guard -/

/-- A guard: its clause, and what the environment says of it. -/
structure GuardAtom where
  positive : String
  known : Option Bool
deriving DecidableEq

/-- `f"NOT({clause})"`. -/
def negated (clause : String) : String := "NOT(" ++ clause ++ ")"

/-- The clause of a decision. -/
def GuardAtom.clause (atom : GuardAtom) (applies : Bool) : String :=
  if applies then atom.positive else negated atom.positive

/-- A way to decide some guards: whether all of them hold, and the clauses. -/
abbrev GuardOption := Bool × List String

/-- One more guard. -/
def decideGuard (options : List GuardOption) (atom : GuardAtom) : List GuardOption :=
  match atom.known with
  | some applies =>
      options.map fun option => (option.1 && applies, option.2 ++ [atom.clause applies])
  | none =>
      options.flatMap fun option =>
        [(option.1, option.2 ++ [atom.clause true]), (false, option.2 ++ [atom.clause false])]

/-- The ways to decide some guards in order. -/
def guardOptions (atoms : List GuardAtom) : List GuardOption := atoms.foldl decideGuard [(true, [])]

/-! ## The guards of a node -/

/-- The guards that `_mapping_guard_options` decides. -/
def mappingGuards (pre : String) (values guards : Dict) : List GuardAtom :=
  guards.map fun row =>
    { positive := pre ++ "." ++ row.1 ++ " == " ++ row.2.repr
      known := (values.get? row.1).map fun value => value.eqv row.2 }

/-- The events that a node asks for. -/
def requiredEvents : Val → List String
  | .dict rows => (rows.filter fun row => row.2.truthy).map (·.1)
  | .list items => items.map Val.pyStr
  | .str name => if name = "" then [] else [name]
  | _ => []

/-- The guards that `_framework_guard_options` decides; without any known event all are open. -/
def frameworkGuards (frameworkEvents : List String) (guards : Val) : List GuardAtom :=
  (requiredEvents guards).map fun name =>
    { positive := "framework_event:" ++ name
      known := if frameworkEvents.isEmpty then none else some (frameworkEvents.contains name) }

/-- `dict(metadata.get(key, {}))`. -/
def guardsUnder (node : IRNode) (key : String) : Except PyErr Dict :=
  toDict (node.metadata.getD key (.dict []))

/-- The four groups of guards of a node. -/
def nodeGuardGroups (node : IRNode) (env : EnvState) : Except PyErr (List (List GuardAtom)) := do
  let requestParams ← guardsUnder node "request_param_guards"
  let deviceResults ← guardsUnder node "device_result_guards"
  let toggles ← guardsUnder node "toggle_guards"
  return [mappingGuards "request_params" env.requestParams requestParams,
    mappingGuards "device_results" env.deviceResults deviceResults,
    mappingGuards "toggles" env.toggles toggles,
    frameworkGuards env.frameworkEvents (node.metadata.get "framework_event_guards")]

/-- One option of each list: `product(*option_sets)`, with the options of a choice put together. -/
def combined : List (List GuardOption) → List GuardOption
  | [] => [(true, [])]
  | options :: rest =>
      options.flatMap fun option =>
        (combined rest).map fun other => (option.1 && other.1, option.2 ++ other.2)

/-- `_node_guard_options`. -/
def nodeGuardOptions (node : IRNode) (env : EnvState) : Except PyErr (List GuardOption) := do
  return (combined ((← nodeGuardGroups node env).map guardOptions)).eraseDups

/-! ## The nodes of a segment -/

/-- The nodes that are executed, and the clauses. -/
abbrev ExecutionOption := List String × List String

/-- One more node. -/
def executeNode (program : IRProgram) (env : EnvState) (options : List ExecutionOption)
    (nodeId : String) : Except PyErr (List ExecutionOption) := do
  let nodeOptions ← nodeGuardOptions (← program.node nodeId) env
  return options.flatMap fun option =>
    nodeOptions.map fun guards =>
      (if guards.1 then option.1 ++ [nodeId] else option.1, option.2 ++ guards.2)

/-- `_execution_options`. -/
def executionOptions (program : IRProgram) (nodeIds : List String) (env : EnvState) :
    Except PyErr (List ExecutionOption) := do
  return (← nodeIds.foldlM (executeNode program env) [([], [])]).eraseDups

/-! ## The path condition -/

/-- `_branch_clauses`. -/
def branchClauses (env : EnvState) (usegNodeId : String) : List (List String) :=
  let branches := (((env.branches.get? usegNodeId).getD []).map strip).filter (· ≠ "")
  if branches.isEmpty then [[]] else branches.map fun clause => [clause]

/-- `_extend_condition`: clauses are stripped, and empty ones left out. -/
def extendCondition (pathCondition clauses : List String) : List String :=
  pathCondition ++ (clauses.map strip).filter (· ≠ "")

/-! ## The clauses of an option -/

/-- Clauses that decide some guards, one for each. -/
def Decides (atoms : List GuardAtom) (clauses : List String) : Prop :=
  List.Forall₂ (fun atom clause => ∃ applies, (∀ known ∈ atom.known, known = applies) ∧
    clause = atom.clause applies) atoms clauses

theorem Decides.append {atoms atoms' : List GuardAtom} {clauses clauses' : List String}
    (h : Decides atoms clauses) (h' : Decides atoms' clauses') :
    Decides (atoms ++ atoms') (clauses ++ clauses') :=
  List.rel_append h h'

end FloWeaver.Counterexample
