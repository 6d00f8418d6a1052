import FloWeaver.Lib.OrderedDict
import FloWeaver.Py.Val

/-!
# Intermediate programs

A version of an integration is a program of nodes in order; each node summarises one operation.
Two versions are compared node by node, under an observation schema and a model of the resources.

* `IRProgram` — the nodes and their order.
* `IRProgram.holdsAt` — does a node have a property?
* `CounterexampleObservationSchema` — which operations and targets have to be observed.
* `ResourceModel` — which operations acquire, release and need a resource.
* `applySemanticUpdates` — what a node writes.
-/

namespace FloWeaver.Ir

open Py

/-! ## Programs -/

/-- What a node does. -/
structure IRSummary where
  provider : String
  op : String
  target : String
  phase : String
  params : Dict := []
  emitsObservation : Bool := true
  resourceEffects : List Dict := []
  semanticUpdates : Dict := []
  exceptionCategory : Option String := none

structure IRNode where
  nodeId : String
  summary : IRSummary
  successors : List String := []
  metadata : Dict := []

structure IRProgram where
  programId : String
  nodes : OrderedDict String IRNode
  entryNode : Option String
  exitNode : Option String
  order : List String := []

namespace IRNode

/-- `bool(node.metadata.get("observation_boundary"))`. -/
def observationBoundary (node : IRNode) : Bool :=
  (node.metadata.get "observation_boundary").truthy

/-- `str(node.metadata.get("node_kind", default))`. -/
def nodeKind (node : IRNode) (default : String) : String :=
  (node.metadata.getD "node_kind" (.str default)).pyStr

/-- The operation of a node and its target. -/
def opTarget (node : IRNode) : String × String := (node.summary.op, node.summary.target)

end IRNode

namespace IRProgram

/-- `program.nodes[node_id]`. -/
def node (program : IRProgram) (nodeId : String) : Except PyErr IRNode :=
  (program.nodes.get? nodeId).elim (.error .keyError) .ok

/-- `program.order.index(node_id)`. -/
def index (program : IRProgram) (nodeId : String) : Except PyErr ℕ :=
  if nodeId ∈ program.order then .ok (program.order.idxOf nodeId) else .error .valueError

/-- The nodes of some ids that have a property. -/
def nodesWith (program : IRProgram) (p : IRNode → Bool) (nodeIds : List String) :
    Except PyErr (List String) :=
  nodeIds.filterM fun nodeId => do return p (← program.node nodeId)

end IRProgram

/-! ## Reading nodes

A function that looks nodes up by their ids fails on an unknown one.  When it succeeds, its result
is that of a total function. -/

section Reading

variable {program : IRProgram} {p : IRNode → Bool} {nodeIds : List String}

/-- Does the node of an id have a property? -/
def IRProgram.holdsAt (program : IRProgram) (p : IRNode → Bool) (nodeId : String) : Bool :=
  (program.nodes.get? nodeId).any p

theorem IRProgram.node_eq_ok {nodeId : String} {node : IRNode} :
    program.node nodeId = .ok node ↔ program.nodes.get? nodeId = some node := by
  rw [IRProgram.node]
  cases program.nodes.get? nodeId <;> simp

theorem IRProgram.holdsAt_iff {nodeId : String} : program.holdsAt p nodeId = true ↔
    ∃ node, program.nodes.get? nodeId = some node ∧ p node = true := by
  rw [IRProgram.holdsAt, Option.any_eq_true]

theorem IRProgram.nodesWith_spec {found : List String}
    (h : program.nodesWith p nodeIds = .ok found) :
    found = nodeIds.filter (program.holdsAt p) := by
  refine filterM_eq_filter (fun nodeId _ b hb => ?_) h
  obtain ⟨node, hnode, hb⟩ := bind_eq_ok.1 hb
  rw [IRProgram.holdsAt, IRProgram.node_eq_ok.1 hnode]
  exact (pure_eq_ok.1 hb).symm

theorem IRProgram.mapM_node_spec {nodes : List IRNode}
    (h : nodeIds.mapM program.node = .ok nodes) : nodes = nodeIds.filterMap program.nodes.get? := by
  induction nodeIds generalizing nodes with
  | nil => exact (pure_eq_ok.1 (List.mapM_nil (f := program.node) ▸ h)).symm
  | cons n ns ih =>
    rw [List.mapM_cons, bind_eq_ok] at h
    obtain ⟨node, hnode, h⟩ := h
    obtain ⟨rest, hrest, h⟩ := bind_eq_ok.1 h
    obtain rfl := pure_eq_ok.1 h
    rw [List.filterMap_cons_some (IRProgram.node_eq_ok.1 hnode), ih hrest]

end Reading

/-! ## What has to be kept -/

/-- The operations and targets that have to be observed. -/
structure CounterexampleObservationSchema where
  semanticOps : List String := []
  requiredStateWrites : List String := []
  requiredFinalState : Dict := []
  anchorOps : List String := []

/-- How the operations use one kind of resource. -/
structure ResourceRule where
  resourceKind : String
  acquireOps : List String := []
  releaseOps : List String := []
  forbidOverlap : Bool := false
  mustRelease : Bool := false
  requiredBefore : List String := []

structure ResourceModel where
  rules : OrderedDict String ResourceRule := .empty

/-! ## What a node writes -/

/-- The state that the semantic updates write. -/
structure SemanticState where
  stateWrites : Dict := []
  exceptionCategory : Option String := none

/-- A row of `dict(v)` for a list of pairs. -/
def pairRow : Val → Except PyErr (String × Val)
  | .list [.str key, value] => .ok (key, value)
  | .list _ | .str _ | .dict _ => .error .valueError
  | _ => .error .typeError

/-- `dict(v)`, with texts as keys. -/
def toDict : Val → Except PyErr Dict
  | .dict rows => .ok rows
  | .list items => do return Dict.update [] (← items.mapM pairRow)
  | _ => .error .typeError

/-- The writes among some updates. -/
def stateWritesOf (updates : Dict) : Except PyErr Dict :=
  ((updates.get? "state_write").map toDict).getD (.ok [])

/-- `_apply_semantic_updates`. -/
def applySemanticUpdates (state : SemanticState) (node : IRNode) : Except PyErr SemanticState := do
  let updates := node.summary.semanticUpdates
  let writes ← stateWritesOf updates
  return {
    stateWrites := state.stateWrites.update writes
    exceptionCategory :=
      ((updates.get? "exception").map Val.pyStr).or state.exceptionCategory }

/-- The state after some nodes, in order. -/
def stateAfter (program : IRProgram) (nodeIds : List String) : Except PyErr SemanticState :=
  nodeIds.foldlM (fun state nodeId => do applySemanticUpdates state (← program.node nodeId)) {}

end FloWeaver.Ir
