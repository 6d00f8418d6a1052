import FloWeaver.Contracts

/-!
# Records of the MSSU builder

* `GraphNode`, `GraphEdge`, `ReducedGraph` — the reduced dependence graph of the program.
* `Marker` — a place in the program that a rule has recognised, with the actions it belongs to.
* `BuiltMSSU` — an MSSU with the nodes it is made of.
* `GraphNode`, `Marker` — the records of the builder with the fields the reducer reads.
* `ReducedGraph` — the statements under their ids, and the edges between them.
-/

namespace FloWeaver.Mssu

open Py

/-- A statement of the program. -/
structure GraphNode where
  filePath : String := ""
  functionName : String := ""
  lineStart : ℤ := 0
  stmtKind : String := ""
  rawRepr : String := ""
  effects : List String := []
  defs : List String := []
  uses : List String := []
  markerRefs : List String := []

/-- A dependence between two statements. -/
structure GraphEdge where
  src : String
  dst : String
  edgeType : String
deriving DecidableEq, Repr

structure ReducedGraph where
  nodes : OrderedDict String GraphNode := .empty
  edges : List GraphEdge := []

namespace ReducedGraph

/-- `graph.nodes[node_id]`. -/
def node (graph : ReducedGraph) (nodeId : String) : Except PyErr GraphNode :=
  match graph.nodes.get? nodeId with
  | some node => .ok node
  | none => .error .keyError

/-- The edges that start at a node. -/
def forward (graph : ReducedGraph) (nodeId : String) : List GraphEdge :=
  graph.edges.filter (·.src = nodeId)

/-- The edges that end at a node. -/
def backward (graph : ReducedGraph) (nodeId : String) : List GraphEdge :=
  graph.edges.filter (·.dst = nodeId)

end ReducedGraph

/-- A recognised place of the program. -/
structure Marker where
  markerId : String
  markerType : String
  filePath : String := ""
  lineStart : ℤ := 0
  strength : String := "MEDIUM"
  phase : String := "RUNTIME"
  evidence : List String := []
  primaryActionId : Option String := none
  secondaryActionIds : List String := []
  relatedActionIds : List String := []
  bindingReason : List String := []

/-- `str(marker.marker_type).strip().upper()`. -/
def Marker.type (marker : Marker) : String := upper (strip marker.markerType)

/-- An MSSU as the builder makes it. -/
structure BuiltMSSU extends MSSU where
  nodeIds : List String := []
  exceptions : List String := []
  requiredGuards : List String := []

namespace Phase

def setup : String := "SETUP"
def runtime : String := "RUNTIME"
def teardown : String := "TEARDOWN"

end Phase

end FloWeaver.Mssu

/-!
## Records of the reducer

The reducer works on the statements before the MSSU builder does, and reads more of them: the
identity of a statement, its last line, the function and the last line of a marker.
-/

namespace FloWeaver.Reduction

/-- A statement of the program. -/
structure GraphNode extends Mssu.GraphNode where
  nodeId : String
  lineEnd : ℤ := 0

/-- A recognised place of the program. -/
structure Marker extends Mssu.Marker where
  functionName : String := ""
  lineEnd : ℤ := 0

/-- The file and the function a statement is in. -/
def GraphNode.function (node : GraphNode) : String × String := (node.filePath, node.functionName)

/-- The file and the function a marker is in. -/
def Marker.function (marker : Marker) : String × String := (marker.filePath, marker.functionName)

/-- Statements under their own ids, and the edges between them. -/
structure ReducedGraph where
  nodes : OrderedDict String GraphNode := .empty
  edges : List Mssu.GraphEdge := []
  keyed : ∀ row ∈ nodes.rows, row.2.nodeId = row.1 := by simp [OrderedDict.empty]

namespace ReducedGraph

theorem map_nodeId_values (graph : ReducedGraph) :
    graph.nodes.values.map GraphNode.nodeId = graph.nodes.keys := by
  rw [OrderedDict.values, OrderedDict.keys, List.map_map]
  exact List.map_congr_left graph.keyed

theorem nodup_nodeIds (graph : ReducedGraph) :
    (graph.nodes.values.map GraphNode.nodeId).Nodup := by
  rw [map_nodeId_values]
  exact graph.nodes.keys_nodup

theorem eq_of_nodeId {graph : ReducedGraph} {a b : GraphNode} (ha : a ∈ graph.nodes.values)
    (hb : b ∈ graph.nodes.values) (h : a.nodeId = b.nodeId) : a = b :=
  List.inj_on_of_nodup_map graph.nodup_nodeIds ha hb h

end ReducedGraph

end FloWeaver.Reduction
