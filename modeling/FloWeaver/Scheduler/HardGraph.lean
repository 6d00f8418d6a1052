import FloWeaver.Lib.Counted
import FloWeaver.Lib.Tarjan
import FloWeaver.Scheduler.Action
import Mathlib.Data.Rat.Defs
import Mathlib.Algebra.Order.Ring.Rat

/-!
# The hard graph over actions

The scheduler projects the hard edges between MSSUs to pairs of actions and adds the order
the target asks for: explicit dependencies, writebacks after what they report, and
`must_happen_before`.  The result is a graph on the actions of the index.

* `edgeActionPairs` — the action pairs of one MSSU edge.
* `writebackPrecedenceConstraints` — the order between acquisition and writebacks.
* `projectHardGraph` — the whole graph, with the kinds of each edge.
* `resolveCycles` — the report of the strongly connected components.
* `transitiveReduce` — the reduction, skipped above 256 edges.
* `criticalPathScore` — the longest weighted path to the end, per action.
-/

namespace FloWeaver.Scheduler

open Py DepGraph

/-- The projected graph, with the kinds of every edge. -/
structure HardGraph where
  graph : CountedGraph String
  edgeKinds : OrderedDict (String × String) (List String)

/-! ## MSSUs and their actions -/

/-- The actions an MSSU refers to. -/
def mssuActionRefs (mssu : MSSU) : List String :=
  let refs := mssu.actionRefs.map strip ++ [strip (mssu.primaryActionRef.getD "")] ++
    mssu.secondaryActionRefs.map strip
  (refs.filter (· ≠ "")).dedup

/-- The actions of an MSSU of the graph; an unknown MSSU has none. -/
def mssuToActions (dag : TypedDAG) (mssuId : String) : List String :=
  ((dag.nodes.get? mssuId).map mssuActionRefs).getD []

/-- The MSSUs that refer to an action. -/
def actionToMssus (dag : TypedDAG) (actionId : String) : List String :=
  (dag.nodes.rows.filter fun row => (mssuActionRefs row.2).contains actionId).map (·.1)

/-- More than `threshold` MSSUs refer to the action. -/
def isFatAction (dag : TypedDAG) (actionId : String) : Bool :=
  (actionToMssus dag actionId).length > 24

/-! ## Edges -/

/-- The order of `sorted` on pairs of strings. -/
def pairLe (a b : String × String) : Prop := a.1 < b.1 ∨ (a.1 = b.1 ∧ a.2 ≤ b.2)

instance : DecidableRel pairLe := fun _ _ => inferInstanceAs (Decidable (_ ∨ _))

/-- `sorted` on the set of the pairs of a list. -/
def sortedPairs (l : List (String × String)) : List (String × String) :=
  l.dedup.insertionSort pairLe

@[simp] theorem mem_sortedPairs {l : List (String × String)} {p : String × String} :
    p ∈ sortedPairs l ↔ p ∈ l := by
  simp [sortedPairs]

/-- Adds an edge of a kind between two different actions. -/
def addEdge (g : HardGraph) (src dst kind : String) : HardGraph :=
  if src = dst then g
  else
    { graph := g.graph.addEdge src dst
      edgeKinds := g.edgeKinds.set (src, dst)
        (((g.edgeKinds.get? (src, dst)).getD []).insert kind) }

/-- `pair_key:` in a justification, or the empty text. -/
def pairKeyFromJustification (values : List String) : String :=
  match values.find? (startsWith · "pair_key:") with
  | some token => strip (afterFirst token ":")
  | none => ""

/-- The pairs of two sorted groups of one scope value: position by position, and what is left
over on one side with the last of the other. -/
def scopedPairs (left right : List String) : List (String × String) :=
  if left.length = 1 && right.length = 1 then left.zip right
  else
    let overlap := min left.length right.length
    let lastLeft := left.getD (overlap - 1) ""
    let lastRight := right.getD (overlap - 1) ""
    (left.zip right).filter (fun p => p.1 ≠ p.2) ++
      ((left.drop overlap).filter (· ≠ lastRight)).map (fun src => (src, lastRight)) ++
      ((right.drop overlap).filter (lastLeft ≠ ·)).map (fun dst => (lastLeft, dst))

/-- The action pairs of an MSSU edge. -/
def edgeActionPairs (srcActions dstActions justifications : List String) (index : ActionIndex) :
    List (String × String) :=
  let validSrc := sortedStr (srcActions.filter fun a => index.keys.contains a)
  let validDst := sortedStr (dstActions.filter fun a => index.keys.contains a)
  if validSrc.length = 1 && validDst.length = 1 then validSrc.zip validDst
  else
    let pairKey := pairKeyFromJustification justifications
    let valueOf (a : String) := actionGroupValue (actionOf index a) pairKey
    let values := sortedSet ((validSrc.map valueOf).filter fun v =>
      v ≠ "" && (validDst.map valueOf).contains v)
    let pairs :=
      if pairKey ≠ "" && pairKey ≠ "nearest" then
        values.flatMap fun v =>
          scopedPairs (validSrc.filter (valueOf · = v)) (validDst.filter (valueOf · = v))
      else []
    if !pairs.isEmpty then pairs
    else validSrc.flatMap fun src => (validDst.filter (src ≠ ·)).map (fun dst => (src, dst))

/-- Must an action on the first lane come before a writeback on the second one? -/
def precedesWriteback (lane writebackLane : Lane) : Bool :=
  match writebackLane with
  | .writebackBle => lane = .bleLocal
  | .writebackCloud => lane = .cloud
  | .writebackLocal => lane = .localNet
  | .writebackOverall => lane.isWriteback && lane ≠ .writebackOverall
  | .writeback => !lane.isWriteback
  | _ => false

/-- Writebacks come after the acquisitions of their lane; the overall writeback comes after
the other writebacks. -/
def writebackPrecedenceConstraints (index : ActionIndex) : List (String × String) :=
  sortedPairs (index.rows.flatMap fun wb =>
    (index.rows.filter fun row => precedesWriteback (actionLane row.2) (actionLane wb.2)).map
      fun row => (row.1, wb.1))

/-- Adds a list of pairs. -/
def addPairs (kind : String) (g : HardGraph) (pairs : List (String × String)) : HardGraph :=
  pairs.foldl (fun g p => addEdge g p.1 p.2 kind) g

/-- The pairs of the hard edges between MSSUs, edge by edge. -/
def projectDagEdge (dag : TypedDAG) (index : ActionIndex) (g : HardGraph)
    (edge : DependencyEdge) : HardGraph :=
  addPairs edge.kind g (sortedPairs (edgeActionPairs (mssuToActions dag edge.srcMssu)
    (mssuToActions dag edge.dstMssu) edge.justification index))

/-- The explicit dependencies between known actions. -/
def hardDependencyPairs (target : OptimizationTarget) (index : ActionIndex) :
    List (String × String) :=
  (target.hardDependencies.map fun dep =>
    ((dep.getD "before" (.str "")).pyStr, (dep.getD "after" (.str "")).pyStr)).filter
      fun p => index.keys.contains p.1 && index.keys.contains p.2

/-- The `must_happen_before` entries of one action that name known actions. -/
def mustHappenBefore (index : ActionIndex) (row : String × Dict) :
    Except PyErr (List (String × String)) := do
  let items ← (row.2.getD "must_happen_before" (.list [])).needItems
  return ((items.map Val.pyStr).filter fun nxt => index.keys.contains nxt).map
    fun nxt => (row.1, nxt)

/-- The order the target asks for itself. -/
def targetOrderPairs (target : OptimizationTarget) (index : ActionIndex) :
    Except PyErr (List (String × String)) := do
  let mustHappen ← index.rows.mapM (mustHappenBefore index)
  return hardDependencyPairs target index ++ writebackPrecedenceConstraints index ++
    mustHappen.flatten

/-- The graph on the actions of the index without edges. -/
def emptyHardGraph (index : ActionIndex) : HardGraph where
  graph := CountedGraph.empty index.keys index.keys_nodup
  edgeKinds := .empty

/-- The projection of the edges of the graph and of the order of the target. -/
def projectHardGraph (dag : TypedDAG) (index : ActionIndex) (target : OptimizationTarget) :
    Except PyErr HardGraph := do
  let g := dag.hardEdges.foldl (projectDagEdge dag index) (emptyHardGraph index)
  return addPairs EdgeKind.hardControl g (← targetOrderPairs target index)

/-! ## Cycles -/

/-- One strongly connected component that carries a cycle. -/
structure CycleReport where
  nodes : List String
  edgeKinds : List String
  edges : List (String × String × List String)

def cycleReport (g : HardGraph) (component : List String) : CycleReport :=
  let nodes := sortedStr component
  let edges := nodes.flatMap fun src =>
    ((sortedStr (g.graph.out src)).filter (component.contains ·)).map fun dst =>
      (src, dst, sortedStr ((g.edgeKinds.get? (src, dst)).getD []))
  { nodes, edgeKinds := sortedSet (edges.flatMap (·.2.2)), edges }

/-- The components that carry a cycle, found by depth-first search in sorted order. -/
def resolveCycles (g : HardGraph) : List CycleReport :=
  (tarjan (fun v => sortedStr (g.graph.out v)) (sortedStr g.graph.nodes)).map (cycleReport g)

/-! ## Transitive reduction -/

/-- Drops the edges that another path replaces, with their kinds; above 256 edges nothing is
dropped. -/
def transitiveReduce (g : HardGraph) : HardGraph :=
  if 256 < g.graph.edgeCount then g
  else
    let reduced := g.graph.reduce
    { graph := reduced
      edgeKinds :=
        { rows := g.edgeKinds.rows.filter fun row => (reduced.out row.1.1).contains row.1.2
          nodup := (List.filter_sublist.map Prod.fst).nodup g.edgeKinds.nodup } }

/-! ## Critical path -/

/-- The queue of `topologicalOrder`. -/
def topologicalLoop (out : String → List String) :
    ℕ → List String → (String → ℕ) → List String
  | 0, _, _ => []
  | _ + 1, [], _ => []
  | fuel + 1, node :: queue, indegree =>
      let (queue, indegree) := (out node).foldl
        (fun (acc : List String × (String → ℕ)) nxt =>
          let left := acc.2 nxt - 1
          (if left = 0 then acc.1 ++ [nxt] else acc.1, Function.update acc.2 nxt left))
        (queue, indegree)
      node :: topologicalLoop out fuel queue indegree

/-- Kahn's order of the graph. -/
def topologicalOrder (g : CountedGraph String) : List String :=
  topologicalLoop g.out g.nodes.length (g.nodes.filter fun node => g.indegree node = 0) g.indegree

/-- The largest score of some successors. -/
def maxScore (score : String → ℚ) : List String → ℚ
  | [] => 0
  | [s] => score s
  | s :: t :: rest => max (score s) (maxScore score (t :: rest))

/-- The heaviest path from each action to an end, in weights of the actions. -/
def criticalPathScore (g : CountedGraph String) (weight : String → ℚ) : String → ℚ :=
  (topologicalOrder g).foldr
    (fun node score =>
      if (g.out node).isEmpty then score
      else Function.update score node (weight node + maxScore score (g.out node)))
    weight

end FloWeaver.Scheduler
