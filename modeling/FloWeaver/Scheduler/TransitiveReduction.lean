import FloWeaver.Lib.Irredundant
import FloWeaver.Scheduler.HardGraphFacts

/-!
# The rows of the transitive reduction

The reduction with everything it writes down: next to the graph, the kinds of the removed edges
are taken out of the table, and every removed edge is reported.

* `transitiveReduceRows` — the reduction and its rows; above 256 edges one row says why nothing
  was done.
* `Accounted` — what holds after any number of removals: the rows are the edges that are gone.
* `transitiveReduceRows_exact` — paths are kept, nothing redundant is left, the counters are
  right, and the rows and the remaining edges make up the graph.
-/

namespace FloWeaver.Scheduler

open Py DepGraph Relation

/-- A row of the report. -/
inductive ReductionRow where
  /-- `transitive_reduction_skipped`, for the reason `edge_cap`. -/
  | skipped (edgeCount edgeCap : ℕ)
  /-- `transitive_reduction`. -/
  | removed (srcAction dstAction : String) (removedKinds : List String)

/-- Looks at one edge: an edge that another path replaces goes, with its kinds. -/
def reduceRow (src : String) (acc : HardGraph × List ReductionRow) (dst : String) :
    HardGraph × List ReductionRow :=
  if dst ∈ acc.1.graph.out src ∧ acc.1.graph.reachableWithout src dst = true then
    ({ graph := acc.1.graph.removeEdge src dst
       edgeKinds := acc.1.edgeKinds.erase (src, dst) },
      acc.2 ++ [.removed src dst (sortedStr ((acc.1.edgeKinds.get? (src, dst)).getD []))])
  else acc

/-- Looks at the edges that start in a node. -/
def reduceRows (acc : HardGraph × List ReductionRow) (src : String) :
    HardGraph × List ReductionRow :=
  ((acc.1.graph.out src).insertionSort (· ≤ ·)).foldl (reduceRow src) acc

/-- The reduced graph and the rows of the report. -/
def transitiveReduceRows (g : HardGraph) : HardGraph × List ReductionRow :=
  if 256 < g.graph.edgeCount then (g, [.skipped g.graph.edgeCount 256])
  else (g.graph.nodes.insertionSort (· ≤ ·)).foldl reduceRows (g, [])

/-! ## The graph of the rows -/

variable {g : HardGraph} {src dst : String} {acc : HardGraph × List ReductionRow}

theorem reduceRow_graph : (reduceRow src acc dst).1.graph = acc.1.graph.reduceEdge src dst := by
  unfold reduceRow CountedGraph.reduceEdge
  split_ifs <;> rfl

theorem foldl_reduceRow_graph (l : List String) :
    (l.foldl (reduceRow src) acc).1.graph = l.foldl (CountedGraph.reduceEdge src) acc.1.graph := by
  induction l generalizing acc with
  | nil => rfl
  | cons dst l ih => rw [List.foldl_cons, List.foldl_cons, ih, reduceRow_graph]

theorem foldl_reduceRows_graph (l : List String) :
    (l.foldl reduceRows acc).1.graph = l.foldl CountedGraph.reduceNode acc.1.graph := by
  induction l generalizing acc with
  | nil => rfl
  | cons src l ih =>
    have hnode : (reduceRows acc src).1.graph = acc.1.graph.reduceNode src :=
      foldl_reduceRow_graph _
    rw [List.foldl_cons, List.foldl_cons, ih, hnode]

/-- The graph is the one of the reduction without rows. -/
theorem transitiveReduceRows_graph (g : HardGraph) :
    (transitiveReduceRows g).1.graph = (transitiveReduce g).graph := by
  unfold transitiveReduceRows transitiveReduce
  split_ifs
  · rfl
  · exact foldl_reduceRows_graph _

/-! ## The rows -/

/-- The edges of a graph as a list. -/
def edgeList (g : CountedGraph String) : List (String × String) :=
  g.nodes.flatMap fun v => (g.out v).map (v, ·)

theorem mem_edgeList {g : CountedGraph String} {p : String × String} :
    p ∈ edgeList g ↔ g.E p.1 p.2 := by
  rw [edgeList, List.mem_flatMap]
  constructor
  · rintro ⟨v, -, h⟩
    obtain ⟨w, hw, rfl⟩ := List.mem_map.1 h
    exact hw
  · exact fun h => ⟨p.1, CountedGraph.E_src h, List.mem_map.2 ⟨p.2, h, rfl⟩⟩

theorem nodup_edgeList (g : CountedGraph String) : (edgeList g).Nodup := by
  rw [edgeList, List.nodup_flatMap]
  refine ⟨fun v _ => (g.nodup_out v).map fun a b h => (Prod.mk.inj h).2, ?_⟩
  refine g.nodup_nodes.imp fun {a b} hab p hpa hpb => hab ?_
  obtain ⟨x, -, rfl⟩ := List.mem_map.1 hpa
  obtain ⟨y, -, hy⟩ := List.mem_map.1 hpb
  exact (Prod.mk.inj hy).1.symm

/-- The report of a removed edge of a graph. -/
def removedRow (g : HardGraph) (p : String × String) : ReductionRow :=
  .removed p.1 p.2 (sortedStr ((g.edgeKinds.get? p).getD []))

/-- The rows written so far report the edges that are gone, once each, and the kinds of the
remaining edges are untouched. -/
def Accounted (g : HardGraph) (acc : HardGraph × List ReductionRow) : Prop :=
  ∃ gone : List (String × String), acc.2 = gone.map (removedRow g) ∧ gone.Nodup ∧
    (∀ p, p ∈ gone ↔ g.graph.E p.1 p.2 ∧ ¬ acc.1.graph.E p.1 p.2) ∧
    (∀ u v, acc.1.graph.E u v → g.graph.E u v) ∧
    ∀ u v, acc.1.graph.E u v → acc.1.edgeKinds.get? (u, v) = g.edgeKinds.get? (u, v)

theorem accounted_start (g : HardGraph) : Accounted g (g, []) :=
  ⟨[], rfl, List.nodup_nil, by simp, fun _ _ h => h, fun _ _ _ => rfl⟩

theorem Accounted.reduceRow (h : Accounted g acc) : Accounted g (reduceRow src acc dst) := by
  unfold Scheduler.reduceRow
  split_ifs with hc
  · obtain ⟨gone, hrows, hnodup, hgone, hsub, hkinds⟩ := h
    have hedge : acc.1.graph.E src dst := hc.1
    have hrow : ReductionRow.removed src dst
        (sortedStr ((acc.1.edgeKinds.get? (src, dst)).getD [])) = removedRow g (src, dst) := by
      rw [removedRow, hkinds src dst hedge]
    refine ⟨gone ++ [(src, dst)], by rw [List.map_append, ← hrows, hrow]; rfl, ?_, fun p => ?_,
      fun u v huv => ?_, fun u v huv => ?_⟩
    · refine List.nodup_append.2 ⟨hnodup, by simp, fun a ha b hb hab => ?_⟩
      rw [List.mem_singleton.1 hb] at hab
      exact ((hgone _).1 (hab ▸ ha)).2 hedge
    · rw [List.mem_append, hgone, List.mem_singleton, CountedGraph.removeEdge_E, Prod.ext_iff]
      constructor
      · rintro (⟨hp, hnot⟩ | ⟨h1, h2⟩)
        · exact ⟨hp, fun h => hnot h.1⟩
        · exact ⟨by rw [h1, h2]; exact hsub src dst hedge, fun h => h.2 ⟨h1, h2⟩⟩
      · rintro ⟨hp, hnot⟩
        by_cases hsame : p.1 = src ∧ p.2 = dst
        · exact .inr hsame
        · exact .inl ⟨hp, fun h => hnot ⟨h, hsame⟩⟩
    · exact hsub u v ((CountedGraph.removeEdge_E _ _ _ _ _).1 huv).1
    · obtain ⟨hold, hne⟩ := (CountedGraph.removeEdge_E _ _ _ _ _).1 huv
      rw [← hkinds u v hold]
      refine OrderedDict.get?_erase_of_ne _ fun heq => hne ?_
      exact Prod.mk.inj heq
  · exact h

theorem Accounted.foldl {β : Type} {f : HardGraph × List ReductionRow → β → HardGraph ×
    List ReductionRow} (hf : ∀ acc b, Accounted g acc → Accounted g (f acc b)) (l : List β)
    (h : Accounted g acc) : Accounted g (l.foldl f acc) := by
  induction l generalizing acc with
  | nil => exact h
  | cons b l ih => exact ih (hf acc b h)

theorem accounted_transitiveReduceRows (hcap : g.graph.edgeCount ≤ 256) :
    Accounted g (transitiveReduceRows g) := by
  rw [transitiveReduceRows, if_neg (by omega)]
  exact (accounted_start g).foldl
    (fun _ _ h => Accounted.foldl (fun _ _ h => h.reduceRow) _ h) _

/-- **The reduction is exact.**  It keeps the paths, leaves no edge that another path replaces and
counters that fit, and its rows with the remaining edges are the edges of the graph.  The graph
need not be acyclic. -/
theorem transitiveReduceRows_exact (g : HardGraph) (hcap : g.graph.edgeCount ≤ 256) :
    (∀ u v, TransGen (transitiveReduceRows g).1.graph.E u v ↔ TransGen g.graph.E u v) ∧
      (∀ u v, (transitiveReduceRows g).1.graph.E u v →
        ¬ TransGen (fun a b => (transitiveReduceRows g).1.graph.E a b ∧ (a, b) ≠ (u, v)) u v) ∧
      (∀ v, (transitiveReduceRows g).1.graph.indegree v =
        g.graph.nodes.countP fun u => decide (v ∈ (transitiveReduceRows g).1.graph.out u)) ∧
      ∃ gone : List (String × String), (transitiveReduceRows g).2 = gone.map (removedRow g) ∧
        (gone ++ edgeList (transitiveReduceRows g).1.graph).Perm (edgeList g.graph) := by
  have hgraph : (transitiveReduceRows g).1.graph = g.graph.reduce := by
    rw [transitiveReduceRows_graph, transitiveReduce, if_neg (by omega)]
  obtain ⟨gone, hrows, hnodup, hgone, hsub, -⟩ := accounted_transitiveReduceRows hcap
  have hreduces := CountedGraph.reduces_reduce g.graph
  refine ⟨fun u v => ⟨fun h => TransGen.mono hsub _ _ h, fun h => hgraph ▸ hreduces.transGen h⟩,
    fun u v huv => ?_, fun v => ?_, gone, hrows, ?_⟩
  · have hneeded := CountedGraph.irredundant_reduce g.graph u v (hgraph ▸ huv)
    rw [← hgraph] at hneeded
    refine fun hpath => hneeded (TransGen.mono (fun a b hab => ?_) _ _ hpath)
    refine (CountedGraph.removeEdge_E _ _ _ _ _).2 ⟨hab.1, ?_⟩
    rintro ⟨rfl, rfl⟩
    exact hab.2 rfl
  · rw [(transitiveReduceRows g).1.graph.indegree_eq v, hgraph, hreduces.nodes_eq]
  · refine (List.perm_ext_iff_of_nodup ?_ (nodup_edgeList _)).2 fun p => ?_
    · exact List.nodup_append.2 ⟨hnodup, nodup_edgeList _, fun a ha b hb hab =>
        ((hgone a).1 ha).2 (mem_edgeList.1 (hab ▸ hb))⟩
    · rw [List.mem_append, hgone, mem_edgeList, mem_edgeList]
      constructor
      · exact fun h => h.elim (fun h => h.1) (hsub _ _)
      · intro h
        by_cases hleft : (transitiveReduceRows g).1.graph.E p.1 p.2
        · exact .inr hleft
        · exact .inl ⟨h, hleft⟩

/-- Two steps and the shortcut over them. -/
def shortcutGraph : HardGraph :=
  addPairs EdgeKind.hardControl ⟨CountedGraph.empty ["a", "b", "c"] (by decide), .empty⟩
    [("a", "b"), ("b", "c"), ("a", "c")]

theorem transitiveReduceRows_shortcut :
    shortcutGraph.graph.edgeCount ≤ 256 ∧
      ∀ u v, TransGen (transitiveReduceRows shortcutGraph).1.graph.E u v ↔
        TransGen shortcutGraph.graph.E u v :=
  ⟨by decide, (transitiveReduceRows_exact shortcutGraph (by decide)).1⟩

end FloWeaver.Scheduler
