import FloWeaver.Lib.Components
import FloWeaver.Scheduler.HardGraph

/-!
# What the hard graph is

* `addPairs_E`, `projectHardGraph_E` — the edges of the projected graph.
* `mem_edgeActionPairs` — a pair of an MSSU edge joins known actions of its two ends.
* `resolveCycles_eq_nil_iff` — the report is empty exactly on acyclic graphs.
* `reduces_transitiveReduce` — the reduction keeps every path.
* `resolveCycles_nodes` — the reported node lists are the components of the search, sorted.
* `mem_cycleReport_edges` — a report lists the edges inside its component.
* `resolveCycles_exact` — one report for each component that carries a cycle, with its nodes and
  its edges; no report exactly on acyclic graphs.
-/

namespace FloWeaver.Scheduler

open Py DepGraph Relation

/-! ## Edges -/

theorem addEdge_nodes (g : HardGraph) (src dst kind : String) :
    (addEdge g src dst kind).graph.nodes = g.graph.nodes := by
  unfold addEdge
  split_ifs
  · rfl
  · exact CountedGraph.addEdge_nodes _ _ _

theorem addEdge_E (g : HardGraph) (src dst kind u v : String) :
    (addEdge g src dst kind).graph.E u v ↔
      g.graph.E u v ∨ (u = src ∧ v = dst ∧ src ≠ dst ∧ src ∈ g.graph.nodes ∧ dst ∈ g.graph.nodes) := by
  unfold addEdge
  split_ifs with h
  · exact ⟨.inl, fun h' => h'.elim id fun e => absurd h e.2.2.1⟩
  · exact CountedGraph.addEdge_E _ _ _ _ _

theorem addPairs_nodes (kind : String) (pairs : List (String × String)) (g : HardGraph) :
    (addPairs kind g pairs).graph.nodes = g.graph.nodes := by
  induction pairs generalizing g with
  | nil => rfl
  | cons p pairs ih => exact (ih _).trans (addEdge_nodes g p.1 p.2 kind)

/-- Adding pairs adds the pairs of different nodes. -/
theorem addPairs_E (kind : String) (pairs : List (String × String)) (g : HardGraph)
    (u v : String) : (addPairs kind g pairs).graph.E u v ↔
      g.graph.E u v ∨ ((u, v) ∈ pairs ∧ u ≠ v ∧ u ∈ g.graph.nodes ∧ v ∈ g.graph.nodes) := by
  induction pairs generalizing g with
  | nil => simp [addPairs]
  | cons p pairs ih =>
    have := ih (addEdge g p.1 p.2 kind)
    rw [addPairs] at this ⊢
    rw [List.foldl_cons, this, addEdge_E, addEdge_nodes, List.mem_cons]
    constructor
    · rintro ((h | ⟨rfl, rfl, h⟩) | ⟨h1, h2⟩)
      · exact .inl h
      · exact .inr ⟨.inl rfl, h⟩
      · exact .inr ⟨.inr h1, h2⟩
    · rintro (h | ⟨h1 | h1, h2⟩)
      · exact .inl (.inl h)
      · exact .inl (.inr (by subst h1; exact ⟨rfl, rfl, h2⟩))
      · exact .inr ⟨h1, h2⟩

theorem getD_mem {l : List String} {i : ℕ} (h : i < l.length) : l.getD i "" ∈ l := by
  rw [List.getD_eq_getElem?_getD, List.getElem?_eq_getElem h]
  exact List.getElem_mem h

theorem mem_scopedPairs {left right : List String} (hl : left ≠ []) (hr : right ≠ [])
    {u v : String} (h : (u, v) ∈ scopedPairs left right) : u ∈ left ∧ v ∈ right := by
  have h1 := List.length_pos_of_ne_nil hl
  have h2 := List.length_pos_of_ne_nil hr
  unfold scopedPairs at h
  split_ifs at h
  · exact List.of_mem_zip h
  · -- what is left over on one side goes with the last paired element of the other
    simp only [List.mem_append, List.mem_filter, List.mem_map, Prod.mk.injEq] at h
    rcases h with (⟨h, -⟩ | ⟨x, ⟨hx, -⟩, rfl, rfl⟩) | ⟨x, ⟨hx, -⟩, rfl, rfl⟩
    · exact List.of_mem_zip h
    · exact ⟨List.mem_of_mem_drop hx, getD_mem (by omega)⟩
    · exact ⟨getD_mem (by omega), List.mem_of_mem_drop hx⟩

/-- A pair of an MSSU edge joins known actions of its two ends. -/
theorem mem_edgeActionPairs {srcActions dstActions justifications : List String}
    {index : ActionIndex} {u v : String}
    (h : (u, v) ∈ edgeActionPairs srcActions dstActions justifications index) :
    (u ∈ srcActions ∧ u ∈ index.keys) ∧ (v ∈ dstActions ∧ v ∈ index.keys) := by
  set validSrc := sortedStr (srcActions.filter fun a => index.keys.contains a) with hs
  set validDst := sortedStr (dstActions.filter fun a => index.keys.contains a) with hd
  have hsrc : ∀ x ∈ validSrc, x ∈ srcActions ∧ x ∈ index.keys := by simp [hs]
  have hdst : ∀ x ∈ validDst, x ∈ dstActions ∧ x ∈ index.keys := by simp [hd]
  suffices hmem : u ∈ validSrc ∧ v ∈ validDst from ⟨hsrc u hmem.1, hdst v hmem.2⟩
  have hall : (u, v) ∈ (validSrc.flatMap fun src =>
      (validDst.filter (src ≠ ·)).map fun dst => (src, dst)) → u ∈ validSrc ∧ v ∈ validDst := by
    intro h
    obtain ⟨a, ha, h⟩ := List.mem_flatMap.1 h
    obtain ⟨b, hb, heq⟩ := List.mem_map.1 h
    obtain ⟨rfl, rfl⟩ := Prod.mk.inj heq
    exact ⟨ha, (List.mem_filter.1 hb).1⟩
  unfold edgeActionPairs at h
  simp only [← hs, ← hd] at h
  split_ifs at h with h1 h2 h3
  · exact List.of_mem_zip h
  · -- the pairs of one scope value: both groups of the value are non-empty
    obtain ⟨value, hvalue, h⟩ := List.mem_flatMap.1 h
    obtain ⟨hv1, hv2⟩ := List.mem_filter.1 (mem_sortedSet.1 hvalue)
    simp only [Bool.and_eq_true, List.contains_eq_mem, decide_eq_true_eq] at hv2
    obtain ⟨a, ha, hav⟩ := List.mem_map.1 hv1
    obtain ⟨b, hb, hbv⟩ := List.mem_map.1 hv2.2
    obtain ⟨hu, hv⟩ := mem_scopedPairs
      (List.ne_nil_of_mem (List.mem_filter.2 ⟨ha, by simpa using hav⟩))
      (List.ne_nil_of_mem (List.mem_filter.2 ⟨hb, by simpa using hbv⟩)) h
    exact ⟨(List.mem_filter.1 hu).1, (List.mem_filter.1 hv).1⟩
  · exact hall h
  · exact absurd h List.not_mem_nil
  · exact hall h

/-! ## The projected graph -/

theorem projectDagEdge_nodes (dag : TypedDAG) (index : ActionIndex) (g : HardGraph)
    (edge : DependencyEdge) :
    (projectDagEdge dag index g edge).graph.nodes = g.graph.nodes :=
  addPairs_nodes _ _ _

/-- The pairs of a hard edge of the graph. -/
def dagEdgePairs (dag : TypedDAG) (index : ActionIndex) (edge : DependencyEdge) :
    List (String × String) :=
  edgeActionPairs (mssuToActions dag edge.srcMssu) (mssuToActions dag edge.dstMssu)
    edge.justification index

theorem foldl_projectDagEdge (dag : TypedDAG) (index : ActionIndex) (edges : List DependencyEdge)
    (g : HardGraph) :
    (edges.foldl (projectDagEdge dag index) g).graph.nodes = g.graph.nodes ∧
    ∀ u v, (edges.foldl (projectDagEdge dag index) g).graph.E u v ↔ g.graph.E u v ∨
      ((∃ edge ∈ edges, (u, v) ∈ dagEdgePairs dag index edge) ∧ u ≠ v ∧
        u ∈ g.graph.nodes ∧ v ∈ g.graph.nodes) := by
  induction edges generalizing g with
  | nil => simp
  | cons edge edges ih =>
    obtain ⟨h1, h2⟩ := ih (projectDagEdge dag index g edge)
    rw [List.foldl_cons]
    refine ⟨h1.trans (projectDagEdge_nodes _ _ _ _), fun u v => ?_⟩
    rw [h2, projectDagEdge_nodes, projectDagEdge, addPairs_E, mem_sortedPairs,
      List.exists_mem_cons_iff]
    simp only [dagEdgePairs]
    tauto

theorem mem_targetOrder_keys {target : OptimizationTarget} {index : ActionIndex}
    {pairs : List (String × String)} (h : targetOrderPairs target index = .ok pairs) :
    ∀ p ∈ pairs, p.1 ∈ index.keys ∧ p.2 ∈ index.keys := by
  obtain ⟨mustHappen, hm, h⟩ := bind_eq_ok.1 h
  obtain rfl := pure_eq_ok.1 h
  intro p hp
  simp only [List.mem_append] at hp
  rcases hp with (hp | hp) | hp
  · have := (List.mem_filter.1 hp).2
    simpa using this
  · rw [writebackPrecedenceConstraints, mem_sortedPairs, List.mem_flatMap] at hp
    obtain ⟨wb, hwb, hp⟩ := hp
    obtain ⟨row, hrow, rfl⟩ := List.mem_map.1 hp
    exact ⟨List.mem_map_of_mem (List.mem_filter.1 hrow).1, List.mem_map_of_mem hwb⟩
  · obtain ⟨l, hl, hp⟩ := List.mem_flatten.1 hp
    obtain ⟨row, hrow, hl⟩ := mem_of_mapM_ok hm l hl
    obtain ⟨items, -, hl⟩ := bind_eq_ok.1 hl
    obtain rfl := pure_eq_ok.1 hl
    obtain ⟨nxt, hnxt, rfl⟩ := List.mem_map.1 hp
    exact ⟨List.mem_map_of_mem hrow, by simpa using (List.mem_filter.1 hnxt).2⟩

/-- The nodes of the projected graph are the actions; its edges are the pairs of the hard
edges and of the order of the target, between different actions. -/
theorem projectHardGraph_spec {dag : TypedDAG} {index : ActionIndex}
    {target : OptimizationTarget} {g : HardGraph}
    (h : projectHardGraph dag index target = .ok g) :
    ∃ own, targetOrderPairs target index = .ok own ∧ g.graph.nodes = index.keys ∧
      ∀ u v, g.graph.E u v ↔ u ≠ v ∧
        ((∃ edge ∈ dag.hardEdges, (u, v) ∈ dagEdgePairs dag index edge) ∨ (u, v) ∈ own) := by
  obtain ⟨own, hown, h⟩ := bind_eq_ok.1 h
  obtain rfl := pure_eq_ok.1 h
  obtain ⟨h1, h2⟩ := foldl_projectDagEdge dag index dag.hardEdges (emptyHardGraph index)
  have hempty : ∀ u v, ¬ (emptyHardGraph index).graph.E u v := by
    intro u v hE
    exact List.not_mem_nil hE
  refine ⟨own, hown, (addPairs_nodes _ _ _).trans h1, fun u v => ?_⟩
  rw [addPairs_E, h1, h2]
  have hnodes : (emptyHardGraph index).graph.nodes = index.keys := rfl
  rw [hnodes]
  constructor
  · rintro ((h | ⟨h, hne, -⟩) | ⟨h, hne, -⟩)
    · exact absurd h (hempty u v)
    · exact ⟨hne, .inl h⟩
    · exact ⟨hne, .inr h⟩
  · rintro ⟨hne, ⟨edge, hedge, h⟩ | h⟩
    · obtain ⟨⟨-, hu⟩, -, hv⟩ := mem_edgeActionPairs h
      exact .inl (.inr ⟨⟨edge, hedge, h⟩, hne, hu, hv⟩)
    · obtain ⟨hu, hv⟩ := mem_targetOrder_keys hown _ h
      exact .inr ⟨h, hne, hu, hv⟩

/-! ## Cycles and reduction -/

/-- The report is empty exactly on acyclic graphs. -/
theorem resolveCycles_eq_nil_iff (g : HardGraph) :
    resolveCycles g = [] ↔ Acyclic g.graph.E := by
  rw [resolveCycles, List.map_eq_nil_iff, tarjan_eq_nil_iff]
  · refine iff_of_eq (congrArg Acyclic ?_)
    funext u v
    exact propext mem_sortedStr
  · intro u _ w hw
    exact mem_sortedStr.2 (g.graph.dst_mem u w (mem_sortedStr.1 hw))
  · intro u w hw
    exact mem_sortedStr.2 (g.graph.src_mem u w (mem_sortedStr.1 hw))

/-- The reduction keeps the nodes and every path. -/
theorem reduces_transitiveReduce (g : HardGraph) :
    CountedGraph.Reduces g.graph (transitiveReduce g).graph := by
  unfold transitiveReduce
  split_ifs
  · exact CountedGraph.Reduces.refl _
  · exact CountedGraph.reduces_reduce _

end FloWeaver.Scheduler

/-!
## The cycle reports are exact

-/

namespace FloWeaver.Scheduler

open Py DepGraph Relation

variable {g : HardGraph}

/-- The search sees the edges of the graph, in sorted order. -/
theorem edge_sortedOut (g : HardGraph) :
    Edge (fun v => sortedStr (g.graph.out v)) = g.graph.E := by
  funext u v
  exact propext mem_sortedStr

theorem sortedOut_closed (g : HardGraph) : ∀ u ∈ sortedStr g.graph.nodes,
    ∀ w ∈ sortedStr (g.graph.out u), w ∈ sortedStr g.graph.nodes :=
  fun u _ w hw => mem_sortedStr.2 (g.graph.dst_mem u w (mem_sortedStr.1 hw))

theorem sortedOut_src (g : HardGraph) : ∀ u w, w ∈ sortedStr (g.graph.out u) →
    u ∈ sortedStr g.graph.nodes :=
  fun u w hw => mem_sortedStr.2 (g.graph.src_mem u w (mem_sortedStr.1 hw))

/-- The components that the search collects. -/
def cycleComponents (g : HardGraph) : List (List String) :=
  tarjan (fun v => sortedStr (g.graph.out v)) (sortedStr g.graph.nodes)

theorem resolveCycles_eq (g : HardGraph) :
    resolveCycles g = (cycleComponents g).map (cycleReport g) := rfl

theorem mem_cycleReport_nodes {C : List String} {v : String} :
    v ∈ (cycleReport g C).nodes ↔ v ∈ C :=
  mem_sortedStr

/-- The pairs of the edges of a report. -/
def CycleReport.pairs (report : CycleReport) : List (String × String) :=
  report.edges.map fun edge => (edge.1, edge.2.1)

theorem cycleReport_pairs (g : HardGraph) (C : List String) :
    (cycleReport g C).pairs = (sortedStr C).flatMap fun src =>
      ((sortedStr (g.graph.out src)).filter (C.contains ·)).map fun dst => (src, dst) := by
  simp only [CycleReport.pairs, cycleReport, List.map_flatMap, List.map_map]
  rfl

/-- A report lists the edges inside its component. -/
theorem mem_cycleReport_pairs {C : List String} {u v : String} :
    (u, v) ∈ (cycleReport g C).pairs ↔ u ∈ C ∧ v ∈ C ∧ g.graph.E u v := by
  rw [cycleReport_pairs, List.mem_flatMap]
  constructor
  · rintro ⟨src, hsrc, h⟩
    obtain ⟨dst, hdst, heq⟩ := List.mem_map.1 h
    obtain ⟨rfl, rfl⟩ := Prod.mk.inj heq
    obtain ⟨hout, hmem⟩ := List.mem_filter.1 hdst
    exact ⟨mem_sortedStr.1 hsrc, List.contains_iff_mem.1 hmem, mem_sortedStr.1 hout⟩
  · rintro ⟨hu, hv, hedge⟩
    exact ⟨u, mem_sortedStr.2 hu, List.mem_map.2 ⟨v, List.mem_filter.2
      ⟨mem_sortedStr.2 hedge, List.contains_iff_mem.2 hv⟩, rfl⟩⟩

/-- No edge is listed twice. -/
theorem nodup_cycleReport_pairs {C : List String} (hC : C.Nodup) :
    (cycleReport g C).pairs.Nodup := by
  rw [cycleReport_pairs, List.nodup_flatMap]
  refine ⟨fun src _ => ?_, ?_⟩
  · exact ((nodup_sortedStr.2 (g.graph.nodup_out src)).filter _).map
      fun a b h => (Prod.mk.inj h).2
  · refine (nodup_sortedStr.2 hC).imp fun {a b} hab p hpa hpb => hab ?_
    obtain ⟨x, -, rfl⟩ := List.mem_map.1 hpa
    obtain ⟨y, -, hy⟩ := List.mem_map.1 hpb
    exact (Prod.mk.inj hy).1.symm

/-- Every report comes from a component without repetitions. -/
theorem exists_of_mem_resolveCycles {report : CycleReport} (h : report ∈ resolveCycles g) :
    ∃ C ∈ cycleComponents g, C.Nodup ∧ report = cycleReport g C := by
  obtain ⟨C, hC, rfl⟩ := List.mem_map.1 h
  exact ⟨C, hC, nodup_of_mem_tarjan (sortedOut_closed g) hC, rfl⟩

/-- The node sets of the reports are the components that carry a cycle. -/
theorem exists_mem_resolveCycles_iff {S : Set String} :
    (∃ report ∈ resolveCycles g, {v | v ∈ report.nodes} = S) ↔
      IsComponent g.graph.E S ∧ CarriesCycle g.graph.E S := by
  have hmem : ∀ C, {v | v ∈ (cycleReport g C).nodes} = {v | v ∈ C} := fun C =>
    Set.ext fun v => mem_cycleReport_nodes
  rw [← edge_sortedOut, ← exists_mem_tarjan_iff (sortedOut_closed g) (sortedOut_src g)]
  constructor
  · rintro ⟨report, hreport, rfl⟩
    obtain ⟨C, hC, -, rfl⟩ := exists_of_mem_resolveCycles hreport
    exact ⟨C, hC, (hmem C).symm⟩
  · rintro ⟨C, hC, rfl⟩
    exact ⟨cycleReport g C, List.mem_map_of_mem hC, hmem C⟩

/-- No component is reported twice. -/
theorem pairwise_disjoint_resolveCycles (g : HardGraph) :
    (resolveCycles g).Pairwise fun a b => List.Disjoint a.nodes b.nodes := by
  rw [resolveCycles_eq, List.pairwise_map]
  refine (pairwise_disjoint_tarjan (sortedOut_closed g)).imp fun {C D} hCD v hC hD => ?_
  exact hCD (mem_cycleReport_nodes.1 hC) (mem_cycleReport_nodes.1 hD)

/-- **The report is exact.**  The reports are the strongly connected components of two nodes or
with a self loop, one report each; a report lists the nodes of its component in order and every
edge inside it once; there is no report exactly when the graph is acyclic. -/
theorem resolveCycles_exact (g : HardGraph) :
    (∀ S : Set String, (∃ report ∈ resolveCycles g, {v | v ∈ report.nodes} = S) ↔
      IsComponent g.graph.E S ∧ CarriesCycle g.graph.E S) ∧
      (resolveCycles g).Pairwise (fun a b => List.Disjoint a.nodes b.nodes) ∧
      (∀ report ∈ resolveCycles g, report.nodes.Pairwise (· < ·) ∧ report.pairs.Nodup ∧
        ∀ u v, (u, v) ∈ report.pairs ↔
          u ∈ report.nodes ∧ v ∈ report.nodes ∧ g.graph.E u v) ∧
      (resolveCycles g = [] ↔ Acyclic g.graph.E) := by
  refine ⟨fun S => exists_mem_resolveCycles_iff, pairwise_disjoint_resolveCycles g,
    fun report hreport => ?_, resolveCycles_eq_nil_iff g⟩
  obtain ⟨C, -, hC, rfl⟩ := exists_of_mem_resolveCycles hreport
  refine ⟨pairwise_lt_sortedStr hC, nodup_cycleReport_pairs hC, fun u v => ?_⟩
  rw [mem_cycleReport_nodes, mem_cycleReport_nodes, mem_cycleReport_pairs]

end FloWeaver.Scheduler
