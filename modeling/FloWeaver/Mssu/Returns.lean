import FloWeaver.Mssu.Members

/-!
# The builder returns

The builder looks nodes up in the graph and reads the hints of the actions.  With edges and markers
at nodes of the graph and hints that can be gone through, none of this fails.

* `BuildInput.WellFormed` — such an input.
* `closedNodes_of_forall` — the closure stays among the nodes that the edges join.
* `exists_build` — the builder returns a result.
-/

namespace FloWeaver.Mssu

open Py

/-- The edges and the markers are at nodes of the graph, and the hints of the actions can be gone
through. -/
structure BuildInput.WellFormed (input : BuildInput) : Prop where
  edges : ∀ edge ∈ input.graph.edges,
    edge.src ∈ input.graph.nodes.keys ∧ edge.dst ∈ input.graph.nodes.keys
  attached : ∀ marker ∈ input.markers,
    ∀ n ∈ (input.markerToNodes.get? marker.markerId).getD [], n ∈ input.graph.nodes.keys
  hints : ∀ target, input.target = some target → ∀ action ∈ target.vdevActions,
    ∃ items, (action.getD "marker_hints" (.list [])).needItems = .ok items

/-! ## The closure -/

section Closure

variable {graph : ReducedGraph} {p : String → Prop}

theorem expandSteps_of_forall (hedges : ∀ edge ∈ graph.edges, p edge.src ∧ p edge.dst)
    {edgeTypes : List String × List String} {maxExpansion : ℕ} (depth : ℕ) {keep : List String}
    (frontier : List String) (hkeep : ∀ n ∈ keep, p n) :
    ∀ n ∈ expandSteps graph edgeTypes maxExpansion depth keep frontier, p n := by
  induction depth generalizing keep frontier with
  | zero => exact hkeep
  | succ depth ih =>
    rw [expandSteps]
    split_ifs
    · exact hkeep
    · refine ih _ fun n hn => (List.mem_append.1 hn).elim (hkeep n) fun hnext => ?_
      rw [nextFrontier, List.mem_eraseDups] at hnext
      obtain ⟨nodeId, -, hn⟩ := List.mem_flatMap.1 (List.mem_of_mem_filter hnext)
      rcases List.mem_append.1 hn with hn | hn
      · obtain ⟨edge, hedge, rfl⟩ := List.mem_map.1 hn
        exact (hedges edge (List.mem_of_mem_filter (List.mem_of_mem_filter hedge))).1
      · obtain ⟨edge, hedge, rfl⟩ := List.mem_map.1 hn
        exact (hedges edge (List.mem_of_mem_filter (List.mem_of_mem_filter hedge))).2

theorem borrowSteps_of_forall (hedges : ∀ edge ∈ graph.edges, p edge.src ∧ p edge.dst)
    {assigned : List String} (depth : ℕ) {seen : List String} (frontier : List String)
    (hseen : ∀ n ∈ seen, p n) : ∀ n ∈ borrowSteps graph assigned depth seen frontier, p n := by
  induction depth generalizing seen frontier with
  | zero => exact hseen
  | succ depth ih =>
    rw [borrowSteps]
    split_ifs
    · exact hseen
    · refine ih _ fun n hn => (List.mem_append.1 hn).elim (hseen n) fun hnext => ?_
      obtain ⟨nodeId, -, hn⟩ :=
        List.mem_flatMap.1 (List.mem_of_mem_filter (List.mem_eraseDups.1 hnext))
      obtain ⟨edge, hedge, rfl⟩ := List.mem_map.1 hn
      exact (hedges edge (List.mem_of_mem_filter (List.mem_of_mem_filter hedge))).1

theorem filterActionLocalNodes_subset {marker : Marker} {nodeIds seeds : List String}
    {markersById : OrderedDict String Marker} {target : Option OptimizationTarget} :
    filterActionLocalNodes marker nodeIds seeds graph markersById target ⊆ nodeIds := by
  rw [filterActionLocalNodes]
  dsimp only
  split_ifs
  · exact List.Subset.refl _
  · exact fun n hn => List.mem_of_mem_filter hn

/-- The closure stays among the nodes that the edges join. -/
theorem closedNodes_of_forall {input : BuildInput} {assigned : List String} {seed : Seed}
    (hedges : ∀ edge ∈ input.graph.edges, p edge.src ∧ p edge.dst) (hseeds : ∀ n ∈ seed.2, p n) :
    ∀ n ∈ input.closedNodes assigned seed, p n := by
  intro n hn
  have hn := filterActionLocalNodes_subset hn
  have hclaimed : ∀ n ∈ claimNodes (expandClosure input.graph input.builder seed.1 seed.2) seed.2
      assigned, p n := fun n hn =>
    expandSteps_of_forall hedges _ _ hseeds n (List.mem_of_mem_filter hn)
  rw [borrowOverlapContext] at hn
  split_ifs at hn
  · exact hclaimed n hn
  · exact hclaimed n hn
  · rcases List.mem_append.1 (List.mem_eraseDups.1 hn) with hn | hn
    · exact hclaimed n hn
    · exact borrowSteps_of_forall hedges _ _ (fun n hn => hseeds n (List.mem_of_mem_filter hn)) n
        (List.mem_of_mem_drop hn)

end Closure

/-! ## The steps -/

section Steps

variable {graph : ReducedGraph} {builder : Builder} {marker : Marker}
  {nodeIds seeds extra : List String}

theorem exists_node {nodeId : String} (h : nodeId ∈ graph.nodes.keys) :
    ∃ node, graph.node nodeId = .ok node := by
  obtain ⟨node, hnode⟩ := Option.isSome_iff_exists.1 (OrderedDict.get?_isSome_iff.2 h)
  exact ⟨node, by rw [ReducedGraph.node, hnode]⟩

/-- Looking up the nodes one by one does not fail. -/
theorem exists_mapM_node {β : Type} {f : String → GraphNode → β}
    (h : ∀ n ∈ nodeIds, n ∈ graph.nodes.keys) :
    ∃ rows, nodeIds.mapM (fun nodeId => do return f nodeId (← graph.node nodeId)) = .ok rows :=
  exists_mapM_ok fun n hn => exists_bind_ok (exists_node (h n hn)) fun _ _ => ⟨_, rfl⟩

theorem exists_pruneToCap (h : ∀ n ∈ nodeIds, n ∈ graph.nodes.keys) :
    ∃ kept, pruneToCap graph builder marker nodeIds seeds extra = .ok kept := by
  rw [pruneToCap]
  dsimp only
  split_ifs
  · exact ⟨_, rfl⟩
  · refine exists_bind_ok (exists_bind_ok ?_ fun _ _ => ⟨_, rfl⟩) fun _ _ =>
      exists_bind_ok (exists_mapM_node h) fun _ _ => ⟨_, rfl⟩
    exact exists_mapM_ok fun n hn => exists_bind_ok (exists_node (h n hn)) fun _ _ => ⟨_, rfl⟩

theorem pruneToCap_of_few {kept : List String}
    (h : pruneToCap graph builder marker nodeIds seeds extra = .ok kept)
    (hfew : nodeIds.length ≤ maxNodesForMarker builder marker) : kept = nodeIds := by
  rw [pruneToCap] at h
  dsimp only at h
  rw [if_pos hfew] at h
  exact (Except.ok.inj h).symm

/-- What the nodes are ranked by: the required ones first, then those near to the seeds. -/
def rank (required : List String) (distance : List (String × ℕ)) (row : String × ℤ) :
    ℕ ×ₗ ℕ ×ₗ ℤ ×ₗ String :=
  toLex ((if required.contains row.1 then 0 else 1),
    toLex ((distance.lookup row.1).getD 10000, toLex (row.2, row.1)))

/-- With too many nodes the first ones of a ranking are kept, and the seeds. -/
theorem pruneToCap_of_many {kept : List String}
    (h : pruneToCap graph builder marker nodeIds seeds extra = .ok kept)
    (hmany : ¬ nodeIds.length ≤ maxNodesForMarker builder marker) :
    ∃ required rows, requiredNodes graph nodeIds seeds extra = .ok required ∧
      rows.map Prod.fst = nodeIds ∧
      kept = (((sortedBy (rank required (distanceLevels graph nodeIds nodeIds.length 0 seeds
        (seeds.map fun nodeId => (nodeId, 0)))) rows).take
          (maxNodesForMarker builder marker)).map Prod.fst ++ seeds).eraseDups := by
  rw [pruneToCap] at h
  dsimp only at h
  rw [if_neg hmany] at h
  obtain ⟨required, hrequired, h⟩ := bind_eq_ok.1 h
  obtain ⟨rows, hrows, h⟩ := bind_eq_ok.1 h
  refine ⟨required, rows, hrequired, ?_, (pure_eq_ok.1 h).symm⟩
  refine map_eq_of_mapM_ok (fun nodeId row hrow => ?_) hrows
  obtain ⟨node, -, hrow⟩ := bind_eq_ok.1 hrow
  exact congrArg Prod.fst (pure_eq_ok.1 hrow).symm

/-- The nodes that are kept are among those that there were. -/
theorem pruneToCap_of_forall {p : String → Prop} {kept : List String}
    (h : pruneToCap graph builder marker nodeIds seeds extra = .ok kept)
    (hnodes : ∀ n ∈ nodeIds, p n) (hseeds : ∀ n ∈ seeds, p n) : ∀ n ∈ kept, p n := by
  by_cases hmany : nodeIds.length ≤ maxNodesForMarker builder marker
  · obtain rfl := pruneToCap_of_few h hmany
    exact hnodes
  · obtain ⟨required, rows, -, hids, hkept⟩ := pruneToCap_of_many h hmany
    intro n hn
    rw [hkept] at hn
    rcases List.mem_append.1 (List.mem_eraseDups.1 hn) with hn | hn
    · obtain ⟨row, hrow, rfl⟩ := List.mem_map.1 hn
      exact hnodes _ (hids ▸ List.mem_map_of_mem (mem_sortedBy.1 (List.mem_of_mem_take hrow)))
    · exact hseeds n hn

theorem exists_bindingFor {input : BuildInput} (h : input.WellFormed) :
    ∃ binding, input.bindingFor marker nodeIds = .ok binding := by
  refine exists_bind_ok ?_ fun _ _ => ⟨_, rfl⟩
  cases htarget : input.target with
  | none => exact ⟨_, rfl⟩
  | some target =>
    have hhinted : ∃ hinted, hintedActions marker target = .ok hinted :=
      exists_bind_ok (exists_mapM_ok fun action haction =>
        exists_bind_ok (h.hints target htarget action haction) fun _ _ => ⟨_, rfl⟩)
        fun _ _ => ⟨_, rfl⟩
    refine exists_bind_ok ?_ fun refs _ => ⟨_, rfl⟩
    rw [markerRefs_eq]
    split_ifs
    · obtain ⟨hinted, hhinted⟩ := hhinted
      rw [hhinted]
      exact ⟨_, rfl⟩
    · exact ⟨_, rfl⟩

end Steps

/-! ## The whole build -/

section Build

variable {input : BuildInput}

theorem exists_buildStep (h : input.WellFormed) (s : BuildState) {seed : Seed} {idx : ℕ}
    (hseeds : ∀ n ∈ seed.2, n ∈ input.graph.nodes.keys) :
    ∃ t, input.buildStep s (seed, idx) = .ok t := by
  have hclosed : ∀ n ∈ input.closedNodes s.nodeOwner.keys seed, n ∈ input.graph.nodes.keys :=
    closedNodes_of_forall h.edges hseeds
  refine exists_bind_ok (exists_pruneToCap hclosed) fun kept hkept => ?_
  have hkept := pruneToCap_of_forall hkept hclosed hseeds
  exact exists_bind_ok (exists_bind_ok (exists_mapM_node hkept) fun _ _ => ⟨_, rfl⟩) fun _ _ =>
    exists_bind_ok (exists_bindingFor h) fun _ _ => ⟨_, rfl⟩

theorem mem_of_mem_seedNodes {seed : Seed}
    (h : seed ∈ seedNodes input.markers input.markerToNodes) :
    seed.1 ∈ input.markers ∧
      ∀ n ∈ seed.2, n ∈ (input.markerToNodes.get? seed.1.markerId).getD [] := by
  rw [seedNodes, mem_sortedBy] at h
  obtain ⟨marker, hmarker, rfl⟩ := List.mem_map.1 (List.mem_of_mem_filter h)
  exact ⟨List.mem_of_mem_filter hmarker, fun n hn => List.mem_eraseDups.1 hn⟩

/-- The builder returns a result. -/
theorem exists_build (h : input.WellFormed) : ∃ result, build input = .ok result := by
  refine exists_bind_ok (exists_foldlM_ok (fun s row hrow => ?_) _) fun _ _ => ⟨_, rfl⟩
  obtain ⟨hmarker, hnodes⟩ := mem_of_mem_seedNodes (List.fst_mem_of_mem_zipIdx hrow)
  exact exists_buildStep h s fun n hn => h.attached _ hmarker n (hnodes n hn)

end Build

end FloWeaver.Mssu
