import FloWeaver.Mssu.Members

/-!
# The edges inside an MSSU

Before the merge the edges of an MSSU are those between its nodes.  The merge collects the edges of
the first member and those whose ends have the MSSU as their last owner, so that an edge between
two members is lost when a later MSSU shares one of its ends.

* `buildMssus_edged` — before the merge the edges are those between the nodes.
* `lastOwner_mergedMssus` — when a merged MSSU is the last owner of a node.
* `EdgesFound` — no later group shares an end of an edge between two members.
* `build_internalEdges_iff` — the edges are those between the nodes if and only if this holds.
-/

namespace FloWeaver.Mssu

open Py

/-! ## Before the merge -/

section Build

variable {input : BuildInput} {s t : BuildState} {edge : GraphEdge}

theorem mem_internalEdgesOf {nodeIds : List String} :
    edge ∈ input.internalEdgesOf nodeIds ↔
      edge ∈ input.graph.edges ∧ edge.src ∈ nodeIds ∧ edge.dst ∈ nodeIds := by
  simp only [BuildInput.internalEdgesOf, List.mem_eraseDups, List.mem_flatMap, List.mem_filter,
    Bool.and_eq_true, Bool.or_eq_true, decide_eq_true_eq, List.contains_iff_mem]
  constructor
  · rintro ⟨_, _, hedge, ⟨_, hsrc⟩, hdst⟩
    exact ⟨hedge, hsrc, hdst⟩
  · rintro ⟨hedge, hsrc, hdst⟩
    exact ⟨edge.src, hsrc, hedge, ⟨.inl rfl, hsrc⟩, hdst⟩

/-- The edges of every MSSU so far are those between its nodes. -/
def Edged (graph : ReducedGraph) (s : BuildState) : Prop :=
  ∀ mssu ∈ s.mssus, ∀ edge, edge ∈ (s.internalEdges.get? mssu.mssuId).getD [] ↔
    edge ∈ graph.edges ∧ edge.src ∈ mssu.nodeIds ∧ edge.dst ∈ mssu.nodeIds

theorem buildStep_edged {marker : Marker} {seeds : List String} {idx : ℕ}
    (hs : Numbered input idx s) (hedged : Edged input.graph s)
    (h : input.buildStep s ((marker, seeds), idx) = .ok t) : Edged input.graph t := by
  have ht := buildStep_numbered hs h
  obtain ⟨closed, io, binding, -, -, -, rfl⟩ := buildStep_eq_ok.1 h
  intro mssu hmssu edge
  rw [OrderedDict.get?_set]
  rcases List.mem_append.1 hmssu with hold | hnew
  · have hne : mssu.mssuId ≠ mssuIdText input.mssuIdPrefix idx marker := by
      intro hid
      have hnodup := ht.1
      rw [List.map_append, List.nodup_append] at hnodup
      exact hnodup.2.2 _ (List.mem_map_of_mem hold) _ (List.mem_singleton_self _) hid
    rw [if_neg hne]
    exact hedged mssu hold edge
  · obtain rfl := List.mem_singleton.1 hnew
    simp only [BuildInput.assembleMssu, if_true, Option.getD_some, mem_internalEdgesOf,
      mem_sortedSet]

/-- Before the merge the edges are those between the nodes. -/
theorem buildMssus_edged (h : input.buildMssus = .ok s) : Edged input.graph s := by
  have hstart : Numbered input 0 {} ∧ Edged input.graph {} :=
    ⟨⟨List.nodup_nil, fun m hm => absurd hm List.not_mem_nil⟩,
      fun m hm => absurd hm List.not_mem_nil⟩
  exact (foldlM_buildStep (motive := fun idx s => Numbered input idx s ∧ Edged input.graph s)
    (fun _ _ _ _ hs ht => ⟨buildStep_numbered hs.1 ht, buildStep_edged hs.1 hs.2 ht⟩) hstart h).2

end Build

/-! ## The last owner -/

section Merge

variable {graph : ReducedGraph} {mssus : List BuiltMSSU} {n : String}

/-- The last owner of a node is the MSSU after which no other contains it. -/
theorem lastOwner_append_cons {before after : List BuiltMSSU} {mssu : BuiltMSSU}
    (hnodup : ((before ++ mssu :: after).map (·.mssuId)).Nodup) :
    lastOwner (before ++ mssu :: after) n = some mssu.mssuId ↔
      n ∈ mssu.nodeIds ∧ ∀ later ∈ after, n ∉ later.nodeIds := by
  rw [List.map_append, List.map_cons, List.nodup_append, List.nodup_cons] at hnodup
  obtain ⟨-, ⟨hafter, -⟩, hbefore⟩ := hnodup
  rw [lastOwner, List.filter_append, List.filter_cons, List.getLast?_append]
  by_cases hlater : ∀ later ∈ after, n ∉ later.nodeIds
  · have hnone : (after.filter fun mssu => mssu.nodeIds.contains n) = [] := by
      rw [List.filter_eq_nil_iff]
      exact fun later hmem hn => hlater later hmem (List.contains_iff_mem.1 hn)
    rw [hnone]
    by_cases hn : n ∈ mssu.nodeIds
    · simp [hn]
      exact hlater
    · rw [if_neg (fun h => hn (List.contains_iff_mem.1 h))]
      refine iff_of_false (fun h => ?_) (fun h => hn h.1)
      obtain ⟨other, hother, hid⟩ := Option.map_eq_some_iff.1 h
      exact hbefore _ (List.mem_map_of_mem (List.mem_of_mem_filter (List.mem_of_getLast? hother)))
        _ List.mem_cons_self hid
  · refine iff_of_false (fun h => ?_) (fun h => hlater h.2)
    push Not at hlater
    obtain ⟨later, hmem, hn⟩ := hlater
    obtain ⟨last, hlast⟩ : ∃ last,
        (after.filter fun mssu => mssu.nodeIds.contains n).getLast? = some last :=
      Option.isSome_iff_exists.1 (List.getLast?_isSome.2 (List.ne_nil_of_mem
        (List.mem_filter.2 ⟨hmem, List.contains_iff_mem.2 hn⟩)))
    have hid : last.mssuId = mssu.mssuId := by
      split_ifs at h
      · rw [List.getLast?_cons, hlast] at h
        simpa using h
      · rw [hlast] at h
        simpa using h
    exact hafter (hid ▸ List.mem_map_of_mem (List.mem_of_mem_filter (List.mem_of_getLast? hlast)))

/-- A merged MSSU is the last owner of the nodes of its group that no later group contains. -/
theorem lastOwner_mergedMssus {before after : List (List BuiltMSSU)} {base : BuiltMSSU}
    {rest : List BuiltMSSU} (hnodup : (mssus.map (·.mssuId)).Nodup)
    (hgroups : mergeGroups graph mssus = before ++ (base :: rest) :: after) :
    lastOwner (mergedMssus graph mssus) n = some base.mssuId ↔
      (∃ member ∈ base :: rest, n ∈ member.nodeIds) ∧
        ∀ later ∈ after.flatten, n ∉ later.nodeIds := by
  obtain ⟨mssu, hmssu, hid⟩ := exists_mem_mergeGroup base rest
  have hmerged : mergedMssus graph mssus =
      before.flatMap mergeGroup ++ mssu :: after.flatMap mergeGroup := by
    rw [mergedMssus, hgroups, List.flatMap_append, List.flatMap_cons, hmssu]
    rfl
  have hunique : ((mergedMssus graph mssus).map (·.mssuId)).Nodup := mergedMssus_nodup hnodup
  rw [hmerged] at hunique
  rw [hmerged, ← hid, lastOwner_append_cons hunique]
  refine and_congr (mem_nodeIds_mergeGroup (hmssu ▸ List.mem_singleton_self _)) ?_
  constructor
  · intro h later hlater hn
    obtain ⟨group, hgroup, hmem⟩ := List.mem_flatten.1 hlater
    cases group with
    | nil => cases hmem
    | cons first others =>
      obtain ⟨other, hother, -⟩ := exists_mem_mergeGroup first others
      have hin : other ∈ mergeGroup (first :: others) := hother ▸ List.mem_singleton_self _
      exact h other (List.mem_flatMap.2 ⟨_, hgroup, hin⟩)
        ((mem_nodeIds_mergeGroup hin).2 ⟨later, hmem, hn⟩)
  · intro h other hother hn
    obtain ⟨group, hgroup, hin⟩ := List.mem_flatMap.1 hother
    obtain ⟨later, hlater, hnlater⟩ := (mem_nodeIds_mergeGroup hin).1 hn
    exact h later (List.mem_flatten.2 ⟨group, hgroup, hlater⟩) hnlater

end Merge

/-! ## After the merge -/

/-- An edge between two members of the group of an MSSU lies in the first member, or no later group
contains one of its ends. -/
def EdgesFound (graph : ReducedGraph) (mssus : List BuiltMSSU) (mssuId : String) : Prop :=
  ∀ before base rest after, mergeGroups graph mssus = before ++ (base :: rest) :: after →
    base.mssuId = mssuId → ∀ edge ∈ graph.edges,
      (∃ member ∈ base :: rest, edge.src ∈ member.nodeIds) →
      (∃ member ∈ base :: rest, edge.dst ∈ member.nodeIds) →
      (edge.src ∈ base.nodeIds ∧ edge.dst ∈ base.nodeIds) ∨
        ∀ later ∈ after.flatten, edge.src ∉ later.nodeIds ∧ edge.dst ∉ later.nodeIds

/-- `mssu_internal_edges[mssu_id]`. -/
def MSSUBuildResult.internalEdges? (result : MSSUBuildResult) (mssuId : String) :
    Option (List GraphEdge) :=
  result.mssuInternalEdges.lookup mssuId

section Result

variable {graph : ReducedGraph} {input : BuildInput} {s : BuildState} {candidates : List Candidate}

theorem lookup_eq_some {rows : List (String × List GraphEdge)} {mssuId : String}
    {edges : List GraphEdge} (hnodup : (rows.map Prod.fst).Nodup) (h : (mssuId, edges) ∈ rows) :
    rows.lookup mssuId = some edges := by
  induction rows with
  | nil => cases h
  | cons row rows ih =>
    rw [List.map_cons, List.nodup_cons] at hnodup
    rcases List.mem_cons.1 h with rfl | h
    · exact List.lookup_cons_self
    · have hne : (mssuId == row.1) = false :=
        beq_eq_false_iff_ne.2 fun hid => hnodup.1 (hid ▸ List.mem_map_of_mem h)
      rw [List.lookup_cons, hne]
      exact ih hnodup.2 h

/-- The edges of an MSSU that is kept are those that the merge collects for it. -/
theorem internalEdges?_eq (hnodup : (s.mssus.map (·.mssuId)).Nodup) {merged : BuiltMSSU}
    (h : merged ∈ keptMssus graph s.mssus) :
    (compactMssus graph s candidates).internalEdges? merged.mssuId =
      some (mergedInternalEdges graph (mergedMssus graph s.mssus) s.internalEdges merged) := by
  have hmerged := List.mem_of_mem_filter h
  have hrow : (merged.mssuId, mergedInternalEdges graph (mergedMssus graph s.mssus)
      s.internalEdges merged) ∈ (OrderedDict.ofList ((mergedMssus graph s.mssus).map fun mssu =>
        (mssu.mssuId, mergedInternalEdges graph (mergedMssus graph s.mssus) s.internalEdges
          mssu))).rows := by
    obtain ⟨edges, hedges⟩ := Option.isSome_iff_exists.1 (OrderedDict.get?_isSome_iff.2
      (OrderedDict.mem_keys_ofList.2 (List.mem_map_of_mem (f := Prod.fst)
        (List.mem_map_of_mem (f := fun mssu : BuiltMSSU => (mssu.mssuId, mergedInternalEdges graph
          (mergedMssus graph s.mssus) s.internalEdges mssu)) hmerged))))
    obtain ⟨other, hother, heq⟩ := List.mem_map.1 (OrderedDict.mem_of_get?_ofList hedges)
    obtain ⟨hid, rfl⟩ := Prod.mk.inj heq
    obtain rfl := List.inj_on_of_nodup_map (mergedMssus_nodup hnodup) hother hmerged hid
    exact OrderedDict.mem_rows_of_get? hedges
  rw [compactMssus_eq]
  refine lookup_eq_some ?_ ?_
  · dsimp only
    split_ifs
    · exact (OrderedDict.nodup _).sublist (List.filter_sublist.map _)
    · exact OrderedDict.nodup _
  · dsimp only
    split_ifs
    · exact List.mem_filter.2 ⟨hrow, List.contains_iff_mem.2 (List.mem_map_of_mem h)⟩
    · exact hrow

/-- The merge collects an edge between two nodes of an MSSU when the edge lies in the first member,
or when no later group contains one of its ends. -/
theorem mem_mergedInternalEdges (hnodup : (s.mssus.map (·.mssuId)).Nodup) (hedged : Edged graph s)
    {before after : List (List BuiltMSSU)} {base merged : BuiltMSSU} {rest : List BuiltMSSU}
    (hgroups : mergeGroups graph s.mssus = before ++ (base :: rest) :: after)
    (hin : merged ∈ mergeGroup (base :: rest)) {edge : GraphEdge} :
    edge ∈ mergedInternalEdges graph (mergedMssus graph s.mssus) s.internalEdges merged ↔
      edge ∈ graph.edges ∧ edge.src ∈ merged.nodeIds ∧ edge.dst ∈ merged.nodeIds ∧
        ((edge.src ∈ base.nodeIds ∧ edge.dst ∈ base.nodeIds) ∨
          ∀ later ∈ after.flatten, edge.src ∉ later.nodeIds ∧ edge.dst ∉ later.nodeIds) := by
  have hgroup : base :: rest ∈ mergeGroups graph s.mssus := hgroups ▸ by simp
  have hbase := mem_of_mem_mergeGroups hgroup List.mem_cons_self
  rw [mergedInternalEdges, List.mem_eraseDups, List.mem_append, List.mem_filter,
    List.mem_filter, mssuId_of_mem_mergeGroup hin, hedged base hbase, Bool.and_eq_true,
    Bool.and_eq_true, decide_eq_true_eq, decide_eq_true_eq, lastOwner_mergedMssus hnodup hgroups,
    lastOwner_mergedMssus hnodup hgroups, ← mem_nodeIds_mergeGroup hin,
    ← mem_nodeIds_mergeGroup hin, List.contains_iff_mem, List.contains_iff_mem]
  constructor
  · rintro (⟨⟨hedge, hfirst⟩, hsrc, hdst⟩ | ⟨hedge, ⟨hsrc, hs⟩, hdst, hd⟩)
    · exact ⟨hedge, hsrc, hdst, .inl hfirst⟩
    · exact ⟨hedge, hsrc, hdst, .inr fun later hl => ⟨hs later hl, hd later hl⟩⟩
  · rintro ⟨hedge, hsrc, hdst, hfirst | hlater⟩
    · exact .inl ⟨⟨hedge, hfirst⟩, hsrc, hdst⟩
    · exact .inr ⟨hedge, ⟨hsrc, fun later hl => (hlater later hl).1⟩, hdst,
        fun later hl => (hlater later hl).2⟩

/-- The edges that the merge collects are those between the nodes when no later group shares an end
of an edge between two members, and only then. -/
theorem edgesFound_iff (hnodup : (s.mssus.map (·.mssuId)).Nodup) (hedged : Edged graph s)
    {merged : BuiltMSSU} (hmem : merged ∈ mergedMssus graph s.mssus) :
    (∀ edge, edge ∈ mergedInternalEdges graph (mergedMssus graph s.mssus) s.internalEdges merged ↔
      edge ∈ graph.edges ∧ edge.src ∈ merged.nodeIds ∧ edge.dst ∈ merged.nodeIds) ↔
    EdgesFound graph s.mssus merged.mssuId := by
  obtain ⟨group, hgroup, hin⟩ := List.mem_flatMap.1 hmem
  constructor
  · intro h before base rest after hgroups hid edge hedge hsrc hdst
    have hbase : base :: rest ∈ mergeGroups graph s.mssus := hgroups ▸ by simp
    obtain rfl : group = base :: rest := by
      cases group with
      | nil => cases hin
      | cons first others =>
        exact eq_of_mem_mergeGroups hnodup hgroup hbase List.mem_cons_self List.mem_cons_self
          ((mssuId_of_mem_mergeGroup hin).symm.trans hid.symm)
    have hfound := (h edge).2 ⟨hedge, (mem_nodeIds_mergeGroup hin).2 hsrc,
      (mem_nodeIds_mergeGroup hin).2 hdst⟩
    exact ((mem_mergedInternalEdges hnodup hedged hgroups hin).1 hfound).2.2.2
  · intro h edge
    obtain ⟨before, after, hgroups⟩ := List.append_of_mem hgroup
    cases group with
    | nil => cases hin
    | cons base rest =>
      rw [mem_mergedInternalEdges hnodup hedged hgroups hin]
      refine and_congr_right fun hedge => ⟨fun h => ⟨h.1, h.2.1⟩, fun ⟨hsrc, hdst⟩ => ?_⟩
      exact ⟨hsrc, hdst, h before base rest after hgroups (mssuId_of_mem_mergeGroup hin).symm edge
        hedge ((mem_nodeIds_mergeGroup hin).1 hsrc) ((mem_nodeIds_mergeGroup hin).1 hdst)⟩

theorem build_eq_ok {result : MSSUBuildResult} :
    build input = .ok result ↔ ∃ s, input.buildMssus = .ok s ∧
      compactMssus input.graph s (dependencyCandidates input.graph s) = result :=
  bind_eq_ok.trans (exists_congr fun _ => and_congr_right fun _ => pure_eq_ok)

/-- The edges that are returned for an MSSU are those between its nodes when no later group shares
an end of an edge between two of its members, and only then. -/
theorem build_internalEdges_iff {result : MSSUBuildResult} (h : build input = .ok result) :
    ∃ s, input.buildMssus = .ok s ∧ ∀ mssu ∈ result.mssus,
      ∃ edges, result.internalEdges? mssu.mssuId = some edges ∧
        ((∀ edge, edge ∈ edges ↔
            edge ∈ input.graph.edges ∧ edge.src ∈ mssu.nodeIds ∧ edge.dst ∈ mssu.nodeIds) ↔
          EdgesFound input.graph s.mssus mssu.mssuId) := by
  obtain ⟨s, hs, rfl⟩ := build_eq_ok.1 h
  refine ⟨s, hs, fun mssu hmssu => ?_⟩
  obtain ⟨merged, hkept, hid, hnodes⟩ := exists_merged_of_mem hmssu
  rw [hid, hnodes]
  exact ⟨_, internalEdges?_eq (buildMssus_nodup hs) hkept,
    edgesFound_iff (buildMssus_nodup hs) (buildMssus_edged hs) (List.mem_of_mem_filter hkept)⟩

end Result

/-! ## An edge that is lost -/

/-- Two calls for one action with an edge between them, and a call for another action at the second
node. -/
def bridgeInput : BuildInput where
  graph :=
    { nodes := .ofList [("a", {}), ("b", {})]
      edges := [⟨"a", "b", "DATA_DEP"⟩] }
  markers := [callMarker 1 "open", callMarker 2 "open", callMarker 3 "unlock"]
  markerToNodes := .ofList [("marker_1", ["a"]), ("marker_2", ["b"]), ("marker_3", ["b"])]
  target := chainInput.target

/-- What comes of the three calls. -/
theorem bridgeInput_build : ∃ result, build bridgeInput = .ok result ∧
    result.mssus.map (fun mssu => (mssu.mssuId, mssu.nodeIds)) =
      [("mssu_000_cloud_http_call", ["a", "b"]), ("mssu_002_cloud_http_call", ["b"])] ∧
    result.internalEdges? "mssu_000_cloud_http_call" = some [] := by
  have hrun : ((build bridgeInput).toOption.map fun result =>
      (result.mssus.map (fun mssu => (mssu.mssuId, mssu.nodeIds)),
        result.internalEdges? "mssu_000_cloud_http_call")) =
      some ([("mssu_000_cloud_http_call", ["a", "b"]), ("mssu_002_cloud_http_call", ["b"])],
        some []) := by decide +kernel
  cases hbuild : build bridgeInput with
  | error e => simp [hbuild, Except.toOption] at hrun
  | ok result =>
    simp only [hbuild, Except.toOption, Option.map_some, Option.some.injEq, Prod.mk.injEq] at hrun
    exact ⟨result, rfl, hrun⟩

theorem build_internalEdges_iff_bridge : ∃ result s, build bridgeInput = .ok result ∧
    bridgeInput.buildMssus = .ok s ∧ ∀ mssu ∈ result.mssus,
      ∃ edges, result.internalEdges? mssu.mssuId = some edges ∧
        ((∀ edge, edge ∈ edges ↔
            edge ∈ bridgeInput.graph.edges ∧ edge.src ∈ mssu.nodeIds ∧ edge.dst ∈ mssu.nodeIds) ↔
          EdgesFound bridgeInput.graph s.mssus mssu.mssuId) := by
  obtain ⟨result, hbuild, -⟩ := bridgeInput_build
  obtain ⟨s, hs, hedges⟩ := build_internalEdges_iff hbuild
  exact ⟨result, s, hbuild, hs, hedges⟩

/-- The merged call contains both nodes, but the edge between them is lost. -/
theorem build_loses_internal_edge : ∃ result, build bridgeInput = .ok result ∧
    ∃ mssu ∈ result.mssus, ∃ edge ∈ bridgeInput.graph.edges, edge.src ∈ mssu.nodeIds ∧
      edge.dst ∈ mssu.nodeIds ∧ result.internalEdges? mssu.mssuId = some [] := by
  obtain ⟨result, hbuild, hmssus, hedges⟩ := bridgeInput_build
  have hfirst : ("mssu_000_cloud_http_call", ["a", "b"]) ∈
      result.mssus.map fun mssu => (mssu.mssuId, mssu.nodeIds) := hmssus ▸ List.mem_cons_self
  obtain ⟨mssu, hmssu, heq⟩ := List.mem_map.1 hfirst
  obtain ⟨hid, hnodes⟩ := Prod.mk.inj heq
  refine ⟨result, hbuild, mssu, hmssu, ⟨"a", "b", "DATA_DEP"⟩, List.mem_cons_self, ?_, ?_, ?_⟩
  · rw [hnodes]
    decide
  · rw [hnodes]
    decide
  · rw [hid, hedges]

end FloWeaver.Mssu
