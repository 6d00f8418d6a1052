import FloWeaver.Dag.CycleVictims
import FloWeaver.Dag.Shuffled

/-!
# Breaking the cycles of shuffled edges

The rank of an edge ends with its ends, and edges of the same ends are of different kinds, so no two
edges have the same rank: whatever the order of the edges, the same one goes.

* `eq_of_edgeRemovalRank` — the rank tells the edges apart.
* `mem_actionGraphSccs_iff` — the components hold the actions that lie on a cycle.
* `cycleVictim_perm`, `actionCycleVictim_perm` — the victims.
* `breakAllCycles_perm` — both loops leave the same edges and note the same ones.
-/

namespace FloWeaver.Dag

open Py DepGraph
open Relation (TransGen)

variable {lib : Library} {nodes nodes' : Nodes} {l l' : List DependencyEdge}

/-! ## Ranks -/

theorem SameNodes.edgeRemovalRank (h : SameNodes nodes nodes') :
    edgeRemovalRank nodes = edgeRemovalRank nodes' := by
  have hsemantic : edgeIsSemanticLifecycle nodes = edgeIsSemanticLifecycle nodes' := by
    funext edge
    rw [edgeIsSemanticLifecycle, edgeIsSemanticLifecycle, h edge.dstMssu]
  funext edge
  unfold Dag.edgeRemovalRank
  rw [hsemantic]

theorem SameNodes.actionsOf (h : SameNodes nodes nodes') : actionsOf nodes = actionsOf nodes' := by
  funext id
  rw [Dag.actionsOf, Dag.actionsOf, h id]

theorem SameNodes.edgeActions (h : SameNodes nodes nodes') :
    edgeActions nodes = edgeActions nodes' := by
  funext edge
  rw [Dag.edgeActions, Dag.edgeActions, h.actionsOf]

theorem kind_eq_of_rank : ∀ kind ∈ EdgeKind.values, ∀ other ∈ EdgeKind.values,
    kindRank kind = kindRank other → kind = other := by decide

/-- Edges of one rank are the same. -/
theorem eq_of_edgeRemovalRank (hapart : ToldApart l) (hkinds : ∀ edge ∈ l, KnownKind edge)
    {a b : DependencyEdge} (ha : a ∈ l) (hb : b ∈ l)
    (h : edgeRemovalRank nodes a = edgeRemovalRank nodes b) : a = b := by
  have hends := edgeEnds_eq_of_rank h
  have hranks : kindRank a.kind = kindRank b.kind := by
    have hlist := congrArg (fun rank => (ofLex rank).1[1]?) h
    exact Option.some.inj hlist
  have hkind := kind_eq_of_rank _ (hkinds a ha) _ (hkinds b hb) hranks
  refine hapart a ha b hb ?_
  simp only [edgeEnds, Prod.mk.injEq] at hends
  rw [edgeKey, edgeKey, hends.1, hends.2, hkind]

/-! ## The actions on a cycle -/

theorem mem_adjacency {edges : List DependencyEdge} {u v : String} :
    v ∈ adjacency lib nodes edges u ↔ (u, v) ∈ actionEdges nodes edges := by
  rw [adjacency, (lib.setOrder_perm _).mem_iff, List.mem_eraseDups, outOf, List.mem_map]
  constructor
  · rintro ⟨p, hp, rfl⟩
    obtain ⟨hmem, hu⟩ := List.mem_filter.1 hp
    obtain rfl := of_decide_eq_true hu
    exact hmem
  · exact fun h => ⟨(u, v), List.mem_filter.2 ⟨h, by simp⟩, rfl⟩

/-- The components hold exactly the actions that lie on a cycle. -/
theorem mem_actionGraphSccs_iff {edges : List DependencyEdge} {v : String} :
    v ∈ (actionGraphSccs lib nodes edges).flatten ↔
      TransGen (DepGraph.Joined (actionEdges nodes edges)) v v := by
  have hedge : Edge (adjacency lib nodes edges) = DepGraph.Joined (actionEdges nodes edges) := by
    funext u w
    exact propext mem_adjacency
  have hend : ∀ u w, (u, w) ∈ actionEdges nodes edges → ∀ x ∈ [u, w],
      x ∈ ((actionEdges nodes edges).flatMap fun p => [p.1, p.2]).eraseDups := by
    intro u w hp x hx
    exact List.mem_eraseDups.2 (List.mem_flatMap.2 ⟨(u, w), hp, hx⟩)
  have hclosed : ∀ u ∈ ((actionEdges nodes edges).flatMap fun p => [p.1, p.2]).eraseDups,
      ∀ w ∈ adjacency lib nodes edges u,
        w ∈ ((actionEdges nodes edges).flatMap fun p => [p.1, p.2]).eraseDups :=
    fun u _ w hw => hend u w (mem_adjacency.1 hw) w (by simp)
  rw [actionGraphSccs, List.mem_flatten, ← hedge]
  constructor
  · rintro ⟨C, hC, hv⟩
    exact cycle_of_mem_component hclosed hC hv
  · intro hcycle
    obtain ⟨w, hw, -⟩ := TransGen.head'_iff.1 hcycle
    exact exists_component_of_cycle hclosed (hend v w (mem_adjacency.1 hw) v (by simp)) hcycle

/-! ## Victims -/

/-- Edges that their ranks tell apart, between MSSUs of the graph. -/
structure Ranked (nodes : Nodes) (l : List DependencyEdge) : Prop where
  apart : ToldApart l
  kinds : ∀ edge ∈ l, KnownKind edge
  ends : EndsKnown nodes l

theorem Ranked.sublist {m : List DependencyEdge} (h : Ranked nodes l) (hsub : m.Sublist l) :
    Ranked nodes m :=
  ⟨fun a ha b hb => h.apart a (hsub.subset ha) b (hsub.subset hb),
    fun edge he => h.kinds edge (hsub.subset he), fun edge he => h.ends edge (hsub.subset he)⟩

/-- The first edge of the least rank, among those that a test lets through. -/
theorem victim_perm (hnodes : SameNodes nodes nodes') (hranked : Ranked nodes l) (h : l.Perm l')
    {keep keep' : DependencyEdge → Bool} (hkeep : ∀ edge ∈ l, keep edge = keep' edge) :
    (firstMinBy (fun row => edgeRemovalRank nodes row.1)
        (l.zipIdx.filter fun row => keep row.1)).map Prod.fst =
      (firstMinBy (fun row => edgeRemovalRank nodes' row.1)
        (l'.zipIdx.filter fun row => keep' row.1)).map Prod.fst := by
  have hfirst : ∀ (l : List DependencyEdge) (keep : DependencyEdge → Bool),
      (l.zipIdx.filter fun row => keep row.1).map Prod.fst = l.filter keep := by
    intro l keep
    have hmap := List.filter_map (f := Prod.fst) (p := keep) (l := l.zipIdx)
    rw [List.zipIdx_map_fst] at hmap
    exact hmap.symm
  rw [firstMinBy_map, firstMinBy_map, hfirst, hfirst, ← hnodes.edgeRemovalRank,
    List.filter_congr hkeep]
  exact firstMinBy_eq_of_perm (h.filter keep') fun a ha b hb hrank =>
    eq_of_edgeRemovalRank hranked.apart hranked.kinds (List.mem_of_mem_filter ha)
      (List.mem_of_mem_filter hb) hrank

theorem mssuEdge_perm (h : l.Perm l') : MssuEdge l = MssuEdge l' := by
  funext src dst
  simp only [MssuEdge, h.mem_iff]

theorem acyclic_perm (hnodes : SameNodes nodes nodes') (hends : EndsKnown nodes l)
    (h : l.Perm l') : acyclic nodes l = acyclic nodes' l' := by
  have hkeys := OrderedDict.keys_perm hnodes
  have hends' : EndsKnown nodes' l' := fun edge he =>
    ⟨hkeys.mem_iff.1 (hends edge (h.mem_iff.2 he)).1, hkeys.mem_iff.1 (hends edge (h.mem_iff.2 he)).2⟩
  rw [Bool.eq_iff_iff, acyclic_iff hends, acyclic_iff hends', mssuEdge_perm h]

theorem cycleVictim_perm (hnodes : SameNodes nodes nodes') (hranked : Ranked nodes l)
    (h : l.Perm l') :
    (cycleVictim nodes l).map Prod.fst = (cycleVictim nodes' l').map Prod.fst := by
  rw [cycleVictim, cycleVictim, ← h.isEmpty_eq, ← acyclic_perm hnodes hranked.ends h]
  split_ifs
  · rfl
  · simpa using @victim_perm nodes nodes' l l' hnodes hranked h (fun _ => true) (fun _ => true)
      fun _ _ => rfl

theorem actionEdges_perm (hnodes : SameNodes nodes nodes') (h : l.Perm l') :
    (actionEdges nodes l).Perm (actionEdges nodes' l') := by
  rw [actionEdges, actionEdges, hnodes.edgeActions]
  exact h.flatMap_right _

theorem isRemovable_congr (hnodes : SameNodes nodes nodes') {cycleActions cycleActions' : List String}
    (h : ∀ v, v ∈ cycleActions ↔ v ∈ cycleActions') :
    isRemovable nodes cycleActions = isRemovable nodes' cycleActions' := by
  have hcontains : ∀ v, cycleActions.contains v = cycleActions'.contains v := by
    intro v
    rw [Bool.eq_iff_iff, List.contains_iff_mem, List.contains_iff_mem, h]
  funext edge
  simp only [isRemovable, hnodes.actionsOf, hcontains]

theorem actionCycleVictim_perm (hnodes : SameNodes nodes nodes') (hranked : Ranked nodes l)
    (h : l.Perm l') :
    (actionCycleVictim lib nodes l).map Prod.fst =
      (actionCycleVictim lib nodes' l').map Prod.fst := by
  have hjoined : DepGraph.Joined (actionEdges nodes l) = DepGraph.Joined (actionEdges nodes' l') := by
    funext u v
    exact propext (actionEdges_perm hnodes h).mem_iff
  have hsame : ∀ v, v ∈ (actionGraphSccs lib nodes l).flatten ↔
      v ∈ (actionGraphSccs lib nodes' l').flatten := fun v => by
    rw [mem_actionGraphSccs_iff, mem_actionGraphSccs_iff, hjoined]
  exact victim_perm hnodes hranked h fun edge _ => congrFun (isRemovable_congr hnodes hsame) edge

/-! ## The loop -/

/-- Two diagnostics note the same removed edges. -/
structure SameRemoved (d d' : DAGBuildDiagnostics) : Prop where
  edges : d.removedHardEdges = d'.removedHardEdges
  keys : d.removedEdgeKeys = d'.removedEdgeKeys

theorem SameRemoved.note {d d' : DAGBuildDiagnostics} (h : SameRemoved d d') (message key : String)
    (removed : DependencyEdge) :
    SameRemoved (noteDemotion message key removed d) (noteDemotion message key removed d') := by
  simp only [noteDemotion, DAGBuildDiagnostics.recordRemovedEdge,
    DAGBuildDiagnostics.removedEdgeKeys_warn, ← h.keys]
  split_ifs
  · exact ⟨by simp [h.edges], by simp [h.keys]⟩
  · exact ⟨by simp [h.edges], by simp [h.keys]⟩

theorem eraseIdx_perm {i j : ℕ} {edge : DependencyEdge} (h : l.Perm l') (hi : l[i]? = some edge)
    (hj : l'[j]? = some edge) : (l.eraseIdx i).Perm (l'.eraseIdx j) := by
  obtain ⟨hlt, rfl⟩ := List.getElem?_eq_some_iff.1 hi
  obtain ⟨hlt', hsame⟩ := List.getElem?_eq_some_iff.1 hj
  have hleft := List.getElem_cons_eraseIdx_perm hlt
  have hright := List.getElem_cons_eraseIdx_perm hlt'
  rw [hsame] at hright
  exact (hleft.trans (h.trans hright.symm)).cons_inv

/-- Two loops whose victims are the same leave the same edges and note the same ones. -/
theorem demote_perm {victim victim' : List DependencyEdge → Option (DependencyEdge × ℕ)}
    (hplace : PicksPlace victim) (hplace' : PicksPlace victim')
    (hsame : ∀ l l', Ranked nodes l → l.Perm l' →
      (victim l).map Prod.fst = (victim' l').map Prod.fst)
    (message key : String) (rounds : ℕ) {d d' : DAGBuildDiagnostics} (hranked : Ranked nodes l)
    (h : l.Perm l') (hd : SameRemoved d d') :
    (demote victim message key rounds l d).1.Perm (demote victim' message key rounds l' d').1 ∧
      SameRemoved (demote victim message key rounds l d).2
        (demote victim' message key rounds l' d').2 := by
  induction rounds generalizing l l' d d' with
  | zero => exact ⟨h, hd⟩
  | succ rounds ih =>
    have hvictims := hsame l l' hranked h
    rw [demote, demote]
    cases hv : victim l with
    | none =>
      rw [hv, Option.map_none] at hvictims
      rw [Option.map_eq_none_iff.1 hvictims.symm]
      exact ⟨h, hd⟩
    | some row =>
      obtain ⟨removed, i⟩ := row
      rw [hv, Option.map_some] at hvictims
      obtain ⟨⟨other, j⟩, hv', rfl⟩ := Option.map_eq_some_iff.1 hvictims.symm
      rw [hv']
      exact ih (hranked.sublist (List.eraseIdx_sublist _ _))
        (eraseIdx_perm h (hplace _ _ _ hv) (hplace' _ _ _ hv')) (hd.note _ _ _)

/-- Both loops over the same edges in another order. -/
theorem breakAllCycles_perm (hnodes : SameNodes nodes nodes') {a b : Edges}
    (hranked : Ranked nodes a.hard) (h : a.hard.Perm b.hard)
    (hd : SameRemoved a.diagnostics b.diagnostics) :
    (breakAllCycles lib nodes a).hard.Perm (breakAllCycles lib nodes' b).hard ∧
      SameRemoved (breakAllCycles lib nodes a).diagnostics
        (breakAllCycles lib nodes' b).diagnostics := by
  obtain ⟨hactions, hremoved⟩ := demote_perm picksPlace_actionCycleVictim
    picksPlace_actionCycleVictim (fun l l' hl hperm => actionCycleVictim_perm hnodes hl hperm)
    "Action-level hard cycle" "action-hard-cycle" a.hard.length hranked h hd
  have hsub := demote_sublist (actionCycleVictim lib nodes) "Action-level hard cycle"
    "action-hard-cycle" a.hard.length a.hard a.diagnostics
  have hmssus := fun rounds => demote_perm picksPlace_cycleVictim picksPlace_cycleVictim
    (fun l l' hl hperm => cycleVictim_perm hnodes hl hperm) "Hard cycle" "hard-cycle" rounds
    (hranked.sublist hsub) hactions hremoved
  simp only [breakAllCycles, breakActionLevelCycles, breakCycles, ← h.length_eq,
    ← hactions.length_eq]
  exact hmssus _

end FloWeaver.Dag
