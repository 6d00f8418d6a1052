import FloWeaver.Dag.Demotion

/-!
# Which edges are removed

Both loops remove the edge of the least rank.  The rank says nothing about cycles, so the edge that
goes need not lie on one.

* `demotions` — the rounds of a loop: the edges before each, and the edge removed.
* `OnCycle`, `WithinComponent` — an edge lies on a cycle of MSSUs, or orders two actions of one
  strongly connected component.
* `onCycle_demotions_iff` — `breakCycles` only removes edges on a cycle exactly when no edge is on
  none while the edges that rank no lower have one.
* `removed_onCycle_iff` — the same for both loops.
* `outsideCycle_removed` — an edge outside every cycle is removed.
-/

namespace FloWeaver.Dag

open Py DepGraph Relation

variable {lib : Library} {nodes : Nodes} {edges : List DependencyEdge}

/-! ## The rounds of a loop -/

/-- One round: the edges there were, and the one that was removed. -/
structure Demotion where
  before : List DependencyEdge
  removed : DependencyEdge

/-- The rounds of the loop that removes victims. -/
def demotions (victim : List DependencyEdge → Option (DependencyEdge × ℕ)) :
    ℕ → List DependencyEdge → List Demotion
  | 0, _ => []
  | rounds + 1, edges =>
      match victim edges with
      | none => []
      | some (removed, idx) => ⟨edges, removed⟩ :: demotions victim rounds (edges.eraseIdx idx)

theorem demote_sublist (victim : List DependencyEdge → Option (DependencyEdge × ℕ))
    (message key : String) (rounds : ℕ) (edges : List DependencyEdge)
    (diagnostics : DAGBuildDiagnostics) :
    (demote victim message key rounds edges diagnostics).1.Sublist edges := by
  induction rounds generalizing edges diagnostics with
  | zero => exact List.Sublist.refl _
  | succ rounds ih =>
    rw [demote]
    cases victim edges with
    | none => exact List.Sublist.refl _
    | some row => exact (ih _ _).trans (List.eraseIdx_sublist _ _)

/-- An edge is left or was removed in a round. -/
theorem mem_demote_or_removed {victim : List DependencyEdge → Option (DependencyEdge × ℕ)}
    (hvictim : PicksPlace victim) (message key : String) (rounds : ℕ)
    {edges : List DependencyEdge} (diagnostics : DAGBuildDiagnostics) {edge : DependencyEdge}
    (h : edge ∈ edges) :
    edge ∈ (demote victim message key rounds edges diagnostics).1 ∨
      ∃ round ∈ demotions victim rounds edges, round.removed = edge := by
  induction rounds generalizing edges diagnostics with
  | zero => exact .inl h
  | succ rounds ih =>
    rw [demote, demotions]
    cases hv : victim edges with
    | none => exact .inl h
    | some row =>
      obtain ⟨removed, idx⟩ := row
      rcases mem_eraseIdx_or (hvictim edges removed idx hv) h with hleft | rfl
      · refine (ih (noteDemotion message key removed diagnostics) hleft).imp id ?_
        rintro ⟨round, hround, hremoved⟩
        exact ⟨round, List.mem_cons_of_mem _ hround, hremoved⟩
      · exact .inr ⟨_, List.mem_cons_self, rfl⟩

/-- Every round removes a victim of the edges it found, which are among those given. -/
theorem victim_of_mem_demotions {victim : List DependencyEdge → Option (DependencyEdge × ℕ)}
    {rounds : ℕ} {edges : List DependencyEdge} {round : Demotion}
    (h : round ∈ demotions victim rounds edges) :
    round.before.Sublist edges ∧ ∃ idx, victim round.before = some (round.removed, idx) := by
  induction rounds generalizing edges with
  | zero => cases h
  | succ rounds ih =>
    rw [demotions] at h
    cases hv : victim edges with
    | none =>
      rw [hv] at h
      cases h
    | some row =>
      obtain ⟨removed, idx⟩ := row
      rw [hv] at h
      rcases List.mem_cons.1 h with rfl | hrest
      · exact ⟨List.Sublist.refl _, idx, hv⟩
      · exact ⟨(ih hrest).1.trans (List.eraseIdx_sublist _ _), (ih hrest).2⟩

/-! ## Edges on a cycle -/

/-- A way leads back from the target of an edge to its source. -/
def OnCycle (edges : List DependencyEdge) (edge : DependencyEdge) : Prop :=
  ReflTransGen (MssuEdge edges) edge.dstMssu edge.srcMssu

/-- An edge orders two actions that reach each other in the action graph. -/
def WithinComponent (nodes : Nodes) (edges : List DependencyEdge) (edge : DependencyEdge) : Prop :=
  ∃ p ∈ edgeActions nodes edge,
    ReflTransGen (DepGraph.Joined (actionEdges nodes edges)) p.1 p.2 ∧
      ReflTransGen (DepGraph.Joined (actionEdges nodes edges)) p.2 p.1

/-- Equal ranks are ranks of edges between the same MSSUs. -/
theorem edgeEnds_eq_of_rank {a b : DependencyEdge}
    (h : edgeRemovalRank nodes a = edgeRemovalRank nodes b) : edgeEnds a = edgeEnds b :=
  congrArg (fun rank => ofLex (ofLex rank).2) h

theorem withinComponent_of_edgeEnds {edges : List DependencyEdge} {a b : DependencyEdge}
    (h : edgeEnds a = edgeEnds b) (ha : WithinComponent nodes edges a) :
    WithinComponent nodes edges b := by
  obtain ⟨hsrc, hdst⟩ := Prod.ext_iff.1 h
  rw [WithinComponent, edgeActions, ← show a.srcMssu = b.srcMssu from hsrc,
    ← show a.dstMssu = b.dstMssu from hdst]
  exact ha

/-! ## The loop over the cycles of MSSUs -/

/-- The edges that rank no lower than an edge. -/
def ranksFrom (nodes : Nodes) (edges : List DependencyEdge) (edge : DependencyEdge) :
    List DependencyEdge :=
  edges.filter fun other => edgeRemovalRank nodes edge ≤ edgeRemovalRank nodes other

/-- A victim has the least rank. -/
theorem rank_le_of_cycleVictim {edges : List DependencyEdge} {removed : DependencyEdge} {idx : ℕ}
    (h : cycleVictim nodes edges = some (removed, idx)) {edge : DependencyEdge}
    (hedge : edge ∈ edges) : edgeRemovalRank nodes removed ≤ edgeRemovalRank nodes edge := by
  rw [cycleVictim] at h
  split_ifs at h
  obtain ⟨i, hi⟩ := List.mem_iff_getElem?.1 hedge
  have hrow : (edge, i) ∈ edges.zipIdx := List.mem_zipIdx_iff_getElem?.2 hi
  have hle := firstMinBy_le h hrow
  exact hle

/-- The edges a round has lost rank no higher than those it found. -/
theorem lost_rank_le {rounds : ℕ} {edges : List DependencyEdge} {round : Demotion}
    (h : round ∈ demotions (cycleVictim nodes) rounds edges) {edge other : DependencyEdge}
    (hedge : edge ∈ edges) (hother : other ∈ round.before) :
    edge ∈ round.before ∨ edgeRemovalRank nodes edge ≤ edgeRemovalRank nodes other := by
  induction rounds generalizing edges with
  | zero => cases h
  | succ rounds ih =>
    rw [demotions] at h
    cases hv : cycleVictim nodes edges with
    | none =>
      rw [hv] at h
      cases h
    | some row =>
      obtain ⟨removed, idx⟩ := row
      rw [hv] at h
      rcases List.mem_cons.1 h with rfl | hrest
      · exact .inl hedge
      · rcases mem_eraseIdx_or (picksPlace_cycleVictim edges removed idx hv) hedge with hleft | rfl
        · exact ih hrest hleft
        · have hsub := (victim_of_mem_demotions hrest).1.trans (List.eraseIdx_sublist _ _)
          exact .inr (rank_le_of_cycleVictim hv (hsub.subset hother))

/-- Before an edge is removed, the graph is that of the edges that rank no lower. -/
theorem mssuEdge_before {rounds : ℕ} {edges : List DependencyEdge} {round : Demotion}
    (h : round ∈ demotions (cycleVictim nodes) rounds edges) :
    MssuEdge round.before = MssuEdge (ranksFrom nodes edges round.removed) := by
  obtain ⟨hsub, idx, hv⟩ := victim_of_mem_demotions h
  have hremoved : round.removed ∈ round.before :=
    List.mem_of_getElem? (picksPlace_cycleVictim _ _ _ hv)
  funext src dst
  refine propext ⟨?_, ?_⟩
  · rintro ⟨edge, hedge, hends⟩
    exact ⟨edge, List.mem_filter.2 ⟨hsub.subset hedge,
      decide_eq_true (rank_le_of_cycleVictim hv hedge)⟩, hends⟩
  · rintro ⟨edge, hedge, hsrc, hdst⟩
    obtain ⟨hmem, hrank⟩ := List.mem_filter.1 hedge
    rcases lost_rank_le h hmem hremoved with hleft | hle
    · exact ⟨edge, hleft, hsrc, hdst⟩
    · -- a copy of the removed edge
      have hends := edgeEnds_eq_of_rank (le_antisymm (of_decide_eq_true hrank) hle)
      exact ⟨round.removed, hremoved, (Prod.ext_iff.1 hends).1.trans hsrc,
        (Prod.ext_iff.1 hends).2.trans hdst⟩

/-- What the loop leaves ranks no lower than what it removed. -/
theorem rank_removed_le_left {edges : List DependencyEdge} {diagnostics : DAGBuildDiagnostics}
    {rounds : ℕ} {message key : String} {edge left : DependencyEdge} (hedge : edge ∈ edges)
    (hleft : left ∈ (demote (cycleVictim nodes) message key rounds edges diagnostics).1) :
    edge ∈ (demote (cycleVictim nodes) message key rounds edges diagnostics).1 ∨
      edgeRemovalRank nodes edge ≤ edgeRemovalRank nodes left := by
  induction rounds generalizing edges diagnostics with
  | zero => exact .inl hedge
  | succ rounds ih =>
    rw [demote] at hleft ⊢
    cases hv : cycleVictim nodes edges with
    | none => exact .inl hedge
    | some row =>
      obtain ⟨removed, idx⟩ := row
      rw [hv] at hleft
      rcases mem_eraseIdx_or (picksPlace_cycleVictim edges removed idx hv) hedge with hstay | rfl
      · exact ih hstay hleft
      · have hsub := (demote_sublist (cycleVictim nodes) message key rounds (edges.eraseIdx idx)
          (noteDemotion message key edge diagnostics)).trans (List.eraseIdx_sublist _ _)
        exact .inr (rank_le_of_cycleVictim hv (hsub.subset hleft))

/-- When an edge is removed, there is a cycle. -/
theorem cyclic_before (hends : EndsKnown nodes edges) {rounds : ℕ} {round : Demotion}
    (h : round ∈ demotions (cycleVictim nodes) rounds edges) :
    ¬ Acyclic (MssuEdge round.before) := by
  obtain ⟨hsub, idx, hv⟩ := victim_of_mem_demotions h
  rw [← cycleVictim_eq_none_iff fun edge hedge => hends edge (hsub.subset hedge), hv]
  simp

/-- An edge that is left when the edges from its rank on have a cycle was removed. -/
theorem removed_of_cyclic (hends : EndsKnown nodes edges) {edge : DependencyEdge}
    (hedge : edge ∈ edges) (hcyclic : ¬ Acyclic (MssuEdge (ranksFrom nodes edges edge))) :
    ∃ round ∈ demotions (cycleVictim nodes) edges.length edges, round.removed = edge := by
  refine (mem_demote_or_removed picksPlace_cycleVictim "" "" edges.length {} hedge).resolve_left
    fun hleft => hcyclic ?_
  -- otherwise all edges from its rank on are left, up to copies of it
  have hnone : cycleVictim nodes
      (demote (cycleVictim nodes) "" "" edges.length edges {}).1 = none :=
    victim_demote picksPlace_cycleVictim "" "" {} le_rfl
  have hsub := demote_sublist (cycleVictim nodes) "" "" edges.length edges {}
  have hacyclic := (cycleVictim_eq_none_iff fun e he => hends e (hsub.subset he)).1 hnone
  refine hacyclic.mono ?_
  rintro src dst ⟨other, hother, hsrc, hdst⟩
  obtain ⟨hmem, hrank⟩ := List.mem_filter.1 hother
  rcases rank_removed_le_left hmem hleft with hstays | hle
  · exact ⟨other, hstays, hsrc, hdst⟩
  · have hsame := edgeEnds_eq_of_rank (le_antisymm (of_decide_eq_true hrank) hle)
    exact ⟨edge, hleft, (Prod.ext_iff.1 hsame).1.trans hsrc, (Prod.ext_iff.1 hsame).2.trans hdst⟩

/-- Every edge removed lies on a cycle exactly when every edge does, as long as it and the edges
that rank no lower have one. -/
theorem onCycle_demotions_iff (hends : EndsKnown nodes edges) :
    (∀ round ∈ demotions (cycleVictim nodes) edges.length edges,
        OnCycle round.before round.removed) ↔
      ∀ edge ∈ edges, ¬ Acyclic (MssuEdge (ranksFrom nodes edges edge)) →
        OnCycle (ranksFrom nodes edges edge) edge := by
  constructor
  · intro h edge hedge hcyclic
    obtain ⟨round, hround, rfl⟩ := removed_of_cyclic hends hedge hcyclic
    have hon := h round hround
    rwa [OnCycle, mssuEdge_before hround] at hon
  · intro h round hround
    obtain ⟨hsub, idx, hv⟩ := victim_of_mem_demotions hround
    have hremoved : round.removed ∈ round.before :=
      List.mem_of_getElem? (picksPlace_cycleVictim _ _ _ hv)
    have hcyclic := cyclic_before hends hround
    rw [mssuEdge_before hround] at hcyclic
    rw [OnCycle, mssuEdge_before hround]
    exact h _ (hsub.subset hremoved) hcyclic

/-! ## The loop over the cycles of actions -/

/-- The edges the loop may remove. -/
def removable (lib : Library) (nodes : Nodes) (edges : List DependencyEdge) :
    List DependencyEdge :=
  edges.filter (isRemovable nodes (actionGraphSccs lib nodes edges).flatten)

/-- Some edge within a component ranks no higher than any that may be removed. -/
def ComponentFirst (lib : Library) (nodes : Nodes) (edges : List DependencyEdge) : Prop :=
  ∃ edge ∈ removable lib nodes edges, WithinComponent nodes edges edge ∧
    ∀ other ∈ removable lib nodes edges, edgeRemovalRank nodes edge ≤ edgeRemovalRank nodes other

theorem mem_removable_of_victim {edges : List DependencyEdge} {removed : DependencyEdge} {idx : ℕ}
    (h : actionCycleVictim lib nodes edges = some (removed, idx)) :
    removed ∈ removable lib nodes edges := by
  obtain ⟨hmem, hkeep⟩ := List.mem_filter.1 (mem_of_firstMinBy h)
  exact List.mem_filter.2 ⟨List.mem_of_getElem? (List.mem_zipIdx_iff_getElem?.1 hmem), hkeep⟩

theorem rank_le_of_actionCycleVictim {edges : List DependencyEdge} {removed : DependencyEdge}
    {idx : ℕ} (h : actionCycleVictim lib nodes edges = some (removed, idx))
    {edge : DependencyEdge} (hedge : edge ∈ removable lib nodes edges) :
    edgeRemovalRank nodes removed ≤ edgeRemovalRank nodes edge := by
  obtain ⟨hmem, hkeep⟩ := List.mem_filter.1 hedge
  obtain ⟨i, hi⟩ := List.mem_iff_getElem?.1 hmem
  have hrow : (edge, i) ∈ edges.zipIdx := List.mem_zipIdx_iff_getElem?.2 hi
  have hle := firstMinBy_le h (List.mem_filter.2 ⟨hrow, hkeep⟩)
  exact hle

/-- A victim is within a component exactly when such an edge comes first. -/
theorem withinComponent_victim_iff {edges : List DependencyEdge} {removed : DependencyEdge}
    {idx : ℕ} (h : actionCycleVictim lib nodes edges = some (removed, idx)) :
    WithinComponent nodes edges removed ↔ ComponentFirst lib nodes edges := by
  constructor
  · intro hwithin
    exact ⟨removed, mem_removable_of_victim h, hwithin,
      fun other hother => rank_le_of_actionCycleVictim h hother⟩
  · rintro ⟨edge, hedge, hwithin, hfirst⟩
    have hrank := le_antisymm (hfirst removed (mem_removable_of_victim h))
      (rank_le_of_actionCycleVictim h hedge)
    exact withinComponent_of_edgeEnds (edgeEnds_eq_of_rank hrank) hwithin

theorem withinComponent_demotions_iff {rounds : ℕ} {edges : List DependencyEdge} :
    (∀ round ∈ demotions (actionCycleVictim lib nodes) rounds edges,
        WithinComponent nodes round.before round.removed) ↔
      ∀ round ∈ demotions (actionCycleVictim lib nodes) rounds edges,
        ComponentFirst lib nodes round.before := by
  refine forall₂_congr fun round hround => ?_
  obtain ⟨-, idx, hv⟩ := victim_of_mem_demotions hround
  exact withinComponent_victim_iff hv

/-! ## Both loops -/

/-- The edges that the two loops remove lie on a cycle, or within a component, exactly when (1) an
edge is on a cycle whenever the edges that rank no lower have one, and (2) in every round of the
second loop an edge within a component ranks no higher than any other that may be removed. -/
theorem removed_onCycle_iff (lib : Library) (nodes : Nodes) (edges : List DependencyEdge)
    (hends : EndsKnown nodes edges) :
    ((∀ round ∈ demotions (cycleVictim nodes) edges.length edges,
          OnCycle round.before round.removed) ∧
        ∀ round ∈ demotions (actionCycleVictim lib nodes) edges.length edges,
          WithinComponent nodes round.before round.removed) ↔
      (∀ edge ∈ edges, ¬ Acyclic (MssuEdge (ranksFrom nodes edges edge)) →
          OnCycle (ranksFrom nodes edges edge) edge) ∧
        ∀ round ∈ demotions (actionCycleVictim lib nodes) edges.length edges,
          ComponentFirst lib nodes round.before :=
  and_congr (onCycle_demotions_iff hends) withinComponent_demotions_iff

/-! ## An edge outside every cycle -/

/-- A library that reads no host and keeps every set as it is listed. -/
def listedLibrary : Library where
  netloc _ := .ok ""
  setOrder := id
  setOrder_perm l := List.Perm.refl l

/-- Three MSSUs without actions. -/
def threeNodes : Nodes :=
  ⟨["a", "b", "c"].map fun id => (id, { mssuId := id, mssuType := "OP" }), by decide⟩

/-- A control edge into a cycle of two data edges. -/
def tailEdges : List DependencyEdge :=
  [⟨"a", "b", EdgeKind.hardControl, []⟩, ⟨"b", "c", EdgeKind.hardData, []⟩,
    ⟨"c", "b", EdgeKind.hardData, []⟩]

theorem endsKnown_tailEdges : EndsKnown threeNodes tailEdges := by
  unfold EndsKnown
  decide

theorem removed_onCycle_iff_tailEdges :
    ((∀ round ∈ demotions (cycleVictim threeNodes) tailEdges.length tailEdges,
          OnCycle round.before round.removed) ∧
        ∀ round ∈ demotions (actionCycleVictim listedLibrary threeNodes) tailEdges.length tailEdges,
          WithinComponent threeNodes round.before round.removed) ↔
      (∀ edge ∈ tailEdges, ¬ Acyclic (MssuEdge (ranksFrom threeNodes tailEdges edge)) →
          OnCycle (ranksFrom threeNodes tailEdges edge) edge) ∧
        ∀ round ∈ demotions (actionCycleVictim listedLibrary threeNodes) tailEdges.length tailEdges,
          ComponentFirst listedLibrary threeNodes round.before :=
  removed_onCycle_iff listedLibrary threeNodes tailEdges endsKnown_tailEdges

/-- The control edge goes first, and lies on no cycle. -/
theorem outsideCycle_removed :
    ¬ ∀ (nodes : Nodes) (edges : List DependencyEdge), EndsKnown nodes edges →
      ∀ round ∈ demotions (cycleVictim nodes) edges.length edges,
        OnCycle round.before round.removed := by
  intro h
  have hvictim : cycleVictim threeNodes tailEdges =
      some (⟨"a", "b", EdgeKind.hardControl, []⟩, 0) := rfl
  have hround : (⟨tailEdges, ⟨"a", "b", EdgeKind.hardControl, []⟩⟩ : Demotion) ∈
      demotions (cycleVictim threeNodes) tailEdges.length tailEdges := by
    rw [show tailEdges.length = 2 + 1 from rfl, demotions, hvictim]
    exact List.mem_cons_self
  have hback : ReflTransGen (MssuEdge tailEdges) "b" "a" :=
    h threeNodes tailEdges endsKnown_tailEdges _ hround
  -- no edge ends at `a`
  rcases hback.cases_tail with heq | ⟨src, -, edge, hedge, -, hdst⟩
  · exact absurd heq (by decide)
  · have hends : ∀ edge ∈ tailEdges, edge.dstMssu ≠ "a" := by decide
    exact hends edge hedge hdst

end FloWeaver.Dag
