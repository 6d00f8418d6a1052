import FloWeaver.Dag.Build

/-!
# What breaking cycles keeps

* `Demotes` — what one run of the loop does: the edges that are left are among the given ones, and
  every other one is noted.
* `demotes_breakCycles`, `demotes_breakActionLevelCycles` — both loops.
* `acyclic_iff`, `acyclic_breakCycles` — no cycle of MSSUs is left.
-/

namespace FloWeaver.Dag

open Py DepGraph

variable {lib : Library} {nodes : Nodes}

/-! ## Diagnostics -/

/-- The two records of removed edges agree. -/
def DAGBuildDiagnostics.Tidy (diagnostics : DAGBuildDiagnostics) : Prop :=
  diagnostics.removedEdgeKeys = diagnostics.removedHardEdges

theorem DAGBuildDiagnostics.Tidy.note {diagnostics : DAGBuildDiagnostics} (h : diagnostics.Tidy)
    (message key : String) (removed : DependencyEdge) :
    (noteDemotion message key removed diagnostics).Tidy := by
  unfold DAGBuildDiagnostics.Tidy at h ⊢
  rw [noteDemotion, DAGBuildDiagnostics.recordRemovedEdge]
  split_ifs
  · simpa using h
  · simp [h]

theorem mem_noteDemotion {diagnostics : DAGBuildDiagnostics} (h : diagnostics.Tidy)
    {message key : String} {removed : DependencyEdge} {p : String × String} :
    p ∈ (noteDemotion message key removed diagnostics).removedHardEdges ↔
      p ∈ diagnostics.removedHardEdges ∨ p = edgeEnds removed := by
  rw [noteDemotion, DAGBuildDiagnostics.recordRemovedEdge]
  split_ifs with hkey
  · rw [DAGBuildDiagnostics.removedHardEdges_warn]
    constructor
    · exact .inl
    · rintro (hp | rfl)
      · exact hp
      · rw [DAGBuildDiagnostics.removedEdgeKeys_warn, h] at hkey
        simpa [edgeEnds] using hkey
  · show p ∈ (diagnostics.warn _ _).removedHardEdges ++ [(removed.srcMssu, removed.dstMssu)] ↔ _
    rw [DAGBuildDiagnostics.removedHardEdges_warn, List.mem_append, List.mem_singleton, edgeEnds]

/-! ## The loop -/

/-- A victim is the edge at its place. -/
def PicksPlace (victim : List DependencyEdge → Option (DependencyEdge × ℕ)) : Prop :=
  ∀ edges edge idx, victim edges = some (edge, idx) → edges[idx]? = some edge

/-- What a run of the loop does. -/
structure Demotes (edges : List DependencyEdge) (diagnostics : DAGBuildDiagnostics)
    (result : List DependencyEdge × DAGBuildDiagnostics) : Prop where
  sub : result.1.Sublist edges
  tidy : result.2.Tidy
  kept : ∀ p ∈ diagnostics.removedHardEdges, p ∈ result.2.removedHardEdges
  noted : ∀ edge ∈ edges, edge ∈ result.1 ∨ edgeEnds edge ∈ result.2.removedHardEdges

theorem PicksPlace.nil {victim : List DependencyEdge → Option (DependencyEdge × ℕ)}
    (h : PicksPlace victim) : victim [] = none := by
  cases hv : victim [] with
  | none => rfl
  | some row => simpa using h [] row.1 row.2 hv

/-- Removing the edge at a place leaves every other one. -/
theorem mem_eraseIdx_or {edges : List DependencyEdge} {idx : ℕ} {removed edge : DependencyEdge}
    (hidx : edges[idx]? = some removed) (h : edge ∈ edges) :
    edge ∈ edges.eraseIdx idx ∨ edge = removed := by
  obtain ⟨i, hi⟩ := List.mem_iff_getElem?.1 h
  by_cases hii : i = idx
  · subst hii
    exact .inr (Option.some.inj (hi.symm.trans hidx))
  · exact .inl (List.mem_eraseIdx_iff_getElem?.2 ⟨i, hii, hi⟩)

theorem demotes_demote {victim : List DependencyEdge → Option (DependencyEdge × ℕ)}
    (hvictim : PicksPlace victim) (message key : String) (rounds : ℕ)
    {edges : List DependencyEdge} {diagnostics : DAGBuildDiagnostics} (h : diagnostics.Tidy) :
    Demotes edges diagnostics (demote victim message key rounds edges diagnostics) := by
  induction rounds generalizing edges diagnostics with
  | zero => exact ⟨List.Sublist.refl _, h, fun p hp => hp, fun edge he => .inl he⟩
  | succ rounds ih =>
    rw [demote]
    cases hv : victim edges with
    | none => exact ⟨List.Sublist.refl _, h, fun p hp => hp, fun edge he => .inl he⟩
    | some row =>
      obtain ⟨removed, idx⟩ := row
      have hidx := hvictim edges removed idx hv
      have hrest := @ih (edges.eraseIdx idx) _ (h.note message key removed)
      have hrecorded : ∀ p, p ∈ diagnostics.removedHardEdges ∨ p = edgeEnds removed → p ∈ _ :=
        fun p hp => hrest.kept p ((mem_noteDemotion h).2 hp)
      refine ⟨hrest.sub.trans (List.eraseIdx_sublist _ _), hrest.tidy,
        fun p hp => hrecorded p (.inl hp), fun edge he => ?_⟩
      rcases mem_eraseIdx_or hidx he with he | rfl
      · exact hrest.noted edge he
      · exact .inr (hrecorded _ (.inr rfl))

/-- The loop ends when there is no victim. -/
theorem victim_demote {victim : List DependencyEdge → Option (DependencyEdge × ℕ)}
    (hvictim : PicksPlace victim) (message key : String) {rounds : ℕ}
    {edges : List DependencyEdge} (diagnostics : DAGBuildDiagnostics)
    (hrounds : edges.length ≤ rounds) :
    victim (demote victim message key rounds edges diagnostics).1 = none := by
  induction rounds generalizing edges diagnostics with
  | zero =>
    rw [List.eq_nil_of_length_eq_zero (Nat.le_zero.1 hrounds)]
    exact hvictim.nil
  | succ rounds ih =>
    rw [demote]
    cases hv : victim edges with
    | none => exact hv
    | some row =>
      obtain ⟨removed, idx⟩ := row
      obtain ⟨hlt, -⟩ := List.getElem?_eq_some_iff.1 (hvictim edges removed idx hv)
      refine ih _ ?_
      rw [List.length_eraseIdx_of_lt hlt]
      omega

/-! ## The two loops -/

theorem getElem?_of_firstMinBy {κ : Type} [LinearOrder κ] {rank : DependencyEdge × ℕ → κ}
    {edges : List DependencyEdge} {keep : DependencyEdge × ℕ → Bool} {edge : DependencyEdge}
    {idx : ℕ} (h : firstMinBy rank (edges.zipIdx.filter keep) = some (edge, idx)) :
    edges[idx]? = some edge :=
  List.mem_zipIdx_iff_getElem?.1 (List.mem_of_mem_filter (mem_of_firstMinBy h))

theorem picksPlace_cycleVictim : PicksPlace (cycleVictim nodes) := by
  intro edges edge idx h
  rw [cycleVictim] at h
  split_ifs at h
  exact List.mem_zipIdx_iff_getElem?.1 (mem_of_firstMinBy h)

theorem picksPlace_actionCycleVictim : PicksPlace (actionCycleVictim lib nodes) :=
  fun _ _ _ h => getElem?_of_firstMinBy h

theorem demotes_breakCycles (nodes : Nodes) (edges : List DependencyEdge)
    {diagnostics : DAGBuildDiagnostics} (h : diagnostics.Tidy) :
    Demotes edges diagnostics (breakCycles nodes edges diagnostics) :=
  demotes_demote picksPlace_cycleVictim _ _ _ h

theorem demotes_breakActionLevelCycles (lib : Library) (nodes : Nodes)
    (edges : List DependencyEdge) {diagnostics : DAGBuildDiagnostics} (h : diagnostics.Tidy) :
    Demotes edges diagnostics (breakActionLevelCycles lib nodes edges diagnostics) :=
  demotes_demote picksPlace_actionCycleVictim _ _ _ h

/-! ## Cycles of MSSUs -/

/-- The ends of the edges are MSSUs of the graph. -/
def EndsKnown (nodes : Nodes) (edges : List DependencyEdge) : Prop :=
  ∀ edge ∈ edges, edge.srcMssu ∈ nodes.keys ∧ edge.dstMssu ∈ nodes.keys

/-- One MSSU comes before another. -/
def MssuEdge (edges : List DependencyEdge) (src dst : String) : Prop :=
  ∃ edge ∈ edges, edge.srcMssu = src ∧ edge.dstMssu = dst

theorem joined_ends {edges : List DependencyEdge} :
    DepGraph.Joined (edges.map edgeEnds) = MssuEdge edges := by
  funext u v
  simp [DepGraph.Joined, MssuEdge, edgeEnds]

theorem acyclic_iff {edges : List DependencyEdge} (h : EndsKnown nodes edges) :
    acyclic nodes edges = true ↔ Acyclic (MssuEdge edges) := by
  have hends : ∀ p ∈ edges.map edgeEnds, p.1 ∈ nodes.keys ∧ p.2 ∈ nodes.keys := by
    intro p hp
    obtain ⟨edge, he, rfl⟩ := List.mem_map.1 hp
    exact h edge he
  rw [acyclic, decide_eq_true_iff, kahnOrder_length_iff nodes.keys_nodup hends, joined_ends]

/-- No edge goes exactly when there is no cycle. -/
theorem cycleVictim_eq_none_iff {edges : List DependencyEdge} (h : EndsKnown nodes edges) :
    cycleVictim nodes edges = none ↔ Acyclic (MssuEdge edges) := by
  rw [cycleVictim, ← acyclic_iff h]
  cases edges with
  | nil =>
    have hnil : acyclic nodes [] = true :=
      (acyclic_iff h).2 fun v hv => by
        obtain ⟨w, ⟨edge, he, -⟩, -⟩ := Relation.TransGen.head'_iff.1 hv
        cases he
    simp [hnil]
  | cons edge rest =>
    by_cases hacyclic : acyclic nodes (edge :: rest) = true
    · simp [hacyclic]
    · simp [hacyclic, firstMinBy]

theorem acyclic_breakCycles {edges : List DependencyEdge} (h : EndsKnown nodes edges)
    {diagnostics : DAGBuildDiagnostics} (htidy : diagnostics.Tidy) :
    Acyclic (MssuEdge (breakCycles nodes edges diagnostics).1) := by
  have hsub := (demotes_breakCycles nodes edges htidy).sub
  have hends : EndsKnown nodes (breakCycles nodes edges diagnostics).1 :=
    fun edge he => h edge (hsub.subset he)
  exact (cycleVictim_eq_none_iff hends).1
    (victim_demote picksPlace_cycleVictim _ _ diagnostics le_rfl)

end FloWeaver.Dag
