import FloWeaver.Counterexample.Executor
import FloWeaver.Counterexample.UsegFacts

/-!
# Executions of programs without guards

Without guards every node is executed on every path.  A configuration then has the events of all
nodes before its place in the graph, unless a merge has run a node again that was run in part.

* `Unguarded` — no node of a program has a guard.
* `executionOptions_unguarded` — the only way through a segment is to run all of it.
* `InStep` — a configuration has run what comes before its place, and nothing twice.
* `InStep.step` — a step keeps this, and goes on.
-/

namespace FloWeaver.Counterexample

open Py Ir Trace Align

/-! ## No guards -/

/-- The four groups of guards of a node are empty. -/
structure UnguardedNode (node : IRNode) : Prop where
  requestParams : guardsUnder node "request_param_guards" = .ok []
  deviceResults : guardsUnder node "device_result_guards" = .ok []
  toggles : guardsUnder node "toggle_guards" = .ok []
  frameworkEvents : requiredEvents (node.metadata.get "framework_event_guards") = []

/-- No node of a program has a guard. -/
def Unguarded (program : IRProgram) : Prop :=
  ∀ nodeId node, program.node nodeId = .ok node → UnguardedNode node

theorem nodeGuardOptions_unguarded {node : IRNode} (h : UnguardedNode node) (env : EnvState) :
    nodeGuardOptions node env = .ok [(true, [])] := by
  rw [nodeGuardOptions, nodeGuardGroups, h.requestParams, h.deviceResults, h.toggles,
    frameworkGuards, h.frameworkEvents]
  rfl

theorem executionOptions_unguarded {program : IRProgram} (h : Unguarded program)
    {nodeIds : List String} {env : EnvState} {options : List ExecutionOption}
    (hoptions : executionOptions program nodeIds env = .ok options) :
    options = [(nodeIds, [])] := by
  have hrun : ∀ (nodeIds done : List String) (out : List ExecutionOption),
      nodeIds.foldlM (executeNode program env) [(done, [])] = .ok out →
        out = [(done ++ nodeIds, [])] := by
    intro nodeIds
    induction nodeIds with
    | nil =>
      intro done out hout
      rw [List.append_nil, pure_eq_ok.1 hout]
    | cons nodeId rest ih =>
      intro done out hout
      rw [List.foldlM_cons, bind_eq_ok] at hout
      obtain ⟨next, hnext, hout⟩ := hout
      obtain ⟨node, hnode, hnext⟩ := bind_eq_ok.1 hnext
      rw [nodeGuardOptions_unguarded (h nodeId node hnode)] at hnext
      obtain rfl : [(done ++ [nodeId], [])] = next := Except.ok.inj hnext
      rw [List.append_cons]
      exact ih _ _ hout
  obtain ⟨out, hout, hoptions⟩ := bind_eq_ok.1 hoptions
  rw [← pure_eq_ok.1 hoptions, hrun nodeIds [] out hout]
  rfl

theorem branchClauses_ne_nil (env : EnvState) (usegNodeId : String) :
    branchClauses env usegNodeId ≠ [] := by
  rw [branchClauses]
  split_ifs with h
  · exact List.cons_ne_nil _ _
  · simpa [List.isEmpty_iff] using h

/-! ## The events of nodes -/

/-- The events of the nodes of some ids that are observed. -/
def observedEvents (program : IRProgram) (nodeIds : List String) : List Event :=
  ((nodeIds.filterMap program.nodes.get?).filter observed).map eventFromNode

/-- The whole trace of a program. -/
def completeTrace (program : IRProgram) : List Event := observedEvents program program.order

theorem observedEvents_append (program : IRProgram) (a b : List String) :
    observedEvents program (a ++ b) = observedEvents program a ++ observedEvents program b := by
  simp [observedEvents]

/-- What an execution does to the trace; the place inside a node is left alone. -/
theorem applyNodes_spec {program : IRProgram} {nodeIds : List String} {side out : Side}
    (h : applyNodes program nodeIds side = .ok out) :
    out.trace = side.trace ++ observedEvents program nodeIds ∧
      out.splitOffset = side.splitOffset := by
  have hrun : ∀ (nodeIds : List String) (side out : Side),
      nodeIds.foldlM (fun side nodeId => do applyNode side (← program.node nodeId)) side =
        .ok out → out.trace = side.trace ++ observedEvents program nodeIds ∧
          out.splitOffset = side.splitOffset := by
    intro nodeIds
    induction nodeIds with
    | nil =>
      intro side out h
      rw [pure_eq_ok.1 h]
      exact ⟨(List.append_nil _).symm, rfl⟩
    | cons nodeId rest ih =>
      intro side out h
      rw [List.foldlM_cons, bind_eq_ok] at h
      obtain ⟨mid, hmid, h⟩ := h
      obtain ⟨node, hnode, hmid⟩ := bind_eq_ok.1 hmid
      obtain ⟨state, -, hmid⟩ := bind_eq_ok.1 hmid
      obtain ⟨htrace, hoffset⟩ := ih mid out h
      have hget := IRProgram.node_eq_ok.1 hnode
      have hone : mid.trace = side.trace ++ observedEvents program [nodeId] ∧
          mid.splitOffset = side.splitOffset := by
        rw [← pure_eq_ok.1 hmid]
        by_cases hobserved : observed node = true <;> simp [observedEvents, hget, hobserved]
      rw [htrace, hoffset, hone.1, hone.2, List.append_assoc, ← observedEvents_append]
      exact ⟨rfl, rfl⟩
  obtain ⟨mid, hmid, h⟩ := bind_eq_ok.1 h
  rw [← pure_eq_ok.1 h]
  exact hrun nodeIds side mid hmid

/-! ## Places in the graph -/

/-- The nodes of one program up to a place: those of all graph nodes before it, and the first ones
of the graph node itself. -/
def upTo (nodeIdsOf : USEGNode → List String) (useg : USEG) (index offset : ℕ) : List String :=
  (useg.nodes.take index).flatMap nodeIdsOf ++
    ((useg.nodes[index]?).elim [] nodeIdsOf).take offset

section UpTo

variable {nodeIdsOf : USEGNode → List String} {useg : USEG} {index offset : ℕ}
variable {usegNode : USEGNode}

theorem upTo_of_some (h : useg.nodes[index]? = some usegNode) :
    upTo nodeIdsOf useg index offset =
      (useg.nodes.take index).flatMap nodeIdsOf ++ (nodeIdsOf usegNode).take offset := by
  rw [upTo, h]
  rfl

theorem upTo_start (index : ℕ) :
    upTo nodeIdsOf useg index 0 = (useg.nodes.take index).flatMap nodeIdsOf := by
  rw [upTo, List.take_zero, List.append_nil]

/-- The whole of a graph node. -/
theorem upTo_succ (h : useg.nodes[index]? = some usegNode) :
    upTo nodeIdsOf useg (index + 1) 0 =
      upTo nodeIdsOf useg index 0 ++ nodeIdsOf usegNode := by
  rw [upTo_start, upTo_start, List.take_add_one, h, List.flatMap_append]
  simp

/-- A place behind the last node of its graph node is the start of the next one. -/
theorem upTo_of_length_le (h : useg.nodes[index]? = some usegNode)
    (hoffset : (nodeIdsOf usegNode).length ≤ offset) :
    upTo nodeIdsOf useg index offset = upTo nodeIdsOf useg (index + 1) 0 := by
  rw [upTo_of_some h, List.take_of_length_le hoffset, upTo_succ h, upTo_start]

/-- One more node. -/
theorem upTo_offset_succ (h : useg.nodes[index]? = some usegNode) {nodeId : String}
    (hid : (nodeIdsOf usegNode)[offset]? = some nodeId) :
    upTo nodeIdsOf useg index (offset + 1) = upTo nodeIdsOf useg index offset ++ [nodeId] := by
  rw [upTo_of_some h, upTo_of_some h, List.take_add_one, hid, ← List.append_assoc]
  rfl

theorem upTo_end (h : useg.nodes.length ≤ index) :
    upTo nodeIdsOf useg index offset = useg.nodes.flatMap nodeIdsOf := by
  rw [upTo, List.getElem?_eq_none h, List.take_of_length_le h]
  simp

end UpTo

/-! ## Configurations that are in step with their place -/

/-- Every graph node has a node of one of the programs, and one of the three kinds. -/
def WellBuilt (useg : USEG) : Prop :=
  ∀ usegNode ∈ useg.nodes,
    (usegNode.baselineNodeIds ≠ [] ∨ usegNode.optimizedNodeIds ≠ []) ∧
      usegNode.kind ∈ ["UNIFIED", "MERGE", "SPLIT"]

/-- The baseline nodes up to the place of a configuration. -/
def SymConfig.doneBaseline (useg : USEG) (cfg : SymConfig) : List String :=
  upTo (·.baselineNodeIds) useg cfg.usegIndex cfg.baseline.splitOffset

/-- The optimized nodes up to the place of a configuration. -/
def SymConfig.doneOptimized (useg : USEG) (cfg : SymConfig) : List String :=
  upTo (·.optimizedNodeIds) useg cfg.usegIndex cfg.optimized.splitOffset

/-- How many nodes come before the place of a configuration. -/
def SymConfig.progress (useg : USEG) (cfg : SymConfig) : ℕ :=
  (cfg.doneBaseline useg).length + (cfg.doneOptimized useg).length

/-- A place inside a graph node: something of it is left, and a unified one has not been begun. -/
structure Inside (cfg : SymConfig) (usegNode : USEGNode) : Prop where
  unfinished : cfg.baseline.splitOffset < usegNode.baselineNodeIds.length ∨
    cfg.optimized.splitOffset < usegNode.optimizedNodeIds.length
  whole : usegNode.kind = "UNIFIED" →
    cfg.baseline.splitOffset = 0 ∧ cfg.optimized.splitOffset = 0

/-- A configuration has run what comes before its place, and nothing twice. -/
structure InStep (useg : USEG) (baselineIr optimizedIr : IRProgram) (cfg : SymConfig) : Prop where
  baseline : cfg.baseline.trace = observedEvents baselineIr (cfg.doneBaseline useg)
  optimized : cfg.optimized.trace = observedEvents optimizedIr (cfg.doneOptimized useg)
  bounded : cfg.executedSteps ≤ cfg.progress useg
  terminal : cfg.divergenceStatus.atTerminal = decide (useg.nodes.length ≤ cfg.usegIndex)
  inside : ∀ usegNode, useg.nodes[cfg.usegIndex]? = some usegNode → Inside cfg usegNode

/-- A configuration inside a merge that both sides may run as one, though a part of it has been run
already. -/
def Rejoins (useg : USEG) (cfg : SymConfig) : Prop :=
  ∃ usegNode, useg.nodes[cfg.usegIndex]? = some usegNode ∧ usegNode.kind = "MERGE" ∧
    mergeCompatible cfg = true ∧ (cfg.baseline.splitOffset ≠ 0 ∨ cfg.optimized.splitOffset ≠ 0)

section Steps

variable {useg : USEG} {baselineIr optimizedIr : IRProgram} {cfg next : SymConfig}
variable {usegNode : USEGNode} {successors : List SymConfig}

/-- The start of a graph node. -/
theorem inside_start (huseg : WellBuilt useg) (hb : cfg.baseline.splitOffset = 0)
    (ho : cfg.optimized.splitOffset = 0) (hnode : useg.nodes[cfg.usegIndex]? = some usegNode) :
    Inside cfg usegNode := by
  refine ⟨?_, fun _ => ⟨hb, ho⟩⟩
  rw [hb, ho, List.length_pos_iff, List.length_pos_iff]
  exact (huseg usegNode (List.mem_of_getElem? hnode)).1

theorem inStep_init (huseg : WellBuilt useg) (env : EnvState) :
    InStep useg baselineIr optimizedIr (initSymbolicConfig useg env) where
  baseline := rfl
  optimized := rfl
  bounded := Nat.zero_le _
  terminal := by
    cases hnodes : useg.nodes <;> simp [initSymbolicConfig, hnodes]
  inside _ hnode := inside_start huseg rfl rfl hnode

/-! ### The sides -/

theorem advance_spec {program : IRProgram} {nodeIds active : List String} {side out : Side}
    (h : side.advance program nodeIds active = .ok out) :
    out.trace = side.trace ++ observedEvents program active ∧ out.splitOffset = 0 :=
  applyNodes_spec h

theorem advanceSplit_spec {program : IRProgram} {nodeId : String} {side out : Side}
    (h : side.advanceSplit program nodeId true = .ok out) :
    out.trace = side.trace ++ observedEvents program [nodeId] ∧
      out.splitOffset = side.splitOffset + 1 := by
  obtain ⟨mid, hmid, h⟩ := bind_eq_ok.1 h
  obtain ⟨htrace, hoffset⟩ := applyNodes_spec hmid
  rw [← pure_eq_ok.1 h, htrace, hoffset]
  exact ⟨rfl, rfl⟩

/-! ### Both sides run the node -/

/-- The one successor in which both sides run the whole node. -/
theorem unifiedSuccessors_whole {baseClauses : List String}
    (h : unifiedSuccessors useg baselineIr optimizedIr cfg usegNode baseClauses
      [(usegNode.baselineNodeIds, [])] [(usegNode.optimizedNodeIds, [])] = .ok successors) :
    ∃ next, successors = [next] ∧ next.usegIndex = cfg.usegIndex + 1 ∧
      (next.baseline.trace = cfg.baseline.trace ++
        observedEvents baselineIr usegNode.baselineNodeIds ∧ next.baseline.splitOffset = 0) ∧
      (next.optimized.trace = cfg.optimized.trace ++
        observedEvents optimizedIr usegNode.optimizedNodeIds ∧ next.optimized.splitOffset = 0) ∧
      next.executedSteps ≤ cfg.executedSteps +
        max (max usegNode.baselineNodeIds.length usegNode.optimizedNodeIds.length) 1 ∧
      next.divergenceStatus.atTerminal = decide (useg.nodes.length ≤ next.usegIndex) := by
  obtain ⟨lists, hlists, h⟩ := bind_eq_ok.1 h
  obtain rfl := pure_eq_ok.1 h
  rw [List.mapM_cons, List.mapM_nil, bind_eq_ok] at hlists
  obtain ⟨list, hlist, hlists⟩ := hlists
  obtain rfl := pure_eq_ok.1 hlists
  rw [List.mapM_cons, List.mapM_nil, bind_eq_ok] at hlist
  obtain ⟨last, hlast, hlist⟩ := hlist
  obtain rfl := pure_eq_ok.1 hlist
  obtain ⟨advanced, hadvanced, hlast⟩ := bind_eq_ok.1 hlast
  obtain ⟨baseline, hbaseline, hadvanced⟩ := bind_eq_ok.1 hadvanced
  obtain ⟨optimized, hoptimized, hadvanced⟩ := bind_eq_ok.1 hadvanced
  obtain rfl := pure_eq_ok.1 hadvanced
  obtain rfl := pure_eq_ok.1 hlast
  refine ⟨_, rfl, ?_⟩
  simp only [decide_true, Bool.and_self, Bool.true_or, if_true, finishStatus]
  refine ⟨trivial, advance_spec hbaseline, advance_spec hoptimized, ?_, trivial⟩
  split_ifs <;> omega

/-- Both sides run a whole node from its start. -/
theorem InStep.whole (h : InStep useg baselineIr optimizedIr cfg) (huseg : WellBuilt useg)
    (hnode : useg.nodes[cfg.usegIndex]? = some usegNode)
    (hb : cfg.baseline.splitOffset = 0) (ho : cfg.optimized.splitOffset = 0)
    {baseClauses : List String}
    (hsuccessors : unifiedSuccessors useg baselineIr optimizedIr cfg usegNode baseClauses
      [(usegNode.baselineNodeIds, [])] [(usegNode.optimizedNodeIds, [])] = .ok successors) :
    successors ≠ [] ∧ ∀ next ∈ successors,
      InStep useg baselineIr optimizedIr next ∧ cfg.progress useg < next.progress useg := by
  obtain ⟨next, rfl, hindex, ⟨htraceB, hoffsetB⟩, ⟨htraceO, hoffsetO⟩, hsteps, hterminal⟩ :=
    unifiedSuccessors_whole hsuccessors
  have hdoneB : next.doneBaseline useg = cfg.doneBaseline useg ++ usegNode.baselineNodeIds := by
    rw [SymConfig.doneBaseline, SymConfig.doneBaseline, hindex, hoffsetB, hb, upTo_succ hnode]
  have hdoneO : next.doneOptimized useg =
      cfg.doneOptimized useg ++ usegNode.optimizedNodeIds := by
    rw [SymConfig.doneOptimized, SymConfig.doneOptimized, hindex, hoffsetO, ho, upTo_succ hnode]
  have hprogress : next.progress useg = cfg.progress useg +
      (usegNode.baselineNodeIds.length + usegNode.optimizedNodeIds.length) := by
    simp only [SymConfig.progress, hdoneB, hdoneO, List.length_append]
    omega
  have hsome : 0 < usegNode.baselineNodeIds.length + usegNode.optimizedNodeIds.length := by
    rcases (huseg usegNode (List.mem_of_getElem? hnode)).1 with hne | hne
    · exact Nat.add_pos_left (List.length_pos_iff.2 hne) _
    · exact Nat.add_pos_right _ (List.length_pos_iff.2 hne)
  refine ⟨List.cons_ne_nil _ _, fun n hn => ?_⟩
  rw [List.mem_singleton.1 hn]
  refine ⟨?_, by omega⟩
  exact {
    baseline := by rw [htraceB, hdoneB, observedEvents_append, h.baseline]
    optimized := by rw [htraceO, hdoneO, observedEvents_append, h.optimized]
    bounded := by
      have := h.bounded
      omega
    terminal := hterminal
    inside := fun _ => inside_start huseg hoffsetB hoffsetO }

/-! ### One side runs its next node -/

/-- A configuration that has just run a node of one side. -/
structure Stepped (useg : USEG) (baselineIr optimizedIr : IRProgram) (usegNode : USEGNode)
    (cfg : SymConfig) : Prop where
  node : useg.nodes[cfg.usegIndex]? = some usegNode
  baseline : cfg.baseline.trace = observedEvents baselineIr (cfg.doneBaseline useg)
  optimized : cfg.optimized.trace = observedEvents optimizedIr (cfg.doneOptimized useg)
  bounded : cfg.executedSteps ≤ cfg.progress useg
  notWhole : usegNode.kind ≠ "UNIFIED"

/-- Leaving a node that both sides have passed does not move the place. -/
theorem Stepped.leave (h : Stepped useg baselineIr optimizedIr usegNode cfg)
    (huseg : WellBuilt useg) (shown : USEGNode) :
    InStep useg baselineIr optimizedIr (finishStatus
        (leaveSplit cfg { usegNode with kind := "SPLIT" }) useg shown) ∧
      (finishStatus (leaveSplit cfg { usegNode with kind := "SPLIT" }) useg shown).progress useg =
        cfg.progress useg := by
  rw [leaveSplit]
  split_ifs with hdone
  · have hB : upTo (·.baselineNodeIds) useg (cfg.usegIndex + 1) 0 = cfg.doneBaseline useg :=
      (upTo_of_length_le h.node hdone.1).symm
    have hO : upTo (·.optimizedNodeIds) useg (cfg.usegIndex + 1) 0 = cfg.doneOptimized useg :=
      (upTo_of_length_le h.node hdone.2).symm
    have hprogress : (upTo (·.baselineNodeIds) useg (cfg.usegIndex + 1) 0).length +
        (upTo (·.optimizedNodeIds) useg (cfg.usegIndex + 1) 0).length = cfg.progress useg := by
      rw [hB, hO, SymConfig.progress]
    refine ⟨?_, hprogress⟩
    exact {
      baseline := h.baseline.trans (congrArg _ hB.symm)
      optimized := h.optimized.trans (congrArg _ hO.symm)
      bounded := h.bounded.trans hprogress.ge
      terminal := rfl
      inside := fun _ => inside_start huseg rfl rfl }
  · refine ⟨?_, rfl⟩
    exact {
      baseline := h.baseline
      optimized := h.optimized
      bounded := h.bounded
      terminal := rfl
      inside := fun found hfound => by
        obtain rfl : usegNode = found := Option.some.inj (h.node.symm.trans hfound)
        refine ⟨?_, fun hkind => absurd hkind h.notWhole⟩
        simp only [not_and_or, not_le] at hdone
        exact hdone }

/-- The one successor of a side: it runs its next node. -/
theorem sideSuccessors_spec {program : IRProgram} (hguards : Unguarded program) {env : EnvState}
    {nodeIds : List String} {side : Side} (make : List String → Side → SymConfig)
    (h : (match nodeIds[side.splitOffset]? with
      | none => return []
      | some nodeId => do
          let options ← nodeGuardOptions (← program.node nodeId) env
          options.mapM fun (option : GuardOption) => do
            let out ← side.advanceSplit program nodeId option.1
            return make option.2 out) = .ok successors) :
    (nodeIds.length ≤ side.splitOffset ∧ successors = []) ∨
      ∃ nodeId out, nodeIds[side.splitOffset]? = some nodeId ∧ successors = [make [] out] ∧
        out.trace = side.trace ++ observedEvents program [nodeId] ∧
        out.splitOffset = side.splitOffset + 1 := by
  cases hid : nodeIds[side.splitOffset]? with
  | none =>
    rw [hid] at h
    exact .inl ⟨List.getElem?_eq_none_iff.1 hid, (pure_eq_ok.1 h).symm⟩
  | some nodeId =>
    rw [hid] at h
    obtain ⟨node, hread, h⟩ := bind_eq_ok.1 h
    obtain ⟨options, hoptions, h⟩ := bind_eq_ok.1 h
    rw [nodeGuardOptions_unguarded (hguards nodeId node hread)] at hoptions
    obtain rfl := Except.ok.inj hoptions
    rw [List.mapM_cons, List.mapM_nil, bind_eq_ok] at h
    obtain ⟨next, hnext, h⟩ := h
    obtain ⟨out, hout, hnext⟩ := bind_eq_ok.1 hnext
    refine .inr ⟨nodeId, out, rfl, ?_, advanceSplit_spec hout⟩
    rw [← pure_eq_ok.1 h, ← pure_eq_ok.1 hnext]

/-- The baseline runs its next node. -/
theorem InStep.baselineStep (h : InStep useg baselineIr optimizedIr cfg) (huseg : WellBuilt useg)
    (hguards : Unguarded baselineIr) (hnode : useg.nodes[cfg.usegIndex]? = some usegNode)
    (hkind : usegNode.kind ≠ "UNIFIED") {baseClauses : List String}
    (hsuccessors : baselineSuccessors useg baselineIr cfg { usegNode with kind := "SPLIT" }
      baseClauses = .ok successors) :
    (cfg.baseline.splitOffset < usegNode.baselineNodeIds.length → successors ≠ []) ∧
      ∀ next ∈ successors,
        InStep useg baselineIr optimizedIr next ∧ cfg.progress useg < next.progress useg := by
  let make (clauses : List String) (out : Side) : SymConfig := advanceSplitBranch useg cfg
    { usegNode with kind := "SPLIT" } (baseClauses ++ clauses) out cfg.optimized
  rcases sideSuccessors_spec hguards make hsuccessors with
    ⟨hlength, rfl⟩ | ⟨nodeId, out, hid, rfl, htrace, hoffset⟩
  · exact ⟨fun hlt => absurd hlt (not_lt.2 hlength), fun next hnext => absurd hnext List.not_mem_nil⟩
  refine ⟨fun _ => List.cons_ne_nil _ _, fun next hnext => ?_⟩
  rw [List.mem_singleton.1 hnext]
  have hdone : upTo (·.baselineNodeIds) useg cfg.usegIndex out.splitOffset =
      cfg.doneBaseline useg ++ [nodeId] := by
    rw [hoffset]
    exact upTo_offset_succ hnode hid
  have hstepped : Stepped useg baselineIr optimizedIr usegNode { cfg with
      mode := "SPLIT"
      suspiciousRegionId := usegNode.suspiciousRegionId
      visitedUsegNodes := cfg.visitedUsegNodes ++ [usegNode.usegNodeId]
      pathCondition := extendCondition cfg.pathCondition (baseClauses ++ [])
      baseline := out
      executedSteps := cfg.executedSteps + 1 } := {
    node := hnode
    baseline := by
      rw [htrace, SymConfig.doneBaseline, hdone, observedEvents_append, h.baseline]
    optimized := h.optimized
    bounded := by
      have := h.bounded
      simp only [SymConfig.progress, SymConfig.doneBaseline, SymConfig.doneOptimized, hdone,
        List.length_append, List.length_singleton] at this ⊢
      omega
    notWhole := hkind }
  obtain ⟨hin, hprogress⟩ := hstepped.leave huseg { usegNode with kind := "SPLIT" }
  refine ⟨hin, hprogress.symm ▸ ?_⟩
  simp only [SymConfig.progress, SymConfig.doneBaseline, SymConfig.doneOptimized, hdone,
    List.length_append, List.length_singleton]
  omega

/-- The optimized program runs its next node. -/
theorem InStep.optimizedStep (h : InStep useg baselineIr optimizedIr cfg) (huseg : WellBuilt useg)
    (hguards : Unguarded optimizedIr) (hnode : useg.nodes[cfg.usegIndex]? = some usegNode)
    (hkind : usegNode.kind ≠ "UNIFIED") {baseClauses : List String}
    (hsuccessors : optimizedSuccessors useg optimizedIr cfg { usegNode with kind := "SPLIT" }
      baseClauses = .ok successors) :
    (cfg.optimized.splitOffset < usegNode.optimizedNodeIds.length → successors ≠ []) ∧
      ∀ next ∈ successors,
        InStep useg baselineIr optimizedIr next ∧ cfg.progress useg < next.progress useg := by
  let make (clauses : List String) (out : Side) : SymConfig := advanceSplitBranch useg cfg
    { usegNode with kind := "SPLIT" } (baseClauses ++ clauses) cfg.baseline out
  rcases sideSuccessors_spec hguards make hsuccessors with
    ⟨hlength, rfl⟩ | ⟨nodeId, out, hid, rfl, htrace, hoffset⟩
  · exact ⟨fun hlt => absurd hlt (not_lt.2 hlength), fun next hnext => absurd hnext List.not_mem_nil⟩
  refine ⟨fun _ => List.cons_ne_nil _ _, fun next hnext => ?_⟩
  rw [List.mem_singleton.1 hnext]
  have hdone : upTo (·.optimizedNodeIds) useg cfg.usegIndex out.splitOffset =
      cfg.doneOptimized useg ++ [nodeId] := by
    rw [hoffset]
    exact upTo_offset_succ hnode hid
  have hstepped : Stepped useg baselineIr optimizedIr usegNode { cfg with
      mode := "SPLIT"
      suspiciousRegionId := usegNode.suspiciousRegionId
      visitedUsegNodes := cfg.visitedUsegNodes ++ [usegNode.usegNodeId]
      pathCondition := extendCondition cfg.pathCondition (baseClauses ++ [])
      optimized := out
      executedSteps := cfg.executedSteps + 1 } := {
    node := hnode
    baseline := h.baseline
    optimized := by
      rw [htrace, SymConfig.doneOptimized, hdone, observedEvents_append, h.optimized]
    bounded := by
      have := h.bounded
      simp only [SymConfig.progress, SymConfig.doneBaseline, SymConfig.doneOptimized, hdone,
        List.length_append, List.length_singleton] at this ⊢
      omega
    notWhole := hkind }
  obtain ⟨hin, hprogress⟩ := hstepped.leave huseg { usegNode with kind := "SPLIT" }
  refine ⟨hin, hprogress.symm ▸ ?_⟩
  simp only [SymConfig.progress, SymConfig.doneBaseline, SymConfig.doneOptimized, hdone,
    List.length_append, List.length_singleton]
  omega

/-- One of the sides runs its next node. -/
theorem InStep.splitStep (h : InStep useg baselineIr optimizedIr cfg) (huseg : WellBuilt useg)
    (hb : Unguarded baselineIr) (ho : Unguarded optimizedIr)
    (hnode : useg.nodes[cfg.usegIndex]? = some usegNode) (hkind : usegNode.kind ≠ "UNIFIED")
    {baseClauses : List String} (hsuccessors : splitSuccessors useg baselineIr optimizedIr cfg
      usegNode baseClauses = .ok successors) :
    successors ≠ [] ∧ ∀ next ∈ successors,
      InStep useg baselineIr optimizedIr next ∧ cfg.progress useg < next.progress useg := by
  obtain ⟨left, hleft, hsuccessors⟩ := bind_eq_ok.1 hsuccessors
  obtain ⟨right, hright, hsuccessors⟩ := bind_eq_ok.1 hsuccessors
  obtain rfl := pure_eq_ok.1 hsuccessors
  obtain ⟨hleftSome, hleftAll⟩ := h.baselineStep huseg hb hnode hkind hleft
  obtain ⟨hrightSome, hrightAll⟩ := h.optimizedStep huseg ho hnode hkind hright
  constructor
  · intro hnone
    rw [List.append_eq_nil_iff] at hnone
    rcases (h.inside usegNode hnode).unfinished with hlt | hlt
    · exact hleftSome hlt hnone.1
    · exact hrightSome hlt hnone.2
  · intro next hnext
    rcases List.mem_append.1 hnext with hnext | hnext
    · exact hleftAll next hnext
    · exact hrightAll next hnext

/-- A step under one branch of the environment. -/
theorem InStep.branchStep (h : InStep useg baselineIr optimizedIr cfg) (huseg : WellBuilt useg)
    (hb : Unguarded baselineIr) (ho : Unguarded optimizedIr)
    (hrejoins : ¬ Rejoins useg cfg) (hnode : useg.nodes[cfg.usegIndex]? = some usegNode)
    {baseClauses : List String} (hsuccessors : branchSuccessors useg baselineIr optimizedIr cfg
      usegNode baseClauses = .ok successors) :
    successors ≠ [] ∧ ∀ next ∈ successors,
      InStep useg baselineIr optimizedIr next ∧ cfg.progress useg < next.progress useg := by
  obtain ⟨hsome, hkinds⟩ := huseg usegNode (List.mem_of_getElem? hnode)
  rw [branchSuccessors] at hsuccessors
  split_ifs at hsuccessors with hkind hwhole hsplit
  · -- both sides run the node; a merge is not left half done
    obtain ⟨baselineOptions, hbaseline, hsuccessors⟩ := bind_eq_ok.1 hsuccessors
    obtain ⟨optimizedOptions, hoptimized, hsuccessors⟩ := bind_eq_ok.1 hsuccessors
    obtain rfl := executionOptions_unguarded hb hbaseline
    obtain rfl := executionOptions_unguarded ho hoptimized
    have hstart : cfg.baseline.splitOffset = 0 ∧ cfg.optimized.splitOffset = 0 := by
      by_cases hunified : usegNode.kind = "UNIFIED"
      · exact (h.inside usegNode hnode).whole hunified
      · have hmerge := hkind.resolve_left hunified
        have hcompatible := hwhole.resolve_left hunified
        by_contra hbegun
        rw [not_and_or] at hbegun
        exact hrejoins ⟨usegNode, hnode, hmerge, hcompatible, hbegun⟩
    exact h.whole huseg hnode hstart.1 hstart.2 hsuccessors
  · obtain ⟨_, -, hsuccessors⟩ := bind_eq_ok.1 hsuccessors
    obtain ⟨_, -, hsuccessors⟩ := bind_eq_ok.1 hsuccessors
    rw [not_or] at hwhole
    exact h.splitStep huseg hb ho hnode hwhole.1 hsuccessors
  · obtain ⟨split, hsplitSuccessors, hsuccessors⟩ := bind_eq_ok.1 hsuccessors
    rw [not_or] at hkind
    have hempty : emptySuccessors useg cfg usegNode = [] := by
      rw [emptySuccessors, if_neg]
      rw [Bool.and_eq_true, List.isEmpty_iff, List.isEmpty_iff]
      exact not_and_or.2 hsome
    rw [hempty, List.append_nil] at hsuccessors
    obtain rfl := pure_eq_ok.1 hsuccessors
    exact h.splitStep huseg hb ho hnode hkind.1 hsplitSuccessors
  · simp only [List.mem_cons, List.not_mem_nil, or_false] at hkinds
    tauto

/-- **A step keeps a configuration in step**, unless it runs a merge again: there is a successor,
and each of them has gone on. -/
theorem InStep.step (h : InStep useg baselineIr optimizedIr cfg) (huseg : WellBuilt useg)
    (hb : Unguarded baselineIr) (ho : Unguarded optimizedIr)
    (hrejoins : ¬ Rejoins useg cfg)
    (hsuccessors : stepUseg useg baselineIr optimizedIr cfg = .ok successors) :
    (cfg.usegIndex < useg.nodes.length → successors ≠ []) ∧
      ∀ next ∈ successors,
        InStep useg baselineIr optimizedIr next ∧ cfg.progress useg < next.progress useg := by
  rw [stepUseg] at hsuccessors
  cases hnode : useg.nodes[cfg.usegIndex]? with
  | none =>
    rw [hnode] at hsuccessors
    obtain rfl := pure_eq_ok.1 hsuccessors
    exact ⟨fun hlt => absurd hlt (not_lt.2 (List.getElem?_eq_none_iff.1 hnode)),
      fun next hnext => absurd hnext List.not_mem_nil⟩
  | some usegNode =>
    rw [hnode] at hsuccessors
    obtain ⟨lists, hlists, hsuccessors⟩ := bind_eq_ok.1 hsuccessors
    obtain rfl := pure_eq_ok.1 hsuccessors
    have hall : ∀ list ∈ lists, list ≠ [] ∧ ∀ next ∈ list,
        InStep useg baselineIr optimizedIr next ∧ cfg.progress useg < next.progress useg := by
      intro list hlist
      obtain ⟨baseClauses, -, hbranch⟩ := mem_of_mapM_ok hlists list hlist
      exact h.branchStep huseg hb ho hrejoins hnode hbranch
    constructor
    · intro _ hnone
      obtain ⟨clauses, hclauses⟩ := List.exists_mem_of_ne_nil _
        (branchClauses_ne_nil cfg.envState usegNode.usegNodeId)
      obtain ⟨list, hlist, -⟩ := mem_mapM_of_ok hlists hclauses
      exact (hall list hlist).1 (List.flatten_eq_nil_iff.1 hnone list hlist)
    · intro next hnext
      obtain ⟨list, hlist, hnext⟩ := List.mem_flatten.1 hnext
      exact (hall list hlist).2 next hnext

/-- At the end of the graph the traces are those of the whole programs. -/
theorem InStep.at_end (h : InStep useg baselineIr optimizedIr cfg)
    (hb : useg.nodes.flatMap (·.baselineNodeIds) = baselineIr.order)
    (ho : useg.nodes.flatMap (·.optimizedNodeIds) = optimizedIr.order)
    (hend : useg.nodes.length ≤ cfg.usegIndex) :
    cfg.baseline.trace = completeTrace baselineIr ∧
      cfg.optimized.trace = completeTrace optimizedIr := by
  rw [h.baseline, h.optimized, SymConfig.doneBaseline, SymConfig.doneOptimized, upTo_end hend,
    upTo_end hend, hb, ho]
  exact ⟨rfl, rfl⟩

theorem length_upTo_le (nodeIdsOf : USEGNode → List String) (useg : USEG) (index offset : ℕ) :
    (upTo nodeIdsOf useg index offset).length ≤ (useg.nodes.flatMap nodeIdsOf).length := by
  cases hnode : useg.nodes[index]? with
  | none => rw [upTo_end (List.getElem?_eq_none_iff.1 hnode)]
  | some usegNode =>
    have hsplit := congrArg (fun nodes => (List.flatMap nodeIdsOf nodes).length)
      (List.take_append_drop (index + 1) useg.nodes)
    have hnext : (upTo nodeIdsOf useg (index + 1) 0).length = _ :=
      congrArg List.length (upTo_succ hnode)
    have htake := (List.take_sublist offset (nodeIdsOf usegNode)).length_le
    simp only [upTo_start, List.flatMap_append, List.length_append] at hsplit hnext
    rw [upTo_of_some hnode, List.length_append]
    omega

/-- A configuration has not made more steps than there are nodes. -/
theorem InStep.executedSteps_le (h : InStep useg baselineIr optimizedIr cfg)
    (hb : useg.nodes.flatMap (·.baselineNodeIds) = baselineIr.order)
    (ho : useg.nodes.flatMap (·.optimizedNodeIds) = optimizedIr.order) :
    cfg.executedSteps ≤ cfg.progress useg ∧
      cfg.progress useg ≤ baselineIr.order.length + optimizedIr.order.length := by
  refine ⟨h.bounded, ?_⟩
  rw [← hb, ← ho]
  exact Nat.add_le_add (length_upTo_le _ _ _ _) (length_upTo_le _ _ _ _)

end Steps

/-! ## Graphs that are built -/

section Build

variable {baselineIr optimizedIr : IRProgram} {map : AlignmentMap}
variable {schema : CounterexampleObservationSchema} {useg : USEG}

theorem nodeOf_kind {lookup : OrderedDict (List String) RegionPayload} {splitOpen : Bool}
    {index : ℕ} {choice : Advance} {node : USEGNode}
    (h : nodeOf baselineIr optimizedIr schema lookup splitOpen index choice = .ok node) :
    node.kind ∈ ["UNIFIED", "MERGE", "SPLIT"] := by
  have haligned : ∀ {baselineNodeIds optimizedNodeIds : List String} {confidence : ℚ}
      {region : RegionPayload}, alignedNode baselineIr optimizedIr schema baselineNodeIds
        optimizedNodeIds confidence splitOpen region index = .ok node →
          node.kind ∈ ["UNIFIED", "MERGE", "SPLIT"] := by
    intro baselineNodeIds optimizedNodeIds confidence region h
    obtain ⟨_, -, h⟩ := bind_eq_ok.1 h
    rw [← pure_eq_ok.1 h]
    dsimp only
    split_ifs <;> simp
  cases choice with
  | block aligned => exact haligned h
  | pair item =>
    obtain ⟨_, -, h⟩ := bind_eq_ok.1 h
    exact haligned h
  | scan baselineSegment optimizedSegment =>
    obtain ⟨_, -, h⟩ := bind_eq_ok.1 h
    rw [← pure_eq_ok.1 h]
    simp

/-- A loop that comes to the end has taken something at every place. -/
theorem buildFrom_wellBuilt {lookup : OrderedDict (List String) RegionPayload} {fuel : ℕ}
    {position : Position} {splitOpen : Bool} {nodes out : List USEGNode}
    (h : buildFrom baselineIr optimizedIr map schema lookup fuel position splitOpen nodes =
      .ok (some out)) (hnodes : WellBuilt ⟨nodes⟩) : WellBuilt ⟨out⟩ := by
  induction fuel generalizing position splitOpen nodes with
  | zero =>
    by_cases hend : position = ended
    · subst hend
      rw [buildFrom_ended] at h
      exact Option.some.inj (Except.ok.inj h) ▸ hnodes
    · rw [buildFrom_zero hend] at h
      cases h
  | succ fuel ih =>
    by_cases hend : position = ended
    · subst hend
      rw [buildFrom_ended] at h
      exact Option.some.inj (Except.ok.inj h) ▸ hnodes
    · rw [buildFrom_succ hend, bind_eq_ok] at h
      obtain ⟨node, hnode, h⟩ := h
      refine ih h fun usegNode hmem => ?_
      rcases List.mem_append.1 hmem with hmem | hmem
      · exact hnodes usegNode hmem
      obtain rfl := List.mem_singleton.1 hmem
      refine ⟨?_, nodeOf_kind hnode⟩
      obtain ⟨hidsB, hidsO⟩ := nodeOf_ids hnode
      rw [hidsB, hidsO, ← not_and_or]
      rintro ⟨hnoneB, hnoneO⟩
      have hrest : move map position = position :=
        move_eq_self_iff_taken.2 (eq_ended_of_remaining (by
          rw [Position.remaining, hnoneB, hnoneO]
          rfl))
      obtain ⟨n, hn⟩ := (buildFrom_covers h).2.2
      rw [hrest, Function.iterate_fixed hrest] at hn
      exact hend hn

/-- A graph that is built holds both programs, and nothing empty. -/
theorem buildUseg_spec {suspiciousRegions : List RegionPayload} {fuel : ℕ}
    (h : buildUseg baselineIr optimizedIr map schema suspiciousRegions fuel = .ok (some useg)) :
    WellBuilt useg ∧ useg.nodes.flatMap (·.baselineNodeIds) = baselineIr.order ∧
      useg.nodes.flatMap (·.optimizedNodeIds) = optimizedIr.order := by
  rw [buildUseg, bind_eq_ok] at h
  obtain ⟨nodes, hnodes, h⟩ := h
  obtain ⟨out, rfl, rfl⟩ := Option.map_eq_some_iff.1 (pure_eq_ok.1 h)
  obtain ⟨hidsB, hidsO, -⟩ := buildFrom_covers hnodes
  exact ⟨buildFrom_wellBuilt hnodes fun _ hmem => absurd hmem List.not_mem_nil, hidsB, hidsO⟩

end Build

end FloWeaver.Counterexample
