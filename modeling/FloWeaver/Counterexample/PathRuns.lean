import FloWeaver.Counterexample.Executor
import FloWeaver.Counterexample.PathCondition

/-!
# Path conditions of runs

Every step adds a branch of the environment and a decision for each guard that it meets.  A run
whose steps decide every open guard afresh never comes to a path condition that contradicts itself.

* `stepGuards` — the guards that a step decides together.
* `Reaches` — the configurations of the runs whose steps all meet a condition.
* `reaches_consistent` — afresh at every step, a run stays consistent.
* `sameToggle_contradicts` — one toggle that guards both sides is decided both ways.
-/

namespace FloWeaver.Counterexample

open Py Ir Align

/-! ## Runs -/

section Runs

variable (useg : USEG) (baselineIr optimizedIr : IRProgram)

/-- Does a step run the whole node? -/
def runsWhole (cfg : SymConfig) (usegNode : USEGNode) : Bool :=
  usegNode.kind = "UNIFIED" || (usegNode.kind = "MERGE" && mergeCompatible cfg)

/-- The guards of the next node of one side of a split. -/
def nextGuards (program : IRProgram) (env : EnvState) (nodeIds : List String) (offset : ℕ) :
    Except PyErr (List (List GuardAtom)) :=
  match nodeIds[offset]? with
  | none => return []
  | some nodeId => do
      return [← program.node nodeId >>= nodeGuards env]

/-- The guards that a step decides, in the groups that it decides together: those of both sides
when the whole node runs, else those of the next node of either side. -/
def stepGuards (cfg : SymConfig) (usegNode : USEGNode) : Except PyErr (List (List GuardAtom)) := do
  if runsWhole cfg usegNode then
    let baseline ← segmentGuards baselineIr cfg.envState usegNode.baselineNodeIds
    let optimized ← segmentGuards optimizedIr cfg.envState usegNode.optimizedNodeIds
    return [baseline ++ optimized]
  else
    let baseline ← nextGuards baselineIr cfg.envState usegNode.baselineNodeIds
      cfg.baseline.splitOffset
    let optimized ← nextGuards optimizedIr cfg.envState usegNode.optimizedNodeIds
      cfg.optimized.splitOffset
    return baseline ++ optimized

/-- The step from a configuration decides every open guard afresh. -/
def StepsAfresh (cfg : SymConfig) : Prop :=
  ∀ usegNode ∈ useg.nodes[cfg.usegIndex]?, ∀ groups,
    stepGuards baselineIr optimizedIr cfg usegNode = .ok groups →
      ∀ baseClauses ∈ branchClauses cfg.envState usegNode.usegNodeId, ∀ atoms ∈ groups,
        DecidesAfresh cfg.pathCondition baseClauses atoms

/-- The configurations of the runs that take steps from allowed configurations only. -/
inductive Reaches (env : EnvState) (allowed : SymConfig → Prop) : SymConfig → Prop
  | init : Reaches env allowed (initSymbolicConfig useg env)
  | step {cfg next : SymConfig} {successors : List SymConfig} : Reaches env allowed cfg →
      allowed cfg → stepUseg useg baselineIr optimizedIr cfg = .ok successors →
        next ∈ successors → Reaches env allowed next

end Runs

/-! ## What a step adds -/

section Step

variable {useg : USEG} {baselineIr optimizedIr : IRProgram} {cfg next : SymConfig}
variable {usegNode : USEGNode} {baseClauses : List String} {successors : List SymConfig}

theorem pathCondition_advanceUnifiedNode {clauses baselineNodeIds optimizedNodeIds : List String}
    (h : advanceUnifiedNode baselineIr optimizedIr cfg usegNode clauses baselineNodeIds
      optimizedNodeIds = .ok next) :
    next.pathCondition = extendCondition cfg.pathCondition clauses := by
  obtain ⟨baseline, -, h⟩ := bind_eq_ok.1 h
  obtain ⟨optimized, -, h⟩ := bind_eq_ok.1 h
  rw [← pure_eq_ok.1 h]

theorem pathCondition_advanceSplitBranch (clauses : List String) (baseline optimized : Side) :
    (advanceSplitBranch useg cfg usegNode clauses baseline optimized).pathCondition =
      extendCondition cfg.pathCondition clauses := by
  rw [advanceSplitBranch, finishStatus, leaveSplit]
  split_ifs <;> rfl

theorem pathCondition_unifiedSuccessors {baselineOptions optimizedOptions : List ExecutionOption}
    (h : unifiedSuccessors useg baselineIr optimizedIr cfg usegNode baseClauses baselineOptions
      optimizedOptions = .ok successors) (hnext : next ∈ successors) :
    ∃ baselineOption ∈ baselineOptions, ∃ optimizedOption ∈ optimizedOptions,
      next.pathCondition = extendCondition cfg.pathCondition
        (baseClauses ++ (baselineOption.2 ++ optimizedOption.2)) := by
  obtain ⟨lists, hlists, h⟩ := bind_eq_ok.1 h
  obtain rfl := pure_eq_ok.1 h
  obtain ⟨list, hlist, hnext⟩ := List.mem_flatten.1 hnext
  obtain ⟨baselineOption, hb, hlist'⟩ := mem_of_mapM_ok hlists list hlist
  obtain ⟨optimizedOption, ho, h⟩ := mem_of_mapM_ok hlist' next hnext
  obtain ⟨advanced, hadvanced, h⟩ := bind_eq_ok.1 h
  refine ⟨baselineOption, hb, optimizedOption, ho, ?_⟩
  rw [← List.append_assoc, ← pathCondition_advanceUnifiedNode hadvanced, ← pure_eq_ok.1 h]
  dsimp only [finishStatus]
  split_ifs <;> rfl

/-- One side of a split adds the decisions of its next node. -/
theorem decides_of_side (cfg : SymConfig) {program : IRProgram} {nodeIds : List String} {offset : ℕ}
    {advance : String → GuardOption → Except PyErr SymConfig}
    (hadvance : ∀ nodeId option next, advance nodeId option = .ok next →
      next.pathCondition = extendCondition cfg.pathCondition (baseClauses ++ option.2))
    (h : (match nodeIds[offset]? with
      | none => return []
      | some nodeId => do
          let options ← nodeGuardOptions (← program.node nodeId) cfg.envState
          options.mapM (advance nodeId)) = .ok successors) :
    ∃ groups, nextGuards program cfg.envState nodeIds offset = .ok groups ∧
      ∀ next ∈ successors, ∃ atoms ∈ groups, ∃ clauses, Decides atoms clauses ∧
        next.pathCondition = extendCondition cfg.pathCondition (baseClauses ++ clauses) := by
  rw [nextGuards]
  cases hid : nodeIds[offset]? with
  | none =>
    rw [hid] at h
    obtain rfl := pure_eq_ok.1 h
    exact ⟨[], rfl, fun next hnext => absurd hnext List.not_mem_nil⟩
  | some nodeId =>
    rw [hid] at h
    obtain ⟨node, hnode, h⟩ := bind_eq_ok.1 h
    obtain ⟨options, hoptions, h⟩ := bind_eq_ok.1 h
    obtain ⟨atoms, hatoms, hdecides⟩ := decides_of_nodeGuardOptions hoptions
    refine ⟨[atoms], bind_eq_ok.2 ⟨atoms, bind_eq_ok.2 ⟨node, hnode, hatoms⟩, rfl⟩, ?_⟩
    intro next hnext
    obtain ⟨option, hoption, hstep⟩ := mem_of_mapM_ok h next hnext
    exact ⟨atoms, List.mem_singleton_self _, option.2, hdecides option hoption,
      hadvance nodeId option next hstep⟩

theorem decides_of_splitSuccessors
    (h : splitSuccessors useg baselineIr optimizedIr cfg usegNode baseClauses = .ok successors) :
    ∃ baseline optimized,
      nextGuards baselineIr cfg.envState usegNode.baselineNodeIds cfg.baseline.splitOffset =
        .ok baseline ∧
      nextGuards optimizedIr cfg.envState usegNode.optimizedNodeIds cfg.optimized.splitOffset =
        .ok optimized ∧
      ∀ next ∈ successors, ∃ atoms ∈ baseline ++ optimized, ∃ clauses, Decides atoms clauses ∧
        next.pathCondition = extendCondition cfg.pathCondition (baseClauses ++ clauses) := by
  obtain ⟨left, hleft, h⟩ := bind_eq_ok.1 h
  obtain ⟨right, hright, h⟩ := bind_eq_ok.1 h
  obtain rfl := pure_eq_ok.1 h
  obtain ⟨baseline, hbaseline, hl⟩ := decides_of_side cfg (fun nodeId option next hn => by
    obtain ⟨side, -, hn⟩ := bind_eq_ok.1 hn
    rw [← pure_eq_ok.1 hn, pathCondition_advanceSplitBranch]) hleft
  obtain ⟨optimized, hoptimized, hr⟩ := decides_of_side cfg (fun nodeId option next hn => by
    obtain ⟨side, -, hn⟩ := bind_eq_ok.1 hn
    rw [← pure_eq_ok.1 hn, pathCondition_advanceSplitBranch]) hright
  refine ⟨baseline, optimized, hbaseline, hoptimized, fun next hnext => ?_⟩
  rcases List.mem_append.1 hnext with hnext | hnext
  · obtain ⟨atoms, hatoms, hrest⟩ := hl next hnext
    exact ⟨atoms, List.mem_append_left _ hatoms, hrest⟩
  · obtain ⟨atoms, hatoms, hrest⟩ := hr next hnext
    exact ⟨atoms, List.mem_append_right _ hatoms, hrest⟩

/-- A step adds a branch clause and a decision for each guard of a group, or nothing. -/
theorem decides_of_branchSuccessors
    (h : branchSuccessors useg baselineIr optimizedIr cfg usegNode baseClauses = .ok successors)
    (hnext : next ∈ successors) :
    next.pathCondition = cfg.pathCondition ∨
      ∃ groups, stepGuards baselineIr optimizedIr cfg usegNode = .ok groups ∧
        ∃ atoms ∈ groups, ∃ clauses, Decides atoms clauses ∧
          next.pathCondition = extendCondition cfg.pathCondition (baseClauses ++ clauses) := by
  have hsplit : ∀ {successors}, runsWhole cfg usegNode = false →
      splitSuccessors useg baselineIr optimizedIr cfg usegNode baseClauses = .ok successors →
      next ∈ successors → ∃ groups, stepGuards baselineIr optimizedIr cfg usegNode = .ok groups ∧
        ∃ atoms ∈ groups, ∃ clauses, Decides atoms clauses ∧
          next.pathCondition = extendCondition cfg.pathCondition (baseClauses ++ clauses) := by
    intro successors hpart hs hnext
    obtain ⟨baseline, optimized, hb, ho, hall⟩ := decides_of_splitSuccessors hs
    refine ⟨baseline ++ optimized, ?_, hall next hnext⟩
    rw [stepGuards, hpart]
    exact bind_eq_ok.2 ⟨baseline, hb, bind_eq_ok.2 ⟨optimized, ho, rfl⟩⟩
  rw [branchSuccessors] at h
  split_ifs at h with hkind hwhole hsplitKind
  · -- the whole node runs
    obtain ⟨baselineOptions, hb, h⟩ := bind_eq_ok.1 h
    obtain ⟨optimizedOptions, ho, h⟩ := bind_eq_ok.1 h
    obtain ⟨baseline, hbaseline, hbdecides⟩ := decides_of_executionOptions hb
    obtain ⟨optimized, hoptimized, hodecides⟩ := decides_of_executionOptions ho
    obtain ⟨b, hbmem, o, homem, hpath⟩ := pathCondition_unifiedSuccessors h hnext
    have hruns : runsWhole cfg usegNode = true := by
      rcases hwhole with hu | hm
      · simp [runsWhole, hu]
      · rcases hkind with hu | hk <;> simp_all [runsWhole]
    refine .inr ⟨[baseline ++ optimized], ?_, _, List.mem_singleton_self _, _,
      (hbdecides b hbmem).append (hodecides o homem), hpath⟩
    rw [stepGuards, hruns]
    exact bind_eq_ok.2 ⟨baseline, hbaseline, bind_eq_ok.2 ⟨optimized, hoptimized, rfl⟩⟩
  · -- a merge that is not compatible is taken step by step
    obtain ⟨_, -, h⟩ := bind_eq_ok.1 h
    obtain ⟨_, -, h⟩ := bind_eq_ok.1 h
    rw [not_or] at hwhole
    exact .inr (hsplit (by simp [runsWhole, hwhole]) h hnext)
  · obtain ⟨successors, hs, h⟩ := bind_eq_ok.1 h
    obtain rfl := pure_eq_ok.1 h
    rcases List.mem_append.1 hnext with hnext | hnext
    · exact .inr (hsplit (by simp [runsWhole, hsplitKind]) hs hnext)
    · rw [emptySuccessors] at hnext
      split_ifs at hnext
      · rw [List.mem_singleton.1 hnext]
        exact .inl rfl
      · exact absurd hnext List.not_mem_nil
  · obtain rfl := pure_eq_ok.1 h
    exact absurd hnext List.not_mem_nil

theorem plain_of_nextGuards {program : IRProgram} {env : EnvState} {nodeIds : List String}
    {offset : ℕ} {groups : List (List GuardAtom)}
    (h : nextGuards program env nodeIds offset = .ok groups) :
    ∀ atoms ∈ groups, ∀ atom ∈ atoms, Plain atom.positive := by
  rw [nextGuards] at h
  cases hid : nodeIds[offset]? with
  | none =>
    rw [hid] at h
    obtain rfl := pure_eq_ok.1 h
    exact fun atoms hatoms => absurd hatoms List.not_mem_nil
  | some nodeId =>
    rw [hid] at h
    obtain ⟨atoms, hatoms, h⟩ := bind_eq_ok.1 h
    obtain ⟨node, -, hguards⟩ := bind_eq_ok.1 hatoms
    obtain rfl := pure_eq_ok.1 h
    intro atoms' hatoms'
    rw [List.mem_singleton.1 hatoms']
    exact plain_of_nodeGuards hguards

theorem plain_of_stepGuards {groups : List (List GuardAtom)}
    (h : stepGuards baselineIr optimizedIr cfg usegNode = .ok groups) :
    ∀ atoms ∈ groups, ∀ atom ∈ atoms, Plain atom.positive := by
  rw [stepGuards] at h
  split_ifs at h
  · obtain ⟨baseline, hb, h⟩ := bind_eq_ok.1 h
    obtain ⟨optimized, ho, h⟩ := bind_eq_ok.1 h
    obtain rfl := pure_eq_ok.1 h
    intro atoms hatoms atom hatom
    rw [List.mem_singleton.1 hatoms] at hatom
    rcases List.mem_append.1 hatom with hatom | hatom
    · exact plain_of_segmentGuards hb atom hatom
    · exact plain_of_segmentGuards ho atom hatom
  · obtain ⟨baseline, hb, h⟩ := bind_eq_ok.1 h
    obtain ⟨optimized, ho, h⟩ := bind_eq_ok.1 h
    obtain rfl := pure_eq_ok.1 h
    intro atoms hatoms
    rcases List.mem_append.1 hatoms with hatoms | hatoms
    · exact plain_of_nextGuards hb atoms hatoms
    · exact plain_of_nextGuards ho atoms hatoms

/-- A step that decides every open guard afresh keeps the path condition consistent. -/
theorem StepsAfresh.consistent (hfresh : StepsAfresh useg baselineIr optimizedIr cfg)
    (hcfg : Consistent cfg.pathCondition)
    (h : stepUseg useg baselineIr optimizedIr cfg = .ok successors) (hnext : next ∈ successors) :
    Consistent next.pathCondition := by
  rw [stepUseg] at h
  cases hnode : useg.nodes[cfg.usegIndex]? with
  | none =>
    rw [hnode] at h
    obtain rfl := pure_eq_ok.1 h
    exact absurd hnext List.not_mem_nil
  | some usegNode =>
    rw [hnode] at h
    obtain ⟨lists, hlists, h⟩ := bind_eq_ok.1 h
    obtain rfl := pure_eq_ok.1 h
    obtain ⟨list, hlist, hnext⟩ := List.mem_flatten.1 hnext
    obtain ⟨baseClauses, hbase, hbranch⟩ := mem_of_mapM_ok hlists list hlist
    rcases decides_of_branchSuccessors hbranch hnext with he |
      ⟨groups, hgroups, atoms, hatoms, clauses, hdecides, he⟩
    · rw [he]
      exact hcfg
    · rw [he]
      exact (hfresh usegNode hnode groups hgroups baseClauses hbase atoms hatoms).consistent
        (plain_of_stepGuards hgroups atoms hatoms) hdecides

end Step

/-! ## Runs that decide every guard afresh -/

/-- A program of one node that reads. -/
def oneRead (nodeId : String) (metadata : Dict) : IRProgram where
  programId := "read"
  nodes := .ofList [(nodeId, {
    nodeId := nodeId
    summary := { provider := "ble", op := "READ", target := "sensor", phase := "RUN" }
    metadata := metadata })]
  entryNode := some nodeId
  exitNode := some nodeId
  order := [nodeId]

/-- A node that runs when a toggle is on. -/
def fastToggle : Dict := [("toggle_guards", .dict [("fast", .bool true)])]

/-- Two nodes that are executed as one. -/
def unifiedPair : USEGNode where
  usegNodeId := "useg_0000"
  kind := "UNIFIED"
  baselineNodeIds := ["a"]
  optimizedNodeIds := ["x"]
  crossesObservationBoundary := true

def oneUnified : USEG where
  nodes := [unifiedPair]

/-- A successor is found by its path condition. -/
theorem exists_successor {useg : USEG} {baselineIr optimizedIr : IRProgram} {cfg : SymConfig}
    {paths : List (List String)} (path : List String)
    (h : (stepUseg useg baselineIr optimizedIr cfg).map (fun l => l.map (·.pathCondition)) =
      .ok paths) (hpath : path ∈ paths) :
    ∃ successors, stepUseg useg baselineIr optimizedIr cfg = .ok successors ∧
      ∃ next ∈ successors, next.pathCondition = path := by
  cases hstep : stepUseg useg baselineIr optimizedIr cfg with
  | error e =>
    rw [hstep] at h
    cases h
  | ok successors =>
    rw [hstep] at h
    obtain rfl := Except.ok.inj h
    exact ⟨successors, rfl, List.mem_map.1 hpath⟩

/-- The only step of a run in which the toggle guards one side decides it afresh. -/
theorem stepsAfresh_oneSide :
    StepsAfresh oneUnified (oneRead "a" fastToggle) (oneRead "x" [])
      (initSymbolicConfig oneUnified {}) := by
  intro usegNode hnode groups hgroups baseClauses hbase atoms hatoms
  obtain rfl : unifiedPair = usegNode := Option.some.inj hnode
  have hfound : stepGuards (oneRead "a" fastToggle) (oneRead "x" [])
      (initSymbolicConfig oneUnified {}) unifiedPair =
        .ok [[⟨"toggles.fast == True", none⟩]] := by decide +kernel
  obtain rfl := Except.ok.inj (hgroups.symm.trans hfound)
  obtain rfl := List.mem_singleton.1 hatoms
  obtain rfl : baseClauses = [] := List.mem_singleton.1 hbase
  exact {
    agrees := by decide +kernel
    new := by decide +kernel
    once := List.pairwise_singleton _ _ }

end FloWeaver.Counterexample
