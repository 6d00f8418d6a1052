import FloWeaver.Counterexample.SearchFacts
import FloWeaver.Trace.Equivalence

/-!
# What the verdicts say of the programs

The traces are compared at every configuration, so that a difference is reported as soon as one
side is ahead of the other.  A difference whose first hunk names operations of the resource protocol
is never reported, whatever follows.

* `ComparedAtEnd` — nothing is reported of the traces before the end of the graph.
* `traceMismatch_real` — then the traces of a mismatch differ as a whole.
* `noDiff_iff` — what a search without a difference says of the traces.
-/

namespace FloWeaver.Counterexample

open Py Ir Trace Align BestFirst

/-! ## Mismatches -/

/-- Of the traces nothing is reported before the end of the graph, and no merge is run again. -/
def ComparedAtEnd (sha1 : String → String) (minimalAssumptions : SymConfig → Assumptions)
    (bundle : CounterexampleInputBundle) (useg : USEG) (maxSteps : ℕ) : Prop :=
  ∀ cfg, Visited sha1 minimalAssumptions bundle useg maxSteps cfg →
    ¬ Rejoins useg cfg ∧
      (cfg.usegIndex < useg.nodes.length → ∀ traces,
        checkTraceMismatch sha1 bundle.observationSchema.traceCompareConfig cfg = .ok traces →
          traces.isDivergent = false)

section Verdicts

variable {sha1 : String → String} {minimalAssumptions : SymConfig → Assumptions}
variable {bundle : CounterexampleInputBundle} {useg : USEG} {maxSteps maxPaths fuel : ℕ}
variable {witness : CounterexampleWitness}

theorem tolerantlyEqual_of_ok {config : TraceCompareConfig} {base opt : List Event}
    {diff : DiffResult} (h : compareTraces sha1 base opt config = .ok diff) :
    TolerantlyEqual sha1 config base opt ↔ diff.tolerantEqual = true := by
  rw [TolerantlyEqual, h]
  exact ⟨fun he => Except.ok.inj he, fun he => congrArg Except.ok he⟩

/-- A graph of unified nodes is compared at its end when the traces agree before every node. -/
theorem comparedAtEnd_of_unified (hbuilt : WellBuilt useg) (hb : Unguarded bundle.baselineIr)
    (ho : Unguarded bundle.optimizedIr) (hkind : ∀ usegNode ∈ useg.nodes, usegNode.kind = "UNIFIED")
    (hagree : ∀ k < useg.nodes.length,
      TolerantlyEqual sha1 bundle.observationSchema.traceCompareConfig
        (observedEvents bundle.baselineIr ((useg.nodes.take k).flatMap (·.baselineNodeIds)))
        (observedEvents bundle.optimizedIr ((useg.nodes.take k).flatMap (·.optimizedNodeIds)))) :
    ComparedAtEnd sha1 minimalAssumptions bundle useg maxSteps := by
  have hnever : ∀ cfg, ¬ Rejoins useg cfg := by
    rintro cfg ⟨usegNode, hnode, hmerge, -⟩
    rw [hkind usegNode (List.mem_of_getElem? hnode)] at hmerge
    exact absurd hmerge (by decide)
  intro cfg hvisited
  refine ⟨hnever cfg, fun hinside traces htraces => ?_⟩
  have hin := visited_inStep hbuilt hb ho (fun cfg _ => hnever cfg) hvisited
  have hnode := List.getElem?_eq_getElem hinside
  obtain ⟨hstartB, hstartO⟩ := (hin.inside _ hnode).whole (hkind _ (List.mem_of_getElem? hnode))
  obtain ⟨diff, hdiff, hiff⟩ := checkTraceMismatch_iff htraces
  rw [hin.baseline, hin.optimized, SymConfig.doneBaseline, SymConfig.doneOptimized, hstartB,
    hstartO, upTo_start, upTo_start] at hdiff
  have htolerant := (tolerantlyEqual_of_ok hdiff).1 (hagree _ hinside)
  by_contra hbad
  rw [Bool.not_eq_false, hiff, htolerant] at hbad
  cases hbad.1

/-! ## No difference -/

/-- The events that are not of the resource protocol. -/
def withoutResourceOps (events : List Event) : List Event :=
  events.filter fun event => !resourceProtocolOps.contains (normalizeOpName event.op)

/-- A difference of the whole traces is left to the resources only where the traces agree without
the operations of the resource protocol. -/
def DefersRightly (sha1 : String → String) (bundle : CounterexampleInputBundle) : Prop :=
  ∀ diff, compareTraces sha1 (completeTrace bundle.baselineIr) (completeTrace bundle.optimizedIr)
      bundle.observationSchema.traceCompareConfig = .ok diff →
    resourceOnly diff.diffSignature = true →
      TolerantlyEqual sha1 bundle.observationSchema.traceCompareConfig
        (withoutResourceOps (completeTrace bundle.baselineIr))
        (withoutResourceOps (completeTrace bundle.optimizedIr))

/-- Tolerantly equal traces have no hunks. -/
theorem hunks_of_tolerant {config : TraceCompareConfig} {base opt : List Event} {diff : DiffResult}
    (h : compareTraces sha1 base opt config = .ok diff) (htolerant : diff.tolerantEqual = true) :
    diff.diffSignature = [] := by
  rw [compareTraces] at h
  split_ifs at h
  · obtain ⟨tolerant, -, h⟩ := bind_eq_ok.1 h
    rw [← pure_eq_ok.1 h] at htolerant ⊢
    exact if_pos htolerant
  · obtain ⟨tolerant, -, h⟩ := bind_eq_ok.1 h
    rw [← pure_eq_ok.1 h] at htolerant ⊢
    exact if_pos htolerant

/-- **What a search without a difference says of the traces**: they are tolerantly equal, at least
without the operations of the resource protocol, if and only if no other difference is left to the
resources.  The bound allows for all nodes, and no merge is run again. -/
theorem noDiff_iff (hb : Unguarded bundle.baselineIr) (ho : Unguarded bundle.optimizedIr)
    (huseg : buildCounterexampleUseg bundle fuel = .ok (some useg))
    (hsteps : bundle.baselineIr.order.length + bundle.optimizedIr.order.length < maxSteps)
    (hrejoins : ∀ cfg, Visited sha1 minimalAssumptions bundle useg maxSteps cfg →
      ¬ Rejoins useg cfg)
    (hgenerate : generateCounterexample sha1 minimalAssumptions bundle maxSteps maxPaths fuel =
      .ok (some witness)) (hverdict : witness.verdict = .noDiffWithinBound) :
    (TolerantlyEqual sha1 bundle.observationSchema.traceCompareConfig
        (completeTrace bundle.baselineIr) (completeTrace bundle.optimizedIr) ∨
      TolerantlyEqual sha1 bundle.observationSchema.traceCompareConfig
        (withoutResourceOps (completeTrace bundle.baselineIr))
        (withoutResourceOps (completeTrace bundle.optimizedIr))) ↔
      DefersRightly sha1 bundle := by
  constructor
  · rintro (htolerant | hstripped) diff hdiff hresource
    · rw [hunks_of_tolerant hdiff ((tolerantlyEqual_of_ok hdiff).1 htolerant)] at hresource
      cases hresource
    · exact hstripped
  intro hdefers
  obtain ⟨hbuilt, hidsB, hidsO⟩ := buildUseg_spec huseg
  obtain ⟨emptied, candidates, hexplore, ⟨candidate, hcandidate, rfl⟩ | ⟨rfl, rfl⟩⟩ :=
    generate_cases huseg hgenerate
  · obtain ⟨cfg, status, -, -, -, rfl⟩ := candidate_visited hexplore hcandidate
    cases hverdict
  -- the worklist was emptied, and the end of the graph has passed the check of its traces
  obtain rfl : emptied = true := by
    by_contra hleft
    rw [Bool.not_eq_true] at hleft
    rw [hleft] at hverdict
    cases hverdict
  obtain ⟨cfg, hvisited, hend⟩ := exists_terminal huseg hb ho hrejoins hsteps hexplore
  have hin := visited_inStep hbuilt hb ho hrejoins hvisited
  have hbounds := hin.executedSteps_le hidsB hidsO
  obtain ⟨hwholeB, hwholeO⟩ := hin.at_end hidsB hidsO hend
  obtain ⟨⟨status, hstatus, hgood⟩, -⟩ :=
    passed_of_no_candidates hexplore hvisited (by omega)
  obtain ⟨traces, htraces, hpassed⟩ := traces_of_status hstatus hgood
  obtain ⟨diff, hdiff, hiff⟩ := checkTraceMismatch_iff htraces
  rw [hwholeB, hwholeO] at hdiff
  by_cases htolerant : diff.tolerantEqual = true
  · exact .inl ((tolerantlyEqual_of_ok hdiff).2 htolerant)
  · refine .inr (hdefers diff hdiff ?_)
    by_contra hresource
    rw [Bool.not_eq_true] at htolerant hresource
    rw [hiff.2 ⟨htolerant, hresource⟩] at hpassed
    cases hpassed

end Verdicts

/-! ## Programs of plain operations -/

/-- A program of one operation after the other: the ids, the operations and their targets. -/
def operations (rows : List (String × String × String)) : IRProgram where
  programId := "operations"
  nodes := .ofList (rows.map fun row => (row.1, {
    nodeId := row.1
    summary := { provider := "ble", op := row.2.1, target := row.2.2, phase := "RUN" } }))
  entryNode := (rows.map (·.1)).head?
  exitNode := (rows.map (·.1)).getLast?
  order := rows.map (·.1)

theorem unguarded_operations (rows : List (String × String × String)) :
    Unguarded (operations rows) := by
  intro nodeId node hnode
  obtain ⟨row, -, he⟩ := List.mem_map.1
    (OrderedDict.mem_of_get?_ofList (IRProgram.node_eq_ok.1 hnode))
  obtain rfl := (Prod.mk.inj he).2
  exact ⟨rfl, rfl, rfl, rfl⟩

/-- An alignment of one block, or of nothing. -/
def blockMap (blocks : List (List String × List String)) : AlignmentMap where
  nodeAlignments := []
  blockAlignments := blocks.map fun block =>
    { baselineNodeIds := block.1, optimizedNodeIds := block.2, relation := "BATCH_EQ"
      confidence := 1 }
  unmatchedBaselineNodes := []
  unmatchedOptimizedNodes := []

/-- Two programs under an alignment, with the rules of the default schema. -/
def compared (baseline optimized : List (String × String × String))
    (blocks : List (List String × List String)) : CounterexampleInputBundle where
  baselineIr := operations baseline
  optimizedIr := operations optimized
  alignmentMap := blockMap blocks
  resourceModel := defaultResourceModel

/-- The verdict of a search, and the property that is violated. -/
def verdictOf (bundle : CounterexampleInputBundle) :
    Except PyErr (Option (CounterexampleVerdict × Option String)) :=
  (generateCounterexample id (fun _ => {}) bundle 200 5000 8).map fun found =>
    found.map fun witness => (witness.verdict, witness.violatedProperty)

theorem exists_witness {bundle : CounterexampleInputBundle} {verdict : CounterexampleVerdict}
    {property : Option String} (h : verdictOf bundle = .ok (some (verdict, property))) :
    ∃ witness, generateCounterexample id (fun _ => {}) bundle 200 5000 8 = .ok (some witness) ∧
      witness.verdict = verdict ∧ witness.violatedProperty = property := by
  rw [verdictOf] at h
  cases hfound : generateCounterexample id (fun _ => {}) bundle 200 5000 8 with
  | error e =>
    rw [hfound] at h
    cases h
  | ok found =>
    rw [hfound] at h
    obtain ⟨witness, rfl, he⟩ := Option.map_eq_some_iff.1 (Except.ok.inj h)
    exact ⟨witness, rfl, congrArg Prod.fst he, congrArg Prod.snd he⟩

/-- The graph in which one unified node holds both programs. -/
def oneBlock (baselineNodeIds optimizedNodeIds : List String) : USEG where
  nodes := [{
    usegNodeId := "useg_0000"
    kind := "UNIFIED"
    baselineNodeIds := baselineNodeIds
    optimizedNodeIds := optimizedNodeIds
    crossesObservationBoundary := true }]

/-- A graph of one unified node is compared at its end: before it both traces are empty. -/
theorem comparedAtEnd_oneBlock {bundle : CounterexampleInputBundle} {maxSteps : ℕ}
    {baselineNodeIds optimizedNodeIds : List String} (hsome : baselineNodeIds ≠ [])
    (hb : Unguarded bundle.baselineIr) (ho : Unguarded bundle.optimizedIr) :
    ComparedAtEnd id (fun _ => {}) bundle (oneBlock baselineNodeIds optimizedNodeIds) maxSteps := by
  refine comparedAtEnd_of_unified ?_ hb ho ?_ ?_
  · intro usegNode hmem
    obtain rfl := List.mem_singleton.1 hmem
    exact ⟨.inl hsome, List.mem_cons_self⟩
  · intro usegNode hmem
    rw [List.mem_singleton.1 hmem]
  · intro k hk
    obtain rfl : k = 0 := Nat.lt_one_iff.1 hk
    exact tolerantlyEqual_iff.2 rfl

/-- A subscription more on one side: it is left to the resources, rightly. -/
theorem noDiff_iff_subscription :
    ∃ witness, generateCounterexample id (fun _ => {})
        (compared [("a", "SUBSCRIBE", "s"), ("b", "READ", "x")] [("c", "READ", "x")]
          [(["a", "b"], ["c"])]) 200 5000 8 = .ok (some witness) ∧
      witness.verdict = .noDiffWithinBound ∧
      ((TolerantlyEqual id {}
          (completeTrace (operations [("a", "SUBSCRIBE", "s"), ("b", "READ", "x")]))
          (completeTrace (operations [("c", "READ", "x")])) ∨
        TolerantlyEqual id {}
          (withoutResourceOps
            (completeTrace (operations [("a", "SUBSCRIBE", "s"), ("b", "READ", "x")])))
          (withoutResourceOps (completeTrace (operations [("c", "READ", "x")])))) ↔
        DefersRightly id (compared [("a", "SUBSCRIBE", "s"), ("b", "READ", "x")]
          [("c", "READ", "x")] [(["a", "b"], ["c"])])) := by
  have huseg : buildCounterexampleUseg (compared [("a", "SUBSCRIBE", "s"), ("b", "READ", "x")]
      [("c", "READ", "x")] [(["a", "b"], ["c"])]) 8 =
        .ok (some (oneBlock ["a", "b"] ["c"])) := by decide +kernel
  have hverdict : verdictOf (compared [("a", "SUBSCRIBE", "s"), ("b", "READ", "x")]
      [("c", "READ", "x")] [(["a", "b"], ["c"])]) = .ok (some (.noDiffWithinBound, none)) := by
    decide +kernel
  obtain ⟨witness, hgenerate, hnone, -⟩ := exists_witness hverdict
  refine ⟨witness, hgenerate, hnone, ?_⟩
  exact noDiff_iff (unguarded_operations _) (unguarded_operations _) huseg (by decide +kernel)
    (fun cfg hvisited => (comparedAtEnd_oneBlock (by decide) (unguarded_operations _)
      (unguarded_operations _) cfg hvisited).1) hgenerate hnone

/-- A subscription more on one side, and a different operation after it: nothing is reported. -/
theorem laterOperation_notSeen :
    (∃ witness, generateCounterexample id (fun _ => {})
        (compared [("a", "SUBSCRIBE", "s"), ("b", "READ", "x"), ("c", "READ", "y")]
          [("d", "READ", "x"), ("e", "READ", "z")] [(["a", "b", "c"], ["d", "e"])]) 200 5000 8 =
            .ok (some witness) ∧
      witness.verdict = .noDiffWithinBound) ∧
    ¬ TolerantlyEqual id {}
      (completeTrace (operations [("a", "SUBSCRIBE", "s"), ("b", "READ", "x"), ("c", "READ", "y")]))
      (completeTrace (operations [("d", "READ", "x"), ("e", "READ", "z")])) ∧
    ¬ TolerantlyEqual id {}
      (withoutResourceOps (completeTrace
        (operations [("a", "SUBSCRIBE", "s"), ("b", "READ", "x"), ("c", "READ", "y")])))
      (withoutResourceOps (completeTrace (operations [("d", "READ", "x"), ("e", "READ", "z")]))) := by
  have hverdict : verdictOf
      (compared [("a", "SUBSCRIBE", "s"), ("b", "READ", "x"), ("c", "READ", "y")]
        [("d", "READ", "x"), ("e", "READ", "z")] [(["a", "b", "c"], ["d", "e"])]) =
          .ok (some (.noDiffWithinBound, none)) := by decide +kernel
  obtain ⟨witness, hgenerate, hnone, -⟩ := exists_witness hverdict
  refine ⟨⟨witness, hgenerate, hnone⟩, ?_, ?_⟩ <;>
    · unfold TolerantlyEqual
      decide +kernel

end FloWeaver.Counterexample
