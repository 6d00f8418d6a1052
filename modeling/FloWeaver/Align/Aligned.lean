import FloWeaver.Align.CandidateIds
import FloWeaver.Align.Compatibility
import FloWeaver.Align.Verify

/-!
# The alignment of two programs

The alignment that the search selects among the generated candidates: pairs and blocks of nodes of
the two programs that share no node and, when the node ids are plain, do not cross.

* `IsAlignment` — what an alignment is.
* `alignPrograms_spec` — the alignment of two programs is one.
* `IsProved` — what the check has established.
* `checkRelationalConsistency_proved` — the verdict establishes it.
* `materializeAlignmentMap_of_no_violations` — the whole alignment then stays.
-/

namespace FloWeaver.Align

open Py Ir

variable {baselineIr optimizedIr : IRProgram} {schema : CounterexampleObservationSchema}
variable {model : ResourceModel} {config : AlignmentConfig} {rules : List String}
variable {alignment : ProvisionalAlignment} {selected : List Candidate}

/-- The observed nodes among some nodes. -/
def observedAmong (program : IRProgram) (nodeIds : List String) : List String :=
  nodeIds.filter (program.holdsAt IRNode.observationBoundary)

/-- A candidate of two programs: a pair that was generated, or a block of consecutive nodes. -/
structure FitsCandidate (baselineIr optimizedIr : IRProgram) (c : Candidate) : Prop where
  baseline : c.baselineIds <:+: baselineIr.order
  optimized : c.optimizedIds <:+: optimizedIr.order
  report : ∀ p, c = .pair p → ∃ bNode oNode,
    baselineIr.nodes.get? p.baselineNodeId = some bNode ∧
    optimizedIr.nodes.get? p.optimizedNodeId = some oNode ∧
    p.observationCompatibility = observationCompatibility bNode oNode

/-- An alignment of two programs: the selected candidates and the nodes that they use. -/
structure IsAlignment (baselineIr optimizedIr : IRProgram) (alignment : ProvisionalAlignment)
    (selected : List Candidate) (usedBaseline usedOptimized : List String) : Prop where
  fits : ∀ c ∈ selected, FitsCandidate baselineIr optimizedIr c
  pairs : alignment.alignedPairs = pairsOf selected
  blocks : alignment.alignedBlocks = blocksOf selected
  baseline_apart : selected.Pairwise fun c d => List.Disjoint c.baselineIds d.baselineIds
  optimized_apart : selected.Pairwise fun c d => List.Disjoint c.optimizedIds d.optimizedIds
  mem_usedBaseline : ∀ n, n ∈ usedBaseline ↔ n ∈ selected.flatMap Candidate.baselineIds
  mem_usedOptimized : ∀ n, n ∈ usedOptimized ↔ n ∈ selected.flatMap Candidate.optimizedIds
  usedBaseline_nodup : usedBaseline.Nodup
  usedOptimized_nodup : usedOptimized.Nodup
  unmatchedBaseline : alignment.unmatchedBaselineNodes =
    baselineIr.order.filter fun n => !usedBaseline.contains n
  unmatchedOptimized : alignment.unmatchedOptimizedNodes =
    optimizedIr.order.filter fun n => !usedOptimized.contains n
  observable : alignment.coverage.observableRatio = ratio
    ((observedAmong baselineIr usedBaseline).length +
      (observedAmong optimizedIr usedOptimized).length)
    ((observedAmong baselineIr baselineIr.order).length +
      (observedAmong optimizedIr optimizedIr.order).length)
  uncrossed : PlainIds baselineIr → PlainIds optimizedIr →
    selected.Pairwise (Uncrossed baselineIr optimizedIr)

theorem FitsPair.fitsCandidate {p : CandidatePair}
    (h : FitsPair baselineIr optimizedIr schema model config p) :
    FitsCandidate baselineIr optimizedIr (.pair p) where
  baseline := singleton_isInfix h.baseline
  optimized := singleton_isInfix h.optimized
  report := by
    rintro q ⟨⟩
    exact h.report

theorem FitsBlock.fitsCandidate {b : CandidateBlock} (h : FitsBlock baselineIr optimizedIr b) :
    FitsCandidate baselineIr optimizedIr (.block b) where
  baseline := h.baseline
  optimized := h.optimized
  report := by rintro q ⟨⟩

theorem weightOfBoth_spec {p : IRNode → Bool} {graph : AlignmentGraph}
    {baselineIds optimizedIds : List String} {n : ℕ}
    (h : weightOfBoth p graph baselineIds optimizedIds = .ok n) :
    n = (baselineIds.filter (graph.baselineIr.holdsAt p)).length +
      (optimizedIds.filter (graph.optimizedIr.holdsAt p)).length := by
  have hweight : ∀ {program : IRProgram} {ids : List String} {w : ℕ},
      weight p program ids = .ok w → w = (ids.filter (program.holdsAt p)).length := by
    intro program ids w hw
    obtain ⟨found, hfound, hw⟩ := bind_eq_ok.1 hw
    rw [← IRProgram.nodesWith_spec hfound]
    exact (pure_eq_ok.1 hw).symm
  obtain ⟨left, hleft, h⟩ := bind_eq_ok.1 h
  obtain ⟨right, hright, h⟩ := bind_eq_ok.1 h
  rw [← pure_eq_ok.1 h, hweight hleft, hweight hright]

/-- The alignment of two programs. -/
theorem alignPrograms_spec
    (h : alignPrograms baselineIr optimizedIr schema model rules config = .ok alignment) :
    ∃ selected usedBaseline usedOptimized,
      IsAlignment baselineIr optimizedIr alignment selected usedBaseline usedOptimized := by
  obtain ⟨⟨pairs, blocks⟩, hgenerate, h⟩ := bind_eq_ok.1 h
  obtain ⟨⟨pairs', blocks'⟩, hrules, h⟩ := bind_eq_ok.1 h
  obtain ⟨graph, hgraph, h⟩ := bind_eq_ok.1 h
  obtain ⟨hpairs, hblocks⟩ := generateAlignmentCandidates_fits hgenerate
  obtain ⟨hpairs, hblocks, hkeys⟩ := applyRealignmentRules_fits hpairs hblocks hrules
  have hgraph := buildAlignmentGraph_spec hgraph
  obtain ⟨best, hbest, h⟩ := bind_eq_ok.1 h
  obtain ⟨coverage, hcoverage, h⟩ := bind_eq_ok.1 h
  obtain rfl := pure_eq_ok.1 h
  obtain ⟨selected, hselects⟩ := bestState_selects hbest
  have hmem : ∀ c ∈ selected, c ∈ allCandidates pairs' blocks' := by
    rw [← hgraph.ofPairs, ← hgraph.ofBlocks]
    exact hselects.mem
  obtain ⟨criticalTotal, -, hcoverage⟩ := bind_eq_ok.1 hcoverage
  obtain ⟨criticalMatched, -, hcoverage⟩ := bind_eq_ok.1 hcoverage
  obtain ⟨total, htotal, hcoverage⟩ := bind_eq_ok.1 hcoverage
  obtain ⟨matched, hmatched, hcoverage⟩ := bind_eq_ok.1 hcoverage
  obtain rfl := pure_eq_ok.1 hcoverage
  have htotal := weightOfBoth_spec htotal
  have hmatched := weightOfBoth_spec hmatched
  rw [hgraph.ofBaseline, hgraph.ofOptimized] at htotal hmatched
  refine ⟨selected, best.usedBaseline, best.usedOptimized, fun c hc => ?_, hselects.pairs,
    hselects.blocks, hselects.apart.imp fun hcd => hcd.baseline,
    hselects.apart.imp fun hcd => hcd.optimized, hselects.baseline, hselects.optimized,
    hselects.baseline_nodup, hselects.optimized_nodup, ?_, ?_, ?_, fun hbaseline hoptimized => ?_⟩
  · have hc := hmem c hc
    rw [allCandidates, List.mem_append, List.mem_map, List.mem_map] at hc
    rcases hc with ⟨b, hb, rfl⟩ | ⟨p, hp, rfl⟩
    · exact (hblocks b hb).fitsCandidate
    · exact (hpairs p hp).fitsCandidate
  · rw [← hgraph.ofBaseline]
  · rw [← hgraph.ofOptimized]
  · show ratio matched total = _
    rw [htotal, hmatched]
    rfl
  · have hids := idsTellApart_of_plainIds hbaseline hoptimized hpairs hblocks hkeys
    exact hselects.apart.imp_of_mem fun hc hd hcd =>
      uncrossed_of_apart hgraph hids (hmem _ hc) (hmem _ hd) hcd

/-- The aligned nodes are those that the selected candidates use. -/
theorem mem_alignedNodes {n : String} :
    (n ∈ (alignedNodes (pairsOf selected) (blocksOf selected)).1 ↔
      n ∈ selected.flatMap Candidate.baselineIds) ∧
    (n ∈ (alignedNodes (pairsOf selected) (blocksOf selected)).2 ↔
      n ∈ selected.flatMap Candidate.optimizedIds) := by
  induction selected with
  | nil => simp [alignedNodes, pairsOf, blocksOf]
  | cons c cs ih =>
    simp only [alignedNodes, List.mem_append] at ih ⊢
    cases c with
    | pair p =>
      simp only [pairsOf_pair, blocksOf_pair, List.map_cons, List.mem_cons, or_assoc, ih.1, ih.2,
        List.flatMap_cons, List.mem_append, Candidate.baselineIds, Candidate.optimizedIds,
        alignedPair, List.not_mem_nil, false_or, and_self]
    | block b =>
      simp only [pairsOf_block, blocksOf_block, List.flatMap_cons, List.mem_append, or_left_comm,
        ih.1, ih.2, Candidate.baselineIds, Candidate.optimizedIds, alignedBlock, and_self]

end FloWeaver.Align

/-!
## What a proof rests on

The verdict `proved` needs that no check finds a violation, that every required node is aligned,
that no critical node is left over, and that hardly any observed node is.
-/

namespace FloWeaver.Align

open Py Ir

variable {baselineIr optimizedIr : IRProgram} {schema : CounterexampleObservationSchema}
variable {model : ResourceModel} {alignment : ProvisionalAlignment}

/-- What the check has established about an alignment. -/
structure IsProved (baselineIr optimizedIr : IRProgram) (schema : CounterexampleObservationSchema)
    (alignment : ProvisionalAlignment) : Prop where
  blocks : ∀ block ∈ alignment.alignedBlocks,
    signature baselineIr block.baselineNodeIds = signature optimizedIr block.optimizedNodeIds
  pairs : ∀ pair ∈ alignment.alignedPairs, isCompatible pair.observationCompatibility false = true
  traceBaseline : ∀ n ∈ baselineIr.order, baselineIr.holdsAt (isRequiredTrace schema) n = true →
    n ∈ (alignedNodes alignment.alignedPairs alignment.alignedBlocks).1
  traceOptimized : ∀ n ∈ optimizedIr.order, optimizedIr.holdsAt (isRequiredTrace schema) n = true →
    n ∈ (alignedNodes alignment.alignedPairs alignment.alignedBlocks).2
  finalBaseline : ∀ n ∈ baselineIr.order, baselineIr.holdsAt (isRequiredFinal schema) n = true →
    n ∈ (alignedNodes alignment.alignedPairs alignment.alignedBlocks).1
  finalOptimized : ∀ n ∈ optimizedIr.order, optimizedIr.holdsAt (isRequiredFinal schema) n = true →
    n ∈ (alignedNodes alignment.alignedPairs alignment.alignedBlocks).2
  criticalBaseline : ∀ n ∈ alignment.unmatchedBaselineNodes,
    baselineIr.holdsAt isCritical n = false
  criticalOptimized : ∀ n ∈ alignment.unmatchedOptimizedNodes,
    optimizedIr.holdsAt isCritical n = false
  observable : 0.999 ≤ alignment.coverage.observableRatio

/-! ## The single checks -/

/-- A block without a violation keeps the observations. -/
theorem signature_of_no_violation {block : AlignedBlock}
    (h : blockViolations baselineIr optimizedIr block = .ok []) :
    signature baselineIr block.baselineNodeIds = signature optimizedIr block.optimizedNodeIds := by
  obtain ⟨leftSig, hleft, h⟩ := bind_eq_ok.1 h
  obtain ⟨rightSig, hright, h⟩ := bind_eq_ok.1 h
  rw [← blockObservationSignature_spec hleft, ← blockObservationSignature_spec hright]
  split_ifs at h with hstutter hsome hdiffer
  · cases h
  · rw [not_or, not_not, not_not] at hsome
    rw [hsome.1, hsome.2]
  · cases h
  · exact not_not.1 hdiffer

/-- A pair without a violation is compatible. -/
theorem isCompatible_of_no_violation {pair : AlignedPair} (h : pairViolations pair = []) :
    isCompatible pair.observationCompatibility false = true := by
  by_contra hnot
  rw [pairViolations, if_neg hnot] at h
  cases h

/-- Required nodes that are not listed as unmatched are aligned. -/
theorem mem_of_filter_isEmpty {required aligned : List String}
    (h : (required.filter fun n => !aligned.contains n).isEmpty = true) :
    ∀ n ∈ required, n ∈ aligned := by
  intro n hn
  by_contra hnot
  have hmem : n ∈ required.filter fun n => !aligned.contains n :=
    List.mem_filter.2 ⟨hn, by simpa using hnot⟩
  rw [List.isEmpty_iff.1 h] at hmem
  cases hmem

/-- The nodes with a property are aligned when none of them is unmatched. -/
theorem mem_aligned_of_nodesWith {program : IRProgram} {p : IRNode → Bool}
    {required aligned : List String} (hrequired : program.nodesWith p program.order = .ok required)
    (h : (required.filter fun n => !aligned.contains n).isEmpty = true) :
    ∀ n ∈ program.order, program.holdsAt p n = true → n ∈ aligned := by
  intro n hn hholds
  refine mem_of_filter_isEmpty h n ?_
  rw [IRProgram.nodesWith_spec hrequired]
  exact List.mem_filter.2 ⟨hn, hholds⟩

theorem not_holdsAt_of_nodesWith {program : IRProgram} {p : IRNode → Bool}
    {nodeIds found : List String} (hfound : program.nodesWith p nodeIds = .ok found)
    (h : found.isEmpty = true) : ∀ n ∈ nodeIds, program.holdsAt p n = false := by
  intro n hn
  by_contra hholds
  have hmem : n ∈ found := by
    rw [IRProgram.nodesWith_spec hfound]
    exact List.mem_filter.2 ⟨hn, Bool.not_eq_false _ ▸ hholds⟩
  rw [List.isEmpty_iff.1 h] at hmem
  cases hmem

/-! ## The verdict -/

/-- The verdict is `proved` only without violations. -/
theorem checkRelationalConsistency_proved {obligations : List ProofObligation}
    {violations : List AlignmentViolation}
    (h : checkRelationalConsistency baselineIr optimizedIr schema alignment model =
      .ok (obligations, violations, .proved)) :
    violations = [] ∧ IsProved baselineIr optimizedIr schema alignment := by
  obtain ⟨ofBlocks, hblocks, h⟩ := bind_eq_ok.1 h
  obtain ⟨ofCleanups, -, h⟩ := bind_eq_ok.1 h
  obtain ⟨traceBaseline, htraceBaseline, h⟩ := bind_eq_ok.1 h
  obtain ⟨traceOptimized, htraceOptimized, h⟩ := bind_eq_ok.1 h
  obtain ⟨finalBaseline, hfinalBaseline, h⟩ := bind_eq_ok.1 h
  obtain ⟨finalOptimized, hfinalOptimized, h⟩ := bind_eq_ok.1 h
  obtain ⟨ofEffects, -, h⟩ := bind_eq_ok.1 h
  obtain ⟨ofRules, -, h⟩ := bind_eq_ok.1 h
  obtain ⟨ofTargets, -, h⟩ := bind_eq_ok.1 h
  obtain ⟨criticalBaseline, hcriticalBaseline, h⟩ := bind_eq_ok.1 h
  obtain ⟨criticalOptimized, hcriticalOptimized, h⟩ := bind_eq_ok.1 h
  obtain ⟨-, h⟩ := Prod.mk.inj (pure_eq_ok.1 h)
  obtain ⟨hviolations, hverdict⟩ := Prod.mk.inj h
  split_ifs at hverdict with hsome hproved hpartial
  obtain ⟨⟨hobservable, -⟩, hrisk⟩ := (Bool.and_eq_true_iff.1 hproved).imp_left
    Bool.and_eq_true_iff.1
  simp only [Bool.not_eq_true', Bool.or_eq_false_iff, Bool.not_eq_false', Bool.and_eq_true]
    at hrisk
  obtain ⟨⟨⟨htb, hto⟩, hfb, hfo⟩, hcb, hco⟩ := hrisk
  rw [Bool.not_eq_true', Bool.not_eq_false, List.isEmpty_iff] at hsome
  have hempty := List.mapIdx_eq_nil_iff.1 hsome
  simp only [List.append_eq_nil_iff] at hempty
  obtain ⟨⟨⟨⟨⟨hofBlocks, hofPairs⟩, -⟩, -⟩, -⟩, -⟩ := hempty
  refine ⟨hviolations.symm.trans hsome, ?_, ?_, ?_, ?_, ?_, ?_, ?_, ?_, ?_⟩
  · intro block hblock
    obtain ⟨row, hrow, hviolation⟩ := mem_mapM_of_ok hblocks hblock
    rw [List.flatten_eq_nil_iff.1 hofBlocks row hrow] at hviolation
    exact signature_of_no_violation hviolation
  · intro pair hpair
    exact isCompatible_of_no_violation (List.flatMap_eq_nil_iff.1 hofPairs pair hpair)
  · exact mem_aligned_of_nodesWith htraceBaseline htb
  · exact mem_aligned_of_nodesWith htraceOptimized hto
  · exact mem_aligned_of_nodesWith hfinalBaseline hfb
  · exact mem_aligned_of_nodesWith hfinalOptimized hfo
  · exact not_holdsAt_of_nodesWith hcriticalBaseline hcb
  · exact not_holdsAt_of_nodesWith hcriticalOptimized hco
  · exact of_decide_eq_true hobservable

/-- Without violations the alignment map has every pair and block. -/
theorem materializeAlignmentMap_of_no_violations (obligations : List ProofObligation) :
    (materializeAlignmentMap alignment obligations []).nodeAlignments = alignment.alignedPairs ∧
      (materializeAlignmentMap alignment obligations []).blockAlignments =
        alignment.alignedBlocks :=
  ⟨List.filter_eq_self.2 fun _ _ => rfl, List.filter_eq_self.2 fun _ _ => rfl⟩

end FloWeaver.Align
