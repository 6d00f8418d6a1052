import FloWeaver.Align.Graph
import Mathlib.Data.List.Lex

/-!
# The beam search

The candidates are tried from the best one on.  A state of the beam is a selection so far; a
candidate extends it when it shares no node with the selection and the graph does not exclude it.

* `compatible`, `applyCandidate` — the test of a candidate, and the state with it.
* `beamStep` — one candidate, over the whole beam.
* `searchAlignment` — the best selection, and what it leaves unmatched.
* `Selects` — the candidates that a state has selected.
* `Selects.applyCandidate` — one more candidate.
* `beamStep_selects`, `bestState_selects` — the whole search.
-/

namespace FloWeaver.Align

open Py Ir

structure AlignedPair where
  baselineNodeId : String
  optimizedNodeId : String
  relation : String
  confidence : ℚ
  supportingRule : Option String := none
  semanticCompatibility : Dict := []
  observationCompatibility : Dict := []
  resourceCompatibility : Dict := []

structure AlignedBlock where
  baselineNodeIds : List String
  optimizedNodeIds : List String
  relation : String
  confidence : ℚ
  supportingRules : List String := []

/-- The share of the nodes that are matched. -/
structure Coverage where
  criticalTotal : ℕ
  criticalMatched : ℕ
  criticalRatio : ℚ
  observableTotal : ℕ
  observableMatched : ℕ
  observableRatio : ℚ

structure ProvisionalAlignment where
  alignedPairs : List AlignedPair
  alignedBlocks : List AlignedBlock
  unmatchedBaselineNodes : List String
  unmatchedOptimizedNodes : List String
  coverage : Coverage

/-- A selection of candidates. -/
structure BeamState where
  alignedPairs : List AlignedPair := []
  alignedBlocks : List AlignedBlock := []
  usedBaseline : List String := []
  usedOptimized : List String := []
  selectedCandidateIds : List String := []
  objective : List ℚ := List.replicate 8 0

/-! ## Weights -/

def isCritical (node : IRNode) : Bool := criticalKinds.contains (node.nodeKind "ACT")

def claimsResources (node : IRNode) : Bool := (node.metadata.get "resource_claims").truthy

/-- The number of nodes with a property. -/
def weight (p : IRNode → Bool) (program : IRProgram) (nodeIds : List String) : Except PyErr ℕ := do
  return (← program.nodesWith p nodeIds).length

/-- The number of nodes of both versions with a property. -/
def weightOfBoth (p : IRNode → Bool) (graph : AlignmentGraph) (baselineIds optimizedIds : List String) :
    Except PyErr ℕ := do
  return (← weight p graph.baselineIr baselineIds) + (← weight p graph.optimizedIr optimizedIds)

/-- `_unsupported_leap_penalty`. -/
def unsupportedLeapPenalty (candidate : Candidate) : ℚ :=
  if ["EXACT", "SERIAL_EQ"].contains candidate.relation then 0
  else if candidate.supportingRules.isEmpty then 1 else 0

section Search

variable (graph : AlignmentGraph) (config : AlignmentConfig)

/-- `_candidate_priority`. -/
def candidatePriority (candidate : Candidate) : Except PyErr (List ℚ) := do
  let baselineIds := candidate.baselineIds
  let optimizedIds := candidate.optimizedIds
  let observable ← weightOfBoth IRNode.observationBoundary graph baselineIds optimizedIds
  let resource ← weightOfBoth claimsResources graph baselineIds optimizedIds
  let critical ← weightOfBoth isCritical graph baselineIds optimizedIds
  let lowConfPenalty : ℚ := if candidate.confidence < 0.75 then 1 else 0
  return [observable, resource, critical, candidate.confidence, -lowConfPenalty]

/-! ## One candidate -/

/-- Some edge leads from a candidate to one of the selected ones. -/
def excludedBy (candidateKey : String) (selected : List String) : Bool :=
  selected.any fun other => graph.incompatibilityEdges.contains (candidateKey, other)

/-- `_compatible`. -/
def compatible (candidate : Candidate) (state : BeamState) : Bool :=
  let candidateKey := candidateId candidate
  !overlaps candidate.baselineIds state.usedBaseline &&
    !overlaps candidate.optimizedIds state.usedOptimized &&
    !excludedBy graph candidateKey [candidateKey] &&
    !excludedBy graph candidateKey state.selectedCandidateIds

/-- The pair that a candidate aligns. -/
def alignedPair (p : CandidatePair) : AlignedPair where
  baselineNodeId := p.baselineNodeId
  optimizedNodeId := p.optimizedNodeId
  relation := p.relation
  confidence := p.confidence
  supportingRule := p.supportingRule
  semanticCompatibility := p.semanticCompatibility
  observationCompatibility := p.observationCompatibility
  resourceCompatibility := p.resourceCompatibility

/-- The block that a candidate aligns. -/
def alignedBlock (b : CandidateBlock) : AlignedBlock where
  baselineNodeIds := b.baselineNodeIds
  optimizedNodeIds := b.optimizedNodeIds
  relation := b.relation
  confidence := b.confidence
  supportingRules := b.supportingRules

/-- The priority of a candidate in a state: how many selected candidates it keeps in order, whether
a rule supports it, and whether it should have one. -/
def fullPriority (candidate : Candidate) (state : BeamState) : Except PyErr (List ℚ) := do
  let candidateKey := candidateId candidate
  let inOrder := state.selectedCandidateIds.filter fun other =>
    graph.orderingConsistencyEdges.contains (candidateKey, other)
  let unsupported := ((graph.ruleSupportedEdges.get? candidateKey).getD []).isEmpty
  return (← candidatePriority graph candidate) ++
    [(inOrder.length : ℚ), if unsupported then 0 else 1, -unsupportedLeapPenalty candidate]

/-- `_apply_candidate`; the used nodes and the selected ids are sets. -/
def applyCandidate (candidate : Candidate) (state : BeamState) : Except PyErr BeamState := do
  let priority ← fullPriority graph candidate state
  let (pairs, blocks) := match candidate with
    | .pair p => (state.alignedPairs ++ [alignedPair p], state.alignedBlocks)
    | .block b => (state.alignedPairs, state.alignedBlocks ++ [alignedBlock b])
  return {
    alignedPairs := pairs
    alignedBlocks := blocks
    usedBaseline := candidate.baselineIds ∪ state.usedBaseline
    usedOptimized := candidate.optimizedIds ∪ state.usedOptimized
    selectedCandidateIds := state.selectedCandidateIds.insert (candidateId candidate)
    objective := List.zipWith (· + ·) state.objective priority }

/-! ## The search -/

/-- Every state stays, and every state that the candidate fits is extended; the best ones go on. -/
def beamStep (beam : List BeamState) (candidate : Candidate) :
    Except PyErr (List BeamState) := do
  let extended ← (beam.filter (compatible graph candidate)).mapM (applyCandidate graph candidate)
  return (sortedByDesc (·.objective) (beam ++ extended)).take (max 1 config.beamWidth).toNat

/-- The candidates from the best one on. -/
def sortedCandidates : Except PyErr (List Candidate) := do
  let keyed ← (allCandidates graph.candidatePairs graph.candidateBlocks).mapM fun candidate => do
    return (← candidatePriority graph candidate, candidate)
  return (sortedByDesc (·.1) keyed).map (·.2)

/-- The best state of the last beam. -/
def bestState : Except PyErr BeamState := do
  let beam ← (← sortedCandidates graph).foldlM (beamStep graph config) [{}]
  (firstMaxBy (·.objective) beam).elim (.error .valueError) .ok

/-- `matched / total`, or 1 when there is nothing to match. -/
def ratio (matched total : ℕ) : ℚ := if total = 0 then 1 else matched / total

/-- `_coverage`. -/
def coverage (state : BeamState) : Except PyErr Coverage := do
  let baselineOrder := graph.baselineIr.order
  let optimizedOrder := graph.optimizedIr.order
  let criticalTotal ← weightOfBoth isCritical graph baselineOrder optimizedOrder
  let criticalMatched ← weightOfBoth isCritical graph state.usedBaseline state.usedOptimized
  let observableTotal ←
    weightOfBoth IRNode.observationBoundary graph baselineOrder optimizedOrder
  let observableMatched ←
    weightOfBoth IRNode.observationBoundary graph state.usedBaseline state.usedOptimized
  return {
    criticalTotal, criticalMatched
    criticalRatio := ratio criticalMatched criticalTotal
    observableTotal, observableMatched
    observableRatio := ratio observableMatched observableTotal }

/-- `search_alignment`. -/
def searchAlignment : Except PyErr ProvisionalAlignment := do
  let best ← bestState graph config
  let coverage ← coverage graph best
  return {
    alignedPairs := best.alignedPairs
    alignedBlocks := best.alignedBlocks
    unmatchedBaselineNodes :=
      graph.baselineIr.order.filter fun nodeId => !best.usedBaseline.contains nodeId
    unmatchedOptimizedNodes :=
      graph.optimizedIr.order.filter fun nodeId => !best.usedOptimized.contains nodeId
    coverage := coverage }

end Search

end FloWeaver.Align

/-!
## What the beam selects

Every state of the beam is a selection of candidates: they share no node, and the graph excludes no
two of them.
-/

namespace FloWeaver.Align

open Py Ir

variable {graph : AlignmentGraph} {config : AlignmentConfig}

/-! ## Selections -/

/-- The pairs among some candidates. -/
def pairsOf (selected : List Candidate) : List AlignedPair :=
  selected.filterMap fun
    | .pair p => some (alignedPair p)
    | .block _ => none

/-- The blocks among some candidates. -/
def blocksOf (selected : List Candidate) : List AlignedBlock :=
  selected.filterMap fun
    | .pair _ => none
    | .block b => some (alignedBlock b)

@[simp] theorem pairsOf_pair (p : CandidatePair) (cs : List Candidate) :
    pairsOf (.pair p :: cs) = alignedPair p :: pairsOf cs := rfl

@[simp] theorem pairsOf_block (b : CandidateBlock) (cs : List Candidate) :
    pairsOf (.block b :: cs) = pairsOf cs := rfl

@[simp] theorem blocksOf_pair (p : CandidatePair) (cs : List Candidate) :
    blocksOf (.pair p :: cs) = blocksOf cs := rfl

@[simp] theorem blocksOf_block (b : CandidateBlock) (cs : List Candidate) :
    blocksOf (.block b :: cs) = alignedBlock b :: blocksOf cs := rfl

/-- The second candidate shares no node with the first one, and the graph does not exclude it. -/
structure Apart (graph : AlignmentGraph) (first second : Candidate) : Prop where
  baseline : List.Disjoint first.baselineIds second.baselineIds
  optimized : List.Disjoint first.optimizedIds second.optimizedIds
  edge : (candidateId second, candidateId first) ∉ graph.incompatibilityEdges

/-- The candidates that a state has selected, in order. -/
structure Selects (graph : AlignmentGraph) (selected : List Candidate) (state : BeamState) :
    Prop where
  mem : ∀ c ∈ selected, c ∈ allCandidates graph.candidatePairs graph.candidateBlocks
  pairs : state.alignedPairs = pairsOf selected
  blocks : state.alignedBlocks = blocksOf selected
  baseline : ∀ n, n ∈ state.usedBaseline ↔ n ∈ selected.flatMap Candidate.baselineIds
  optimized : ∀ n, n ∈ state.usedOptimized ↔ n ∈ selected.flatMap Candidate.optimizedIds
  baseline_nodup : state.usedBaseline.Nodup
  optimized_nodup : state.usedOptimized.Nodup
  ids : ∀ key, key ∈ state.selectedCandidateIds ↔ key ∈ selected.map candidateId
  alone : ∀ c ∈ selected, (candidateId c, candidateId c) ∉ graph.incompatibilityEdges
  apart : selected.Pairwise (Apart graph)

theorem selects_nil (graph : AlignmentGraph) : Selects graph [] {} where
  mem := by simp
  pairs := rfl
  blocks := rfl
  baseline := by simp
  optimized := by simp
  baseline_nodup := .nil
  optimized_nodup := .nil
  ids := by simp
  alone := by simp
  apart := .nil

/-! ## One candidate -/

theorem not_overlaps_iff {left right : List String} :
    overlaps left right = false ↔ List.Disjoint left right := by
  rw [overlaps, List.any_eq_false]
  simp only [List.contains_iff_mem]
  rfl

theorem not_excludedBy_iff {key : String} {selected : List String} :
    excludedBy graph key selected = false ↔
      ∀ other ∈ selected, (key, other) ∉ graph.incompatibilityEdges := by
  rw [excludedBy, List.any_eq_false]
  simp only [List.contains_iff_mem]

/-- What the test of a candidate says. -/
theorem compatible_iff {candidate : Candidate} {state : BeamState} :
    compatible graph candidate state = true ↔
      List.Disjoint candidate.baselineIds state.usedBaseline ∧
      List.Disjoint candidate.optimizedIds state.usedOptimized ∧
      (candidateId candidate, candidateId candidate) ∉ graph.incompatibilityEdges ∧
      ∀ other ∈ state.selectedCandidateIds,
        (candidateId candidate, other) ∉ graph.incompatibilityEdges := by
  simp only [compatible, Bool.and_eq_true, Bool.not_eq_true', not_overlaps_iff,
    not_excludedBy_iff, List.forall_mem_singleton, and_assoc]

/-- A candidate that passes the test extends the selection. -/
theorem Selects.applyCandidate {selected : List Candidate} {candidate : Candidate}
    {state state' : BeamState} (h : Selects graph selected state)
    (hmem : candidate ∈ allCandidates graph.candidatePairs graph.candidateBlocks)
    (hcompatible : compatible graph candidate state = true)
    (hstep : applyCandidate graph candidate state = .ok state') :
    Selects graph (selected ++ [candidate]) state' := by
  obtain ⟨hbaseline, hoptimized, halone, hothers⟩ := compatible_iff.1 hcompatible
  obtain ⟨priority, -, hstep⟩ := bind_eq_ok.1 hstep
  obtain rfl := pure_eq_ok.1 hstep
  have hapart : ∀ c ∈ selected, Apart graph c candidate := by
    intro c hc
    refine ⟨fun n hn hn' => ?_, fun n hn hn' => ?_, ?_⟩
    · exact hbaseline hn' ((h.baseline n).2 (List.mem_flatMap.2 ⟨c, hc, hn⟩))
    · exact hoptimized hn' ((h.optimized n).2 (List.mem_flatMap.2 ⟨c, hc, hn⟩))
    · exact hothers _ ((h.ids _).2 (List.mem_map_of_mem hc))
  refine ⟨?_, ?_, ?_, fun n => ?_, fun n => ?_, h.baseline_nodup.union _,
    h.optimized_nodup.union _, fun key => ?_, ?_, ?_⟩
  · intro c hc
    rcases List.mem_append.1 hc with hc | hc
    · exact h.mem c hc
    · exact List.mem_singleton.1 hc ▸ hmem
  · cases candidate with
    | pair p => simp [pairsOf, h.pairs]
    | block b => simp [pairsOf, h.pairs]
  · cases candidate with
    | pair p => simp [blocksOf, h.blocks]
    | block b => simp [blocksOf, h.blocks]
  · simp only [List.mem_union_iff, h.baseline, List.flatMap_append, List.mem_append,
      List.flatMap_singleton]
    exact or_comm
  · simp only [List.mem_union_iff, h.optimized, List.flatMap_append, List.mem_append,
      List.flatMap_singleton]
    exact or_comm
  · simp only [List.mem_insert_iff, h.ids, List.map_append, List.mem_append, List.map_singleton,
      List.mem_singleton]
    exact or_comm
  · intro c hc
    rcases List.mem_append.1 hc with hc | hc
    · exact h.alone c hc
    · exact List.mem_singleton.1 hc ▸ halone
  · rw [List.pairwise_append]
    exact ⟨h.apart, List.pairwise_singleton _ _, fun c hc d hd =>
      List.mem_singleton.1 hd ▸ hapart c hc⟩

/-! ## The whole search -/

/-- Every state of the beam is a selection. -/
def BeamSelects (graph : AlignmentGraph) (beam : List BeamState) : Prop :=
  ∀ state ∈ beam, ∃ selected, Selects graph selected state

theorem beamStep_selects {beam beam' : List BeamState} {candidate : Candidate}
    (hmem : candidate ∈ allCandidates graph.candidatePairs graph.candidateBlocks)
    (hbeam : BeamSelects graph beam) (h : beamStep graph config beam candidate = .ok beam') :
    BeamSelects graph beam' := by
  obtain ⟨extended, hextended, h⟩ := bind_eq_ok.1 h
  obtain rfl := pure_eq_ok.1 h
  intro state hstate
  have hstate := mem_sortedByDesc.1 (List.mem_of_mem_take hstate)
  rcases List.mem_append.1 hstate with hstate | hstate
  · exact hbeam state hstate
  · obtain ⟨old, hold, happly⟩ := mem_of_mapM_ok hextended state hstate
    obtain ⟨hold, hcompatible⟩ := List.mem_filter.1 hold
    obtain ⟨selected, hselected⟩ := hbeam old hold
    exact ⟨selected ++ [candidate], hselected.applyCandidate hmem hcompatible happly⟩

/-- Only candidates are tried. -/
theorem mem_sortedCandidates {candidates : List Candidate}
    (h : sortedCandidates graph = .ok candidates) : ∀ c ∈ candidates,
      c ∈ allCandidates graph.candidatePairs graph.candidateBlocks := by
  obtain ⟨keyed, hkeyed, h⟩ := bind_eq_ok.1 h
  obtain rfl := pure_eq_ok.1 h
  intro c hc
  obtain ⟨row, hrow, rfl⟩ := List.mem_map.1 hc
  obtain ⟨candidate, hcandidate, hkey⟩ := mem_of_mapM_ok hkeyed row (mem_sortedByDesc.1 hrow)
  obtain ⟨priority, -, hkey⟩ := bind_eq_ok.1 hkey
  obtain rfl := pure_eq_ok.1 hkey
  exact hcandidate

/-- The best state is a selection. -/
theorem bestState_selects {state : BeamState} (h : bestState graph config = .ok state) :
    ∃ selected, Selects graph selected state := by
  obtain ⟨candidates, hcandidates, h⟩ := bind_eq_ok.1 h
  obtain ⟨beam, hbeam, h⟩ := bind_eq_ok.1 h
  have hselects : BeamSelects graph beam := by
    refine foldlM_ok_induction (P := BeamSelects graph) ?_ ?_ hbeam
    · intro state hstate
      exact ⟨[], List.mem_singleton.1 hstate ▸ selects_nil graph⟩
    · intro beam c beam' hc hold hstep
      exact beamStep_selects (mem_sortedCandidates hcandidates c hc) hold hstep
  cases hbest : firstMaxBy (·.objective) beam with
  | none => simp [hbest] at h
  | some best =>
    rw [hbest] at h
    obtain rfl := Except.ok.inj h
    exact hselects best (mem_of_firstMaxBy hbest)

end FloWeaver.Align
