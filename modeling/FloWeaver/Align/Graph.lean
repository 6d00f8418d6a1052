import FloWeaver.Align.Rules

/-!
# The alignment graph

The candidates under their ids, with the pairs of candidates that exclude each other and those that
keep the order of both versions.

* `candidateId` — the id of a candidate.
* `crosses` — two candidates whose spans are in different orders.
* `selfIncompatible` — a candidate that can never be selected.
* `buildAlignmentGraph` — the graph of some candidates.
-/

namespace FloWeaver.Align

open Py Ir

/-! ## Candidates -/

namespace Candidate

/-- `candidate_baseline_ids`. -/
def baselineIds : Candidate → List String
  | pair p => [p.baselineNodeId]
  | block b => b.baselineNodeIds

/-- `candidate_optimized_ids`. -/
def optimizedIds : Candidate → List String
  | pair p => [p.optimizedNodeId]
  | block b => b.optimizedNodeIds

/-- `candidate_supporting_rules`. -/
def supportingRules : Candidate → List String
  | pair p => (p.supportingRule.filter (· ≠ "")).toList
  | block b => b.supportingRules

/-- `candidate_relation`. -/
def relation : Candidate → String
  | pair p => p.relation
  | block b => b.relation

def confidence : Candidate → ℚ
  | pair p => p.confidence
  | block b => b.confidence

end Candidate

/-- `candidate_id`. -/
def candidateId : Candidate → String
  | .pair p => "pair:" ++ p.baselineNodeId ++ "->" ++ p.optimizedNodeId ++ ":" ++ p.relation
  | .block b =>
      "block:" ++ join "," b.baselineNodeIds ++ "=>" ++ join "," b.optimizedNodeIds ++ ":" ++
        b.relation

/-- Some blocks and pairs as candidates. -/
def allCandidates (candidatePairs : List CandidatePair) (candidateBlocks : List CandidateBlock) :
    List Candidate :=
  candidateBlocks.map Candidate.block ++ candidatePairs.map Candidate.pair

/-- Some candidates under their ids; of two with one id the later one stays. -/
def candidatesById (candidates : List Candidate) : OrderedDict String Candidate :=
  .ofList (candidates.map fun candidate => (candidateId candidate, candidate))

/-! ## Spans -/

/-- `_span`: the first and the last position of the nodes that the program has. -/
def span (program : IRProgram) (nodeIds : List String) : Except PyErr (Option (ℕ × ℕ)) := do
  let indices ← (nodeIds.filter fun nodeId => program.nodes.keys.contains nodeId).mapM program.index
  match indices with
  | [] => return none
  | x :: xs => return some (xs.foldl min x, xs.foldl max x)

/-- `_overlaps`. -/
def overlaps (left right : List String) : Bool := left.any (right.contains ·)

/-- The four spans of two candidates, when none is empty. -/
def spans (baselineIr optimizedIr : IRProgram) (left right : Candidate) :
    Except PyErr (Option ((ℕ × ℕ) × (ℕ × ℕ) × (ℕ × ℕ) × (ℕ × ℕ))) := do
  let leftB ← span baselineIr left.baselineIds
  let rightB ← span baselineIr right.baselineIds
  let leftO ← span optimizedIr left.optimizedIds
  let rightO ← span optimizedIr right.optimizedIds
  match leftB, rightB, leftO, rightO with
  | some lb, some rb, some lo, some ro => return some (lb, rb, lo, ro)
  | _, _, _, _ => return none

/-- `_crosses`. -/
def crosses (baselineIr optimizedIr : IRProgram) (left right : Candidate) : Except PyErr Bool := do
  match ← spans baselineIr optimizedIr left right with
  | none => return false
  | some (lb, rb, lo, ro) =>
      return (rb.2 < lb.1 && lo.1 < ro.1) || (lb.2 < rb.1 && ro.2 < lo.2)

/-- `_order_consistent`. -/
def orderConsistent (baselineIr optimizedIr : IRProgram) (left right : Candidate) :
    Except PyErr Bool := do
  match ← spans baselineIr optimizedIr left right with
  | none => return false
  | some (lb, rb, lo, ro) =>
      return (lb.2 < rb.1 && lo.2 < ro.1) || (rb.2 < lb.1 && ro.2 < lo.1)

/-! ## Candidates that exclude themselves -/

section Incompatible

variable (baselineIr optimizedIr : IRProgram) (schema : CounterexampleObservationSchema)
variable (model : ResourceModel)

/-- The roles of one operation, one for each rule and role. -/
def rolesOfOp (op : String) : List (String × String) :=
  model.rules.rows.flatMap fun row =>
    (if row.2.acquireOps.contains op then [(row.1, "acquire")] else []) ++
      (if row.2.releaseOps.contains op then [(row.1, "release")] else []) ++
      (if row.2.requiredBefore.contains op then [(row.1, "required_before")] else [])

/-- `_resource_role_multiset`; unknown nodes are skipped. -/
def resourceRoleMultiset (program : IRProgram) (nodeIds : List String) :
    Multiset (String × String) :=
  ((nodeIds.filterMap program.nodes.get?).flatMap fun node => rolesOfOp model node.summary.op :
    List (String × String))

/-- One of the nodes has to be observed. -/
def anyRequiredAnchor (program : IRProgram) (nodeIds : List String) : Except PyErr Bool :=
  nodeIds.anyM fun nodeId => do return isRequiredAnchor (← program.node nodeId) schema

/-- `_self_incompatible`. -/
def selfIncompatible : Candidate → Except PyErr Bool
  | .pair p => do
      if !isCompatible p.observationCompatibility false then
        if ← anyRequiredAnchor schema baselineIr [p.baselineNodeId] then return true
        if ← anyRequiredAnchor schema optimizedIr [p.optimizedNodeId] then return true
      return !isCompatible p.resourceCompatibility true &&
        ! ["REUSE_EQ", "BATCH_EQ"].contains p.relation
  | .block b => do
      let leftSig ← blockObservationSignature baselineIr b.baselineNodeIds
      let rightSig ← blockObservationSignature optimizedIr b.optimizedNodeIds
      if b.relation = "STUTTER" then return !(leftSig = 0 && rightSig = 0)
      if leftSig ≠ rightSig then return true
      let leftRoles := resourceRoleMultiset model baselineIr b.baselineNodeIds
      let rightRoles := resourceRoleMultiset model optimizedIr b.optimizedNodeIds
      if ! ["REUSE_EQ", "BATCH_EQ"].contains b.relation && leftRoles ≠ rightRoles then return true
      return ! ["EXACT", "SERIAL_EQ"].contains b.relation && b.supportingRules.isEmpty

end Incompatible

/-! ## The graph -/

/-- How two candidates stand to each other. -/
inductive CandidateRelation where
  | incompatible
  | consistent
  | unrelated
deriving DecidableEq

/-- The graph; an edge between two candidates is listed in both directions. -/
structure AlignmentGraph where
  baselineIr : IRProgram
  optimizedIr : IRProgram
  candidatePairs : List CandidatePair
  candidateBlocks : List CandidateBlock
  candidates : OrderedDict String Candidate
  incompatibilityEdges : List (String × String)
  orderingConsistencyEdges : List (String × String)
  ruleSupportedEdges : OrderedDict String (List String)

section Build

variable (baselineIr optimizedIr : IRProgram) (schema : CounterexampleObservationSchema)
variable (model : ResourceModel)

/-- Two candidates that share a node or cross cannot both be selected. -/
def relateCandidates (left right : Candidate) : Except PyErr CandidateRelation := do
  if overlaps left.baselineIds right.baselineIds then return .incompatible
  if overlaps left.optimizedIds right.optimizedIds then return .incompatible
  if ← crosses baselineIr optimizedIr left right then return .incompatible
  if ← orderConsistent baselineIr optimizedIr left right then return .consistent
  return .unrelated

/-- What one candidate adds: itself, if it is excluded, and the candidates with greater ids. -/
def candidateEdges (rows : List (String × Candidate)) (left : String × Candidate) :
    Except PyErr (List (String × String × CandidateRelation)) := do
  let itself ← selfIncompatible baselineIr optimizedIr schema model left.2
  let others ← (rows.filter fun right => left.1 < right.1).mapM fun right => do
    return (left.1, right.1, ← relateCandidates baselineIr optimizedIr left.2 right.2)
  return (if itself then [(left.1, left.1, .incompatible)] else []) ++ others

/-- The edges of one kind, in both directions. -/
def edgesOf (kind : CandidateRelation) (edges : List (String × String × CandidateRelation)) :
    List (String × String) :=
  (edges.filter (·.2.2 = kind)).flatMap fun edge => [(edge.1, edge.2.1), (edge.2.1, edge.1)]

/-- `build_alignment_graph`. -/
def buildAlignmentGraph (candidatePairs : List CandidatePair)
    (candidateBlocks : List CandidateBlock) : Except PyErr AlignmentGraph := do
  let candidates := candidatesById (allCandidates candidatePairs candidateBlocks)
  let edges ← candidates.rows.mapM
    (candidateEdges baselineIr optimizedIr schema model candidates.rows)
  return {
    baselineIr, optimizedIr, candidatePairs, candidateBlocks, candidates
    incompatibilityEdges := edgesOf .incompatible edges.flatten
    orderingConsistencyEdges := edgesOf .consistent edges.flatten
    ruleSupportedEdges := .ofList (candidates.rows.map fun row => (row.1, row.2.supportingRules)) }

end Build

end FloWeaver.Align
