import FloWeaver.Align.Compatibility
import FloWeaver.Py.Sort

/-!
# Realignment rules

The rules add blocks for changes that keep the meaning: a swap of independent actions, a setup step
that only one version has, a shared context, a batch of updates.  One rule forbids that a cleanup
moves forward.

* `CandidatePair`, `CandidateBlock`, `Candidate` — the candidates.
* `candidatesOf` — the best partners of one node of the baseline.
* `serialBlocks` — runs of confident pairs that are consecutive in both versions.
* `generateAlignmentCandidates` — the pairs and blocks of two versions.
* `normalizeAlignmentRules` — the names of the rules that are on.
* `collectRows` — the search for blocks over the positions of both versions, up to a limit.
* `applyRealignmentRules` — the candidates after the rules.
-/

/-!
## Candidates

A candidate aligns one node of each version, or a block of nodes of each.
-/

namespace FloWeaver.Align

open Py Ir

structure CandidatePair where
  baselineNodeId : String
  optimizedNodeId : String
  relation : String
  score : ℚ
  confidence : ℚ
  supportingRule : Option String := none
  semanticCompatibility : Dict := []
  observationCompatibility : Dict := []
  resourceCompatibility : Dict := []

structure CandidateBlock where
  baselineNodeIds : List String
  optimizedNodeIds : List String
  relation : String
  confidence : ℚ
  supportingRules : List String := []

inductive Candidate where
  | pair (pair : CandidatePair)
  | block (block : CandidateBlock)

/-- The limits of the search. -/
structure AlignmentConfig where
  maxCandidatePairs : ℤ := 64
  maxRuleApplications : ℤ := 24
  confidenceThreshold : ℚ := 0.55
  highConfidenceThreshold : ℚ := 0.75
  beamWidth : ℤ := 8

/-! ## Pairs -/

/-- `_trace_anchor_score`. -/
def traceAnchorScore (bNode oNode : IRNode) : ℚ :=
  if bNode.summary.target ≠ "" ∧ bNode.summary.target = oNode.summary.target then 0.05 else 0

/-- `_resource_roles`: what an operation does with each kind of resource. -/
def resourceRoles (node : IRNode) (model : ResourceModel) : List (String × String) :=
  let op := node.summary.op
  model.rules.rows.filterMap fun row =>
    if row.2.acquireOps.contains op then some (row.1, "acquire")
    else if row.2.releaseOps.contains op then some (row.1, "release")
    else if row.2.requiredBefore.contains op then some (row.1, "required_before")
    else none

/-- `_is_required_anchor`. -/
def isRequiredAnchor (node : IRNode) (schema : CounterexampleObservationSchema) : Bool :=
  schema.anchorOps.contains node.summary.op || schema.semanticOps.contains node.summary.op ||
    schema.requiredStateWrites.contains node.summary.target || node.observationBoundary

section Generate

variable (baselineIr optimizedIr : IRProgram) (schema : CounterexampleObservationSchema)
variable (model : ResourceModel) (config : AlignmentConfig)

/-- Two nodes that are not compared: their phases or their roles differ, or one of them has to be
observed and the other one is not observed in the same way. -/
def unfit (bNode oNode : IRNode) : Bool :=
  let observable := isCompatible (observationCompatibility bNode oNode) false
  bNode.summary.phase ≠ oNode.summary.phase ||
    resourceRoles bNode model ≠ resourceRoles oNode model ||
    (bNode.observationBoundary && oNode.observationBoundary && !observable) ||
    ((isRequiredAnchor bNode schema || isRequiredAnchor oNode schema) && !observable)

/-- The candidate that two nodes make, if they fit. -/
def candidatePair (baselineNodeId optimizedNodeId : String) :
    Except PyErr (Option CandidatePair) := do
  let bNode ← baselineIr.node baselineNodeId
  let oNode ← optimizedIr.node optimizedNodeId
  let semantic ← semanticCompatibility bNode oNode
  let resource ← resourceCompatibility bNode oNode
  if unfit schema model bNode oNode then return none
  let score ← scoreNodeAlignment bNode oNode
  if score < config.confidenceThreshold then return none
  let score := roundTo5 (score + traceAnchorScore bNode oNode)
  return some {
    baselineNodeId, optimizedNodeId
    relation := "EXACT"
    score := score
    confidence := score
    semanticCompatibility := semantic
    observationCompatibility := observationCompatibility bNode oNode
    resourceCompatibility := resource }

/-- The three best candidates of a node of the baseline. -/
def candidatesOf (baselineNodeId : String) : Except PyErr (List CandidatePair) := do
  let found ← optimizedIr.order.mapM
    (candidatePair baselineIr optimizedIr schema model config baselineNodeId)
  return sliceTo (min 3 config.maxCandidatePairs)
    (sortedByDesc (fun item => toLex (item.score, isCompatible item.observationCompatibility false))
      found.reduceOption)

/-! ## Blocks -/

/-- Does the second pair follow the first one in both versions? -/
def followsPair (prev candidate : CandidatePair) : Bool :=
  baselineIr.order.idxOf candidate.baselineNodeId =
      baselineIr.order.idxOf prev.baselineNodeId + 1 &&
    optimizedIr.order.idxOf candidate.optimizedNodeId =
      optimizedIr.order.idxOf prev.optimizedNodeId + 1

/-- The block of a run of at least two pairs. -/
def serialBlock (run : List CandidatePair) : List CandidateBlock :=
  if 2 ≤ run.length then
    [{ baselineNodeIds := run.map (·.baselineNodeId)
       optimizedNodeIds := run.map (·.optimizedNodeId)
       relation := "SERIAL_EQ"
       confidence := (run.map (·.confidence)).sum / run.length }]
  else []

/-- The blocks of the runs in a sorted list of pairs; `run` is the one that is being read. -/
def serialBlocksFrom (run : List CandidatePair) : List CandidatePair → List CandidateBlock
  | [] => serialBlock run
  | candidate :: rest =>
      match run.getLast? with
      | none => serialBlocksFrom [candidate] rest
      | some prev =>
          if followsPair baselineIr optimizedIr prev candidate then
            serialBlocksFrom (run ++ [candidate]) rest
          else serialBlock run ++ serialBlocksFrom [candidate] rest

/-- The blocks of the confident pairs.  Both nodes of a pair are in the orders, so that both have a
position. -/
def serialBlocks (candidates : List CandidatePair) : List CandidateBlock :=
  serialBlocksFrom baselineIr optimizedIr []
    (sortedBy (fun item => toLex (baselineIr.order.idxOf item.baselineNodeId,
        optimizedIr.order.idxOf item.optimizedNodeId))
      (candidates.filter fun item => !decide (item.confidence < config.highConfidenceThreshold)))

/-- `generate_alignment_candidates`. -/
def generateAlignmentCandidates : Except PyErr (List CandidatePair × List CandidateBlock) := do
  let found ← baselineIr.order.mapM (candidatesOf baselineIr optimizedIr schema model config)
  let candidates := sliceTo config.maxCandidatePairs
    (sortedByDesc (fun item => toLex (item.score, item.confidence)) found.flatten)
  return (candidates, serialBlocks baselineIr optimizedIr config candidates)

end Generate

end FloWeaver.Align

namespace FloWeaver.Align

open Py Ir

/-! ## The rules that are on -/

def defaultAlignmentRules : List String :=
  ["INDEPENDENT_ACT_SWAP", "SETUP_PREFIX_STUTTER", "SHARED_CONTEXT_REUSE",
    "LISTENER_PRESERVING_BATCH", "TEARDOWN_HOISTING_FORBIDDEN"]

/-- `normalize_alignment_rules`. -/
def normalizeAlignmentRules (rules : List String) : List String :=
  (((if rules.isEmpty then defaultAlignmentRules else rules).filter (strip · ≠ "")).map
    fun item => upper (strip item)).eraseDups

/-! ## Reading nodes -/

/-- `_node_kind`. -/
def nodeKind (program : IRProgram) (nodeId : String) : Except PyErr String := do
  return (← program.node nodeId).nodeKind "ACT"

/-- The keys of the claims of a node. -/
def claimKeys (node : IRNode) : Except PyErr (List String) := do
  (← metadataList node "resource_claims").mapM fun item =>
    ((splitMax item ":" 2)[2]?).elim (.error .indexError) .ok

/-- `_resource_conflict`: both nodes claim one key. -/
def resourceConflict (nodeA nodeB : IRNode) : Except PyErr Bool := do
  let claimsA ← claimKeys nodeA
  let claimsB ← claimKeys nodeB
  return claimsA.any (claimsB.contains ·)

/-- `_is_stutter_candidate`. -/
def isStutterCandidate (node : IRNode) : Bool :=
  ["INIT", "PREPARE"].contains (node.nodeKind "") && !node.observationBoundary &&
    node.summary.semanticUpdates.isEmpty && node.summary.resourceEffects.isEmpty

/-- The kinds of the resources a node claims, as a multiset. -/
def claimKinds (node : IRNode) : Except PyErr (Multiset String) := do
  let claims ← (node.metadata.getD "resource_claims" (.list [])).needItems
  let kinds ← claims.mapM fun
    | .str item => .ok (beforeFirst item ":")
    | _ => .error .attributeError
  return (kinds : List String)

/-! ## The search for blocks -/

/-- The blocks found and the number of applications that the limit counts. -/
abbrev Found := List CandidateBlock × ℕ

/-- The blocks at some positions of the optimised version, until the limit is reached. -/
def collect (limit : ℕ) (find : ℕ → Except PyErr (Option CandidateBlock)) :
    List ℕ → Found → Except PyErr Found
  | [], found => .ok found
  | j :: js, found => do
      match ← find j with
      | none => collect limit find js found
      | some block =>
          let found := (found.1 ++ [block], found.2 + 1)
          if limit ≤ found.2 then return found
          collect limit find js found

/-- The same for some positions of the baseline; a position without a search is skipped. -/
def collectRows (limit : ℕ) (row : ℕ → Except PyErr (Option (ℕ → Except PyErr (Option CandidateBlock))))
    (js : List ℕ) : List ℕ → Found → Except PyErr Found
  | [], found => .ok found
  | i :: is, found => do
      match ← row i with
      | none => collectRows limit row js is found
      | some find =>
          let found ← collect limit find js found
          if limit ≤ found.2 then return found
          collectRows limit row js is found

section Rules

variable (baselineIr optimizedIr : IRProgram)
variable (pairLookup : OrderedDict (String × String) CandidatePair)

/-- `order[i:i + n]`. -/
def window (program : IRProgram) (i n : ℕ) : List String := (program.order.drop i).take n

/-- Are all nodes of this kind? -/
def allOfKind (program : IRProgram) (kind : String) (nodeIds : List String) : Except PyErr Bool :=
  nodeIds.allM fun nodeId => do return (← nodeKind program nodeId) = kind

/-- Two neighbouring actions against two actions in the other order. -/
def independentActSwap (bIds : List String) (j : ℕ) : Except PyErr (Option CandidateBlock) := do
  let oIds := window optimizedIr j 2
  if !(← allOfKind optimizedIr "ACT" oIds) then return none
  match bIds, oIds with
  | [b1, b2], [o1, o2] =>
      match pairLookup.get? (b1, o2), pairLookup.get? (b2, o1) with
      | some first, some second =>
          if (← blockObservationSignature baselineIr bIds) ≠
              (← blockObservationSignature optimizedIr oIds) then return none
          return some {
            baselineNodeIds := bIds
            optimizedNodeIds := oIds
            relation := "REORDER_EQ"
            confidence := min first.confidence second.confidence
            supportingRules := ["INDEPENDENT_ACT_SWAP"] }
      | _, _ => return none
  | _, _ => return none

/-- The search for a swap of the two nodes from a position on, if they are independent actions. -/
def independentActRow (i : ℕ) :
    Except PyErr (Option (ℕ → Except PyErr (Option CandidateBlock))) := do
  let bIds := window baselineIr i 2
  if !(← allOfKind baselineIr "ACT" bIds) then return none
  match bIds with
  | [b1, b2] =>
      if ← resourceConflict (← baselineIr.node b1) (← baselineIr.node b2) then return none
      return some (independentActSwap baselineIr optimizedIr pairLookup bIds)
  | _ => return none

/-- `_shared_context_reuse_block`. -/
def sharedContextReuseBlock (i j : ℕ) : Except PyErr (Option CandidateBlock) := do
  match window baselineIr i 4, window optimizedIr j 4 with
  | [b0, b1, b2, b3], [o0, o1, o2, o3] =>
      let bKinds ← [b0, b1, b2, b3].mapM (nodeKind baselineIr)
      let oKinds ← [o0, o1, o2, o3].mapM (nodeKind optimizedIr)
      if bKinds ≠ ["PREPARE", "ACT", "PREPARE", "ACT"] then return none
      if oKinds ≠ ["PREPARE", "ACT", "ACT", "CLEANUP"] then return none
      if (pairLookup.get? (b1, o1)).isNone || (pairLookup.get? (b3, o2)).isNone then return none
      let leftResource ← claimKinds (← baselineIr.node b0)
      let rightResource ← claimKinds (← optimizedIr.node o0)
      if leftResource = 0 ∨ leftResource ≠ rightResource then return none
      return some {
        baselineNodeIds := [b0, b1, b2, b3]
        optimizedNodeIds := [o0, o1, o2, o3]
        relation := "REUSE_EQ"
        confidence := 0.82
        supportingRules := ["SHARED_CONTEXT_REUSE"] }
  | _, _ => return none

/-- A setup step of the optimised version that nothing of the baseline matches. -/
def setupPrefixStutters : Except PyErr (List CandidateBlock) := do
  let nodeIds ← optimizedIr.nodesWith isStutterCandidate optimizedIr.order
  return nodeIds.map fun nodeId =>
    { baselineNodeIds := []
      optimizedNodeIds := [nodeId]
      relation := "STUTTER"
      confidence := 0.80
      supportingRules := ["SETUP_PREFIX_STUTTER"] }

/-- Two neighbouring updates against two neighbouring updates. -/
def listenerPreservingBatch (bIds : List String) (j : ℕ) :
    Except PyErr (Option CandidateBlock) := do
  let oIds := window optimizedIr j 2
  if !(← allOfKind optimizedIr "UPDATE" oIds) then return none
  if (← blockObservationSignature baselineIr bIds) ≠
      (← blockObservationSignature optimizedIr oIds) then return none
  return some {
    baselineNodeIds := bIds
    optimizedNodeIds := oIds
    relation := "BATCH_EQ"
    confidence := 0.78
    supportingRules := ["LISTENER_PRESERVING_BATCH"] }

/-- The batches of the two nodes from a position on. -/
def listenerPreservingRow (i : ℕ) : Except PyErr (List CandidateBlock) := do
  let bIds := window baselineIr i 2
  if !(← allOfKind baselineIr "UPDATE" bIds) then return []
  return (← (List.range (optimizedIr.order.length - 1)).mapM
    (listenerPreservingBatch baselineIr optimizedIr bIds)).reduceOption

/-- A pair does not move a cleanup forward. -/
def keepsTeardown (candidate : CandidatePair) : Except PyErr Bool := do
  let baselineIdx ← baselineIr.index candidate.baselineNodeId
  let optimizedIdx ← optimizedIr.index candidate.optimizedNodeId
  let bKind ← nodeKind baselineIr candidate.baselineNodeId
  let oKind ← nodeKind optimizedIr candidate.optimizedNodeId
  return !(bKind = "CLEANUP" && oKind = "CLEANUP" && optimizedIdx < baselineIdx)

end Rules

/-- What tells two blocks apart. -/
def blockKey (block : CandidateBlock) : List String × List String × String :=
  (block.baselineNodeIds, block.optimizedNodeIds, block.relation)

/-- The first block of each key. -/
def dedupBlocks (blocks : List CandidateBlock) : List CandidateBlock :=
  blocks.foldl (fun kept block =>
    if (kept.map blockKey).contains (blockKey block) then kept else kept ++ [block]) []

/-- What a rule does, if it is on. -/
def ifOn {α : Type} (rules : List String) (rule : String) (run : Except PyErr α) (otherwise : α) :
    Except PyErr α :=
  if rules.contains rule then run else .ok otherwise

/-- `apply_realignment_rules`. -/
def applyRealignmentRules (baselineIr optimizedIr : IRProgram) (candidatePairs : List CandidatePair)
    (candidateBlocks : List CandidateBlock) (rules : List String) (maxRuleApplications : ℤ) :
    Except PyErr (List CandidatePair × List CandidateBlock) := do
  let pairLookup : OrderedDict (String × String) CandidatePair :=
    .ofList (candidatePairs.map fun item => ((item.baselineNodeId, item.optimizedNodeId), item))
  let limit := (max 1 (if maxRuleApplications = 0 then 24 else maxRuleApplications)).toNat
  let bCount := baselineIr.order.length
  let oCount := optimizedIr.order.length
  let swapped ← ifOn rules "INDEPENDENT_ACT_SWAP"
    (collectRows limit (independentActRow baselineIr optimizedIr pairLookup)
      (List.range (oCount - 1)) (List.range (bCount - 1)) (candidateBlocks, 0)) (candidateBlocks, 0)
  let stutters ← ifOn rules "SETUP_PREFIX_STUTTER" (setupPrefixStutters optimizedIr) []
  let before := swapped.1 ++ stutters
  let reused ← ifOn rules "SHARED_CONTEXT_REUSE"
    (collectRows limit
      (fun i => .ok (some (sharedContextReuseBlock baselineIr optimizedIr pairLookup i)))
      (List.range oCount) (List.range bCount) (before, swapped.2)) (before, swapped.2)
  let batches ← ifOn rules "LISTENER_PRESERVING_BATCH"
    ((List.range (bCount - 1)).mapM (listenerPreservingRow baselineIr optimizedIr)) []
  let pairs ← ifOn rules "TEARDOWN_HOISTING_FORBIDDEN"
    (candidatePairs.filterM (keepsTeardown baselineIr optimizedIr)) candidatePairs
  return (pairs, dedupBlocks (reused.1 ++ batches.flatten))

end FloWeaver.Align
