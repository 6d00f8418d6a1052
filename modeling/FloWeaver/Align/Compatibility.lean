import FloWeaver.Ir.Program
import FloWeaver.Trace.Compare
import Mathlib.Data.Multiset.AddSub
import Mathlib.Data.Multiset.Basic

/-!
# Compatible nodes

How well a node of one version fits a node of the other one, and what a group of nodes lets one
observe.

* `classifyNode` — the kind of a node.
* `normalizeNode` — the normal form of a node.
* `normalizeIr` — the normal form of a program.
* `semanticCompatibility`, `observationCompatibility`, `resourceCompatibility` — the three reports
  on two nodes.
* `scoreNodeAlignment` — the score of two nodes.
* `blockObservationSignature` — the multiset of observed operations of a group.
* `signature` — the multiset of observed operations of some nodes.
* `signature_perm`, `signature_filter` — it depends on the observed nodes only.
-/

/-!
## Normalised programs

Before two versions are aligned, each is brought into one form: trivial wrappers are dropped, and
the metadata of a node tell what kind of step it is, whether it can be observed, and which
resources it claims.
-/

namespace FloWeaver.Align

open Py Ir
open Trace (normalizeOpName)

/-! ## Nodes -/

def wrapperOps : List String := ["NOOP", "WRAPPER", "PASS"]

def prepareOps : List String := ["ENTRY_SETUP", "BLE_CONNECT", "CLOUD_SESSION_REUSE", "SUBSCRIBE"]

def cleanupOps : List String := ["UNSUBSCRIBE", "BLE_DISCONNECT", "ENTRY_UNLOAD"]

def updateOps : List String := ["STATE_WRITE"]

def actOps : List String := ["BLE_GATT_OP", "CLOUD_HTTP_CALL"]

def criticalKinds : List String := ["ACT", "UPDATE", "CLEANUP"]

/-- `_classify_node`. -/
def classifyNode (op : String) : String :=
  if op = "ENTRY_SETUP" then "INIT"
  else if prepareOps.contains op then "PREPARE"
  else if cleanupOps.contains op then "CLEANUP"
  else if updateOps.contains op then "UPDATE"
  else if actOps.contains op then "ACT"
  else if ["EXCEPTION", "WAIT_STATE"].contains op then "CHECK"
  else "ACT"

/-- `kind:action:key` of one effect. -/
def resourceClaim (summary : IRSummary) (effect : Dict) : String :=
  join ":" [(effect.getD "resource_kind" (.str "generic")).pyStr,
    (effect.getD "action" (.str "")).pyStr, (effect.getD "key" (.str summary.target)).pyStr]

/-- `_resource_claims`. -/
def resourceClaims (summary : IRSummary) : List String :=
  sortedStr (summary.resourceEffects.map (resourceClaim summary))

/-- `provider:op:target`. -/
def traceAnchor (summary : IRSummary) : String :=
  summary.provider ++ ":" ++ summary.op ++ ":" ++ summary.target

/-- `_external_effects`. -/
def externalEffects (summary : IRSummary) (observationBoundary : Bool) : List String :=
  sortedSet ((if observationBoundary then [traceAnchor summary] else []) ++
    if summary.semanticUpdates.isEmpty then []
    else ["semantic:" ++ summary.op ++ ":" ++ summary.target])

/-- `_is_trivial_wrapper`. -/
def isTrivialWrapper (summary : IRSummary) : Bool :=
  wrapperOps.contains summary.op && summary.params.isEmpty && summary.resourceEffects.isEmpty &&
    summary.semanticUpdates.isEmpty && !summary.emitsObservation

/-- `_normalized_phase`. -/
def normalizedPhase (phase : String) : String :=
  let token := upper (strip (if phase = "" then "RUNTIME" else phase))
  if ["SETUP", "RUNTIME", "TEARDOWN"].contains token then token else "RUNTIME"

section Normalize

variable (schema : CounterexampleObservationSchema)

/-- `_normalize_summary`. -/
def normalizeSummary (summary : IRSummary) : IRSummary :=
  let op := normalizeOpName summary.op
  { summary with
    provider := upper summary.provider
    op := op
    target := strip summary.target
    phase := normalizedPhase summary.phase
    emitsObservation := summary.emitsObservation || schema.semanticOps.contains op }

/-- What the normal form says about a node. -/
def nodeMetadata (summary : IRSummary) : Dict :=
  let observationBoundary :=
    summary.emitsObservation || schema.requiredStateWrites.contains summary.target
  [("phase", .str summary.phase),
    ("node_kind", .str (classifyNode summary.op)),
    ("observation_boundary", .bool observationBoundary),
    ("trace_anchor", .str (traceAnchor summary)),
    ("resource_claims", .list ((resourceClaims summary).map .str)),
    ("external_effects", .list ((externalEffects summary observationBoundary).map .str)),
    ("critical_alignment_role", .bool (criticalKinds.contains (classifyNode summary.op)))]

/-- `_normalize_node`. -/
def normalizeNode (node : IRNode) : IRNode :=
  let summary := normalizeSummary schema node.summary
  { nodeId := node.nodeId
    summary := summary
    successors := []
    metadata := node.metadata.update (nodeMetadata schema summary) }

/-! ## Programs -/

/-- The nodes that stay, in order. -/
def normalizedNodes (program : IRProgram) : Except PyErr (List (String × IRNode)) := do
  let rows ← program.order.mapM fun nodeId => do
    return (nodeId, normalizeNode schema (← program.node nodeId))
  return rows.filter fun row => !isTrivialWrapper row.2.summary

/-- `_materialize_successors`: every node is followed by the next one of the order. -/
def materializeSuccessors (nodes : OrderedDict String IRNode) (order : List String) :
    OrderedDict String IRNode :=
  (order.zip (order.tail.map (fun nodeId => [nodeId]) ++ [[]])).foldl
    (fun nodes row => ((nodes.get? row.1).map fun node =>
      nodes.set row.1 { node with successors := row.2 }).getD nodes) nodes

/-- `normalize_ir`. -/
def normalizeIr (program : IRProgram) : Except PyErr IRProgram := do
  let rows ← normalizedNodes schema program
  let order := rows.map (·.1)
  return {
    programId := program.programId
    nodes := materializeSuccessors (.ofList rows) order
    entryNode := order.head?
    exitNode := order.getLast?
    order := order }

end Normalize

end FloWeaver.Align

namespace FloWeaver.Align

open Py Ir

def allowedKindAlignments : List (String × String) :=
  [("INIT", "PREPARE"), ("PREPARE", "INIT"), ("ACT", "UPDATE"), ("UPDATE", "ACT")]

/-- `_metadata_list`. -/
def metadataList (node : IRNode) (key : String) : Except PyErr (List String) := do
  return (← (node.metadata.getD key (.list [])).needItems).map Val.pyStr

/-- `compatible_kinds`. -/
def compatibleKinds (bNode oNode : IRNode) : Bool :=
  let left := bNode.nodeKind ""
  let right := oNode.nodeKind ""
  left = right || allowedKindAlignments.contains (left, right)

/-- `compatible_effects`: the same effects, in any order. -/
def compatibleEffects (left right : List String) : Bool :=
  (left : Multiset String) = (right : Multiset String)

/-- Do two lists have the same members? -/
def sameMembers {α : Type} [DecidableEq α] (l m : List α) : Bool :=
  l.all (m.contains ·) && m.all (l.contains ·)

/-- `compatible_resources`: the same kinds of resources and actions. -/
def compatibleResources (left right : List String) : Bool :=
  sameMembers (left.map fun item => (splitMax item ":" 2).take 2)
    (right.map fun item => (splitMax item ":" 2).take 2)

/-- `str(node.metadata.get("trace_anchor", ""))`. -/
def traceAnchorOf (node : IRNode) : String := (node.metadata.getD "trace_anchor" (.str "")).pyStr

/-- `trace_anchor_compatible`. -/
def traceAnchorCompatible (bNode oNode : IRNode) : Bool :=
  traceAnchorOf bNode = traceAnchorOf oNode || bNode.opTarget = oNode.opTarget

/-- The effects of two nodes agree. -/
def effectsCompatible (bNode oNode : IRNode) : Except PyErr Bool := do
  return compatibleEffects (← metadataList bNode "external_effects")
    (← metadataList oNode "external_effects")

/-- `semantic_compatibility`. -/
def semanticCompatibility (bNode oNode : IRNode) : Except PyErr Dict := do
  let kindCompatible := compatibleKinds bNode oNode
  let phaseCompatible := decide (bNode.summary.phase = oNode.summary.phase)
  let effects ← effectsCompatible bNode oNode
  return [("kind_compatible", .bool kindCompatible), ("phase_compatible", .bool phaseCompatible),
    ("effects_compatible", .bool effects),
    ("compatible", .bool (kindCompatible && phaseCompatible && effects))]

/-- `observation_compatibility`. -/
def observationCompatibility (bNode oNode : IRNode) : Dict :=
  let sameBoundary := bNode.observationBoundary == oNode.observationBoundary
  let sameAnchor := traceAnchorCompatible bNode oNode
  [("same_boundary", .bool sameBoundary), ("same_anchor", .bool sameAnchor),
    ("compatible", .bool (sameBoundary && sameAnchor))]

/-- `resource_compatibility`. -/
def resourceCompatibility (bNode oNode : IRNode) : Except PyErr Dict := do
  let leftClaims ← metadataList bNode "resource_claims"
  let rightClaims ← metadataList oNode "resource_claims"
  return [("baseline_claims", .list (leftClaims.map .str)),
    ("optimized_claims", .list (rightClaims.map .str)),
    ("compatible", .bool (compatibleResources leftClaims rightClaims))]

/-- `bool(report.get("compatible", default))`. -/
def isCompatible (report : Dict) (default : Bool) : Bool :=
  (report.getD "compatible" (.bool default)).truthy

/-- `round(q, 5)`. -/
def roundTo5 (q : ℚ) : ℚ := (Val.roundHalfEven (q * 100000) : ℚ) / 100000

/-- `score_node_alignment`. -/
def scoreNodeAlignment (bNode oNode : IRNode) : Except PyErr ℚ := do
  let effects ← effectsCompatible bNode oNode
  let resources := compatibleResources (← metadataList bNode "resource_claims")
    (← metadataList oNode "resource_claims")
  let points (test : Bool) (value : ℚ) : ℚ := if test then value else 0
  return roundTo5 (points (compatibleKinds bNode oNode) 0.30 +
    points (decide (bNode.summary.phase = oNode.summary.phase)) 0.15 +
    points effects 0.25 + points resources 0.15 +
    points (bNode.observationBoundary == oNode.observationBoundary) 0.10 +
    points (traceAnchorCompatible bNode oNode) 0.05)

/-- The operation and target of a node that can be observed. -/
def observed (node : IRNode) : List (String × String) :=
  if node.observationBoundary then [node.opTarget] else []

/-- `block_observation_signature`. -/
def blockObservationSignature (program : IRProgram) (nodeIds : List String) :
    Except PyErr (Multiset (String × String)) := do
  return ((← nodeIds.mapM program.node).flatMap observed : List (String × String))

end FloWeaver.Align

/-!
## Signatures

What the nodes of a block let one observe, as a multiset that does not depend on their order.
-/

namespace FloWeaver.Align

open Py Ir

variable {program : IRProgram} {nodeIds : List String}

/-- The multiset of observed operations of some nodes; unknown nodes are skipped. -/
def signature (program : IRProgram) (nodeIds : List String) : Multiset (String × String) :=
  ((nodeIds.filterMap program.nodes.get?).flatMap observed : List (String × String))

theorem blockObservationSignature_spec {sig : Multiset (String × String)}
    (h : blockObservationSignature program nodeIds = .ok sig) : sig = signature program nodeIds := by
  obtain ⟨nodes, hnodes, h⟩ := bind_eq_ok.1 h
  rw [signature, ← IRProgram.mapM_node_spec hnodes]
  exact (pure_eq_ok.1 h).symm

theorem signature_append (l m : List String) :
    signature program (l ++ m) = signature program l + signature program m := by
  rw [signature, List.filterMap_append, List.flatMap_append, ← Multiset.coe_add]
  rfl

theorem signature_cons (n : String) (l : List String) :
    signature program (n :: l) = signature program [n] + signature program l :=
  signature_append [n] l

theorem signature_perm {l m : List String} (h : l.Perm m) :
    signature program l = signature program m :=
  Multiset.coe_eq_coe.2 ((h.filterMap _).flatMap_right _)

/-- A node that is not observed adds nothing. -/
theorem signature_singleton_of_not {n : String}
    (h : program.holdsAt IRNode.observationBoundary n = false) : signature program [n] = 0 := by
  cases hnode : program.nodes.get? n with
  | none => simp [signature, hnode]
  | some node =>
    have hnot : node.observationBoundary = false := by simpa [IRProgram.holdsAt, hnode] using h
    simp [signature, hnode, observed, hnot]

/-- Only the observed nodes count. -/
theorem signature_filter (program : IRProgram) (l : List String) :
    signature program (l.filter (program.holdsAt IRNode.observationBoundary)) =
      signature program l := by
  induction l with
  | nil => rfl
  | cons n l ih =>
    rw [List.filter_cons]
    split_ifs with h
    · rw [signature_cons, ih, ← signature_cons]
    · rw [ih, signature_cons n l, signature_singleton_of_not (Bool.not_eq_true _ ▸ h),
        Multiset.zero_add]

end FloWeaver.Align
