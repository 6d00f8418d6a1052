import FloWeaver.Align.Verify
import FloWeaver.Ir.Program
import FloWeaver.Trace.Compare

/-!
# Replay artifacts

The programs, the model of the resources, the alignment and the observation schema are written as
dicts and read again.  A reader takes a default for a missing key and converts what it finds.

* `readTexts`, `readRecords`, `readEntries` — the readers of lists and dicts, and what they undo.
* `IRProgram.fromDict_toDict`, `ResourceModel.fromDict_toDict` — what always survives.
* `AlignmentMap.survives_iff` — an alignment survives when no relation is the empty text.
* `CounterexampleObservationSchema.survives_iff` — a schema survives when its comparison is the
  one that its own version and whitelist give.
-/

namespace FloWeaver.Ir

open Py

/-! ## Readers -/

section Readers

variable {α : Type}

/-- `[str(item) for item in v]`. -/
def readTexts (v : Val) : Except PyErr (List String) := do
  return (← v.needItems).map Val.pyStr

/-- `[read(dict(item)) for item in v]`. -/
def readRecords (read : Dict → Except PyErr α) (v : Val) : Except PyErr (List α) := do
  (← v.needItems).mapM fun item => do read (← toDict item)

/-- `{str(key): read(value) for key, value in dict(v).items()}`. -/
def readEntries (read : Val → Except PyErr α) (v : Val) : Except PyErr (OrderedDict String α) := do
  let rows ← (← toDict v).mapM fun row => do return (row.1, ← read row.2)
  return .ofList rows

/-- `str(v) if v is not None else None`. -/
def readOptional : Val → Option String
  | .none => none
  | v => some v.pyStr

def writeTexts (texts : List String) : Val := .list (texts.map .str)

def writeRecords (write : α → Dict) (records : List α) : Val :=
  .list (records.map fun record => .dict (write record))

def writeEntries (write : α → Val) (entries : OrderedDict String α) : Val :=
  .dict (entries.rows.map fun row => (row.1, write row.2))

def writeOptional : Option String → Val
  | none => .none
  | some text => .str text

theorem pyStr_str (text : String) : (Val.str text).pyStr = text := rfl

theorem get?_nil (key : String) : Dict.get? [] key = none := rfl

@[simp] theorem readTexts_writeTexts (texts : List String) :
    readTexts (writeTexts texts) = .ok texts := by
  have hpyStr : Val.pyStr ∘ Val.str = id := rfl
  simp [readTexts, writeTexts, Val.needItems, hpyStr, bind, Except.bind, pure, Except.pure]

theorem ok_bind {β : Type} (a : α) (f : α → Except PyErr β) :
    (Except.ok a >>= f) = f a := rfl

theorem toDict_dict (rows : Dict) : toDict (.dict rows) = .ok rows := rfl

/-- What is read from what is written, one for one. -/
theorem mapM_map_eq_ok {β γ : Type} {w : α → β} {r : β → Except PyErr γ} {f : α → γ}
    {l : List α} (h : ∀ a ∈ l, r (w a) = .ok (f a)) :
    (l.map w).mapM r = .ok (l.map f) := by
  induction l with
  | nil => rfl
  | cons a rest ih =>
    rw [List.map_cons, List.mapM_cons, h a List.mem_cons_self,
      ih fun b hb => h b (List.mem_cons_of_mem _ hb)]
    rfl

theorem readRecords_writeRecords {read : Dict → Except PyErr α} {write : α → Dict}
    {records : List α} (h : ∀ record ∈ records, read (write record) = .ok record) :
    readRecords read (writeRecords write records) = .ok records := by
  have hitems := mapM_map_eq_ok (w := fun record => Val.dict (write record))
    (r := fun item => do read (← toDict item)) (f := id) h
  rw [List.map_id] at hitems
  exact hitems

theorem readEntries_writeEntries {read : Val → Except PyErr α} {write : α → Val}
    {entries : OrderedDict String α}
    (h : ∀ value ∈ entries.values, read (write value) = .ok value) :
    readEntries read (writeEntries write entries) = .ok entries := by
  have hrows := mapM_map_eq_ok (w := fun row : String × α => (row.1, write row.2))
    (r := fun row => do return (row.1, ← read row.2)) (f := id) (l := entries.rows)
    fun row hrow => by rw [h row.2 (List.mem_map_of_mem hrow)]; rfl
  rw [List.map_id] at hrows
  have hdict : toDict (writeEntries write entries) =
      .ok (entries.rows.map fun row => (row.1, write row.2)) := rfl
  rw [readEntries, hdict, ok_bind, hrows, ok_bind]
  have hentries : OrderedDict.ofList entries.rows = entries := by
    cases entries with
    | mk rows nodup =>
      rw [OrderedDict.mk.injEq]
      exact OrderedDict.rows_ofList nodup
  rw [hentries]
  rfl

@[simp] theorem readOptional_none : readOptional .none = none := rfl

@[simp] theorem readOptional_writeOptional (text : Option String) :
    readOptional (writeOptional text) = text := by
  cases text <;> rfl

end Readers

/-! ## Programs -/

def IRSummary.toDict (summary : IRSummary) : Dict :=
  [("provider", .str summary.provider), ("op", .str summary.op), ("target", .str summary.target),
    ("phase", .str summary.phase), ("params", .dict summary.params),
    ("emits_observation", .bool summary.emitsObservation),
    ("resource_effects", writeRecords id summary.resourceEffects),
    ("semantic_updates", .dict summary.semanticUpdates),
    ("exception_category", writeOptional summary.exceptionCategory)]

def IRSummary.fromDict (payload : Dict) : Except PyErr IRSummary := do
  return {
    provider := (payload.getD "provider" (.str "")).pyStr
    op := (payload.getD "op" (.str "")).pyStr
    target := (payload.getD "target" (.str "")).pyStr
    phase := (payload.getD "phase" (.str "")).pyStr
    params := ← Ir.toDict (payload.getD "params" (.dict []))
    emitsObservation := (payload.getD "emits_observation" (.bool true)).truthy
    resourceEffects := ← readRecords .ok (payload.getD "resource_effects" (.list []))
    semanticUpdates := ← Ir.toDict (payload.getD "semantic_updates" (.dict []))
    exceptionCategory := readOptional (payload.get "exception_category") }

@[simp] theorem IRSummary.fromDict_toDict (summary : IRSummary) :
    IRSummary.fromDict summary.toDict = .ok summary := by
  have heffects : readRecords .ok (writeRecords id summary.resourceEffects) =
      .ok summary.resourceEffects := readRecords_writeRecords fun _ _ => rfl
  simp [IRSummary.fromDict, IRSummary.toDict, Dict.getD, Dict.get, Dict.get?_cons, heffects,
    Val.truthy, ok_bind, toDict_dict, pyStr_str]

def IRNode.toDict (node : IRNode) : Dict :=
  [("node_id", .str node.nodeId), ("summary", .dict node.summary.toDict),
    ("successors", writeTexts node.successors), ("metadata", .dict node.metadata)]

def IRNode.fromDict (payload : Dict) : Except PyErr IRNode := do
  return {
    nodeId := (payload.getD "node_id" (.str "")).pyStr
    summary := ← IRSummary.fromDict (← Ir.toDict (payload.getD "summary" (.dict [])))
    successors := ← readTexts (payload.getD "successors" (.list []))
    metadata := ← Ir.toDict (payload.getD "metadata" (.dict [])) }

@[simp] theorem IRNode.fromDict_toDict (node : IRNode) :
    IRNode.fromDict node.toDict = .ok node := by
  simp [IRNode.fromDict, IRNode.toDict, Dict.getD, Dict.get?_cons, ok_bind, toDict_dict, pyStr_str]

def IRProgram.toDict (program : IRProgram) : Dict :=
  [("program_id", .str program.programId),
    ("nodes", writeEntries (fun node => .dict node.toDict) program.nodes),
    ("entry_node", writeOptional program.entryNode), ("exit_node", writeOptional program.exitNode),
    ("order", writeTexts program.order)]

def IRProgram.fromDict (payload : Dict) : Except PyErr IRProgram := do
  return {
    programId := (payload.getD "program_id" (.str "")).pyStr
    nodes := ← readEntries (fun node => do IRNode.fromDict (← Ir.toDict node))
      (payload.getD "nodes" (.dict []))
    entryNode := readOptional (payload.get "entry_node")
    exitNode := readOptional (payload.get "exit_node")
    order := ← readTexts (payload.getD "order" (.list [])) }

/-- A program survives. -/
theorem IRProgram.fromDict_toDict (program : IRProgram) :
    IRProgram.fromDict program.toDict = .ok program := by
  have hnodes : readEntries (fun node => do IRNode.fromDict (← Ir.toDict node))
      (writeEntries (fun node => .dict node.toDict) program.nodes) = .ok program.nodes :=
    readEntries_writeEntries fun node _ => IRNode.fromDict_toDict node
  simp [IRProgram.fromDict, IRProgram.toDict, Dict.getD, Dict.get, Dict.get?_cons,
    hnodes, ok_bind, pyStr_str]

/-! ## Resources -/

def ResourceRule.toDict (rule : ResourceRule) : Dict :=
  [("resource_kind", .str rule.resourceKind), ("acquire_ops", writeTexts rule.acquireOps),
    ("release_ops", writeTexts rule.releaseOps), ("forbid_overlap", .bool rule.forbidOverlap),
    ("must_release", .bool rule.mustRelease), ("required_before", writeTexts rule.requiredBefore)]

def ResourceRule.fromDict (payload : Dict) : Except PyErr ResourceRule := do
  return {
    resourceKind := (payload.getD "resource_kind" (.str "")).pyStr
    acquireOps := ← readTexts (payload.getD "acquire_ops" (.list []))
    releaseOps := ← readTexts (payload.getD "release_ops" (.list []))
    forbidOverlap := (payload.getD "forbid_overlap" (.bool false)).truthy
    mustRelease := (payload.getD "must_release" (.bool false)).truthy
    requiredBefore := ← readTexts (payload.getD "required_before" (.list [])) }

@[simp] theorem ResourceRule.fromDict_toDict (rule : ResourceRule) :
    ResourceRule.fromDict rule.toDict = .ok rule := by
  simp [ResourceRule.fromDict, ResourceRule.toDict, Dict.getD, Dict.get?_cons,
    Val.truthy, ok_bind, pyStr_str]

end FloWeaver.Ir

namespace FloWeaver.Artifacts

open Py Ir

/-- The model of the resources, with what the alignment does not read. -/
structure ResourceModel extends Ir.ResourceModel where
  lifecycleBoundaries : OrderedDict String (List String) := .empty
  overlapConstraints : OrderedDict String Dict := .empty

def ResourceModel.toDict (model : ResourceModel) : Dict :=
  [("rules", writeEntries (fun rule => .dict rule.toDict) model.rules),
    ("lifecycle_boundaries", writeEntries writeTexts model.lifecycleBoundaries),
    ("overlap_constraints", writeEntries .dict model.overlapConstraints)]

def ResourceModel.fromDict (payload : Dict) : Except PyErr ResourceModel := do
  return {
    rules := ← readEntries (fun rule => do ResourceRule.fromDict (← Ir.toDict rule))
      (payload.getD "rules" (.dict []))
    lifecycleBoundaries := ← readEntries readTexts (payload.getD "lifecycle_boundaries" (.dict []))
    overlapConstraints := ← readEntries Ir.toDict (payload.getD "overlap_constraints" (.dict [])) }

/-- A model of the resources survives. -/
theorem ResourceModel.fromDict_toDict (model : ResourceModel) :
    ResourceModel.fromDict model.toDict = .ok model := by
  have hrules : readEntries (fun rule => do ResourceRule.fromDict (← Ir.toDict rule))
      (writeEntries (fun rule => .dict rule.toDict) model.rules) = .ok model.rules :=
    readEntries_writeEntries fun rule _ => ResourceRule.fromDict_toDict rule
  have hboundaries : readEntries readTexts (writeEntries writeTexts model.lifecycleBoundaries) =
      .ok model.lifecycleBoundaries :=
    readEntries_writeEntries fun texts _ => readTexts_writeTexts texts
  have hconstraints : readEntries Ir.toDict (writeEntries .dict model.overlapConstraints) =
      .ok model.overlapConstraints := readEntries_writeEntries fun _ _ => rfl
  simp [ResourceModel.fromDict, ResourceModel.toDict, Dict.getD, Dict.get?_cons, hrules,
    hboundaries, hconstraints, ok_bind]

end FloWeaver.Artifacts

namespace FloWeaver.Align

open Py Ir

/-! ## Alignments -/

-- `floatText q` is `repr(q)`
variable (floatText : ℚ → String)

def AlignedPair.toDict (pair : AlignedPair) : Dict :=
  [("baseline_node_id", .str pair.baselineNodeId), ("optimized_node_id", .str pair.optimizedNodeId),
    ("relation", .str pair.relation),
    ("confidence", .float pair.confidence (floatText pair.confidence)),
    ("supporting_rule", writeOptional pair.supportingRule),
    ("semantic_compatibility", .dict pair.semanticCompatibility),
    ("observation_compatibility", .dict pair.observationCompatibility),
    ("resource_compatibility", .dict pair.resourceCompatibility)]

def AlignedPair.fromDict (payload : Dict) : Except PyErr AlignedPair := do
  let relation := payload.getD "relation" (payload.getD "source_rule" (.str "EXACT"))
  return {
    baselineNodeId := (payload.getD "baseline_node_id" (.str "")).pyStr
    optimizedNodeId := (payload.getD "optimized_node_id" (.str "")).pyStr
    relation := (relation.or (.str "EXACT")).pyStr
    confidence := ← (payload.getD "confidence" (.float 0 "0.0")).toFloat
    supportingRule :=
      (readOptional (payload.get "supporting_rule")).or (readOptional (payload.get "source_rule"))
    semanticCompatibility := ← Ir.toDict (payload.getD "semantic_compatibility" (.dict []))
    observationCompatibility := ← Ir.toDict (payload.getD "observation_compatibility" (.dict []))
    resourceCompatibility := ← Ir.toDict (payload.getD "resource_compatibility" (.dict [])) }

/-- A relation that is the empty text is read as an exact one. -/
theorem AlignedPair.fromDict_toDict (pair : AlignedPair) :
    AlignedPair.fromDict (pair.toDict floatText) =
      .ok { pair with relation := if pair.relation = "" then "EXACT" else pair.relation } := by
  have hrelation : ((Val.str pair.relation).or (.str "EXACT")).pyStr =
      if pair.relation = "" then "EXACT" else pair.relation := by
    by_cases h : pair.relation = "" <;> simp [Val.or, Val.truthy, Val.pyStr, h]
  simp [AlignedPair.fromDict, AlignedPair.toDict, Dict.getD, Dict.get, Dict.get?_cons, Val.toFloat,
    hrelation, ok_bind, toDict_dict, pyStr_str, get?_nil]

def AlignedBlock.toDict (block : AlignedBlock) : Dict :=
  [("baseline_node_ids", writeTexts block.baselineNodeIds),
    ("optimized_node_ids", writeTexts block.optimizedNodeIds), ("relation", .str block.relation),
    ("confidence", .float block.confidence (floatText block.confidence)),
    ("supporting_rules", writeTexts block.supportingRules)]

def AlignedBlock.fromDict (payload : Dict) : Except PyErr AlignedBlock := do
  return {
    baselineNodeIds := ← readTexts (payload.getD "baseline_node_ids" (.list []))
    optimizedNodeIds := ← readTexts (payload.getD "optimized_node_ids" (.list []))
    relation := (payload.getD "relation" (.str "SERIAL_EQ")).pyStr
    confidence := ← (payload.getD "confidence" (.float 0 "0.0")).toFloat
    supportingRules := ← readTexts (payload.getD "supporting_rules" (.list [])) }

theorem AlignedBlock.fromDict_toDict (block : AlignedBlock) :
    AlignedBlock.fromDict (block.toDict floatText) = .ok block := by
  simp [AlignedBlock.fromDict, AlignedBlock.toDict, Dict.getD, Dict.get?_cons,
    Val.toFloat, ok_bind, pyStr_str]

def SuspiciousRegion.toDict (region : SuspiciousRegion) : Dict :=
  [("region_id", .str region.regionId), ("baseline_node_ids", writeTexts region.baselineNodeIds),
    ("optimized_node_ids", writeTexts region.optimizedNodeIds), ("reason", .str region.reason),
    ("severity", .float region.severity (floatText region.severity))]

def SuspiciousRegion.fromDict (payload : Dict) : Except PyErr SuspiciousRegion := do
  return {
    regionId := (payload.getD "region_id" (.str "")).pyStr
    baselineNodeIds := ← readTexts (payload.getD "baseline_node_ids" (.list []))
    optimizedNodeIds := ← readTexts (payload.getD "optimized_node_ids" (.list []))
    reason := (payload.getD "reason" (.str "")).pyStr
    severity := ← (payload.getD "severity" (.float 0 "0.0")).toFloat }

theorem SuspiciousRegion.fromDict_toDict (region : SuspiciousRegion) :
    SuspiciousRegion.fromDict (region.toDict floatText) = .ok region := by
  simp [SuspiciousRegion.fromDict, SuspiciousRegion.toDict, Dict.getD, Dict.get?_cons,
    Val.toFloat, ok_bind, pyStr_str]

def AlignmentMap.toDict (alignmentMap : AlignmentMap) : Dict :=
  [("node_alignments", writeRecords (AlignedPair.toDict floatText) alignmentMap.nodeAlignments),
    ("block_alignments", writeRecords (AlignedBlock.toDict floatText) alignmentMap.blockAlignments),
    ("unmatched_baseline_nodes", writeTexts alignmentMap.unmatchedBaselineNodes),
    ("unmatched_optimized_nodes", writeTexts alignmentMap.unmatchedOptimizedNodes),
    ("suspicious_regions",
      writeRecords (SuspiciousRegion.toDict floatText) alignmentMap.suspiciousRegions)]

/-- A block of the older format: two lists of ids. -/
def readBlockPair (v : Val) : Except PyErr AlignedBlock := do
  match ← v.needItems with
  | [left, right] =>
      return {
        baselineNodeIds := ← readTexts left
        optimizedNodeIds := ← readTexts right
        relation := "SERIAL_EQ"
        confidence := 3 / 4 }
  | _ => .error .valueError

def AlignmentMap.fromDict (payload : Dict) : Except PyErr AlignmentMap := do
  if (payload.get? "node_alignments").isSome || (payload.get? "block_alignments").isSome then
    return {
      nodeAlignments :=
        ← readRecords AlignedPair.fromDict (payload.getD "node_alignments" (.list []))
      blockAlignments :=
        ← readRecords AlignedBlock.fromDict (payload.getD "block_alignments" (.list []))
      unmatchedBaselineNodes :=
        ← readTexts (payload.getD "unmatched_baseline_nodes" (.list []))
      unmatchedOptimizedNodes :=
        ← readTexts (payload.getD "unmatched_optimized_nodes" (.list []))
      suspiciousRegions :=
        ← readRecords SuspiciousRegion.fromDict (payload.getD "suspicious_regions" (.list [])) }
  else
    return {
      nodeAlignments := ← readRecords AlignedPair.fromDict (payload.getD "node_pairs" (.list []))
      blockAlignments := ← (← (payload.getD "block_pairs" (.list [])).needItems).mapM readBlockPair
      unmatchedBaselineNodes := ← readTexts (payload.getD "unmatched_baseline" (.list []))
      unmatchedOptimizedNodes := ← readTexts (payload.getD "unmatched_optimized" (.list []))
      suspiciousRegions :=
        ← readRecords SuspiciousRegion.fromDict (payload.getD "suspicious_regions" (.list [])) }

/-- What comes back of a pair. -/
def readBack (pair : AlignedPair) : AlignedPair :=
  { pair with relation := if pair.relation = "" then "EXACT" else pair.relation }

theorem AlignmentMap.fromDict_toDict (alignmentMap : AlignmentMap) :
    AlignmentMap.fromDict (alignmentMap.toDict floatText) =
      .ok { alignmentMap with nodeAlignments := alignmentMap.nodeAlignments.map readBack } := by
  have hpairs : readRecords AlignedPair.fromDict
      (writeRecords (AlignedPair.toDict floatText) alignmentMap.nodeAlignments) =
      .ok (alignmentMap.nodeAlignments.map readBack) :=
    mapM_map_eq_ok fun pair _ => AlignedPair.fromDict_toDict floatText pair
  have hblocks : readRecords AlignedBlock.fromDict
      (writeRecords (AlignedBlock.toDict floatText) alignmentMap.blockAlignments) =
      .ok alignmentMap.blockAlignments :=
    readRecords_writeRecords fun block _ => AlignedBlock.fromDict_toDict floatText block
  have hregions : readRecords SuspiciousRegion.fromDict
      (writeRecords (SuspiciousRegion.toDict floatText) alignmentMap.suspiciousRegions) =
      .ok alignmentMap.suspiciousRegions :=
    readRecords_writeRecords fun region _ => SuspiciousRegion.fromDict_toDict floatText region
  simp [AlignmentMap.fromDict, AlignmentMap.toDict, Dict.getD, Dict.get?_cons, hpairs, hblocks,
    hregions, ok_bind]

theorem readBack_eq_iff {pair : AlignedPair} : readBack pair = pair ↔ pair.relation ≠ "" := by
  rw [readBack, AlignedPair.mk.injEq]
  by_cases h : pair.relation = ""
  · simp [h]
  · simp [h]

/-- An alignment survives when no relation is the empty text. -/
theorem AlignmentMap.survives_iff (alignmentMap : AlignmentMap) :
    AlignmentMap.fromDict (alignmentMap.toDict floatText) = .ok alignmentMap ↔
      ∀ pair ∈ alignmentMap.nodeAlignments, pair.relation ≠ "" := by
  rw [AlignmentMap.fromDict_toDict, Except.ok.injEq]
  have hpairs : ({ alignmentMap with
      nodeAlignments := alignmentMap.nodeAlignments.map readBack } : AlignmentMap) =
      alignmentMap ↔ alignmentMap.nodeAlignments.map readBack = alignmentMap.nodeAlignments := by
    cases alignmentMap
    simp
  have hsame : alignmentMap.nodeAlignments.map readBack = alignmentMap.nodeAlignments ↔
      ∀ pair ∈ alignmentMap.nodeAlignments, readBack pair = pair := by
    conv_lhs => rhs; rw [← List.map_id alignmentMap.nodeAlignments]
    exact List.map_inj_left
  rw [hpairs, hsame]
  exact forall₂_congr fun pair _ => readBack_eq_iff

end FloWeaver.Align

namespace FloWeaver.Artifacts

open Py Ir Trace

/-! ## Observation schemas -/

/-- The observation schema, with what the alignment does not read. -/
structure CounterexampleObservationSchema extends Ir.CounterexampleObservationSchema where
  canonicalizationVersion : String := "v1"
  equivalenceWhitelist : List Val := []
  ignoredAnchorOps : List String := []
  traceCompareConfig : TraceCompareConfig := {}
  resourceProtocolRules : OrderedDict String Dict := .empty

def ruleToDict (rule : EquivalenceRule) : Dict :=
  [("policy", .str rule.policy), ("ops", writeTexts rule.ops), ("group_key", .str rule.groupKey),
    ("scope", writeTexts rule.scope)]

/-- What is written of a comparison. -/
def configToDict (schema : CounterexampleObservationSchema) : Dict :=
  [("canonicalization_version", .str schema.traceCompareConfig.canonicalizationVersion),
    ("equivalence_whitelist", .list schema.equivalenceWhitelist),
    ("equivalence_rules", writeRecords ruleToDict schema.traceCompareConfig.equivalenceRules),
    ("commutable_ops", writeTexts (sortedSet schema.traceCompareConfig.commutableOps))]

namespace CounterexampleObservationSchema

def toDict (schema : CounterexampleObservationSchema) : Dict :=
  [("semantic_ops", writeTexts schema.semanticOps),
    ("canonicalization_version", .str schema.canonicalizationVersion),
    ("required_state_writes", writeTexts schema.requiredStateWrites),
    ("required_final_state", .dict schema.requiredFinalState),
    ("equivalence_whitelist", .list schema.equivalenceWhitelist),
    ("anchor_ops", writeTexts schema.anchorOps),
    ("ignored_anchor_ops", writeTexts schema.ignoredAnchorOps),
    ("trace_compare_config", .dict (configToDict schema)),
    ("resource_protocol_rules", writeEntries .dict schema.resourceProtocolRules)]

/-- The comparison is not read: it is made again from the version and the whitelist. -/
def fromDict (payload : Dict) : Except PyErr CounterexampleObservationSchema := do
  let canonicalizationVersion := (payload.getD "canonicalization_version" (.str "v1")).pyStr
  let equivalenceWhitelist ← (payload.getD "equivalence_whitelist" (.list [])).needItems
  return {
    semanticOps := ← readTexts (payload.getD "semantic_ops" (.list []))
    canonicalizationVersion := canonicalizationVersion
    requiredStateWrites := ← readTexts (payload.getD "required_state_writes" (.list []))
    requiredFinalState := ← Ir.toDict (payload.getD "required_final_state" (.dict []))
    equivalenceWhitelist := equivalenceWhitelist
    anchorOps := ← readTexts (payload.getD "anchor_ops" (.list []))
    ignoredAnchorOps := ← readTexts (payload.getD "ignored_anchor_ops" (.list []))
    traceCompareConfig := fromObservation canonicalizationVersion equivalenceWhitelist
    resourceProtocolRules :=
      ← readEntries Ir.toDict (payload.getD "resource_protocol_rules" (.dict [])) }

theorem fromDict_toDict (schema : CounterexampleObservationSchema) :
    fromDict schema.toDict = .ok { schema with
      traceCompareConfig :=
        fromObservation schema.canonicalizationVersion schema.equivalenceWhitelist } := by
  have hrules : readEntries Ir.toDict (writeEntries .dict schema.resourceProtocolRules) =
      .ok schema.resourceProtocolRules := readEntries_writeEntries fun _ _ => rfl
  simp [fromDict, toDict, Dict.getD, Dict.get?_cons, Val.needItems, hrules, ok_bind, toDict_dict,
    pyStr_str]

end CounterexampleObservationSchema

/-- Two comparisons with the same fields; the operations and the volatile keys are sets. -/
structure SameConfig (config config' : TraceCompareConfig) : Prop where
  canonicalizationVersion : config.canonicalizationVersion = config'.canonicalizationVersion
  commutableOps : ∀ op, op ∈ config.commutableOps ↔ op ∈ config'.commutableOps
  volatileParamKeys : ∀ key, key ∈ config.volatileParamKeys ↔ key ∈ config'.volatileParamKeys
  equivalenceRules : config.equivalenceRules = config'.equivalenceRules
  parallelActionScopes : config.parallelActionScopes = config'.parallelActionScopes

/-- Two schemas with the same fields. -/
structure SameSchema (schema schema' : CounterexampleObservationSchema) : Prop where
  semanticOps : schema.semanticOps = schema'.semanticOps
  canonicalizationVersion : schema.canonicalizationVersion = schema'.canonicalizationVersion
  requiredStateWrites : schema.requiredStateWrites = schema'.requiredStateWrites
  requiredFinalState : schema.requiredFinalState = schema'.requiredFinalState
  equivalenceWhitelist : schema.equivalenceWhitelist = schema'.equivalenceWhitelist
  anchorOps : schema.anchorOps = schema'.anchorOps
  ignoredAnchorOps : schema.ignoredAnchorOps = schema'.ignoredAnchorOps
  traceCompareConfig : SameConfig schema.traceCompareConfig schema'.traceCompareConfig
  resourceProtocolRules : schema.resourceProtocolRules = schema'.resourceProtocolRules

namespace CounterexampleObservationSchema

/-- What is read from what was written is the schema itself. -/
def Survives (schema : CounterexampleObservationSchema) : Prop :=
  ∃ decoded, fromDict schema.toDict = .ok decoded ∧ SameSchema decoded schema

/-- A schema survives when its comparison is the one that is made again. -/
theorem survives_iff (schema : CounterexampleObservationSchema) :
    schema.Survives ↔
      SameConfig (fromObservation schema.canonicalizationVersion schema.equivalenceWhitelist)
        schema.traceCompareConfig := by
  rw [Survives, fromDict_toDict]
  constructor
  · rintro ⟨decoded, hdecoded, hsame⟩
    obtain rfl := Except.ok.inj hdecoded
    exact hsame.traceCompareConfig
  · exact fun hconfig => ⟨_, rfl, rfl, rfl, rfl, rfl, rfl, rfl, rfl, hconfig, rfl⟩

end CounterexampleObservationSchema

/-! ## The artifacts of a replay -/

section Replay

open CounterexampleObservationSchema

variable (floatText : ℚ → String)

/-- The artifacts of a replay survive when no pair of nodes has the empty text as its relation, and
the comparison of the schema is the one that its own version and whitelist give. -/
theorem artifacts_survive_iff (program : IRProgram) (model : ResourceModel)
    (alignmentMap : Align.AlignmentMap) (schema : CounterexampleObservationSchema) :
    (IRProgram.fromDict program.toDict = .ok program ∧
        ResourceModel.fromDict model.toDict = .ok model ∧
        Align.AlignmentMap.fromDict (alignmentMap.toDict floatText) = .ok alignmentMap ∧
        schema.Survives) ↔
      (∀ pair ∈ alignmentMap.nodeAlignments, pair.relation ≠ "") ∧
        SameConfig (fromObservation schema.canonicalizationVersion schema.equivalenceWhitelist)
          schema.traceCompareConfig := by
  rw [survives_iff, Align.AlignmentMap.survives_iff]
  constructor
  · rintro ⟨-, -, hpairs, hconfig⟩
    exact ⟨hpairs, hconfig⟩
  · rintro ⟨hpairs, hconfig⟩
    exact ⟨program.fromDict_toDict, model.fromDict_toDict, hpairs, hconfig⟩

/-- A schema whose comparison lets subscriptions commute. -/
def subscriptionSchema : CounterexampleObservationSchema where
  traceCompareConfig := { commutableOps := ["STATE_WRITE", "COORD_REFRESH", "SUBSCRIBE"] }

def subscription (target : String) : Event where
  provider := "ha"
  op := "SUBSCRIBE"
  target := target

/-- Are two subscriptions in the one order tolerantly equal to them in the other order? -/
def swapTolerated (config : TraceCompareConfig) : Option Bool :=
  (compareTraces id [subscription "a", subscription "b"] [subscription "b", subscription "a"]
    config).toOption.map (·.tolerantEqual)

/-- The comparison of this schema is lost, and with it a verdict. -/
theorem schema_not_survives :
    (¬ ∀ schema : CounterexampleObservationSchema, schema.Survives) ∧
      ∃ decoded, fromDict subscriptionSchema.toDict = .ok decoded ∧
        swapTolerated subscriptionSchema.traceCompareConfig = some true ∧
        swapTolerated decoded.traceCompareConfig = some false := by
  refine ⟨fun hall => ?_, _, fromDict_toDict _, ?_, ?_⟩
  · have hsame := (survives_iff subscriptionSchema).1 (hall subscriptionSchema)
    have hops := (hsame.commutableOps "SUBSCRIBE").2 (by decide)
    exact absurd hops (by decide)
  · decide +kernel
  · decide +kernel

end Replay

end FloWeaver.Artifacts
