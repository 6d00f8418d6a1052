import FloWeaver.Contracts
import FloWeaver.Lib.Grouped
import FloWeaver.Py.Sort

/-!
# The gate of the profile builder

A rule of the profile cites evidence, and the gate enables it when the evidence bank supports it:
the markers it needs are detected, its effect is one the program knows, and the code, tests and
documents behind it are enough.  Frequencies and weights are exact rationals.

* `EvidenceBank`, `EvidenceBank.byId` — the evidence, and its rows by id.
* `supportCounts` — how much evidence there is for a marker, by its channel.
* `matchabilityReasons`, `effectSpecificGate`, `modalityGate`, `semanticLevelGate` — the checks.
* `runDeterministicGate` — which rules are enabled.
-/

namespace FloWeaver.Profile

open Py

/-! ## Evidence -/

/-- A sentence of the documentation. -/
structure DocEvidence where
  evidenceId : String
  sourcePath : String
  normativeStrength : String := "INFO"
  specificity : String := "GENERIC"
  sourceType : String := "doc"
  typedAnchor : String := "UNKNOWN"
  semanticLevel : String := "POLICY"

/-- A pattern in the code; the extractors write a frequency of one at least. -/
structure CodeEvidence where
  evidenceId : String
  pattern : String
  frequency : ℤ := 1
  sourceType : String := "code"
  typedAnchor : String := "UNKNOWN"
  signalStrength : String := "AST_STRONG"
  effectiveTypedAnchor : Option String := none
  semanticLevel : String := "RUNTIME"
  frequency_pos : 1 ≤ frequency := by decide

/-- A pattern in the tests; the extractors write a frequency of one at least. -/
structure TestEvidence where
  evidenceId : String
  pattern : String
  frequency : ℤ := 1
  sourceType : String := "test"
  protocolHypothesis : Option String := none
  semanticLevel : String := "BEHAVIOR"
  frequency_pos : 1 ≤ frequency := by decide

structure EvidenceBank where
  docs : List DocEvidence := []
  code : List CodeEvidence := []
  tests : List TestEvidence := []

/-- What the gate reads in a row of `by_id`; a missing frequency reads as one, and a missing signal
strength as the empty text. -/
structure EvidenceRow where
  sourceType : String
  semanticLevel : String
  frequency : ℤ := 1
  signalStrength : String := ""

def DocEvidence.row (doc : DocEvidence) : EvidenceRow where
  sourceType := doc.sourceType
  semanticLevel := doc.semanticLevel

def CodeEvidence.row (code : CodeEvidence) : EvidenceRow where
  sourceType := code.sourceType
  semanticLevel := code.semanticLevel
  frequency := code.frequency
  signalStrength := code.signalStrength

def TestEvidence.row (test : TestEvidence) : EvidenceRow where
  sourceType := test.sourceType
  semanticLevel := test.semanticLevel
  frequency := test.frequency

/-- The rows under their ids; of two rows with one id the later one counts. -/
def EvidenceBank.byId (bank : EvidenceBank) : OrderedDict String EvidenceRow :=
  .ofList (bank.docs.map (fun doc => (doc.evidenceId, doc.row)) ++
    bank.code.map (fun code => (code.evidenceId, code.row)) ++
    bank.tests.map (fun test => (test.evidenceId, test.row)))

/-- A rule with the evidence it cites. -/
structure CitedRule extends Rule where
  title : String := ""
  evidenceIds : List String := []
  matchPattern : Dict := []
  effect : Dict := []

/-! ## Support -/

/-- The fields of a bucket of counts. -/
inductive Channel where
  | code
  | test
  | doc
  | codeStrong
deriving DecidableEq

abbrev Counts := OrderedDict String (Channel → ℚ)

def docPolicyMarkerSupport : List (String × List String) :=
  [("DOC_ENTRY_SETUP_POLICY", ["ENTRY_SETUP"]), ("DOC_ENTRY_UNLOAD_POLICY", ["ENTRY_UNLOAD"]),
    ("DOC_COORD_REFRESH_POLICY", ["COORD_REFRESH"]),
    ("DOC_SUBSCRIBE_PAIRING_POLICY", ["SUBSCRIBE", "UNSUBSCRIBE"]),
    ("DOC_STATE_UPDATE_POLICY", ["STATE_WRITE"]),
    ("DOC_RETRY_BACKOFF_POLICY", ["CLOUD_429_CHECK", "CLOUD_BACKOFF_SLEEP"]),
    ("DOC_CLOUD_BATCH_POLICY", ["CLOUD_BATCH_CALL"]), ("DOC_CLOUD_API_POLICY", ["CLOUD_HTTP_CALL"]),
    ("DOC_CLOUD_SESSION_POLICY", ["CLOUD_SESSION_REUSE"]),
    ("DOC_CLOUD_AUTH_POLICY", ["CLOUD_TOKEN_REFRESH"])]

def testToMarkerHint : List (String × String) :=
  [("TEST_429_RETRY", "CLOUD_429_CHECK"), ("TEST_BACKOFF_SLEEP", "CLOUD_BACKOFF_SLEEP"),
    ("TEST_BATCH_CALL", "CLOUD_BATCH_CALL"), ("TEST_BATCH_UPDATE", "CLOUD_BATCH_CALL"),
    ("TEST_RATE_LIMIT", "CLOUD_429_CHECK"), ("TEST_HTTP_ERROR_RECOVERY", "CLOUD_BACKOFF_SLEEP")]

def codeSignalWeight : List (String × ℚ) :=
  [("AST_STRONG", 1), ("CALL_CHAIN_STRONG", 4 / 5), ("TEXT_WEAK", 7 / 20)]

/-- The markers that a sentence counts for, each as often as it does. -/
def docMarkers (row : DocEvidence) : List String :=
  let path := lower row.sourcePath
  let typedAnchor := upper row.typedAnchor
  let dataUpdate := contains path "docs-data-update"
  let fetchingData := contains path "integration_fetching_data"
  let normative := ["MUST", "SHOULD"].contains (upper row.normativeStrength) &&
    ["PROTOCOL", "FRAMEWORK"].contains (upper row.specificity)
  ((docPolicyMarkerSupport.lookup typedAnchor).getD []) ++
    (if dataUpdate then ["CLOUD_429_CHECK"] else []) ++
    (if fetchingData then ["CLOUD_BACKOFF_SLEEP"] else []) ++
    if normative then
      (if typedAnchor = "CLOUD_429_CHECK" || dataUpdate then ["CLOUD_429_CHECK"] else []) ++
      (if ["CLOUD_BACKOFF_SLEEP", "DOC_RETRY_BACKOFF_POLICY"].contains typedAnchor ||
        fetchingData then ["CLOUD_BACKOFF_SLEEP"] else []) ++
      (if ["CLOUD_BATCH_CALL", "DOC_CLOUD_BATCH_POLICY"].contains typedAnchor ||
        contains path "diagnostics" then ["CLOUD_BATCH_CALL"] else [])
    else []

/-- The first of some texts that is not empty. -/
def firstText (texts : List String) : String := (texts.find? (· ≠ "")).getD ""

/-- The marker of a code pattern. -/
def CodeEvidence.marker (item : CodeEvidence) : String :=
  upper (firstText [item.effectiveTypedAnchor.getD "", item.typedAnchor, item.pattern])

/-- What a code pattern adds to its bucket. -/
def CodeEvidence.amount (item : CodeEvidence) : Channel → ℚ
  | .code => item.frequency * (codeSignalWeight.lookup (upper item.signalStrength)).getD 1
  | .codeStrong => if upper item.signalStrength ≠ "TEXT_WEAK" then item.frequency else 0
  | _ => 0

/-- The marker of a test pattern; without one the test is passed over. -/
def TestEvidence.marker (item : TestEvidence) : String :=
  upper (firstText [item.protocolHypothesis.getD "", (testToMarkerHint.lookup item.pattern).getD ""])

/-- What a test pattern adds to its bucket. -/
def TestEvidence.amount (item : TestEvidence) : Channel → ℚ
  | .test => item.frequency
  | _ => 0

/-- What a sentence adds to the bucket of a marker it counts for. -/
def docAmount : Channel → ℚ
  | .doc => 1
  | _ => 0

/-- The amounts that the evidence adds up under its markers. -/
def supportRows (bank : EvidenceBank) : List (String × (Channel → ℚ)) :=
  bank.code.map (fun item => (item.marker, item.amount)) ++
    (bank.tests.filter (·.marker ≠ "")).map (fun item => (item.marker, item.amount)) ++
    (bank.docs.flatMap docMarkers).map (fun marker => (marker, docAmount))

def supportCounts (bank : EvidenceBank) : Counts :=
  (supportRows bank).foldl OrderedDict.bump .empty

/-! ## Matchability -/

section Checks

variable (counts : Counts) (rule : CitedRule)

def strictProtocolThresholdMarkers : List String :=
  ["CLOUD_429_CHECK", "CLOUD_BACKOFF_SLEEP", "CLOUD_BATCH_CALL", "CLOUD_SESSION_REUSE"]

/-- Is there enough evidence for a marker? -/
def evidenceThresholdMet (marker : String) : Bool :=
  let bucket := counts.valueAt marker
  let store := counts.valueAt "CLOUD_SESSION_STORE"
  let use := counts.valueAt "CLOUD_SESSION_USE"
  if marker = "CLOUD_SESSION_REUSE" then 1 ≤ store .codeStrong && 1 ≤ use .codeStrong
  else if strictProtocolThresholdMarkers.contains marker then
    (1 ≤ bucket .codeStrong && 1 ≤ bucket .test) || 2 ≤ bucket .code ||
      (1 ≤ bucket .codeStrong && 1 ≤ bucket .doc) || (1 ≤ bucket .test && 1 ≤ bucket .doc) ||
      2 ≤ bucket .doc
  else
    1 ≤ bucket .codeStrong || 1 ≤ bucket .code || (1 ≤ bucket .codeStrong && 1 ≤ bucket .test)

/-- The markers that have a bucket and enough evidence. -/
def availableMarkers : List String := counts.keys.filter (evidenceThresholdMet counts)

/-- An aggregate marker stands for all the markers of its protocol. -/
def aggregateMarkerAvailable (marker : String) : Bool :=
  if marker = "BLE_OP" then (availableMarkers counts).any (startsWith · "BLE_")
  else if marker = "CLOUD_OP" then (availableMarkers counts).any (startsWith · "CLOUD_")
  else (availableMarkers counts).contains marker

def aggregateMarkers : List String := ["BLE_OP", "CLOUD_OP"]

/-- The hints of a rule, in capitals. -/
def markerHintsOf : List String :=
  (rule.markerHints.filter (strip · ≠ "")).map fun hint => upper (strip hint)

/-- The pattern that dominates in what a rule matches. -/
def dominantPattern : String := strip (rule.matchPattern.getD "dominant_pattern" (.str "")).pyStr

/-- What keeps the dominant pattern from being matched. -/
def patternReasons : List String :=
  let pattern := dominantPattern rule
  if pattern = "" then []
  else if !aggregateMarkerAvailable counts pattern then
    ["missing_marker:" ++ pattern, "missing_detector:" ++ pattern]
  else if !evidenceThresholdMet counts pattern then ["evidence_count_below_threshold:" ++ pattern]
  else []

/-- What keeps a hint from being matched. -/
def hintReasons (marker : String) : List String :=
  if !aggregateMarkerAvailable counts marker then
    ("missing_marker:" ++ marker) ::
      if aggregateMarkers.contains marker then [] else ["missing_detector:" ++ marker]
  else if !aggregateMarkers.contains marker && !evidenceThresholdMet counts marker then
    ["evidence_count_below_threshold:" ++ marker]
  else []

/-- The reuse of a cloud session needs code that stores the session and code that uses it. -/
def sessionReasons : List String :=
  if rule.ruleId = "rule_protocol_cloud_batch_reuse" then
    ["CLOUD_SESSION_STORE", "CLOUD_SESSION_USE"].flatMap fun marker =>
      if counts.valueAt marker .codeStrong < 1 then ["missing_supporting_evidence:" ++ marker]
      else []
  else []

/-- What keeps a rule from being matched at all. -/
def matchabilityReasons : List String :=
  let reasons := patternReasons counts rule ++
    (sortedSet (markerHintsOf rule)).flatMap (hintReasons counts) ++ sessionReasons counts rule
  if reasons = [] then [] else ("matchability:false" :: reasons).eraseDups

/-! ## Effects -/

def allowedEffectKinds : List String :=
  ["ordering_or_constraint", "lifecycle_required", "retry_policy", "coalesce_state_write"]

/-- An effect of another kind is not supported; a list or a dict has no hash. -/
def effectKindReasons : Except PyErr (List String) :=
  let kind := rule.effect.get "kind"
  if !kind.truthy then .ok []
  else
    match kind with
    | .list _ | .dict _ => .error .typeError
    | .str kind =>
        .ok (if allowedEffectKinds.contains kind then [] else ["effect:unsupported_primitive"])
    | _ => .ok ["effect:unsupported_primitive"]

def clearPairs : List (List String) :=
  [["ENTRY_SETUP", "COORD_REFRESH"], ["COORD_REFRESH", "STATE_WRITE"], ["SUBSCRIBE", "UNSUBSCRIBE"],
    ["UNSUBSCRIBE", "ENTRY_UNLOAD"], ["BLE_CONNECT", "BLE_GATT_OP"],
    ["BLE_GATT_OP", "BLE_DISCONNECT"]]

/-- The markers that an effect or a category needs among the hints. -/
def effectSpecificGate : List String :=
  let effectKind := strip (rule.effect.getD "kind" (.str "")).pyStr
  let hints := markerHintsOf rule
  (if effectKind = "retry_policy" &&
      !(["CLOUD_429_CHECK", "CLOUD_BACKOFF_SLEEP"].any (hints.contains ·)) then
    ["missing_retry_markers"] else []) ++
  (if effectKind = "coalesce_state_write" && !hints.contains "STATE_WRITE" then
    ["missing_state_write_marker"] else []) ++
  if rule.category = "lifecycle" && !clearPairs.any (·.all (hints.contains ·)) then
    ["lifecycle_rule_without_clear_anchor_pair"] else []

/-! ## Modalities -/

/-- The markers that a rule rests on: the concrete ones, or else the aggregate ones. -/
def ruleSupportMarkers : List String :=
  let pattern := upper (dominantPattern rule)
  let ordered := ((if pattern = "" then [] else [pattern]) ++ markerHintsOf rule).eraseDups
  let concrete := ordered.filter (!aggregateMarkers.contains ·)
  if concrete = [] then ordered else concrete

/-- The keys of the buckets that count for a marker. -/
def relatedKeys (marker : String) : List String :=
  let normalized := upper (strip marker)
  if normalized = "BLE_OP" then counts.keys.filter (startsWith · "BLE_")
  else if normalized = "CLOUD_OP" then counts.keys.filter (startsWith · "CLOUD_")
  else [normalized]

/-- The modalities in which there is evidence for a marker. -/
def markerModalities (marker : String) : List String :=
  (relatedKeys counts marker).flatMap fun key =>
    (if 0 < counts.valueAt key .code then ["code"] else []) ++
    (if 0 < counts.valueAt key .test then ["test"] else []) ++
    if 0 < counts.valueAt key .doc then ["doc"] else []

variable (evidenceIndex : OrderedDict String EvidenceRow)

/-- The rows that a rule cites, as far as they are known. -/
def citedRows : List EvidenceRow := rule.evidenceIds.filterMap evidenceIndex.get?

/-- How often the rows were met. -/
def totalFrequency (rows : List EvidenceRow) : ℤ := (rows.map fun row => max 1 row.frequency).sum

/-- Code alone supports a protocol rule that it supports strongly. -/
def strongCodeOnlyProtocolSupport : Bool :=
  let codeRows := (citedRows rule evidenceIndex).filter fun row =>
    lower (strip row.sourceType) = "code"
  let codeFrequency := totalFrequency codeRows
  let runtimeRows := totalFrequency (codeRows.filter fun row =>
    upper (strip row.semanticLevel) = "RUNTIME")
  let strongRows := totalFrequency (codeRows.filter fun row =>
    upper (strip row.signalStrength) ≠ "TEXT_WEAK")
  let supportMarkers := ruleSupportMarkers rule
  let stronglySupported := supportMarkers.countP fun marker =>
    1 ≤ counts.valueAt marker .codeStrong || 2 ≤ counts.valueAt marker .code
  decide (4 ≤ codeFrequency) && decide (⌈(codeFrequency : ℚ) * (3 / 4)⌉ ≤ runtimeRows) &&
    decide (⌈(codeFrequency : ℚ) * (3 / 5)⌉ ≤ strongRows) && !supportMarkers.isEmpty &&
    decide (min 2 supportMarkers.length ≤ stronglySupported)

/-- The modalities of the evidence for a rule. -/
def ruleModalities : List String :=
  (citedRows rule evidenceIndex).map (fun row => lower (strip row.sourceType)) ++
    (ruleSupportMarkers rule).flatMap (markerModalities counts)

/-- A protocol rule needs code, and a second modality or strong code. -/
def modalityGate : List String :=
  let modalities := (ruleModalities counts rule evidenceIndex).dedup
  if rule.category = "protocol" then
    (if "code" ∈ modalities then [] else ["protocol_rule_without_code_support"]) ++
    if modalities.length < 2 && !strongCodeOnlyProtocolSupport counts rule evidenceIndex then
      ["single_modality_support_only"] else []
  else []

/-- A protocol rule needs enough runtime evidence and not too many hints. -/
def semanticLevelGate : List String :=
  let rows := citedRows rule evidenceIndex
  let runtime := rows.countP fun row => upper (strip row.semanticLevel) = "RUNTIME"
  let hint := rows.countP fun row => upper (strip row.semanticLevel) = "HINT"
  if rule.category = "protocol" && 0 < rows.length then
    (if (runtime : ℚ) / rows.length < 2 / 5 then ["insufficient_runtime_support"] else []) ++
    if 1 / 2 < (hint : ℚ) / rows.length then ["hint_support_too_high"] else []
  else []

end Checks

/-! ## The gate -/

/-- What speaks against a rule. -/
def ruleReasons (bank : EvidenceBank) (rule : CitedRule) : Except PyErr (List String) := do
  let evidenceIndex := bank.byId
  let counts := supportCounts bank
  let effect ← effectKindReasons rule
  return (if rule.ruleId = "" || rule.title = "" then ["schema:missing_identity"] else []) ++
    (if rule.evidenceIds = [] then ["schema:missing_evidence"] else []) ++
    (if rule.evidenceIds.any (!evidenceIndex.keys.contains ·) then
      ["evidence_binding:unknown_evidence"] else []) ++
    matchabilityReasons counts rule ++ effect ++ effectSpecificGate rule ++
    modalityGate counts rule evidenceIndex ++ semanticLevelGate rule evidenceIndex

structure GateDecision where
  enabled : List CitedRule := []
  disabled : List CitedRule := []
  reasons : OrderedDict String (List String) := .empty

/-- One rule is enabled when nothing speaks against it. -/
def gateRule (bank : EvidenceBank) (decision : GateDecision) (rule : CitedRule) :
    Except PyErr GateDecision := do
  let reasons ← ruleReasons bank rule
  if reasons = [] then
    return { decision with
      enabled := decision.enabled ++ [{ rule with status := RuleStatus.soft }] }
  else
    return { decision with
      disabled := decision.disabled ++ [{ rule with status := RuleStatus.disabled }]
      reasons := decision.reasons.set rule.ruleId reasons }

def runDeterministicGate (rules : List CitedRule) (bank : EvidenceBank) :
    Except PyErr GateDecision :=
  rules.foldlM (gateRule bank) {}

end FloWeaver.Profile
