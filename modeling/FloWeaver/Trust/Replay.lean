import FloWeaver.Trust.Signals

/-!
# Judging the replays

Every replay runs a scenario on the baseline and on the optimised plan.  A replay whose traces
are not tolerantly equal becomes a counterexample; for some of them, within a budget of cases
and of time, a search looks for a witness.

* `traceCompareConfig` — what a plan and a target allow to be reordered.
* `runTraceCompare` — the verdicts, and the cases that fail.
* `materializeCounterexamples` — the counterexamples of the failing cases.
* `summarizeReplay` — both.
-/

namespace FloWeaver.Trust

open Py Trace
open Scheduler (strList)

/-- A scenario with its two traces. -/
structure ReplayResult where
  scenarioId : String
  baselineTrace : List Event
  optimizedTrace : List Event
  runtimeArtifacts : Dict := []

/-- What the search for a counterexample found: its hint, and its fields as they are stored. -/
structure Witness where
  refinementHint : String
  summary : Dict

/-- The digest, the clock, and the symbolic search over the programs of a replay. -/
structure SearchLayer where
  /-- `hashlib.sha1(text).hexdigest()`. -/
  sha1 : String → String
  /-- Reads the programs, the schema and the models out of the artifacts of a replay. -/
  load : ReplayResult → Option OptimizationTarget → Except PyErr Unit
  /-- `generate_counterexample` on what was read, for the given suspicious regions. -/
  search : ReplayResult → Option OptimizationTarget → List Dict → Except PyErr Witness
  /-- The seconds that have passed before a case of a round is searched. -/
  elapsed : ℕ → ℕ → ℚ

/-! ## Configuration -/

/-- `target.validation.get("observation", {})`. -/
def observation (target : OptimizationTarget) : Except PyErr Dict :=
  (target.validation.getD "observation" (.dict [])).needDict

/-- The configuration of a target, before the plan is looked at. -/
def targetCompareConfig : Option OptimizationTarget → Except PyErr TraceCompareConfig
  | none => .ok {}
  | some target => do
      let observation ← observation target
      let whitelist :=
        match observation.getD "equivalence_whitelist" (.list []) with
        | .list items => items
        | _ => []
      return fromObservation
        (observation.getD "canonicalization_version" (.str "v1")).pyStr whitelist

/-- The sets of actions that a plan runs in parallel. -/
def planScopes (plan : Option MetaPlan) : Except PyErr (List (List String)) :=
  (plan.map fun plan => parallelActionScopes plan.toExecutionPlan).getD (.ok [])

def traceCompareConfig (target : Option OptimizationTarget) (plan : Option MetaPlan) :
    Except PyErr TraceCompareConfig := do
  let config ← targetCompareConfig target
  let scopes ← planScopes plan
  return { config with parallelActionScopes := scopes }

/-- The limits of the search. -/
structure TrustBudget where
  maxCounterexampleCases : ℕ
  maxCounterexampleHunks : ℕ
  counterexampleBudgetSeconds : ℚ

def trustBudget (target : Option OptimizationTarget) : Except PyErr TrustBudget := do
  let validation := (target.map OptimizationTarget.validation).getD []
  let trust := (validation.get "trust").asDict
  let cases ← (trust.getD "max_counterexample_cases" (.int 2)).toInt
  let hunks ← (trust.getD "max_counterexample_hunks" (.int 12)).toInt
  let seconds ← (trust.getD "counterexample_budget_seconds" (.float 20 "20.0")).toFloat
  return ⟨(max 1 cases).toNat, (max 1 hunks).toNat, max 1 seconds⟩

/-! ## Hunks in focus -/

def anchorOps : List String :=
  ["ENTRY_SETUP", "COORD_REFRESH", "STATE_WRITE", "SUBSCRIBE", "UNSUBSCRIBE", "ENTRY_UNLOAD"]

/-- The operations and the targets that a target of the optimisation is about. -/
structure FocusContext where
  ops : List String
  targets : List String
  fuzzyTerms : List String

def focusContext (target : Option OptimizationTarget) : Except PyErr FocusContext := do
  let anchors := (target.map OptimizationTarget.targetAnchors).getD []
  let ops ← (anchors.getD "anchor_ops" (.list [])).needItems
  let targets := anchors.flatMap fun row =>
    match row.2 with
    | .list values =>
        if row.1 = "anchor_ops" then []
        else (values.map fun value => eventReprTarget value.pyStr).filter (· ≠ "")
    | _ => []
  return { ops := normalizedOps (ops.map Val.pyStr), targets,
           fuzzyTerms := sortedSet (targets.filter (4 ≤ ·.length)) }

def inFocus (focus : FocusContext) (hunk : DiffHunk) : Bool :=
  let payload := HunkPayload.ofHunk hunk
  let text := lower (join " " (payload.baselineOps ++ payload.optimizedOps))
  let noFocus := focus.ops.isEmpty && focus.targets.isEmpty && focus.fuzzyTerms.isEmpty
  payload.ops.any (anchorOps.contains ·) || payload.ops.any (focus.ops.contains ·) ||
    (noFocus || payload.targets.any (focus.targets.contains ·)) ||
    focus.fuzzyTerms.any (contains text ·)

def focusedHunks (diffSignature : List DiffHunk) (target : Option OptimizationTarget) :
    Except PyErr (List DiffHunk) := do
  let focus ← focusContext target
  return diffSignature.filter (inFocus focus)

/-! ## Signatures -/

def hexDigits (width n : ℕ) : String :=
  String.ofList ((List.range width).reverse.map fun i => Nat.digitChar (n / 16 ^ i % 16))

/-- One character of a JSON string, in ASCII. -/
def jsonChar (c : Char) : String :=
  if c = '"' then "\\\""
  else if c = '\\' then "\\\\"
  else if c = '\n' then "\\n"
  else if c = '\r' then "\\r"
  else if c = '\t' then "\\t"
  else if c.toNat = 8 then "\\b"
  else if c.toNat = 12 then "\\f"
  else if 32 ≤ c.toNat ∧ c.toNat < 127 then c.toString
  else if c.toNat < 65536 then "\\u" ++ hexDigits 4 c.toNat
  else
    let n := c.toNat - 65536
    "\\u" ++ hexDigits 4 (55296 + n / 1024) ++ "\\u" ++ hexDigits 4 (56320 + n % 1024)

def jsonStr (s : String) : String := "\"" ++ String.join (s.toList.map jsonChar) ++ "\""

def jsonStrs (items : List String) : String := "[" ++ join "," (items.map jsonStr) ++ "]"

/-- The hunk as JSON with sorted keys. -/
def stableHunkSignature (hunk : DiffHunk) : String :=
  "\x7b\"anchor\":" ++ jsonStr hunk.anchor ++ ",\"baseline_ops\":" ++ jsonStrs hunk.baselineOps ++
    ",\"optimized_ops\":" ++ jsonStrs hunk.optimizedOps ++ ",\"severity\":" ++
    jsonStr hunk.severity ++ "\x7d"

def counterexampleSignature (hunks : List DiffHunk) : String :=
  join "|" (sortedStr (hunks.map stableHunkSignature))

/-! ## Cases -/

/-- A replay that fails, with what is needed to explain it. -/
structure ReplayCase where
  replay : ReplayResult
  strictEqual : Bool
  tolerantEqual : Bool
  candidateHunks : List DiffHunk
  hunkPayloads : List HunkPayload
  alignmentStatus : String
  suspiciousRegions : List Dict

/-- One pair of a list that is turned into a dict. -/
def needPair : Val → Except PyErr (String × Val)
  | .list [key, value] => .ok (key.pyStr, value)
  | _ => .error .typeError

/-- `dict(value)`. -/
def needMapping : Val → Except PyErr Dict
  | .dict rows => .ok rows
  | .list items => do
      let pairs ← items.mapM needPair
      return pairs.foldl (fun d row => d.set row.1 row.2) []
  | .str "" => .ok []
  | .str _ => .error .valueError
  | _ => .error .typeError

/-- `[dict(item) for item in value]`. -/
def needMappings (value : Val) : Except PyErr (List Dict) := do
  let items ← value.needItems
  items.mapM needMapping

def alignmentResult (artifacts : Dict) : Option Dict :=
  match artifacts.get "alignment_result" with
  | .dict rows => some rows
  | _ => none

/-- The verdict of the alignment and its suspicious regions. -/
def counterexamplePayload (layer : SearchLayer) (replay : ReplayResult)
    (target : Option OptimizationTarget) : Except PyErr (String × List Dict) := do
  let artifacts := replay.runtimeArtifacts
  layer.load replay target
  let _ ← needMapping (artifacts.getD "environment_model" (.dict []))
  let regions ← needMappings (artifacts.getD "suspicious_regions" (.list []))
  let status := upper (strip (artifacts.getD "alignment_status" (.str "")).pyStr)
  let status :=
    if status = "" then
      ((alignmentResult artifacts).map fun result =>
        upper (strip (result.getD "verdict" (.str "")).pyStr)).getD ""
    else status
  let regions ←
    match regions, alignmentResult artifacts with
    | [], some result => needMappings (result.getD "suspicious_regions" (.list []))
    | regions, _ => .ok regions
  return (status, regions)

/-- Is a search called for? -/
def counterexampleSearchRequired (tolerantEqual : Bool) (alignmentStatus : String)
    (suspiciousRegions : List Dict) : Bool :=
  (!tolerantEqual && decide (upper (strip alignmentStatus) ≠ "PROVED")) ||
    !suspiciousRegions.isEmpty

/-- One replay judged: its two verdicts, and the case if it fails. -/
def judgeReplay (layer : SearchLayer) (target : Option OptimizationTarget)
    (config : TraceCompareConfig) (replay : ReplayResult) :
    Except PyErr (DiffResult × Option ReplayCase) := do
  let diff ← compareTraces layer.sha1 replay.baselineTrace replay.optimizedTrace config
  let (status, regions) ← counterexamplePayload layer replay target
  let status := if diff.tolerantEqual then "PROVED" else status
  let regions := if diff.tolerantEqual then [] else regions
  let focused ← focusedHunks diff.diffSignature target
  let candidateHunks := if focused.isEmpty then diff.diffSignature else focused
  return (diff,
    if !diff.tolerantEqual || counterexampleSearchRequired diff.tolerantEqual status regions then
      some { replay, strictEqual := diff.strictEqual, tolerantEqual := diff.tolerantEqual
             candidateHunks
             hunkPayloads := (sortedBy stableHunkSignature candidateHunks).map HunkPayload.ofHunk
             alignmentStatus := status, suspiciousRegions := regions }
    else none)

/-- The number of strict and of tolerant passes, and the cases that fail. -/
def runTraceCompare (layer : SearchLayer) (replays : List ReplayResult)
    (target : Option OptimizationTarget) (config : TraceCompareConfig) :
    Except PyErr (ℕ × ℕ × List ReplayCase) := do
  let judged ← replays.mapM (judgeReplay layer target config)
  return (judged.countP (·.1.strictEqual), judged.countP (·.1.tolerantEqual),
    judged.filterMap (·.2))

/-! ## Counterexamples -/

/-- The positions of the cases that are searched, the most promising ones first. -/
def selectCounterexampleCases (budget : TrustBudget) (cases : List ReplayCase) : List ℕ :=
  let eligible := cases.zipIdx.filter fun row =>
    counterexampleSearchRequired row.1.tolerantEqual row.1.alignmentStatus
        row.1.suspiciousRegions &&
      decide (row.1.candidateHunks.length ≤ budget.maxCounterexampleHunks)
  let ranked := sortedBy (fun row : ReplayCase × ℕ =>
    (toLex ((if row.1.strictEqual then 1 else 0),
      toLex ((if row.1.suspiciousRegions.isEmpty then 1 else 0),
        toLex (row.1.candidateHunks.length, row.1.replay.scenarioId))) :
      ℕ ×ₗ ℕ ×ₗ ℕ ×ₗ String)) eligible
  (ranked.take budget.maxCounterexampleCases).map (·.2)

/-- The fields of a counterexample without a witness. -/
def syntheticWitnessSummary (case : ReplayCase) : Dict :=
  [("counterexample_verdict", .str "TRACE_ONLY"),
    ("violated_property",
      .str (if case.tolerantEqual then "UNSUPPORTED_ALIGNMENT" else "TRACE_MISMATCH")),
    ("divergence_point", .dict [("scenario_id", .str case.replay.scenarioId)]),
    ("minimal_conditions", .list []), ("suspicious_region_id", .none),
    ("refinement_hint", .str "trace_compare_only"), ("baseline_trace_prefix", .list []),
    ("optimized_trace_prefix", .list []), ("baseline_state_at_divergence", .dict []),
    ("optimized_state_at_divergence", .dict []), ("environment_assumptions", .dict []),
    ("input_assumptions", .dict [])]

def counterexampleId (layer : SearchLayer) (scenarioId signature : String) : String :=
  "cex_" ++ String.ofList ((layer.sha1 (scenarioId ++ ":" ++ signature)).toList.take 10)

def materializeCounterexample (layer : SearchLayer) (case : ReplayCase)
    (witness : Option Witness) : CounterExample :=
  let (kind, inferredBy) := inferCounterexample case.hunkPayloads
  { counterexampleId :=
      counterexampleId layer case.replay.scenarioId (counterexampleSignature case.candidateHunks)
    scenarioId := case.replay.scenarioId
    violatedAssertion := "observable_semantic_equivalence"
    culpritIds := sortedSet (case.hunkPayloads.map (·.anchor))
    diffSummary :=
      [("kind", .str kind),
        ("inferred_by", .str
          (match witness with
          | some witness => if witness.refinementHint = "" then inferredBy else witness.refinementHint
          | none => inferredBy)),
        ("hunks", .list (case.hunkPayloads.map fun payload => .dict payload.toDict))] ++
      (witness.map Witness.summary).getD (syntheticWitnessSummary case)
    alignmentStatus :=
      let status := upper (strip case.alignmentStatus)
      if status = "" then none else some status
    suspiciousRegionCount := case.suspiciousRegions.length }

/-- The inputs of the search that a replay has to bring. -/
def missingInputs (replay : ReplayResult) : List String :=
  ["baseline_ir", "optimized_ir", "alignment_map"].filter fun name =>
    match replay.runtimeArtifacts.get name with
    | .dict _ => false
    | _ => true

/-- The counterexample of one failing case. -/
def explainCase (layer : SearchLayer) (target : Option OptimizationTarget) (budget : TrustBudget)
    (selected : List ℕ) (iteration : ℕ) (row : ReplayCase × ℕ) : Except PyErr CounterExample :=
  let (case, idx) := row
  if selected.contains idx &&
      decide (layer.elapsed iteration idx < budget.counterexampleBudgetSeconds) then
    if (missingInputs case.replay).isEmpty then do
      let witness ← layer.search case.replay target case.suspiciousRegions
      return materializeCounterexample layer case (some witness)
    else .error .valueError
  else .ok (materializeCounterexample layer case none)

def materializeCounterexamples (layer : SearchLayer) (cases : List ReplayCase)
    (target : Option OptimizationTarget) (iteration : ℕ) : Except PyErr (List CounterExample) := do
  let budget ← trustBudget target
  let selected := selectCounterexampleCases budget cases
  (cases.zipIdx.filter fun row => !row.1.tolerantEqual).mapM
    (explainCase layer target budget selected iteration)

/-- The verdict on all replays. -/
structure ReplaySummary where
  strictPass : ℕ
  tolerantPass : ℕ
  counterexamples : List CounterExample

def summarizeReplay (layer : SearchLayer) (replays : List ReplayResult)
    (target : Option OptimizationTarget) (config : TraceCompareConfig) (iteration : ℕ) :
    Except PyErr ReplaySummary := do
  let (strictPass, tolerantPass, cases) ← runTraceCompare layer replays target config
  let counterexamples ← materializeCounterexamples layer cases target iteration
  return { strictPass, tolerantPass, counterexamples }

end FloWeaver.Trust
