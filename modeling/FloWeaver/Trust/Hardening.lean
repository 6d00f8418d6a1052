import FloWeaver.Trust.Evaluate

/-!
# Hardening the rules

After the rollback every rule is judged by the replays that it is involved in: it becomes hard,
a candidate, or soft.

* `ruleValidationStats` — the numbers for every rule.
* `decideHardeningState` — the verdict on the numbers.
* `autoHardenRules` — the hardened rules.
* `evaluate` — the rollback loop, the report and the hardening.
-/

namespace FloWeaver.Trust

open Py Trace

/-! ## Statistics -/

/-- What the statistics keep of a replay. -/
structure ReplayRow where
  scenarioId : String
  strictEqual : Bool
  tolerantEqual : Bool
  alignmentStatus : String
  suspiciousRegionCount : ℕ
  scenarioOps : List String
  scenarioText : String
  hunks : List HunkPayload

/-- The verdict of the alignment and the number of suspicious regions. -/
def replayAlignmentStatus (replay : ReplayResult) (tolerantEqual : Bool) : String × ℕ :=
  if tolerantEqual then ("PROVED", 0)
  else
    let artifacts := replay.runtimeArtifacts
    let status := upper (strip (artifacts.getD "alignment_status" (.str "")).pyStr)
    let status :=
      if status = "" then
        ((alignmentResult artifacts).map fun result =>
          upper (strip (result.getD "verdict" (.str "")).pyStr)).getD ""
      else status
    let regions := artifacts.getD "suspicious_regions" (.list [])
    let regions :=
      if regions.truthy then regions
      else
        ((alignmentResult artifacts).map (·.getD "suspicious_regions" (.list []))).getD regions
    (status,
      match regions with
      | .list items => items.length
      | _ => 0)

def replayRow (layer : SearchLayer) (config : TraceCompareConfig) (replay : ReplayResult) :
    Except PyErr ReplayRow := do
  let diff ← compareTraces layer.sha1 replay.baselineTrace replay.optimizedTrace config
  let (alignmentStatus, suspiciousRegionCount) := replayAlignmentStatus replay diff.tolerantEqual
  let events := replay.baselineTrace ++ replay.optimizedTrace
  return { scenarioId := replay.scenarioId, strictEqual := diff.strictEqual
           tolerantEqual := diff.tolerantEqual, alignmentStatus, suspiciousRegionCount
           scenarioOps := normalizedOps (events.map (·.op))
           scenarioText := upper (join " " (events.map fun event =>
             event.provider ++ ":" ++ event.op ++ ":" ++ event.target))
           hunks := diff.diffSignature.map HunkPayload.ofHunk }

/-- A rule without hints is involved in every replay. -/
def ruleInvolvedInReplayRow (rule : Rule) (row : ReplayRow) : Bool :=
  ((ruleHints rule).isEmpty && (ruleTextHints rule).isEmpty) ||
    (ruleHints rule).any (row.scenarioOps.contains ·) ||
    (ruleTextHints rule).any (contains row.scenarioText ·) ||
    row.hunks.any (ruleInHunk rule)

/-- The texts of a list-valued field. -/
def listTexts (value : Val) : List String :=
  match value with
  | .list items => items.map Val.pyStr
  | _ => []

/-- The rule ids that a row of the rollback log names. -/
def touchedByRow (row : Dict) : List String :=
  let changes :=
    match row.getD "changes" (.list []) with
    | .list items => items.map fun change =>
        match change with
        | .dict fields => (Dict.getD fields "rule_id" (.str "")).pyStr
        | _ => ""
    | _ => []
  ((listTexts (row.getD "disabled_rule_ids" (.list [])) ++
    listTexts (row.getD "tightened_rule_ids" (.list [])) ++ changes).map strip).filter (· ≠ "")

def rollbackTouchedRuleIds (rollbackLog : List Dict) : List String :=
  rollbackLog.flatMap touchedByRow

/-- The numbers for a rule. -/
structure RuleStats where
  nMatched : ℕ
  nApplied : ℕ
  nSuccess : ℕ
  nCounterexamples : ℕ
  tracePreservedRate : Option ℚ
  resourceProtocolPreservedRate : Option ℚ
  finalStatePreservedRate : Option ℚ
deriving DecidableEq

/-- `count / applied if applied else None`. -/
def rate (count applied : ℕ) : Option ℚ := if applied = 0 then none else some (count / applied)

/-- The scenarios whose counterexample involves a rule. -/
def attributedScenarios (rule : Rule) (counterexamples : List CounterExample) :
    Except PyErr (List String) := do
  let scenarios ← counterexamples.mapM fun counterexample => do
    let involved ← ruleInvolvedInCounterexamples rule [counterexample]
    return if involved then [counterexample.scenarioId] else []
  return scenarios.flatten.dedup

def ruleStats (rows : List ReplayRow) (counterexamples : List CounterExample)
    (touched : List String) (rule : Rule) : Except PyErr RuleStats := do
  let matched := rows.filter (ruleInvolvedInReplayRow rule)
  let attributed ← attributedScenarios rule counterexamples
  let strict := matched.countP (·.strictEqual)
  let success := matched.countP (·.tolerantEqual)
  let preserved := matched.countP fun row =>
    decide (upper (strip row.alignmentStatus) = "PROVED") && row.suspiciousRegionCount == 0
  return { nMatched := matched.length, nApplied := matched.length, nSuccess := success
           nCounterexamples :=
             if touched.contains rule.ruleId && attributed.isEmpty && !matched.isEmpty then 1
             else attributed.length
           tracePreservedRate := rate strict matched.length
           resourceProtocolPreservedRate := rate preserved matched.length
           finalStatePreservedRate := rate success matched.length }

/-- The numbers by rule id; the last rule of an id counts. -/
def ruleValidationStats (layer : SearchLayer) (rules : List Rule) (replays : List ReplayResult)
    (config : TraceCompareConfig) (counterexamples : List CounterExample)
    (rollbackLog : List Dict) : Except PyErr (OrderedDict String RuleStats) := do
  let rows ← replays.mapM (replayRow layer config)
  let touched := rollbackTouchedRuleIds rollbackLog
  let stats ← rules.mapM fun rule => do
    let stats ← ruleStats rows counterexamples touched rule
    return (rule.ruleId, stats)
  return .ofList stats

/-! ## Verdicts -/

def minMatchCount : ℕ := 3
def minAppliedCount : ℕ := 3
def minPassRateCandidate : ℚ := 4 / 5
def minPassRateHard : ℚ := 19 / 20
def maxCounterexamplesHard : ℕ := 0

/-- The rate is known and high enough. -/
def rateAtLeast (bound : ℚ) (rate : Option ℚ) : Bool := rate.any fun q => decide (bound ≤ q)

/-- The state of a rule and the reason. -/
def decideHardeningState (stats : RuleStats) : String × String :=
  if stats.nMatched < minMatchCount ∨ stats.nApplied < minAppliedCount then
    ("SOFT", "insufficient_coverage")
  else if maxCounterexamplesHard < stats.nCounterexamples then ("SOFT", "counterexample_seen")
  else
    let passRate : ℚ := stats.nSuccess / max stats.nApplied 1
    if minPassRateHard ≤ passRate ∧ rateAtLeast (19 / 20) stats.tracePreservedRate ∧
        rateAtLeast (19 / 20) stats.resourceProtocolPreservedRate ∧
        rateAtLeast (19 / 20) stats.finalStatePreservedRate then
      ("HARD", "promoted_by_validation")
    else if minPassRateCandidate ≤ passRate then
      ("HARD_CANDIDATE", "promoted_candidate_by_validation")
    else ("SOFT", "validation_below_threshold")

def rateVal (rate : Option ℚ) : Val := (rate.map Scheduler.floatVal).getD .none

def zeroValidationSummary : Dict :=
  [("stats_state", .str "MISSING"), ("n_matched", .int 0), ("n_applied", .int 0),
    ("n_success", .int 0), ("n_counterexamples", .int 0), ("trace_preserved_rate", .none),
    ("resource_protocol_preserved_rate", .none), ("final_state_preserved_rate", .none)]

def makeValidationSummary (stats : RuleStats) : Dict :=
  [("stats_state", .str "PRESENT"), ("n_matched", .int stats.nMatched),
    ("n_applied", .int stats.nApplied), ("n_success", .int stats.nSuccess),
    ("n_counterexamples", .int stats.nCounterexamples),
    ("trace_preserved_rate", rateVal stats.tracePreservedRate),
    ("resource_protocol_preserved_rate", rateVal stats.resourceProtocolPreservedRate),
    ("final_state_preserved_rate", rateVal stats.finalStatePreservedRate)]

/-- A rule after the verdict on its numbers. -/
def hardenRule (statsByRule : OrderedDict String RuleStats) (rule : Rule) : Rule :=
  match statsByRule.get? rule.ruleId with
  | none =>
      { rule with
        status := RuleStatus.soft
        hardeningState := "SOFT"
        hardeningReason := some "cold_start_no_validation_stats"
        validationSummary := zeroValidationSummary }
  | some stats =>
      let (state, reason) := decideHardeningState stats
      { rule with
        status := if state = "HARD" then RuleStatus.hard else RuleStatus.soft
        hardeningState := state
        hardeningReason := some reason
        validationSummary := makeValidationSummary stats }

/-- The hardened rules; the threshold that the caller passes is dropped. -/
def autoHardenRules (rules : List Rule) (statsByRule : OrderedDict String RuleStats) : List Rule :=
  rules.map (hardenRule statsByRule)

/-! ## The evaluation -/

/-- What an evaluation returns. -/
structure TrustResult where
  summary : ReplaySummary
  finalPlan : Option MetaPlan
  finalDag : TypedDAG
  finalRules : List Rule
  replayResults : List ReplayResult
  rollbackLog : List Dict
  hardenedRules : List Rule
  hardeningMinPassRate : ℚ

/-- The loop before its first round. -/
def initialState (replays : List ReplayResult) (dag : TypedDAG) (rules : List Rule)
    (plan : Option MetaPlan) : RollbackState :=
  { plan, referencePlan := plan, dag, rules, replays }

/-- The report on where the loop ended. -/
def report (input : RunInput) (hardeningMinPassRate : ℚ) (s : RollbackState) :
    Except PyErr TrustResult := do
  let summary ← finalSummary input s
  let stats ← ruleValidationStats input.layer s.rules s.replays s.config summary.counterexamples
    s.log
  return { summary, finalPlan := s.plan, finalDag := s.dag, finalRules := s.rules
           replayResults := s.replays, rollbackLog := s.log
           hardenedRules := autoHardenRules s.rules stats, hardeningMinPassRate }

def evaluate (input : RunInput) (replays : List ReplayResult) (dag : TypedDAG) (rules : List Rule)
    (plan : Option MetaPlan) (hardeningMinPassRate : ℚ) : Except PyErr TrustResult := do
  let s ← rollbackLoop input input.maxSteps (initialState replays dag rules plan)
  report input hardeningMinPassRate s

end FloWeaver.Trust
