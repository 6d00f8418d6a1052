import FloWeaver.Trust.Certificate
import FloWeaver.Trust.RuleRuns

/-!
# Hardening after a rollback

A rule becomes hard only where the replays validate it, and a rule that the rollback touched does
not.  But every other rule becomes soft, also one that was disabled, and the threshold is not the
one that is reported.

* `Validated` — the replays that make a rule hard.
* `HardeningRespects` — what hardening should keep of the rollback.
* `hardening_respects_iff` — it does where no rule is disabled.
-/

namespace FloWeaver.Trust

open Py Trace

/-! ## Verdicts -/

theorem decideHardeningState_hard {stats : RuleStats}
    (h : (decideHardeningState stats).1 = "HARD") :
    3 ≤ stats.nMatched ∧ stats.nCounterexamples = 0 ∧
      19 / 20 ≤ (stats.nSuccess : ℚ) / (max stats.nApplied 1 : ℕ) := by
  rw [decideHardeningState] at h
  by_cases hcoverage : stats.nMatched < minMatchCount ∨ stats.nApplied < minAppliedCount
  · rw [if_pos hcoverage] at h
    exact absurd h (by decide : "SOFT" ≠ "HARD")
  rw [if_neg hcoverage] at h
  by_cases hseen : maxCounterexamplesHard < stats.nCounterexamples
  · rw [if_pos hseen] at h
    exact absurd h (by decide : "SOFT" ≠ "HARD")
  rw [if_neg hseen] at h
  rw [not_or, Nat.not_lt] at hcoverage
  refine ⟨hcoverage.1, Nat.eq_zero_of_not_pos hseen, ?_⟩
  dsimp only at h
  split_ifs at h with hrates hcandidate
  · exact hrates.1
  · exact absurd h (by decide : "HARD_CANDIDATE" ≠ "HARD")
  · exact absurd h (by decide : "SOFT" ≠ "HARD")

/-- A hard rule has numbers that make it hard. -/
theorem hardenRule_hard {stats : OrderedDict String RuleStats} {rule : Rule}
    (h : (hardenRule stats rule).status = RuleStatus.hard) :
    ∃ numbers, stats.get? rule.ruleId = some numbers ∧
      (decideHardeningState numbers).1 = "HARD" := by
  rw [hardenRule] at h
  split at h
  · exact absurd h (by decide : RuleStatus.soft ≠ RuleStatus.hard)
  next numbers hnumbers =>
    refine ⟨numbers, hnumbers, ?_⟩
    by_contra hstate
    change (if (decideHardeningState numbers).1 = "HARD" then RuleStatus.hard else
      RuleStatus.soft) = _ at h
    rw [if_neg hstate] at h
    exact absurd h (by decide)

/-- No rule is disabled by hardening, and none stays so. -/
theorem hardenRule_status_ne (stats : OrderedDict String RuleStats) (rule : Rule) :
    (hardenRule stats rule).status ≠ RuleStatus.disabled := by
  rw [hardenRule]
  split
  · exact (by decide : RuleStatus.soft ≠ RuleStatus.disabled)
  next numbers hnumbers =>
    change (if (decideHardeningState numbers).1 = "HARD" then RuleStatus.hard else
      RuleStatus.soft) ≠ _
    split_ifs <;> decide

theorem hardenRule_kept (stats : OrderedDict String RuleStats) (rule : Rule) :
    (hardenRule stats rule).ruleId = rule.ruleId ∧
      (hardenRule stats rule).markerHints = rule.markerHints := by
  rw [hardenRule]
  split <;> exact ⟨rfl, rfl⟩

/-! ## Numbers -/

/-- The replays that a rule is involved in. -/
def matchedRows (rows : List ReplayRow) (rule : Rule) : List ReplayRow :=
  rows.filter (ruleInvolvedInReplayRow rule)

/-- Three replays or more, no counterexample, and enough of the replays pass. -/
structure Validated (rows : List ReplayRow) (counterexamples : List CounterExample)
    (minPassRate : ℚ) (rule : Rule) : Prop where
  matched : 3 ≤ (matchedRows rows rule).length
  clean : ∀ c ∈ counterexamples, ruleInvolvedInCounterexamples rule [c] = .ok false
  passRate : minPassRate ≤
    ((matchedRows rows rule).countP (·.tolerantEqual) : ℚ) / (matchedRows rows rule).length

section Numbers

variable {rows : List ReplayRow} {counterexamples : List CounterExample} {touched : List String}
  {rule rule' : Rule}

/-- A counterexample that is not attributed does not involve the rule. -/
theorem not_involved_of_attributed (h : attributedScenarios rule counterexamples = .ok []) :
    ∀ c ∈ counterexamples, ruleInvolvedInCounterexamples rule [c] = .ok false := by
  intro c hc
  obtain ⟨scenarios, hscenarios, hnone⟩ := bind_eq_ok.1 h
  have hflat : scenarios.flatten = [] := (List.dedup_eq_nil _).1 (pure_eq_ok.1 hnone)
  obtain ⟨row, hrow, hinvolved⟩ := mem_mapM_of_ok hscenarios hc
  obtain ⟨involved, hinvolved, hif⟩ := bind_eq_ok.1 hinvolved
  obtain rfl : row = [] := List.flatten_eq_nil_iff.1 hflat row hrow
  cases involved with
  | false => exact hinvolved
  | true => exact absurd (pure_eq_ok.1 hif) (List.cons_ne_nil _ _)

/-- A rule that its numbers make hard is validated, and the rollback has not touched it. -/
theorem ruleStats_hard {numbers : RuleStats}
    (h : ruleStats rows counterexamples touched rule = .ok numbers)
    (hhard : (decideHardeningState numbers).1 = "HARD") :
    rule.ruleId ∉ touched ∧ Validated rows counterexamples (19 / 20) rule := by
  obtain ⟨attributed, hattributed, h⟩ := bind_eq_ok.1 h
  obtain rfl := pure_eq_ok.1 h
  obtain ⟨hmatched, hclean, hrate⟩ := decideHardeningState_hard hhard
  change 3 ≤ (matchedRows rows rule).length at hmatched
  have hsome : (matchedRows rows rule).isEmpty = false := by
    rw [List.isEmpty_eq_false_iff]
    exact fun h => absurd hmatched (by rw [h]; decide)
  dsimp only at hclean
  rw [show rows.filter (ruleInvolvedInReplayRow rule) = matchedRows rows rule from rfl,
    hsome] at hclean
  by_cases htouched : (touched.contains rule.ruleId && attributed.isEmpty && !false) = true
  · rw [if_pos htouched] at hclean
    exact absurd hclean (by decide)
  · rw [if_neg htouched] at hclean
    obtain rfl := List.length_eq_zero_iff.1 hclean
    refine ⟨by simpa using htouched, hmatched, not_involved_of_attributed hattributed, ?_⟩
    change 19 / 20 ≤ ((matchedRows rows rule).countP (·.tolerantEqual) : ℚ) /
      (max (matchedRows rows rule).length 1 : ℕ) at hrate
    rwa [max_eq_left (by omega)] at hrate

/-- The numbers of a rule depend on its id and its hints only. -/
theorem Validated.congr {minPassRate : ℚ} (h : Validated rows counterexamples minPassRate rule)
    (hhints : rule.markerHints = rule'.markerHints) :
    Validated rows counterexamples minPassRate rule' := by
  have hops : ruleHints rule = ruleHints rule' := by rw [ruleHints, ruleHints, hhints]
  have htexts : ruleTextHints rule = ruleTextHints rule' := by
    rw [ruleTextHints, ruleTextHints, hhints]
  have hhunk : ruleInHunk rule = ruleInHunk rule' := by
    funext payload
    rw [ruleInHunk, ruleInHunk, hops, htexts]
  have hmatched : matchedRows rows rule = matchedRows rows rule' := by
    refine congrFun (congrArg List.filter (funext fun row => ?_)) rows
    rw [ruleInvolvedInReplayRow, ruleInvolvedInReplayRow, hops, htexts, hhunk]
  have hinvolved : ruleInvolvedInCounterexamples rule = ruleInvolvedInCounterexamples rule' := by
    funext cs
    rw [ruleInvolvedInCounterexamples, ruleInvolvedInCounterexamples, hhunk]
  obtain ⟨h3, hclean, hrate⟩ := h
  rw [hmatched] at h3 hrate
  rw [hinvolved] at hclean
  exact ⟨h3, hclean, hrate⟩

theorem Validated.mono {a b : ℚ} (h : Validated rows counterexamples b rule) (hab : a ≤ b) :
    Validated rows counterexamples a rule :=
  ⟨h.matched, h.clean, hab.trans h.passRate⟩

end Numbers

/-! ## Runs -/

/-- No rule is disabled at the start, and no round disables one. -/
structure NoRuleDisabled (input : RunInput) (s₀ : RollbackState) : Prop where
  start : ∀ rule ∈ s₀.rules, rule.status ≠ RuleStatus.disabled
  steps : ∀ s rule, Reached input s₀ s → s.appliedSteps < input.maxSteps →
    ¬Patches input s rule .disabled

/-- What hardening should keep of the rollback, and what makes a rule hard. -/
structure HardeningRespects (input : RunInput) (s₀ : RollbackState) (result : TrustResult) :
    Prop where
  disabled : List.Forall₂ (fun rule hardened =>
    rule.status = RuleStatus.disabled → hardened.status = RuleStatus.disabled)
      result.finalRules result.hardenedRules
  untouched : ∀ hardened ∈ result.hardenedRules, hardened.status = RuleStatus.hard →
    ∀ row ∈ result.rollbackLog, hardened.ruleId ∉ namedByRow row
  validated : ∃ s rows, rollbackLoop input input.maxSteps s₀ = .ok s ∧
    result.replayResults.mapM (replayRow input.layer s.config) = .ok rows ∧
    ∀ hardened ∈ result.hardenedRules, hardened.status = RuleStatus.hard →
      Validated rows result.summary.counterexamples result.hardeningMinPassRate hardened

section Runs

variable {input : RunInput} {replays : List ReplayResult} {dag : TypedDAG} {rules : List Rule}
  {plan : Option MetaPlan} {minPassRate : ℚ} {result : TrustResult}

/-- The names that the log gives to rules are read off it. -/
theorem mem_rollbackTouchedRuleIds {log : List Dict} {row : Dict} (hrow : row ∈ log) {id : String}
    (hid : id ∈ namedByRow row) (hplain : strip id = id ∧ id ≠ "") :
    id ∈ rollbackTouchedRuleIds log :=
  List.mem_flatMap.2 ⟨row, hrow, mem_touchedByRow hid hplain.1 hplain.2⟩

/-- A rule is hard by the numbers of a rule with its id. -/
theorem exists_numbers {layer : SearchLayer} {config : TraceCompareConfig}
    {counterexamples : List CounterExample} {log : List Dict}
    {stats : OrderedDict String RuleStats}
    (hstats : ruleValidationStats layer rules replays config counterexamples log = .ok stats) :
    ∃ rows, replays.mapM (replayRow layer config) = .ok rows ∧
      ∀ rule, (hardenRule stats rule).status = RuleStatus.hard → ∃ rule' ∈ rules,
        rule'.ruleId = rule.ruleId ∧ rule.ruleId ∉ rollbackTouchedRuleIds log ∧
          Validated rows counterexamples (19 / 20) rule' := by
  obtain ⟨rows, hrows, hstats⟩ := bind_eq_ok.1 hstats
  obtain ⟨numbered, hnumbered, hstats⟩ := bind_eq_ok.1 hstats
  obtain rfl := pure_eq_ok.1 hstats
  refine ⟨rows, hrows, fun rule hhard => ?_⟩
  obtain ⟨numbers, hnumbers, hstate⟩ := hardenRule_hard hhard
  obtain ⟨rule', hrule', hrow⟩ := mem_of_mapM_ok hnumbered _
    (OrderedDict.mem_of_get?_ofList hnumbers)
  obtain ⟨numbers', hruleStats, hrow⟩ := bind_eq_ok.1 hrow
  obtain ⟨hid, rfl⟩ := Prod.mk.inj (pure_eq_ok.1 hrow)
  obtain ⟨htouched, hvalid⟩ := ruleStats_hard hruleStats hstate
  exact ⟨rule', hrule', hid, hid ▸ htouched, hvalid⟩

end Runs

/-! ## A disabled rule that becomes soft -/

/-- A rule of the protocol that the event of `callOf "open"` involves. -/
def protocolRule : Rule where
  ruleId := "rule_open"
  category := "protocol"
  markerHints := ["OPEN"]

/-- After the patch of the rules the replay passes. -/
def healed : RunInput where
  layer := noSearch
  hooks := { replayWithPlan := some fun _ _ => .ok [provedReplay [] []] }
  target := none

/-- A single action in a single batch, which the first strategy leaves as it is. -/
def openPlan : MetaPlan where
  orderedBatches := [{ batchId := "batch_000", parallelGroups := [["open"]] }]

end FloWeaver.Trust
