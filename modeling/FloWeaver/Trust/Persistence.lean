import FloWeaver.Trust.Certificate

/-!
# Does the rollback give up early?

A round tries one strategy of the first level, and ends the loop when neither this strategy nor
the lower levels patch.  A strategy that changes nothing therefore ends the loop while the other
strategies have not been tried.

* `TriedEverything` — what is to be tried before the rollback gives up.
* `DeadEnd` — the states in which it gives up before that.
* `rollback_persists_iff` — the rollback gives up early exactly in these states.
-/

namespace FloWeaver.Trust

open Py Trace

/-- Every strategy and every level was tried on the counterexamples that remain. -/
structure TriedEverything (input : RunInput) (counterexamples : List CounterExample)
    (s : RollbackState) : Prop where
  level1 : ∀ strategy, strategy ∈ s.triedLevel1
  level2 : s.level2Applied = true
  level3 : input.hooks.replanWithDag.isSome →
    (∃ c ∈ counterexamples, isOrderTypeCounterexample c = .ok true) → s.level3Applied = true

/-- The next strategy changes nothing, no lower level patches, and another strategy is left. -/
def DeadEnd (input : RunInput) (s : RollbackState) : Prop :=
  ∃ (j : RollbackState) (plan same : MetaPlan) (lower : RollbackState)
    (strategy other : Level1Strategy),
    judge input s = .ok j ∧ j.summary.counterexamples ≠ [] ∧ j.plan = some plan ∧
      nextLevel1 j = .ok (some strategy) ∧
      applyLevel1Patch plan (level1Strategies.idxOf strategy) input.target
        j.summary.counterexamples = .ok (same, none) ∧
      firstPatch [tryLevel2 input, tryLevel3 input]
        { j with triedLevel1 := j.triedLevel1 ++ [strategy] } plan = .ok (lower, none) ∧
      other ∉ j.triedLevel1 ∧ other ≠ strategy

section Round

variable {input : RunInput} {s t : RollbackState}

/-- The chain of strategies asks every counterexample whether it is of order type. -/
theorem orderType_of_nextLevel1 {next : Option Level1Strategy} (h : nextLevel1 s = .ok next)
    (horder : ∃ c ∈ s.summary.counterexamples, isOrderTypeCounterexample c = .ok true) :
    s.summary.counterexamples.anyM isOrderTypeCounterexample = .ok true := by
  obtain ⟨chain, hchain, -⟩ := bind_eq_ok.1 h
  obtain ⟨preferred, hpreferred, -⟩ := bind_eq_ok.1 hchain
  obtain ⟨order, hany, -⟩ := bind_eq_ok.1 hpreferred
  obtain ⟨c, hc, htrue⟩ := horder
  rw [hany, eq_true_of_anyM_ok hany hc htrue]

/-- A dead end stops the loop with a strategy left. -/
theorem DeadEnd.round_ended (h : DeadEnd input s) (hreplay : input.hooks.replayWithPlan.isSome) :
    ∃ t other, round input s = .ok (.ended t) ∧ t.summary.counterexamples ≠ [] ∧
      t.summaryIsCurrent = true ∧ t.log = s.log ∧ other ∉ t.triedLevel1 := by
  obtain ⟨j, plan, same, lower, strategy, other, hjudge, hcex, hplan, hnext, hpatch, hlower,
    hother, hne⟩ := h
  obtain ⟨replay, hreplay⟩ := Option.isSome_iff_exists.1 hreplay
  obtain ⟨hframe, htried, -⟩ := lowerLevels_spec hlower
  have hlevel1 : tryLevel1 input j plan =
      .ok ({ j with triedLevel1 := j.triedLevel1 ++ [strategy] }, none) := by
    show (nextLevel1 j >>= _) = _
    rw [hnext]
    show (applyLevel1Patch plan _ _ _ >>= _) = _
    rw [hpatch]
    rfl
  have hfirst : firstPatch [tryLevel1 input, tryLevel2 input, tryLevel3 input] j plan =
      .ok (lower, none) := by
    show (tryLevel1 input j plan >>= _) = _
    rw [hlevel1]
    exact hlower
  have hround : round input s = .ok (.ended lower) := by
    show (judge input s >>= _) = _
    rw [hjudge]
    show (if j.summary.counterexamples.isEmpty = true then _ else _) = _
    rw [if_neg (by simpa using hcex), hplan, hreplay]
    show (firstPatch [tryLevel1 input, tryLevel2 input, tryLevel3 input] j plan >>= _) = _
    rw [hfirst]
    rfl
  obtain ⟨config, summary, -, -, rfl⟩ := judge_spec hjudge
  refine ⟨lower, other, hround, ?_, hframe.summaryIsCurrent, hframe.log, ?_⟩
  · rw [hframe.summary]
    exact hcex
  · rw [htried, List.mem_append, List.mem_singleton]
    exact fun h => h.elim hother hne

/-- A round that ends with counterexamples has tried everything, unless it is a dead end. -/
theorem triedEverything_of_ended (hend : round input s = .ok (.ended t))
    (hplan : s.plan.isSome) (hreplay : input.hooks.replayWithPlan.isSome)
    (hcex : t.summary.counterexamples ≠ []) (hlive : ¬DeadEnd input s) :
    TriedEverything input t.summary.counterexamples t := by
  obtain ⟨j, hjudge, hcases⟩ := round_cases hend
  rcases hcases with ⟨hout, hstop⟩ | ⟨plan, replay, t', patched, hj, hjplan, -, hfirst, hout⟩
  · -- the loop stops at once only without counterexamples, plan or replay
    obtain rfl := Outcome.ended.inj hout
    obtain ⟨config, summary, -, -, rfl⟩ := judge_spec hjudge
    rcases hstop with hnil | hnone | hnone
    · exact absurd hnil hcex
    · exact absurd hplan (by simp [show s.plan = none from hnone])
    · exact absurd hreplay (by simp [hnone])
  · rcases hout with ⟨rfl, hout⟩ | ⟨_, _, _, -, -, hout⟩
    · obtain rfl := Outcome.ended.inj hout
      obtain ⟨hframe, hspec⟩ := firstPatch_spec hfirst
      obtain ⟨next, hnext, htried, hlower, hnoop⟩ := hspec rfl
      rw [hframe.summary]
      refine ⟨fun other => ?_, hlower.level2, fun hreplan horder => ?_⟩
      · rw [htried, List.mem_append]
        cases next with
        | none => exact .inl (mem_of_nextLevel1_none hnext other)
        | some strategy =>
          -- an untried strategy besides the next one makes the state a dead end
          by_contra hother
          rw [not_or, Option.toList_some, List.mem_singleton] at hother
          obtain ⟨⟨same, hpatch⟩, hrest⟩ := hnoop strategy rfl
          exact hlive ⟨j, plan, same, t, strategy, other, hjudge, hj, hjplan, hnext, hpatch, hrest,
            hother⟩
      · exact hlower.level3 hreplan (orderType_of_nextLevel1 hnext horder)
    · exact Outcome.noConfusion hout

theorem Reached.plan_isSome {s₀ : RollbackState} (h : Reached input s₀ s)
    (hplan : s₀.plan.isSome) : s.plan.isSome := by
  induction h with
  | start => exact hplan
  | patched _ hr ih =>
    obtain ⟨j, -, hcases⟩ := round_cases hr
    rcases hcases with ⟨hout, -⟩ | ⟨_, _, _, _, -, -, -, -, hout⟩
    · exact Outcome.noConfusion hout
    · rcases hout with ⟨-, hout⟩ | ⟨_, _, u, -, hreplayed, hout⟩
      · exact Outcome.noConfusion hout
      · obtain rfl := Outcome.patched.inj hout
        obtain ⟨replays, -, hu⟩ := bind_eq_ok.1 hreplayed
        obtain rfl := pure_eq_ok.1 hu
        rfl

end Round

/-! ## Runs -/

section Runs

variable {input : RunInput} {replays : List ReplayResult} {dag : TypedDAG} {rules : List Rule}
  {plan : MetaPlan} {minPassRate : ℚ} {result : TrustResult}

/-- The loop uses no more than its steps, and it gives up with steps and strategies left exactly
in a dead end. -/
theorem rollback_persists_iff (hreplay : input.hooks.replayWithPlan.isSome)
    (h : evaluate input replays dag rules (some plan) minPassRate = .ok result) :
    result.rollbackLog.length ≤ input.maxSteps ∧
      ((result.summary.counterexamples ≠ [] → result.rollbackLog.length < input.maxSteps →
          ∃ s, rollbackLoop input input.maxSteps (initialState replays dag rules (some plan)) =
            .ok s ∧ TriedEverything input result.summary.counterexamples s) ↔
        ∀ s, Reached input (initialState replays dag rules (some plan)) s →
          s.appliedSteps < input.maxSteps → ¬DeadEnd input s) := by
  obtain ⟨t, stats, hloop, hsummary, -, -, -, -, hlog, -⟩ := evaluate_ok h
  have hcount : ∀ {s}, Reached input (initialState replays dag rules (some plan)) s →
      s.log.length = s.appliedSteps := fun hs => by
    have := hs.log_length
    simp only [initialState, List.length_nil] at this
    omega
  have hcases := rollbackLoop_cases hloop
  simp only [initialState, Nat.zero_add] at hcases
  refine ⟨?_, fun hpersists s hs hlt hdead => ?_, fun hlive hcex hlt => ⟨t, hloop, ?_⟩⟩
  · rw [hlog]
    rcases hcases with ⟨s, hs, hlt, hend⟩ | ⟨ht, hsteps⟩
    · obtain ⟨j, hjudge, hframe, -⟩ := round_ended hend
      obtain ⟨config, summary, -, -, rfl⟩ := judge_spec hjudge
      rw [hframe.log]
      exact (hcount hs).trans_le hlt.le
    · exact (hcount ht).trans_le hsteps.le
  · -- the run goes through the dead end and stops there
    obtain ⟨u, other, hround, hcex, hcurrent, hulog, hother⟩ := hdead.round_ended hreplay
    have hrun := hs.rollbackLoop_eq input.maxSteps (by simp [initialState]; omega)
    obtain ⟨n, hn⟩ : ∃ n, input.maxSteps - s.appliedSteps = n + 1 :=
      ⟨input.maxSteps - s.appliedSteps - 1, by omega⟩
    simp only [initialState, Nat.zero_add] at hrun hloop
    rw [hn, rollbackLoop, hround] at hrun
    obtain rfl : u = t := Except.ok.inj (hrun.symm.trans hloop)
    rw [finalSummary, if_pos hcurrent] at hsummary
    have hsame := Except.ok.inj hsummary
    obtain ⟨v, hv, htried⟩ := hpersists (hsame ▸ hcex) (by rw [hlog, hulog, hcount hs]; exact hlt)
    obtain rfl : v = u := Except.ok.inj (hv.symm.trans hloop)
    exact hother (htried.level1 other)
  · rcases hcases with ⟨s, hs, hsteps, hend⟩ | ⟨ht, hsteps⟩
    · obtain ⟨j, hjudge, hframe, hcurrent⟩ := round_ended hend
      rw [finalSummary, if_pos hcurrent] at hsummary
      have hsame := Except.ok.inj hsummary
      rw [← hsame] at hcex ⊢
      exact triedEverything_of_ended hend (hs.plan_isSome rfl) hreplay hcex (hlive s hs hsteps)
    · rw [hlog, hcount ht, hsteps] at hlt
      exact absurd hlt (lt_irrefl _)

end Runs

/-! ## A strategy that changes nothing -/

/-- Six steps, the replays always the same. -/
def sixSteps : RunInput where
  layer := noSearch
  hooks := { replayWithPlan := some fun _ _ => .ok [provedReplay [callOf "open"] [callOf "unlock"]] }
  target := none

/-- A single action in a single batch: there is no parallelism to reduce. -/
def singlePlan : MetaPlan where
  orderedBatches := [{ batchId := "batch_000", parallelGroups := [["open"]] }]

theorem rollback_persists_singlePlan : ∃ result,
    evaluate sixSteps [provedReplay [callOf "open"] [callOf "unlock"]] {} [] (some singlePlan)
        (19 / 20) = .ok result ∧
      result.rollbackLog.length ≤ sixSteps.maxSteps ∧
      ((result.summary.counterexamples ≠ [] → result.rollbackLog.length < sixSteps.maxSteps →
          ∃ s, rollbackLoop sixSteps sixSteps.maxSteps
              (initialState [provedReplay [callOf "open"] [callOf "unlock"]] {} []
                (some singlePlan)) = .ok s ∧
            TriedEverything sixSteps result.summary.counterexamples s) ↔
        ∀ s, Reached sixSteps (initialState [provedReplay [callOf "open"] [callOf "unlock"]] {} []
            (some singlePlan)) s → s.appliedSteps < sixSteps.maxSteps → ¬DeadEnd sixSteps s) := by
  have hreturns : (evaluate sixSteps [provedReplay [callOf "open"] [callOf "unlock"]] {} []
      (some singlePlan) (19 / 20)).toOption.isSome := by decide +kernel
  cases hrun : evaluate sixSteps [provedReplay [callOf "open"] [callOf "unlock"]] {} []
      (some singlePlan) (19 / 20) with
  | error e => simp [hrun, Except.toOption] at hreturns
  | ok result => exact ⟨result, rfl, rollback_persists_iff rfl hrun⟩

/-- The loop gives up in its first round: no patch, no step used, and a strategy that was not
tried. -/
theorem rollback_gives_up : ∃ result s,
    evaluate sixSteps [provedReplay [callOf "open"] [callOf "unlock"]] {} [] (some singlePlan)
        (19 / 20) = .ok result ∧
      rollbackLoop sixSteps sixSteps.maxSteps (initialState
        [provedReplay [callOf "open"] [callOf "unlock"]] {} [] (some singlePlan)) = .ok s ∧
      result.summary.counterexamples ≠ [] ∧ result.rollbackLog.length < sixSteps.maxSteps ∧
      Level1Strategy.disableSessionReuse ∉ s.triedLevel1 := by
  have hreport : ((evaluate sixSteps [provedReplay [callOf "open"] [callOf "unlock"]] {} []
      (some singlePlan) (19 / 20)).toOption.map fun result =>
        (result.summary.counterexamples.length, result.rollbackLog.length)) = some (1, 0) := by
    decide +kernel
  have hend : ((rollbackLoop sixSteps sixSteps.maxSteps (initialState
      [provedReplay [callOf "open"] [callOf "unlock"]] {} [] (some singlePlan))).toOption.map
        (·.triedLevel1)) = some [.reduceParallelism] := by
    decide +kernel
  cases hrun : evaluate sixSteps [provedReplay [callOf "open"] [callOf "unlock"]] {} []
      (some singlePlan) (19 / 20) with
  | error e => simp [hrun, Except.toOption] at hreport
  | ok result =>
    cases hloop : rollbackLoop sixSteps sixSteps.maxSteps (initialState
        [provedReplay [callOf "open"] [callOf "unlock"]] {} [] (some singlePlan)) with
    | error e => simp [hloop, Except.toOption] at hend
    | ok s =>
      simp only [hrun, Except.toOption, Option.map_some, Option.some.injEq, Prod.mk.injEq] at hreport
      simp only [hloop, Except.toOption, Option.map_some, Option.some.injEq] at hend
      refine ⟨result, s, rfl, rfl, fun hnil => ?_, ?_, ?_⟩
      · rw [hnil] at hreport
        exact absurd hreport.1 (by decide)
      · rw [hreport.2]
        exact maxSteps_pos sixSteps
      · rw [hend]
        decide

end FloWeaver.Trust
