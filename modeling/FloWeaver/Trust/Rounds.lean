import FloWeaver.Trust.Hardening

/-!
# The rounds of the rollback loop

* `Reached` — the states that a run goes through.
* `round_ended`, `round_patched` — what a round leaves and what it changes.
* `rollbackLoop_cases` — a run ends in a round without a patch, or uses up its steps.
* `judge_summary` — the counterexamples are the replays that are not tolerantly equal.
-/

namespace FloWeaver.Trust

open Py Trace

/-! ## The three attempts -/

section Attempts

variable {input : RunInput} {s s' : RollbackState} {plan : MetaPlan}
  {patched : Option (MetaPlan × Dict)}

/-- An attempt leaves the replays, the log and the last verdict as they are. -/
structure Frame (s s' : RollbackState) : Prop where
  plan : s'.plan = s.plan
  replays : s'.replays = s.replays
  log : s'.log = s.log
  appliedSteps : s'.appliedSteps = s.appliedSteps
  config : s'.config = s.config
  summary : s'.summary = s.summary
  summaryIsCurrent : s'.summaryIsCurrent = s.summaryIsCurrent

theorem Frame.refl (s : RollbackState) : Frame s s := ⟨rfl, rfl, rfl, rfl, rfl, rfl, rfl⟩

theorem Frame.trans {a b c : RollbackState} (h : Frame a b) (h' : Frame b c) : Frame a c :=
  ⟨h'.plan.trans h.plan, h'.replays.trans h.replays, h'.log.trans h.log,
    h'.appliedSteps.trans h.appliedSteps, h'.config.trans h.config, h'.summary.trans h.summary,
    h'.summaryIsCurrent.trans h.summaryIsCurrent⟩

/-- The first level marks its strategy as tried and changes nothing else. -/
theorem tryLevel1_spec (h : tryLevel1 input s plan = .ok (s', patched)) :
    ∃ next, nextLevel1 s = .ok next ∧
      s' = { s with triedLevel1 := s.triedLevel1 ++ next.toList } ∧
      (patched = none → ∀ strategy, next = some strategy → ∃ same,
        applyLevel1Patch plan (level1Strategies.idxOf strategy) input.target
          s.summary.counterexamples = .ok (same, none)) := by
  obtain ⟨next, hnext, h⟩ := bind_eq_ok.1 h
  refine ⟨next, hnext, ?_⟩
  cases next with
  | none =>
    obtain ⟨rfl, rfl⟩ := Prod.mk.inj (pure_eq_ok.1 h)
    exact ⟨by simp, fun _ strategy h => nomatch h⟩
  | some strategy =>
    obtain ⟨⟨result, patch⟩, hpatch, h⟩ := bind_eq_ok.1 h
    obtain ⟨rfl, rfl⟩ := Prod.mk.inj (pure_eq_ok.1 h)
    refine ⟨rfl, fun hnone k hk => ?_⟩
    obtain rfl := Option.some.inj hk
    exact ⟨result, (Option.map_eq_none_iff.1 hnone) ▸ hpatch⟩

/-- The second level is tried once; without a patch it changes nothing else. -/
theorem tryLevel2_spec (h : tryLevel2 input s plan = .ok (s', patched)) :
    Frame s s' ∧ s'.triedLevel1 = s.triedLevel1 ∧ s'.level2Applied = true ∧
      s'.level3Applied = s.level3Applied := by
  rw [tryLevel2] at h
  by_cases happlied : s.level2Applied = true
  · rw [if_pos happlied] at h
    obtain ⟨rfl, rfl⟩ := Prod.mk.inj (Except.ok.inj h)
    exact ⟨Frame.refl _, rfl, happlied, rfl⟩
  · rw [if_neg happlied] at h
    obtain ⟨⟨rules, patch⟩, -, h⟩ := bind_eq_ok.1 h
    cases patch with
    | none =>
      obtain ⟨rfl, rfl⟩ := Prod.mk.inj (pure_eq_ok.1 h)
      exact ⟨⟨rfl, rfl, rfl, rfl, rfl, rfl, rfl⟩, rfl, rfl, rfl⟩
    | some patch =>
      dsimp only at h
      cases hreplan : input.hooks.replanWithDag with
      | none =>
        rw [hreplan] at h
        obtain ⟨rfl, rfl⟩ := Prod.mk.inj (pure_eq_ok.1 h)
        exact ⟨⟨rfl, rfl, rfl, rfl, rfl, rfl, rfl⟩, rfl, rfl, rfl⟩
      | some replan =>
        rw [hreplan] at h
        obtain ⟨replanned, -, h⟩ := bind_eq_ok.1 h
        obtain ⟨rfl, rfl⟩ := Prod.mk.inj (pure_eq_ok.1 h)
        exact ⟨⟨rfl, rfl, rfl, rfl, rfl, rfl, rfl⟩, rfl, rfl, rfl⟩

/-- The third level is tried where the scheduler is at hand and a counterexample is one of
order. -/
theorem tryLevel3_spec (h : tryLevel3 input s plan = .ok (s', patched)) :
    Frame s s' ∧ s'.triedLevel1 = s.triedLevel1 ∧ s'.level2Applied = s.level2Applied ∧
      (input.hooks.replanWithDag.isSome →
        s.summary.counterexamples.anyM isOrderTypeCounterexample = .ok true →
        s'.level3Applied = true) := by
  rw [tryLevel3] at h
  cases happlied : s.level3Applied with
  | true =>
    rw [happlied] at h
    obtain ⟨rfl, rfl⟩ := Prod.mk.inj (Except.ok.inj h)
    exact ⟨Frame.refl _, rfl, rfl, fun _ _ => happlied⟩
  | false =>
    cases hreplan : input.hooks.replanWithDag with
    | none =>
      rw [happlied, hreplan] at h
      obtain ⟨rfl, rfl⟩ := Prod.mk.inj (Except.ok.inj h)
      exact ⟨Frame.refl _, rfl, rfl, fun h => absurd h (by simp)⟩
    | some replan =>
      rw [happlied, hreplan] at h
      obtain ⟨order, horder, h⟩ := bind_eq_ok.1 h
      cases order with
      | false =>
        obtain ⟨rfl, rfl⟩ := Prod.mk.inj (pure_eq_ok.1 h)
        refine ⟨Frame.refl _, rfl, rfl, fun _ h => ?_⟩
        exact absurd (Except.ok.inj (horder.symm.trans h)) Bool.false_ne_true
      | true =>
        obtain ⟨⟨dag, patch⟩, -, h⟩ := bind_eq_ok.1 h
        cases patch with
        | none =>
          obtain ⟨rfl, rfl⟩ := Prod.mk.inj (pure_eq_ok.1 h)
          exact ⟨⟨rfl, rfl, rfl, rfl, rfl, rfl, rfl⟩, rfl, rfl, fun _ _ => rfl⟩
        | some patch =>
          obtain ⟨replanned, -, h⟩ := bind_eq_ok.1 h
          obtain ⟨rfl, rfl⟩ := Prod.mk.inj (pure_eq_ok.1 h)
          exact ⟨⟨rfl, rfl, rfl, rfl, rfl, rfl, rfl⟩, rfl, rfl, fun _ _ => rfl⟩

/-- Every strategy is in the chain. -/
theorem mem_of_nextLevel1_none (h : nextLevel1 s = .ok none) (strategy : Level1Strategy) :
    strategy ∈ s.triedLevel1 := by
  obtain ⟨chain, hchain, h⟩ := bind_eq_ok.1 h
  obtain ⟨preferred, -, hchain⟩ := bind_eq_ok.1 hchain
  obtain rfl := pure_eq_ok.1 hchain
  have hmem : strategy ∈ (preferred ++ level1Strategies).eraseDups := by
    rw [List.mem_eraseDups, List.mem_append]
    exact .inr (by cases strategy <;> decide)
  have := List.find?_eq_none.1 (pure_eq_ok.1 h) strategy hmem
  simpa using this

theorem firstPatch_cons {attempt : RollbackState → MetaPlan →
      Except PyErr (RollbackState × Option (MetaPlan × Dict))}
    {rest : List (RollbackState → MetaPlan →
      Except PyErr (RollbackState × Option (MetaPlan × Dict)))}
    (h : firstPatch (attempt :: rest) s plan = .ok (s', patched)) :
    ∃ t out, attempt s plan = .ok (t, out) ∧
      ((∃ p, out = some p ∧ s' = t ∧ patched = some p) ∨
        (out = none ∧ firstPatch rest t plan = .ok (s', patched))) := by
  rw [firstPatch] at h
  obtain ⟨⟨t, out⟩, hattempt, h⟩ := bind_eq_ok.1 h
  refine ⟨t, out, hattempt, ?_⟩
  cases out with
  | none => exact .inr ⟨rfl, h⟩
  | some p =>
    obtain ⟨rfl, rfl⟩ := Prod.mk.inj (pure_eq_ok.1 h)
    exact .inl ⟨p, rfl, rfl, rfl⟩

/-- What the second and the third level leave when they do not patch. -/
structure LowerLevelsTried (input : RunInput) (s s' : RollbackState) : Prop where
  level2 : s'.level2Applied = true
  level3 : input.hooks.replanWithDag.isSome →
    s.summary.counterexamples.anyM isOrderTypeCounterexample = .ok true → s'.level3Applied = true

theorem lowerLevels_spec
    (h : firstPatch [tryLevel2 input, tryLevel3 input] s plan = .ok (s', patched)) :
    Frame s s' ∧ s'.triedLevel1 = s.triedLevel1 ∧
      (patched = none → LowerLevelsTried input s s') := by
  obtain ⟨t, out, hlevel2, h⟩ := firstPatch_cons h
  obtain ⟨hframe2, htried2, happlied2, -⟩ := tryLevel2_spec hlevel2
  rcases h with ⟨p, -, rfl, rfl⟩ | ⟨-, h⟩
  · exact ⟨hframe2, htried2, fun h => nomatch h⟩
  · obtain ⟨u, out, hlevel3, h⟩ := firstPatch_cons h
    obtain ⟨hframe3, htried3, happlied3, horder⟩ := tryLevel3_spec hlevel3
    have hframe := hframe2.trans hframe3
    have htried := htried3.trans htried2
    rcases h with ⟨p, -, rfl, rfl⟩ | ⟨-, h⟩
    · exact ⟨hframe, htried, fun h => nomatch h⟩
    · obtain ⟨rfl, rfl⟩ := Prod.mk.inj (Except.ok.inj h)
      refine ⟨hframe, htried, fun _ => ⟨happlied3.trans happlied2, fun hreplan hany => ?_⟩⟩
      exact horder hreplan (hframe2.summary ▸ hany)

/-- The three attempts leave the verdict alone; without a patch all of them were made. -/
theorem firstPatch_spec
    (h : firstPatch [tryLevel1 input, tryLevel2 input, tryLevel3 input] s plan =
      .ok (s', patched)) :
    Frame s s' ∧ (patched = none → ∃ next, nextLevel1 s = .ok next ∧
      s'.triedLevel1 = s.triedLevel1 ++ next.toList ∧ LowerLevelsTried input s s' ∧
      ∀ strategy, next = some strategy →
        (∃ same, applyLevel1Patch plan (level1Strategies.idxOf strategy) input.target
          s.summary.counterexamples = .ok (same, none)) ∧
        firstPatch [tryLevel2 input, tryLevel3 input]
          { s with triedLevel1 := s.triedLevel1 ++ [strategy] } plan = .ok (s', none)) := by
  obtain ⟨t, out, hlevel1, h⟩ := firstPatch_cons h
  obtain ⟨next, hnext, rfl, hnoop⟩ := tryLevel1_spec hlevel1
  have hframe1 : Frame s { s with triedLevel1 := s.triedLevel1 ++ next.toList } :=
    ⟨rfl, rfl, rfl, rfl, rfl, rfl, rfl⟩
  rcases h with ⟨p, -, rfl, rfl⟩ | ⟨hout, h⟩
  · exact ⟨hframe1, fun h => nomatch h⟩
  · obtain ⟨hframe, htried, hlower⟩ := lowerLevels_spec h
    refine ⟨hframe1.trans hframe, fun hnone => ⟨next, hnext, htried, ?_, ?_⟩⟩
    · exact ⟨(hlower hnone).level2, (hlower hnone).level3⟩
    · rintro strategy rfl
      subst hnone
      exact ⟨hnoop hout strategy rfl, h⟩

end Attempts

/-! ## One round -/

section Rounds

variable {input : RunInput} {s t : RollbackState}

theorem judge_spec {j : RollbackState} (h : judge input s = .ok j) :
    ∃ config summary, traceCompareConfig input.target s.plan = .ok config ∧
      summarizeReplay input.layer s.replays input.target config s.appliedSteps = .ok summary ∧
      j = { s with config, summary, summaryIsCurrent := true } := by
  obtain ⟨config, hconfig, h⟩ := bind_eq_ok.1 h
  obtain ⟨summary, hsummary, h⟩ := bind_eq_ok.1 h
  exact ⟨config, summary, hconfig, hsummary, (pure_eq_ok.1 h).symm⟩

/-- A round judges the replays; it ends at once, after the attempts, or after a patch. -/
theorem round_cases {out : Outcome} (h : round input s = .ok out) :
    ∃ j, judge input s = .ok j ∧
      ((out = .ended j ∧ (j.summary.counterexamples = [] ∨ j.plan = none ∨
          input.hooks.replayWithPlan = none)) ∨
        ∃ plan replay s' patched, j.summary.counterexamples ≠ [] ∧ j.plan = some plan ∧
          input.hooks.replayWithPlan = some replay ∧
          firstPatch [tryLevel1 input, tryLevel2 input, tryLevel3 input] j plan =
            .ok (s', patched) ∧
          ((patched = none ∧ out = .ended s') ∨ ∃ plan' patch t, patched = some (plan', patch) ∧
            replayAfter replay s' plan' patch = .ok t ∧ out = .patched t)) := by
  obtain ⟨j, hjudge, h⟩ := bind_eq_ok.1 h
  refine ⟨j, hjudge, ?_⟩
  by_cases hempty : j.summary.counterexamples.isEmpty = true
  · rw [if_pos hempty] at h
    exact .inl ⟨(pure_eq_ok.1 h).symm, .inl (List.isEmpty_iff.1 hempty)⟩
  · rw [if_neg hempty] at h
    cases hplan : j.plan with
    | none =>
      rw [hplan] at h
      exact .inl ⟨(pure_eq_ok.1 h).symm, .inr (.inl rfl)⟩
    | some plan =>
      cases hreplay : input.hooks.replayWithPlan with
      | none =>
        rw [hplan, hreplay] at h
        exact .inl ⟨(pure_eq_ok.1 h).symm, .inr (.inr rfl)⟩
      | some replay =>
        rw [hplan, hreplay] at h
        obtain ⟨⟨s', patched⟩, hfirst, h⟩ := bind_eq_ok.1 h
        refine .inr ⟨plan, replay, s', patched, by simpa using hempty, rfl, rfl, hfirst, ?_⟩
        cases patched with
        | none => exact .inl ⟨rfl, (pure_eq_ok.1 h).symm⟩
        | some row =>
          obtain ⟨t, hreplayed, h⟩ := bind_eq_ok.1 h
          exact .inr ⟨row.1, row.2, t, rfl, hreplayed, (pure_eq_ok.1 h).symm⟩

/-- A round that ends leaves the plan and the replays, with the verdict on them. -/
theorem round_ended (h : round input s = .ok (.ended t)) :
    ∃ j, judge input s = .ok j ∧ Frame j t ∧ t.summaryIsCurrent = true := by
  obtain ⟨j, hjudge, hcases⟩ := round_cases h
  obtain ⟨config, summary, -, -, rfl⟩ := judge_spec hjudge
  refine ⟨_, hjudge, ?_⟩
  rcases hcases with ⟨hout, -⟩ | ⟨plan, replay, s', patched, -, -, -, hfirst, hout⟩
  · obtain rfl := Outcome.ended.inj hout
    exact ⟨Frame.refl _, rfl⟩
  · obtain ⟨hframe, -⟩ := firstPatch_spec hfirst
    rcases hout with ⟨-, hout⟩ | ⟨_, _, _, -, -, hout⟩
    · obtain rfl := Outcome.ended.inj hout
      exact ⟨hframe, hframe.summaryIsCurrent⟩
    · exact Outcome.noConfusion hout

/-- A round that patches uses up a step and logs the patch; it keeps the configuration under
which the replays before the patch were judged. -/
theorem round_patched (h : round input s = .ok (.patched t)) :
    traceCompareConfig input.target s.plan = .ok t.config ∧
      t.appliedSteps = s.appliedSteps + 1 ∧ t.log.length = s.log.length + 1 ∧
      t.summaryIsCurrent = false := by
  obtain ⟨j, hjudge, hcases⟩ := round_cases h
  obtain ⟨config, summary, hconfig, -, rfl⟩ := judge_spec hjudge
  rcases hcases with ⟨hout, -⟩ | ⟨plan, replay, s', patched, -, -, -, hfirst, hout⟩
  · exact Outcome.noConfusion hout
  · obtain ⟨hframe, -⟩ := firstPatch_spec hfirst
    rcases hout with ⟨-, hout⟩ | ⟨plan', patch, u, -, hreplayed, hout⟩
    · exact Outcome.noConfusion hout
    · obtain rfl := Outcome.patched.inj hout
      obtain ⟨replays, -, hu⟩ := bind_eq_ok.1 hreplayed
      obtain rfl := pure_eq_ok.1 hu
      refine ⟨?_, ?_, ?_, rfl⟩
      · rw [hconfig]
        exact congrArg Except.ok hframe.config.symm
      · exact congrArg (· + 1) hframe.appliedSteps
      · show (s'.log ++ [patch]).length = _
        rw [List.length_append, hframe.log]
        rfl

/-! ## Runs -/

/-- The states that a run goes through. -/
inductive Reached (input : RunInput) (s₀ : RollbackState) : RollbackState → Prop
  | start : Reached input s₀ s₀
  | patched {s t : RollbackState} (h : Reached input s₀ s) (hr : round input s = .ok (.patched t)) :
      Reached input s₀ t

variable {s₀ : RollbackState}

/-- Every step of a run is in the log. -/
theorem Reached.log_length (h : Reached input s₀ s) :
    s.appliedSteps + s₀.log.length = s₀.appliedSteps + s.log.length := by
  induction h with
  | start => exact Nat.add_comm .. ▸ rfl
  | patched _ hr ih =>
    obtain ⟨-, happlied, hlog, -⟩ := round_patched hr
    omega

theorem Reached.head {s₁ : RollbackState} (hr : round input s₀ = .ok (.patched s₁))
    (h : Reached input s₁ s) : Reached input s₀ s := by
  induction h with
  | start => exact .patched .start hr
  | patched _ hr' ih => exact .patched ih hr'

/-- Without a patch in the first round a run stays where it starts. -/
theorem Reached.eq_start (h : Reached input s₀ s)
    (hfirst : ∀ t, round input s₀ ≠ .ok (.patched t)) : s = s₀ := by
  induction h with
  | start => rfl
  | patched _ hr ih => exact absurd (ih ▸ hr) (hfirst _)

/-- A run ends in a round without a patch, or when its steps are used up. -/
theorem rollbackLoop_cases : ∀ {steps : ℕ} {s₀ : RollbackState},
    rollbackLoop input steps s₀ = .ok t →
    (∃ s, Reached input s₀ s ∧ s.appliedSteps < s₀.appliedSteps + steps ∧
      round input s = .ok (.ended t)) ∨
    (Reached input s₀ t ∧ t.appliedSteps = s₀.appliedSteps + steps)
  | 0, s₀, h => by
      obtain rfl := Except.ok.inj h
      exact .inr ⟨.start, rfl⟩
  | steps + 1, s₀, h => by
      obtain ⟨out, hround, h⟩ := bind_eq_ok.1 h
      cases out with
      | ended u =>
        obtain rfl := pure_eq_ok.1 h
        exact .inl ⟨s₀, .start, by omega, hround⟩
      | patched u =>
        have happlied := (round_patched hround).2.1
        rcases rollbackLoop_cases h with ⟨s, hs, hlt, hend⟩ | ⟨ht, hsteps⟩
        · exact .inl ⟨s, .head hround hs, by omega, hend⟩
        · exact .inr ⟨.head hround ht, by omega⟩

/-- From a state that it goes through, a run goes on as from a start. -/
theorem Reached.rollbackLoop_eq (h : Reached input s₀ s) (steps : ℕ)
    (hlt : s.appliedSteps ≤ s₀.appliedSteps + steps) :
    rollbackLoop input steps s₀ =
      rollbackLoop input (s₀.appliedSteps + steps - s.appliedSteps) s := by
  induction h with
  | start => rw [Nat.add_sub_cancel_left]
  | @patched s t hs hr ih =>
    have happlied := (round_patched hr).2.1
    rw [ih (by omega)]
    obtain ⟨n, hn⟩ : ∃ n, s₀.appliedSteps + steps - s.appliedSteps = n + 1 :=
      ⟨s₀.appliedSteps + steps - t.appliedSteps, by omega⟩
    have hn' : s₀.appliedSteps + steps - t.appliedSteps = n := by omega
    rw [hn, hn', rollbackLoop, hr]
    rfl

end Rounds

end FloWeaver.Trust
