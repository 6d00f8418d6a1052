import FloWeaver.Scheduler.PlanFacts

/-!
# The hard order of a plan

* `schedule_error` — why a call has no plan.
* `hardOrder_respected` — the ends of an edge of the projected graph are in batches in the
  order of the edge, and the cycle error is raised exactly on a cyclic graph.
* `malformedBudget_raises` — an acyclic graph for which another `ValueError` is raised.
-/

namespace FloWeaver.Scheduler

open Py DepGraph Relation

variable {base : SchedulerPolicy} {dag : TypedDAG} {metrics : Dict} {target : OptimizationTarget}
  {ctx : Ctx} {plan : ExecutionPlan}

/-! ## Errors -/

theorem liftPy_eq_error {α : Type} {x : Except PyErr α} {e : ScheduleError} :
    liftPy x = .error e ↔ ∃ err, x = .error err ∧ e = .python err := by
  cases x <;> simp [liftPy, eq_comm]

theorem refuseCycles_eq_error {hard : HardGraph} {e : ScheduleError} :
    refuseCycles hard = .error e ↔
      ¬ Acyclic hard.graph.E ∧ e = .hardEdgeCycle (resolveCycles hard) := by
  rw [← resolveCycles_eq_nil_iff, refuseCycles]
  split_ifs with h
  · simpa using fun hne => absurd (List.isEmpty_iff.1 h) hne
  · rw [Except.error.injEq, eq_comm]
    exact ⟨fun he => ⟨fun hnil => h (by simp [hnil]), he⟩, fun he => he.2⟩

/-- The tables fail on a malformed value or on a cyclic graph. -/
theorem prepare_eq_error {e : ScheduleError} (h : prepare base dag metrics target = .error e) :
    (∃ err, e = .python err) ∨ ∃ policy hard, effectivePolicy base metrics target = .ok policy ∧
      projectHardGraph dag (actionIndex target) target = .ok hard ∧ ¬ Acyclic hard.graph.E ∧
      e = .hardEdgeCycle (resolveCycles hard) := by
  unfold prepare at h
  rcases bind_eq_error.1 h with h | ⟨policy, hpolicy, h⟩
  · obtain ⟨err, -, rfl⟩ := liftPy_eq_error.1 h
    exact .inl ⟨err, rfl⟩
  rcases bind_eq_error.1 h with h | ⟨hard, hhard, h⟩
  · obtain ⟨err, -, rfl⟩ := liftPy_eq_error.1 h
    exact .inl ⟨err, rfl⟩
  rcases bind_eq_error.1 h with h | ⟨_, -, h⟩
  · obtain ⟨hcyc, rfl⟩ := refuseCycles_eq_error.1 h
    exact .inr ⟨policy, hard, liftPy_eq_ok.1 hpolicy, liftPy_eq_ok.1 hhard, hcyc, rfl⟩
  rcases bind_eq_error.1 h with h | ⟨weights, -, h⟩
  · obtain ⟨err, -, rfl⟩ := liftPy_eq_error.1 h
    exact .inl ⟨err, rfl⟩
  rcases bind_eq_error.1 h with h | ⟨derived, -, h⟩
  · obtain ⟨err, -, rfl⟩ := liftPy_eq_error.1 h
    exact .inl ⟨err, rfl⟩
  · exact absurd h (by simp [pure, Except.pure])

/-- On an acyclic graph the loop reaches every action. -/
theorem scheduleSteps_ok (h : prepare base dag metrics target = .ok ctx) :
    ∃ steps, scheduleSteps ctx = .ok steps := by
  obtain ⟨hard, hp⟩ := prepare_spec h
  exact scheduleLoop_ok hp.soundLimits hp.reduced_acyclic hp.nodes _ _ (Frontier.inv_start _)

/-- A target without actions has no edges. -/
theorem acyclic_of_no_actions (he : (actionIndex target).keys = []) {hard : HardGraph}
    (hh : projectHardGraph dag (actionIndex target) target = .ok hard) :
    Acyclic hard.graph.E := by
  obtain ⟨-, -, hn, -⟩ := projectHardGraph_spec hh
  intro v hv
  obtain ⟨w, hvw⟩ : ∃ w, hard.graph.E v w := by
    rcases TransGen.head'_iff.1 hv with ⟨w, hw, -⟩
    exact ⟨w, hw⟩
  have := CountedGraph.E_src hvw
  simp [hn, he] at this

/-- There is no plan because of a malformed value or because of a cycle, never because the
loop got stuck. -/
theorem schedule_error {e : ScheduleError} (h : schedule base dag metrics target = .error e) :
    (∃ err, e = .python err) ∨ ∃ policy hard, effectivePolicy base metrics target = .ok policy ∧
      projectHardGraph dag (actionIndex target) target = .ok hard ∧ ¬ Acyclic hard.graph.E ∧
      e = .hardEdgeCycle (resolveCycles hard) := by
  unfold schedule at h
  by_cases he : (actionIndex target).keys = []
  · rw [if_pos (by simpa using he)] at h
    rcases bind_eq_error.1 h with h | ⟨_, -, h⟩
    · obtain ⟨err, -, rfl⟩ := liftPy_eq_error.1 h
      exact .inl ⟨err, rfl⟩
    · exact absurd h (by simp [pure, Except.pure])
  · rw [if_neg (by simpa using he)] at h
    rcases bind_eq_error.1 h with h | ⟨ctx, hctx, h⟩
    · exact prepare_eq_error h
    · obtain ⟨steps, hsteps⟩ := scheduleSteps_ok hctx
      simp [hsteps, bind, Except.bind, pure, Except.pure] at h

/-- A cyclic graph is refused. -/
theorem schedule_of_cyclic {policy : SchedulerPolicy} {hard : HardGraph}
    (hp : effectivePolicy base metrics target = .ok policy)
    (hh : projectHardGraph dag (actionIndex target) target = .ok hard)
    (hcyc : ¬ Acyclic hard.graph.E) :
    schedule base dag metrics target = .error (.hardEdgeCycle (resolveCycles hard)) := by
  have he : (actionIndex target).keys ≠ [] := fun he => hcyc (acyclic_of_no_actions he hh)
  have hr : refuseCycles hard = .error (.hardEdgeCycle (resolveCycles hard)) :=
    refuseCycles_eq_error.2 ⟨hcyc, rfl⟩
  have hprep : prepare base dag metrics target = .error (.hardEdgeCycle (resolveCycles hard)) := by
    unfold prepare
    simp only [liftPy_eq_ok.2 hp, liftPy_eq_ok.2 hh, hr, bind, Except.bind]
  unfold schedule
  rw [if_neg (by simpa using he), hprep]
  rfl

/-! ## Order -/

/-- Both ends of an edge of the projected graph are in a batch, the source first. -/
theorem inBatch_of_edge (h : schedule base dag metrics target = .ok plan) {hard : HardGraph}
    (hh : projectHardGraph dag (actionIndex target) target = .ok hard) {src dst : String}
    (he : hard.graph.E src dst) :
    (∃ i, InBatch plan i src) ∧ (∃ j, InBatch plan j dst) ∧
      ∀ i j, InBatch plan i src → InBatch plan j dst → i < j := by
  obtain ⟨-, -, hn, -⟩ := projectHardGraph_spec hh
  have hsrc : src ∈ (actionIndex target).keys := hn ▸ CountedGraph.E_src he
  have hdst : dst ∈ (actionIndex target).keys := hn ▸ CountedGraph.E_dst he
  rcases schedule_run h with ⟨hnil, -⟩ | ⟨ctx, steps, hard', hp, hrun, rfl⟩
  · simp [hnil] at hsrc
  · obtain rfl : hard' = hard := Except.ok.inj (hp.project.symm.trans hh)
    rw [← hp.index] at hsrc hdst
    refine ⟨hrun.exists_inBatch hsrc, hrun.exists_inBatch hdst, fun i j hi hj => ?_⟩
    -- the reduction kept a path for the edge
    obtain ⟨k, hkj, hk⟩ := hrun.lt_of_path (hp.reduces.path _ _ he) hj
    rwa [hrun.inBatch_unique hi hk]

/-- **The hard order is respected.**  A returned plan places the ends of every edge of the
projected graph, as it stands before the reduction, in batches in the order of the edge.  Once
the policy and the projection are computed, the cycle error is raised exactly when the graph
has a cycle; every other error is the conversion of a malformed value. -/
theorem hardOrder_respected (base : SchedulerPolicy) (dag : TypedDAG) (metrics : Dict)
    (target : OptimizationTarget) :
    (∀ plan, schedule base dag metrics target = .ok plan → ∀ hard,
      projectHardGraph dag (actionIndex target) target = .ok hard →
      ∀ src dst, hard.graph.E src dst →
        (∃ i, InBatch plan i src) ∧ (∃ j, InBatch plan j dst) ∧
          ∀ i j, InBatch plan i src → InBatch plan j dst → i < j) ∧
    ((∃ report, schedule base dag metrics target = .error (.hardEdgeCycle report)) ↔
      ∃ policy hard, effectivePolicy base metrics target = .ok policy ∧
        projectHardGraph dag (actionIndex target) target = .ok hard ∧
        Cyclic hard.graph.E) ∧
    ∀ e, schedule base dag metrics target = .error e →
      (∃ err, e = .python err) ∨ ∃ report, e = .hardEdgeCycle report := by
  refine ⟨fun plan h hard hh src dst he => inBatch_of_edge h hh he, ⟨?_, ?_⟩, fun e h => ?_⟩
  · rintro ⟨report, h⟩
    rcases schedule_error h with ⟨err, hne⟩ | ⟨policy, hard, hp, hh, hcyc, -⟩
    · exact absurd hne (by simp)
    · exact ⟨policy, hard, hp, hh, by rwa [← not_cyclic_iff, not_not] at hcyc⟩
  · rintro ⟨policy, hard, hp, hh, hcyc⟩
    exact ⟨_, schedule_of_cyclic hp hh fun hac => not_cyclic_iff.2 hac hcyc⟩
  · rcases schedule_error h with ⟨err, rfl⟩ | ⟨-, hard, -, -, -, rfl⟩
    · exact .inl ⟨err, rfl⟩
    · exact .inr ⟨_, rfl⟩

/-- A budget whose limit is the text `abc`. -/
def malformedBudgetDag : TypedDAG where
  softConstraints := [{ kind := SoftConstraintKind.budgetK, scope := ["a"]
                        params := [("limit", .str "abc")] }]

/-- A target with one action. -/
def singleActionTarget : OptimizationTarget where
  vdevActions := [[("action_id", .str "a"), ("protocol", .str "LOCAL")]]

/-- The graph of one action has no cycle, yet the malformed limit raises a `ValueError`. -/
theorem malformedBudget_raises :
    ¬ ((∃ e, schedule {} malformedBudgetDag [] singleActionTarget = .error e ∧
        e.isValueError = true) ↔
      ∃ hard, projectHardGraph malformedBudgetDag (actionIndex singleActionTarget)
        singleActionTarget = .ok hard ∧ Cyclic hard.graph.E) := by
  intro h
  have hraises : (match schedule {} malformedBudgetDag [] singleActionTarget with
      | .error e => e.isValueError
      | .ok _ => false) = true := by decide +kernel
  have hkeys : (actionIndex singleActionTarget).keys = ["a"] := by decide +kernel
  obtain ⟨hard, hh, hcyc⟩ := h.1 <| by
    split at hraises
    · exact ⟨_, ‹_›, hraises⟩
    · exact absurd hraises (by simp)
  -- an edge joins two different actions, and there is only one
  obtain ⟨own, -, hn, hE⟩ := projectHardGraph_spec hh
  obtain ⟨v, hv⟩ := hcyc
  obtain ⟨w, hvw, -⟩ := TransGen.head'_iff.1 hv
  have h1 := CountedGraph.E_src hvw
  have h2 := CountedGraph.E_dst hvw
  rw [hn, hkeys, List.mem_singleton] at h1 h2
  exact ((hE v w).1 hvw).1 (h1.trans h2.symm)

end FloWeaver.Scheduler
