import FloWeaver.Scheduler.HardGraphFacts
import FloWeaver.Scheduler.RunFacts

/-!
# From a call of `schedule` to a run

* `prepare_spec` — what the tables of a run are.
* `schedule_run` — a returned plan is the plan of a complete run.
* `InBatch`, `inBatch_iff` — an action in a batch of the plan is an action picked for it.
* `batch_lt_of_path` — a path of the hard graph leads to a later batch.
* `inBatch_unique`, `exists_inBatch` — every action is in exactly one batch.
-/

namespace FloWeaver.Scheduler

open Py DepGraph Relation

variable {base : SchedulerPolicy} {dag : TypedDAG} {metrics : Dict} {target : OptimizationTarget}
  {ctx : Ctx} {plan : ExecutionPlan} {steps : List BatchStep}

theorem liftPy_eq_ok {α : Type} {x : Except PyErr α} {a : α} : liftPy x = .ok a ↔ x = .ok a := by
  cases x <;> simp [liftPy]

/-! ## The tables -/

/-- What the tables of a run are. -/
structure Prepared (base : SchedulerPolicy) (dag : TypedDAG) (metrics : Dict)
    (target : OptimizationTarget) (ctx : Ctx) (hard : HardGraph) : Prop where
  policy : ∃ policy, effectivePolicy base metrics target = .ok policy ∧
    derivedPolicy policy dag metrics target = .ok ctx.derived
  project : projectHardGraph dag (actionIndex target) target = .ok hard
  acyclic : Acyclic hard.graph.E
  index : ctx.index = actionIndex target
  reduced : ctx.hard = transitiveReduce hard
  phases : ctx.phases = actionPhaseMap (actionIndex target)
  conservative : ctx.conservativeGrouping = conservativeObservableGroupingEnabled target

theorem refuseCycles_eq_ok {hard : HardGraph} :
    refuseCycles hard = .ok () ↔ Acyclic hard.graph.E := by
  rw [← resolveCycles_eq_nil_iff, refuseCycles]
  split_ifs with h <;> simpa using h

theorem prepare_spec (h : prepare base dag metrics target = .ok ctx) :
    ∃ hard, Prepared base dag metrics target ctx hard := by
  unfold prepare at h
  obtain ⟨policy, hpolicy, h⟩ := bind_eq_ok.1 h
  obtain ⟨hard, hhard, h⟩ := bind_eq_ok.1 h
  obtain ⟨⟨⟩, hacyclic, h⟩ := bind_eq_ok.1 h
  obtain ⟨weights, -, h⟩ := bind_eq_ok.1 h
  obtain ⟨derived, hderived, h⟩ := bind_eq_ok.1 h
  obtain rfl := pure_eq_ok.1 h
  exact ⟨hard, ⟨policy, liftPy_eq_ok.1 hpolicy, liftPy_eq_ok.1 hderived⟩,
    liftPy_eq_ok.1 hhard, refuseCycles_eq_ok.1 hacyclic, rfl, rfl, rfl, rfl⟩

theorem soundLimits_finalDerived {conservative : Bool} {index : ActionIndex}
    {d d' : DerivedConstraintPolicy} (h : finalDerived conservative index d = .ok d')
    (hd : SoundLimits d) : SoundLimits d' := by
  unfold finalDerived capDerived at h
  obtain ⟨capped, hc, h⟩ := bind_eq_ok.1 h
  obtain rfl := pure_eq_ok.1 h
  split_ifs at hc
  · obtain ⟨active, -, hc⟩ := bind_eq_ok.1 hc
    obtain rfl := pure_eq_ok.1 hc
    exact ⟨hd.total, hd.ble, hd.cloud, hd.localNet, hd.unknown, hd.budgets⟩
  · obtain rfl := pure_eq_ok.1 hc
    exact ⟨hd.total, hd.ble, hd.cloud, hd.localNet, hd.unknown, hd.budgets⟩

theorem Prepared.soundLimits {hard : HardGraph} (h : Prepared base dag metrics target ctx hard) :
    SoundLimits ctx.derived := by
  obtain ⟨policy, -, hd⟩ := h.policy
  obtain ⟨d, h1, h2⟩ := bind_eq_ok.1 hd
  exact soundLimits_finalDerived h2 (soundLimits_derive h1)

theorem Prepared.reduces {hard : HardGraph} (h : Prepared base dag metrics target ctx hard) :
    CountedGraph.Reduces hard.graph ctx.hard.graph := h.reduced ▸ reduces_transitiveReduce hard

theorem Prepared.nodes {hard : HardGraph} (h : Prepared base dag metrics target ctx hard) :
    ctx.hard.graph.nodes = ctx.index.keys := by
  obtain ⟨own, -, hn, -⟩ := projectHardGraph_spec h.project
  rw [h.reduces.nodes_eq, hn, h.index]

theorem Prepared.reduced_acyclic {hard : HardGraph}
    (h : Prepared base dag metrics target ctx hard) : Acyclic ctx.hard.graph.E :=
  h.acyclic.mono h.reduces.sub

/-! ## The run of a plan -/

/-- A complete run: it starts with nothing done and ends with every action done. -/
structure CompleteRun (ctx : Ctx) (steps : List BatchStep) : Prop where
  limits : SoundLimits ctx.derived
  nodes : ctx.hard.graph.nodes = ctx.index.keys
  run : ∃ f', Run ctx (Frontier.start ctx.hard.graph) steps f' ∧
    ctx.index.keys.length ≤ f'.done.length

theorem completeRun {hard : HardGraph} (hp : Prepared base dag metrics target ctx hard)
    (hs : scheduleSteps ctx = .ok steps) : CompleteRun ctx steps :=
  ⟨hp.soundLimits, hp.nodes, run_scheduleLoop hp.soundLimits _ _ _ (Frontier.inv_start _)
    (by simp [Frontier.start]) hs⟩

theorem schedule_ok (hne : (actionIndex target).keys ≠ []) :
    schedule base dag metrics target = .ok plan ↔
      ∃ ctx steps, prepare base dag metrics target = .ok ctx ∧ scheduleSteps ctx = .ok steps ∧
        plan = assemblePlan ctx steps := by
  unfold schedule
  rw [if_neg (by simpa using hne), bind_eq_ok]
  refine exists_congr fun ctx => ?_
  rw [bind_eq_ok]
  constructor
  · rintro ⟨h1, steps, h2, h3⟩
    exact ⟨steps, h1, h2, (pure_eq_ok.1 h3).symm⟩
  · rintro ⟨steps, h1, h2, h3⟩
    exact ⟨h1, steps, h2, pure_eq_ok.2 h3.symm⟩

/-- A target without actions has the empty plan. -/
theorem schedule_nil (he : (actionIndex target).keys = [])
    (h : schedule base dag metrics target = .ok plan) : plan = {} := by
  unfold schedule at h
  rw [if_pos (by simpa using he)] at h
  obtain ⟨_, -, h⟩ := bind_eq_ok.1 h
  exact (pure_eq_ok.1 h).symm

/-- A returned plan is the plan of a complete run, or the target has no actions. -/
theorem schedule_run (h : schedule base dag metrics target = .ok plan) :
    ((actionIndex target).keys = [] ∧ plan = {}) ∨
      ∃ ctx steps hard, Prepared base dag metrics target ctx hard ∧ CompleteRun ctx steps ∧
        plan = assemblePlan ctx steps := by
  by_cases he : (actionIndex target).keys = []
  · exact .inl ⟨he, schedule_nil he h⟩
  · obtain ⟨ctx, steps, h1, h2, h3⟩ := (schedule_ok he).1 h
    obtain ⟨hard, hp⟩ := prepare_spec h1
    exact .inr ⟨ctx, steps, hard, hp, completeRun hp h2, h3⟩

/-- The groups of a returned plan, batch by batch. -/
def planGroups (r : Except ScheduleError ExecutionPlan) : Option (List (List (List String))) :=
  r.toOption.map fun plan => plan.orderedBatches.map (·.parallelGroups)

theorem exists_plan {r : Except ScheduleError ExecutionPlan}
    {groups : List (List (List String))} (h : planGroups r = some groups) :
    ∃ plan, r = .ok plan ∧ plan.orderedBatches.map (·.parallelGroups) = groups := by
  cases r with
  | error e => simp [planGroups, Except.toOption] at h
  | ok plan => exact ⟨plan, rfl, by simpa [planGroups, Except.toOption] using h⟩

/-! ## Actions in batches -/

/-- The action is in the batch at a position of the plan. -/
def InBatch (plan : ExecutionPlan) (i : ℕ) (a : String) : Prop :=
  ∃ b, plan.orderedBatches[i]? = some b ∧ a ∈ b.parallelGroups.flatten

theorem inBatch_of_groups {groups : List (List (List String))}
    (h : plan.orderedBatches.map (·.parallelGroups) = groups) {i : ℕ} {g : List (List String)}
    (hg : groups[i]? = some g) {a : String} (ha : a ∈ g.flatten) : InBatch plan i a := by
  rw [← h, List.getElem?_map] at hg
  obtain ⟨b, hb, rfl⟩ := Option.map_eq_some_iff.1 hg
  exact ⟨b, hb, ha⟩

theorem assemblePlan_getElem? (ctx : Ctx) (steps : List BatchStep) (i : ℕ) :
    (assemblePlan ctx steps).orderedBatches[i]? = steps[i]?.map (assembleBatch ctx i) := by
  simp only [assemblePlan, List.getElem?_map, List.getElem?_zipIdx, Option.map_map]
  simp [Function.comp_def]

namespace CompleteRun

theorem step (h : CompleteRun ctx steps) {s : BatchStep} (hs : s ∈ steps) :
    s.before.ready ≠ [] ∧ s.before.Inv ctx.hard.graph ∧ s.selection = selectBatch ctx s.before := by
  obtain ⟨f', hrun, -⟩ := h.run
  exact hrun.step h.limits (Frontier.inv_start _) s hs

theorem nodup (h : CompleteRun ctx steps) {s : BatchStep} (hs : s ∈ steps) :
    s.selection.selected.Nodup := by
  obtain ⟨hr, -, heq⟩ := h.step hs
  rw [heq]
  exact (selectBatch_selected h.limits hr).1

/-- An action in a batch of the plan is an action picked for it. -/
theorem inBatch_iff (h : CompleteRun ctx steps) {i : ℕ} {a : String} :
    InBatch (assemblePlan ctx steps) i a ↔
      ∃ s, steps[i]? = some s ∧ a ∈ s.selection.selected := by
  unfold InBatch
  rw [assemblePlan_getElem?]
  constructor
  · rintro ⟨b, hb, ha⟩
    obtain ⟨s, hs, rfl⟩ := Option.map_eq_some_iff.1 hb
    exact ⟨s, hs, (mem_buildParallelGroups (h.nodup (List.mem_of_getElem? hs))).1 ha⟩
  · rintro ⟨s, hs, ha⟩
    exact ⟨_, Option.map_eq_some_iff.2 ⟨s, hs, rfl⟩,
      (mem_buildParallelGroups (h.nodup (List.mem_of_getElem? hs))).2 ha⟩

theorem inBatch_batchesOf (h : CompleteRun ctx steps) {i : ℕ} {a : String} :
    InBatch (assemblePlan ctx steps) i a ↔ ∃ b, (batchesOf steps)[i]? = some b ∧ a ∈ b := by
  rw [h.inBatch_iff]
  simp [batchesOf]

theorem batches_perm (h : CompleteRun ctx steps) :
    (batchesOf steps).flatten.Perm ctx.index.keys := by
  obtain ⟨f', hrun, hlen⟩ := h.run
  have hbr := hrun.batchRun h.limits
  have hinv := hbr.inv (Frontier.inv_start _)
  rw [← h.nodes] at hlen ⊢
  refine hbr.perm fun v hv => ?_
  exact (List.subperm_of_subset hinv.done_nodup hinv.done_sub).perm_of_length_le hlen
    |>.mem_iff.2 hv

/-- The batches of the picks hold every action, and each once. -/
theorem exists_inBatch (h : CompleteRun ctx steps) {a : String} (ha : a ∈ ctx.index.keys) :
    ∃ i, InBatch (assemblePlan ctx steps) i a := by
  obtain ⟨b, hb, hab⟩ := List.mem_flatten.1 (h.batches_perm.mem_iff.2 ha)
  obtain ⟨i, hi⟩ := List.mem_iff_getElem?.1 hb
  exact ⟨i, h.inBatch_batchesOf.2 ⟨b, hi, hab⟩⟩

theorem inBatch_unique (h : CompleteRun ctx steps) {a : String} {i j : ℕ}
    (hi : InBatch (assemblePlan ctx steps) i a) (hj : InBatch (assemblePlan ctx steps) j a) :
    i = j := by
  obtain ⟨b, hb, hab⟩ := h.inBatch_batchesOf.1 hi
  obtain ⟨c, hc, hac⟩ := h.inBatch_batchesOf.1 hj
  have hnd : (batchesOf steps).flatten.Nodup :=
    h.batches_perm.nodup_iff.2 ctx.index.keys_nodup
  exact index_unique hnd hb hc hab hac

/-- An edge of the reduced graph leads to a later batch. -/
theorem lt_of_edge (h : CompleteRun ctx steps) {u w : String} (huw : ctx.hard.graph.E u w) {j : ℕ}
    (hj : InBatch (assemblePlan ctx steps) j w) :
    ∃ i < j, InBatch (assemblePlan ctx steps) i u := by
  obtain ⟨f', hrun, -⟩ := h.run
  obtain ⟨b, hb, hw⟩ := h.inBatch_batchesOf.1 hj
  rcases (hrun.batchRun h.limits).edge_lt (Frontier.inv_start _) huw hb hw with hd | ⟨i, hij, a, ha, hu⟩
  · simp [Frontier.start] at hd
  · exact ⟨i, hij, h.inBatch_batchesOf.2 ⟨a, ha, hu⟩⟩

/-- A path of the reduced graph leads to a later batch. -/
theorem lt_of_path (h : CompleteRun ctx steps) {u w : String}
    (huw : TransGen ctx.hard.graph.E u w) {j : ℕ}
    (hj : InBatch (assemblePlan ctx steps) j w) :
    ∃ i < j, InBatch (assemblePlan ctx steps) i u := by
  induction huw generalizing j with
  | single he => exact h.lt_of_edge he hj
  | tail _ he ih =>
    obtain ⟨i, hij, hi⟩ := h.lt_of_edge he hj
    obtain ⟨k, hki, hk⟩ := ih hi
    exact ⟨k, hki.trans hij, hk⟩

/-- What was done before a round is in the earlier batches. -/
theorem before_done (h : CompleteRun ctx steps) {j : ℕ} {s : BatchStep}
    (hs : steps[j]? = some s) (a : String) :
    a ∈ s.before.done ↔ ∃ i < j, InBatch (assemblePlan ctx steps) i a := by
  obtain ⟨f', hrun, -⟩ := h.run
  rw [hrun.before_done h.limits (Frontier.inv_start _) hs]
  simp only [h.inBatch_iff, Frontier.start, List.not_mem_nil, false_or]

end CompleteRun

end FloWeaver.Scheduler
