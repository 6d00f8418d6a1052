import FloWeaver.Runner.RunSafety
import FloWeaver.Scheduler.ResourceSafety

/-!
# A plan of the scheduler in the generated runner

What the scheduler promises of a plan holds of every run of it, in whatever way the runner
interleaves the actions.

* `runnerPlan` — a plan of the scheduler as the runner takes it; no group names an action twice.
* `planned_run_keeps_hardOrder` — a path of the hard graph orders what is done.
* `SafeTogether`, `planned_run_within_resources` — at no time does more go on than the derived
  policy allows.
-/

namespace FloWeaver.Pipeline

open Py DepGraph Relation ListCut
open Scheduler Runner

variable {base : SchedulerPolicy} {dag : TypedDAG} {metrics : Dict} {target : OptimizationTarget}
  {plan : ExecutionPlan} {ctx : Ctx} {batchSteps : List BatchStep}

/-! ## Plans for the runner -/

theorem nodup_of_mem_groupSelectedActions {layer group : List String} (hnd : layer.Nodup)
    (h : group ∈ (groupSelectedActions ctx layer).1) : group.Nodup := by
  unfold groupSelectedActions at h
  split_ifs at h
  · exact absurd h List.not_mem_nil
  · rwa [List.mem_singleton.1 h]
  · rcases List.mem_append.1 h with h | h
    · -- a piece of a bucket
      obtain ⟨b, hb, hpiece⟩ := List.mem_flatMap.1 h
      have hsub := List.sublist_flatten_of_mem hpiece
      rw [flatten_chunks] at hsub
      exact ((hsub.trans List.filter_sublist).trans (mem_buildBatchingBuckets hb)).nodup hnd
    · have hrest : (unassignedGroups ctx _ [] layer).flatten = _ := flatten_unassignedGroups
        ((buildBatchingBuckets ctx layer).flatMap bucketMembers) [] layer
      have hnodup := hnd.filter fun a =>
        !((buildBatchingBuckets ctx layer).flatMap bucketMembers).contains a
      rw [List.nil_append] at hrest
      rw [← hrest, List.nodup_flatten] at hnodup
      exact hnodup.1 group h

theorem nodup_of_mem_buildParallelGroups {selected group : List String} (hnd : selected.Nodup)
    (h : group ∈ (buildParallelGroups ctx selected).1) : group.Nodup := by
  have hparts : ∀ group ∈ ((groupingLayers ctx selected).map (groupSelectedActions ctx)).flatMap
      (·.1), group.Nodup := by
    intro group hgroup
    obtain ⟨part, hpart, hgroup⟩ := List.mem_flatMap.1 hgroup
    obtain ⟨layer, hlayer, rfl⟩ := List.mem_map.1 hpart
    exact nodup_of_mem_groupSelectedActions (nodup_of_mem_groupingLayers hnd hlayer) hgroup
  unfold buildParallelGroups at h
  split_ifs at h
  · exact absurd h List.not_mem_nil
  · exact hparts group ((sortedBy_perm _ _).mem_iff.1 h)
  · exact hparts group h

/-- No group of a returned plan names an action twice. -/
theorem nodup_of_schedule (h : schedule base dag metrics target = .ok plan) :
    ∀ batch ∈ plan.orderedBatches, ∀ group ∈ batch.parallelGroups, group.Nodup := by
  intro batch hbatch group hgroup
  rcases schedule_run h with ⟨-, rfl⟩ | ⟨ctx, batchSteps, hard, -, hrun, rfl⟩
  · exact absurd hbatch List.not_mem_nil
  · obtain ⟨row, hrow, rfl⟩ := List.mem_map.1 hbatch
    have hs : row.1 ∈ batchSteps := List.mem_of_getElem? (List.mem_zipIdx_iff_getElem?.1 hrow)
    exact nodup_of_mem_buildParallelGroups (hrun.nodup hs) hgroup

/-- A plan of the scheduler as the runner takes it. -/
def runnerPlan (h : schedule base dag metrics target = .ok plan) : RunnerPlan :=
  { plan with nodup := nodup_of_schedule h }

theorem exists_ok {ε α : Type} {x : Except ε α} {p : α → Bool} (h : x.toOption.any p = true) :
    ∃ a, x = .ok a ∧ p a = true := by
  cases x with
  | error e => cases h
  | ok a => exact ⟨a, rfl, h⟩

/-- What is observed behind some labels of a run of a plan is observed of a reached state. -/
theorem exists_plannedRun {α : Type} [DecidableEq α] (observe : Machine → α) {actions : Actions}
    (labels : List Label) {a : α}
    (h : (schedule base dag metrics target).toOption.any (fun plan =>
      decide ((labels.foldlM (step actions [] fun _ n => n)
        (.start (batchesScript actions [] plan.orderedBatches))).map observe = some a)) = true) :
    ∃ (plan : ExecutionPlan) (hplan : schedule base dag metrics target = .ok plan) (m : Machine),
      Reached actions [] (fun _ n => n) (runnerPlan hplan) m ∧ observe m = a := by
  obtain ⟨plan, hplan, hrun⟩ := exists_ok h
  exact ⟨plan, hplan, exists_reached observe labels (of_decide_eq_true hrun)⟩

/-! ## The hard order -/

theorem namedIds_append (first later : List Batch) :
    namedIds (first ++ later) = namedIds first ++ namedIds later := by
  simp [namedIds]

theorem mem_namedIds_take {i : ℕ} {a : String} :
    a ∈ namedIds (plan.orderedBatches.take i) ↔ ∃ k < i, InBatch plan k a := by
  simp only [namedIds, List.mem_flatten, List.mem_flatMap,
    List.mem_iff_getElem? (l := plan.orderedBatches.take i), List.getElem?_take, InBatch]
  constructor
  · rintro ⟨group, ⟨batch, ⟨k, hk⟩, hgroup⟩, ha⟩
    split_ifs at hk with hlt
    exact ⟨k, hlt, batch, hk, group, hgroup, ha⟩
  · rintro ⟨k, hlt, batch, hk, group, hgroup, ha⟩
    exact ⟨group, ⟨batch, ⟨k, by rw [if_pos hlt, hk]⟩, hgroup⟩, ha⟩

theorem mem_namedIds_drop {i : ℕ} {a : String} :
    a ∈ namedIds (plan.orderedBatches.drop i) ↔ ∃ k, InBatch plan (i + k) a := by
  simp only [namedIds, List.mem_flatten, List.mem_flatMap,
    List.mem_iff_getElem? (l := plan.orderedBatches.drop i), List.getElem?_drop, InBatch]
  constructor
  · rintro ⟨group, ⟨batch, ⟨k, hk⟩, hgroup⟩, ha⟩
    exact ⟨k, batch, hk, group, hgroup, ha⟩
  · rintro ⟨k, batch, hk, group, hgroup, ha⟩
    exact ⟨group, ⟨batch, ⟨k, hk⟩, hgroup⟩, ha⟩

/-- The ends of a path of the projected graph are in one batch each, the source first. -/
theorem inBatch_of_path (h : schedule base dag metrics target = .ok plan) {hard : HardGraph}
    (hh : projectHardGraph dag (Scheduler.actionIndex target) target = .ok hard) {u v : String}
    (hpath : TransGen hard.graph.E u v) :
    ∃ i j, i < j ∧ (∀ k, InBatch plan k u ↔ k = i) ∧ ∀ k, InBatch plan k v ↔ k = j := by
  rcases schedule_run h with ⟨hnil, -⟩ | ⟨ctx, batchSteps, hard', hp, hrun, rfl⟩
  · obtain ⟨w, huw, -⟩ := TransGen.head'_iff.1 hpath
    obtain ⟨-, -, hn, -⟩ := projectHardGraph_spec hh
    have hmem := CountedGraph.E_src huw
    simp [hn, hnil] at hmem
  · obtain rfl : hard' = hard := Except.ok.inj (hp.project.symm.trans hh)
    -- the reduction kept a path
    have hreduced : TransGen ctx.hard.graph.E u v := by
      induction hpath with
      | single he => exact hp.reduces.path _ _ he
      | tail _ he ih => exact ih.trans (hp.reduces.path _ _ he)
    have hv : v ∈ ctx.index.keys := by
      obtain ⟨w, -, hwv⟩ := TransGen.tail'_iff.1 hreduced
      exact hp.nodes ▸ CountedGraph.E_dst hwv
    obtain ⟨j, hj⟩ := hrun.exists_inBatch hv
    obtain ⟨i, hij, hi⟩ := hrun.lt_of_path hreduced hj
    exact ⟨i, j, hij, fun k => ⟨fun hk => hrun.inBatch_unique hk hi, fun hk => hk ▸ hi⟩,
      fun k => ⟨fun hk => hrun.inBatch_unique hk hj, fun hk => hk ▸ hj⟩⟩

/-- Whatever the order in which the runner interleaves the actions of a plan: when an action
begins, every action before it in the projected hard graph has ended, as often as the plan names
it. -/
theorem planned_run_keeps_hardOrder (base : SchedulerPolicy) (dag : TypedDAG) (metrics : Dict)
    (target : OptimizationTarget) (plan : ExecutionPlan)
    (h : schedule base dag metrics target = .ok plan) (hard : HardGraph)
    (hh : projectHardGraph dag (Scheduler.actionIndex target) target = .ok hard) (actions : Actions)
    (serviceData : Dict) (clock : ℕ → ℕ → ℚ) (m : Machine)
    (hreached : Reached actions serviceData clock (runnerPlan h) m) (pre post : List Event)
    (op v : String) (batch : ℕ) (admitted : Option ℚ)
    (hlog : m.log = pre ++ .began op v batch admitted :: post) (u : String)
    (hpath : TransGen hard.graph.E u v) : u ∈ endedIds pre ∧
      (namedIds plan.orderedBatches).count u ≤ (endedIds pre).count u := by
  obtain ⟨i, j, hij, hu, hv⟩ := inBatch_of_path h hh hpath
  have hsplit : plan.orderedBatches =
      plan.orderedBatches.take (i + 1) ++ plan.orderedBatches.drop (i + 1) :=
    (List.take_append_drop _ _).symm
  have hvFirst : v ∉ namedIds (plan.orderedBatches.take (i + 1)) := by
    rw [mem_namedIds_take]
    rintro ⟨k, hk, hvk⟩
    have hkj := (hv k).1 hvk
    omega
  have huFirst : u ∈ namedIds (plan.orderedBatches.take (i + 1)) :=
    mem_namedIds_take.2 ⟨i, Nat.lt_succ_self i, (hu i).2 rfl⟩
  have huLater : u ∉ namedIds (plan.orderedBatches.drop (i + 1)) := by
    rw [mem_namedIds_drop]
    rintro ⟨k, huk⟩
    have hki := (hu _).1 huk
    omega
  have hended := hreached.begins_after_batches hlog hsplit hvFirst u
  have hnamed : (namedIds plan.orderedBatches).count u =
      (namedIds (plan.orderedBatches.take (i + 1))).count u := by
    conv_lhs => rw [hsplit, namedIds_append, List.count_append, List.count_eq_zero.2 huLater]
    rfl
  exact ⟨List.count_pos_iff.1 ((List.count_pos_iff.2 huFirst).trans_le hended), hnamed ▸ hended⟩

def doorActions : Actions := ["unlock", "open"].map sleepingAction

/-- A door that is unlocked before it is opened. -/
def doorTarget : OptimizationTarget where
  vdevActions := doorActions.map Prod.snd
  hardDependencies := [[("before", .str "unlock"), ("after", .str "open")]]

/-- The door is opened when it is unlocked. -/
theorem planned_run_keeps_hardOrder_door :
    ∃ (plan : ExecutionPlan) (hplan : schedule {} {} [] doorTarget = .ok plan) (m : Machine)
      (pre : List Event), Reached doorActions [] (fun _ n => n) (runnerPlan hplan) m ∧
        m.log = pre ++ [.began "SLEEP" "open" 2 none] ∧ "unlock" ∈ endedIds pre := by
  obtain ⟨plan, hplan, m, hreached, hlog⟩ :
      ∃ (plan : ExecutionPlan) (hplan : schedule {} {} [] doorTarget = .ok plan) (m : Machine),
        Reached doorActions [] (fun _ n => n) (runnerPlan hplan) m ∧
          m.log = [.runBegin, .began "SLEEP" "unlock" 1 none, .ended "SLEEP" "unlock"] ++
            [.began "SLEEP" "open" 2 none] :=
    exists_plannedRun Machine.log [.advance, .advance, .task 0 .attempt, .task 0 .finish,
      .advance, .advance, .advance, .task 0 .attempt] (by decide +kernel)
  obtain ⟨hard, hh, hedge⟩ : ∃ hard,
      projectHardGraph {} (Scheduler.actionIndex doorTarget) doorTarget = .ok hard ∧
        (hard.graph.out "unlock").contains "open" = true :=
    exists_ok (by decide +kernel)
  exact ⟨plan, hplan, m, _, hreached, hlog, (planned_run_keeps_hardOrder _ _ _ _ _ hplan hard hh _ _
    _ m hreached _ _ _ _ _ _ hlog "unlock" (.single (List.contains_iff_mem.1 hedge))).1⟩

/-! ## Resources -/

/-- Actions that may go on at the same time. -/
structure SafeTogether (index : ActionIndex) (derived : DerivedConstraintPolicy)
    (ids : List String) : Prop where
  noOverlap : ∀ scope ∈ derived.noOverlapScopes, ids.countP (scope.contains ·) ≤ 1
  budget : ∀ rule ∈ derived.budgetRules, (ids.countP (rule.scope.contains ·) : ℤ) ≤ rule.limit
  ble : (ids.countP fun a => actionProtocol (actionOf index a) = .ble : ℤ) ≤ derived.bleLimit
  localNet : (ids.countP fun a => actionProtocol (actionOf index a) = .localNet : ℤ) ≤
    derived.localLimit
  unknown : ∀ a ∈ ids, actionProtocol (actionOf index a) = .unknown → ids = [a]

theorem safeTogether_of_subset {index : ActionIndex} {derived : DerivedConstraintPolicy}
    {batch : Batch} (h : SafeBatch index derived batch) {ids : List String} (hnodup : ids.Nodup)
    (hsub : ids ⊆ batch.parallelGroups.flatten) : SafeTogether index derived ids := by
  have hsubperm : ids.Subperm (batchActions batch) := List.subperm_of_subset hnodup fun a ha =>
    List.mem_dedup.2 (hsub ha)
  have hcount : ∀ p : String → Bool, (ids.countP p : ℤ) ≤ batchCount batch p := fun p =>
    Int.ofNat_le.2 (hsubperm.countP_le p)
  constructor
  · intro scope hscope
    exact_mod_cast (hcount _).trans (h.noOverlap scope hscope)
  · exact fun rule hrule => (hcount _).trans (h.budget rule hrule)
  · exact (hcount _).trans h.ble
  · exact (hcount _).trans h.localNet
  · intro a ha hunknown
    have halone := h.unknown a (hsubperm.subset ha) hunknown
    rw [halone] at hsubperm
    refine (List.perm_singleton.1 (hsubperm.perm_of_length_le ?_))
    exact List.length_pos_of_mem ha

theorem soundLimits_derivedPolicy {policy : SchedulerPolicy} {derived : DerivedConstraintPolicy}
    (h : derivedPolicy policy dag metrics target = .ok derived) : SoundLimits derived := by
  obtain ⟨d, hd, hfinal⟩ := bind_eq_ok.1 h
  exact soundLimits_finalDerived hfinal (soundLimits_derive hd)

theorem safeTogether_nil {derived : DerivedConstraintPolicy} (h : SoundLimits derived)
    (index : ActionIndex) : SafeTogether index derived [] where
  noOverlap _ _ := Nat.zero_le 1
  budget rule hrule := zero_le_one.trans (h.budgets rule hrule)
  ble := zero_le_one.trans h.ble
  localNet := zero_le_one.trans h.localNet
  unknown _ ha := absurd ha List.not_mem_nil

/-- At no time of a run of a plan does more go on than the derived policy allows: not two actions
that may not overlap, not more actions than the budgets and the limits for BLE and local requests
say, and nothing beside an action of an unknown protocol. -/
theorem planned_run_within_resources (base : SchedulerPolicy) (dag : TypedDAG) (metrics : Dict)
    (target : OptimizationTarget) (plan : ExecutionPlan)
    (h : schedule base dag metrics target = .ok plan) (policy : SchedulerPolicy)
    (hpolicy : effectivePolicy base metrics target = .ok policy)
    (derived : DerivedConstraintPolicy)
    (hderived : derivedPolicy policy dag metrics target = .ok derived) (actions : Actions)
    (serviceData : Dict) (clock : ℕ → ℕ → ℚ) (m : Machine)
    (hreached : Reached actions serviceData clock (runnerPlan h) m) :
    SafeTogether (Scheduler.actionIndex target) derived (runningIds m) := by
  obtain ⟨hnodup, hgroup⟩ := running_in_one_group hreached
  by_cases hnone : runningIds m = []
  · exact hnone ▸ safeTogether_nil (soundLimits_derivedPolicy hderived) _
  · obtain ⟨batch, hbatch, group, hgroup, hsub⟩ := hgroup hnone
    rcases schedule_run h with ⟨-, rfl⟩ | ⟨ctx, batchSteps, hard, hp, hrun, rfl⟩
    · exact absurd hbatch List.not_mem_nil
    · obtain ⟨policy', hpolicy', hderived'⟩ := hp.policy
      obtain rfl := Except.ok.inj (hpolicy'.symm.trans hpolicy)
      obtain rfl := Except.ok.inj (hderived'.symm.trans hderived)
      obtain ⟨row, hrow, rfl⟩ := List.mem_map.1 hbatch
      have hs : row.1 ∈ batchSteps := List.mem_of_getElem? (List.mem_zipIdx_iff_getElem?.1 hrow)
      refine safeTogether_of_subset (hp.index ▸ hrun.safeBatch hs row.2) hnodup fun a ha => ?_
      exact List.mem_flatten.2 ⟨group, hgroup, hsub ha⟩

/-- Two local reads that run at the same time, as the limit allows. -/
def readsTarget : OptimizationTarget where
  vdevActions := ["a", "b"].map fun actionId => (sleepingAction actionId).2

theorem planned_run_within_resources_reads :
    ∃ (plan : ExecutionPlan) (hplan : schedule {} {} [] readsTarget = .ok plan) (m : Machine)
      (policy : SchedulerPolicy) (derived : DerivedConstraintPolicy),
      Reached sleepingActions [] (fun _ n => n) (runnerPlan hplan) m ∧
        runningIds m = ["a", "b"] ∧ effectivePolicy {} [] readsTarget = .ok policy ∧
        derivedPolicy policy {} [] readsTarget = .ok derived ∧
        SafeTogether (Scheduler.actionIndex readsTarget) derived (runningIds m) := by
  obtain ⟨plan, hplan, m, hreached, hrunning⟩ :
      ∃ (plan : ExecutionPlan) (hplan : schedule {} {} [] readsTarget = .ok plan) (m : Machine),
        Reached sleepingActions [] (fun _ n => n) (runnerPlan hplan) m ∧
          runningIds m = ["a", "b"] :=
    exists_plannedRun runningIds [.advance, .advance, .task 0 .attempt, .task 1 .attempt]
      (by decide +kernel)
  obtain ⟨policy, hpolicy, hok⟩ : ∃ policy, effectivePolicy {} [] readsTarget = .ok policy ∧
      (derivedPolicy policy {} [] readsTarget).toOption.any (fun _ => true) = true :=
    exists_ok (by decide +kernel)
  obtain ⟨derived, hderived, -⟩ := exists_ok hok
  exact ⟨plan, hplan, m, policy, derived, hreached, hrunning, hpolicy, hderived,
    planned_run_within_resources _ _ _ _ _ hplan policy hpolicy derived hderived _ _ _ m hreached⟩

end FloWeaver.Pipeline
