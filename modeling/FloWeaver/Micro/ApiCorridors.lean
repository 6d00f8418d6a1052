import FloWeaver.Micro.ApiValidation

/-!
# The corridors of a plan, refined

The corridors that are selected are made of steps of one kind, and each of these takes longer than
its phases must.  So what holds along a time line holds of every corridor of a plan.

* `exists_stepsOf` — every corridor is made of steps of one kind.
* `allotted_of_wait` — when no phase of a step gets less than nothing.
* `refineCorridor_exact` — what holds of a refined corridor.
-/

namespace FloWeaver.Micro.Api

open Py
open Spans (neighbours)

/-! ## The corridors of a plan -/

section Selection

variable {policy : APIMicroRefinementPolicy}

/-- The steps of a corridor: some of a plan, of one kind. -/
structure StepsOf (all : List APIBatchStep) (corridor : APIMicroCorridor)
    (steps : List APIBatchStep) : Prop where
  sublist : steps.Sublist all
  uniform : Uniform steps
  stepIds : corridor.stepIds = steps.map APIBatchStep.stepId
  latency : corridor.originalLatencyMs = (steps.map APIBatchStep.latencyMs).sum

/-- What holds of the corridors so far, and the steps that are not in one yet. -/
structure ScanOk (all : List APIBatchStep) (scan : CorridorScan) : Prop where
  suffix : scan.currentSteps <:+ all
  uniform : Uniform scan.currentSteps
  corridors : ∀ corridor ∈ scan.corridors, ∃ steps, StepsOf all corridor steps

theorem stepsOf_corridorOf {all steps : List APIBatchStep} (hsublist : steps.Sublist all)
    (huniform : Uniform steps) {index : ℕ} {capabilityClass : String} {corridor : APIMicroCorridor}
    (h : corridorOf policy index capabilityClass steps = some corridor) :
    StepsOf all corridor steps := by
  cases steps with
  | nil => cases h
  | cons first rest =>
    rw [corridorOf] at h
    obtain rfl := Option.some.inj (Option.ite_none_right_eq_some.1 h).2
    exact ⟨hsublist, huniform, rfl, rfl⟩

theorem ScanOk.closeCorridor {all : List APIBatchStep} {scan : CorridorScan} (h : ScanOk all scan) :
    ∀ corridor ∈ closeCorridor policy scan, ∃ steps, StepsOf all corridor steps := by
  refine List.forall_mem_append.2 ⟨h.corridors, fun corridor hcorridor => ?_⟩
  exact ⟨scan.currentSteps,
    stepsOf_corridorOf h.suffix.sublist h.uniform (Option.mem_toList.1 hcorridor)⟩

theorem StepsOf.mono {all more steps : List APIBatchStep} {corridor : APIMicroCorridor}
    (h : StepsOf all corridor steps) (hsublist : all.Sublist more) :
    StepsOf more corridor steps :=
  ⟨h.sublist.trans hsublist, h.uniform, h.stepIds, h.latency⟩

/-- A step that continues is of the kind of those before it. -/
theorem uniform_concat {scan : CorridorScan} {step : APIBatchStep}
    (h : Uniform scan.currentSteps) (hcontinues : continues scan step = true) :
    Uniform (scan.currentSteps ++ [step]) := by
  obtain ⟨kind, hkind⟩ := h
  cases hlast : scan.currentSteps.getLast? with
  | none =>
    rw [List.getLast?_eq_none_iff.1 hlast]
    exact ⟨step.phaseKind, List.forall_mem_singleton.2 rfl⟩
  | some last =>
    rw [continues, hlast, Bool.and_eq_true, Bool.and_eq_true, decide_eq_true_eq,
      decide_eq_true_eq] at hcontinues
    refine ⟨kind, List.forall_mem_append.2 ⟨hkind, List.forall_mem_singleton.2 ?_⟩⟩
    exact hcontinues.1.2.trans (hkind last (List.mem_of_getLast? hlast))

theorem ScanOk.scanStep {all : List APIBatchStep} {scan : CorridorScan} (h : ScanOk all scan)
    (step : Option APIBatchStep) : ScanOk (all ++ step.toList) (scanStep policy scan step) := by
  have hmore : all.Sublist (all ++ step.toList) := List.sublist_append_left _ _
  have hclosed : ∀ corridor ∈ Api.closeCorridor policy scan,
      ∃ steps, StepsOf (all ++ step.toList) corridor steps := fun corridor hcorridor =>
    (h.closeCorridor corridor hcorridor).imp fun steps hsteps => hsteps.mono hmore
  cases step with
  | none => exact ⟨List.nil_suffix, ⟨.cloud, fun step hstep => absurd hstep List.not_mem_nil⟩, hclosed⟩
  | some step =>
    rw [Api.scanStep]
    split_ifs with hcontinues
    · refine ⟨?_, ?_, fun corridor hcorridor =>
        (h.corridors corridor hcorridor).imp fun steps hsteps => hsteps.mono hmore⟩
      · obtain ⟨before, hbefore⟩ := h.suffix
        exact ⟨before, by rw [← hbefore, List.append_assoc]; rfl⟩
      · exact uniform_concat h.uniform hcontinues
    · exact ⟨List.suffix_append _ _, ⟨step.phaseKind, List.forall_mem_singleton.2 rfl⟩, hclosed⟩

/-- Every corridor of a plan is made of steps of one kind. -/
theorem exists_stepsOf {plan : ExecutionPlan} {target : OptimizationTarget}
    {corridor : APIMicroCorridor} (h : corridor ∈ (selectCorridors policy plan target).2) :
    ∃ steps, StepsOf (selectCorridors policy plan target).1 corridor steps := by
  have key : ∀ (rows : List (Option APIBatchStep)) (all : List APIBatchStep) (scan : CorridorScan),
      ScanOk all scan → ScanOk (all ++ rows.filterMap (·)) (rows.foldl (scanStep policy) scan) := by
    intro rows
    induction rows with
    | nil => exact fun all scan hscan => (List.append_nil all).symm ▸ hscan
    | cons row rows ih =>
      intro all scan hscan
      have hnext := ih (all ++ row.toList) (scanStep policy scan row) (hscan.scanStep row)
      have hrows : (row :: rows).filterMap (·) = row.toList ++ rows.filterMap (·) := by
        cases row <;> rfl
      rw [hrows, ← List.append_assoc]
      exact hnext
  have hscan := key (plan.orderedBatches.map (makeStep (Scheduler.actionIndex target)) ++ [none]) []
    {} ⟨List.nil_suffix, ⟨.cloud, fun step hstep => absurd hstep List.not_mem_nil⟩,
      fun corridor hcorridor => absurd hcorridor List.not_mem_nil⟩
  rw [List.nil_append, List.filterMap_append] at hscan
  obtain ⟨steps, hsteps⟩ := hscan.corridors corridor h
  refine ⟨steps, hsteps.mono ?_⟩
  exact (List.append_nil _).symm ▸ List.Sublist.refl _

/-- A step is made of a batch. -/
theorem exists_makeStep {plan : ExecutionPlan} {target : OptimizationTarget} {step : APIBatchStep}
    (h : step ∈ (selectCorridors policy plan target).1) :
    ∃ batch ∈ plan.orderedBatches, makeStep (Scheduler.actionIndex target) batch = some step := by
  obtain ⟨row, hrow, hstep⟩ := List.mem_filterMap.1 h
  obtain ⟨batch, hbatch, rfl⟩ := List.mem_map.1 hrow
  exact ⟨batch, hbatch, hstep⟩

section Latency

variable {actionLookup : OrderedDict String Dict} {batch : Batch} {step : APIBatchStep}
  {action : Dict}

theorem stepId_makeStep (h : makeStep actionLookup batch = some step) :
    step.stepId = batch.batchId := by
  rw [makeStep] at h
  split at h
  · cases h
  · obtain rfl := Option.some.inj (Option.ite_none_right_eq_some.1 h).2
    rfl

/-- Batches with different ids make steps with different ids. -/
theorem nodup_stepIds (policy : APIMicroRefinementPolicy) (target : OptimizationTarget)
    {plan : ExecutionPlan} (h : (plan.orderedBatches.map Batch.batchId).Nodup) :
    ((selectCorridors policy plan target).1.map APIBatchStep.stepId).Nodup := by
  have key : ∀ batches : List Batch,
      (((batches.map (makeStep (Scheduler.actionIndex target))).filterMap (·)).map
        APIBatchStep.stepId).Sublist (batches.map Batch.batchId) := by
    intro batches
    induction batches with
    | nil => exact List.Sublist.slnil
    | cons batch batches ih =>
      cases hstep : makeStep (Scheduler.actionIndex target) batch with
      | none =>
        rw [List.map_cons, hstep, List.map_cons]
        exact ih.cons _
      | some step =>
        rw [List.map_cons, hstep, List.map_cons, ← stepId_makeStep hstep]
        exact ih.cons_cons _
  exact (key plan.orderedBatches).nodup h

/-- A batch takes as long as each of its actions. -/
theorem le_batchLatencyMs (h : action ∈ batchActions actionLookup batch) :
    estimatedActionLatencyMs action ≤ batchLatencyMs actionLookup batch := by
  obtain ⟨row, hrow, rfl⟩ := List.mem_map.1 h
  obtain ⟨actionId, hactionId, hmap⟩ := List.mem_filterMap.1 hrow
  obtain ⟨group, hgroup, hmem⟩ := List.mem_flatten.1 hactionId
  obtain ⟨action, hget, rfl⟩ := Option.map_eq_some_iff.1 hmap
  have haction : action ∈ group.filterMap actionLookup.get? :=
    List.mem_filterMap.2 ⟨actionId, hmem, hget⟩
  have hcost : estimatedActionLatencyMs action ≤
      maxCost ((group.filterMap actionLookup.get?).map estimatedActionLatencyMs) :=
    le_maxCost (List.mem_map_of_mem haction)
  have hgroupCost : maxCost ((group.filterMap actionLookup.get?).map estimatedActionLatencyMs) ≤
      groupLatencyMs actionLookup group := by
    have hsome : (group.filterMap actionLookup.get?).isEmpty = false :=
      List.isEmpty_eq_false_iff.2 (List.ne_nil_of_mem haction)
    simp only [groupLatencyMs, hsome, Bool.false_eq_true, if_false]
    split_ifs <;> omega
  exact hcost.trans (hgroupCost.trans (le_maxCost (List.mem_map_of_mem hgroup)))

theorem eq_of_soleText {texts : List String} {text : String} (h : soleText texts = text)
    (hne : text ≠ "") : ∀ other ∈ texts, other = text := by
  intro other hother
  rw [soleText] at h
  split at h
  · next sole hsole =>
    have hmem : other ∈ texts.eraseDups := List.mem_eraseDups.2 hother
    rw [hsole] at hmem
    exact (List.mem_singleton.1 hmem).trans h
  · exact absurd h.symm hne

/-- A cloud step takes at least 350 milliseconds, a local one 100, and one that reads messages
80. -/
def leastLatencyMs : APIPhaseKind → ℤ
  | .cloud => 350
  | .localHttp => 100
  | .mqtt => 80

theorem cloud_latency (h : actionProtocol action = "CLOUD") :
    350 ≤ estimatedActionLatencyMs action := by
  simp only [estimatedActionLatencyMs, h, if_true]
  split_ifs <;> decide

theorem local_latency (h : actionProtocol action = "LOCAL") :
    estimatedActionLatencyMs action = if isMqttLike action then 80 else 100 := by
  have hne : ¬ "LOCAL" = "CLOUD" := by decide
  simp only [estimatedActionLatencyMs, h, if_neg hne, if_true]

theorem leastLatencyMs_le (h : makeStep actionLookup batch = some step) :
    leastLatencyMs step.phaseKind ≤ step.latencyMs := by
  rw [makeStep] at h
  split at h
  · cases h
  next kind hkind =>
  obtain ⟨hcond, hstep⟩ := Option.ite_none_right_eq_some.1 h
  obtain rfl := Option.some.inj hstep
  rw [Bool.and_eq_true, batchAllRuntimeApi, Bool.and_eq_true, Bool.not_eq_true',
    List.isEmpty_eq_false_iff] at hcond
  obtain ⟨action, haction⟩ := List.exists_mem_of_ne_nil _ hcond.1.1
  have hprotocol : ∀ protocol, batchProtocol actionLookup batch = protocol → protocol ≠ "" →
      ∀ other ∈ batchActions actionLookup batch, actionProtocol other = protocol :=
    fun protocol hsole hne other hother =>
      eq_of_soleText hsole hne _ (List.mem_map_of_mem hother)
  dsimp only
  rw [batchPhaseKind] at hkind
  split_ifs at hkind with hcloud hlocal hempty hmqtt
  · obtain rfl := Option.some.inj hkind
    exact (cloud_latency (hprotocol "CLOUD" hcloud (by decide) action haction)).trans
      (le_batchLatencyMs haction)
  · obtain rfl := Option.some.inj hkind
    have hcost := local_latency (hprotocol "LOCAL" (not_not.1 hlocal) (by decide) action haction)
    refine le_trans ?_ (le_batchLatencyMs haction)
    rw [hcost]
    split_ifs <;> decide
  · obtain rfl := Option.some.inj hkind
    obtain ⟨other, hother, hhttp⟩ : ∃ other ∈ batchActions actionLookup batch,
        isMqttLike other = false := by
      simpa using hmqtt
    have hcost := local_latency (hprotocol "LOCAL" (not_not.1 hlocal) (by decide) other hother)
    refine le_trans ?_ (le_batchLatencyMs hother)
    rw [hcost, hhttp]
    decide

end Latency

/-- When the policy waits for less than 224 milliseconds, no phase gets less than nothing. -/
theorem allotted_of_wait {plan : ExecutionPlan} {target : OptimizationTarget} {step : APIBatchStep}
    (hwait : 0 ≤ policy.cloudBackoffWaitMs) (hshort : policy.cloudBackoffWaitMs ≤ 223)
    (hstep : step ∈ (selectCorridors policy plan target).1) : Allotted policy step := by
  obtain ⟨batch, -, hmake⟩ := exists_makeStep hstep
  have hleast := leastLatencyMs_le hmake
  have hbackoff : (if step.hasBackoffWait then policy.cloudBackoffWaitMs else 0) ≤ 223 := by
    split_ifs <;> omega
  refine allotted_of_lt hwait (lt_of_lt_of_le ?_ hleast)
  rw [phaseSpecs]
  cases step.phaseKind with
  | cloud =>
    simp only [List.map_cons, List.map_nil, List.sum_cons, List.sum_nil, leastLatencyMs]
    omega
  | localHttp => exact show (88 : ℤ) < 100 by decide
  | mqtt => exact show (40 : ℤ) < 80 by decide

theorem latency_pos {plan : ExecutionPlan} {target : OptimizationTarget} {step : APIBatchStep}
    (hstep : step ∈ (selectCorridors policy plan target).1) : 0 < step.latencyMs := by
  obtain ⟨batch, -, hmake⟩ := exists_makeStep hstep
  refine lt_of_lt_of_le ?_ (leastLatencyMs_le hmake)
  cases step.phaseKind <;> decide

/-- The steps of a corridor are found by their ids. -/
theorem filterMap_stepsById {all steps : List APIBatchStep}
    (hnodup : (all.map APIBatchStep.stepId).Nodup) (hsublist : steps.Sublist all) :
    (steps.map APIBatchStep.stepId).filterMap (stepsById all).get? = steps := by
  have hrows : (stepsById all).rows = all.map fun step => (step.stepId, step) := by
    refine OrderedDict.rows_ofList ?_
    rwa [List.map_map]
  rw [List.filterMap_map]
  calc steps.filterMap ((stepsById all).get? ∘ APIBatchStep.stepId) = steps.filterMap some := by
        refine List.filterMap_congr fun step hstep => ?_
        have hmem : (step.stepId, step) ∈ (stepsById all).rows := by
          rw [hrows]
          exact List.mem_map_of_mem (hsublist.subset hstep)
        exact OrderedDict.get?_of_mem_rows hmem
    _ = steps := List.filterMap_some

/-- The events of a step. -/
def eventsOf (events : List APIMicroEvent) (step : APIBatchStep) : List APIMicroEvent :=
  events.filter (·.stepId = step.stepId)

/-- What holds of a refined corridor.  No request is sent before the step before has written, and the
corridor takes as long as its steps one after the other, less what was overlapped.  The preparation of
a step is inside the window of the step before exactly when it fits; then its phases are in order.
When it fits everywhere, the corridor is accepted unless parsing or aggregating takes too long, or a
backoff is bypassed. -/
structure ExactCorridor (policy : APIMicroRefinementPolicy) (steps : List APIBatchStep)
    (result : APIMicroCorridorResult) : Prop where
  serial : lastEnd result.serialEvents = result.corridor.originalLatencyMs
  latency : result.refinedLatencyMs =
    result.corridor.originalLatencyMs - overlapTotalMs policy steps
  phases : ∀ step ∈ steps, (eventsOf result.refinedEvents step).map APIMicroEvent.phase =
    phaseSequence step.phaseKind
  request : ∀ pair ∈ neighbours steps, RequestAfterWrite result.refinedEvents pair.1 pair.2
  window : ∀ pair ∈ neighbours steps, FitsWindow policy pair.1 pair.2 ↔
    InsideWindow policy result.refinedEvents pair.1 pair.2
  first : ∀ step, steps.head? = some step → InOrder (eventsOf result.refinedEvents step)
  order : ∀ pair ∈ neighbours steps, FitsWindow policy pair.1 pair.2 →
    OverlapsWhole policy pair.1 pair.2 → InOrder (eventsOf result.refinedEvents pair.2)
  completion : result.validation.coarseCompletionOrderPreserved = true
  lookahead : result.validation.lookaheadDepthOk = true
  coordinator : result.validation.coordinatorConstraintsOk = true
  parallelUpdates : result.validation.parallelUpdatesConstraintsOk = true
  session : result.validation.sessionConstraintsOk = true
  availability : result.validation.availabilityConstraintsOk = true
  accepted : FitsAll policy steps → result.validation.phaseOrderValid = true ∧
    result.validation.requestSendConstraintsOk = true ∧
    (result.validation.passed = true ↔ result.validation.backoffConstraintsOk = true ∧
      result.validation.eventLoopConstraintsOk = true)

/-- A check succeeds when all findings are about others. -/
theorem all_ne_of_mem {findings : List Finding} {checks : List APICheck} {check : APICheck}
    (h : ∀ finding ∈ findings, finding.check ∈ checks) (hcheck : check ∉ checks) :
    (findings.all fun finding => finding.check ≠ check) = true := by
  rw [List.all_eq_true]
  intro finding hfinding
  exact decide_eq_true fun heq => hcheck (heq ▸ h finding hfinding)

/-- Nothing is found when two checks succeed that all findings are about. -/
theorem isEmpty_iff_of_mem {findings : List Finding}
    (h : ∀ finding ∈ findings, finding.check ∈ [.backoff, .eventLoop]) :
    findings.isEmpty = true ↔ (findings.all fun finding => finding.check ≠ .backoff) = true ∧
      (findings.all fun finding => finding.check ≠ .eventLoop) = true := by
  rw [List.isEmpty_iff]
  constructor
  · rintro rfl
    exact ⟨rfl, rfl⟩
  · rintro ⟨hbackoff, heventLoop⟩
    rw [List.all_eq_true] at hbackoff heventLoop
    refine List.eq_nil_iff_forall_not_mem.2 fun finding hfinding => ?_
    have hcheck := h finding hfinding
    rw [List.mem_cons, List.mem_singleton] at hcheck
    rcases hcheck with hcheck | hcheck
    · exact of_decide_eq_true (hbackoff finding hfinding) hcheck
    · exact of_decide_eq_true (heventLoop finding hfinding) hcheck

/-- What holds of the events of steps of one kind. -/
theorem exactCorridor_placeAll {steps : List APIBatchStep} {corridor : APIMicroCorridor}
    (hlookahead : 1 ≤ policy.maxLookaheadSteps) (hpos : ∀ step ∈ steps, 0 < step.latencyMs)
    (hallot : ∀ step ∈ steps, Allotted policy step)
    (hnodup : (steps.map APIBatchStep.stepId).Nodup)
    (hids : corridor.stepIds = steps.map APIBatchStep.stepId)
    (hlatency : corridor.originalLatencyMs = (steps.map APIBatchStep.latencyMs).sum)
    {result : APIMicroCorridorResult} (hcorridor : result.corridor = corridor)
    (hserial : result.serialEvents = serialEventsForSteps policy steps)
    (hevents : result.refinedEvents = corridorEvents policy (placeAll policy steps))
    (hrefined : result.refinedLatencyMs = lastEnd result.refinedEvents)
    (hvalidation : result.validation =
      validateRefinedCorridor corridor steps result.refinedEvents policy) :
    ExactCorridor policy steps result := by
  obtain ⟨hsound, hmap⟩ := placeAll_sound hpos hallot
  have hrowIds : (placeAll policy steps).map (fun row => row.step.stepId) =
      steps.map APIBatchStep.stepId := by
    conv_rhs => rw [← hmap, List.map_map]
    rfl
  have hrowNodup : ((placeAll policy steps).map fun row => row.step.stepId).Nodup := by
    rw [hrowIds]
    exact hnodup
  have hfilter : ∀ row ∈ placeAll policy steps,
      eventsOf result.refinedEvents row.step = row.events policy := by
    intro row hrow
    rw [eventsOf, hevents, filter_corridorEvents policy hrowNodup hrow]
  have hpair : ∀ pair ∈ neighbours steps, ∃ left right, (left, right) ∈ neighbours
      (placeAll policy steps) ∧ pair = (left.step, right.step) := by
    intro pair hpair
    rw [← hmap, Spans.neighbours_map] at hpair
    obtain ⟨⟨left, right⟩, hmem, rfl⟩ := List.mem_map.1 hpair
    exact ⟨left, right, hmem, rfl⟩
  have hfollows : ∀ left right, (left, right) ∈ neighbours (placeAll policy steps) →
      Follows policy left right ∧ left ∈ placeAll policy steps ∧ right ∈ placeAll policy steps :=
    fun left right hmem => ⟨Spans.forall_mem_neighbours hsound.chain _ hmem,
      Spans.mem_of_mem_neighbours hmem⟩
  have hchecks := hsound.check_mem hlookahead hrowNodup
  have hfitsChecks := hsound.check_mem_of_fits hlookahead hrowNodup
  rw [hrowIds, hmap, ← hevents, ← hids] at hchecks hfitsChecks
  constructor
  case serial => rw [hserial, hcorridor, hlatency, lastEnd_serialEvents hpos hallot]
  case latency => rw [hrefined, hevents, hcorridor, hlatency, lastEnd_corridorEvents hpos hallot]
  case phases =>
    intro step hstep
    rw [← hmap] at hstep
    obtain ⟨row, hrow, rfl⟩ := List.mem_map.1 hstep
    rw [hfilter row hrow]
    exact row.map_phase_events
  case request =>
    intro pair hneighbours
    obtain ⟨left, right, hmem, rfl⟩ := hpair pair hneighbours
    obtain ⟨hnext, hleft, hright⟩ := hfollows left right hmem
    rw [hevents]
    exact hnext.requestAfterWrite (hsound.sound right hright) hrowNodup hleft hright
  case window =>
    intro pair hneighbours
    obtain ⟨left, right, hmem, rfl⟩ := hpair pair hneighbours
    obtain ⟨hnext, hleft, hright⟩ := hfollows left right hmem
    rw [hevents]
    exact hnext.insideWindow_iff (hsound.sound left hleft) (hsound.sound right hright) hrowNodup
      hleft hright
  case first =>
    intro step hhead
    rw [← hmap, List.head?_map, Option.map_eq_some_iff] at hhead
    obtain ⟨row, hhead, rfl⟩ := hhead
    rw [hfilter row (List.mem_of_head? hhead)]
    refine row.inOrder_of_nil ?_
    rw [hsound.first row hhead]
    rfl
  case order =>
    intro pair hneighbours hfits hwhole
    obtain ⟨left, right, hmem, rfl⟩ := hpair pair hneighbours
    obtain ⟨hnext, hleft, hright⟩ := hfollows left right hmem
    rw [hfilter right hright]
    exact hnext.inOrder (hsound.sound left hleft) (hsound.sound right hright) hwhole hfits
  case accepted =>
    intro hfits
    have hfew := hfitsChecks hfits
    rw [hvalidation]
    exact ⟨all_ne_of_mem hfew (by decide), all_ne_of_mem hfew (by decide),
      isEmpty_iff_of_mem hfew⟩
  all_goals
    rw [hvalidation]
    exact all_ne_of_mem hchecks (by decide)

/-- Every corridor of a plan is refined, exactly, when no phase gets less than nothing: at least
when the policy waits for less than 224 milliseconds. -/
theorem refineCorridor_exact {plan : ExecutionPlan} {target : OptimizationTarget}
    {corridor : APIMicroCorridor} (hlookahead : 1 ≤ policy.maxLookaheadSteps)
    (hids : (plan.orderedBatches.map Batch.batchId).Nodup)
    (hcorridor : corridor ∈ (selectCorridors policy plan target).2)
    (hallot : (0 ≤ policy.cloudBackoffWaitMs ∧ policy.cloudBackoffWaitMs ≤ 223) ∨
      ∀ step ∈ (selectCorridors policy plan target).1, step.stepId ∈ corridor.stepIds →
        Allotted policy step) :
    ∃ steps result, StepsOf (selectCorridors policy plan target).1 corridor steps ∧
      refineCorridor policy (stepsById (selectCorridors policy plan target).1) corridor =
        .ok result ∧
      result.corridor = corridor ∧ ExactCorridor policy steps result := by
  obtain ⟨steps, hsteps⟩ := exists_stepsOf hcorridor
  have hallIds := nodup_stepIds policy target hids
  have hfind := filterMap_stepsById hallIds hsteps.sublist
  have hpos : ∀ step ∈ steps, 0 < step.latencyMs :=
    fun step hstep => latency_pos (hsteps.sublist.subset hstep)
  have hsound : ∀ step ∈ steps, Allotted policy step := by
    intro step hstep
    rcases hallot with ⟨hwait, hshort⟩ | hall
    · exact allotted_of_wait hwait hshort (hsteps.sublist.subset hstep)
    · refine hall step (hsteps.sublist.subset hstep) ?_
      rw [hsteps.stepIds]
      exact List.mem_map_of_mem hstep
  have hnodup : (steps.map APIBatchStep.stepId).Nodup := (hsteps.sublist.map _).nodup hallIds
  rw [← hsteps.stepIds] at hfind
  obtain ⟨result, hresult, hresultCorridor, hserial, hevents, hlatency, hvalidation⟩ :
      ∃ result, refineCorridor policy (stepsById (selectCorridors policy plan target).1) corridor =
        .ok result ∧ result.corridor = corridor ∧
        result.serialEvents = serialEventsForSteps policy steps ∧
        result.refinedEvents = corridorEvents policy (placeAll policy steps) ∧
        result.refinedLatencyMs = lastEnd result.refinedEvents ∧
        result.validation =
          validateRefinedCorridor corridor steps result.refinedEvents policy := by
    rw [refineCorridor, hfind]
    exact ⟨_, bind_eq_ok.2 ⟨_, expandRefinedSteps_eq hsteps.uniform, rfl⟩, rfl, rfl, rfl, rfl, rfl⟩
  exact ⟨steps, result, hsteps, hresult, hresultCorridor, exactCorridor_placeAll hlookahead hpos
    hsound hnodup hsteps.stepIds hsteps.latency hresultCorridor hserial hevents hlatency
    hvalidation⟩

end Selection

/-! ## Corridors that are not accepted -/

/-- A request for the status of a device, to a cloud. -/
def statusCall (actionId : String) : Dict :=
  [("action_id", .str actionId), ("protocol", .str "CLOUD"), ("action_kind", .str "status"),
    ("exec", .dict [("kind", .str "ha_service_call"), ("provider", .str "tuya")])]

def statusTarget : OptimizationTarget where
  vdevActions := ["A1", "A2", "A3", "A4", "A5"].map statusCall

/-- A plan with a group of calls in each batch. -/
def statusPlan (batches : List (String × List String × List String)) : ExecutionPlan where
  orderedBatches := batches.map fun (batchId, group, constraints) =>
    { batchId := batchId, parallelGroups := [group], constraints := constraints }

/-- What is refined of a plan. -/
def refineOf (policy : APIMicroRefinementPolicy) (plan : ExecutionPlan)
    (corridor : APIMicroCorridor) : Except PyErr APIMicroCorridorResult :=
  refineCorridor policy (stepsById (selectCorridors policy plan statusTarget).1) corridor

/-- Is there a corridor whose result is such? -/
def anyCorridor (policy : APIMicroRefinementPolicy) (plan : ExecutionPlan)
    (p : APIMicroCorridorResult → Prop) [DecidablePred p] : Bool :=
  (selectCorridors policy plan statusTarget).2.any fun corridor =>
    (refineOf policy plan corridor).toOption.any fun result => p result

theorem exists_of_anyCorridor {policy : APIMicroRefinementPolicy} {plan : ExecutionPlan}
    {p : APIMicroCorridorResult → Prop} [DecidablePred p] (h : anyCorridor policy plan p = true) :
    ∃ corridor ∈ (selectCorridors policy plan statusTarget).2, ∃ result,
      refineOf policy plan corridor = .ok result ∧ p result := by
  obtain ⟨corridor, hcorridor, hresult⟩ := List.any_eq_true.1 h
  refine ⟨corridor, hcorridor, ?_⟩
  cases hrefine : refineOf policy plan corridor with
  | error e =>
    rw [hrefine] at hresult
    cases hresult
  | ok result =>
    rw [hrefine] at hresult
    exact ⟨result, rfl, of_decide_eq_true hresult⟩

def evenPlan : ExecutionPlan := statusPlan [("b0", ["A1"], []), ("b1", ["A2"], [])]

/-- One call, and then four at once. -/
def unevenPlan : ExecutionPlan :=
  statusPlan [("b0", ["A1"], []), ("b1", ["A2", "A3", "A4", "A5"], [])]

/-- The second call backs off. -/
def backoffPlan : ExecutionPlan := statusPlan [("b0", ["A1"], []), ("b1", ["A2"], ["BACKOFF"])]

/-- Two batches of one id. -/
def repeatedPlan : ExecutionPlan := statusPlan [("b0", ["A1"], []), ("b0", ["A2"], [])]

def splitPolicy : APIMicroRefinementPolicy where
  allowCloudAuthBudgetOverlap := false

/-- A backoff takes all the time of a call. -/
def longWaitPolicy : APIMicroRefinementPolicy where
  cloudBackoffWaitMs := 5400

theorem refineCorridor_exact_calls :
    ∃ corridor ∈ (selectCorridors {} evenPlan statusTarget).2, ∃ steps result,
      StepsOf (selectCorridors {} evenPlan statusTarget).1 corridor steps ∧
      refineCorridor {} (stepsById (selectCorridors {} evenPlan statusTarget).1) corridor =
        .ok result ∧
      result.corridor = corridor ∧ ExactCorridor {} steps result := by
  have hsome : anyCorridor {} evenPlan (fun _ => True) = true := by decide +kernel
  obtain ⟨corridor, hcorridor, -⟩ := exists_of_anyCorridor hsome
  exact ⟨corridor, hcorridor,
    refineCorridor_exact (by decide) (by decide) hcorridor (.inl (by decide))⟩

/-- Four calls at once prepare for longer than one call waits.  Without the authentication and budget
checks the rest of the preparation runs before them.  When a backoff takes all the time, less than
nothing is left for the write, and what was overlapped is not saved.  Batches of one id are not told
apart. -/
theorem refineCorridor_inexact :
    (∃ corridor ∈ (selectCorridors {} unevenPlan statusTarget).2, ∃ result,
      refineOf {} unevenPlan corridor = .ok result ∧
      result.validation.requestSendConstraintsOk = false ∧ result.validation.passed = false) ∧
    (∃ corridor ∈ (selectCorridors splitPolicy evenPlan statusTarget).2, ∃ result,
      refineOf splitPolicy evenPlan corridor = .ok result ∧
      result.validation.phaseOrderValid = false ∧ result.validation.passed = false) ∧
    (∃ corridor ∈ (selectCorridors longWaitPolicy backoffPlan statusTarget).2, ∃ result,
      refineOf longWaitPolicy backoffPlan corridor = .ok result ∧
      result.refinedLatencyMs ≠ result.corridor.originalLatencyMs - overlapTotalMs longWaitPolicy
        (selectCorridors longWaitPolicy backoffPlan statusTarget).1) ∧
    (∃ corridor ∈ (selectCorridors {} repeatedPlan statusTarget).2, ∃ result,
      refineOf {} repeatedPlan corridor = .ok result ∧
      result.validation.phaseOrderValid = false ∧ result.validation.passed = false) :=
  ⟨exists_of_anyCorridor (by decide +kernel), exists_of_anyCorridor (by decide +kernel),
    exists_of_anyCorridor (by decide +kernel), exists_of_anyCorridor (by decide +kernel)⟩

end FloWeaver.Micro.Api
