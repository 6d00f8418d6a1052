import FloWeaver.Micro.Latency
import FloWeaver.Trust.RunnerAgreement
import Mathlib.Algebra.Order.BigOperators.Group.List

/-!
# The estimate of a plan and the time of a run

The estimate of a batch is that of its longest group, as if groups ran at the same time, and leaves
out the rows that make the runner start actions one by one.  The runner takes the groups of a batch
one after the other.  What it takes for a group is the longest of its actions when they start
together, and otherwise at most all of them one after the other.

* `runMs` — the time of a run whose actions take what is estimated.
* `groupRunMs`, `batchRunMs` — what a group and a batch take at most.
* `run_within_estimate` — when a run takes no longer than estimated.
-/

namespace FloWeaver.Micro

open Py
open Scheduler (actionIndex)
open Trust (AllGuardsHold groupSteps)

/-! ## The time of a run -/

/-- The actions that the runner knows, by id. -/
def runnerActions (target : OptimizationTarget) : Runner.Actions :=
  (OrderedDict.ofList ((target.vdevActions.filter fun action =>
    (action.get "action_id").truthy).map fun action =>
      ((action.get "action_id").pyStr, action))).rows

section Times

variable (actions : Runner.Actions)

/-- What an action takes; a run with an action that is not known fails. -/
def actionMs (actionId : String) : ℤ :=
  ((actions.lookup actionId).map estimatedActionLatencyMs).getD 0

/-- Actions that start together take as long as the longest. -/
def stepMs (step : List String) : ℤ := maxCost (step.map (actionMs actions))

def runMs (steps : List (List String)) : ℤ := (steps.map (stepMs actions)).sum

/-- No row cuts a group or makes an action of it serial. -/
def startedWhole (fallback : List FallbackMode) (group : List String) : Bool :=
  let relevant := Runner.rowsForGroup group FallbackMode.scope fallback
  (match Runner.reshapeGroup fallback group with
    | .ok pieces => decide (pieces = [group])
    | .error _ => false) &&
    !Runner.groupRequiresOrderPreservation group relevant &&
    group.all fun actionId => !(Runner.serializeTargets actions group [] relevant).contains actionId

/-- What a group takes at most. -/
def groupRunMs (fallback : List FallbackMode) (group : List String) : ℤ :=
  if startedWhole actions fallback group then stepMs actions group
  else (group.map (actionMs actions)).sum

/-- What a batch takes at most: its groups follow each other. -/
def batchRunMs (batch : Batch) : ℤ :=
  match batch.fallback.mapM Runner.readFallback with
  | .ok fallback => (batch.parallelGroups.map (groupRunMs actions fallback)).sum
  | .error _ => 0

end Times

/-! ## Costs -/

theorem latency_pos (action : Dict) : 0 < estimatedActionLatencyMs action := by
  by_cases hble : actionProtocol action = "BLE"
  · obtain ⟨k, hk, -, hms⟩ := ble_latency hble
    omega
  · rw [estimatedActionLatencyMs, if_neg hble]
    generalize actionProtocol action = protocol
    generalize contains (actionKind action) "runtime" = runtime
    generalize contains (actionKind action) "read_last_message" = last
    split_ifs <;> norm_num

section Costs

variable {actions : Runner.Actions}

theorem actionMs_nonneg (actionId : String) : 0 ≤ actionMs actions actionId := by
  rw [actionMs]
  cases actions.lookup actionId with
  | none => exact le_rfl
  | some action =>
    rw [Option.map_some, Option.getD_some]
    exact (latency_pos action).le

/-- The longest of some actions takes no longer than all of them. -/
theorem maxCost_le_sum {costs : List ℤ} (h : ∀ cost ∈ costs, 0 ≤ cost) :
    maxCost costs ≤ costs.sum := by
  induction costs with
  | nil => exact le_rfl
  | cons cost costs ih =>
    have hrest := ih fun other hother => h other (List.mem_cons_of_mem _ hother)
    have hcost := h cost List.mem_cons_self
    have hsum := List.sum_nonneg fun other hother => h other (List.mem_cons_of_mem cost hother)
    rw [List.sum_cons]
    show max cost (maxCost costs) ≤ cost + costs.sum
    omega

theorem stepMs_le_sum (step : List String) :
    stepMs actions step ≤ (step.map (actionMs actions)).sum :=
  maxCost_le_sum fun cost hcost => by
    obtain ⟨actionId, -, rfl⟩ := List.mem_map.1 hcost
    exact actionMs_nonneg actionId

theorem sum_actionMs_nonneg (ids : List String) : 0 ≤ (ids.map (actionMs actions)).sum :=
  List.sum_nonneg fun cost hcost => by
    obtain ⟨actionId, -, rfl⟩ := List.mem_map.1 hcost
    exact actionMs_nonneg actionId

theorem runMs_append (a b : List (List String)) :
    runMs actions (a ++ b) = runMs actions a + runMs actions b := by
  rw [runMs, List.map_append, List.sum_append]
  rfl

theorem runMs_flatten (steps : List (List (List String))) :
    runMs actions steps.flatten = (steps.map (runMs actions)).sum := by
  induction steps with
  | nil => rfl
  | cons step steps ih =>
    rw [List.flatten_cons, runMs_append, ih, List.map_cons, List.sum_cons]

/-- Serial actions take as long as all of them. -/
theorem runMs_serial (ids : List String) :
    runMs actions (ids.map ([·])) = (ids.map (actionMs actions)).sum := by
  rw [runMs, List.map_map]
  refine congrArg List.sum (List.map_congr_left fun actionId _ => ?_)
  exact max_eq_left (actionMs_nonneg actionId)

/-- Starting some actions together takes no longer than one after the other. -/
theorem runMs_startSteps_le (parallel serial : List String) :
    runMs actions (startSteps parallel serial) ≤
      (parallel.map (actionMs actions)).sum + (serial.map (actionMs actions)).sum := by
  rw [startSteps, runMs_append, runMs_serial]
  refine add_le_add_left ?_ _
  split_ifs
  · exact sum_actionMs_nonneg parallel
  · rw [runMs, List.map_singleton, List.sum_singleton]
    exact stepMs_le_sum parallel

theorem sum_filter_add (p : String → Bool) (ids : List String) :
    ((ids.filter fun a => !p a).map (actionMs actions)).sum +
      ((ids.filter p).map (actionMs actions)).sum = (ids.map (actionMs actions)).sum := by
  induction ids with
  | nil => rfl
  | cons a ids ih =>
    cases hp : p a <;> simp only [List.filter_cons, hp, Bool.not_true, Bool.not_false,
      Bool.false_eq_true, if_true, if_false, List.map_cons, List.sum_cons] <;> omega

end Costs

/-! ## A group and a batch -/

section Group

variable {actions : Runner.Actions} {fallback : List FallbackMode} {group : List String}

/-- A group takes no longer than its actions one after the other. -/
theorem runMs_groupSteps_le (ids : List String) :
    runMs actions (groupSteps actions fallback ids) ≤ (ids.map (actionMs actions)).sum := by
  rw [groupSteps]
  split_ifs
  · exact (runMs_startSteps_le [] ids).trans_eq (zero_add _)
  · refine (runMs_startSteps_le _ _).trans_eq (sum_filter_add _ _)

/-- A group that is started as a whole takes as long as its longest action. -/
theorem runMs_groupSteps_of_whole (h : startedWhole actions fallback group = true) :
    runMs actions (groupSteps actions fallback group) = stepMs actions group := by
  rw [startedWhole, Bool.and_eq_true, Bool.and_eq_true, Bool.not_eq_true', List.all_eq_true] at h
  obtain ⟨⟨-, horder⟩, htargets⟩ := h
  have hpreserve : preservesOrder group
      (Runner.rowsForGroup group FallbackMode.scope fallback) = false := horder
  have hserial : group.filter ((Runner.serializeTargets actions group []
      (Runner.rowsForGroup group FallbackMode.scope fallback)).contains ·) = [] := by
    rw [List.filter_eq_nil_iff]
    intro actionId hactionId
    simpa using htargets actionId hactionId
  have hparallel : group.filter (!(Runner.serializeTargets actions group []
      (Runner.rowsForGroup group FallbackMode.scope fallback)).contains ·) = group :=
    List.filter_eq_self.2 htargets
  simp only [groupSteps, hpreserve, Bool.false_eq_true, if_false, hserial, hparallel]
  cases group with
  | nil => rfl
  | cons a ids => rw [startSteps, runMs]; simp

/-- Reshaping keeps the actions of a group and their order. -/
theorem flatten_of_reshapeGroup {pieces : List (List String)}
    (h : Runner.reshapeGroup fallback group = .ok pieces) : pieces.flatten = group := by
  have hrow : ∀ row segments next, Runner.reshapeRow group segments row = .ok next →
      next.flatten = segments.flatten := by
    intro row segments next hnext
    rw [Runner.reshapeRow] at hnext
    split_ifs at hnext with hmode
    · rw [Except.ok.inj hnext]
    · have key : ∀ (l : List (List String)) start out, l.foldlM (fun next segment =>
          if (segment.filter ((Runner.reshapeScope group row).contains ·)).length ≤ 1 then
            Except.ok (next ++ [segment])
          else do
            let size ← Runner.chunkSize row
            return segment.foldl (Runner.placeAction (Runner.reshapeScope group row) size) next)
          start = (Except.ok out : Except PyErr _) → out.flatten = start.flatten ++ l.flatten := by
        intro l
        induction l with
        | nil =>
          intro start out hout
          rw [← pure_eq_ok.1 hout, List.flatten_nil, List.append_nil]
        | cons segment l ih =>
          intro start out hout
          rw [List.foldlM_cons] at hout
          obtain ⟨middle, hmiddle, hout⟩ := bind_eq_ok.1 hout
          rw [ih middle out hout, List.flatten_cons, ← List.append_assoc]
          congr 1
          split_ifs at hmiddle
          · rw [← Except.ok.inj hmiddle]
            simp
          · obtain ⟨size, -, hmiddle⟩ := bind_eq_ok.1 hmiddle
            rw [← pure_eq_ok.1 hmiddle, Runner.flatten_foldl_placeAction]
      exact key segments [] next hnext
  refine foldlM_ok_induction (P := fun segments => segments.flatten = group) (by simp) ?_ h
  intro segments row next _ hsegments hnext
  rw [hrow row segments next hnext, hsegments]

/-- The pieces of a group take no longer than it may. -/
theorem runMs_pieces_le {pieces : List (List String)}
    (h : Runner.reshapeGroup fallback group = .ok pieces) :
    runMs actions (pieces.map (groupSteps actions fallback)).flatten ≤
      groupRunMs actions fallback group := by
  rw [groupRunMs]
  split_ifs with hwhole
  · have hpieces : pieces = [group] := by
      rw [startedWhole, h, Bool.and_eq_true, Bool.and_eq_true] at hwhole
      exact of_decide_eq_true hwhole.1.1
    rw [hpieces, List.map_singleton, List.flatten_singleton]
    exact (runMs_groupSteps_of_whole hwhole).le
  · rw [← flatten_of_reshapeGroup h, runMs_flatten, List.map_map, List.map_flatten,
      List.sum_flatten, List.map_map]
    exact List.sum_le_sum fun piece _ => runMs_groupSteps_le piece

end Group

section Batch

variable {actions : Runner.Actions} {serviceData : Dict} {batch : Batch}

/-- The pieces of the groups of a batch take no longer than the groups may. -/
theorem runMs_groups_le {fallback : List FallbackMode} {groups : List (List String)}
    {pieces : List (List (List String))}
    (h : List.Forall₂ (fun group pieces => Runner.reshapeGroup fallback group = .ok pieces)
      groups pieces) :
    runMs actions (pieces.flatten.map (groupSteps actions fallback)).flatten ≤
      (groups.map (groupRunMs actions fallback)).sum := by
  induction h with
  | nil => exact le_rfl
  | cons hgroup _ ih =>
    rw [List.flatten_cons, List.map_append, List.flatten_append, runMs_append, List.map_cons,
      List.sum_cons]
    exact add_le_add (runMs_pieces_le hgroup) ih

theorem liftPy_eq_ok {α : Type} {x : Except PyErr α} {a : α} :
    Runner.liftPy x = .ok a ↔ x = .ok a := by
  cases x <;> simp [Runner.liftPy, Except.mapError]

theorem runMs_runBatch_le (hguards : AllGuardsHold serviceData batch) {steps : List (List String)}
    (h : Runner.runBatch actions serviceData batch = .ok steps) :
    runMs actions steps ≤ batchRunMs actions batch := by
  obtain ⟨guards, hread, hhold⟩ := hguards
  obtain ⟨read, hread', h⟩ := bind_eq_ok.1 h
  obtain rfl := Except.ok.inj ((liftPy_eq_ok.1 hread').symm.trans hread)
  obtain ⟨fallback, hfallback, h⟩ := bind_eq_ok.1 h
  obtain ⟨groups, hgroups, h⟩ := bind_eq_ok.1 h
  obtain ⟨pieces, hpieces, hflat⟩ := bind_eq_ok.1 (liftPy_eq_ok.1 hgroups)
  obtain rfl := pure_eq_ok.1 hflat
  obtain ⟨stepsOf, hsteps, h⟩ := bind_eq_ok.1 h
  obtain rfl := pure_eq_ok.1 h
  rw [Trust.mapM_groupSteps hhold] at hsteps
  obtain rfl := Except.ok.inj hsteps
  rw [batchRunMs, liftPy_eq_ok.1 hfallback]
  exact runMs_groups_le (forall₂_of_mapM_ok hpieces)

/-- A run takes no longer than its batches. -/
theorem runMs_run_le {plan : ExecutionPlan}
    (hguards : ∀ batch ∈ plan.orderedBatches, AllGuardsHold serviceData batch)
    {steps : List (List String)} (h : Runner.run actions serviceData plan = .ok steps) :
    runMs actions steps ≤ (plan.orderedBatches.map (batchRunMs actions)).sum := by
  obtain ⟨stepsOf, hsteps, hflat⟩ := bind_eq_ok.1 h
  obtain rfl := pure_eq_ok.1 hflat
  have hbatches := forall₂_of_mapM_ok hsteps
  clear h hflat hsteps
  generalize plan.orderedBatches = batches at hguards hbatches
  induction hbatches with
  | nil => exact le_rfl
  | cons hbatch _ ih =>
    rw [List.flatten_cons, runMs_append, List.map_cons, List.sum_cons]
    exact add_le_add (runMs_runBatch_le (hguards _ List.mem_cons_self) hbatch)
      (ih fun b hb => hguards b (List.mem_cons_of_mem _ hb))

end Batch

/-! ## The actions of a target -/

/-- The ids of the actions are texts without blanks around them. -/
def TrimmedIds (target : OptimizationTarget) : Prop :=
  ∀ action ∈ target.vdevActions, ∀ value, action.get? "action_id" = some value →
    ∃ actionId, value = .str actionId ∧ strip actionId = actionId

/-- The runner and the estimates know the same actions. -/
theorem lookup_runnerActions {target : OptimizationTarget} (h : TrimmedIds target)
    (actionId : String) :
    (runnerActions target).lookup actionId = (actionIndex target).get? actionId := by
  have hrow : ∀ action ∈ target.vdevActions,
      (action.get "action_id").truthy =
          decide (strip (action.getD "action_id" (.str "")).pyStr ≠ "") ∧
        ((action.get "action_id").truthy = true →
          (action.get "action_id").pyStr = strip (action.getD "action_id" (.str "")).pyStr) := by
    intro action haction
    rw [Dict.get, Dict.getD]
    cases hid : action.get? "action_id" with
    | none => exact ⟨rfl, fun h => absurd h (by decide)⟩
    | some value =>
      obtain ⟨id, rfl, hstrip⟩ := h action haction value hid
      simp [Val.pyStr, hstrip, Val.truthy]
  have hfilter : (target.vdevActions.filter fun action => (action.get "action_id").truthy) =
      target.vdevActions.filter fun action =>
        decide (strip (action.getD "action_id" (.str "")).pyStr ≠ "") :=
    List.filter_congr fun action haction => (hrow action haction).1
  rw [runnerActions, OrderedDict.lookup_rows, Scheduler.actionIndex_eq_ofList, List.filter_map,
    Function.comp_def, ← hfilter]
  refine congrArg (fun rows => (OrderedDict.ofList rows).get? actionId) ?_
  refine List.map_congr_left fun action haction => ?_
  obtain ⟨hmem, htruthy⟩ := List.mem_filter.1 haction
  rw [(hrow action hmem).2 htruthy]

/-! ## The estimate -/

section Estimate

variable {actions : Runner.Actions} {index : OrderedDict String Dict}

/-- The estimates take an action that is not known for nothing. -/
theorem sum_actionMs (hknown : ∀ id, actions.lookup id = index.get? id) (group : List String) :
    (group.map (actionMs actions)).sum =
      ((group.filterMap index.get?).map estimatedActionLatencyMs).sum := by
  induction group with
  | nil => rfl
  | cons id group ih =>
    rw [List.map_cons, List.sum_cons, ih, actionMs, hknown, List.filterMap_cons]
    cases index.get? id with
    | none => exact zero_add _
    | some action => rw [Option.map_some, Option.getD_some, List.map_cons, List.sum_cons]

theorem stepMs_eq (hknown : ∀ id, actions.lookup id = index.get? id) (group : List String) :
    stepMs actions group =
      maxCost ((group.filterMap index.get?).map estimatedActionLatencyMs) := by
  rw [stepMs]
  induction group with
  | nil => rfl
  | cons id group ih =>
    rw [List.map_cons, List.filterMap_cons, actionMs, hknown]
    cases index.get? id with
    | none => exact (max_eq_right (maxCost_nonneg _)).trans ih
    | some action =>
      rw [Option.map_some, Option.getD_some, List.map_cons]
      exact congrArg (max (estimatedActionLatencyMs action)) ih

theorem maxCost_le_groupLatencyMs (group : List String) :
    maxCost ((group.filterMap index.get?).map estimatedActionLatencyMs) ≤
      groupLatencyMs index group := by
  rw [groupLatencyMs]
  generalize group.filterMap index.get? = known
  have hsum : maxCost (known.map estimatedActionLatencyMs) ≤
      (known.map estimatedActionLatencyMs).sum := maxCost_le_sum fun cost hcost => by
    obtain ⟨action, -, rfl⟩ := List.mem_map.1 hcost
    exact (latency_pos action).le
  split_ifs with hempty
  · rw [List.isEmpty_iff.1 hempty]
    exact le_rfl
  · exact hsum
  · exact le_add_of_nonneg_right (le_max_left _ _)
  · exact le_add_of_nonneg_right (le_max_left _ _)
  · exact le_add_of_nonneg_right (le_max_left _ _)
  · exact le_rfl

/-- Every action of a group that is known uses the BLE radio. -/
def BleOnly (index : OrderedDict String Dict) (group : List String) : Prop :=
  ∀ action ∈ group.filterMap index.get?, actionProtocol action = "BLE"

theorem groupLatencyMs_of_bleOnly {group : List String} (h : BleOnly index group) :
    groupLatencyMs index group =
      ((group.filterMap index.get?).map estimatedActionLatencyMs).sum := by
  rw [BleOnly] at h
  rw [groupLatencyMs]
  generalize group.filterMap index.get? = known at h
  cases known with
  | nil => rfl
  | cons action known =>
    have hprotocols : ((action :: known).map actionProtocol).eraseDups = ["BLE"] := by
      have hrest : (known.map actionProtocol).filter (fun p => !p == actionProtocol action) = [] :=
        List.filter_eq_nil_iff.2 fun p hp => by
          obtain ⟨other, hother, rfl⟩ := List.mem_map.1 hp
          rw [h other (List.mem_cons_of_mem _ hother), h action List.mem_cons_self]
          decide
      rw [List.map_cons, List.eraseDups_cons, hrest, h action List.mem_cons_self]
      rfl
    rw [if_neg (by simp), if_pos hprotocols]

/-- A group that the estimates see as it is run. -/
def SeenAsRun (actions : Runner.Actions) (index : OrderedDict String Dict)
    (fallback : List FallbackMode) (group : List String) : Prop :=
  startedWhole actions fallback group = true ∨ BleOnly index group

theorem groupRunMs_le (hknown : ∀ id, actions.lookup id = index.get? id)
    {fallback : List FallbackMode} {group : List String}
    (h : SeenAsRun actions index fallback group) :
    groupRunMs actions fallback group ≤ groupLatencyMs index group := by
  rw [groupRunMs]
  split_ifs with hwhole
  · exact (stepMs_eq hknown group).trans_le (maxCost_le_groupLatencyMs group)
  · rw [groupLatencyMs_of_bleOnly (h.resolve_left hwhole), sum_actionMs hknown]

end Estimate

/-- The estimates see every group of a plan as it is run: it is started as a whole, or uses the
BLE radio only. -/
def PlanSeenAsRun (target : OptimizationTarget) (plan : ExecutionPlan) : Prop :=
  ∀ batch ∈ plan.orderedBatches, ∀ fallback, batch.fallback.mapM Runner.readFallback = .ok fallback →
    ∀ group ∈ batch.parallelGroups,
      SeenAsRun (runnerActions target) (actionIndex target) fallback group

/-- At most one group of every batch has actions. -/
def OneGroupEach (plan : ExecutionPlan) : Prop :=
  ∀ batch ∈ plan.orderedBatches, (batch.parallelGroups.filter (!·.isEmpty)).length ≤ 1

/-- The estimate of a plan with the groups of a batch one after the other. -/
def serialPlanLatencyMs (plan : ExecutionPlan) (target : OptimizationTarget) : ℤ :=
  (plan.orderedBatches.map fun batch =>
    (batch.parallelGroups.map (groupLatencyMs (actionIndex target))).sum).sum

theorem groupLatencyMs_nonneg (index : OrderedDict String Dict) (group : List String) :
    0 ≤ groupLatencyMs index group :=
  (maxCost_nonneg _).trans (maxCost_le_groupLatencyMs group)

theorem batchRunMs_le {target : OptimizationTarget} (hids : TrimmedIds target) {batch : Batch}
    (h : ∀ fallback, batch.fallback.mapM Runner.readFallback = .ok fallback →
      ∀ group ∈ batch.parallelGroups,
        SeenAsRun (runnerActions target) (actionIndex target) fallback group) :
    batchRunMs (runnerActions target) batch ≤
      (batch.parallelGroups.map (groupLatencyMs (actionIndex target))).sum := by
  rw [batchRunMs]
  cases hread : batch.fallback.mapM Runner.readFallback with
  | error e =>
    refine List.sum_nonneg fun cost hcost => ?_
    obtain ⟨group, -, rfl⟩ := List.mem_map.1 hcost
    exact groupLatencyMs_nonneg _ group
  | ok fallback =>
    exact List.sum_le_sum fun group hgroup =>
      groupRunMs_le (lookup_runnerActions hids) (h fallback hread group hgroup)

/-- Where one group has actions, the longest group is all of them. -/
theorem sum_groups_le {index : OrderedDict String Dict} {groups : List (List String)}
    (h : (groups.filter (!·.isEmpty)).length ≤ 1) :
    (groups.map (groupLatencyMs index)).sum ≤ maxCost (groups.map (groupLatencyMs index)) := by
  induction groups with
  | nil => exact le_rfl
  | cons group groups ih =>
    rw [List.map_cons, List.sum_cons]
    show _ ≤ max (groupLatencyMs index group) (maxCost (groups.map (groupLatencyMs index)))
    cases group with
    | nil => exact (zero_add _).trans_le ((ih h).trans (le_max_right _ _))
    | cons id ids =>
      have hnone : ∀ other ∈ groups, other = [] := fun other hother => by
        have hfilter : groups.filter (!·.isEmpty) = [] :=
          List.length_eq_zero_iff.1 (Nat.le_zero.1 (Nat.le_of_succ_le_succ h))
        simpa using List.filter_eq_nil_iff.1 hfilter other hother
      have hzero : (groups.map (groupLatencyMs index)).sum = 0 := by
        refine List.sum_eq_zero fun cost hcost => ?_
        obtain ⟨other, hother, rfl⟩ := List.mem_map.1 hcost
        rw [hnone other hother]
        rfl
      rw [hzero, add_zero]
      exact le_max_left _ _

/-! ## Runs -/

/-- A run whose guards hold takes no longer than its batches may, each the sum of its groups.
Where the estimates see the groups as they are run, it takes no longer than the groups are
estimated to take one after the other, and no longer than the plan is estimated to take when every
batch has one group. -/
theorem run_within_estimate (plan : ExecutionPlan) (target : OptimizationTarget)
    (serviceData : Dict) (steps : List (List String))
    (hguards : ∀ batch ∈ plan.orderedBatches, AllGuardsHold serviceData batch)
    (hrun : Runner.run (runnerActions target) serviceData plan = .ok steps) :
    runMs (runnerActions target) steps ≤
        (plan.orderedBatches.map (batchRunMs (runnerActions target))).sum ∧
      (TrimmedIds target → PlanSeenAsRun target plan →
        runMs (runnerActions target) steps ≤ serialPlanLatencyMs plan target ∧
        (OneGroupEach plan →
          runMs (runnerActions target) steps ≤ estimatePlanLatencyMs plan target)) := by
  have hbatches := runMs_run_le hguards hrun
  refine ⟨hbatches, fun hids hseen => ?_⟩
  have hserial : runMs (runnerActions target) steps ≤ serialPlanLatencyMs plan target :=
    hbatches.trans <| List.sum_le_sum fun batch hbatch => batchRunMs_le hids (hseen batch hbatch)
  exact ⟨hserial, fun hone => hserial.trans <|
    List.sum_le_sum fun batch hbatch => sum_groups_le (hone batch hbatch)⟩

/-! ## Plans of local actions -/

def localAction (actionId : String) : Dict :=
  [("action_id", .str actionId), ("protocol", .str "LOCAL")]

def lampTarget (ids : List String) : OptimizationTarget := { vdevActions := ids.map localAction }

def lampPlan (groups : List (List String)) (fallback : List Dict) : ExecutionPlan where
  orderedBatches := [{ batchId := "batch_000", parallelGroups := groups, fallback }]

theorem lampPlan_guards (groups : List (List String)) (fallback : List Dict) :
    ∀ batch ∈ (lampPlan groups fallback).orderedBatches, AllGuardsHold [] batch := by
  intro batch hbatch
  obtain rfl := List.mem_singleton.1 hbatch
  exact ⟨[], rfl, by simp [Trust.GuardsHold]⟩

/-- Two lamps in one group. -/
theorem run_within_estimate_lamps :
    runMs (runnerActions (lampTarget ["a", "b"])) [["a", "b"]] ≤
        ((lampPlan [["a", "b"]] []).orderedBatches.map
          (batchRunMs (runnerActions (lampTarget ["a", "b"])))).sum ∧
      runMs (runnerActions (lampTarget ["a", "b"])) [["a", "b"]] ≤
        estimatePlanLatencyMs (lampPlan [["a", "b"]] []) (lampTarget ["a", "b"]) := by
  have hids : TrimmedIds (lampTarget ["a", "b"]) := by
    intro action haction value hvalue
    obtain ⟨actionId, hactionId, rfl⟩ := List.mem_map.1 haction
    obtain rfl := Option.some.inj hvalue
    have hstrip : ∀ id ∈ ["a", "b"], strip id = id := by decide +kernel
    exact ⟨actionId, rfl, hstrip actionId hactionId⟩
  have hseen : PlanSeenAsRun (lampTarget ["a", "b"]) (lampPlan [["a", "b"]] []) := by
    intro batch hbatch fallback hread group hgroup
    obtain rfl := List.mem_singleton.1 hbatch
    obtain rfl := Except.ok.inj hread
    obtain rfl := List.mem_singleton.1 hgroup
    exact .inl (by decide +kernel)
  have hone : OneGroupEach (lampPlan [["a", "b"]] []) := by
    intro batch hbatch
    obtain rfl := List.mem_singleton.1 hbatch
    exact le_rfl
  obtain ⟨hbatches, hplan⟩ := run_within_estimate (lampPlan [["a", "b"]] [])
    (lampTarget ["a", "b"]) [] [["a", "b"]] (lampPlan_guards _ _) (by decide +kernel)
  exact ⟨hbatches, (hplan hids hseen).2 hone⟩

/-- Three runs that take longer than estimated: of two groups in one batch, of a group whose order
is kept, and of an action whose id has blanks around it. -/
theorem run_exceeds_estimate :
    (Runner.run (runnerActions (lampTarget ["a", "b"])) [] (lampPlan [["a"], ["b"]] []) =
        .ok [["a"], ["b"]] ∧
      runMs (runnerActions (lampTarget ["a", "b"])) [["a"], ["b"]] = 200 ∧
      estimatePlanLatencyMs (lampPlan [["a"], ["b"]] []) (lampTarget ["a", "b"]) = 100) ∧
    (Runner.run (runnerActions (lampTarget ["a", "b"])) []
        (lampPlan [["a", "b"]] [[("action", .str "preserve_action_order")]]) = .ok [["a"], ["b"]] ∧
      estimatePlanLatencyMs (lampPlan [["a", "b"]] [[("action", .str "preserve_action_order")]])
        (lampTarget ["a", "b"]) = 120) ∧
    (Runner.run (runnerActions (lampTarget [" a "])) [] (lampPlan [[" a "]] []) = .ok [[" a "]] ∧
      runMs (runnerActions (lampTarget [" a "])) [[" a "]] = 100 ∧
      estimatePlanLatencyMs (lampPlan [[" a "]] []) (lampTarget [" a "]) = 0) ∧
    ¬∀ (plan : ExecutionPlan) (target : OptimizationTarget) (serviceData : Dict)
        (steps : List (List String)),
        (∀ batch ∈ plan.orderedBatches, AllGuardsHold serviceData batch) →
        Runner.run (runnerActions target) serviceData plan = .ok steps →
        runMs (runnerActions target) steps ≤ estimatePlanLatencyMs plan target := by
  have hrun : Runner.run (runnerActions (lampTarget ["a", "b"])) [] (lampPlan [["a"], ["b"]] []) =
      .ok [["a"], ["b"]] := by decide +kernel
  have htime : runMs (runnerActions (lampTarget ["a", "b"])) [["a"], ["b"]] = 200 := by
    decide +kernel
  have hestimate :
      estimatePlanLatencyMs (lampPlan [["a"], ["b"]] []) (lampTarget ["a", "b"]) = 100 := by
    decide +kernel
  refine ⟨⟨hrun, htime, hestimate⟩, by decide +kernel, by decide +kernel, fun hall => ?_⟩
  have hle := hall _ _ [] _ (lampPlan_guards _ _) hrun
  rw [htime, hestimate] at hle
  omega

end FloWeaver.Micro
