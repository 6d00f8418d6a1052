import FloWeaver.Micro.RunTime
import FloWeaver.Runner.Executor
import FloWeaver.Scheduler.PlanFacts

/-!
# What a run of a plan does, one after the other

Everything that the runner does besides running actions is decided by the plan, the target and the
data of the run: it sets up a rate controller for every batch, cuts its groups, waits in front of a
group whose requests a later group could share, and starts the actions of a group together or one
by one.  The first exception ends the run.

* `coalescingWait` — the wait in front of a group.
* `Stage`, `Command` — actions that are started together, and what the runner does next.
* `RunnerPlan` — a plan with no group that names an action twice; of two equal tasks of a group the
  runner would await one.
* `batchScript`, `script` — the commands of a batch and of a plan.
* `Covers`, `covers_script` — a script starts actions of the groups of the plan, and without an
  exception the steps of the layout.
* `steps_before` — in front of a step of a batch are all actions of the earlier batches.
-/

namespace FloWeaver.Runner

open Py
open Scheduler (InBatch)

/-! ## Waiting for requests to share -/

section Coalescing

variable (actions : Actions)

/-- `_action_group_value`. -/
def actionGroupValue (action : Dict) (groupKey : String) : String :=
  let key := lower (strip groupKey)
  let tgt := Scheduler.target action
  let cfg := Scheduler.execCfg action
  if key = "" then ""
  else if key = "endpoint" then RateController.actionEndpoint action
  else if key = "device_id" then
    (Scheduler.firstOf [tgt.get "device_id", tgt.get "id", cfg.get "device_id"]).pyStr
  else if key = "host" then Scheduler.hostOfEndpoint (RateController.actionEndpoint action)
  else (Scheduler.firstOf [action.get key, tgt.get key, cfg.get key]).pyStr

def batchBucketKey (action : Dict) (groupKey : String) : String :=
  let group := Scheduler.canonicalBucketToken (actionGroupValue action groupKey)
  if lower (strip groupKey) = "endpoint" then
    join "|" ([RateController.providerToken action, RateController.hostToken action, group].filter
      (· ≠ ""))
  else group

/-- The first rule whose scope holds all actions of a group. -/
def firstRuleFor (actionIds : List String) : List Val → Except PyErr (Option Dict)
  | [] => .ok none
  | .dict rule :: rules => do
      let scope ← rowScope rule
      if actionIds.all (scope.contains ·) then return some rule else firstRuleFor actionIds rules
  | _ :: rules => firstRuleFor actionIds rules

def batchRuleForGroup (actionIds : List String) (ratePolicy : Dict) : Except PyErr (Option Dict) :=
  match ratePolicy.getD "batch_rules" (.list []) with
  | .list rules => if actionIds.isEmpty then .ok none else firstRuleFor actionIds rules
  | _ => .ok none

/-- The bucket of a group, how long it may wait and how many actions share a request. -/
structure BucketInfo where
  bucket : String := ""
  maxWaitMs : ℤ := 0
  maxBatchSize : ℤ := 0

def groupBucketInfo (ratePolicy : Dict) (actionIds : List String) : Except PyErr BucketInfo := do
  match ← batchRuleForGroup actionIds ratePolicy with
  | none => return {}
  | some rule =>
      let groupKey := (rule.getD "group_key" (.str "endpoint")).pyStr
      let firstAction := (actionIds.head?.bind fun actionId => actions.lookup actionId).getD []
      let wait ← (rule.getD "max_wait_ms" (.int 0)).toInt
      let size ← (rule.getD "max_batch_size" (.int 1)).toInt
      return { bucket := batchBucketKey firstAction groupKey, maxWaitMs := max 0 wait,
               maxBatchSize := max 1 size }

/-- The report of a wait in front of a group. -/
structure CoalesceWait where
  batchId : String
  bucket : String
  waitMs : ℤ
  actionIds : List String
deriving DecidableEq

/-- `_apply_batch_coalescing_wait`: a wait for a bucket that was not waited for, when the group has
room and a later group has the same bucket. -/
def coalescingWait (batchId : String) (ratePolicy : Dict) (waited actionIds : List String)
    (later : List (List String)) : Except PyErr (Option CoalesceWait) := do
  let info ← groupBucketInfo actions ratePolicy actionIds
  if info.bucket = "" || info.maxWaitMs ≤ 0 || waited.contains info.bucket then return none
  if info.maxBatchSize ≤ actionIds.length then return none
  let again ← later.anyM fun group => do
    let other ← groupBucketInfo actions ratePolicy group
    return other.bucket = info.bucket
  return if again then some { batchId, bucket := info.bucket, waitMs := info.maxWaitMs, actionIds }
    else none

end Coalescing

/-! ## Commands -/

/-- Actions that are started together, and the actions that a summary of a failure names. -/
structure Stage where
  ids : List String
  summaryIds : List String
deriving DecidableEq

/-- What the runner does next. -/
inductive Command where
  | openBatch (controller : RateController)
  | coalesceWait (wait : CoalesceWait)
  | start (stage : Stage)
  | raise (error : RunnerError)

def Command.stage? : Command → Option Stage
  | .start stage => some stage
  | _ => none

def Command.controller? : Command → Option RateController
  | .openBatch controller => some controller
  | _ => none

def Command.raises : Command → Bool
  | .raise _ => true
  | _ => false

/-- What comes behind an exception is not done. -/
def follow (commands more : List Command) : List Command :=
  if commands.any Command.raises then commands else commands ++ more

/-- The commands for a value, or the exception in its place. -/
def orRaise {α : Type} (x : Except RunnerError α) (next : α → List Command) : List Command :=
  match x with
  | .error error => [.raise error]
  | .ok a => next a

/-- The rate controllers of the batches that are opened. -/
def controllers (commands : List Command) : List RateController :=
  commands.filterMap Command.controller?

/-- The steps that are started. -/
def steps (commands : List Command) : List (List String) :=
  (commands.filterMap Command.stage?).map Stage.ids

/-- `_run_parallel` for the first actions and `_run_serial` for the others. -/
def groupStages (parallel serial : List String) : List Stage :=
  (if parallel.isEmpty then [] else [{ ids := parallel, summaryIds := parallel }]) ++
    serial.map fun actionId => { ids := [actionId], summaryIds := serial }

section Script

variable (actions : Actions) (serviceData : Dict)

/-- The parallel and the serial actions of a group. -/
def groupLayout (guards : List GuardRow) (fallback : List FallbackMode) (actionIds : List String) :
    Except RunnerError (List String × List String) := do
  let relevantFallback := rowsForGroup actionIds FallbackMode.scope fallback
  let failed ← failedGuards serviceData (rowsForGroup actionIds GuardRow.scope guards)
  let targets := serializeTargets actions actionIds failed relevantFallback
  return if groupRequiresOrderPreservation actionIds relevantFallback then ([], actionIds)
    else (actionIds.filter (!targets.contains ·), actionIds.filter (targets.contains ·))

def groupScript (guards : List GuardRow) (fallback : List FallbackMode) (actionIds : List String) :
    List Command :=
  orRaise (groupLayout actions serviceData guards fallback actionIds) fun layout =>
    (groupStages layout.1 layout.2).map .start

/-- The groups of a batch; `waited` are the buckets that were waited for. -/
def groupsScript (batch : Batch) (guards : List GuardRow) (fallback : List FallbackMode) :
    List String → List (List String) → List Command
  | _, [] => []
  | waited, group :: later =>
      orRaise (liftPy (coalescingWait actions batch.batchId batch.ratePolicy waited group later))
        fun wait => follow
          (wait.toList.map .coalesceWait ++ groupScript actions serviceData guards fallback group)
          (groupsScript batch guards fallback (wait.toList.map (·.bucket) ++ waited) later)

def batchScript (batch : Batch) : List Command :=
  orRaise (liftPy (batch.guards.mapM readGuard)) fun guards =>
  orRaise (liftPy (batch.fallback.mapM readFallback)) fun fallback =>
  orRaise (liftPy (RateController.ofPolicy batch.batchId batch.ratePolicy actions)) fun own =>
  .openBatch own ::
    orRaise (liftPy (reshapeGroupsForFallbacks batch.parallelGroups fallback)) fun groups =>
      groupsScript actions serviceData batch guards fallback [] groups

def batchesScript (batches : List Batch) : List Command :=
  batches.foldr (fun batch rest => follow (batchScript actions serviceData batch) rest) []

end Script

/-- A plan whose groups name no action twice. -/
structure RunnerPlan extends ExecutionPlan where
  nodup : ∀ batch ∈ orderedBatches, ∀ group ∈ batch.parallelGroups, group.Nodup

/-- What a run of a plan does. -/
def script (actions : Actions) (serviceData : Dict) (plan : RunnerPlan) : List Command :=
  batchesScript actions serviceData plan.orderedBatches

/-! ## Steps of a script -/

theorem steps_append (a b : List Command) : steps (a ++ b) = steps a ++ steps b := by
  simp [steps]

theorem follow_assoc (a b c : List Command) : follow (follow a b) c = follow a (follow b c) := by
  unfold follow
  cases ha : a.any Command.raises
  · cases hb : b.any Command.raises <;> simp [ha, hb]
  · simp [ha]

theorem follow_of_raises {a : List Command} (h : a.any Command.raises = true) (b : List Command) :
    follow a b = a := if_pos h

theorem follow_of_sound {a : List Command} (h : a.any Command.raises = false) (b : List Command) :
    follow a b = a ++ b := if_neg (Bool.eq_false_iff.1 h)

theorem steps_waits (waits : List CoalesceWait) (commands : List Command) :
    steps (waits.map .coalesceWait ++ commands) = steps commands := by
  simp [steps, Command.stage?]

theorem any_raises_waits (waits : List CoalesceWait) (commands : List Command) :
    (waits.map Command.coalesceWait ++ commands).any Command.raises =
      commands.any Command.raises := by
  simp [Command.raises]

/-- Commands start only actions of some groups, each step those of one, none more often than it is
named; without an exception they start all, in the steps of a layout. -/
structure Covers (commands : List Command) (groups : List (List String))
    (layout : Except RunnerError (List (List String))) : Prop where
  within : ∀ step ∈ steps commands, ∃ group ∈ groups, step.Subperm group
  subperm : (steps commands).flatten.Subperm groups.flatten
  sound : commands.any Command.raises = false →
    (steps commands).flatten.Perm groups.flatten ∧ layout = .ok (steps commands)

namespace Covers

variable {a b : List Command} {l m : List (List String)}
  {layout : Except RunnerError (List (List String))}

theorem nil : Covers [] [] (.ok []) where
  within _ h := absurd h List.not_mem_nil
  subperm := List.nil_subperm
  sound _ := ⟨.refl _, rfl⟩

theorem orRaise {α : Type} {x : Except RunnerError α} {next : α → List Command}
    (h : ∀ v, x = .ok v → Covers (next v) l layout) : Covers (orRaise x next) l layout := by
  cases x with
  | error error =>
    exact ⟨fun _ hstep => absurd hstep List.not_mem_nil, List.nil_subperm,
      fun hsound => absurd hsound (by simp [Runner.orRaise, Command.raises])⟩
  | ok v => exact h v rfl

/-- One part after the other, as the layout goes through a list. -/
theorem follow {γ : Type} {f : γ → Except RunnerError (List (List String))} {c : γ} {cs : List γ}
    (ha : Covers a l (f c)) (hb : Covers b m (cs.mapM f >>= fun steps => pure steps.flatten)) :
    Covers (follow a b) (l ++ m) ((c :: cs).mapM f >>= fun steps => pure steps.flatten) := by
  have hleft : ∀ step ∈ steps a, ∃ group ∈ l ++ m, step.Subperm group := fun step hstep =>
    (ha.within step hstep).imp fun _ h => ⟨List.mem_append_left m h.1, h.2⟩
  cases hraises : a.any Command.raises with
  | true =>
    rw [follow_of_raises hraises]
    refine ⟨hleft, ?_, fun h => absurd (hraises.symm.trans h) (by simp)⟩
    rw [List.flatten_append]
    exact ha.subperm.trans (List.sublist_append_left _ _).subperm
  | false =>
    rw [follow_of_sound hraises]
    refine ⟨fun step hstep => ?_, ?_, fun h => ?_⟩
    · rw [steps_append] at hstep
      rcases List.mem_append.1 hstep with hstep | hstep
      · exact hleft step hstep
      · exact (hb.within step hstep).imp fun _ h => ⟨List.mem_append_right l h.1, h.2⟩
    · rw [steps_append, List.flatten_append, List.flatten_append]
      exact ha.subperm.append hb.subperm
    · rw [List.any_append, Bool.or_eq_false_iff] at h
      obtain ⟨hperm, hlayout⟩ := hb.sound h.2
      obtain ⟨rest, hrest, hflat⟩ := bind_eq_ok.1 hlayout
      rw [steps_append, List.flatten_append, List.flatten_append, List.mapM_cons,
        (ha.sound h.1).2, hrest]
      exact ⟨(ha.sound h.1).1.append hperm,
        congrArg (fun later => Except.ok (steps a ++ later)) (pure_eq_ok.1 hflat)⟩

/-- Waits in front do not matter. -/
theorem behind {waits : List CoalesceWait} (h : Covers a l layout) :
    Covers (waits.map .coalesceWait ++ a) l layout := by
  obtain ⟨hwithin, hsubperm, hsound⟩ := h
  rw [← steps_waits waits] at hwithin hsubperm hsound
  rw [← any_raises_waits waits] at hsound
  exact ⟨hwithin, hsubperm, hsound⟩

/-- What covers the pieces of some groups covers the groups. -/
theorem of_pieces (h : Covers a l layout) (hflat : l.flatten = m.flatten)
    (hpieces : ∀ piece ∈ l, ∃ group ∈ m, piece.Sublist group) : Covers a m layout where
  within step hstep := by
    obtain ⟨piece, hpiece, hstep⟩ := h.within step hstep
    obtain ⟨group, hgroup, hsub⟩ := hpieces piece hpiece
    exact ⟨group, hgroup, hstep.trans hsub.subperm⟩
  subperm := hflat ▸ h.subperm
  sound hsound := hflat ▸ h.sound hsound

end Covers

section Facts

variable {actions : Actions} {serviceData : Dict}

theorem steps_groupStages (parallel serial : List String) :
    steps ((groupStages parallel serial).map .start) = startSteps parallel serial := by
  rw [steps, List.filterMap_map, show Command.stage? ∘ Command.start = some from rfl,
    List.filterMap_some, groupStages, startSteps, List.map_append, List.map_map]
  cases parallel <;> rfl

theorem groupLayout_spec {guards : List GuardRow} {fallback : List FallbackMode}
    {actionIds : List String} {layout : List String × List String}
    (h : groupLayout actions serviceData guards fallback actionIds = .ok layout) :
    (layout.1 ++ layout.2).Perm actionIds ∧
      runGroup actions serviceData guards fallback actionIds =
        .ok (startSteps layout.1 layout.2) := by
  obtain ⟨failed, hfailed, h⟩ := bind_eq_ok.1 h
  obtain rfl := pure_eq_ok.1 h
  rw [runGroup, hfailed]
  simp only [bind, Except.bind, pure, Except.pure]
  split_ifs
  · exact ⟨List.Perm.refl _, rfl⟩
  · exact ⟨List.perm_append_comm.trans (List.filter_append_perm _ _), rfl⟩

theorem covers_groupScript (guards : List GuardRow) (fallback : List FallbackMode)
    (actionIds : List String) :
    Covers (groupScript actions serviceData guards fallback actionIds) [actionIds]
      (runGroup actions serviceData guards fallback actionIds) := by
  refine Covers.orRaise fun layout hlayout => ?_
  obtain ⟨hperm, hrun⟩ := groupLayout_spec hlayout
  rw [← flatten_startSteps, ← steps_groupStages] at hperm
  rw [← steps_groupStages] at hrun
  refine ⟨fun step hstep => ⟨actionIds, List.mem_singleton_self _, ?_⟩, ?_, fun _ => ⟨?_, hrun⟩⟩
  · exact (List.sublist_flatten_of_mem hstep).subperm.trans hperm.subperm
  · exact List.flatten_singleton ▸ hperm.subperm
  · exact List.flatten_singleton ▸ hperm

theorem covers_groupsScript (batch : Batch) (guards : List GuardRow) (fallback : List FallbackMode)
    (groups : List (List String)) (waited : List String) :
    Covers (groupsScript actions serviceData batch guards fallback waited groups) groups
      (groups.mapM (runGroup actions serviceData guards fallback) >>=
        fun steps => pure steps.flatten) := by
  induction groups generalizing waited with
  | nil => exact .nil
  | cons group later ih =>
    exact Covers.orRaise fun wait _ =>
      (covers_groupScript guards fallback group).behind.follow (ih _)

/-- The groups are cut into pieces. -/
theorem pieces_of_reshapeGroups {groups pieces : List (List String)} {fallback : List FallbackMode}
    (h : reshapeGroupsForFallbacks groups fallback = .ok pieces) :
    pieces.flatten = groups.flatten ∧ ∀ piece ∈ pieces, ∃ group ∈ groups, piece.Sublist group := by
  obtain ⟨parts, hparts, hflat⟩ := bind_eq_ok.1 h
  obtain rfl := pure_eq_ok.1 hflat
  have hpairs := forall₂_of_mapM_ok hparts
  clear h hflat hparts
  induction hpairs with
  | nil => simp
  | @cons group part groups parts hgroup _ ih =>
    obtain ⟨hflat, hpieces⟩ := ih
    have hpart := Micro.flatten_of_reshapeGroup hgroup
    refine ⟨by rw [List.flatten_cons, List.flatten_append, hflat, hpart, List.flatten_cons],
      fun piece hpiece => ?_⟩
    rcases List.mem_append.1 (List.flatten_cons ▸ hpiece) with hpiece | hpiece
    · exact ⟨group, List.mem_cons_self, hpart ▸ List.sublist_flatten_of_mem hpiece⟩
    · exact (hpieces piece hpiece).imp fun _ h => ⟨List.mem_cons_of_mem _ h.1, h.2⟩

theorem covers_batchScript (batch : Batch) : Covers (batchScript actions serviceData batch)
    batch.parallelGroups (runBatch actions serviceData batch) := by
  refine Covers.orRaise fun guards hguards => Covers.orRaise fun fallback hfallback =>
    Covers.orRaise fun controller _ => ?_
  have hcovers : Covers (Runner.orRaise
      (liftPy (reshapeGroupsForFallbacks batch.parallelGroups fallback))
        fun groups => groupsScript actions serviceData batch guards fallback [] groups)
      batch.parallelGroups (runBatch actions serviceData batch) := by
    refine Covers.orRaise fun groups hgroups => ?_
    rw [runBatch, hguards, hfallback]
    simp only [bind, Except.bind, hgroups]
    obtain ⟨hflat, hpieces⟩ := pieces_of_reshapeGroups (Micro.liftPy_eq_ok.1 hgroups)
    exact (covers_groupsScript batch guards fallback groups []).of_pieces hflat hpieces
  exact ⟨hcovers.within, hcovers.subperm, hcovers.sound⟩

theorem covers_batchesScript (batches : List Batch) :
    Covers (batchesScript actions serviceData batches) (batches.flatMap (·.parallelGroups))
      (batches.mapM (runBatch actions serviceData) >>= fun steps => pure steps.flatten) := by
  induction batches with
  | nil => exact .nil
  | cons batch rest ih =>
    rw [List.flatMap_cons]
    exact (covers_batchScript batch).follow ih

/-- The actions that some batches name, as often as they name them. -/
def namedIds (batches : List Batch) : List String := (batches.flatMap (·.parallelGroups)).flatten

theorem covers_script (plan : RunnerPlan) : Covers (script actions serviceData plan)
    (plan.orderedBatches.flatMap (·.parallelGroups))
    (run actions serviceData plan.toExecutionPlan) :=
  covers_batchesScript plan.orderedBatches

/-- A step takes some of the actions of one group of the plan, each once. -/
theorem mem_steps_script {plan : RunnerPlan} {step : List String}
    (h : step ∈ steps (script actions serviceData plan)) : step.Nodup ∧
      ∃ batch ∈ plan.orderedBatches, ∃ group ∈ batch.parallelGroups, step ⊆ group := by
  obtain ⟨group, hgroup, hsub⟩ := (covers_script plan).within step h
  obtain ⟨batch, hbatch, hgroup⟩ := List.mem_flatMap.1 hgroup
  refine ⟨?_, batch, hbatch, group, hgroup, hsub.subset⟩
  obtain ⟨part, hpart, hsub⟩ := hsub
  exact hpart.nodup_iff.1 (hsub.nodup (plan.nodup batch hbatch group hgroup))

/-! ## The order of the batches -/

/-- An element of two lists one after the other is in the second one, or in the first. -/
theorem split_of_append {α : Type} {first second pre post : List α} {a : α}
    (h : first ++ second = pre ++ a :: post) :
    (∃ rest, pre = first ++ rest ∧ second = rest ++ a :: post) ∨
      ∃ rest, first = pre ++ a :: rest := by
  rcases List.append_eq_append_iff.1 h with ⟨rest, hpre, hsecond⟩ | ⟨rest, hfirst, hcons⟩
  · exact .inl ⟨rest, hpre, hsecond⟩
  · cases rest with
    | nil => exact .inl ⟨[], by simp [hfirst], hcons.symm⟩
    | cons b rest =>
      obtain ⟨rfl, -⟩ := List.cons.inj hcons
      exact .inr ⟨rest, hfirst⟩

theorem batchesScript_append (first later : List Batch) :
    batchesScript actions serviceData (first ++ later) = follow
      (batchesScript actions serviceData first) (batchesScript actions serviceData later) := by
  induction first with
  | nil => rfl
  | cons batch rest ih =>
    rw [List.cons_append, batchesScript, List.foldr_cons, ← batchesScript, ih, ← follow_assoc]
    rfl

/-- In front of a step with an action that is in none of the first batches are all actions of these
batches. -/
theorem steps_before {first later : List Batch} {before after : List (List String)}
    {step : List String}
    (h : steps (batchesScript actions serviceData (first ++ later)) = before ++ step :: after)
    {v : String} (hv : v ∈ step) (hlater : v ∉ namedIds first) (a : String) :
    (namedIds first).count a ≤ before.flatten.count a := by
  have hcovers : Covers (batchesScript actions serviceData first) _ _ := covers_batchesScript first
  have hnot : step ∉ steps (batchesScript actions serviceData first) := fun hmem =>
    hlater (hcovers.subperm.subset (List.mem_flatten.2 ⟨step, hmem, hv⟩))
  rw [batchesScript_append] at h
  cases hraises : (batchesScript actions serviceData first).any Command.raises with
  | true =>
    rw [follow_of_raises hraises] at h
    exact absurd (h ▸ List.mem_append_right before List.mem_cons_self) hnot
  | false =>
    rw [follow_of_sound hraises, steps_append] at h
    obtain ⟨rest, rfl, -⟩ := (split_of_append h).resolve_right fun ⟨rest, hfirst⟩ =>
      hnot (hfirst ▸ List.mem_append_right before List.mem_cons_self)
    rw [namedIds, ← (hcovers.sound hraises).1.count_eq, List.flatten_append, List.count_append]
    exact Nat.le_add_right _ _

end Facts

end FloWeaver.Runner
