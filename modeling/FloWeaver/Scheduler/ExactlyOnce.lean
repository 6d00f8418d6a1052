import FloWeaver.Scheduler.PlanFacts

/-!
# Every action exactly once

The batches of a plan hold every action once, but the groups of a batch may list an action
twice: the buckets of every batch rule (or of every session rule) are emitted as they are, so
an action that two rules put in a bucket is emitted with both.

* `Claims` — when a rule puts an action of a layer in a bucket.
* `ClaimedOnce`, `soleClaims_iff` — no two rules of a layer claim one action.
* `groups_perm_iff` — the groups list every action once exactly when no two rules claim an
  action of a layer.
* `overlappingRules_repeat` — two overlapping rules for which an action is listed twice.
-/

namespace FloWeaver.Scheduler

open Py DepGraph

variable {base : SchedulerPolicy} {dag : TypedDAG} {metrics : Dict} {target : OptimizationTarget}
  {ctx : Ctx} {plan : ExecutionPlan} {steps : List BatchStep} {layer : List String}

/-! ## Claims of a rule -/

/-- A rule over a scope puts an action of the layer in a bucket: the action has a key, and
another action of the layer in the scope has the same one. -/
structure Claims (layer scope : List String) (keyOf : String → String) (a : String) : Prop where
  mem : a ∈ layer
  inScope : a ∈ scope
  keyed : keyOf a ≠ ""
  shared : ∃ b ∈ layer, b ∈ scope ∧ b ≠ a ∧ keyOf b = keyOf a

/-- A batch rule claims an action. -/
def BatchClaims (ctx : Ctx) (layer : List String) (rule : BatchRule) : String → Prop :=
  Claims layer rule.scope (bucketKey ctx rule.idempotentOnly actionBatchGroupValue rule.groupKey)

/-- A session rule claims an action. -/
def SessionClaims (ctx : Ctx) (layer : List String) (rule : SessionRule) : String → Prop :=
  Claims layer rule.scope (bucketKey ctx false actionGroupValue rule.groupKey)

/-- No action of the layer is claimed by two batch rules; where no batch rule claims anything,
none is claimed by two session rules. -/
def ClaimedOnce (ctx : Ctx) (layer : List String) : Prop :=
  (ctx.derived.batchRules.Pairwise fun r r' =>
    ∀ a, ¬ (BatchClaims ctx layer r a ∧ BatchClaims ctx layer r' a)) ∧
  ((∀ r ∈ ctx.derived.batchRules, ∀ a, ¬ BatchClaims ctx layer r a) →
    ctx.derived.sessionRules.Pairwise fun r r' =>
      ∀ a, ¬ (SessionClaims ctx layer r a ∧ SessionClaims ctx layer r' a))

theorem two_le_length_iff {l : List String} (hnd : l.Nodup) {a : String} (ha : a ∈ l) :
    2 ≤ l.length ↔ ∃ b ∈ l, b ≠ a := by
  constructor
  · intro h
    by_contra hall
    push Not at hall
    have := (List.subperm_of_subset hnd (fun b hb => List.mem_singleton.2 (hall b hb))).length_le
    simp at this
    omega
  · rintro ⟨b, hb, hne⟩
    have hpair : [a, b].Nodup := by simpa using Ne.symm hne
    exact (List.subperm_of_subset hpair (by simp [ha, hb])).length_le

theorem mem_scopedActions {scope : List String} {a : String} :
    a ∈ scopedActions scope layer ↔ a ∈ layer ∧ a ∈ scope := by
  simp [scopedActions]

/-- A bucket has two members when another action has the key. -/
theorem two_le_members_iff {scope : List String} {keyOf : String → String} (hnd : layer.Nodup)
    {a : String} (ha : a ∈ scopedActions scope layer) :
    2 ≤ ((scopedActions scope layer).filter (keyOf · = keyOf a)).length ↔
      ∃ b ∈ layer, b ∈ scope ∧ b ≠ a ∧ keyOf b = keyOf a := by
  have hscoped : (scopedActions scope layer).Nodup := hnd.filter _
  rw [two_le_length_iff (hscoped.filter _) (List.mem_filter.2 ⟨ha, by simp⟩)]
  constructor
  · rintro ⟨b, hb, hne⟩
    obtain ⟨hb, hkey⟩ := List.mem_filter.1 hb
    obtain ⟨hl, hs⟩ := mem_scopedActions.1 hb
    exact ⟨b, hl, hs, hne, by simpa using hkey⟩
  · rintro ⟨b, hl, hs, hne, hkey⟩
    exact ⟨b, List.mem_filter.2 ⟨mem_scopedActions.2 ⟨hl, hs⟩, by simpa using hkey⟩, hne⟩

/-- The buckets of a rule hold the actions that it claims. -/
theorem inBuckets_extendBuckets_iff {ruleKind groupKey : String} {scope : List String}
    {size wait : ℤ} {idem : Bool} {valueFn : Dict → String → String} (hnd : layer.Nodup)
    (hids : ∀ a ∈ layer, a ≠ "") {a : String} :
    inBuckets (extendBuckets ctx ruleKind (scopedActions scope layer) groupKey size wait idem
      valueFn) a ↔ Claims layer scope (bucketKey ctx idem valueFn groupKey) a := by
  constructor
  · rintro ⟨b, hb, ha⟩
    obtain ⟨hb, htwo⟩ := List.mem_filter.1 hb
    obtain ⟨key, hk, rfl⟩ := List.mem_map.1 hb
    obtain ⟨hin, heq⟩ := List.mem_filter.1 (List.mem_filter.1 ha).1
    obtain rfl : bucketKey ctx idem valueFn groupKey a = key := by simpa using heq
    obtain ⟨hl, hs⟩ := mem_scopedActions.1 hin
    have hne := (List.mem_filter.1 (List.mem_eraseDups.1 hk)).2
    exact ⟨hl, hs, by simpa using hne, (two_le_members_iff hnd hin).1 (by simpa using htwo)⟩
  · rintro ⟨hl, hs, hne, hshared⟩
    have hin := mem_scopedActions.2 ⟨hl, hs⟩
    refine ⟨_, List.mem_filter.2 ⟨List.mem_map.2
      ⟨bucketKey ctx idem valueFn groupKey a, ?_, rfl⟩, ?_⟩, ?_⟩
    · exact List.mem_eraseDups.2 (List.mem_filter.2 ⟨List.mem_map_of_mem hin, by simpa using hne⟩)
    · simpa using (two_le_members_iff hnd hin).2 hshared
    · exact List.mem_filter.2 ⟨List.mem_filter.2 ⟨hin, by simp⟩, by simpa using hids a hl⟩

/-- A rule that claims an action has two actions of the layer in its scope. -/
theorem Claims.two_le {scope : List String} {keyOf : String → String} {a : String}
    (hnd : layer.Nodup) (h : Claims layer scope keyOf a) :
    2 ≤ (scopedActions scope layer).length := by
  obtain ⟨hl, hs, -, b, hb, hbs, hne, -⟩ := h
  exact (two_le_length_iff (hnd.filter _) (mem_scopedActions.2 ⟨hl, hs⟩)).2
    ⟨b, mem_scopedActions.2 ⟨hb, hbs⟩, hne⟩

theorem inBuckets_batchRuleBuckets_iff (hnd : layer.Nodup) (hids : ∀ a ∈ layer, a ≠ "")
    (rule : BatchRule) {a : String} :
    inBuckets (batchRuleBuckets ctx layer rule) a ↔ BatchClaims ctx layer rule a := by
  unfold batchRuleBuckets
  dsimp only
  split_ifs with h
  · refine ⟨fun hc => ?_, fun hc => ?_⟩
    · simp [inBuckets] at hc
    · have := Claims.two_le hnd hc
      omega
  · exact inBuckets_extendBuckets_iff hnd hids

theorem inBuckets_sessionRuleBuckets_iff (hnd : layer.Nodup) (hids : ∀ a ∈ layer, a ≠ "")
    (rule : SessionRule) {a : String} :
    inBuckets (sessionRuleBuckets ctx layer rule) a ↔ SessionClaims ctx layer rule a := by
  unfold sessionRuleBuckets
  dsimp only
  split_ifs with h
  · refine ⟨fun hc => ?_, fun hc => ?_⟩
    · simp [inBuckets] at hc
    · have := Claims.two_le hnd hc
      omega
  · exact inBuckets_extendBuckets_iff hnd hids

theorem inBuckets_subset {bs : List BatchingBucket} (hbs : bs ∈ layerBuckets ctx layer) {a : String}
    (h : inBuckets bs a) : a ∈ layer := by
  obtain ⟨b, hb, ha⟩ := h
  exact ((ruleBuckets_layerBuckets hbs).sublist b hb).subset (List.mem_filter.1 ha).1

/-- A bucket claims some action. -/
theorem exists_inBuckets_of_mem {ruleKind groupKey : String} {scope : List String}
    {size wait : ℤ} {idem : Bool} {valueFn : Dict → String → String} {b : BatchingBucket}
    (hb : b ∈ extendBuckets ctx ruleKind scope groupKey size wait idem valueFn)
    (hids : ∀ a ∈ scope, a ≠ "") : ∃ a ∈ scope, a ∈ bucketMembers b := by
  have hmembers := extendBuckets_mem hb
  have htwo : 2 ≤ b.members.length := by simpa using (List.mem_filter.1 hb).2
  obtain ⟨a, ha⟩ := List.exists_mem_of_length_pos (show 0 < b.members.length by omega)
  have hin : a ∈ scope := (List.mem_filter.1 (hmembers ▸ ha)).1
  exact ⟨a, hin, List.mem_filter.2 ⟨ha, by simpa using hids a hin⟩⟩

/-- A batch rule has a bucket exactly when it claims an action. -/
theorem batchRuleBuckets_eq_nil_iff (hnd : layer.Nodup) (hids : ∀ a ∈ layer, a ≠ "")
    (rule : BatchRule) :
    batchRuleBuckets ctx layer rule = [] ↔ ∀ a, ¬ BatchClaims ctx layer rule a := by
  simp only [← inBuckets_batchRuleBuckets_iff hnd hids]
  constructor
  · intro h a hc
    simp [h, inBuckets] at hc
  · intro h
    refine List.eq_nil_iff_forall_not_mem.2 fun b hb => ?_
    have hb' := hb
    unfold batchRuleBuckets at hb'
    dsimp only at hb'
    split_ifs at hb'
    · exact List.not_mem_nil hb'
    · obtain ⟨a, -, ha⟩ := exists_inBuckets_of_mem hb' fun a ha => hids a (List.mem_filter.1 ha).1
      exact h a ⟨b, hb, ha⟩

/-- The buckets of a layer share no action exactly when no two rules claim one. -/
theorem soleClaims_iff (hnd : layer.Nodup) (hids : ∀ a ∈ layer, a ≠ "") :
    SoleClaims ctx layer ↔ ClaimedOnce ctx layer := by
  have hdrop : SoleClaims ctx layer ↔
      (layerBuckets ctx layer).Pairwise fun bs bs' => ∀ a, ¬ (inBuckets bs a ∧ inBuckets bs' a) :=
    ⟨fun h => h.imp_of_mem fun hbs _ hc a ha => hc a (inBuckets_subset hbs ha.1) ha,
      fun h => h.imp fun hc a _ => hc a⟩
  rw [hdrop, ClaimedOnce]
  unfold layerBuckets
  dsimp only
  have hnil : (ctx.derived.batchRules.map (batchRuleBuckets ctx layer)).flatten.isEmpty = true ↔
      ∀ r ∈ ctx.derived.batchRules, ∀ a, ¬ BatchClaims ctx layer r a := by
    simp only [List.isEmpty_iff, List.flatten_eq_nil_iff, List.mem_map, forall_exists_index,
      and_imp, forall_apply_eq_imp_iff₂, batchRuleBuckets_eq_nil_iff hnd hids]
  by_cases hb : (ctx.derived.batchRules.map (batchRuleBuckets ctx layer)).flatten.isEmpty = true
  · rw [if_neg (by simp [hb]), List.pairwise_map]
    simp only [inBuckets_sessionRuleBuckets_iff hnd hids]
    have hnone := hnil.1 hb
    refine ⟨fun h => ⟨?_, fun _ => h⟩, fun h => h.2 hnone⟩
    exact List.pairwise_of_forall_mem_list fun r hr _ _ a ha => hnone r hr a ha.1
  · rw [if_pos (by simpa using hb), List.pairwise_map]
    simp only [inBuckets_batchRuleBuckets_iff hnd hids]
    exact ⟨fun h => ⟨h, fun hnone => absurd (hnil.2 hnone) hb⟩, fun h => h.1⟩

/-! ## The plan -/

/-- The actions that the groups of a plan list, group by group. -/
def listedActions (plan : ExecutionPlan) : List String :=
  plan.orderedBatches.flatMap fun batch => batch.parallelGroups.flatten

/-- No two rules claim an action of a layer, in any batch of the run. -/
def ClaimedOnceThroughout (base : SchedulerPolicy) (dag : TypedDAG) (metrics : Dict)
    (target : OptimizationTarget) : Prop :=
  ∀ ctx steps, prepare base dag metrics target = .ok ctx → scheduleSteps ctx = .ok steps →
    ∀ s ∈ steps, ∀ layer ∈ groupingLayers ctx s.selection.selected, ClaimedOnce ctx layer

namespace CompleteRun

theorem listedActions_eq (ctx : Ctx) (steps : List BatchStep) :
    listedActions (assemblePlan ctx steps) =
      steps.flatMap fun s => (buildParallelGroups ctx s.selection.selected).1.flatten := by
  have hfst : steps.zipIdx.map (·.1) = steps := List.zipIdx_map_fst 0 steps
  conv_rhs => rw [← hfst, List.flatMap_map]
  simp only [listedActions, assemblePlan, List.flatMap_map]
  rfl

/-- No action is lost, and none is added. -/
theorem mem_listedActions (h : CompleteRun ctx steps) {a : String} :
    a ∈ listedActions (assemblePlan ctx steps) ↔ a ∈ ctx.index.keys := by
  rw [listedActions_eq, List.mem_flatMap, ← h.batches_perm.mem_iff, batchesOf, List.mem_flatten]
  simp only [List.mem_map, exists_exists_and_eq_and]
  exact exists_congr fun s => and_congr_right fun hs => mem_buildParallelGroups (h.nodup hs)

/-- The batches have no action in common, so only one batch can list an action twice. -/
theorem listedActions_nodup_iff (h : CompleteRun ctx steps) :
    (listedActions (assemblePlan ctx steps)).Nodup ↔
      ∀ s ∈ steps, (buildParallelGroups ctx s.selection.selected).1.flatten.Nodup := by
  rw [listedActions_eq, List.nodup_flatMap]
  refine and_iff_left ?_
  have hnd : (batchesOf steps).flatten.Nodup := h.batches_perm.nodup_iff.2 ctx.index.keys_nodup
  have hdisj := (List.nodup_flatten.1 hnd).2
  rw [batchesOf, List.pairwise_map] at hdisj
  refine hdisj.imp_of_mem fun hs hs' hd a ha ha' => ?_
  exact hd ((mem_buildParallelGroups (h.nodup hs)).1 ha)
    ((mem_buildParallelGroups (h.nodup hs')).1 ha')

end CompleteRun

/-- **Every action once, exactly when no two rules claim it.**  The groups of a returned plan
list every action of the target exactly once if and only if no two rules claim an action of a
layer that is grouped. -/
theorem groups_perm_iff (h : schedule base dag metrics target = .ok plan)
    (hne : (actionIndex target).keys ≠ []) :
    (listedActions plan).Perm (actionIndex target).keys ↔
      ClaimedOnceThroughout base dag metrics target := by
  obtain ⟨ctx, steps, h1, h2, rfl⟩ := (schedule_ok hne).1 h
  obtain ⟨hard, hp⟩ := prepare_spec h1
  have hrun := completeRun hp h2
  rw [← hp.index]
  have hperm : (listedActions (assemblePlan ctx steps)).Perm ctx.index.keys ↔
      (listedActions (assemblePlan ctx steps)).Nodup :=
    ⟨fun hperm => hperm.nodup_iff.2 ctx.index.keys_nodup, fun hnd =>
      (List.perm_ext_iff_of_nodup hnd ctx.index.keys_nodup).2 fun a => hrun.mem_listedActions⟩
  rw [hperm, hrun.listedActions_nodup_iff]
  have hone : ∀ s ∈ steps, (buildParallelGroups ctx s.selection.selected).1.flatten.Nodup ↔
      ∀ layer ∈ groupingLayers ctx s.selection.selected, ClaimedOnce ctx layer := by
    intro s hs
    have hnd := hrun.nodup hs
    rw [buildParallelGroups_nodup_iff hnd]
    refine forall_congr' fun layer => forall_congr' fun hl => ?_
    refine soleClaims_iff (nodup_of_mem_groupingLayers hnd hl) fun a ha => ?_
    -- an action of a layer is an action of the target
    have hsel : a ∈ s.selection.selected :=
      (groupingLayers_perm ctx hnd).mem_iff.1 (List.mem_flatten.2 ⟨layer, hl, ha⟩)
    have hkey : a ∈ ctx.index.keys := hrun.batches_perm.mem_iff.1
      (List.mem_flatten.2 ⟨_, List.mem_map_of_mem hs, hsel⟩)
    exact actionIndex_ne_empty (hp.index ▸ hkey)
  constructor
  · intro hall ctx' steps' h1' h2' s hs
    obtain rfl := Except.ok.inj (h1.symm.trans h1')
    obtain rfl := Except.ok.inj (h2.symm.trans h2')
    exact (hone s hs).1 (hall s hs)
  · exact fun hall s hs => (hone s hs).2 (hall ctx steps h1 h2 s hs)

/-- Two status reads of one cloud endpoint. -/
def endpointTarget : OptimizationTarget where
  vdevActions := ["a", "b"].map fun id =>
    [("action_id", .str id), ("protocol", .str "CLOUD"),
      ("target", .dict [("endpoint", .str "http://h/x"), ("kind", .str "status")])]

/-- A batch rule over both reads. -/
def endpointRule : SoftConstraint where
  kind := SoftConstraintKind.batchGroup
  scope := ["a", "b"]
  fallback := ""

theorem listedActions_eq_of_groups {groups : List (List (List String))}
    (h : plan.orderedBatches.map (·.parallelGroups) = groups) :
    listedActions plan = groups.flatMap List.flatten := by
  rw [← h, List.flatMap_map]
  rfl

/-- One rule claims both reads, and each is listed once. -/
theorem groups_perm_iff_oneRule :
    ClaimedOnceThroughout {} { softConstraints := [endpointRule] } [] endpointTarget := by
  obtain ⟨plan, hplan, hgroups⟩ := exists_plan
    (show planGroups (schedule {} { softConstraints := [endpointRule] } [] endpointTarget) =
      some [[["a", "b"]]] by decide +kernel)
  have hkeys : (actionIndex endpointTarget).keys = ["a", "b"] := by decide +kernel
  refine (groups_perm_iff hplan (by simp [hkeys])).1 ?_
  rw [hkeys, listedActions_eq_of_groups hgroups]
  exact List.Perm.refl _

/-- Two rules over the same reads: each rule emits its bucket, and the plan lists both reads
twice. -/
theorem overlappingRules_repeat : ∃ plan,
    schedule {} { softConstraints := [endpointRule, endpointRule] } [] endpointTarget = .ok plan ∧
      (actionIndex endpointTarget).keys = ["a", "b"] ∧
      listedActions plan = ["a", "b", "a", "b"] ∧
      ¬ (listedActions plan).Perm (actionIndex endpointTarget).keys := by
  obtain ⟨plan, hplan, hgroups⟩ := exists_plan
    (show planGroups (schedule {} { softConstraints := [endpointRule, endpointRule] } []
      endpointTarget) = some [[["a", "b"], ["a", "b"]]] by decide +kernel)
  have hkeys : (actionIndex endpointTarget).keys = ["a", "b"] := by decide +kernel
  have hlist : listedActions plan = ["a", "b", "a", "b"] := listedActions_eq_of_groups hgroups
  refine ⟨plan, hplan, hkeys, hlist, fun hperm => ?_⟩
  rw [hkeys, hlist] at hperm
  simpa using hperm.length_eq

end FloWeaver.Scheduler
