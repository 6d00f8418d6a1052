import FloWeaver.Scheduler.PlanFacts

/-!
# The resources of a batch

* `SafeBatch` — the bounds that the derived policy sets for one batch of a plan.
* `safeBatch_of_mem` — every batch of a returned plan keeps them.
-/

namespace FloWeaver.Scheduler

open Py DepGraph

variable {base : SchedulerPolicy} {dag : TypedDAG} {metrics : Dict} {target : OptimizationTarget}
  {ctx : Ctx} {plan : ExecutionPlan} {steps : List BatchStep}

/-- The actions of a batch, each once. -/
def batchActions (batch : Batch) : List String := batch.parallelGroups.flatten.dedup

/-- The number of the actions of a batch with a property. -/
def batchCount (batch : Batch) (p : String → Bool) : ℤ := (batchActions batch).countP p

/-- The bounds of one batch.  The last one says that a forced pick was blocked by nothing but
soft orders. -/
structure SafeBatch (index : ActionIndex) (derived : DerivedConstraintPolicy) (batch : Batch) :
    Prop where
  noOverlap : ∀ scope ∈ derived.noOverlapScopes, batchCount batch (scope.contains ·) ≤ 1
  budget : ∀ rule ∈ derived.budgetRules, batchCount batch (rule.scope.contains ·) ≤ rule.limit
  ble : batchCount batch (fun a => actionProtocol (actionOf index a) = .ble) ≤ derived.bleLimit
  localNet : batchCount batch (fun a => actionProtocol (actionOf index a) = .localNet) ≤
    derived.localLimit
  unknown : ∀ a ∈ batchActions batch, actionProtocol (actionOf index a) = .unknown →
    batchActions batch = [a]
  forced : ∃ kinds, Dict.get batch.ratePolicy "forced_pick_blocked_kinds" = strList kinds ∧
    ∀ kind ∈ kinds, kind = SoftConstraintKind.softOrder

namespace CompleteRun

/-- The actions of a batch are the picks of its round. -/
theorem actions_perm (h : CompleteRun ctx steps) {s : BatchStep} (hs : s ∈ steps) (idx : ℕ) :
    (batchActions (assembleBatch ctx idx s)).Perm s.selection.selected := by
  have hnd := h.nodup hs
  refine (List.perm_ext_iff_of_nodup (List.nodup_dedup _) hnd).2 fun a => ?_
  exact List.mem_dedup.trans (mem_buildParallelGroups hnd)

theorem count_eq (h : CompleteRun ctx steps) {s : BatchStep} (hs : s ∈ steps) (idx : ℕ)
    (p : String → Bool) :
    batchCount (assembleBatch ctx idx s) p = countSelected s.selection.selected p := by
  rw [batchCount, countSelected, (h.actions_perm hs idx).countP_eq]

/-- A forced pick was blocked by nothing but soft orders. -/
theorem forced_blockers (h : CompleteRun ctx steps) {s : BatchStep} (hs : s ∈ steps) :
    ∀ pick ∈ s.selection.forced.toList, ∀ b ∈ pick.2,
      b.kind = SoftConstraintKind.softOrder := by
  obtain ⟨hready, -, heq⟩ := h.step hs
  rw [heq]
  rcases selectBatch_cases h.limits hready with ⟨st, -, -, e⟩ | ⟨a, -, -, e⟩
  · simp [e]
  · rw [e]
    intro pick hpick b hb
    obtain rfl := List.mem_singleton.1 hpick
    exact candidateSoftBlockers_empty _ _ b hb

/-- The batch of a round keeps the bounds of the derived policy. -/
theorem safeBatch (h : CompleteRun ctx steps) {s : BatchStep} (hs : s ∈ steps) (idx : ℕ) :
    SafeBatch ctx.index ctx.derived (assembleBatch ctx idx s) := by
  obtain ⟨hready, -, heq⟩ := h.step hs
  have hw : Within ctx s.selection.selected := heq ▸ selectBatch_within h.limits hready
  constructor
  · intro scope hscope
    rw [h.count_eq hs]
    exact hw.overlap scope hscope
  · intro rule hrule
    rw [h.count_eq hs]
    exact hw.budget rule hrule
  · rw [h.count_eq hs]
    exact hw.ble
  · rw [h.count_eq hs]
    exact hw.localNet
  · intro a ha hp
    have hperm := h.actions_perm hs idx
    have := hw.unknown a (hperm.mem_iff.1 ha) hp
    rw [this] at hperm
    exact List.perm_singleton.1 hperm
  · refine ⟨_, rfl, fun kind hk => ?_⟩
    rw [mem_sortedSet] at hk
    obtain ⟨pick, hpick, hk⟩ := List.mem_flatMap.1 hk
    obtain ⟨b, hb, rfl⟩ := List.mem_map.1 hk
    exact h.forced_blockers hs pick hpick b hb

end CompleteRun

/-- **Every batch is safe.**  The batches of a returned plan keep the bounds of the policy that
is derived for the call, whichever way they were chosen. -/
theorem safeBatch_of_mem (h : schedule base dag metrics target = .ok plan) {batch : Batch}
    (hb : batch ∈ plan.orderedBatches) :
    ∃ policy derived, effectivePolicy base metrics target = .ok policy ∧
      derivedPolicy policy dag metrics target = .ok derived ∧
      SafeBatch (actionIndex target) derived batch := by
  rcases schedule_run h with ⟨-, rfl⟩ | ⟨ctx, steps, hard, hp, hrun, rfl⟩
  · exact absurd hb List.not_mem_nil
  · obtain ⟨policy, hpolicy, hderived⟩ := hp.policy
    obtain ⟨row, hrow, rfl⟩ := List.mem_map.1 hb
    have hs : row.1 ∈ steps := List.mem_of_getElem? (List.mem_zipIdx_iff_getElem?.1 hrow)
    exact ⟨policy, ctx.derived, hpolicy, hderived, hp.index ▸ hrun.safeBatch hs row.2⟩

/-- Two BLE reads that may not overlap, under a policy that allows two BLE actions at once. -/
def radioTarget : OptimizationTarget where
  vdevActions := [[("action_id", .str "a"), ("protocol", .str "BLE")],
    [("action_id", .str "b"), ("protocol", .str "BLE")]]

def radioDag : TypedDAG where
  softConstraints := [{ kind := SoftConstraintKind.noOverlap, scope := ["a", "b"] }]

/-- The two reads are in two batches, and each is safe. -/
theorem safeBatch_of_mem_radio : ∃ plan batch policy derived,
    schedule { bleParallel := 2 } radioDag [] radioTarget = .ok plan ∧
      batch ∈ plan.orderedBatches ∧
      effectivePolicy { bleParallel := 2 } [] radioTarget = .ok policy ∧
      derivedPolicy policy radioDag [] radioTarget = .ok derived ∧
      SafeBatch (actionIndex radioTarget) derived batch := by
  obtain ⟨plan, hplan, hlen⟩ := exists_plan
    (show planGroups (schedule { bleParallel := 2 } radioDag [] radioTarget) =
      some [[["a"]], [["b"]]] by decide +kernel)
  obtain ⟨batch, hb⟩ : ∃ batch, batch ∈ plan.orderedBatches :=
    List.exists_mem_of_ne_nil _ fun hnil => by simp [hnil] at hlen
  obtain ⟨policy, derived, h1, h2, h3⟩ := safeBatch_of_mem hplan hb
  exact ⟨plan, batch, policy, derived, hplan, hb, h1, h2, h3⟩

end FloWeaver.Scheduler
