import FloWeaver.Trust.Level1Order

/-!
# Level-1 rollback and the safety fields

A patched plan should keep the guards of an action, not raise its rate, not switch session reuse
on and not put actions together that were apart.

* `Tightened` — what a batch may change for an action.
* `BatchTightened` — a batch patched in its place.
* `level1_tightens_iff` — when the patched plan only tightens.
-/

namespace FloWeaver.Trust

open Py ListCut
open Scheduler (strList floatVal)

/-! ## The safety fields -/

/-- The kind, the expression and the flag of a guard row. -/
def guardFields (row : Dict) : String × String × Bool :=
  ((row.getD "kind" (.str "")).pyStr, (row.getD "expr" (.str "true")).pyStr,
    (row.getD "enforced" (.bool true)).truthy)

/-- A row without a scope is meant for every action of its batch. -/
def Covers (row : Dict) (a : String) : Prop :=
  ∃ scope, rowScope row = .ok scope ∧ (scope = [] ∨ a ∈ scope)

/-- `float(batch.rate_policy.get("max_qps", 5.0))`. -/
def maxQps (batch : Batch) : Except PyErr ℚ :=
  (batch.ratePolicy.getD "max_qps" (.float 5 "5.0")).toFloat

/-- Is session reuse switched on? -/
def reusesSession (batch : Batch) : Bool := (batch.sessionPolicy.get "reuse").truthy

/-- A batch that is at least as strict for an action as another one. -/
structure Tightened (a : String) (before after : Batch) : Prop where
  guards : ∀ row ∈ before.guards, Covers row a →
    ∃ row' ∈ after.guards, guardFields row' = guardFields row ∧ Covers row' a
  maxQps : ∀ q, maxQps before = .ok q → ∃ q', Trust.maxQps after = .ok q' ∧ q' ≤ q
  reuse : reusesSession after = true → reusesSession before = true

/-- The batch of an action. -/
def batchOf (plan : ExecutionPlan) (a : String) : Option Batch :=
  plan.orderedBatches.find? fun batch => (batchActions batch).contains a

/-- Two actions share a group. -/
def Together (plan : ExecutionPlan) (u v : String) : Prop :=
  ∃ i j, At plan i j u ∧ At plan i j v

/-- A plan that is at least as strict as another one. -/
structure OnlyTightens (plan patched : ExecutionPlan) : Prop where
  batches : ∀ a before, batchOf plan a = some before →
    ∃ after, batchOf patched a = some after ∧ Tightened a before after
  apart : ∀ u v, u ≠ v → Together patched u v → Together plan u v

theorem Tightened.refl (a : String) (batch : Batch) : Tightened a batch batch where
  guards row hrow hcov := ⟨row, hrow, rfl, hcov⟩
  maxQps q hq := ⟨q, hq, le_rfl⟩
  reuse h := h

theorem OnlyTightens.refl (plan : ExecutionPlan) : OnlyTightens plan plan where
  batches a before h := ⟨before, h, Tightened.refl a before⟩
  apart _ _ _ h := h

/-! ## Batches patched in their place -/

/-- A batch that holds the same actions, in smaller groups, and is as strict for all of them. -/
structure BatchTightened (before after : Batch) : Prop where
  actions : ∀ a, a ∈ batchActions after ↔ a ∈ batchActions before
  groups : ∀ g' ∈ after.parallelGroups, ∃ g ∈ before.parallelGroups,
    ∀ a ∈ orderedGroup g', a ∈ orderedGroup g
  tightened : ∀ a, Tightened a before after

theorem find?_batchTightened {batches batches' : List Batch}
    (h : List.Forall₂ BatchTightened batches batches') {a : String} {before : Batch}
    (hfind : batches.find? (fun batch => (batchActions batch).contains a) = some before) :
    ∃ after, batches'.find? (fun batch => (batchActions batch).contains a) = some after ∧
      Tightened a before after := by
  induction h with
  | nil => simp at hfind
  | @cons b b' _ _ hb _ ih =>
    have hsame : (batchActions b').contains a = (batchActions b).contains a := by
      rw [Bool.eq_iff_iff, List.contains_iff_mem, List.contains_iff_mem]
      exact hb.actions a
    rw [List.find?_cons] at hfind ⊢
    rw [hsame]
    cases hc : (batchActions b).contains a with
    | true =>
      rw [hc] at hfind
      obtain rfl := Option.some.inj hfind
      exact ⟨b', rfl, hb.tightened a⟩
    | false =>
      rw [hc] at hfind
      exact ih hfind

theorem onlyTightens_of_batches {plan patched : ExecutionPlan}
    (h : List.Forall₂ BatchTightened plan.orderedBatches patched.orderedBatches) :
    OnlyTightens plan patched where
  batches _ _ hfind := find?_batchTightened h hfind
  apart u v _ := by
    rintro ⟨i, j, ⟨batch', group', hi, hj, hu⟩, batch'', group'', hi', hj', hv⟩
    obtain rfl := Option.some.inj (hi.symm.trans hi')
    obtain rfl := Option.some.inj (hj.symm.trans hj')
    obtain ⟨hlen, hall⟩ := List.forall₂_iff_get.1 h
    obtain ⟨hlt', rfl⟩ := List.getElem?_eq_some_iff.1 hi
    have hlt : i < plan.orderedBatches.length := hlen ▸ hlt'
    obtain ⟨group, hg, hsub⟩ := (hall i hlt hlt').groups group' (List.mem_of_getElem? hj)
    obtain ⟨k, hk⟩ := List.mem_iff_getElem?.1 hg
    exact ⟨i, k, ⟨_, group, List.getElem?_eq_getElem hlt, hk, hsub u hu⟩,
      ⟨_, group, List.getElem?_eq_getElem hlt, hk, hsub v hv⟩⟩

theorem batchTightened_of_fields {before after : Batch}
    (hgroups : after.parallelGroups = before.parallelGroups)
    (h : ∀ a, Tightened a before after) : BatchTightened before after where
  actions a := by rw [batchActions, batchActions, hgroups]
  groups g' hg' := ⟨g', hgroups ▸ hg', fun _ ha => ha⟩
  tightened := h

/-! ## The strategies that keep the batches -/

/-- A piece of a group holds only actions of the group. -/
theorem mem_regroup {target : Option OptimizationTarget} {maxGroup : ℕ} {group piece : List String}
    (hp : piece ∈ regroup target maxGroup group) {a : String} (ha : a ∈ orderedGroup piece) :
    a ∈ orderedGroup group := by
  have hflat : a ∈ orderedGroup (regroup target maxGroup group).flatten :=
    mem_orderedGroup_flatten.2 ⟨piece, hp, ha⟩
  exact (regroup_perm target maxGroup group).mem_iff.1 hflat

theorem regroupBatch_tightened (target : Option OptimizationTarget) (maxGroup : ℕ) (batch : Batch) :
    BatchTightened batch (regroupBatch target maxGroup batch).1 := by
  refine ⟨fun a => (regroupBatch_perm target maxGroup batch).mem_iff, ?_, fun a => ?_⟩
  · intro g' hg'
    rw [regroupBatch] at hg'
    split_ifs at hg' with h
    · exact ⟨g', hg', fun _ ha => ha⟩
    · obtain ⟨g, hg, hpiece⟩ := List.mem_flatMap.1 hg'
      exact ⟨g, hg, fun a ha => mem_regroup hpiece ha⟩
  · rw [regroupBatch]
    split_ifs with h
    · exact Tightened.refl a batch
    · exact ⟨(Tightened.refl a batch).guards, (Tightened.refl a batch).maxQps,
        (Tightened.refl a batch).reuse⟩

theorem stopReuse_tightened (batch : Batch) : BatchTightened batch (stopReuse batch).1 := by
  refine batchTightened_of_fields rfl fun a => ⟨(Tightened.refl a batch).guards,
    (Tightened.refl a batch).maxQps, fun h => ?_⟩
  rw [reusesSession, stopReuse, Dict.get, Dict.get?_set, if_neg (by decide), Dict.get?_set,
    if_pos rfl] at h
  exact absurd h Bool.false_ne_true

theorem mem_addRow {rows : List Dict} {row other : Dict} (h : other ∈ rows) :
    other ∈ addRow rows row := by
  rw [addRow]
  split_ifs
  · exact h
  · exact List.mem_append_left _ h

/-- A normalised guard row says what it said. -/
theorem normalizeGuard_fields {row row' : Dict} (h : normalizeGuard row = .ok row') :
    guardFields row' = guardFields row ∧ rowScope row' = rowScope row := by
  obtain ⟨scope, hscope, h⟩ := bind_eq_ok.1 h
  obtain rfl := pure_eq_ok.1 h
  refine ⟨rfl, ?_⟩
  have hread : (scope.map Val.str).map Val.pyStr = scope := by
    rw [List.map_map]
    exact List.map_id scope
  rw [hscope]
  exact congrArg Except.ok hread

theorem enforceGaps_tightened {index : OrderedDict String Dict} {batch : Batch}
    {row : Batch × List Dict} (h : enforceGaps index batch = .ok row) :
    BatchTightened batch row.1 := by
  refine batchTightened_of_fields (enforceGaps_groups h) fun a => ?_
  obtain ⟨guards, hguards, h⟩ := bind_eq_ok.1 h
  obtain ⟨qps, hqps, h⟩ := bind_eq_ok.1 h
  obtain rfl := pure_eq_ok.1 h
  refine ⟨fun guard hguard hcov => ?_, fun q hq => ?_, fun hreuse => hreuse⟩
  · obtain ⟨normalized, hnormalized, hadd⟩ := bind_eq_ok.1 hguards
    obtain rfl := pure_eq_ok.1 hadd
    obtain ⟨guard', hguard', hnorm⟩ := mem_mapM_of_ok hnormalized hguard
    obtain ⟨hfields, hscope⟩ := normalizeGuard_fields hnorm
    obtain ⟨scope, hrow, hin⟩ := hcov
    exact ⟨guard', mem_addRow hguard', hfields, scope, hscope.trans hrow, hin⟩
  · obtain rfl : qps = q := Except.ok.inj (hqps.symm.trans hq)
    refine ⟨min qps 1, ?_, min_le_left _ _⟩
    rw [maxQps, Dict.getD, Dict.get?_set]
    rfl

theorem reduceParallelism_tightens {target : Option OptimizationTarget} {plan patched : MetaPlan}
    {changes : List Dict} (h : reduceParallelism target plan = .ok (patched, changes)) :
    OnlyTightens plan.toExecutionPlan patched.toExecutionPlan := by
  obtain ⟨policy, -, h⟩ := bind_eq_ok.1 h
  obtain ⟨total, -, h⟩ := bind_eq_ok.1 h
  obtain ⟨ble, -, h⟩ := bind_eq_ok.1 h
  obtain ⟨cloud, -, h⟩ := bind_eq_ok.1 h
  obtain ⟨maxParallel, -, h⟩ := bind_eq_ok.1 h
  obtain ⟨rfl, -⟩ := Prod.mk.inj (pure_eq_ok.1 h)
  refine onlyTightens_of_batches ?_
  rw [List.map_map, List.forall₂_map_right_iff]
  exact List.forall₂_same.2 fun batch _ => regroupBatch_tightened target _ batch

theorem disableSessionReuse_tightens (plan : MetaPlan) :
    OnlyTightens plan.toExecutionPlan (disableSessionReuse plan).1.toExecutionPlan := by
  refine onlyTightens_of_batches ?_
  rw [disableSessionReuse, List.map_map, List.forall₂_map_right_iff]
  exact List.forall₂_same.2 fun batch _ => stopReuse_tightened batch

theorem enforceMinGapNoOverlap_tightens {target : Option OptimizationTarget}
    {plan patched : MetaPlan} {changes : List Dict}
    (h : enforceMinGapNoOverlap target plan = .ok (patched, changes)) :
    OnlyTightens plan.toExecutionPlan patched.toExecutionPlan := by
  obtain ⟨batches, hbatches, h⟩ := bind_eq_ok.1 h
  obtain ⟨rfl, -⟩ := Prod.mk.inj (pure_eq_ok.1 h)
  refine onlyTightens_of_batches ?_
  rw [List.forall₂_map_right_iff]
  exact (forall₂_of_mapM_ok hbatches).imp fun batch row hrow => enforceGaps_tightened hrow

/-! ## One action per batch -/

/-- No guard row is meant for the action, and its batch may run at a query a second or more. -/
def LosesNothing (plan : ExecutionPlan) (a : String) : Prop :=
  ∀ batch, batchOf plan a = some batch →
    (∀ row ∈ batch.guards, ¬Covers row a) ∧ ∀ q, maxQps batch = .ok q → 1 ≤ q

theorem batchOf_isSome (plan : ExecutionPlan) {a : String} (h : a ∈ planActions plan) :
    ∃ batch, batchOf plan a = some batch := by
  obtain ⟨batch, hb, ha⟩ := List.mem_flatMap.1 h
  refine Option.isSome_iff_exists.1 (List.find?_isSome.2 ⟨batch, hb, ?_⟩)
  exact List.contains_iff_mem.2 ha

theorem mem_of_batchOf {plan : ExecutionPlan} {a : String} {batch : Batch}
    (h : batchOf plan a = some batch) : a ∈ planActions plan := by
  have hlisted : (batchActions batch).contains a = true := by
    simpa using List.find?_some h
  exact List.mem_flatMap.2 ⟨batch, List.mem_of_find?_eq_some h, List.contains_iff_mem.1 hlisted⟩

/-- The batch of an action in a plan of single actions. -/
theorem exists_singleBatch (plan : ExecutionPlan) (actions : List String)
    (hclean : ∀ a ∈ actions, strip a = a ∧ a ≠ "")
    (hplan : plan.orderedBatches = actions.mapIdx singleBatch) {a : String} (ha : a ∈ actions) :
    ∃ idx b, batchOf plan a = some (singleBatch idx b) := by
  have hmem : a ∈ planActions plan := by
    rw [planActions, hplan]
    exact (planActions_mapIdx hclean id).symm ▸ ha
  obtain ⟨batch, hbatch⟩ := batchOf_isSome plan hmem
  have hb := List.mem_of_find?_eq_some hbatch
  rw [hplan] at hb
  obtain ⟨idx, hidx, rfl⟩ := List.mem_mapIdx.1 hb
  exact ⟨idx, _, hbatch⟩

theorem tightened_singleBatch_iff {a b : String} {idx : ℕ} {before : Batch} :
    Tightened a before (singleBatch idx b) ↔
      (∀ row ∈ before.guards, ¬Covers row a) ∧ ∀ q, maxQps before = .ok q → 1 ≤ q := by
  have hone : maxQps (singleBatch idx b) = .ok 1 := rfl
  constructor
  · intro h
    refine ⟨fun row hrow hcov => ?_, fun q hq => ?_⟩
    · obtain ⟨row', hrow', -⟩ := h.guards row hrow hcov
      exact absurd hrow' List.not_mem_nil
    · obtain ⟨q', hq', hle⟩ := h.maxQps q hq
      obtain rfl : 1 = q' := Except.ok.inj (hone.symm.trans hq')
      exact hle
  · rintro ⟨hguards, hqps⟩
    refine ⟨fun row hrow hcov => absurd hcov (hguards row hrow), fun q hq => ?_, fun h => ?_⟩
    · exact ⟨1, hone, hqps q hq⟩
    · exact absurd h Bool.false_ne_true

/-- Disabling batching only tightens a plan that has no guard and no slower rate to lose. -/
theorem disableBatching_tightens_iff {target : Option OptimizationTarget} {plan patched : MetaPlan}
    {changes : List Dict} (h : disableBatching target plan = .ok (patched, changes)) :
    OnlyTightens plan.toExecutionPlan patched.toExecutionPlan ↔
      (1 < (planActions plan.toExecutionPlan).length →
        ∀ a, LosesNothing plan.toExecutionPlan a) := by
  obtain ⟨order, horder, h⟩ := bind_eq_ok.1 h
  have hperm := planExecutionOrder_perm horder
  have hlen := hperm.length_eq
  have hresult := pure_eq_ok.1 h
  split_ifs at hresult with hshort
  · obtain ⟨rfl, -⟩ := Prod.mk.inj hresult
    exact ⟨fun _ hlong => by omega, fun _ => OnlyTightens.refl _⟩
  · obtain ⟨rfl, -⟩ := Prod.mk.inj hresult
    have hsorted : (declaredOrder target order).Perm order := sortedBy_perm _ _
    have hclean : ∀ a ∈ declaredOrder target order, strip a = a ∧ a ≠ "" := fun a ha =>
      clean_planActions a (hperm.mem_iff.1 (hsorted.mem_iff.1 ha))
    constructor
    · intro htight _ a before hbefore
      obtain ⟨after, hafter, hta⟩ := htight.batches a before hbefore
      obtain ⟨idx, b, hsingle⟩ := exists_singleBatch _ _ hclean rfl
        (hsorted.mem_iff.2 (hperm.mem_iff.2 (mem_of_batchOf hbefore)))
      obtain rfl := Option.some.inj (hsingle.symm.trans hafter)
      exact tightened_singleBatch_iff.1 hta
    · intro hall
      refine ⟨fun a before hbefore => ?_, fun u v huv => ?_⟩
      · obtain ⟨idx, b, hsingle⟩ := exists_singleBatch _ _ hclean rfl
          (hsorted.mem_iff.2 (hperm.mem_iff.2 (mem_of_batchOf hbefore)))
        exact ⟨_, hsingle, tightened_singleBatch_iff.2 (hall (by omega) a before hbefore)⟩
      · rintro ⟨i, j, hu, hv⟩
        obtain ⟨-, hu⟩ := (at_singles hclean rfl).1 hu
        obtain ⟨-, hv⟩ := (at_singles hclean rfl).1 hv
        exact absurd (Option.some.inj (hu.symm.trans hv)) huv

/-! ## The patch -/

/-- A Level-1 patch only tightens the plan, unless it disables batching where a guard or a
slower rate is lost. -/
theorem level1_tightens_iff {plan patched : MetaPlan} {strategyIndex : ℤ}
    {target : Option OptimizationTarget} {counterexamples : List CounterExample}
    {patch : Option Dict}
    (h : applyLevel1Patch plan strategyIndex target counterexamples = .ok (patched, patch)) :
    OnlyTightens plan.toExecutionPlan patched.toExecutionPlan ↔
      (strategyIndex = 2 → 1 < (planActions plan.toExecutionPlan).length →
        ∀ a, LosesNothing plan.toExecutionPlan a) := by
  rcases applyLevel1Patch_cases h with ⟨rfl, -, htwo⟩ | ⟨strategy, changes, hpos, hget, -, hch⟩
  · refine ⟨fun htight h2 => ?_, fun _ => OnlyTightens.refl _⟩
    obtain ⟨changes, hd⟩ := htwo h2
    exact (disableBatching_tightens_iff hd).1 htight
  · have hindex : strategyIndex = 2 ↔ strategy = .disableBatching := by
      rw [← strategy_eq_disableBatching hget]
      omega
    rw [hindex]
    cases strategy with
    | reduceParallelism =>
      exact ⟨fun _ h2 => absurd h2 (by decide), fun _ => reduceParallelism_tightens hch⟩
    | disableSessionReuse =>
      obtain rfl : (disableSessionReuse plan).1 = patched := congrArg Prod.fst (Except.ok.inj hch)
      exact ⟨fun _ h2 => absurd h2 (by decide), fun _ => disableSessionReuse_tightens plan⟩
    | disableBatching =>
      rw [disableBatching_tightens_iff hch]
      exact ⟨fun h _ => h, fun h => h rfl⟩
    | enforceMinGapNoOverlap =>
      exact ⟨fun _ h2 => absurd h2 (by decide), fun _ => enforceMinGapNoOverlap_tightens hch⟩

/-! ## A guard that is lost -/

/-- Two calls under a guard, at most one of them every two seconds. -/
def guardedPlan : MetaPlan where
  orderedBatches :=
    [{ batchId := "batch_000", parallelGroups := [["open", "unlock"]],
       ratePolicy := [("max_qps", .float (1 / 2) "0.5")],
       guards := [[("kind", .str "RATE_LIMIT"), ("scope", .list []), ("expr", .str "safe_mode"),
         ("enforced", .bool true)]] }]

theorem applyLevel1Patch_guardedPlan : ∃ patch,
    applyLevel1Patch guardedPlan 2 (some doorTarget) [] = .ok (openedPlan, some patch) := by
  have horder : planExecutionOrder guardedPlan.toExecutionPlan = .ok ["open", "unlock"] := by
    decide +kernel
  have hsorted : declaredOrder (some doorTarget) ["open", "unlock"] = ["open", "unlock"] := by
    decide +kernel
  have hchanges : disableBatching (some doorTarget) guardedPlan = .ok (openedPlan,
      [[("path", .str "ordered_batches"), ("from_batch_count", .int 1),
        ("to_batch_count", .int 2)]]) := by
    rw [disableBatching, horder]
    show Except.ok (if _ then _ else _) = _
    rw [hsorted]
    rfl
  exact applyLevel1Patch_of_changes (n := 2) rfl hchanges (by simp)

theorem level1_tightens_guarded : ∃ patched : MetaPlan,
    OnlyTightens guardedPlan.toExecutionPlan patched.toExecutionPlan ↔
      ((2 : ℤ) = 2 → 1 < (planActions guardedPlan.toExecutionPlan).length →
        ∀ a, LosesNothing guardedPlan.toExecutionPlan a) := by
  obtain ⟨patch, hpatch⟩ := applyLevel1Patch_guardedPlan
  exact ⟨openedPlan, level1_tightens_iff hpatch⟩

/-- Disabling batching drops the guard and raises the rate. -/
theorem disableBatching_relaxes : ∃ patched patch,
    applyLevel1Patch guardedPlan 2 (some doorTarget) [] = .ok (patched, some patch) ∧
      ¬OnlyTightens guardedPlan.toExecutionPlan patched.toExecutionPlan := by
  obtain ⟨patch, hpatch⟩ := applyLevel1Patch_guardedPlan
  refine ⟨openedPlan, patch, hpatch, fun htight => ?_⟩
  obtain ⟨before, hbefore⟩ := batchOf_isSome guardedPlan.toExecutionPlan (a := "open")
    (by decide +kernel)
  obtain ⟨after, hafter, hta⟩ := htight.batches "open" before hbefore
  obtain ⟨idx, b, hsingle⟩ := exists_singleBatch openedPlan.toExecutionPlan ["open", "unlock"]
    (by decide +kernel) rfl (List.mem_cons_self (a := "open"))
  obtain rfl := Option.some.inj (hsingle.symm.trans hafter)
  obtain rfl := List.mem_singleton.1 (List.mem_of_find?_eq_some hbefore)
  exact (tightened_singleBatch_iff.1 hta).1 _ List.mem_cons_self ⟨[], rfl, .inl rfl⟩

end FloWeaver.Trust
