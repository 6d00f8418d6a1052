import FloWeaver.Lib.Frontier
import FloWeaver.Trust.Level1

/-!
# Level-1 rollback and the hard order

Three of the strategies leave every action in its batch.  Disabling batching sorts the actions
by their declaration, so that it keeps a hard order exactly where the order follows the
declaration.

* `planActions`, `At` — the actions of a plan and where they stand.
* `SameBatches` — every batch holds the actions it held.
* `declaredOrder_lt` — when an action comes before another in the declared order.
* `level1_order_iff` — when the patched plan keeps an order.
-/

namespace FloWeaver.Trust

open Py ListCut

/-! ## Where the actions stand -/

/-- The trimmed ids of a batch. -/
def batchActions (batch : Batch) : List String := orderedGroup batch.parallelGroups.flatten

/-- The actions of a plan, once for every listing. -/
def planActions (plan : ExecutionPlan) : List String := plan.orderedBatches.flatMap batchActions

/-- An action is listed in a group of a batch. -/
def At (plan : ExecutionPlan) (i j : ℕ) (a : String) : Prop :=
  ∃ batch group, plan.orderedBatches[i]? = some batch ∧ batch.parallelGroups[j]? = some group ∧
    a ∈ orderedGroup group

/-- Every pair of an order is listed in two batches, the first one earlier. -/
def Respects (plan : ExecutionPlan) (E : String → String → Prop) : Prop :=
  ∀ u v, E u v → ∀ i j k l, At plan i j u → At plan k l v → i < k

/-- The first one is listed in an earlier batch, or in an earlier group of the same batch. -/
def RespectsInGroups (plan : ExecutionPlan) (E : String → String → Prop) : Prop :=
  ∀ u v, E u v → ∀ i j k l, At plan i j u → At plan k l v → i < k ∨ (i = k ∧ j < l)

theorem Respects.inGroups {plan : ExecutionPlan} {E : String → String → Prop}
    (h : Respects plan E) : RespectsInGroups plan E :=
  fun u v huv i j k l hu hv => .inl (h u v huv i j k l hu hv)

theorem orderedGroup_append (a b : List String) :
    orderedGroup (a ++ b) = orderedGroup a ++ orderedGroup b := by
  simp [orderedGroup]

theorem orderedGroup_perm {a b : List String} (h : a.Perm b) :
    (orderedGroup a).Perm (orderedGroup b) :=
  (h.map strip).filter _

theorem mem_orderedGroup_flatten {groups : List (List String)} {a : String} :
    a ∈ orderedGroup groups.flatten ↔ ∃ g ∈ groups, a ∈ orderedGroup g := by
  induction groups with
  | nil => simp [orderedGroup]
  | cons g groups ih => simp [orderedGroup_append, ih]

/-- The groups of a batch only divide its actions. -/
theorem at_iff {plan : ExecutionPlan} {i : ℕ} {a : String} :
    (∃ j, At plan i j a) ↔ ∃ batch, plan.orderedBatches[i]? = some batch ∧ a ∈ batchActions batch := by
  constructor
  · rintro ⟨j, batch, group, hi, hj, ha⟩
    exact ⟨batch, hi, mem_orderedGroup_flatten.2 ⟨group, List.mem_of_getElem? hj, ha⟩⟩
  · rintro ⟨batch, hi, ha⟩
    obtain ⟨group, hg, ha⟩ := mem_orderedGroup_flatten.1 ha
    obtain ⟨j, hj⟩ := List.mem_iff_getElem?.1 hg
    exact ⟨j, batch, group, hi, hj, ha⟩

/-! ## Strategies that keep the batches -/

/-- Every batch holds the actions it held. -/
def SameBatches (plan patched : ExecutionPlan) : Prop :=
  List.Forall₂ (fun batch batch' => (batchActions batch').Perm (batchActions batch))
    plan.orderedBatches patched.orderedBatches

theorem SameBatches.planActions_perm {plan patched : ExecutionPlan} (h : SameBatches plan patched) :
    (planActions patched).Perm (planActions plan) := by
  rw [planActions, planActions]
  rw [SameBatches] at h
  generalize plan.orderedBatches = batches at h ⊢
  generalize patched.orderedBatches = batches' at h ⊢
  induction h with
  | nil => exact .nil
  | cons hb _ ih =>
    rw [List.flatMap_cons, List.flatMap_cons]
    exact hb.append ih

theorem SameBatches.exists_at {plan patched : ExecutionPlan} (h : SameBatches plan patched)
    {i j : ℕ} {a : String} (ha : At patched i j a) : ∃ j', At plan i j' a := by
  obtain ⟨batch', hi', ha'⟩ := at_iff.1 ⟨j, ha⟩
  obtain ⟨hlen, hperm⟩ := List.forall₂_iff_get.1 h
  obtain ⟨hlt', rfl⟩ := List.getElem?_eq_some_iff.1 hi'
  have hlt : i < plan.orderedBatches.length := hlen ▸ hlt'
  refine at_iff.2 ⟨plan.orderedBatches[i], List.getElem?_eq_getElem hlt, ?_⟩
  exact (hperm i hlt hlt').mem_iff.1 ha'

theorem SameBatches.respects {plan patched : ExecutionPlan} (h : SameBatches plan patched)
    {E : String → String → Prop} (hE : Respects plan E) : Respects patched E := by
  intro u v huv i j k l hu hv
  obtain ⟨j', hu'⟩ := h.exists_at hu
  obtain ⟨l', hv'⟩ := h.exists_at hv
  exact hE u v huv i j' k l' hu' hv'

/-- Batches that are patched one by one. -/
theorem sameBatches_map {plan patched : ExecutionPlan} {f : Batch → Batch × List Dict}
    (h : patched.orderedBatches = (plan.orderedBatches.map f).map (·.1))
    (hf : ∀ batch, (batchActions (f batch).1).Perm (batchActions batch)) :
    SameBatches plan patched := by
  rw [SameBatches, h, List.map_map, List.forall₂_map_right_iff]
  exact List.forall₂_same.2 fun batch _ => hf batch

theorem orderedGroup_filter (group : List String) :
    orderedGroup (group.filter (strip · ≠ "")) = orderedGroup group := by
  induction group with
  | nil => rfl
  | cons a group ih =>
    by_cases h : strip a = ""
    · simpa [orderedGroup, List.filter_cons, h] using ih
    · simpa [orderedGroup, List.filter_cons, h] using ih

/-- The pieces of a group hold its actions. -/
theorem regroup_perm (target : Option OptimizationTarget) (maxGroup : ℕ) (group : List String) :
    (orderedGroup (regroup target maxGroup group).flatten).Perm (orderedGroup group) := by
  rw [← orderedGroup_filter group, regroup]
  split_ifs with hempty hfit
  · rw [List.isEmpty_iff.1 hempty]
    exact .refl _
  · rw [List.flatten_singleton]
  · rw [flatten_chunks]
    exact orderedGroup_perm (sortedBy_perm _ _)

theorem regroupBatch_perm (target : Option OptimizationTarget) (maxGroup : ℕ) (batch : Batch) :
    (batchActions (regroupBatch target maxGroup batch).1).Perm (batchActions batch) := by
  rw [regroupBatch]
  split_ifs with h
  · exact .refl _
  · show (orderedGroup (batch.parallelGroups.flatMap (regroup target maxGroup)).flatten).Perm
      (orderedGroup batch.parallelGroups.flatten)
    generalize batch.parallelGroups = groups
    induction groups with
    | nil => exact .refl _
    | cons g groups ih =>
      rw [List.flatMap_cons, List.flatten_append, List.flatten_cons, orderedGroup_append,
        orderedGroup_append]
      exact (regroup_perm target maxGroup g).append ih

theorem reduceParallelism_sameBatches {target : Option OptimizationTarget} {plan patched : MetaPlan}
    {changes : List Dict} (h : reduceParallelism target plan = .ok (patched, changes)) :
    SameBatches plan.toExecutionPlan patched.toExecutionPlan := by
  obtain ⟨policy, -, h⟩ := bind_eq_ok.1 h
  obtain ⟨total, -, h⟩ := bind_eq_ok.1 h
  obtain ⟨ble, -, h⟩ := bind_eq_ok.1 h
  obtain ⟨cloud, -, h⟩ := bind_eq_ok.1 h
  obtain ⟨maxParallel, -, h⟩ := bind_eq_ok.1 h
  obtain ⟨rfl, -⟩ := Prod.mk.inj (pure_eq_ok.1 h)
  exact sameBatches_map rfl fun batch => regroupBatch_perm target _ batch

theorem disableSessionReuse_sameBatches (plan : MetaPlan) :
    SameBatches plan.toExecutionPlan (disableSessionReuse plan).1.toExecutionPlan :=
  sameBatches_map rfl fun _ => .refl _

theorem enforceGaps_groups {index : OrderedDict String Dict} {batch : Batch}
    {row : Batch × List Dict} (h : enforceGaps index batch = .ok row) :
    row.1.parallelGroups = batch.parallelGroups := by
  obtain ⟨guards, -, h⟩ := bind_eq_ok.1 h
  obtain ⟨maxQps, -, h⟩ := bind_eq_ok.1 h
  obtain rfl := pure_eq_ok.1 h
  rfl

theorem enforceMinGapNoOverlap_sameBatches {target : Option OptimizationTarget}
    {plan patched : MetaPlan} {changes : List Dict}
    (h : enforceMinGapNoOverlap target plan = .ok (patched, changes)) :
    SameBatches plan.toExecutionPlan patched.toExecutionPlan := by
  obtain ⟨batches, hbatches, h⟩ := bind_eq_ok.1 h
  obtain ⟨rfl, -⟩ := Prod.mk.inj (pure_eq_ok.1 h)
  show List.Forall₂ _ plan.orderedBatches (batches.map (·.1))
  rw [List.forall₂_map_right_iff]
  refine (forall₂_of_mapM_ok hbatches).imp fun batch row hrow => ?_
  rw [batchActions, batchActions, enforceGaps_groups hrow]

/-! ## The order of execution -/

theorem groupOrder_perm {batch : Batch} {group order : List String}
    (h : groupOrder batch group = .ok order) : order.Perm (orderedGroup group) := by
  simp only [groupOrder] at h
  split_ifs at h with hempty
  · obtain rfl := Except.ok.inj h
    rw [List.isEmpty_iff.1 hempty]
  · obtain ⟨⟨parallelIds, serialIds⟩, hlayout, h⟩ := bind_eq_ok.1 h
    obtain rfl := pure_eq_ok.1 h
    obtain ⟨rows, -, hlayout⟩ := bind_eq_ok.1 hlayout
    have hpair := pure_eq_ok.1 hlayout
    split_ifs at hpair with hkeep
    · obtain ⟨rfl, rfl⟩ := Prod.mk.inj hpair
      exact .refl _
    · obtain ⟨rfl, rfl⟩ := Prod.mk.inj hpair
      -- the serial actions are a filter of the group, the parallel ones are the others
      rw [serializeTargetsForGroup]
      refine List.Perm.trans (.of_eq (congrArg (· ++ _) ?_))
        ((List.perm_append_comm).trans (List.filter_append_perm _ (orderedGroup group)))
      refine List.filter_congr fun a ha => ?_
      simp [List.mem_filter, ha]

/-- The order of execution runs through the batches. -/
theorem planExecutionOrder_blocks {plan : ExecutionPlan} {order : List String}
    (h : planExecutionOrder plan = .ok order) : ∃ blocks, order = blocks.flatten ∧
      List.Forall₂ (fun batch block => block.Perm (batchActions batch)) plan.orderedBatches
        blocks := by
  obtain ⟨orders, horders, h⟩ := bind_eq_ok.1 h
  obtain rfl := pure_eq_ok.1 h
  refine ⟨orders.map List.flatten, List.flatten_flatten, ?_⟩
  rw [List.forall₂_map_right_iff]
  refine (forall₂_of_mapM_ok horders).imp fun batch groups hgroups => ?_
  rw [batchActions]
  have hall := forall₂_of_mapM_ok hgroups
  clear hgroups
  generalize batch.parallelGroups = parallelGroups at hall ⊢
  induction hall with
  | nil => exact .refl _
  | cons hg _ ih =>
    rw [List.flatten_cons, List.flatten_cons, orderedGroup_append]
    exact (groupOrder_perm hg).append ih

theorem planExecutionOrder_perm {plan : ExecutionPlan} {order : List String}
    (h : planExecutionOrder plan = .ok order) : order.Perm (planActions plan) := by
  obtain ⟨blocks, rfl, hblocks⟩ := planExecutionOrder_blocks h
  rw [planActions]
  clear h
  generalize plan.orderedBatches = batches at hblocks ⊢
  induction hblocks with
  | nil => exact .refl _
  | cons hb _ ih =>
    rw [List.flatten_cons, List.flatMap_cons]
    exact hb.append ih

/-- What stands in an earlier block stands earlier. -/
theorem flatten_index_lt {blocks : List (List String)} (hnd : blocks.flatten.Nodup) {i k : ℕ}
    (hik : i < k) {b c : List String} (hi : blocks[i]? = some b) (hk : blocks[k]? = some c)
    {u v : String} (hu : u ∈ b) (hv : v ∈ c) {p q : ℕ} (hp : blocks.flatten[p]? = some u)
    (hq : blocks.flatten[q]? = some v) : p < q := by
  have hsplit : blocks.flatten = (blocks.take (i + 1)).flatten ++ (blocks.drop (i + 1)).flatten := by
    rw [← List.flatten_append, List.take_append_drop]
  have hmemu : u ∈ (blocks.take (i + 1)).flatten :=
    List.mem_flatten.2 ⟨b, List.mem_of_getElem? (List.getElem?_take_of_lt (Nat.lt_succ_self i) ▸ hi),
      hu⟩
  have hmemv : v ∈ (blocks.drop (i + 1)).flatten := by
    refine List.mem_flatten.2 ⟨c, List.mem_of_getElem? (i := k - (i + 1)) ?_, hv⟩
    rw [List.getElem?_drop, ← hk]
    congr 1
    omega
  rw [hsplit] at hnd hp hq
  have hdisj := (List.nodup_append.1 hnd).2.2
  by_contra hle
  -- either the first one is among the later actions, or the second one among the earlier
  rcases Nat.lt_or_ge p (blocks.take (i + 1)).flatten.length with hpl | hpl
  · rw [List.getElem?_append_left (by omega)] at hq
    exact hdisj v (List.mem_of_getElem? hq) v hmemv rfl
  · rw [List.getElem?_append_right hpl] at hp
    exact hdisj u hmemu u (List.mem_of_getElem? hp) rfl

/-! ## One action per batch -/

/-- The position of an action in a list without repetitions. -/
theorem get?_zipIdx {actions : List String} (hnd : actions.Nodup) {p : ℕ} {a : String}
    (hp : actions[p]? = some a) : (OrderedDict.ofList actions.zipIdx).get? a = some p := by
  have hmem : a ∈ (OrderedDict.ofList actions.zipIdx).keys := by
    rw [OrderedDict.mem_keys_ofList, List.zipIdx_map_fst]
    exact List.mem_of_getElem? hp
  obtain ⟨q, hq⟩ := Option.isSome_iff_exists.1 (OrderedDict.get?_isSome_iff.2 hmem)
  have hrow := OrderedDict.mem_of_get?_ofList hq
  have hqa : actions[q]? = some a := by
    simpa using List.mem_zipIdx_iff_getElem?.1 hrow
  obtain rfl := (List.getElem?_inj (List.getElem?_eq_some_iff.1 hp).1 hnd).1 (hp.trans hqa.symm)
  exact hq

/-- In the declared order an action comes before another where it is declared before, and where
the declaration does not tell them apart it keeps its place. -/
theorem declaredOrder_lt {target : Option OptimizationTarget} {actions : List String}
    (hnd : actions.Nodup) {p q i k : ℕ} {u v : String} (hp : actions[p]? = some u)
    (hq : actions[q]? = some v) (hpq : p < q) (hi : (declaredOrder target actions)[i]? = some u)
    (hk : (declaredOrder target actions)[k]? = some v) :
    i < k ↔ rankOf target u ≤ rankOf target v := by
  have hsorted := List.pairwise_iff_getElem.1 (pairwise_sortedBy (fun actionId =>
    (toLex (rankOf target actionId,
      ((OrderedDict.ofList actions.zipIdx).get? actionId).getD 10000) : ℕ ×ₗ ℕ)) actions)
  obtain ⟨hil, hiu⟩ := List.getElem?_eq_some_iff.1 hi
  obtain ⟨hkl, hkv⟩ := List.getElem?_eq_some_iff.1 hk
  change (sortedBy _ actions)[i] = u at hiu
  change (sortedBy _ actions)[k] = v at hkv
  constructor
  · intro hik
    have h := hsorted i k hil hkl hik
    rw [hiu, hkv, Prod.Lex.toLex_le_toLex] at h
    rcases h with h | h
    · exact h.le
    · exact h.1.le
  · intro hrank
    by_contra hki
    rcases Nat.lt_or_eq_of_le (Nat.le_of_not_lt hki) with hki | rfl
    · have h := hsorted k i hkl hil hki
      rw [hiu, hkv, Prod.Lex.toLex_le_toLex, get?_zipIdx hnd hp, get?_zipIdx hnd hq] at h
      simp only [Option.getD_some] at h
      omega
    · obtain rfl : u = v := Option.some.inj (hi.symm.trans hk)
      have := (List.getElem?_inj (List.getElem?_eq_some_iff.1 hp).1 hnd).1 (hp.trans hq.symm)
      omega

theorem planActions_mapIdx {actions : List String} (hclean : ∀ a ∈ actions, strip a = a ∧ a ≠ "") :
    ∀ (f : ℕ → ℕ), (actions.mapIdx fun idx a => singleBatch (f idx) a).flatMap batchActions =
      actions := by
  induction actions with
  | nil => exact fun f => rfl
  | cons a actions ih =>
    intro f
    obtain ⟨hstrip, hne⟩ := hclean a List.mem_cons_self
    rw [List.mapIdx_cons, List.flatMap_cons]
    have hfirst : batchActions (singleBatch (f 0) a) = [a] := by
      simp [batchActions, singleBatch, orderedGroup, hstrip, hne]
    rw [hfirst, ih (fun b hb => hclean b (List.mem_cons_of_mem _ hb)) fun idx => f (idx + 1)]
    rfl

/-- In a plan of single actions an action stands in the batch of its position. -/
theorem at_singles {plan : ExecutionPlan} {actions : List String}
    (hclean : ∀ a ∈ actions, strip a = a ∧ a ≠ "")
    (hplan : plan.orderedBatches = actions.mapIdx singleBatch) {i j : ℕ} {a : String} :
    At plan i j a ↔ j = 0 ∧ actions[i]? = some a := by
  constructor
  · rintro ⟨batch, group, hi, hj, ha⟩
    rw [hplan, List.getElem?_mapIdx] at hi
    obtain ⟨b, hb, rfl⟩ := Option.map_eq_some_iff.1 hi
    obtain ⟨hstrip, hne⟩ := hclean b (List.mem_of_getElem? hb)
    rw [singleBatch] at hj
    cases j with
    | zero =>
      obtain rfl : [b] = group := by simpa using hj
      have hab : a = b := by simpa [orderedGroup, hstrip, hne] using ha
      exact ⟨rfl, hab ▸ hb⟩
    | succ j => simp at hj
  · rintro ⟨rfl, ha⟩
    obtain ⟨hstrip, hne⟩ := hclean a (List.mem_of_getElem? ha)
    refine ⟨singleBatch i a, [a], ?_, rfl, by simp [orderedGroup, hstrip, hne]⟩
    rw [hplan, List.getElem?_mapIdx, ha]
    rfl

theorem clean_planActions {plan : ExecutionPlan} : ∀ a ∈ planActions plan, strip a = a ∧ a ≠ "" := by
  intro a ha
  obtain ⟨batch, -, ha⟩ := List.mem_flatMap.1 ha
  obtain ⟨hmem, hne⟩ := List.mem_filter.1 ha
  obtain ⟨b, -, rfl⟩ := List.mem_map.1 hmem
  exact ⟨strip_strip b, by simpa using hne⟩

/-- Disabling batching keeps the actions, and a hard order exactly where it follows the
declaration. -/
theorem disableBatching_order_iff {target : Option OptimizationTarget} {plan patched : MetaPlan}
    {changes : List Dict} (h : disableBatching target plan = .ok (patched, changes))
    (hnd : (planActions plan.toExecutionPlan).Nodup) {E : String → String → Prop}
    (hE : Respects plan.toExecutionPlan E) :
    (planActions patched.toExecutionPlan).Perm (planActions plan.toExecutionPlan) ∧
      (RespectsInGroups patched.toExecutionPlan E ↔
        ∀ u v, E u v → u ∈ planActions plan.toExecutionPlan →
          v ∈ planActions plan.toExecutionPlan → rankOf target u ≤ rankOf target v) := by
  obtain ⟨order, horder, h⟩ := bind_eq_ok.1 h
  have hperm := planExecutionOrder_perm horder
  obtain ⟨blocks, rfl, hblocks⟩ := planExecutionOrder_blocks horder
  obtain ⟨hlen, hblock⟩ := List.forall₂_iff_get.1 hblocks
  have hndo : blocks.flatten.Nodup := hperm.nodup_iff.2 hnd
  have hclean : ∀ a ∈ declaredOrder target blocks.flatten, strip a = a ∧ a ≠ "" := fun a ha =>
    clean_planActions a (hperm.mem_iff.1 (mem_sortedBy.1 ha))
  -- an order that the plan respects is one of positions in the order of execution
  have hpos : ∀ u v, E u v → ∀ p q : ℕ, blocks.flatten[p]? = some u → blocks.flatten[q]? = some v →
      p < q := by
    intro u v huv p q hp hq
    obtain ⟨b, hb, hub⟩ := List.mem_flatten.1 (List.mem_of_getElem? hp)
    obtain ⟨c, hc, hvc⟩ := List.mem_flatten.1 (List.mem_of_getElem? hq)
    obtain ⟨i, hi⟩ := List.mem_iff_getElem?.1 hb
    obtain ⟨k, hk⟩ := List.mem_iff_getElem?.1 hc
    obtain ⟨hil, rfl⟩ := List.getElem?_eq_some_iff.1 hi
    obtain ⟨hkl, rfl⟩ := List.getElem?_eq_some_iff.1 hk
    have hil' : i < plan.orderedBatches.length := by omega
    have hkl' : k < plan.orderedBatches.length := by omega
    obtain ⟨j, hj⟩ := at_iff.2 ⟨_, List.getElem?_eq_getElem hil',
      (hblock i hil' hil).mem_iff.1 hub⟩
    obtain ⟨l, hl⟩ := at_iff.2 ⟨_, List.getElem?_eq_getElem hkl',
      (hblock k hkl' hkl).mem_iff.1 hvc⟩
    exact flatten_index_lt hndo (hE u v huv i j k l hj hl) hi hk hub hvc hp hq
  have hresult := pure_eq_ok.1 h
  split_ifs at hresult with hshort
  · -- a plan of one action has no pair to keep
    obtain ⟨rfl, -⟩ := Prod.mk.inj hresult
    refine ⟨.refl _, fun _ u v huv hu hv => ?_, fun _ => hE.inGroups⟩
    obtain ⟨p, hp⟩ := List.mem_iff_getElem?.1 (hperm.mem_iff.2 hu)
    obtain ⟨q, hq⟩ := List.mem_iff_getElem?.1 (hperm.mem_iff.2 hv)
    have hlt := hpos u v huv p q hp hq
    have := (List.getElem?_eq_some_iff.1 hq).1
    omega
  · obtain ⟨rfl, -⟩ := Prod.mk.inj hresult
    have hsorted := sortedBy_perm (fun actionId => (toLex (rankOf target actionId,
      ((OrderedDict.ofList blocks.flatten.zipIdx).get? actionId).getD 10000) : ℕ ×ₗ ℕ))
      blocks.flatten
    have hsingles : ∀ {i j a}, At { plan.toExecutionPlan with
        orderedBatches := (declaredOrder target blocks.flatten).mapIdx singleBatch } i j a ↔
        j = 0 ∧ (declaredOrder target blocks.flatten)[i]? = some a := fun {i j a} =>
      at_singles hclean rfl
    refine ⟨?_, fun hresp u v huv hu hv => ?_, fun hrank u v huv i j k l hu hv => ?_⟩
    · refine List.Perm.trans (.of_eq ?_) (hsorted.trans hperm)
      exact planActions_mapIdx hclean id
    · obtain ⟨p, hp⟩ := List.mem_iff_getElem?.1 (hperm.mem_iff.2 hu)
      obtain ⟨q, hq⟩ := List.mem_iff_getElem?.1 (hperm.mem_iff.2 hv)
      obtain ⟨i, hi⟩ := List.mem_iff_getElem?.1
        (hsorted.mem_iff.2 (hperm.mem_iff.2 hu))
      obtain ⟨k, hk⟩ := List.mem_iff_getElem?.1
        (hsorted.mem_iff.2 (hperm.mem_iff.2 hv))
      have hik := hresp u v huv i 0 k 0 (hsingles.2 ⟨rfl, hi⟩) (hsingles.2 ⟨rfl, hk⟩)
      exact (declaredOrder_lt hndo hp hq (hpos u v huv p q hp hq) hi hk).1 (by omega)
    · obtain ⟨-, hi⟩ := hsingles.1 hu
      obtain ⟨-, hk⟩ := hsingles.1 hv
      have huo : u ∈ blocks.flatten := hsorted.mem_iff.1 (List.mem_of_getElem? hi)
      have hvo : v ∈ blocks.flatten := hsorted.mem_iff.1 (List.mem_of_getElem? hk)
      obtain ⟨p, hp⟩ := List.mem_iff_getElem?.1 huo
      obtain ⟨q, hq⟩ := List.mem_iff_getElem?.1 hvo
      exact .inl ((declaredOrder_lt hndo hp hq (hpos u v huv p q hp hq) hi hk).2
        (hrank u v huv (hperm.mem_iff.1 huo) (hperm.mem_iff.1 hvo)))

/-! ## The patch -/

theorem disableBatching_nil {target : Option OptimizationTarget} {plan patched : MetaPlan}
    (h : disableBatching target plan = .ok (patched, [])) : patched = plan := by
  obtain ⟨order, -, h⟩ := bind_eq_ok.1 h
  have hresult := pure_eq_ok.1 h
  split_ifs at hresult with hshort
  · exact (Prod.mk.inj hresult).1.symm
  · exact absurd (Prod.mk.inj hresult).2 (by simp)

theorem applyLevel1Patch_of_changes {plan patched : MetaPlan} {n : ℕ}
    {strategy : Level1Strategy} (hget : level1Strategies[n]? = some strategy)
    {target : Option OptimizationTarget} {changes : List Dict}
    (h : level1Changes target plan strategy = .ok (patched, changes)) (hne : changes ≠ [])
    {counterexamples : List CounterExample} :
    ∃ patch, applyLevel1Patch plan n target counterexamples = .ok (patched, some patch) := by
  rw [applyLevel1Patch, if_neg (by omega), Int.toNat_natCast, hget]
  dsimp only
  rw [h]
  exact ⟨_, congrArg Except.ok (if_neg (by simpa using hne))⟩

theorem strategy_eq_disableBatching {n : ℕ} {strategy : Level1Strategy}
    (h : level1Strategies[n]? = some strategy) : n = 2 ↔ strategy = .disableBatching := by
  have hthird : level1Strategies[2]? = some .disableBatching := rfl
  constructor
  · rintro rfl
    exact Option.some.inj (h.symm.trans hthird)
  · rintro rfl
    exact (List.getElem?_inj (List.getElem?_eq_some_iff.1 h).1 (by decide)).1
      (h.trans hthird.symm)

/-- A patch is what its strategy makes of the plan; without a change it is the plan. -/
theorem applyLevel1Patch_cases {plan patched : MetaPlan} {strategyIndex : ℤ}
    {target : Option OptimizationTarget} {counterexamples : List CounterExample}
    {patch : Option Dict}
    (h : applyLevel1Patch plan strategyIndex target counterexamples = .ok (patched, patch)) :
    (patched = plan ∧ patch = none ∧ (strategyIndex = 2 → ∃ changes,
      disableBatching target plan = .ok (plan, changes))) ∨
    ∃ strategy changes, 0 ≤ strategyIndex ∧ level1Strategies[strategyIndex.toNat]? = some strategy ∧
      changes ≠ [] ∧ level1Changes target plan strategy = .ok (patched, changes) := by
  rw [applyLevel1Patch] at h
  split_ifs at h with hneg
  · obtain ⟨rfl, rfl⟩ := Prod.mk.inj (Except.ok.inj h)
    exact .inl ⟨rfl, rfl, fun h2 => by omega⟩
  · cases hget : level1Strategies[strategyIndex.toNat]? with
    | none =>
      rw [hget] at h
      obtain ⟨rfl, rfl⟩ := Prod.mk.inj (Except.ok.inj h)
      refine .inl ⟨rfl, rfl, fun h2 => ?_⟩
      subst h2
      exact absurd hget (by decide)
    | some strategy =>
      rw [hget] at h
      obtain ⟨⟨patched', changes⟩, hchanges, h⟩ := bind_eq_ok.1 h
      have hresult := pure_eq_ok.1 h
      split_ifs at hresult with hempty
      · obtain ⟨rfl, rfl⟩ := Prod.mk.inj hresult
        obtain rfl := List.isEmpty_iff.1 hempty
        refine .inl ⟨rfl, rfl, fun h2 => ?_⟩
        subst h2
        obtain rfl : .disableBatching = strategy := Option.some.inj hget
        obtain rfl := disableBatching_nil hchanges
        exact ⟨[], hchanges⟩
      · obtain ⟨rfl, -⟩ := Prod.mk.inj hresult
        exact .inr ⟨strategy, changes, by omega, rfl, by simpa using hempty, hchanges⟩

/-- A Level-1 patch keeps the actions; it keeps an order that the plan respects unless it
disables batching and the order runs against the declaration. -/
theorem level1_order_iff {plan patched : MetaPlan} {strategyIndex : ℤ}
    {target : Option OptimizationTarget} {counterexamples : List CounterExample}
    {patch : Option Dict}
    (h : applyLevel1Patch plan strategyIndex target counterexamples = .ok (patched, patch))
    (hnd : (planActions plan.toExecutionPlan).Nodup) {E : String → String → Prop}
    (hE : Respects plan.toExecutionPlan E) :
    ((planActions patched.toExecutionPlan).Perm (planActions plan.toExecutionPlan) ∧
        RespectsInGroups patched.toExecutionPlan E) ↔
      (strategyIndex = 2 → ∀ u v, E u v → u ∈ planActions plan.toExecutionPlan →
        v ∈ planActions plan.toExecutionPlan → rankOf target u ≤ rankOf target v) := by
  have hkept : SameBatches plan.toExecutionPlan patched.toExecutionPlan →
      (planActions patched.toExecutionPlan).Perm (planActions plan.toExecutionPlan) ∧
        RespectsInGroups patched.toExecutionPlan E :=
    fun hsame => ⟨hsame.planActions_perm, (hsame.respects hE).inGroups⟩
  have hdisable : ∀ {patched' changes}, disableBatching target plan = .ok (patched', changes) →
      ((planActions patched'.toExecutionPlan).Perm (planActions plan.toExecutionPlan) ∧
        RespectsInGroups patched'.toExecutionPlan E ↔
      ∀ u v, E u v → u ∈ planActions plan.toExecutionPlan →
        v ∈ planActions plan.toExecutionPlan → rankOf target u ≤ rankOf target v) := by
    intro patched' changes hd
    obtain ⟨hperm, hiff⟩ := disableBatching_order_iff hd hnd hE
    exact ⟨fun h => hiff.1 h.2, fun h => ⟨hperm, hiff.2 h⟩⟩
  rcases applyLevel1Patch_cases h with ⟨rfl, -, htwo⟩ | ⟨strategy, changes, hpos, hget, -, hch⟩
  · refine ⟨fun hboth h2 => ?_, fun _ => ⟨.refl _, hE.inGroups⟩⟩
    obtain ⟨changes, hd⟩ := htwo h2
    exact (hdisable hd).1 hboth
  · have hindex : strategyIndex = 2 ↔ strategy = .disableBatching := by
      rw [← strategy_eq_disableBatching hget]
      omega
    rw [hindex]
    cases strategy with
    | reduceParallelism =>
      exact ⟨fun _ h2 => absurd h2 (by decide), fun _ => hkept (reduceParallelism_sameBatches hch)⟩
    | disableSessionReuse =>
      obtain rfl : (disableSessionReuse plan).1 = patched := congrArg Prod.fst (Except.ok.inj hch)
      exact ⟨fun _ h2 => absurd h2 (by decide), fun _ => hkept (disableSessionReuse_sameBatches plan)⟩
    | disableBatching =>
      rw [hdisable hch]
      exact ⟨fun h _ => h, fun h => h rfl⟩
    | enforceMinGapNoOverlap =>
      exact ⟨fun _ h2 => absurd h2 (by decide), fun _ => hkept (enforceMinGapNoOverlap_sameBatches hch)⟩

/-! ## An order against the declaration -/

/-- The declared hard order of a target. -/
def HardDependency (target : OptimizationTarget) (u v : String) : Prop :=
  ∃ dep ∈ target.hardDependencies,
    (dep.getD "before" (.str "")).pyStr = u ∧ (dep.getD "after" (.str "")).pyStr = v

/-- A door that is declared to be opened before it is unlocked. -/
def doorTarget : OptimizationTarget where
  vdevActions := [[("action_id", .str "open")], [("action_id", .str "unlock")]]
  hardDependencies := [[("before", .str "unlock"), ("after", .str "open")]]

def doorPlan : MetaPlan where
  orderedBatches :=
    [{ batchId := "batch_000", parallelGroups := [["unlock"]] },
      { batchId := "batch_001", parallelGroups := [["open"]] }]

theorem hardDependency_doorTarget {u v : String} :
    HardDependency doorTarget u v ↔ u = "unlock" ∧ v = "open" := by
  constructor
  · rintro ⟨dep, hdep, rfl, rfl⟩
    obtain rfl := List.mem_singleton.1 hdep
    exact ⟨by decide, by decide⟩
  · rintro ⟨rfl, rfl⟩
    exact ⟨_, List.mem_singleton.2 rfl, by decide, by decide⟩

theorem at_doorPlan {i j : ℕ} {a : String} (h : At doorPlan.toExecutionPlan i j a) :
    (i = 0 ∧ a = "unlock") ∨ (i = 1 ∧ a = "open") := by
  obtain ⟨batch, hi, ha⟩ := at_iff.1 ⟨j, h⟩
  match i, hi with
  | 0, hi =>
    obtain rfl := Option.some.inj hi
    have : batchActions { batchId := "batch_000", parallelGroups := [["unlock"]] } = ["unlock"] := by
      decide +kernel
    rw [this] at ha
    exact .inl ⟨rfl, List.mem_singleton.1 ha⟩
  | 1, hi =>
    obtain rfl := Option.some.inj hi
    have : batchActions { batchId := "batch_001", parallelGroups := [["open"]] } = ["open"] := by
      decide +kernel
    rw [this] at ha
    exact .inr ⟨rfl, List.mem_singleton.1 ha⟩
  | _ + 2, hi => exact nomatch hi

theorem respects_doorPlan : Respects doorPlan.toExecutionPlan (HardDependency doorTarget) := by
  intro u v huv i j k l hu hv
  obtain ⟨rfl, rfl⟩ := hardDependency_doorTarget.1 huv
  rcases at_doorPlan hu with ⟨rfl, -⟩ | ⟨-, h⟩
  · rcases at_doorPlan hv with ⟨-, h⟩ | ⟨rfl, -⟩
    · exact absurd h (by decide)
    · exact Nat.zero_lt_one
  · exact absurd h (by decide)

/-- The plan after batching is disabled. -/
def openedPlan : MetaPlan where
  orderedBatches := ["open", "unlock"].mapIdx singleBatch

theorem applyLevel1Patch_doorPlan : ∃ patch,
    applyLevel1Patch doorPlan 2 (some doorTarget) [] = .ok (openedPlan, some patch) := by
  have horder : planExecutionOrder doorPlan.toExecutionPlan = .ok ["unlock", "open"] := by
    decide +kernel
  have hsorted : declaredOrder (some doorTarget) ["unlock", "open"] = ["open", "unlock"] := by
    decide +kernel
  have hchanges : disableBatching (some doorTarget) doorPlan = .ok (openedPlan,
      [[("path", .str "ordered_batches"), ("from_batch_count", .int 2),
        ("to_batch_count", .int 2)]]) := by
    rw [disableBatching, horder]
    show Except.ok (if _ then _ else _) = _
    rw [hsorted]
    rfl
  exact applyLevel1Patch_of_changes (n := 2) rfl hchanges (by simp)

/-- The door plan lists its actions once and respects its acyclic order, and disabling batching
opens the door before it is unlocked. -/
theorem disableBatching_breaks_order :
    DepGraph.Acyclic (HardDependency doorTarget) ∧
      (planActions doorPlan.toExecutionPlan).Nodup ∧
      Respects doorPlan.toExecutionPlan (HardDependency doorTarget) ∧
      ∃ patched patch,
        applyLevel1Patch doorPlan 2 (some doorTarget) [] = .ok (patched, some patch) ∧
          ¬RespectsInGroups patched.toExecutionPlan (HardDependency doorTarget) := by
  refine ⟨fun v hv => ?_, by decide +kernel, respects_doorPlan, openedPlan, ?_⟩
  · obtain ⟨w, hvw, -⟩ := Relation.TransGen.head'_iff.1 hv
    obtain ⟨x, -, hxv⟩ := Relation.TransGen.tail'_iff.1 hv
    have hfirst := (hardDependency_doorTarget.1 hvw).1
    exact absurd (hfirst.symm.trans (hardDependency_doorTarget.1 hxv).2) (by decide)
  · obtain ⟨patch, hpatch⟩ := applyLevel1Patch_doorPlan
    refine ⟨patch, hpatch, fun hresp => ?_⟩
    have hclean : ∀ a ∈ ["open", "unlock"], strip a = a ∧ a ≠ "" := by decide +kernel
    have hlt := hresp "unlock" "open" (hardDependency_doorTarget.2 ⟨rfl, rfl⟩) 1 0 0 0
      ((at_singles hclean rfl).2 ⟨rfl, rfl⟩) ((at_singles hclean rfl).2 ⟨rfl, rfl⟩)
    omega

theorem level1_order_door : ∃ patched : MetaPlan,
    ((planActions patched.toExecutionPlan).Perm (planActions doorPlan.toExecutionPlan) ∧
        RespectsInGroups patched.toExecutionPlan (HardDependency doorTarget)) ↔
      ((2 : ℤ) = 2 → ∀ u v, HardDependency doorTarget u v →
        u ∈ planActions doorPlan.toExecutionPlan → v ∈ planActions doorPlan.toExecutionPlan →
        rankOf (some doorTarget) u ≤ rankOf (some doorTarget) v) := by
  obtain ⟨patch, hpatch⟩ := applyLevel1Patch_doorPlan
  exact ⟨openedPlan, level1_order_iff hpatch (by decide +kernel) respects_doorPlan⟩

end FloWeaver.Trust
