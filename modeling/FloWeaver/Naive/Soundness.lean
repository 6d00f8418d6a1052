import FloWeaver.Naive.Schedule
import Mathlib.Data.List.Pairwise

/-!
# The naive plan is sound

* `explicitGraph_E` — the edges of the explicit graph.
* `selectBatch_spec` — a batch holds distinct ready actions within the limits and without a
  conflict, and is not empty.
* `scheduleLoop_ok`, `scheduleLoop_acyclic` — what a run returns, and that it returns.
* `schedule_sound` — a cycle, or a sound plan.
-/

namespace FloWeaver.Naive

open Py DepGraph Relation
open Scheduler (ActionIndex Protocol actionOf)

/-! ## The explicit graph -/

/-- The explicit order of two known actions. -/
def ExplicitEdge (target : OptimizationTarget) (u v : String) : Prop :=
  let actions := actionIndex target
  u ≠ v ∧ u ∈ actions.keys ∧ v ∈ actions.keys ∧
    ((u, v) ∈ hardPairs target ∨
      (∃ items, mustHappenBefore (actionOf actions u) = .ok items ∧ v ∈ items) ∨
      (protocol (actionOf actions u) ≠ .ha ∧ protocol (actionOf actions v) = .ha))

theorem foldl_addEdge (pairs : List (String × String)) (g : CountedGraph String) :
    (pairs.foldl (fun g p => g.addEdge p.1 p.2) g).nodes = g.nodes ∧
      ∀ u v, (pairs.foldl (fun g p => g.addEdge p.1 p.2) g).E u v ↔
        g.E u v ∨ ((u, v) ∈ pairs ∧ u ≠ v ∧ u ∈ g.nodes ∧ v ∈ g.nodes) := by
  induction pairs generalizing g with
  | nil => simp
  | cons p pairs ih =>
    obtain ⟨h1, h2⟩ := ih (g.addEdge p.1 p.2)
    rw [List.foldl_cons]
    refine ⟨h1.trans (CountedGraph.addEdge_nodes g p.1 p.2), fun u v => ?_⟩
    rw [h2, CountedGraph.addEdge_E, CountedGraph.addEdge_nodes, List.mem_cons]
    constructor
    · rintro ((h | ⟨rfl, rfl, h⟩) | ⟨h, hrest⟩)
      · exact .inl h
      · exact .inr ⟨.inl rfl, h⟩
      · exact .inr ⟨.inr h, hrest⟩
    · rintro (h | ⟨h | h, hrest⟩)
      · exact .inl (.inl h)
      · obtain ⟨rfl, rfl⟩ := Prod.mk.inj h
        exact .inl (.inr ⟨rfl, rfl, hrest⟩)
      · exact .inr ⟨h, hrest⟩

theorem actionOf_of_mem {actions : ActionIndex} {row : String × Dict} (h : row ∈ actions.rows) :
    actionOf actions row.1 = row.2 := by
  rw [actionOf, OrderedDict.get?_of_mem_rows h]
  rfl

theorem exists_row {actions : ActionIndex} {u : String} (h : u ∈ actions.keys) :
    (u, actionOf actions u) ∈ actions.rows := by
  obtain ⟨row, hrow, rfl⟩ := List.mem_map.1 h
  rwa [actionOf_of_mem hrow]

theorem mem_haActions {actions : ActionIndex} {v : String} :
    v ∈ (actions.rows.filter fun row => protocol row.2 = .ha).map (·.1) ↔
      v ∈ actions.keys ∧ protocol (actionOf actions v) = .ha := by
  constructor
  · intro h
    obtain ⟨row, hrow, rfl⟩ := List.mem_map.1 h
    obtain ⟨hrow, hha⟩ := List.mem_filter.1 hrow
    rw [actionOf_of_mem hrow]
    exact ⟨List.mem_map_of_mem hrow, of_decide_eq_true hha⟩
  · rintro ⟨hv, hha⟩
    exact List.mem_map.2 ⟨_, List.mem_filter.2 ⟨exists_row hv, by simpa using hha⟩, rfl⟩

theorem mem_haPairs {actions : ActionIndex} {u v : String} : (u, v) ∈ haPairs actions ↔
    u ∈ actions.keys ∧ v ∈ actions.keys ∧ protocol (actionOf actions u) ≠ .ha ∧
      protocol (actionOf actions v) = .ha := by
  rw [haPairs, List.mem_flatMap]
  constructor
  · rintro ⟨src, hsrc, hmem⟩
    obtain ⟨dst, hdst, heq⟩ := List.mem_map.1 hmem
    obtain ⟨rfl, rfl⟩ := Prod.mk.inj heq
    obtain ⟨hu, hnot⟩ := List.mem_filter.1 hsrc
    obtain ⟨hv, hha⟩ := mem_haActions.1 hdst
    refine ⟨hu, hv, fun h => ?_, hha⟩
    have := mem_haActions.2 ⟨hu, h⟩
    simp only [Bool.not_eq_true', ← Bool.not_eq_true, List.contains_iff_mem] at hnot
    exact hnot this
  · rintro ⟨hu, hv, hnot, hha⟩
    refine ⟨u, List.mem_filter.2 ⟨hu, ?_⟩, List.mem_map.2 ⟨v, mem_haActions.2 ⟨hv, hha⟩, rfl⟩⟩
    simp only [Bool.not_eq_true', ← Bool.not_eq_true, List.contains_iff_mem]
    exact fun h => hnot (mem_haActions.1 h).2

theorem mem_mustPairs {actions : ActionIndex} {must : List (String × String)}
    (h : mustPairs actions = .ok must) {u v : String} : (u, v) ∈ must ↔
      u ∈ actions.keys ∧ ∃ items, mustHappenBefore (actionOf actions u) = .ok items ∧ v ∈ items := by
  obtain ⟨lists, hlists, hmust⟩ := bind_eq_ok.1 h
  obtain rfl := pure_eq_ok.1 hmust
  rw [List.mem_flatten]
  constructor
  · rintro ⟨pairs, hpairs, huv⟩
    obtain ⟨row, hrow, hread⟩ := mem_of_mapM_ok hlists pairs hpairs
    obtain ⟨items, hitems, hpure⟩ := bind_eq_ok.1 hread
    obtain rfl := pure_eq_ok.1 hpure
    obtain ⟨dst, hdst, heq⟩ := List.mem_map.1 huv
    obtain ⟨rfl, rfl⟩ := Prod.mk.inj heq
    rw [actionOf_of_mem hrow]
    exact ⟨List.mem_map_of_mem hrow, items, hitems, hdst⟩
  · rintro ⟨hu, items, hitems, hv⟩
    obtain ⟨pairs, hpairs, hread⟩ := mem_mapM_of_ok hlists (exists_row hu)
    refine ⟨pairs, hpairs, ?_⟩
    rw [hitems] at hread
    obtain rfl := pure_eq_ok.1 hread
    exact List.mem_map_of_mem hv

/-- The edges of the explicit graph. -/
theorem explicitGraph_spec {target : OptimizationTarget} {g : CountedGraph String}
    (h : explicitGraph target (actionIndex target) = .ok g) :
    g.nodes = (actionIndex target).keys ∧ ∀ u v, g.E u v ↔ ExplicitEdge target u v := by
  obtain ⟨must, hmust, hg⟩ := bind_eq_ok.1 h
  obtain rfl := pure_eq_ok.1 hg
  obtain ⟨h1, h2⟩ := foldl_addEdge (hardPairs target ++ must ++ haPairs (actionIndex target))
    (CountedGraph.empty (actionIndex target).keys (actionIndex target).keys_nodup)
  refine ⟨h1, fun u v => ?_⟩
  rw [h2, List.mem_append, List.mem_append, mem_mustPairs hmust, mem_haPairs]
  have hnone : ¬(CountedGraph.empty (actionIndex target).keys
      (actionIndex target).keys_nodup).E u v := by simp [CountedGraph.E, Edge, CountedGraph.empty]
  constructor
  · rintro (h | ⟨h, hne, hu, hv⟩)
    · exact absurd h hnone
    · refine ⟨hne, hu, hv, ?_⟩
      rcases h with (h | h) | h
      · exact .inl h
      · exact .inr (.inl h.2)
      · exact .inr (.inr ⟨h.2.2.1, h.2.2.2⟩)
  · rintro ⟨hne, hu, hv, h⟩
    refine .inr ⟨?_, hne, hu, hv⟩
    rcases h with h | h | h
    · exact .inl (.inl h)
    · exact .inl (.inr ⟨hu, h⟩)
    · exact .inr ⟨hu, hv, h.1, h.2⟩

/-! ## One batch -/

section Batch

variable {policy : NaiveTopoPolicy} {actions : ActionIndex} {latencies : List (String × ℚ)}

/-- The limits of the policy and no conflict. -/
structure Fits (policy : NaiveTopoPolicy) (actions : ActionIndex) (batch : List String) : Prop where
  parallel : (batch.length : ℤ) ≤ policy.maxParallel
  ble : protocolCount actions .ble batch ≤ policy.bleParallel
  cloud : protocolCount actions .cloud batch ≤ policy.cloudParallel
  localNet : protocolCount actions .localNet batch ≤ policy.localParallel
  apart : batch.Pairwise fun a b =>
    sameDeviceConflict (actionOf actions b) (actionOf actions a) = false

theorem fits_of_canJoin {aid : String} {selected : List String} (h : Fits policy actions selected)
    (hjoin : canJoin policy actions aid selected = true) : Fits policy actions (selected ++ [aid]) := by
  obtain ⟨hany, hlimits⟩ := Bool.and_eq_true_iff.1 hjoin
  obtain ⟨h1, h2, h3, h4⟩ := of_decide_eq_true hlimits
  refine ⟨h1, h2, h3, h4, ?_⟩
  refine List.pairwise_append.2 ⟨h.apart, List.pairwise_singleton _ _, fun a ha b hb => ?_⟩
  obtain rfl := List.mem_singleton.1 hb
  simp only [Bool.not_eq_true', List.any_eq_false] at hany
  simpa using hany a ha

/-- The limits are at least one. -/
structure Positive (policy : NaiveTopoPolicy) : Prop where
  maxParallel : 1 ≤ policy.maxParallel
  bleParallel : 1 ≤ policy.bleParallel
  cloudParallel : 1 ≤ policy.cloudParallel
  localParallel : 1 ≤ policy.localParallel

theorem protocolCount_single (actions : ActionIndex) (p : Protocol) (aid : String) :
    protocolCount actions p [aid] ≤ 1 := by
  have := List.length_filter_le (fun a => decide (protocol (actionOf actions a) = p)) [aid]
  rw [protocolCount]
  simp only [List.length_singleton] at this
  exact_mod_cast this

/-- Any action can join an empty selection. -/
theorem canJoin_nil (h : Positive policy) (aid : String) :
    canJoin policy actions aid [] = true := by
  have hcount := fun p => protocolCount_single actions p aid
  simp only [canJoin, List.any_nil, Bool.not_false, Bool.true_and, List.nil_append,
    decide_eq_true_eq]
  refine ⟨?_, (hcount _).trans h.bleParallel, (hcount _).trans h.cloudParallel,
    (hcount _).trans h.localParallel⟩
  simpa using h.maxParallel

theorem takeJoining_spec (rest : List String) : ∀ selected : List String,
    Fits policy actions selected → (selected ++ rest).Nodup →
    let taken := takeJoining policy actions rest selected
    Fits policy actions taken ∧ taken.Nodup ∧ (∀ a ∈ taken, a ∈ selected ++ rest) ∧
      selected.length ≤ taken.length := by
  induction rest with
  | nil => exact fun selected hfit hnd => ⟨hfit, by simpa [takeJoining] using hnd, by simp [takeJoining], le_rfl⟩
  | cons aid rest ih =>
    intro selected hfit hnd
    rw [takeJoining]
    split_ifs with hjoin hempty
    · obtain ⟨h1, h2, h3, h4⟩ := ih (selected ++ [aid]) (fits_of_canJoin hfit hjoin)
        (by simpa using hnd)
      refine ⟨h1, h2, fun a ha => by simpa using h3 a ha, ?_⟩
      rw [List.length_append] at h4
      exact (Nat.le_add_right _ _).trans h4
    · have hsub : (selected ++ rest).Sublist (selected ++ aid :: rest) :=
        (List.sublist_cons_self aid rest).append_left selected
      obtain ⟨h1, h2, h3, h4⟩ := ih selected hfit (hnd.sublist hsub)
      exact ⟨h1, h2, fun a ha => hsub.subset (h3 a ha), h4⟩
    · exact ⟨hfit, (List.nodup_append.1 hnd).1, fun a ha => List.mem_append_left _ ha, le_rfl⟩

/-- A batch: some of the ready actions, within the limits. -/
theorem selectBatch_spec (hpos : Positive policy) (actions : ActionIndex)
    (latencies : List (String × ℚ)) {ready : List String} (hready : ready ≠ [])
    (hnd : ready.Nodup) :
    let batch := selectBatch policy actions latencies ready
    batch ≠ [] ∧ batch.Nodup ∧ (∀ a ∈ batch, a ∈ ready) ∧ Fits policy actions batch := by
  have hperm := sortedBy_perm (readyKey actions latencies) ready
  obtain ⟨aid, rest, hsorted⟩ : ∃ aid rest, sortedBy (readyKey actions latencies) ready =
      aid :: rest := List.exists_cons_of_ne_nil fun h => hready (by
    rw [h] at hperm
    exact hperm.nil_eq.symm)
  have hempty : Fits policy actions [] := by
    obtain ⟨h1, h2, h3, h4⟩ := hpos
    have hzero : ∀ p, protocolCount actions p [] = 0 := fun p => rfl
    refine ⟨?_, ?_, ?_, ?_, List.Pairwise.nil⟩
    · rw [List.length_nil]
      omega
    · rw [hzero]
      omega
    · rw [hzero]
      omega
    · rw [hzero]
      omega
  have hnd' : (aid :: rest).Nodup := hsorted ▸ hperm.nodup_iff.2 hnd
  have hfirst : takeJoining policy actions (aid :: rest) [] =
      takeJoining policy actions rest [aid] := by
    rw [takeJoining, if_pos (canJoin_nil hpos aid)]
    rfl
  obtain ⟨h1, h2, h3, h4⟩ := takeJoining_spec rest [aid]
    (fits_of_canJoin hempty (canJoin_nil hpos aid)) hnd'
  have hne : takeJoining policy actions rest [aid] ≠ [] := by
    intro h
    rw [h] at h4
    simp at h4
  have hselect : selectBatch policy actions latencies ready =
      takeJoining policy actions rest [aid] := by
    rw [selectBatch, hsorted, hfirst]
    exact if_neg (by simpa using hne)
  intro batch
  show selectBatch policy actions latencies ready ≠ [] ∧ _
  rw [show batch = _ from hselect, hselect]
  refine ⟨hne, h2, fun a ha => ?_, h1⟩
  have := h3 a ha
  rw [List.singleton_append, ← hsorted] at this
  exact hperm.mem_iff.1 this

end Batch

/-! ## Runs -/

section Runs

variable {policy : NaiveTopoPolicy} {actions : ActionIndex} {latencies : List (String × ℚ)}
  {g : CountedGraph String}

/-- A batch that is not empty adds to the nodes done. -/
theorem length_done_lt {f : Frontier String} (h : f.Inv g) {batch : List String}
    (hne : batch ≠ []) (hnd : batch.Nodup) (hsub : ∀ a ∈ batch, a ∈ f.ready) :
    f.done.length < (f.completeAll g batch).done.length := by
  obtain ⟨hinv, hdone⟩ := h.completeAll hnd hsub
  obtain ⟨a, ha⟩ := List.exists_mem_of_ne_nil batch hne
  have hsub' : (a :: f.done).Subset (f.completeAll g batch).done := by
    intro w hw
    rcases List.mem_cons.1 hw with rfl | hw
    · exact (hdone w).2 (.inl ha)
    · exact (hdone w).2 (.inr hw)
  have hnd' : (a :: f.done).Nodup :=
    List.nodup_cons.2 ⟨h.ready_not_done (hsub a ha), h.done_nodup⟩
  have := (hnd'.subperm hsub').length_le
  rw [List.length_cons] at this
  omega

theorem all_done {f : Frontier String} (h : f.Inv g) (hlen : g.nodes.length ≤ f.done.length) :
    ∀ v ∈ g.nodes, v ∈ f.done := by
  have hperm := (h.done_nodup.subperm h.done_sub).perm_of_length_le hlen
  exact fun v hv => hperm.mem_iff.2 hv

/-- A run that returns is a complete run of batches that fit. -/
theorem scheduleLoop_ok (hpos : Positive policy) : ∀ (fuel : ℕ) (f : Frontier String)
    (batches : List (List String)), f.Inv g → g.nodes.length ≤ f.done.length + fuel →
    scheduleLoop policy actions latencies g fuel f = .ok batches →
    (∃ f', BatchRun g f batches f' ∧ ∀ v ∈ g.nodes, v ∈ f'.done) ∧
      ∀ b ∈ batches, Fits policy actions b := by
  intro fuel
  induction fuel with
  | zero =>
    intro f batches hinv hlen h
    obtain rfl : [] = batches := Except.ok.inj h
    exact ⟨⟨f, .nil f, all_done hinv hlen⟩, by simp⟩
  | succ fuel ih =>
    intro f batches hinv hlen h
    rw [scheduleLoop] at h
    split_ifs at h with hdone hready
    · obtain rfl : [] = batches := Except.ok.inj h
      exact ⟨⟨f, .nil f, all_done hinv hdone⟩, by simp⟩
    · obtain ⟨hne, hnd, hsub, hfit⟩ := selectBatch_spec hpos actions latencies (by simpa using hready) hinv.ready_nodup
      obtain ⟨rest, hrest, hpure⟩ := bind_eq_ok.1 h
      obtain rfl := pure_eq_ok.1 hpure
      have hgrow := length_done_lt hinv hne hnd hsub
      obtain ⟨⟨f', hrun, hall⟩, hfits⟩ := ih _ rest (hinv.completeAll hnd hsub).1 (by omega) hrest
      refine ⟨⟨f', .cons hnd hsub hrun, hall⟩, fun b hb => ?_⟩
      rcases List.mem_cons.1 hb with rfl | hb
      · exact hfit
      · exact hfits b hb

/-- In an acyclic graph the run returns. -/
theorem scheduleLoop_acyclic (hpos : Positive policy) (hac : Acyclic g.E) :
    ∀ (fuel : ℕ) (f : Frontier String), f.Inv g →
    ∃ batches, scheduleLoop policy actions latencies g fuel f = .ok batches := by
  intro fuel
  induction fuel with
  | zero => exact fun f _ => ⟨[], rfl⟩
  | succ fuel ih =>
    intro f hinv
    rw [scheduleLoop]
    by_cases hdone : g.nodes.length ≤ f.done.length
    · exact ⟨[], if_pos hdone⟩
    · -- some action is not done, and a ready action comes before it
      have hready : f.ready ≠ [] := by
        intro hnil
        have hex : ∃ u ∈ g.nodes, u ∉ f.done := by
          by_contra hall
          push Not at hall
          exact hdone (g.nodup_nodes.subperm hall).length_le
        obtain ⟨u, hu, hud⟩ := hex
        obtain ⟨v, hv, -⟩ := hinv.exists_ready_reaching hac hu hud
        rw [hnil] at hv
        exact absurd hv List.not_mem_nil
      obtain ⟨-, hnd, hsub, -⟩ := selectBatch_spec hpos actions latencies hready hinv.ready_nodup
      obtain ⟨rest, hrest⟩ := ih _ (hinv.completeAll hnd hsub).1
      rw [if_neg hdone, if_neg (by simpa using hready)]
      dsimp only
      rw [hrest]
      exact ⟨_, rfl⟩

end Runs

/-! ## Plans -/

/-- A plan that works through the explicit order of a target within the limits of a policy. -/
structure SoundPlan (policy : NaiveTopoPolicy) (target : OptimizationTarget)
    (plan : ExecutionPlan) : Prop where
  once : (plan.orderedBatches.flatMap fun b => b.parallelGroups.flatten).Perm
    ((actionIds target).map (·.1))
  order : ∀ u v, ExplicitEdge target u v → ∀ (i j : ℕ) (b c : Batch),
    plan.orderedBatches[i]? = some b → plan.orderedBatches[j]? = some c →
    u ∈ b.parallelGroups.flatten → v ∈ c.parallelGroups.flatten → i < j
  limits : ∀ b ∈ plan.orderedBatches,
    (b.parallelGroups.flatten.length : ℤ) ≤ policy.maxParallel ∧
    protocolCount (actionIndex target) .ble b.parallelGroups.flatten ≤ policy.bleParallel ∧
    protocolCount (actionIndex target) .cloud b.parallelGroups.flatten ≤ policy.cloudParallel ∧
    protocolCount (actionIndex target) .localNet b.parallelGroups.flatten ≤ policy.localParallel
  apart : ∀ b ∈ plan.orderedBatches, ∀ u ∈ b.parallelGroups.flatten,
    ∀ v ∈ b.parallelGroups.flatten, u ≠ v →
    targetKey (actionOf (actionIndex target) u) ≠ "" →
    targetKey (actionOf (actionIndex target) u) = targetKey (actionOf (actionIndex target) v) →
    readOnly (actionOf (actionIndex target) u) = true ∧
      readOnly (actionOf (actionIndex target) v) = true

theorem sameDeviceConflict_eq_false {left right : Dict} :
    sameDeviceConflict left right = false ↔
      (targetKey left ≠ "" → targetKey left = targetKey right →
        readOnly left = true ∧ readOnly right = true) := by
  simp only [sameDeviceConflict]
  split_ifs with h
  · simp only [true_iff]
    exact fun hne heq => absurd heq (h.resolve_left hne)
  · push Not at h
    have hright : targetKey right ≠ "" := h.2 ▸ h.1
    simp [h.2, hright]

/-- A conflict is mutual. -/
theorem sameDeviceConflict_symm {left right : Dict} (h : sameDeviceConflict left right = false) :
    sameDeviceConflict right left = false := by
  rw [sameDeviceConflict_eq_false] at h ⊢
  intro hne heq
  exact (h (heq ▸ hne) heq.symm).symm

/-- Where the ids are distinct, the index lists all of them. -/
theorem keys_actionIndex {target : OptimizationTarget}
    (hids : ((actionIds target).map fun row => strip row.1).Nodup) :
    (actionIndex target).keys.Perm ((actionIds target).map (·.1)) := by
  have hnd : ((actionIds target).map (·.1)).Nodup := by
    have hmap : ((actionIds target).map fun row => strip row.1) =
        ((actionIds target).map (·.1)).map strip := by
      rw [List.map_map]
      rfl
    rw [hmap] at hids
    exact hids.of_map
  exact (List.perm_ext_iff_of_nodup (actionIndex target).keys_nodup hnd).2
    fun a => OrderedDict.mem_keys_ofList

/-- The plan with given batches. -/
def planOf (batches : List (List String)) : ExecutionPlan where
  orderedBatches := batches.mapIdx fun idx selected =>
    { batchId := batchId idx, parallelGroups := [selected] }

theorem getElem?_planOf {batches : List (List String)} {i : ℕ} {b : Batch}
    (h : (planOf batches).orderedBatches[i]? = some b) :
    batches[i]? = some b.parallelGroups.flatten := by
  rw [planOf, List.getElem?_mapIdx] at h
  obtain ⟨selected, hsel, rfl⟩ := Option.map_eq_some_iff.1 h
  simpa using hsel

theorem map_planOf (batches : List (List String)) :
    (planOf batches).orderedBatches.map (fun b => b.parallelGroups.flatten) = batches := by
  refine List.ext_getElem? fun i => ?_
  rw [planOf, List.getElem?_map, List.getElem?_mapIdx, Option.map_map]
  simp [Function.comp_def]

/-- A complete run of fitting batches is a sound plan. -/
theorem soundPlan_of_run {policy : NaiveTopoPolicy} {target : OptimizationTarget}
    {g : CountedGraph String} (hids : ((actionIds target).map fun row => strip row.1).Nodup)
    (hg : explicitGraph target (actionIndex target) = .ok g) {batches : List (List String)}
    {f' : Frontier String} (hrun : BatchRun g (Frontier.start g) batches f')
    (hall : ∀ v ∈ g.nodes, v ∈ f'.done)
    (hfits : ∀ b ∈ batches, Fits policy (actionIndex target) b) :
    SoundPlan policy target (planOf batches) := by
  obtain ⟨hnodes, hedges⟩ := explicitGraph_spec hg
  have hmem : ∀ b ∈ (planOf batches).orderedBatches, b.parallelGroups.flatten ∈ batches := by
    intro b hb
    obtain ⟨i, hi⟩ := List.mem_iff_getElem?.1 hb
    exact List.mem_of_getElem? (getElem?_planOf hi)
  constructor
  · rw [List.flatMap_def, map_planOf]
    exact (hrun.perm hall).trans (hnodes ▸ keys_actionIndex hids)
  · intro u v huv i j b c hi hj hu hv
    exact hrun.edge_index_lt ((hedges u v).2 huv) (getElem?_planOf hi) (getElem?_planOf hj) hu hv
  · intro b hb
    obtain ⟨h1, h2, h3, h4, -⟩ := hfits _ (hmem b hb)
    exact ⟨h1, h2, h3, h4⟩
  · intro b hb u hu v hv huv
    -- whichever of the two joined the other, the conflict is mutual
    have hsymm : Std.Symm fun a b => sameDeviceConflict (actionOf (actionIndex target) b)
        (actionOf (actionIndex target) a) = false := ⟨fun _ _ h => sameDeviceConflict_symm h⟩
    exact sameDeviceConflict_eq_false.1
      (sameDeviceConflict_symm ((hfits _ (hmem b hb)).apart.forall hu hv huv))

/-! ## The verdict -/

/-- Every declared order is a list of ids and every latency a number. -/
structure Readable (target : OptimizationTarget) (runtimeMetrics : Dict) : Prop where
  order : ∀ row ∈ (actionIndex target).rows, ∃ items, mustHappenBefore row.2 = .ok items
  latency : ∀ row ∈ (actionIndex target).rows, ∃ q : ℚ,
    (((runtimeMetrics.get "latency_ms").asDict).getD row.1
      (defaultLatency (protocol row.2))).toFloat = .ok q

/-- The default latencies are numbers. -/
theorem readable_nil {target : OptimizationTarget} :
    Readable target [] ↔
      ∀ row ∈ (actionIndex target).rows, ∃ items, mustHappenBefore row.2 = .ok items := by
  refine ⟨fun h => h.order, fun h => ⟨h, fun row _ => ?_⟩⟩
  cases protocol row.2 <;> exact ⟨_, rfl⟩

theorem explicitGraph_ok_iff {target : OptimizationTarget} :
    (∃ g, explicitGraph target (actionIndex target) = .ok g) ↔
      ∀ row ∈ (actionIndex target).rows, ∃ items, mustHappenBefore row.2 = .ok items := by
  constructor
  · rintro ⟨g, hg⟩ row hrow
    obtain ⟨must, hmust, -⟩ := bind_eq_ok.1 hg
    obtain ⟨lists, hlists, -⟩ := bind_eq_ok.1 hmust
    obtain ⟨pairs, -, hread⟩ := mem_mapM_of_ok hlists hrow
    obtain ⟨items, hitems, -⟩ := bind_eq_ok.1 hread
    exact ⟨items, hitems⟩
  · intro h
    obtain ⟨lists, hlists⟩ : ∃ lists, (actionIndex target).rows.mapM (fun row => do
        let items ← mustHappenBefore row.2
        return items.map fun dst => (row.1, dst)) = .ok lists := by
      refine exists_mapM_ok fun row hrow => ?_
      obtain ⟨items, hitems⟩ := h row hrow
      exact ⟨_, by rw [hitems]; rfl⟩
    exact ⟨_, by rw [explicitGraph, mustPairs, hlists]; rfl⟩

theorem latencyMs_ok_iff {target : OptimizationTarget} {runtimeMetrics : Dict} :
    (∃ latencies, latencyMs (actionIndex target) runtimeMetrics = .ok latencies) ↔
      ∀ row ∈ (actionIndex target).rows, ∃ q : ℚ,
        (((runtimeMetrics.get "latency_ms").asDict).getD row.1
          (defaultLatency (protocol row.2))).toFloat = .ok q := by
  constructor
  · rintro ⟨latencies, h⟩ row hrow
    obtain ⟨pair, -, hread⟩ := mem_mapM_of_ok h hrow
    obtain ⟨q, hq, -⟩ := bind_eq_ok.1 hread
    exact ⟨q, hq⟩
  · intro h
    refine exists_mapM_ok fun row hrow => ?_
    obtain ⟨q, hq⟩ := h row hrow
    exact ⟨_, by rw [hq]; rfl⟩

/-- What the scheduler cannot read, it raises. -/
theorem schedule_unreadable (policy : NaiveTopoPolicy) {target : OptimizationTarget}
    {runtimeMetrics : Dict} (h : ¬Readable target runtimeMetrics) :
    ∃ e, schedule policy target runtimeMetrics = .error (.python e) := by
  cases hg : explicitGraph target (actionIndex target) with
  | error e => exact ⟨e, by rw [schedule, hg]; rfl⟩
  | ok g =>
    cases hl : latencyMs (actionIndex target) runtimeMetrics with
    | error e => exact ⟨e, by rw [schedule, hg, hl]; rfl⟩
    | ok latencies =>
      exact absurd ⟨explicitGraph_ok_iff.1 ⟨g, hg⟩, latencyMs_ok_iff.1 ⟨latencies, hl⟩⟩ h

/-- The only error of the loop is the blocked order. -/
theorem scheduleLoop_error {policy : NaiveTopoPolicy} {actions : ActionIndex}
    {latencies : List (String × ℚ)} {g : CountedGraph String} : ∀ (fuel : ℕ)
    (f : Frontier String) (e : NaiveError),
    scheduleLoop policy actions latencies g fuel f = .error e → ∃ ids, e = .blocked ids := by
  intro fuel
  induction fuel with
  | zero => exact fun f e h => nomatch h
  | succ fuel ih =>
    intro f e h
    rw [scheduleLoop] at h
    split_ifs at h with hdone hready
    · exact ⟨_, (Except.error.inj h).symm⟩
    · dsimp only at h
      cases hrest : scheduleLoop policy actions latencies g fuel
          (f.completeAll g (selectBatch policy actions latencies f.ready)) with
      | error e' =>
        rw [hrest] at h
        obtain rfl : e' = e := Except.error.inj h
        exact ih _ _ hrest
      | ok rest =>
        rw [hrest] at h
        exact nomatch h

/-- The naive scheduler raises exactly on the cycles of the explicit order, and its plans are
sound. -/
theorem schedule_sound (policy : NaiveTopoPolicy) (target : OptimizationTarget)
    (runtimeMetrics : Dict) (hpos : Positive policy)
    (hids : ((actionIds target).map fun row => strip row.1).Nodup) :
    (¬Readable target runtimeMetrics →
      ∃ e, schedule policy target runtimeMetrics = .error (.python e)) ∧
    (Readable target runtimeMetrics → Cyclic (ExplicitEdge target) →
      ∃ unresolved, schedule policy target runtimeMetrics = .error (.blocked unresolved)) ∧
    (Readable target runtimeMetrics → Acyclic (ExplicitEdge target) →
      ∃ plan, schedule policy target runtimeMetrics = .ok plan ∧
        SoundPlan policy target plan) := by
  refine ⟨schedule_unreadable policy, ?_⟩
  by_cases hread : Readable target runtimeMetrics
  swap
  · exact ⟨fun h => absurd h hread, fun h => absurd h hread⟩
  obtain ⟨g, hg⟩ := explicitGraph_ok_iff.2 hread.order
  obtain ⟨latencies, hl⟩ := latencyMs_ok_iff.2 hread.latency
  obtain ⟨hnodes, hedges⟩ := explicitGraph_spec hg
  have hsched : schedule policy target runtimeMetrics =
      (scheduleLoop policy (actionIndex target) latencies g (actionIndex target).keys.length
        (Frontier.start g)).map planOf := by
    rw [schedule, hg, hl]
    show (scheduleLoop policy (actionIndex target) latencies g (actionIndex target).keys.length
      (Frontier.start g) >>= fun batches => pure (planOf batches)) = _
    cases scheduleLoop policy (actionIndex target) latencies g (actionIndex target).keys.length
      (Frontier.start g) <;> rfl
  have hfuel : g.nodes.length ≤
      (Frontier.start g).done.length + (actionIndex target).keys.length := by
    rw [hnodes]
    exact Nat.le_add_left _ _
  refine ⟨fun _ hcyc => ?_, fun _ hac => ?_⟩
  · cases hloop : scheduleLoop policy (actionIndex target) latencies g
        (actionIndex target).keys.length (Frontier.start g) with
    | error e =>
      obtain ⟨ids, rfl⟩ := scheduleLoop_error _ _ _ hloop
      exact ⟨ids, by rw [hsched, hloop]; rfl⟩
    | ok batches =>
      -- a complete run leaves no cycle
      obtain ⟨⟨f', hrun, hall⟩, -⟩ := scheduleLoop_ok hpos _ _ _ (Frontier.inv_start g) hfuel hloop
      obtain ⟨v, hv⟩ := hcyc
      exact absurd (TransGen.mono (fun a b h => (hedges a b).2 h) v v hv) (hrun.acyclic hall v)
  · obtain ⟨batches, hloop⟩ : ∃ batches, scheduleLoop policy (actionIndex target) latencies g
        (actionIndex target).keys.length (Frontier.start g) = .ok batches :=
      scheduleLoop_acyclic hpos (hac.mono fun a b h => (hedges a b).1 h)
        (actionIndex target).keys.length (Frontier.start g) (Frontier.inv_start g)
    obtain ⟨⟨f', hrun, hall⟩, hfits⟩ :=
      scheduleLoop_ok hpos _ _ _ (Frontier.inv_start g) hfuel hloop
    exact ⟨planOf batches, by rw [hsched, hloop]; rfl,
      soundPlan_of_run hids hg hrun hall hfits⟩

/-- A report that is declared before the lamp it waits for. -/
def sampleTarget : OptimizationTarget where
  vdevActions :=
    [[("action_id", .str "report"), ("protocol", .str "CLOUD")],
      [("action_id", .str "lamp"), ("protocol", .str "LOCAL")]]
  hardDependencies := [[("before", .str "lamp"), ("after", .str "report")]]

theorem mem_vdevActions {target : OptimizationTarget} {row : String × Dict}
    (h : row ∈ (actionIndex target).rows) : row.2 ∈ target.vdevActions := by
  have hrow := OrderedDict.mem_of_get?_ofList (OrderedDict.get?_of_mem_rows h)
  obtain ⟨action, haction, heq⟩ := List.mem_map.1 hrow
  obtain ⟨-, h2⟩ := Prod.mk.inj heq
  exact h2 ▸ List.mem_of_mem_filter haction

theorem edge_sampleTarget {u v : String} (h : ExplicitEdge sampleTarget u v) :
    u = "lamp" ∧ v = "report" := by
  obtain ⟨-, hu, hv, h⟩ := h
  have hquiet : ∀ w ∈ (actionIndex sampleTarget).keys,
      mustHappenBefore (actionOf (actionIndex sampleTarget) w) = .ok [] ∧
        protocol (actionOf (actionIndex sampleTarget) w) ≠ .ha := by
    intro w hw
    have hdeclared : actionOf (actionIndex sampleTarget) w ∈ sampleTarget.vdevActions :=
      mem_vdevActions (exists_row hw)
    rcases List.mem_pair.1 hdeclared with h | h
    · rw [h]
      exact ⟨rfl, by decide +kernel⟩
    · rw [h]
      exact ⟨rfl, by decide +kernel⟩
  rcases h with h | ⟨items, hitems, hmem⟩ | ⟨-, hha⟩
  · exact Prod.mk.inj (List.mem_singleton.1 h)
  · obtain rfl := Except.ok.inj ((hquiet u hu).1.symm.trans hitems)
    exact absurd hmem List.not_mem_nil
  · exact absurd hha (hquiet v hv).2

theorem schedule_sampleTarget : ∃ plan, schedule {} sampleTarget [] = .ok plan ∧
    SoundPlan {} sampleTarget plan := by
  refine (schedule_sound {} sampleTarget [] ⟨by decide, by decide, by decide, by decide⟩
    (by decide +kernel)).2.2 (readable_nil.2 fun row hrow => ?_) fun v hv => ?_
  · rcases List.mem_pair.1 (mem_vdevActions hrow) with h | h
    · exact ⟨[], by rw [h]; rfl⟩
    · exact ⟨[], by rw [h]; rfl⟩
  · obtain ⟨w, hvw, -⟩ := TransGen.head'_iff.1 hv
    obtain ⟨x, -, hxv⟩ := TransGen.tail'_iff.1 hv
    have hlamp := (edge_sampleTarget hvw).1
    have hreport := (edge_sampleTarget hxv).2
    exact absurd (hlamp.symm.trans hreport) (by decide)

end FloWeaver.Naive
