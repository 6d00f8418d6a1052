import FloWeaver.Scheduler.PlanFacts
import Mathlib.Data.List.Permutation

/-!
# Minimal gaps and soft orders

A minimal gap is a rule for one direction: the second end is not admitted behind the first one
in a batch, but the first end may join a batch that holds the second.  A soft order over MSSUs
reaches the scheduler as an order of the actions in which the target declares them.

* `minGap_honoured` — what a gap between two actions means for their batches.
* `reversedGap_sharesBatch` — the two ends of a gap in one batch.
* `softOrder_declared` — the pair that a soft order of the graph gives.
* `softOrder_reversed` — a soft order against the declaration order is turned around.
-/

namespace FloWeaver.Scheduler

open Py DepGraph

variable {base : SchedulerPolicy} {dag : TypedDAG} {metrics : Dict} {target : OptimizationTarget}
  {ctx : Ctx} {plan : ExecutionPlan} {steps : List BatchStep} {index : ActionIndex}

/-! ## Minimal gaps -/

theorem le_foldl_max (l : List ℤ) (init : ℤ) :
    init ≤ l.foldl max init ∧ ∀ x ∈ l, x ≤ l.foldl max init := by
  induction l generalizing init with
  | nil => simp
  | cons y l ih =>
    obtain ⟨h1, h2⟩ := ih (max init y)
    rw [List.foldl_cons]
    refine ⟨(le_max_left _ _).trans h1, fun x hx => ?_⟩
    rcases List.mem_cons.1 hx with rfl | hx
    · exact (le_max_right _ _).trans h1
    · exact h2 x hx

/-- The gap of a batch is at least that of every rule of the batch. -/
theorem le_minGapBeforeMs {s : BatchStep} {row : String × String × ℤ}
    (h : row ∈ minGapRules ctx s) : row.2.2 ≤ minGapBeforeMs ctx s := by
  have hmem : row.2.2 ∈ (minGapRules ctx s).map (·.2.2) := List.mem_map_of_mem h
  unfold minGapBeforeMs
  split
  · rename_i hnil
    simp [hnil] at hmem
  · rename_i gap gaps hcons
    rw [hcons] at hmem
    obtain ⟨h1, h2⟩ := le_foldl_max gaps gap
    rcases List.mem_cons.1 hmem with heq | hmem
    · exact heq ▸ h1
    · exact h2 _ hmem

theorem mem_minGapByAfter {before after : String} {gap : ℤ}
    (h : ctx.derived.minGapPairs.get? (before, after) = some gap) :
    (before, gap) ∈ ctx.minGapByAfter after := by
  have hrow := OrderedDict.mem_rows_of_get? h
  refine List.mem_map.2 ⟨((before, after), gap), List.mem_filter.2 ⟨?_, by simp⟩, rfl⟩
  exact (List.mem_insertionSort _).2 hrow

namespace CompleteRun

/-- The second end of a gap is never picked behind the first one. -/
theorem not_picked_after (h : CompleteRun ctx steps) {before after : String} {gap : ℤ}
    (hgap : ctx.derived.minGapPairs.get? (before, after) = some gap) {s : BatchStep}
    (hs : s ∈ steps) : ¬ [before, after].Sublist s.selection.selected := by
  obtain ⟨hready, -, heq⟩ := h.step hs
  have hw : Within ctx s.selection.selected := heq ▸ selectBatch_within h.limits hready
  intro hsub
  refine List.pairwise_iff_forall_sublist.1 hw.minGap hsub ?_
  exact List.mem_map_of_mem (OrderedDict.mem_rows_of_get? hgap)

/-- A batch waits for the gap of an action that an earlier batch did. -/
theorem le_min_gap_before_ms (h : CompleteRun ctx steps) {before after : String} {gap : ℤ}
    (hgap : ctx.derived.minGapPairs.get? (before, after) = some gap) {i j : ℕ} (hij : i < j)
    (hi : InBatch (assemblePlan ctx steps) i before) {batch : Batch}
    (hj : (assemblePlan ctx steps).orderedBatches[j]? = some batch)
    (ha : after ∈ batch.parallelGroups.flatten) :
    ∃ ms, Dict.get batch.ratePolicy "min_gap_before_ms" = .int ms ∧ gap ≤ ms := by
  rw [assemblePlan_getElem?] at hj
  obtain ⟨s, hs, rfl⟩ := Option.map_eq_some_iff.1 hj
  have hsel : after ∈ s.selection.selected :=
    (mem_buildParallelGroups (h.nodup (List.mem_of_getElem? hs))).1 ha
  have hdone : before ∈ s.before.done := (h.before_done hs before).2 ⟨i, hij, hi⟩
  have hrow : (before, gap) ∈ (ctx.minGapByAfter after).filter fun row =>
      s.before.done.contains row.1 :=
    List.mem_filter.2 ⟨mem_minGapByAfter hgap, by simpa using hdone⟩
  have hrule : (before, after, gap) ∈ minGapRules ctx s :=
    List.mem_flatMap.2 ⟨after, hsel, List.mem_map_of_mem hrow⟩
  exact ⟨minGapBeforeMs ctx s, rfl, le_minGapBeforeMs hrule⟩

end CompleteRun

/-- Two local actions, declared `a` and `b`; a baseline run showed `b` first. -/
def hintedTarget : OptimizationTarget where
  vdevActions := [[("action_id", .str "a"), ("protocol", .str "LOCAL")],
    [("action_id", .str "b"), ("protocol", .str "LOCAL")]]
  validation := [("observation", .dict [("baseline_order_hints",
    .dict [("action_order", .dict [("a", .int 1), ("b", .int 0)])])])]

/-- A gap of 250 ms from `a` to `b`. -/
def gapDag : TypedDAG where
  softConstraints := [{ kind := SoftConstraintKind.minGap, scope := ["a", "b"]
                        params := [("gap_ms", .int 250)], fallback := "" }]

theorem derivedPolicy_gap : ∃ policy derived,
    effectivePolicy {} [] hintedTarget = .ok policy ∧
      derivedPolicy policy gapDag [] hintedTarget = .ok derived ∧
      derived.minGapPairs.get? ("a", "b") = some 250 := by
  have h : (effectivePolicy {} [] hintedTarget >>= fun policy =>
      derivedPolicy policy gapDag [] hintedTarget).toOption.bind
        (·.minGapPairs.get? ("a", "b")) = some 250 := by decide +kernel
  obtain ⟨derived, hd, hgap⟩ := Option.bind_eq_some_iff.1 h
  cases hb : (effectivePolicy {} [] hintedTarget >>= fun policy =>
      derivedPolicy policy gapDag [] hintedTarget) with
  | error e => simp [hb, Except.toOption] at hd
  | ok d =>
    obtain ⟨policy, hp, hdp⟩ := bind_eq_ok.1 hb
    obtain rfl : d = derived := by simpa [hb, Except.toOption] using hd
    exact ⟨policy, d, hp, hdp, hgap⟩

/-- The two actions in the order of their declaration. -/
def declaredPair (index : ActionIndex) (a b : String) : String × String :=
  if declarationKey index a < declarationKey index b then (a, b) else (b, a)

/-- Two actions sorted by declaration. -/
theorem orderedScope_pair (index : ActionIndex) {actions : List String} {a b : String} (hne : a ≠ b)
    (hperm : actions.Perm [a, b]) (ha : a ≠ "") (hb : b ≠ "") :
    orderedScope index actions = [(declaredPair index a b).1, (declaredPair index a b).2] := by
  have hkeep : actions.filter (· ≠ "") = actions := by
    refine List.filter_eq_self.2 fun x hx => ?_
    rcases List.mem_pair.1 (hperm.mem_iff.1 hx) with rfl | rfl <;> simpa
  have hnd : actions.Nodup := hperm.nodup_iff.2 (by simpa using hne)
  have hsorted : (orderedScope index actions).Perm [a, b] := by
    rw [orderedScope, hkeep, hnd.dedup]
    exact (sortedBy_perm _ _).trans hperm
  have hord := pairwise_sortedBy (declarationKey index) ((actions.filter (· ≠ "")).dedup)
  have hkey : declarationKey index a ≠ declarationKey index b := fun h =>
    hne (congrArg (fun k => (ofLex k).2) h)
  rw [← orderedScope] at hord
  unfold declaredPair
  rcases List.perm_pair.1 hsorted with h | h <;> rw [h] at hord ⊢
  all_goals
    have hle := (List.pairwise_cons.1 hord).1 _ (List.mem_singleton_self _)
    split_ifs with hlt
  · rfl
  · exact absurd (lt_of_le_of_ne hle hkey) hlt
  · exact absurd hlt (not_lt.2 hle)
  · rfl

/-- A soft order over two actions is not rewritten. -/
theorem rewrite_pair (kind guard fallback : String) (a b : String) (params : Dict) :
    rewriteControlDepWritebackScope index kind [a, b] params guard fallback = none := by
  unfold rewriteControlDepWritebackScope
  dsimp only
  split_ifs with hif
  · split
    · -- one of the two is the writeback, so the other one alone depends on it
      rename_i writebackId hwb
      simp only [Bool.and_eq_true, decide_eq_true_eq] at hif
      have htwo := hif.1.1.2
      rw [hwb] at htwo
      have hmem : writebackId ∈ [a, b] := by
        have : writebackId ∈ [writebackId] := List.mem_singleton_self _
        rw [← hwb] at this
        exact (List.mem_filter.1 this).1
      have hlt : ([a, b].filter fun x => !([writebackId] : List String).contains x &&
          index.keys.contains x).length < [a, b].length :=
        List.length_filter_lt_length_iff_exists.2 ⟨writebackId, hmem, by simp⟩
      simp only [List.length_cons, List.length_nil] at hlt
      omega
    · rfl
  · rfl

theorem mssuToActions_ne_empty {mssuId a : String} (h : a ∈ mssuToActions dag mssuId) :
    a ≠ "" := by
  unfold mssuToActions at h
  cases hg : dag.nodes.get? mssuId with
  | none => simp [hg] at h
  | some mssu =>
    simp only [hg, Option.map_some, Option.getD_some, mssuActionRefs, List.mem_dedup,
      List.mem_filter, decide_eq_true_eq] at h
    exact h.2

theorem scopeActions_ne_empty {scope : List String} {a : String}
    (h : a ∈ scopeActions dag (actionIndex target) scope) : a ≠ "" := by
  rw [scopeActions, List.mem_dedup, List.mem_flatMap] at h
  obtain ⟨nodeId, -, h⟩ := h
  rcases List.mem_append.1 h with h | h
  · split_ifs at h with hkey
    · rw [List.mem_singleton.1 h]
      exact actionIndex_ne_empty (by simpa using hkey)
    · exact absurd h List.not_mem_nil
  · exact mssuToActions_ne_empty h

/-- The actions of two MSSUs with one action each. -/
theorem scopeActions_pair {s d a b : String} (hs : scopeActions dag index [s] = [a])
    (hd : scopeActions dag index [d] = [b]) (hne : a ≠ b) :
    (scopeActions dag index [s, d]).Perm [a, b] := by
  refine (List.perm_ext_iff_of_nodup (List.nodup_dedup _) (by simpa using hne)).2 fun x => ?_
  have h1 : x ∈ scopeActions dag index [s] ↔ x = a := by rw [hs, List.mem_singleton]
  have h2 : x ∈ scopeActions dag index [d] ↔ x = b := by rw [hd, List.mem_singleton]
  rw [List.mem_pair, ← h1, ← h2]
  simp only [scopeActions, List.mem_dedup, List.flatMap_cons, List.flatMap_nil, List.append_nil,
    List.mem_append]

/-- A soft order over two such MSSUs becomes one over their actions, as declared. -/
theorem projectSoftConstraint_pair {c : SoftConstraint} {s d a b : String}
    (hkind : c.kind = SoftConstraintKind.softOrder) (hscope : c.scope = [s, d])
    (hs : scopeActions dag (actionIndex target) [s] = [a])
    (hd : scopeActions dag (actionIndex target) [d] = [b]) (hne : a ≠ b) :
    projectSoftConstraint dag (actionIndex target) c =
      [{ c with scope := [(declaredPair (actionIndex target) a b).1,
                          (declaredPair (actionIndex target) a b).2] }] := by
  have hperm := scopeActions_pair hs hd hne
  have hord := orderedScope_pair (actionIndex target) hne hperm
    (scopeActions_ne_empty (hs ▸ List.mem_singleton_self a))
    (scopeActions_ne_empty (hd ▸ List.mem_singleton_self b))
  have hnil : (scopeActions dag (actionIndex target) [s, d]).isEmpty = false := by
    rw [List.isEmpty_eq_false_iff]
    intro he
    simpa [he] using hperm.length_eq
  have hgap : upper (strip c.kind) ≠ SoftConstraintKind.minGap := by
    rw [hkind]
    decide +kernel
  unfold projectSoftConstraint
  simp only [hscope, hord, hnil, hgap, rewrite_pair, decide_false, Bool.false_and, Bool.or_self,
    Bool.false_eq_true, if_false]

/-- What a soft order over two actions does to the orders, whatever its fallback. -/
theorem deriveStep_softOrder {c : SoftConstraint} {x y : String}
    (hkind : c.kind = SoftConstraintKind.softOrder) (hscope : c.scope = [x, y]) (hx : x ≠ "")
    (hy : y ≠ "") (hguard : guardActive c.guard metrics = .ok true)
    {d d' : DerivedConstraintPolicy} (h : deriveStep metrics d c = .ok d') :
    d'.softOrderPairs = d.softOrderPairs.insert (x, y) := by
  obtain ⟨mode, -, h⟩ := bind_eq_ok.1 h
  obtain ⟨active, hactive, h⟩ := bind_eq_ok.1 h
  obtain rfl : true = active := Except.ok.inj (hguard.symm.trans hactive)
  dsimp only at h
  rw [if_pos (by simp)] at h
  obtain ⟨d1, hc, hf⟩ := bind_eq_ok.1 h
  have hpairs : d1.softOrderPairs = d.softOrderPairs.insert (x, y) := by
    have hscope' : c.scope.filter (· ≠ "") = [x, y] := by simp [hscope, hx, hy]
    rw [applyConstraint_softOrder hkind, hscope'] at hc
    rw [← Except.ok.inj hc]
    rfl
  unfold fallbackAfter at hf
  split_ifs at hf
  · simp only [applyFallback, bind_eq_ok, pure_eq_ok] at hf
    obtain ⟨_, -, rfl⟩ := hf
    rw [fallbackEffects_softOrderPairs]
    exact hpairs
  · obtain rfl := pure_eq_ok.1 hf
    exact hpairs

/-- **A soft order becomes an order in declaration order.**  A constraint of the graph over two
MSSUs with one action each, whose guard holds, gives the pair of the two actions as the target
declares them, and nothing else: not the pair in the direction of the constraint when that is
the other one. -/
theorem softOrder_declared {c : SoftConstraint} {policy : SchedulerPolicy}
    {derived : DerivedConstraintPolicy} {s d a b : String} (hc : c ∈ dag.softConstraints)
    (hkind : c.kind = SoftConstraintKind.softOrder) (hscope : c.scope = [s, d])
    (hs : scopeActions dag (actionIndex target) [s] = [a])
    (hd : scopeActions dag (actionIndex target) [d] = [b]) (hne : a ≠ b)
    (hguard : guardActive c.guard metrics = .ok true)
    (hderived : derivePolicyFromConstraints policy
      (projectSoftConstraints dag (actionIndex target) target) metrics target = .ok derived) :
    declaredPair (actionIndex target) a b ∈ derived.softOrderPairs ∧
    ∃ c', projectSoftConstraint dag (actionIndex target) c = [c'] ∧
      ∀ d0 d1, deriveStep metrics d0 c' = .ok d1 →
        d1.softOrderPairs = d0.softOrderPairs.insert (declaredPair (actionIndex target) a b) := by
  have hproject := projectSoftConstraint_pair hkind hscope hs hd hne
  have ha : a ≠ "" := scopeActions_ne_empty (hs ▸ List.mem_singleton_self a)
  have hb : b ≠ "" := scopeActions_ne_empty (hd ▸ List.mem_singleton_self b)
  have hends : (declaredPair (actionIndex target) a b).1 ≠ "" ∧
      (declaredPair (actionIndex target) a b).2 ≠ "" := by
    unfold declaredPair
    split_ifs
    · exact ⟨ha, hb⟩
    · exact ⟨hb, ha⟩
  revert hproject hends
  generalize declaredPair (actionIndex target) a b = pair
  intro hproject hends
  have hstep : ∀ d0 d1, deriveStep metrics d0 { c with scope := [pair.1, pair.2] } = .ok d1 →
      d1.softOrderPairs = d0.softOrderPairs.insert pair :=
    fun _ _ h => deriveStep_softOrder (c := { c with scope := [pair.1, pair.2] }) hkind rfl
      hends.1 hends.2 hguard h
  have hmem : { c with scope := [pair.1, pair.2] } ∈
      projectSoftConstraints dag (actionIndex target) target :=
    List.mem_append.2 (.inl (List.mem_flatMap.2 ⟨c, hc, hproject ▸ List.mem_singleton_self _⟩))
  obtain ⟨d2, hd2, rfl⟩ := (keeps_softOrder pair).derive_of_mem hmem
    (fun d0 d1 h => (hstep d0 d1 h).symm ▸ List.mem_insert_self) hderived
  exact ⟨hd2, _, hproject, hstep⟩

/-- A soft order from `b` to `a`, declared `a` and `b`. -/
def reversedOrder : SoftConstraint where
  kind := SoftConstraintKind.softOrder
  scope := ["b", "a"]

/-- The orders derived for a graph over the two actions. -/
def derivedOrders (dag : TypedDAG) : Option (List (String × String)) :=
  (derivePolicyFromConstraints {} (projectSoftConstraints dag (actionIndex hintedTarget)
    hintedTarget) [] hintedTarget).toOption.map (·.softOrderPairs)

theorem exists_derived (dag : TypedDAG) (pairs : List (String × String))
    (h : derivedOrders dag = some pairs) : ∃ derived,
    derivePolicyFromConstraints {} (projectSoftConstraints dag (actionIndex hintedTarget)
      hintedTarget) [] hintedTarget = .ok derived ∧ derived.softOrderPairs = pairs := by
  unfold derivedOrders at h
  cases hd : derivePolicyFromConstraints {} (projectSoftConstraints dag (actionIndex hintedTarget)
      hintedTarget) [] hintedTarget with
  | error e => simp [hd, Except.toOption] at h
  | ok derived => exact ⟨derived, rfl, by simpa [hd, Except.toOption] using h⟩

theorem softOrder_declared_reversed : ∃ derived,
    derivePolicyFromConstraints {}
      (projectSoftConstraints { softConstraints := [reversedOrder] } (actionIndex hintedTarget)
        hintedTarget) [] hintedTarget = .ok derived ∧
      declaredPair (actionIndex hintedTarget) "b" "a" ∈ derived.softOrderPairs := by
  obtain ⟨derived, hd, -⟩ := exists_derived { softConstraints := [reversedOrder] } [("a", "b")]
    (by decide +kernel)
  exact ⟨derived, hd, (softOrder_declared (List.mem_singleton_self reversedOrder) rfl rfl
    (by decide +kernel) (by decide +kernel) (by decide) (by decide +kernel) hd).1⟩

/-- The soft order from `b` to `a` gives the pair from `a` to `b`, and only that. -/
theorem softOrder_reversed : ∃ derived,
    derivePolicyFromConstraints {}
      (projectSoftConstraints { softConstraints := [reversedOrder] } (actionIndex hintedTarget)
        hintedTarget) [] hintedTarget = .ok derived ∧
      scopeActions { softConstraints := [reversedOrder] } (actionIndex hintedTarget) ["b"] = ["b"] ∧
      scopeActions { softConstraints := [reversedOrder] } (actionIndex hintedTarget) ["a"] = ["a"] ∧
      guardActive reversedOrder.guard [] = .ok true ∧
      ("b", "a") ∉ derived.softOrderPairs ∧ ("a", "b") ∈ derived.softOrderPairs := by
  obtain ⟨derived, hd, hpairs⟩ := exists_derived { softConstraints := [reversedOrder] } [("a", "b")]
    (by decide +kernel)
  refine ⟨derived, hd, by decide +kernel, by decide +kernel, by decide +kernel, ?_, ?_⟩
  · rw [hpairs]
    decide
  · rw [hpairs]
    decide

end FloWeaver.Scheduler
