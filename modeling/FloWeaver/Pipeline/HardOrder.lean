import FloWeaver.Lib.Kahn
import FloWeaver.Scheduler.HardGraph
import FloWeaver.Scheduler.HardGraphFacts

/-!
# The serial baseline and the hard order

The scheduler orders the actions by three kinds of facts: explicit dependencies, writebacks after
what they report, and `must_happen_before`.  The serial baseline reads the explicit dependencies
only.  So it keeps the hard order, however the actions are declared, exactly when the explicit
dependencies imply it.

* `baselineGraph` — the explicit dependencies between the actions.
* `baselineActionOrder` — the order of the actions.
* `serialExecutionPlan` — one batch for each action.
* `Enforced` — the explicit dependencies put one action before another.
* `baselineActionOrder_perm` — every action is listed once.
* `respectsHardOrder_iff` — when the baseline keeps the hard order.
-/

/-!
## The serial baseline

The reference replays, and the plan that stands in for the scheduler when it is switched off, run
the actions one by one: in the order of the explicit dependencies, and otherwise in the order of
their declaration.
-/

namespace FloWeaver.Pipeline

open Py DepGraph
open Scheduler (ActionIndex)

/-- `str(action.get("action_id"))`. -/
def actionKey (action : Dict) : String := (action.get "action_id").pyStr

/-- The actions with an id, under the id as it stands. -/
def actionIndex (target : OptimizationTarget) : ActionIndex :=
  .ofList ((target.vdevActions.filter fun action => (action.get "action_id").truthy).map
    fun action => (actionKey action, action))

/-- `str(dep.get(key, "") or "").strip()`. -/
def dependencyName (dep : Dict) (key : String) : String :=
  strip ((dep.getD key (.str "")).or (.str "")).pyStr

/-- Adds a dependency between two different actions that are known. -/
def addDependency (g : CountedGraph String) (dep : Dict) : CountedGraph String :=
  let before := dependencyName dep "before"
  let after := dependencyName dep "after"
  if before = "" ∨ after = "" ∨ before = after then g else g.addEdge before after

def baselineGraph (target : OptimizationTarget) : CountedGraph String :=
  target.hardDependencies.foldl addDependency
    (CountedGraph.empty (actionIndex target).keys (actionIndex target).keys_nodup)

/-- The position of an action in the declaration. -/
def rank (target : OptimizationTarget) (actionId : String) : ℕ :=
  (actionIndex target).keys.idxOf actionId

/-- The actions that become ready, in order. -/
def sortedActions (target : OptimizationTarget) : List String :=
  let g := baselineGraph target
  (Frontier.popAll g (rank target) g.nodes.length (Frontier.startBy g (rank target))).done

/-- `_baseline_action_order`; the actions behind a cycle come last, as they are declared. -/
def baselineActionOrder (target : OptimizationTarget) : List String :=
  let actions := (actionIndex target).keys
  let ordered := sortedActions target
  if ordered.length ≠ actions.length then
    ordered ++ actions.filter fun actionId => !ordered.contains actionId
  else ordered

/-- `f"serial_{idx:03d}"`. -/
def serialBatchId (idx : ℕ) : String :=
  let digits := toString idx
  "serial_" ++ String.ofList (List.replicate (3 - digits.length) '0') ++ digits

/-- `_serial_execution_plan`. -/
def serialExecutionPlan (target : OptimizationTarget) (reason : String) : ExecutionPlan where
  orderedBatches := (baselineActionOrder target).mapIdx fun idx actionId =>
    { batchId := serialBatchId idx
      parallelGroups := [[actionId]]
      constraints := [reason]
      fallback := [[("kind", .str "module_disabled"), ("scope", .list [.str actionId]),
        ("action", .str "serial_execution"), ("params", .dict [("reason", .str reason)])]] }

end FloWeaver.Pipeline

namespace FloWeaver.Pipeline

open Py DepGraph Relation
open Scheduler (HardGraph projectHardGraph targetOrderPairs)

variable {target : OptimizationTarget}

/-! ## The graph of the baseline -/

theorem addDependency_nodes (g : CountedGraph String) (dep : Dict) :
    (addDependency g dep).nodes = g.nodes := by
  simp only [addDependency]
  split_ifs
  · rfl
  · exact CountedGraph.addEdge_nodes _ _ _

/-- The edge that a dependency adds. -/
def DependencyEdgeOf (dep : Dict) (u v : String) : Prop :=
  dependencyName dep "before" = u ∧ dependencyName dep "after" = v ∧ u ≠ "" ∧ v ≠ "" ∧ u ≠ v

theorem addDependency_E (g : CountedGraph String) (dep : Dict) (u v : String) :
    (addDependency g dep).E u v ↔
      g.E u v ∨ (DependencyEdgeOf dep u v ∧ u ∈ g.nodes ∧ v ∈ g.nodes) := by
  simp only [addDependency, DependencyEdgeOf]
  split_ifs with hskip
  · refine ⟨.inl, fun h => h.elim id ?_⟩
    rintro ⟨⟨rfl, rfl, hu, hv, hne⟩, -⟩
    rcases hskip with h | h | h
    · exact absurd h hu
    · exact absurd h hv
    · exact absurd h hne
  · rw [CountedGraph.addEdge_E]
    constructor
    · rintro (h | ⟨rfl, rfl, hne, hu, hv⟩)
      · exact .inl h
      · exact .inr ⟨⟨rfl, rfl, fun h => hskip (.inl h), fun h => hskip (.inr (.inl h)), hne⟩, hu, hv⟩
    · rintro (h | ⟨⟨rfl, rfl, -, -, hne⟩, hu, hv⟩)
      · exact .inl h
      · exact .inr ⟨rfl, rfl, hne, hu, hv⟩

theorem foldl_addDependency (deps : List Dict) (g : CountedGraph String) :
    (deps.foldl addDependency g).nodes = g.nodes ∧
      ∀ u v, (deps.foldl addDependency g).E u v ↔ g.E u v ∨
        ((∃ dep ∈ deps, DependencyEdgeOf dep u v) ∧ u ∈ g.nodes ∧ v ∈ g.nodes) := by
  induction deps generalizing g with
  | nil => simp
  | cons dep deps ih =>
    obtain ⟨hnodes, hedges⟩ := ih (addDependency g dep)
    rw [List.foldl_cons]
    refine ⟨hnodes.trans (addDependency_nodes g dep), fun u v => ?_⟩
    rw [hedges, addDependency_nodes, addDependency_E, List.exists_mem_cons_iff, or_assoc,
      ← or_and_right]

theorem baselineGraph_nodes (target : OptimizationTarget) :
    (baselineGraph target).nodes = (actionIndex target).keys :=
  (foldl_addDependency target.hardDependencies _).1

theorem baselineGraph_E (target : OptimizationTarget) (u v : String) :
    (baselineGraph target).E u v ↔ (∃ dep ∈ target.hardDependencies, DependencyEdgeOf dep u v) ∧
      u ∈ (actionIndex target).keys ∧ v ∈ (actionIndex target).keys := by
  refine ((foldl_addDependency target.hardDependencies _).2 u v).trans ?_
  have hempty : ¬ (CountedGraph.empty (actionIndex target).keys
    (actionIndex target).keys_nodup).E u v := fun h => nomatch h
  exact ⟨fun h => h.resolve_left hempty, .inr⟩

/-! ## The order of the baseline -/

theorem mem_sortedActions {u : String} : u ∈ sortedActions target ↔
    u ∈ (actionIndex target).keys ∧ ¬ Blocked (baselineGraph target).E u := by
  rw [← baselineGraph_nodes]
  exact Frontier.mem_popAll_iff (baselineGraph target) (rank target)

theorem nodup_sortedActions : (sortedActions target).Nodup := Frontier.nodup_popAll _ _ _

/-- The sorted actions first, then the others as they are declared. -/
theorem baselineActionOrder_eq (target : OptimizationTarget) :
    baselineActionOrder target = sortedActions target ++
      (actionIndex target).keys.filter fun actionId => !(sortedActions target).contains actionId := by
  simp only [baselineActionOrder]
  split_ifs with hlength
  · rfl
  · -- as many actions are sorted as there are, so none is left
    have hsub : sortedActions target ⊆ (actionIndex target).keys := fun u hu =>
      (mem_sortedActions.1 hu).1
    have hperm : (sortedActions target).Perm (actionIndex target).keys :=
      (List.subperm_of_subset nodup_sortedActions hsub).perm_of_length_le
        (not_not.1 hlength).ge
    have hnone : ((actionIndex target).keys.filter
        fun actionId => !(sortedActions target).contains actionId) = [] := by
      rw [List.filter_eq_nil_iff]
      intro u hu
      simpa using hperm.mem_iff.2 hu
    rw [hnone, List.append_nil]

/-- Every action is listed exactly once. -/
theorem baselineActionOrder_perm (target : OptimizationTarget) :
    (baselineActionOrder target).Perm (actionIndex target).keys := by
  rw [baselineActionOrder_eq]
  refine (List.perm_ext_iff_of_nodup ?_ (actionIndex target).keys_nodup).2 fun u => ?_
  · refine List.nodup_append.2 ⟨nodup_sortedActions,
      (actionIndex target).keys_nodup.filter _, fun u hu v hv => ?_⟩
    rintro rfl
    simpa [hu] using (List.mem_filter.1 hv).2
  · rw [List.mem_append, List.mem_filter]
    by_cases hu : u ∈ sortedActions target
    · simpa [hu] using (mem_sortedActions.1 hu).1
    · simp [hu]

/-- The explicit dependencies put `u` before `v`: no cycle leads to `u`, and either a cycle leads
to `v` or a path from `u` does. -/
def Enforced (target : OptimizationTarget) (u v : String) : Prop :=
  u ∈ (actionIndex target).keys ∧ ¬ Blocked (baselineGraph target).E u ∧
    (Blocked (baselineGraph target).E v ∨ TransGen (baselineGraph target).E u v)

/-- A blocked node is a node of the graph. -/
theorem mem_keys_of_blocked {v : String} (h : Blocked (baselineGraph target).E v) :
    v ∈ (actionIndex target).keys := by
  obtain ⟨c, hcycle, hreach⟩ := h
  rw [← baselineGraph_nodes]
  rcases reflTransGen_iff_eq_or_transGen.1 hreach with rfl | hreach
  · obtain ⟨x, -, hx⟩ := TransGen.tail'_iff.1 hcycle
    exact CountedGraph.E_dst hx
  · obtain ⟨x, -, hx⟩ := TransGen.tail'_iff.1 hreach
    exact CountedGraph.E_dst hx

/-- What the explicit dependencies order, the baseline orders. -/
theorem sublist_of_enforced {u v : String} (h : Enforced target u v) :
    [u, v].Sublist (baselineActionOrder target) := by
  obtain ⟨hu, hfree, horder⟩ := h
  have hsorted : u ∈ sortedActions target := mem_sortedActions.2 ⟨hu, hfree⟩
  rw [baselineActionOrder_eq]
  by_cases hv : Blocked (baselineGraph target).E v
  · have hrest : v ∈ (actionIndex target).keys.filter
        fun actionId => !(sortedActions target).contains actionId := by
      refine List.mem_filter.2 ⟨mem_keys_of_blocked hv, ?_⟩
      have hnot : v ∉ sortedActions target := fun hmem => (mem_sortedActions.1 hmem).2 hv
      simpa using hnot
    exact (List.singleton_sublist.2 hsorted).append (List.singleton_sublist.2 hrest)
  · have hpath := horder.resolve_left hv
    obtain ⟨x, -, hx⟩ := TransGen.tail'_iff.1 hpath
    have hvnode : v ∈ (actionIndex target).keys := baselineGraph_nodes target ▸ CountedGraph.E_dst hx
    have hvsorted : v ∈ sortedActions target := mem_sortedActions.2 ⟨hvnode, hv⟩
    exact (Frontier.path_sublist_popAll _ _ _ hpath hvsorted).trans (List.sublist_append_left _ _)

/-! ## Other declarations of the same actions -/

/-- The target with its actions declared in another order. -/
def redeclared (target : OptimizationTarget) (actions : List Dict) : OptimizationTarget :=
  { target with vdevActions := actions }

/-- The id under which the scheduler knows an action. -/
def schedulerId (action : Dict) : String := strip (action.getD "action_id" (.str "")).pyStr

/-- The scheduler reads the last action of an id. -/
theorem get?_schedulerIndex (target : OptimizationTarget) (k : String) :
    (Scheduler.actionIndex target).get? k =
      if k = "" then none
      else (target.vdevActions.filter fun action => decide (schedulerId action = k)).getLast? := by
  by_cases hk : k = ""
  · rw [if_pos hk, ← Option.not_isSome_iff_eq_none, OrderedDict.get?_isSome_iff]
    exact fun hmem => Scheduler.actionIndex_ne_empty hmem hk
  · rw [if_neg hk, Scheduler.actionIndex_eq_ofList,
      OrderedDict.get?_ofList_filter (fun id => decide (id ≠ "")) _ (by simpa using hk),
      OrderedDict.get?_ofList, List.filter_map, List.getLast?_map, Option.map_map]
    simp only [Function.comp_def, Option.map_id']
    rfl

/-- Two targets with the same dependencies, whose scheduler indexes hold the same actions. -/
structure SameActions (target target' : OptimizationTarget) : Prop where
  dependencies : target'.hardDependencies = target.hardDependencies
  index : ∀ k, (Scheduler.actionIndex target').get? k = (Scheduler.actionIndex target).get? k

namespace SameActions

variable {target' : OptimizationTarget}

theorem mem_keys (h : SameActions target target') {k : String} :
    k ∈ (Scheduler.actionIndex target').keys ↔ k ∈ (Scheduler.actionIndex target).keys := by
  rw [← OrderedDict.get?_isSome_iff, ← OrderedDict.get?_isSome_iff, h.index]

theorem mem_rows (h : SameActions target target') {row : String × Dict} :
    row ∈ (Scheduler.actionIndex target').rows ↔ row ∈ (Scheduler.actionIndex target).rows := by
  constructor <;> intro hrow
  · exact OrderedDict.mem_rows_of_get? ((h.index row.1).symm.trans (OrderedDict.get?_of_mem_rows hrow))
  · exact OrderedDict.mem_rows_of_get? ((h.index row.1).trans (OrderedDict.get?_of_mem_rows hrow))

theorem mustHappenBefore_eq (h : SameActions target target') (row : String × Dict) :
    Scheduler.mustHappenBefore (Scheduler.actionIndex target') row =
      Scheduler.mustHappenBefore (Scheduler.actionIndex target) row := by
  have hkeys : (fun nxt => (Scheduler.actionIndex target').keys.contains nxt) =
      fun nxt => (Scheduler.actionIndex target).keys.contains nxt := by
    funext nxt
    rw [Bool.eq_iff_iff, List.contains_iff_mem, List.contains_iff_mem, h.mem_keys]
  rw [Scheduler.mustHappenBefore, Scheduler.mustHappenBefore, hkeys]

/-- The two targets ask for the same order. -/
theorem targetOrderPairs (h : SameActions target target') {pairs : List (String × String)}
    (hpairs : Scheduler.targetOrderPairs target (Scheduler.actionIndex target) = .ok pairs) :
    ∃ pairs', Scheduler.targetOrderPairs target' (Scheduler.actionIndex target') = .ok pairs' ∧
      ∀ p, p ∈ pairs' ↔ p ∈ pairs := by
  obtain ⟨must, hmust, hpairs⟩ := bind_eq_ok.1 hpairs
  obtain rfl := pure_eq_ok.1 hpairs
  obtain ⟨must', hmust'⟩ : ∃ must', (Scheduler.actionIndex target').rows.mapM
      (Scheduler.mustHappenBefore (Scheduler.actionIndex target')) = .ok must' := by
    refine exists_mapM_ok fun row hrow => ?_
    obtain ⟨pairs, -, hok⟩ := mem_mapM_of_ok hmust (h.mem_rows.1 hrow)
    exact ⟨pairs, (h.mustHappenBefore_eq row).trans hok⟩
  refine ⟨_, bind_eq_ok.2 ⟨must', hmust', rfl⟩, fun p => ?_⟩
  simp only [List.mem_append]
  refine or_congr (or_congr ?_ ?_) ?_
  · simp only [Scheduler.hardDependencyPairs, h.dependencies, List.mem_filter, Bool.and_eq_true,
      List.contains_iff_mem, h.mem_keys]
  · simp only [Scheduler.writebackPrecedenceConstraints, Scheduler.mem_sortedPairs,
      List.mem_flatMap, List.mem_map, List.mem_filter, h.mem_rows]
  · -- the lists of the rows are the same lists
    have hlists : ∀ l, l ∈ must' ↔ l ∈ must := by
      intro l
      constructor <;> intro hl
      · obtain ⟨row, hrow, hok⟩ := mem_of_mapM_ok hmust' l hl
        obtain ⟨l', hl', hok'⟩ := mem_mapM_of_ok hmust (h.mem_rows.1 hrow)
        rw [h.mustHappenBefore_eq, hok'] at hok
        rwa [← Except.ok.inj hok]
      · obtain ⟨row, hrow, hok⟩ := mem_of_mapM_ok hmust l hl
        obtain ⟨l', hl', hok'⟩ := mem_mapM_of_ok hmust' (h.mem_rows.2 hrow)
        rw [h.mustHappenBefore_eq, hok] at hok'
        rwa [Except.ok.inj hok']
    simp only [List.mem_flatten, hlists]

end SameActions

/-- The part of the scheduler's graph that the target asks for itself. -/
def IsTargetGraph (target : OptimizationTarget) (g : HardGraph) : Prop :=
  projectHardGraph {} (Scheduler.actionIndex target) target = .ok g

/-- Its edges are the pairs that the target asks for. -/
theorem IsTargetGraph.spec {g : HardGraph} (h : IsTargetGraph target g) :
    ∃ own, targetOrderPairs target (Scheduler.actionIndex target) = .ok own ∧
      ∀ u v, g.graph.E u v ↔ u ≠ v ∧ (u, v) ∈ own := by
  obtain ⟨own, hown, -, hedges⟩ := Scheduler.projectHardGraph_spec h
  refine ⟨own, hown, fun u v => (hedges u v).trans ?_⟩
  simp

theorem SameActions.targetGraph {target' : OptimizationTarget} (h : SameActions target target')
    {g : HardGraph} (hg : IsTargetGraph target g) :
    ∃ g', IsTargetGraph target' g' ∧ ∀ u v, g'.graph.E u v ↔ g.graph.E u v := by
  obtain ⟨own, hown, hedges⟩ := hg.spec
  obtain ⟨own', hown', hsame⟩ := h.targetOrderPairs hown
  have hg' : ∃ g', IsTargetGraph target' g' := ⟨_, bind_eq_ok.2 ⟨own', hown', rfl⟩⟩
  obtain ⟨g', hg'⟩ := hg'
  obtain ⟨own'', hown'', hedges'⟩ := hg'.spec
  obtain rfl : own' = own'' := Except.ok.inj (hown'.symm.trans hown'')
  refine ⟨g', hg', fun u v => ?_⟩
  rw [hedges, hedges', hsame]

/-! ## Declaring one action last -/

/-- The actions with those of one id at the end. -/
def declaredLast (u : String) (actions : List Dict) : List Dict :=
  actions.filter (fun action => !decide (schedulerId action = u)) ++
    actions.filter fun action => decide (schedulerId action = u)

theorem declaredLast_perm (u : String) (actions : List Dict) :
    (declaredLast u actions).Perm actions :=
  List.perm_append_comm.trans (List.filter_append_perm _ actions)

/-- The actions of one id stay in order, so the scheduler reads the same ones. -/
theorem sameActions_declaredLast (target : OptimizationTarget) (u : String) :
    SameActions target (redeclared target (declaredLast u target.vdevActions)) where
  dependencies := rfl
  index k := by
    rw [get?_schedulerIndex, get?_schedulerIndex]
    have hfilter : ((declaredLast u target.vdevActions).filter
        fun action => decide (schedulerId action = k)) =
          target.vdevActions.filter fun action => decide (schedulerId action = k) := by
      rw [declaredLast, List.filter_append, List.filter_filter, List.filter_filter]
      by_cases hk : k = u
      · subst hk
        have hnone : (target.vdevActions.filter fun action =>
            decide (schedulerId action = k) && !decide (schedulerId action = k)) = [] := by simp
        rw [hnone, List.nil_append]
        simp
      · have hnone : (target.vdevActions.filter fun action =>
            decide (schedulerId action = k) && decide (schedulerId action = u)) = [] := by
          rw [List.filter_eq_nil_iff]
          intro action _ hboth
          rw [Bool.and_eq_true, decide_eq_true_iff, decide_eq_true_iff] at hboth
          exact hk (hboth.1.symm.trans hboth.2)
        rw [hnone, List.append_nil]
        refine List.filter_congr fun action _ => ?_
        by_cases hid : schedulerId action = k
        · have hne : ¬ schedulerId action = u := fun h => hk (hid.symm.trans h)
          simp [hid, hk]
        · simp [hid]
    show (if k = "" then none else ((declaredLast u target.vdevActions).filter _).getLast?) = _
    rw [hfilter]

/-- The ids of the baseline are not trimmed. -/
theorem schedulerId_eq_strip {action : Dict} (h : (action.get "action_id").truthy = true) :
    schedulerId action = strip (actionKey action) := by
  rw [schedulerId, actionKey]
  rw [Dict.get] at h ⊢
  rw [Dict.getD]
  cases hget : action.get? "action_id" with
  | none => rw [hget] at h; cases h
  | some v => rfl

theorem mem_actionKeys {k : String} : k ∈ (actionIndex target).keys ↔
    ∃ action ∈ target.vdevActions, (action.get "action_id").truthy = true ∧
      actionKey action = k := by
  rw [actionIndex, OrderedDict.mem_keys_ofList]
  simp only [List.map_map, List.mem_map, List.mem_filter, Function.comp_apply, and_assoc]

/-- The action that is declared last outranks the others. -/
theorem rank_lt_of_declaredLast {u x : String} (hu : strip u = u) (hx : strip x ≠ u)
    (hmem : x ∈ (actionIndex target).keys) :
    rank (redeclared target (declaredLast u target.vdevActions)) x <
      rank (redeclared target (declaredLast u target.vdevActions)) u := by
  let first : OptimizationTarget :=
    redeclared target (target.vdevActions.filter fun action => !decide (schedulerId action = u))
  have hprefix : (actionIndex first).keys <+:
      (actionIndex (redeclared target (declaredLast u target.vdevActions))).keys := by
    rw [actionIndex, actionIndex, redeclared, declaredLast, List.filter_append,
      List.map_append]
    exact OrderedDict.keys_ofList_append _ _
  have hxfirst : x ∈ (actionIndex first).keys := by
    obtain ⟨action, haction, htruthy, rfl⟩ := mem_actionKeys.1 hmem
    refine mem_actionKeys.2 ⟨action, List.mem_filter.2 ⟨haction, ?_⟩, htruthy, rfl⟩
    have hid : ¬ schedulerId action = u := fun h => hx ((schedulerId_eq_strip htruthy).symm.trans h)
    simpa using hid
  have hufirst : u ∉ (actionIndex first).keys := by
    intro hmem'
    obtain ⟨action, haction, htruthy, hkey⟩ := mem_actionKeys.1 hmem'
    have hid : schedulerId action = u := by rw [schedulerId_eq_strip htruthy, hkey, hu]
    simpa [hid] using (List.mem_filter.1 haction).2
  obtain ⟨rest, hrest⟩ := hprefix
  rw [rank, rank, ← hrest, List.idxOf_append_of_mem hxfirst, List.idxOf_append_of_notMem hufirst]
  exact (List.idxOf_lt_length_of_mem hxfirst).trans_le (Nat.le_add_right _ _)

/-! ## When the hard order is kept -/

theorem sublist_of_idxOf_lt {l : List String} {u v : String} (hv : v ∈ l)
    (h : l.idxOf u < l.idxOf v) : [u, v].Sublist l := by
  induction l with
  | nil => cases hv
  | cons x l ih =>
    by_cases hx : x = v
    · rw [hx, List.idxOf_cons_self] at h
      exact absurd h (Nat.not_lt_zero _)
    · have hvl : v ∈ l := (List.mem_cons.1 hv).resolve_left (Ne.symm hx)
      by_cases hxu : x = u
      · rw [hxu]
        exact (List.singleton_sublist.2 hvl).cons_cons u
      · rw [List.idxOf_cons_ne _ hx, List.idxOf_cons_ne _ hxu] at h
        exact (ih hvl (Nat.lt_of_succ_lt_succ h)).cons x

theorem getElem?_of_sublist {l : List String} {u v : String} (h : [u, v].Sublist l) :
    ∃ i j : ℕ, i < j ∧ l[i]? = some u ∧ l[j]? = some v := by
  induction l with
  | nil => cases h
  | cons x l ih =>
    cases h with
    | cons _ h =>
      obtain ⟨i, j, hij, hi, hj⟩ := ih h
      exact ⟨i + 1, j + 1, Nat.succ_lt_succ hij, hi, hj⟩
    | cons_cons _ h =>
      obtain ⟨j, hj⟩ := List.mem_iff_getElem?.1 (List.singleton_sublist.1 h)
      exact ⟨0, j + 1, Nat.succ_pos j, rfl, hj⟩

/-- The scheduler's ids are trimmed. -/
theorem strip_of_mem_keys {k : String} (h : k ∈ (Scheduler.actionIndex target).keys) :
    strip k = k := by
  rw [← OrderedDict.get?_isSome_iff, get?_schedulerIndex] at h
  split_ifs at h with hk
  · cases h
  · obtain ⟨action, haction⟩ := Option.isSome_iff_exists.1 h
    have hid := of_decide_eq_true (List.mem_filter.1 (List.mem_of_getLast? haction)).2
    rw [← hid, schedulerId, strip_strip]

/-- A node with an edge of the baseline has a trimmed id. -/
theorem strip_of_edge {u v : String} (h : (baselineGraph target).E u v) : strip u = u := by
  obtain ⟨⟨dep, -, rfl, -⟩, -⟩ := (baselineGraph_E target u v).1 h
  rw [dependencyName, strip_strip]

theorem baselineGraph_E_declaredLast (target : OptimizationTarget) (u : String) :
    (baselineGraph (redeclared target (declaredLast u target.vdevActions))).E =
      (baselineGraph target).E := by
  have hkeys : ∀ k, k ∈ (actionIndex (redeclared target (declaredLast u target.vdevActions))).keys ↔
      k ∈ (actionIndex target).keys := by
    intro k
    rw [mem_actionKeys, mem_actionKeys]
    simp only [redeclared, (declaredLast_perm u target.vdevActions).mem_iff]
  funext a b
  refine propext ?_
  rw [baselineGraph_E, baselineGraph_E, hkeys, hkeys]
  rfl

/-- If an action comes first even when it is declared last, the explicit dependencies say so. -/
theorem enforced_of_declaredLast {u v : String} (hu : strip u = u) (hv : strip v = v) (hne : u ≠ v)
    (h : [u, v].Sublist
      (baselineActionOrder (redeclared target (declaredLast u target.vdevActions)))) :
    Enforced target u v := by
  set last := redeclared target (declaredLast u target.vdevActions) with hlast
  have hperm := baselineActionOrder_perm last
  have hnodup : (baselineActionOrder last).Nodup := hperm.nodup_iff.2 (actionIndex last).keys_nodup
  have hE : (baselineGraph last).E = (baselineGraph target).E := baselineGraph_E_declaredLast target u
  have hkeys : ∀ {k}, k ∈ (actionIndex last).keys → k ∈ (actionIndex target).keys := by
    intro k hk
    rw [mem_actionKeys] at hk ⊢
    obtain ⟨action, haction, hrest⟩ := hk
    exact ⟨action, (declaredLast_perm u target.vdevActions).mem_iff.1 haction, hrest⟩
  have huMem : u ∈ (actionIndex last).keys := hperm.mem_iff.1 (h.subset (by simp))
  have hvMem : v ∈ (actionIndex last).keys := hperm.mem_iff.1 (h.subset (by simp))
  have hvNe : strip v ≠ u := fun hsame => hne (hsame.symm.trans hv)
  by_contra hnot
  rw [Enforced, ← hE] at hnot
  rw [baselineActionOrder_eq] at h hnodup
  refine not_sublist_swap hnodup h ?_
  by_cases hfree : Blocked (baselineGraph last).E u
  · -- a blocked action comes behind what is sorted, and among the blocked it is declared last
    have hrest : ∀ {k}, k ∈ (actionIndex last).keys → k ∉ sortedActions last →
        (!(sortedActions last).contains k) = true := fun _ hk => by simpa using hk
    have huRest : u ∉ sortedActions last := fun hmem => (mem_sortedActions.1 hmem).2 hfree
    by_cases hvSorted : v ∈ sortedActions last
    · exact (List.singleton_sublist.2 hvSorted).append
        (List.singleton_sublist.2 (List.mem_filter.2 ⟨huMem, hrest huMem huRest⟩))
    · have hpair := (sublist_of_idxOf_lt huMem
        (rank_lt_of_declaredLast hu hvNe (hkeys hvMem))).filter
          fun k => !(sortedActions last).contains k
      rw [List.filter_eq_self.2 (by simp [hvSorted, huRest])] at hpair
      exact hpair.trans (List.sublist_append_right _ _)
  · have hvFree : ¬ Blocked (baselineGraph last).E v := fun hblocked =>
      hnot ⟨hkeys huMem, hfree, .inl hblocked⟩
    have hpath : ¬ TransGen (baselineGraph last).E u v := fun hpath =>
      hnot ⟨hkeys huMem, hfree, .inr hpath⟩
    have hreach : ¬ ReflTransGen (baselineGraph last).E u v := fun hreach =>
      (reflTransGen_iff_eq_or_transGen.1 hreach).elim (fun heq => hne heq.symm) hpath
    refine (Frontier.sublist_popAll_of_rank (baselineGraph_nodes last ▸ hvMem) hvFree hreach ?_ _
      (mem_sortedActions.2 ⟨huMem, hfree⟩)).trans (List.sublist_append_left _ _)
    intro x hxv
    rcases reflTransGen_iff_eq_or_transGen.1 hxv with rfl | hpathx
    · exact rank_lt_of_declaredLast hu hvNe (hkeys hvMem)
    · obtain ⟨y, hxy, -⟩ := TransGen.head'_iff.1 hpathx
      have hxMem : x ∈ (actionIndex last).keys := baselineGraph_nodes last ▸ CountedGraph.E_src hxy
      refine rank_lt_of_declaredLast hu (fun hsame => ?_) (hkeys hxMem)
      rw [strip_of_edge hxy] at hsame
      rw [hsame] at hpathx
      exact hpath hpathx

/-- The baseline lists every action once, with the edges of the graph in order, and the serial plan
has the source of an edge in an earlier batch. -/
structure RespectsHardOrder (target : OptimizationTarget) (g : HardGraph) : Prop where
  listed : (baselineActionOrder target).Perm (actionIndex target).keys
  order : ∀ u v, g.graph.E u v → [u, v].Sublist (baselineActionOrder target)
  batches : ∀ u v reason, g.graph.E u v → ∃ (i j : ℕ) (b c : Batch), i < j ∧
    (serialExecutionPlan target reason).orderedBatches[i]? = some b ∧ b.parallelGroups = [[u]] ∧
    (serialExecutionPlan target reason).orderedBatches[j]? = some c ∧ c.parallelGroups = [[v]]

theorem respectsHardOrder_of_order {g : HardGraph}
    (h : ∀ u v, g.graph.E u v → [u, v].Sublist (baselineActionOrder target)) :
    RespectsHardOrder target g where
  listed := baselineActionOrder_perm target
  order := h
  batches u v reason huv := by
    obtain ⟨i, j, hij, hi, hj⟩ := getElem?_of_sublist (h u v huv)
    have hbatch : ∀ {k : ℕ} {w : String}, (baselineActionOrder target)[k]? = some w →
        ∃ b : Batch, (serialExecutionPlan target reason).orderedBatches[k]? = some b ∧
          b.parallelGroups = [[w]] := by
      intro k w hk
      simp only [serialExecutionPlan, List.getElem?_mapIdx, hk, Option.map_some,
        Option.some.injEq]
      exact ⟨_, rfl, rfl⟩
    obtain ⟨b, hb, hbGroups⟩ := hbatch hi
    obtain ⟨c, hc, hcGroups⟩ := hbatch hj
    exact ⟨i, j, b, c, hij, hb, hbGroups, hc, hcGroups⟩

/-- However the actions are declared, the baseline keeps the hard order of the scheduler exactly
when the explicit dependencies imply it. -/
theorem respectsHardOrder_iff (target : OptimizationTarget) :
    (∀ actions, actions.Perm target.vdevActions → ∀ g,
        IsTargetGraph (redeclared target actions) g → Acyclic g.graph.E →
          RespectsHardOrder (redeclared target actions) g) ↔
      ∀ actions, actions.Perm target.vdevActions → ∀ g,
        IsTargetGraph (redeclared target actions) g → Acyclic g.graph.E →
          ∀ u v, g.graph.E u v → Enforced (redeclared target actions) u v := by
  constructor
  · intro h actions hperm g hg hacyclic u v huv
    obtain ⟨own, hown, hedges⟩ := hg.spec
    obtain ⟨hne, hpair⟩ := (hedges u v).1 huv
    obtain ⟨hu, hv⟩ := Scheduler.mem_targetOrder_keys hown _ hpair
    -- the same actions, with the source of the edge declared last
    obtain ⟨g', hg', hsame⟩ := (sameActions_declaredLast (redeclared target actions) u).targetGraph hg
    have hacyclic' : Acyclic g'.graph.E := hacyclic.mono fun a b hab => (hsame a b).1 hab
    have hrespects := h (declaredLast u actions) ((declaredLast_perm u actions).trans hperm) g' hg'
      hacyclic'
    exact enforced_of_declaredLast (strip_of_mem_keys hu) (strip_of_mem_keys hv) hne
      (hrespects.order u v ((hsame u v).2 huv))
  · intro h actions hperm g hg hacyclic
    exact respectsHardOrder_of_order fun u v huv =>
      sublist_of_enforced (h actions hperm g hg hacyclic u v huv)

/-- `A1` must happen before `A2`, which is declared first. -/
def declaredBackwards : OptimizationTarget where
  vdevActions := [[("action_id", .str "A2")],
    [("action_id", .str "A1"), ("must_happen_before", .list [.str "A2"])]]

/-- The scheduler puts `A1` before `A2`, and the baseline runs `A2` first. -/
theorem declaredBackwards_order_lost : ¬ ∀ target g, IsTargetGraph target g →
    Acyclic g.graph.E → RespectsHardOrder target g := by
  intro h
  have hpairs : (targetOrderPairs declaredBackwards
      (Scheduler.actionIndex declaredBackwards)).toOption = some [("A1", "A2")] := by
    decide +kernel
  have horder : baselineActionOrder declaredBackwards = ["A2", "A1"] := by decide +kernel
  cases hown : targetOrderPairs declaredBackwards (Scheduler.actionIndex declaredBackwards) with
  | error e => simp [hown, Except.toOption] at hpairs
  | ok own =>
    obtain rfl : own = [("A1", "A2")] := by simpa [hown, Except.toOption] using hpairs
    obtain ⟨g, hg⟩ : ∃ g, IsTargetGraph declaredBackwards g := ⟨_, bind_eq_ok.2 ⟨_, hown, rfl⟩⟩
    have hedges : ∀ u v, g.graph.E u v ↔ u = "A1" ∧ v = "A2" := by
      intro u v
      obtain ⟨own, hown', hedges⟩ := hg.spec
      obtain rfl := Except.ok.inj (hown.symm.trans hown')
      rw [hedges, List.mem_singleton, Prod.mk.injEq]
      exact ⟨And.right, fun huv => ⟨by rw [huv.1, huv.2]; decide, huv⟩⟩
    have hacyclic : Acyclic g.graph.E := by
      intro v hv
      obtain ⟨x, hvx, -⟩ := TransGen.head'_iff.1 hv
      obtain ⟨y, -, hyv⟩ := TransGen.tail'_iff.1 hv
      exact absurd (((hedges v x).1 hvx).1.symm.trans ((hedges y v).1 hyv).2) (by decide)
    have hpair := (h declaredBackwards g hg hacyclic).order "A1" "A2" ((hedges _ _).2 ⟨rfl, rfl⟩)
    rw [horder] at hpair
    exact absurd hpair (by decide)

end FloWeaver.Pipeline
