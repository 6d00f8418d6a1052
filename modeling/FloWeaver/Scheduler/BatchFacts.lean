import FloWeaver.Scheduler.PolicyFacts
import FloWeaver.Scheduler.Schedule

/-!
# Batches are built one admitted pick at a time

Whatever order the optimiser or the greedy loop proposes, a batch grows by ready actions
that pass the admission test.  `Admitted` describes the states reached that way, and every
bound on a batch is an induction over it.

* `admitted_plannedState` — the optimiser's and the greedy batch are admitted states.
* `Admitted.counters` — the counters are the numbers they stand for.
* `Admitted.within` — a batch keeps the limits, if the limits are sensible (`SoundLimits`).
* `allowed_empty_iff` — only the phase barrier keeps an action out of an empty batch.
* `selectBatch_cases` — a batch is an admitted state, or one forced action.
-/

namespace FloWeaver.Scheduler

open Py DepGraph

variable {ctx : Ctx} {f : Frontier String} {st : BatchBuildState}

/-! ## Admitted states -/

/-- The states reached from the empty batch by allowed picks of ready actions. -/
inductive Admitted (ctx : Ctx) (f : Frontier String) : BatchBuildState → Prop
  | empty : Admitted ctx f {}
  | pick {st : BatchBuildState} {a : String} {allowBleApiFrontier : Bool}
      (hst : Admitted ctx f st) (hready : a ∈ f.ready) (hnew : a ∉ st.selected)
      (hallowed : candidateAllowedInBatch ctx allowBleApiFrontier a st f.ready f.done = true) :
      Admitted ctx f (applyPickToBatchState ctx a st)

theorem applyPick_selected (a : String) (st : BatchBuildState) :
    (applyPickToBatchState ctx a st).selected = st.selected ++ [a] := rfl

/-- A pick that a loop may make. -/
def AllowedPick (ctx : Ctx) (f : Frontier String) (pick : BatchBuildState → Option String) : Prop :=
  ∀ st a, pick st = some a → a ∈ f.ready ∧ a ∉ st.selected ∧
    ∃ allow, candidateAllowedInBatch ctx allow a st f.ready f.done = true

theorem admitted_buildLoop {pick : BatchBuildState → Option String}
    (hpick : AllowedPick ctx f pick) :
    ∀ (fuel : ℕ) (st : BatchBuildState), Admitted ctx f st →
      Admitted ctx f (buildLoop ctx pick fuel st)
  | 0, _, h => h
  | fuel + 1, st, h => by
      rw [buildLoop]
      cases hp : pick st with
      | none => exact h
      | some a =>
        obtain ⟨hr, hn, allow, ha⟩ := hpick st a hp
        exact admitted_buildLoop hpick fuel _ (h.pick hr hn ha)

theorem allowedPick_fromOrder (allow stop : Bool) (order : List String) :
    AllowedPick ctx f fun st => pickFromOrder ctx allow stop order st f.ready f.done := by
  intro st a h
  have := List.find?_some h
  simp only [Bool.and_eq_true, Bool.not_eq_true', List.contains_eq_mem,
    decide_eq_false_iff_not, decide_eq_true_eq] at this
  obtain ⟨⟨⟨h1, h2⟩, -⟩, h3⟩ := this
  exact ⟨h1, h2, allow, h3⟩

theorem allowedPick_greedy : AllowedPick ctx f (greedyPick ctx f) := by
  intro st a h
  unfold greedyPick at h
  split_ifs at h
  have hallowed := List.find?_some h
  have hmem := List.mem_of_find?_eq_some h
  rw [mem_sortedBy, List.mem_filter] at hmem
  exact ⟨hmem.1, by simpa using hmem.2, false, hallowed⟩

theorem admitted_optimizedState : Admitted ctx f (optimizedState ctx f) := by
  unfold optimizedState
  dsimp only
  split_ifs
  · exact .empty
  · exact admitted_buildLoop (allowedPick_fromOrder _ _ _) _ _ .empty

theorem admitted_plannedState : Admitted ctx f (plannedState ctx f) := by
  unfold plannedState
  dsimp only
  split_ifs
  · exact admitted_buildLoop allowedPick_greedy _ _ admitted_optimizedState
  · exact admitted_optimizedState

namespace Admitted

theorem nodup (h : Admitted ctx f st) : st.selected.Nodup := by
  induction h with
  | empty => exact List.nodup_nil
  | pick _ _ hnew _ ih =>
    rw [applyPick_selected, List.nodup_append]
    refine ⟨ih, List.nodup_singleton _, fun x hx y hy => ?_⟩
    rintro rfl
    exact hnew (List.mem_singleton.1 hy ▸ hx)

theorem subset_ready (h : Admitted ctx f st) : ∀ a ∈ st.selected, a ∈ f.ready := by
  induction h with
  | empty => simp
  | pick _ hready _ _ ih =>
    intro x hx
    rw [applyPick_selected, List.mem_append, List.mem_singleton] at hx
    rcases hx with hx | rfl
    · exact ih x hx
    · exact hready

/-- A state without a selected action is the empty state. -/
theorem eq_empty (h : Admitted ctx f st) (hs : st.selected = []) : st = {} := by
  cases h with
  | empty => rfl
  | pick => simp [applyPick_selected] at hs

end Admitted

/-! ## Counters -/

section Bump

variable {κ : Type} [DecidableEq κ]

theorem bump_apply (counts : κ → ℤ) (places : List κ) (k : κ) :
    bump counts places k = counts k + places.count k := by
  induction places generalizing counts with
  | nil => simp [bump]
  | cons p places ih =>
    have := ih (Function.update counts p (counts p + 1))
    rw [bump] at this ⊢
    rw [List.foldl_cons, this, List.count_cons]
    by_cases h : p = k
    · subst h; simp; ring
    · simp [h, Ne.symm h]

end Bump

/-- The number of selected actions with a property. -/
def countSelected (selected : List String) (p : String → Bool) : ℤ := selected.countP p

@[simp] theorem countSelected_nil (p : String → Bool) : countSelected [] p = 0 := rfl

@[simp] theorem countSelected_append (selected : List String) (a : String) (p : String → Bool) :
    countSelected (selected ++ [a]) p = countSelected selected p + if p a then 1 else 0 := by
  simp only [countSelected, List.countP_append, List.countP_singleton]
  split_ifs <;> simp

/-- The positions in a list of rules over which a property holds are listed once. -/
theorem count_ruleIds {α : Type} (rules : List α) (p : α → Bool) (k : ℕ) :
    (((rules.zipIdx.filter fun row => p row.1).map (·.2)).count k : ℤ) =
      if (rules[k]?.map p).getD false then 1 else 0 := by
  have hnd : ((rules.zipIdx.filter fun row => p row.1).map (·.2)).Nodup :=
    (List.filter_sublist.map _).nodup (by rw [List.zipIdx_map_snd]; exact List.nodup_range' _)
  rw [hnd.count, Nat.cast_ite, Nat.cast_one, Nat.cast_zero]
  refine if_congr ?_ rfl rfl
  rw [List.mem_map]
  constructor
  · rintro ⟨⟨r, i⟩, hr, rfl⟩
    obtain ⟨hmem, hp⟩ := List.mem_filter.1 hr
    rw [List.mem_zipIdx_iff_getElem?] at hmem
    simp_all
  · intro h
    cases hr : rules[k]? with
    | none => simp [hr] at h
    | some r =>
      refine ⟨(r, k), List.mem_filter.2 ⟨?_, by simpa [hr] using h⟩, rfl⟩
      rw [List.mem_zipIdx_iff_getElem?]
      exact hr

/-- Is an action in the scope of the budget rule at a position? -/
def inBudget (ctx : Ctx) (ruleId : ℕ) (a : String) : Bool :=
  (ctx.derived.budgetRules[ruleId]?.map fun rule => rule.scope.contains a).getD false

/-- Is an action in the no-overlap scope at a position? -/
def inOverlap (ctx : Ctx) (scopeId : ℕ) (a : String) : Bool :=
  (ctx.derived.noOverlapScopes[scopeId]?.map fun scope => scope.contains a).getD false

/-- What the counters of a batch stand for. -/
structure Counters (ctx : Ctx) (st : BatchBuildState) : Prop where
  ble : st.bleCount = countSelected st.selected (ctx.protocol · = .ble)
  localNet : st.localCount = countSelected st.selected (ctx.protocol · = .localNet)
  unknown : st.unknownCount = countSelected st.selected (ctx.protocol · = .unknown)
  budget : ∀ ruleId, st.budgetCounts ruleId = countSelected st.selected (inBudget ctx ruleId)
  overlap : ∀ scopeId,
    st.noOverlapCounts scopeId = countSelected st.selected (inOverlap ctx scopeId)

/-- A pick counts the picked action. -/
theorem Counters.pick (h : Counters ctx st) (a : String) :
    Counters ctx (applyPickToBatchState ctx a st) where
  ble := by
    rw [applyPick_selected, countSelected_append, ← h.ble]
    simp only [applyPickToBatchState, decide_eq_true_eq]
    split_ifs <;> simp
  localNet := by
    rw [applyPick_selected, countSelected_append, ← h.localNet]
    simp only [applyPickToBatchState, decide_eq_true_eq]
    split_ifs <;> simp
  unknown := by
    rw [applyPick_selected, countSelected_append, ← h.unknown]
    simp only [applyPickToBatchState, decide_eq_true_eq]
    split_ifs <;> simp
  budget := fun ruleId => by
    rw [applyPick_selected, countSelected_append, ← h.budget]
    simp only [applyPickToBatchState, bump_apply, Ctx.budgetRuleIds, inBudget]
    rw [count_ruleIds _ fun rule : BudgetRule => rule.scope.contains a]
    rfl
  overlap := fun scopeId => by
    rw [applyPick_selected, countSelected_append, ← h.overlap]
    simp only [applyPickToBatchState, bump_apply, Ctx.overlapScopeIds, inOverlap]
    rw [count_ruleIds _ fun scope : List String => scope.contains a]
    rfl

theorem Admitted.counters (h : Admitted ctx f st) : Counters ctx st := by
  induction h with
  | empty => exact ⟨rfl, rfl, rfl, fun _ => rfl, fun _ => rfl⟩
  | pick _ _ _ _ ih => exact ih.pick _

/-! ## What the admission test says -/

/-- The tests that an allowed candidate has passed. -/
structure Allowance (ctx : Ctx) (f : Frontier String) (st : BatchBuildState) (a : String) :
    Prop where
  unknownWaits : st.selected = [] ∨ st.unknownCount < ctx.derived.unknownLimit
  barrier : phaseBarrierBlocks ctx a st.selected f.done = false
  ble : ctx.protocol a = .ble → st.bleCount < ctx.derived.bleLimit
  localNet : ctx.protocol a = .localNet → st.localCount < ctx.derived.localLimit
  unknownAlone : ctx.protocol a = .unknown → st.selected = []
  budget : budgetConflict ctx a st.budgetCounts = false
  overlap : overlapConflict ctx a st.noOverlapCounts = false
  minGap : minGapConflict ctx a st.selected = false

theorem allowance {allow : Bool} {a : String}
    (h : candidateAllowedInBatch ctx allow a st f.ready f.done = true) :
    Allowance ctx f st a := by
  simp only [candidateAllowedInBatch, Bool.and_eq_true, Bool.not_eq_true',
    Bool.and_eq_false_iff, Bool.or_eq_false_iff, decide_eq_false_iff_not, not_le,
    ge_iff_le, Bool.not_eq_false', List.isEmpty_iff] at h
  obtain ⟨⟨⟨⟨⟨⟨⟨⟨⟨⟨⟨⟨⟨⟨⟨⟨hunknown, -⟩, -⟩, hbarrier⟩, -⟩, -⟩, -⟩, -⟩, -⟩, -⟩, hble⟩, -⟩, hlocal⟩,
    halone⟩, hbudget⟩, hoverlap⟩, hgap⟩ := h
  exact
    { unknownWaits := hunknown.symm
      barrier := hbarrier
      ble := fun hp => hble.resolve_left (absurd hp)
      localNet := fun hp => hlocal.resolve_left (absurd hp)
      unknownAlone := fun hp => (halone.resolve_left (absurd hp)).2
      budget := hbudget
      overlap := hoverlap
      minGap := hgap }

/-- The bounds a batch keeps. -/
structure Within (ctx : Ctx) (selected : List String) : Prop where
  ble : countSelected selected (ctx.protocol · = .ble) ≤ ctx.derived.bleLimit
  localNet : countSelected selected (ctx.protocol · = .localNet) ≤ ctx.derived.localLimit
  unknown : ∀ a ∈ selected, ctx.protocol a = .unknown → selected = [a]
  budget : ∀ rule ∈ ctx.derived.budgetRules,
    countSelected selected (rule.scope.contains ·) ≤ rule.limit
  overlap : ∀ scope ∈ ctx.derived.noOverlapScopes,
    countSelected selected (scope.contains ·) ≤ 1
  minGap : selected.Pairwise fun before after => (before, after) ∉ ctx.derived.minGapPairs.keys

/-- One action keeps every bound. -/
theorem within_singleton (hl : SoundLimits ctx.derived) (a : String) : Within ctx [a] := by
  have one : ∀ p : String → Bool, countSelected [a] p ≤ 1 := fun p => by
    simpa using (countSelected_append [] a p).le.trans (by split_ifs <;> simp)
  exact
    { ble := (one _).trans hl.ble
      localNet := (one _).trans hl.localNet
      unknown := fun x hx _ => by rw [List.mem_singleton.1 hx]
      budget := fun rule hr => (one _).trans (hl.budgets rule hr)
      overlap := fun scope _ => one _
      minGap := List.pairwise_singleton _ _ }

theorem within_nil (hl : SoundLimits ctx.derived) : Within ctx [] where
  ble := by simpa using Int.le_trans (by decide) hl.ble
  localNet := by simpa using Int.le_trans (by decide) hl.localNet
  unknown := by simp
  budget := fun rule hr => by simpa using Int.le_trans (by decide) (hl.budgets rule hr)
  overlap := by simp
  minGap := List.Pairwise.nil

/-- An allowed candidate under a budget rule finds room in it. -/
theorem Allowance.budget_lt {a : String} (h : Allowance ctx f st a) {ruleId : ℕ}
    {rule : BudgetRule} (hr : ctx.derived.budgetRules[ruleId]? = some rule)
    (ha : rule.scope.contains a = true) : st.budgetCounts ruleId < max 1 rule.limit := by
  have := h.budget
  rw [budgetConflict, List.any_eq_false] at this
  have hmem : ruleId ∈ ctx.budgetRuleIds a :=
    List.mem_map.2 ⟨(rule, ruleId),
      List.mem_filter.2 ⟨List.mem_zipIdx_iff_getElem?.2 hr, ha⟩, rfl⟩
  simpa only [hr, ge_iff_le, decide_eq_true_eq, not_le] using this ruleId hmem

/-- An allowed candidate in a no-overlap scope is the first of it. -/
theorem Allowance.overlap_le {a : String} (h : Allowance ctx f st a) {scopeId : ℕ}
    {scope : List String} (hs : ctx.derived.noOverlapScopes[scopeId]? = some scope)
    (ha : scope.contains a = true) : st.noOverlapCounts scopeId ≤ 0 := by
  have := h.overlap
  rw [overlapConflict, List.any_eq_false] at this
  have hmem : scopeId ∈ ctx.overlapScopeIds a :=
    List.mem_map.2 ⟨(scope, scopeId),
      List.mem_filter.2 ⟨List.mem_zipIdx_iff_getElem?.2 hs, ha⟩, rfl⟩
  simpa using this scopeId hmem

theorem Allowance.minGap_notMem {a before : String} (h : Allowance ctx f st a)
    (hb : before ∈ st.selected) : (before, a) ∉ ctx.derived.minGapPairs.keys := by
  have := h.minGap
  rw [minGapConflict, List.any_eq_false] at this
  simpa using this before hb

/-- **A batch keeps its bounds**, pick by pick. -/
theorem Admitted.within (hl : SoundLimits ctx.derived) (h : Admitted ctx f st) :
    Within ctx st.selected := by
  induction h with
  | empty => exact within_nil hl
  | @pick st a allow hst hready hnew hallowed ih =>
    have hc := hst.counters
    have ha := allowance hallowed
    rw [applyPick_selected]
    constructor
    · rw [countSelected_append]
      split_ifs with hp
      · have := ha.ble (of_decide_eq_true hp)
        rw [hc.ble] at this
        omega
      · simpa using ih.ble
    · rw [countSelected_append]
      split_ifs with hp
      · have := ha.localNet (of_decide_eq_true hp)
        rw [hc.localNet] at this
        omega
      · simpa using ih.localNet
    · -- an unknown action is first, and nothing follows it
      intro x hx hp
      rcases List.mem_append.1 hx with hx | hx
      · rcases ha.unknownWaits with hs | hlt
        · simp [hs] at hx
        · rw [hc.unknown, hl.unknown, ih.unknown x hx hp] at hlt
          simp [countSelected, hp] at hlt
      · obtain rfl := List.mem_singleton.1 hx
        rw [ha.unknownAlone hp, List.nil_append]
    · intro rule hr
      rw [countSelected_append]
      split_ifs with hp
      · obtain ⟨ruleId, hid⟩ := List.mem_iff_getElem?.1 hr
        have := ha.budget_lt hid hp
        rw [hc.budget, max_eq_right (hl.budgets rule hr)] at this
        have heq : inBudget ctx ruleId = fun x => rule.scope.contains x := by
          funext x
          simp [inBudget, hid]
        rw [heq] at this
        omega
      · simpa using ih.budget rule hr
    · intro scope hs
      rw [countSelected_append]
      split_ifs with hp
      · obtain ⟨scopeId, hid⟩ := List.mem_iff_getElem?.1 hs
        have := ha.overlap_le hid hp
        rw [hc.overlap] at this
        have heq : inOverlap ctx scopeId = fun x => scope.contains x := by
          funext x
          simp [inOverlap, hid]
        rw [heq] at this
        omega
      · simpa using ih.overlap scope hs
    · rw [List.pairwise_append]
      refine ⟨ih.minGap, List.pairwise_singleton _ _, fun x hx y hy => ?_⟩
      obtain rfl := List.mem_singleton.1 hy
      exact ha.minGap_notMem hx

/-- Verification is admitted only when every control action is done. -/
theorem Admitted.barrier (h : Admitted ctx f st) {a : String} (ha : a ∈ st.selected)
    (hp : ctx.phase a = .postControlVerification) :
    ∀ row ∈ ctx.phases, row.1 ≠ a → row.2 = .control → row.1 ∈ f.done := by
  induction h with
  | empty => simp at ha
  | @pick st b allow hst hready hnew hallowed ih =>
    rw [applyPick_selected, List.mem_append, List.mem_singleton] at ha
    rcases ha with ha | rfl
    · exact ih ha
    · intro row hrow hne hctl
      have hb := (allowance hallowed).barrier
      rw [phaseBarrierBlocks, hp] at hb
      simp only [List.any_eq_false, Bool.and_eq_true, Bool.not_eq_true',
        decide_eq_true_eq, not_and] at hb
      simpa using hb row hrow ⟨hne, hctl⟩

/-! ## The empty batch -/

/-- Only the phase barrier keeps an action out of an empty batch. -/
theorem allowed_empty_iff (hl : SoundLimits ctx.derived) {allow : Bool} {a : String}
    {ready done : List String} :
    candidateAllowedInBatch ctx allow a {} ready done = !phaseBarrierBlocks ctx a [] done := by
  have hinc : candidateOccupancyIncrement ctx a [] (fun _ => 0) ≤ 1 := by
    unfold candidateOccupancyIncrement
    split
    · simp [cloudRequestIncrement]
    · simp [localFrontierIncrement]
    · exact le_rfl
  have hbudget : budgetConflict ctx a (fun _ => 0) = false := by
    rw [budgetConflict, List.any_eq_false]
    intro ruleId _
    split <;> simp
  have hoverlap : overlapConflict ctx a (fun _ => 0) = false := by
    rw [overlapConflict, List.any_eq_false]
    simp
  have h1 := hl.total
  have h2 := hl.ble
  have h3 := hl.cloud
  have h4 := hl.localNet
  have h5 := hl.unknown
  simp only [candidateAllowedInBatch, hbudget, hoverlap, snapshotFrontierBlocksCandidate,
    conservativeBatchCompatible, minGapConflict, List.isEmpty_nil, List.any_nil, List.length_nil,
    Bool.not_true, Bool.and_false, Bool.not_false, Bool.true_and, Bool.and_true, Bool.false_and,
    if_true, Bool.or_false, zero_add]
  have e1 : decide ((0 : ℤ) ≥ ctx.derived.bleLimit) = false := by simp; omega
  have e2 : decide ((0 : ℤ) ≥ ctx.derived.localLimit) = false := by simp; omega
  have e3 : decide ((0 : ℤ) ≥ ctx.derived.unknownLimit) = false := by simp; omega
  have e4 : decide (((0 : ℕ) : ℤ) ≥ ctx.derived.totalLimit) = false := by simp; omega
  have e5 : decide (candidateOccupancyIncrement ctx a [] (fun _ => 0) > ctx.derived.totalLimit) =
      false := by simp; omega
  have e6 : decide (candidateOccupancyIncrement ctx a [] (fun _ => 0) > ctx.derived.cloudLimit) =
      false := by simp; omega
  rw [e1, e2, e3, e4, e5, e6]
  simp

end FloWeaver.Scheduler
