import FloWeaver.Scheduler.Policy

/-!
# What the derivation of the policy preserves

The policy is a fold over the soft constraints.  `Keeps` says of a property what each single
update has to preserve, for constraints of the kinds in question; it then holds after the
fold.

* `Keeps.derive`, `Keeps.derive_of_mem` — the invariant rules of the derivation.
* `soundLimits_derive` — every derived policy leaves room for one action of each kind.
* `keeps_softOrder` — a soft order is never withdrawn.
* `keeps_fallbackKind` — a fallback row has the kind of a constraint.
-/

namespace FloWeaver.Scheduler

open Py

/-- Limits that leave room for one action of every kind. -/
structure SoundLimits (d : DerivedConstraintPolicy) : Prop where
  total : 1 ≤ d.totalLimit
  ble : 1 ≤ d.bleLimit
  cloud : 1 ≤ d.cloudLimit
  localNet : 1 ≤ d.localLimit
  unknown : d.unknownLimit = 1
  budgets : ∀ rule ∈ d.budgetRules, 1 ≤ rule.limit

/-! ## The invariant rule -/

/-- A property that every update of the policy preserves, as long as the kinds of the
constraints satisfy `K`. -/
structure Keeps (K : String → Prop) (P : DerivedConstraintPolicy → Prop) : Prop where
  record : ∀ d rows, P d → P { d with activeConstraints := rows }
  effects : ∀ d modeL (row : FallbackRow), K row.kind → P d → P (fallbackEffects modeL
    { d with triggeredFallbacks := d.triggeredFallbacks ++ [row] })
  budget : ∀ d d' scope params, applyBudget scope params d = .ok d' → P d → P d'
  noOverlap : ∀ d scope params, P d → P (applyNoOverlap scope params d)
  rateLimit : ∀ d params, P d → P (applyRateLimit params d)
  backoff : ∀ d d' params active, applyBackoff params active d = .ok d' → P d → P d'
  batch : ∀ d d' scope params, addBatchRule scope params d = .ok d' → P d → P d'
  session : ∀ d d' scope params, addSessionRule scope params d = .ok d' → P d → P d'
  minGap : ∀ d gapMs pair, P d → P (addMinGap gapMs d pair)
  softOrder : ∀ d pair, P d → P (addSoftOrder d pair)

namespace Keeps

variable {K : String → Prop} {P : DerivedConstraintPolicy → Prop}
  {d d' : DerivedConstraintPolicy}

theorem foldl {α : Type} {step : DerivedConstraintPolicy → α → DerivedConstraintPolicy}
    (hstep : ∀ d a, P d → P (step d a)) (l : List α) (d : DerivedConstraintPolicy) (hd : P d) :
    P (l.foldl step d) := by
  induction l generalizing d with
  | nil => exact hd
  | cons a l ih => exact ih _ (hstep d a hd)

theorem applyConstraint (h : Keeps K P) {c : SoftConstraint} {params : Dict} {active : Bool}
    (hc : applyConstraint c params active d = .ok d') (hd : P d) : P d' := by
  unfold Scheduler.applyConstraint at hc
  dsimp only at hc
  split_ifs at hc
  · exact h.budget _ _ _ _ hc hd
  · obtain rfl := pure_eq_ok.1 hc
    exact h.noOverlap _ _ _ hd
  · obtain rfl := pure_eq_ok.1 hc
    exact h.rateLimit _ _ hd
  · exact h.backoff _ _ _ _ hc hd
  · exact h.batch _ _ _ _ hc hd
  · exact h.session _ _ _ _ hc hd
  · obtain ⟨gapMs, -, hc⟩ := bind_eq_ok.1 hc
    obtain rfl := pure_eq_ok.1 hc
    exact foldl (h.minGap · gapMs) _ _ hd
  · obtain rfl := pure_eq_ok.1 hc
    exact foldl h.softOrder _ _ hd
  · obtain rfl := pure_eq_ok.1 hc
    exact hd

theorem applyFallback (h : Keeps K P) {mode kind : String} {scope : List String} {params : Dict}
    (hk : K kind) (hf : applyFallback mode scope params kind d = .ok d') (hd : P d) : P d' := by
  simp only [Scheduler.applyFallback, bind_eq_ok, pure_eq_ok] at hf
  obtain ⟨_, -, rfl⟩ := hf
  exact h.effects _ _ _ hk hd

theorem fallbackAfter (h : Keeps K P) {c : SoftConstraint} {mode : String} {params : Dict}
    {active onInactive : Bool} (hk : K c.kind)
    (hf : fallbackAfter c mode params active onInactive d = .ok d') (hd : P d) : P d' := by
  unfold Scheduler.fallbackAfter at hf
  split_ifs at hf
  · exact h.applyFallback hk hf hd
  · obtain rfl := pure_eq_ok.1 hf
    exact hd

/-- One soft constraint. -/
theorem deriveStep (h : Keeps K P) {metrics : Dict} {c : SoftConstraint} (hk : K c.kind)
    (hs : deriveStep metrics d c = .ok d') (hd : P d) : P d' := by
  obtain ⟨mode, -, hs⟩ := bind_eq_ok.1 hs
  obtain ⟨active, -, hs⟩ := bind_eq_ok.1 hs
  dsimp only at hs
  split_ifs at hs with h1 h2 h3
  · obtain ⟨d1, hc, hf⟩ := bind_eq_ok.1 hs
    exact h.fallbackAfter hk hf (h.applyConstraint hc (h.record _ _ hd))
  · obtain ⟨params, -, hs⟩ := bind_eq_ok.1 hs
    obtain ⟨d1, hf, hs⟩ := bind_eq_ok.1 hs
    obtain ⟨d2, hc, hs⟩ := bind_eq_ok.1 hs
    exact h.fallbackAfter hk hs (h.applyConstraint hc (h.applyFallback hk hf (h.record _ _ hd)))
  · obtain ⟨params, -, hs⟩ := bind_eq_ok.1 hs
    obtain ⟨d1, hf, hs⟩ := bind_eq_ok.1 hs
    obtain rfl := pure_eq_ok.1 hs
    exact h.applyFallback hk hf (h.record _ _ hd)
  · obtain rfl := pure_eq_ok.1 hs
    exact h.record _ _ hd

/-- One inferred rule. -/
theorem autoStep (h : Keeps K P) {metrics : Dict} {c : SoftConstraint} (hk : K c.kind)
    (hs : autoStep metrics d c = .ok d') (hd : P d) : P d' := by
  simp only [Scheduler.autoStep, bind_eq_ok] at hs
  obtain ⟨mode, -, active, -, params, -, d1, hr, hs⟩ := hs
  refine h.fallbackAfter hk hs ?_
  unfold addGroupingRule at hr
  split_ifs at hr
  · exact h.batch _ _ _ _ hr (h.record _ _ hd)
  · exact h.session _ _ _ _ hr (h.record _ _ hd)
  · obtain rfl := Except.ok.inj hr
    exact h.record _ _ hd

theorem foldlM_step {step : DerivedConstraintPolicy → SoftConstraint →
      Except PyErr DerivedConstraintPolicy}
    (hstep : ∀ d c d', K c.kind → step d c = .ok d' → P d → P d')
    {constraints : List SoftConstraint} (hk : ∀ c ∈ constraints, K c.kind)
    (hs : constraints.foldlM step d = .ok d') (hd : P d) : P d' := by
  induction constraints generalizing d with
  | nil =>
    obtain rfl := pure_eq_ok.1 hs
    exact hd
  | cons c rest ih =>
    rw [List.foldlM_cons, bind_eq_ok] at hs
    obtain ⟨d1, h1, hs⟩ := hs
    exact ih (fun c hc => hk c (by simp [hc])) hs (hstep d c d1 (hk c (by simp)) h1 hd)

/-- The inferred rules group calls. -/
theorem kind_autoConstraints {target : OptimizationTarget} {c : SoftConstraint}
    (h : c ∈ autoConstraints target d) :
    c.kind = SoftConstraintKind.batchGroup ∨ c.kind = SoftConstraintKind.sameSessionGroup := by
  simp only [autoConstraints, List.mem_append] at h
  rcases h with h | h
  · split_ifs at h
    · exact .inl (by rw [List.mem_singleton.1 h]; rfl)
    · simp at h
  · split_ifs at h
    · exact .inr (by rw [List.mem_singleton.1 h]; rfl)
    · simp at h

/-- What every update preserves holds up to the final clamps. -/
theorem derive (h : Keeps K P) {policy : SchedulerPolicy} {constraints : List SoftConstraint}
    {metrics : Dict} {target : OptimizationTarget} (hk : ∀ c ∈ constraints, K c.kind)
    (hbatch : K SoftConstraintKind.batchGroup) (hsession : K SoftConstraintKind.sameSessionGroup)
    (hs : derivePolicyFromConstraints policy constraints metrics target = .ok d')
    (hinit : P (initialDerived policy (latencyBudget metrics target))) :
    ∃ d, P d ∧ d' = clampLimits policy d := by
  obtain ⟨d1, h1, hs⟩ := bind_eq_ok.1 hs
  obtain ⟨d2, h2, hs⟩ := bind_eq_ok.1 hs
  refine ⟨d2, ?_, (pure_eq_ok.1 hs).symm⟩
  refine foldlM_step (fun d c d' hk hc => h.autoStep hk hc) (fun c hc => ?_) h2
    (foldlM_step (fun d c d' hk hc => h.deriveStep hk hc) hk h1 hinit)
  rcases kind_autoConstraints hc with e | e
  · rw [e]; exact hbatch
  · rw [e]; exact hsession

/-- What the step of one constraint establishes, and every update preserves, holds in the
end. -/
theorem derive_of_mem (h : Keeps (fun _ => True) P) {policy : SchedulerPolicy}
    {constraints : List SoftConstraint} {metrics : Dict} {target : OptimizationTarget}
    {c : SoftConstraint} (hc : c ∈ constraints)
    (hstep : ∀ d d', Scheduler.deriveStep metrics d c = .ok d' → P d')
    (hs : derivePolicyFromConstraints policy constraints metrics target = .ok d') :
    ∃ d, P d ∧ d' = clampLimits policy d := by
  obtain ⟨d1, h1, hs1⟩ := bind_eq_ok.1 hs
  obtain ⟨d2, h2, hs2⟩ := bind_eq_ok.1 hs1
  refine ⟨d2, foldlM_step (K := fun _ => True) (fun d c d' hk hc => h.autoStep hk hc)
    (fun _ _ => trivial) h2 ?_,
    (pure_eq_ok.1 hs2).symm⟩
  clear hs hs1 hs2 h2
  revert h1
  generalize initialDerived policy (latencyBudget metrics target) = d
  induction constraints generalizing d with
  | nil => exact absurd hc List.not_mem_nil
  | cons head rest ih =>
    intro h1
    rw [List.foldlM_cons, bind_eq_ok] at h1
    obtain ⟨d', hhead, h1⟩ := h1
    rcases List.mem_cons.1 hc with rfl | hc
    · exact foldlM_step (K := fun _ => True) (fun d c d' hk hc => h.deriveStep hk hc)
        (fun _ _ => trivial) h1 (hstep d d' hhead)
    · exact ih hc d' h1

end Keeps

/-! ## The frame of the updates -/

section Frame

variable (modeL : String) (d : DerivedConstraintPolicy)

@[simp] theorem fallbackEffects_budgetRules :
    (fallbackEffects modeL d).budgetRules = d.budgetRules := by
  simp only [fallbackEffects, apply_ite DerivedConstraintPolicy.budgetRules, ite_self]

@[simp] theorem fallbackEffects_softOrderPairs :
    (fallbackEffects modeL d).softOrderPairs = d.softOrderPairs := by
  simp only [fallbackEffects, apply_ite DerivedConstraintPolicy.softOrderPairs, ite_self]

@[simp] theorem fallbackEffects_unknownLimit :
    (fallbackEffects modeL d).unknownLimit =
      if contains modeL "serial_unknown" then 1 else d.unknownLimit := by
  simp only [fallbackEffects, apply_ite DerivedConstraintPolicy.unknownLimit, ite_self]

end Frame

/-- The parts that most updates leave alone. -/
structure SameRest (d d' : DerivedConstraintPolicy) : Prop where
  unknownLimit : d'.unknownLimit = d.unknownLimit
  softOrderPairs : d'.softOrderPairs = d.softOrderPairs
  triggeredFallbacks : d'.triggeredFallbacks = d.triggeredFallbacks

/-- What a budget does to the rules: nothing, or one more rule with room for an action. -/
theorem applyBudget_frame {scope : List String} {params : Dict} {d d' : DerivedConstraintPolicy}
    (h : applyBudget scope params d = .ok d') :
    SameRest d d' ∧ (d'.budgetRules = d.budgetRules ∨
      ∃ rule, 1 ≤ rule.limit ∧ d'.budgetRules = d.budgetRules ++ [rule]) := by
  obtain ⟨limit, -, h⟩ := bind_eq_ok.1 h
  split_ifs at h <;> obtain rfl := pure_eq_ok.1 h
  · exact ⟨⟨rfl, rfl, rfl⟩, .inr ⟨_, le_max_left _ _, rfl⟩⟩
  all_goals exact ⟨⟨rfl, rfl, rfl⟩, .inl rfl⟩

theorem applyBackoff_frame {params : Dict} {active : Bool} {d d' : DerivedConstraintPolicy}
    (h : applyBackoff params active d = .ok d') :
    SameRest d d' ∧ d'.budgetRules = d.budgetRules := by
  unfold applyBackoff at h
  split_ifs at h
  · obtain ⟨_, -, h⟩ := bind_eq_ok.1 h
    obtain rfl := pure_eq_ok.1 h
    exact ⟨⟨rfl, rfl, rfl⟩, rfl⟩
  · obtain rfl := pure_eq_ok.1 h
    exact ⟨⟨rfl, rfl, rfl⟩, rfl⟩

theorem addBatchRule_frame {scope : List String} {params : Dict} {d d' : DerivedConstraintPolicy}
    (h : addBatchRule scope params d = .ok d') :
    SameRest d d' ∧ d'.budgetRules = d.budgetRules := by
  obtain ⟨_, -, h⟩ := bind_eq_ok.1 h
  obtain ⟨_, -, h⟩ := bind_eq_ok.1 h
  obtain rfl := pure_eq_ok.1 h
  split_ifs <;> exact ⟨⟨rfl, rfl, rfl⟩, rfl⟩

theorem addSessionRule_frame {scope : List String} {params : Dict}
    {d d' : DerivedConstraintPolicy} (h : addSessionRule scope params d = .ok d') :
    SameRest d d' ∧ d'.budgetRules = d.budgetRules := by
  obtain ⟨_, -, h⟩ := bind_eq_ok.1 h
  obtain rfl := pure_eq_ok.1 h
  exact ⟨⟨rfl, rfl, rfl⟩, rfl⟩

theorem applyNoOverlap_frame (scope : List String) (params : Dict) (d : DerivedConstraintPolicy) :
    SameRest d (applyNoOverlap scope params d) ∧
      (applyNoOverlap scope params d).budgetRules = d.budgetRules := by
  unfold applyNoOverlap
  dsimp only
  split_ifs <;> exact ⟨⟨rfl, rfl, rfl⟩, rfl⟩

theorem SameRest.mem_softOrderPairs {d d' : DerivedConstraintPolicy} (h : SameRest d d')
    {pair : String × String} (hp : pair ∈ d.softOrderPairs) : pair ∈ d'.softOrderPairs := by
  rw [h.softOrderPairs]
  exact hp

theorem SameRest.forall_fallbacks {d d' : DerivedConstraintPolicy} (h : SameRest d d')
    {K : String → Prop} (hk : ∀ row ∈ d.triggeredFallbacks, K row.kind) :
    ∀ row ∈ d'.triggeredFallbacks, K row.kind := by
  rw [h.triggeredFallbacks]
  exact hk

/-! ## Limits -/

/-- One action of unknown protocol at a time, and budgets with room for one action. -/
def RoomForOne (d : DerivedConstraintPolicy) : Prop :=
  d.unknownLimit = 1 ∧ ∀ rule ∈ d.budgetRules, 1 ≤ rule.limit

theorem RoomForOne.of_frame {d d' : DerivedConstraintPolicy} (h : RoomForOne d)
    (hf : SameRest d d' ∧ d'.budgetRules = d.budgetRules) : RoomForOne d' :=
  ⟨hf.1.unknownLimit.trans h.1, hf.2 ▸ h.2⟩

theorem keeps_roomForOne : Keeps (fun _ => True) RoomForOne where
  record _ _ h := h
  effects d modeL row _ h := by
    refine ⟨?_, by rw [fallbackEffects_budgetRules]; exact h.2⟩
    rw [fallbackEffects_unknownLimit]
    split_ifs
    · rfl
    · exact h.1
  budget d d' scope params hc h := by
    obtain ⟨hf, hb | ⟨rule, hr, hb⟩⟩ := applyBudget_frame hc
    · exact h.of_frame ⟨hf, hb⟩
    · refine ⟨hf.unknownLimit.trans h.1, fun r hmem => ?_⟩
      rw [hb, List.mem_append, List.mem_singleton] at hmem
      rcases hmem with hmem | rfl
      · exact h.2 r hmem
      · exact hr
  noOverlap d scope params h := h.of_frame (applyNoOverlap_frame scope params d)
  rateLimit _ _ h := h
  backoff _ _ _ _ hc h := h.of_frame (applyBackoff_frame hc)
  batch _ _ _ _ hc h := h.of_frame (addBatchRule_frame hc)
  session _ _ _ _ hc h := h.of_frame (addSessionRule_frame hc)
  minGap _ _ _ h := h
  softOrder _ _ h := h

/-- Every derived policy leaves room for one action of each kind. -/
theorem soundLimits_derive {policy : SchedulerPolicy} {constraints : List SoftConstraint}
    {metrics : Dict} {target : OptimizationTarget} {d : DerivedConstraintPolicy}
    (h : derivePolicyFromConstraints policy constraints metrics target = .ok d) :
    SoundLimits d := by
  obtain ⟨d, ⟨hu, hb⟩, rfl⟩ := keeps_roomForOne.derive (fun _ _ => trivial) trivial trivial h
    ⟨rfl, by simp [initialDerived]⟩
  exact
    { total := le_max_left _ _
      ble := le_max_left _ _
      cloud := le_max_left _ _
      localNet := le_max_left _ _
      unknown := by simp [clampLimits, hu]
      budgets := hb }

/-! ## Soft orders -/

/-- A soft order that is there stays there. -/
theorem keeps_softOrder (pair : String × String) :
    Keeps (fun _ => True) fun d => pair ∈ d.softOrderPairs where
  record _ _ h := h
  effects d modeL row _ h := by
    rw [fallbackEffects_softOrderPairs]
    exact h
  budget _ _ _ _ hc h := (applyBudget_frame hc).1.mem_softOrderPairs h
  noOverlap d scope params h := (applyNoOverlap_frame scope params d).1.mem_softOrderPairs h
  rateLimit _ _ h := h
  backoff _ _ _ _ hc h := (applyBackoff_frame hc).1.mem_softOrderPairs h
  batch _ _ _ _ hc h := (addBatchRule_frame hc).1.mem_softOrderPairs h
  session _ _ _ _ hc h := (addSessionRule_frame hc).1.mem_softOrderPairs h
  minGap _ _ _ h := List.mem_insert_of_mem h
  softOrder _ _ h := List.mem_insert_of_mem h

/-- A soft order records the neighbours of its scope. -/
theorem applyConstraint_softOrder {c : SoftConstraint}
    (hkind : c.kind = SoftConstraintKind.softOrder) (params : Dict) (active : Bool)
    (d : DerivedConstraintPolicy) : applyConstraint c params active d =
      .ok ((neighbours (c.scope.filter (· ≠ ""))).foldl addSoftOrder d) := by
  unfold applyConstraint
  simp only [hkind]
  iterate 7 rw [if_neg (by decide +kernel)]
  rw [if_pos trivial]
  rfl

/-! ## Fallback rows -/

@[simp] theorem fallbackEffects_triggeredFallbacks (modeL : String)
    (d : DerivedConstraintPolicy) :
    (fallbackEffects modeL d).triggeredFallbacks = d.triggeredFallbacks := by
  simp only [fallbackEffects, apply_ite DerivedConstraintPolicy.triggeredFallbacks, ite_self]

/-- A fallback row has the kind of the constraint it came from. -/
theorem keeps_fallbackKind (K : String → Prop) :
    Keeps K fun d => ∀ row ∈ d.triggeredFallbacks, K row.kind where
  record _ _ h := h
  effects d modeL row hk h := by
    rw [fallbackEffects_triggeredFallbacks]
    intro r hr
    rcases List.mem_append.1 hr with hr | hr
    · exact h r hr
    · rw [List.mem_singleton.1 hr]
      exact hk
  budget _ _ _ _ hc h := (applyBudget_frame hc).1.forall_fallbacks h
  noOverlap d scope params h := (applyNoOverlap_frame scope params d).1.forall_fallbacks h
  rateLimit _ _ h := h
  backoff _ _ _ _ hc h := (applyBackoff_frame hc).1.forall_fallbacks h
  batch _ _ _ _ hc h := (addBatchRule_frame hc).1.forall_fallbacks h
  session _ _ _ _ hc h := (addSessionRule_frame hc).1.forall_fallbacks h
  minGap _ _ _ h := h
  softOrder _ _ h := h

end FloWeaver.Scheduler
