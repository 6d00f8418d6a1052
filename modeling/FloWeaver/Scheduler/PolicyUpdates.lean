import FloWeaver.Scheduler.Policy

/-!
# A soft constraint as a list of updates

What a soft constraint does to the derived policy is a list of small updates: it lowers a limit,
caps or divides the rate, adds a rule, clears or shrinks the batch rules.  Which updates these are,
and whether reading them raises, does not depend on the policy derived so far, except for the
latency budget, which never changes.

* `Update`, `Update.apply` — the updates, and what they do.
* `stepUpdates`, `autoUpdates` — the updates of a given constraint and of an inferred one.
* `performs_deriveStep`, `performs_autoStep` — the scheduler performs exactly these updates.
* `performs_foldlM` — a list of constraints performs the updates of its members in order.
-/

namespace FloWeaver.Scheduler

open Py

/-! ## Updates -/

/-- The limits that only ever fall, down to one. -/
inductive Limit where
  | total
  | ble
  | cloud
  | localNet
  | unknown
  | burst
  | window

/-- One update of the derived policy. -/
inductive Update where
  | note (row : ActiveConstraint)
  | trigger (row : FallbackRow)
  | cap (limit : Limit) (n : ℤ)
  | capQps (qps : ℚ)
  | divideQps (factor : ℚ)
  | disableReuse
  | raiseReuse (ms : ℤ)
  | addBudget (rule : BudgetRule)
  | addOverlap (scope : List String)
  | addSession (rule : SessionRule)
  | addBatch (rule : BatchRule)
  | clearBatch
  | shrinkBatch
  | addGap (pair : String × String) (ms : ℤ)
  | addOrder (pair : String × String)

/-- Lowers a limit to `n`, but not below one. -/
def lowerLimit (x n : ℤ) : ℤ := max 1 (min x n)

/-- Lowers one of the limits. -/
def Limit.lower (n : ℤ) (d : DerivedConstraintPolicy) : Limit → DerivedConstraintPolicy
  | .total => { d with totalLimit := lowerLimit d.totalLimit n }
  | .ble => { d with bleLimit := lowerLimit d.bleLimit n }
  | .cloud => { d with cloudLimit := lowerLimit d.cloudLimit n }
  | .localNet => { d with localLimit := lowerLimit d.localLimit n }
  | .unknown => { d with unknownLimit := lowerLimit d.unknownLimit n }
  | .burst => { d with rateLimitBurst := lowerLimit d.rateLimitBurst n }
  | .window => { d with rateLimitWindowMs := lowerLimit d.rateLimitWindowMs n }

/-- The rate behind a backoff. -/
def backOff (qps factor : ℚ) : ℚ := min qps (max (1 / 10) (qps / max 1 factor))

/-- A batch rule behind a fallback that shrinks batches. -/
def shrinkRule (rule : BatchRule) : BatchRule :=
  { rule with maxBatchSize := min rule.maxBatchSize 4, maxWaitMs := min rule.maxWaitMs 40 }

def Update.apply (d : DerivedConstraintPolicy) : Update → DerivedConstraintPolicy
  | .note row => { d with activeConstraints := d.activeConstraints ++ [row] }
  | .trigger row => { d with triggeredFallbacks := d.triggeredFallbacks ++ [row] }
  | .cap limit n => limit.lower n d
  | .capQps qps => { d with maxQps := min d.maxQps qps }
  | .divideQps factor => { d with maxQps := backOff d.maxQps factor }
  | .disableReuse => { d with reuseEnabled := false }
  | .raiseReuse ms => { d with reuseWindowMs := max d.reuseWindowMs ms }
  | .addBudget rule => { d with budgetRules := d.budgetRules ++ [rule] }
  | .addOverlap scope => { d with noOverlapScopes := d.noOverlapScopes ++ [scope] }
  | .addSession rule => { d with sessionRules := d.sessionRules ++ [rule] }
  | .addBatch rule => { d with batchRules := d.batchRules ++ [rule] }
  | .clearBatch => { d with batchRules := [] }
  | .shrinkBatch => { d with batchRules := d.batchRules.map shrinkRule }
  | .addGap pair ms =>
      { d with minGapPairs := d.minGapPairs.set pair (max ((d.minGapPairs.get? pair).getD 0) ms) }
  | .addOrder pair => { d with softOrderPairs := d.softOrderPairs.insert pair }

/-- Performs updates in order. -/
def applyAll (us : List Update) (d : DerivedConstraintPolicy) : DerivedConstraintPolicy :=
  us.foldl Update.apply d

variable {us vs : List Update} {d : DerivedConstraintPolicy} {latency : ℤ}

@[simp] theorem applyAll_nil : applyAll [] d = d := rfl

@[simp] theorem applyAll_cons (u : Update) : applyAll (u :: us) d = applyAll us (u.apply d) := rfl

theorem applyAll_append : applyAll (us ++ vs) d = applyAll vs (applyAll us d) :=
  List.foldl_append

theorem applyAll_ite (p : Bool) : applyAll (if p then us else []) d =
    if p then applyAll us d else d := by
  cases p <;> rfl

/-- No update touches the latency budget. -/
@[simp] theorem latencyBudgetMs_applyAll (us : List Update) (d : DerivedConstraintPolicy) :
    (applyAll us d).latencyBudgetMs = d.latencyBudgetMs := by
  induction us generalizing d with
  | nil => rfl
  | cons u us ih =>
    rw [applyAll_cons, ih]
    cases u with
    | cap limit n => cases limit <;> rfl
    | _ => rfl

/-! ## Performing updates -/

/-- A step performs a list of updates, or raises without looking at the policy. -/
def Performs (latency : ℤ) (step : DerivedConstraintPolicy → Except PyErr DerivedConstraintPolicy)
    (us : Except PyErr (List Update)) : Prop :=
  ∀ d, d.latencyBudgetMs = latency → step d = us.map fun us => applyAll us d

variable {step next : DerivedConstraintPolicy → Except PyErr DerivedConstraintPolicy}

/-- One step after the other. -/
theorem Performs.bind {us vs : Except PyErr (List Update)} (h : Performs latency step us)
    (h' : Performs latency next vs) :
    Performs latency (fun d => step d >>= next) (do
      let us ← us
      let vs ← vs
      return us ++ vs) := by
  intro d hd
  dsimp only
  rw [h d hd]
  cases us with
  | error e => rfl
  | ok us =>
    have hnext := h' (applyAll us d) (by simpa using hd)
    cases vs with
    | error e => exact hnext
    | ok vs =>
      refine hnext.trans ?_
      show Except.ok (applyAll vs (applyAll us d)) = Except.ok (applyAll (us ++ vs) d)
      rw [applyAll_append]

/-- A step whose reading comes first. -/
theorem Performs.of_read {α : Type} {x : Except PyErr α}
    {step : α → DerivedConstraintPolicy → Except PyErr DerivedConstraintPolicy}
    {us : α → Except PyErr (List Update)} (h : ∀ a, Performs latency (step a) (us a)) :
    Performs latency (fun d => x >>= fun a => step a d) (x >>= us) := by
  intro d hd
  cases x with
  | error e => rfl
  | ok a => exact h a d hd

/-- A step that is chosen without looking at the policy. -/
theorem Performs.ite {p : Prop} [Decidable p] {us vs : Except PyErr (List Update)}
    (h : Performs latency step us) (h' : Performs latency next vs) :
    Performs latency (fun d => if p then step d else next d) (if p then us else vs) := by
  split_ifs
  · exact h
  · exact h'

theorem Performs.congr {us vs : Except PyErr (List Update)} (h : Performs latency step us)
    (heq : us = vs) : Performs latency step vs :=
  heq ▸ h

theorem Performs.thenPure {us : Except PyErr (List Update)} (h : Performs latency step us) :
    Performs latency (fun d => step d >>= pure) us :=
  fun d hd => (bind_pure (step d)).trans (h d hd)

theorem Performs.of_applyAll {f : DerivedConstraintPolicy → DerivedConstraintPolicy}
    (h : ∀ d, f d = applyAll us d) : Performs latency (fun d => .ok (f d)) (.ok us) :=
  fun d _ => congrArg Except.ok (h d)

/-- A step behind the note of its constraint. -/
theorem Performs.note {us : Except PyErr (List Update)} (row : ActiveConstraint)
    (h : Performs latency step us) :
    Performs latency (fun d => step { d with activeConstraints := d.activeConstraints ++ [row] })
      (do return .note row :: (← us)) := by
  intro d hd
  dsimp only
  rw [h { d with activeConstraints := d.activeConstraints ++ [row] } hd]
  cases us <;> rfl

/-- A list of constraints performs the updates of its members in order. -/
theorem performs_foldlM {γ : Type} {step : DerivedConstraintPolicy → γ →
    Except PyErr DerivedConstraintPolicy} {us : γ → Except PyErr (List Update)}
    (h : ∀ c, Performs latency (step · c) (us c)) (l : List γ) :
    Performs latency (fun d => l.foldlM step d) (do
      let all ← l.mapM us
      return all.flatten) := by
  induction l with
  | nil => exact fun d _ => rfl
  | cons c l ih =>
    intro d hd
    dsimp only
    rw [List.foldlM_cons, List.mapM_cons]
    have hboth := (h c).bind ih d hd
    dsimp only at hboth
    rw [hboth]
    cases us c with
    | error e => rfl
    | ok first =>
      cases l.mapM us with
      | error e => rfl
      | ok all => rfl

/-! ## Fallbacks -/

/-- The updates of a fallback mode. -/
def fallbackUpdates (modeL : String) : List Update :=
  (if contains modeL "disable_reuse" then [.disableReuse] else []) ++
  (if contains modeL "reduce_qps" then [.capQps 1] else []) ++
  (if contains modeL "serialize_local_api_reads" then [.cap .localNet 1]
    else if contains modeL "reduce_parallelism" || contains modeL "serialize" then [.cap .total 1]
    else []) ++
  (if contains modeL "set_ble_parallelism_to_1" then [.cap .ble 1] else []) ++
  (if contains modeL "set_cloud_parallelism_to_1" then [.cap .cloud 1] else []) ++
  (if contains modeL "set_local_parallelism_to_1" then [.cap .localNet 1] else []) ++
  (if contains modeL "serial_unknown" then [.cap .unknown 1] else []) ++
  (if contains modeL "disable_batching" then [.clearBatch] else []) ++
  (if contains modeL "shrink_batch" then [.shrinkBatch] else [])

theorem lowerLimit_one (x : ℤ) : lowerLimit x 1 = 1 := by
  unfold lowerLimit
  omega

theorem fallbackEffects_eq (modeL : String) (d : DerivedConstraintPolicy) :
    fallbackEffects modeL d = applyAll (fallbackUpdates modeL) d := by
  delta fallbackEffects
  extract_lets d0 d1 d2 d3 d4 d5 d6 d7 d8
  -- every let is the application of one part of the updates to the let before it
  have h1 : d1 = applyAll (if contains modeL "disable_reuse" then [.disableReuse] else []) d := by
    rw [applyAll_ite]
    rfl
  have h2 : d2 = applyAll (if contains modeL "reduce_qps" then [.capQps 1] else []) d1 := by
    rw [applyAll_ite]
    rfl
  have h3 : d3 = applyAll (if contains modeL "serialize_local_api_reads" then [.cap .localNet 1]
      else if contains modeL "reduce_parallelism" || contains modeL "serialize" then
        [.cap .total 1] else []) d2 := by
    simp only [d3]
    split_ifs
    · rw [applyAll_cons, applyAll_nil, Update.apply, Limit.lower, lowerLimit_one]
    · rw [applyAll_cons, applyAll_nil, Update.apply, Limit.lower, lowerLimit_one]
    · rfl
  have h4 : d4 = applyAll (if contains modeL "set_ble_parallelism_to_1" then [.cap .ble 1]
      else []) d3 := by
    rw [applyAll_ite, applyAll_cons, applyAll_nil, Update.apply, Limit.lower, lowerLimit_one]
  have h5 : d5 = applyAll (if contains modeL "set_cloud_parallelism_to_1" then [.cap .cloud 1]
      else []) d4 := by
    rw [applyAll_ite, applyAll_cons, applyAll_nil, Update.apply, Limit.lower, lowerLimit_one]
  have h6 : d6 = applyAll (if contains modeL "set_local_parallelism_to_1" then [.cap .localNet 1]
      else []) d5 := by
    rw [applyAll_ite, applyAll_cons, applyAll_nil, Update.apply, Limit.lower, lowerLimit_one]
  have h7 : d7 = applyAll (if contains modeL "serial_unknown" then [.cap .unknown 1] else []) d6 := by
    rw [applyAll_ite, applyAll_cons, applyAll_nil, Update.apply, Limit.lower, lowerLimit_one]
  have h8 : d8 = applyAll (if contains modeL "disable_batching" then [.clearBatch] else []) d7 := by
    rw [applyAll_ite]
    rfl
  have h9 : (if contains modeL "shrink_batch" then { d8 with batchRules := d8.batchRules.map fun row =>
      { row with maxBatchSize := min row.maxBatchSize 4, maxWaitMs := min row.maxWaitMs 40 } }
      else d8) =
      applyAll (if contains modeL "shrink_batch" then [.shrinkBatch] else []) d8 := by
    rw [applyAll_ite]
    rfl
  rw [h9]
  clear_value d8 d7 d6 d5 d4 d3 d2 d1
  rw [fallbackUpdates]
  simp only [applyAll_append, ← h1, ← h2, ← h3, ← h4, ← h5, ← h6, ← h7, ← h8]

/-- The updates of a triggered fallback. -/
def triggerUpdates (mode : String) (scope : List String) (params : Dict) (kind : String) :
    Except PyErr (List Update) := do
  let modeL := lower mode
  let effectiveParams ← shrinkIf (contains modeL "shrink_batch" && isGroupingKind kind) params
  return .trigger { kind, scope, action := mode, params := effectiveParams } ::
    fallbackUpdates modeL

theorem performs_applyFallback (mode : String) (scope : List String) (params : Dict)
    (kind : String) :
    Performs latency (applyFallback mode scope params kind)
      (triggerUpdates mode scope params kind) := by
  intro d _
  unfold applyFallback triggerUpdates
  dsimp only
  cases shrinkIf (contains (lower mode) "shrink_batch" && isGroupingKind kind) params with
  | error e => rfl
  | ok effectiveParams =>
    show Except.ok (fallbackEffects (lower mode) _) =
      Except.ok (applyAll (.trigger _ :: fallbackUpdates (lower mode)) d)
    rw [fallbackEffects_eq, applyAll_cons, Update.apply]

/-- The updates of the fallback of a constraint that was applied. -/
def afterUpdates (constraint : SoftConstraint) (mode : String) (params : Dict)
    (active onInactive : Bool) : Except PyErr (List Update) :=
  if constraint.fallback ≠ "" && (alwaysActive constraint.guard || (!onInactive && active)) then
    triggerUpdates mode (constraintScopeSet constraint) params constraint.kind
  else .ok []

theorem performs_fallbackAfter (constraint : SoftConstraint) (mode : String) (params : Dict)
    (active onInactive : Bool) :
    Performs latency (fallbackAfter constraint mode params active onInactive)
      (afterUpdates constraint mode params active onInactive) := by
  intro d hd
  unfold fallbackAfter afterUpdates
  split_ifs
  · exact performs_applyFallback _ _ _ _ d hd
  · rfl

/-! ## One constraint -/

def budgetUpdates (scope : List String) (params : Dict) : Except PyErr (List Update) := do
  let resource := upper (params.getD "resource" (.str "")).pyStr
  let limit ← (params.getD "limit" (.int 1)).toInt
  if scope ≠ [] ∧ resource ∈ budgetResources then
    return [.addBudget { resource, scope, limit := max 1 limit }]
  if resource ∈ ["BLE", "BLE_PARALLEL"] then return [.cap .ble limit]
  if resource ∈ ["CLOUD", "CLOUD_PARALLEL"] then return [.cap .cloud limit]
  if resource ∈ ["LOCAL", "LOCAL_PARALLEL"] then return [.cap .localNet limit]
  if resource ∈ ["TOTAL", "TOTAL_PARALLEL"] then return [.cap .total limit]
  return []

def noOverlapUpdates (scope : List String) (params : Dict) : List Update :=
  (if startsWith (upper (params.getD "resource" (.str "")).pyStr) "BLE" then [.cap .ble 1]
    else []) ++ [.addOverlap scope]

def rateLimitUpdates (params : Dict) : List Update :=
  (if (params.get "max_qps").isNumber then [.capQps (params.get "max_qps").number] else []) ++
  (if (params.get "burst").isNumber then [.cap .burst (params.get "burst").numberInt] else []) ++
  (if (params.get "window_ms").isNumber then [.cap .window (params.get "window_ms").numberInt]
    else [])

def backoffUpdates (params : Dict) (guardActive : Bool) : Except PyErr (List Update) := do
  if guardActive then
    let factor ← (params.getD "factor" (.int 2)).toFloat
    return [.divideQps factor, .cap .cloud 1]
  return []

def batchRuleUpdates (latency : ℤ) (scope : List String) (params : Dict) :
    Except PyErr (List Update) := do
  let maxWaitMs ← (params.getD "max_wait_ms" (.int 80)).toInt
  let maxWaitMs := if latency > 0 then min maxWaitMs (max 0 (latency / 4)) else maxWaitMs
  let maxBatchSize ← (params.getD "max_batch_size" (.int 20)).toInt
  let row : BatchRule :=
    { scope, groupKey := (params.getD "group_key" (.str "endpoint")).pyStr, maxBatchSize, maxWaitMs
      idempotentOnly := (params.getD "idempotent_only" (.bool false)).truthy }
  return if maxBatchSize > 1 ∧ maxWaitMs ≥ 0 then [.addBatch row] else []

def sessionRuleUpdates (scope : List String) (params : Dict) : Except PyErr (List Update) := do
  let reuseWindowMs ← (params.getD "reuse_window_ms" (.int 10000)).toInt
  return [.raiseReuse reuseWindowMs,
    .addSession { scope, groupKey := (params.getD "group_key" (.str "host")).pyStr, reuseWindowMs }]

/-- What a constraint that holds does, by its kind. -/
def constraintUpdates (latency : ℤ) (constraint : SoftConstraint) (params : Dict)
    (guardActive : Bool) : Except PyErr (List Update) := do
  let kind := constraint.kind
  let scope := constraintScopeSet constraint
  let ordered := constraint.scope.filter (· ≠ "")
  if kind = SoftConstraintKind.budgetK then budgetUpdates scope params
  else if kind = SoftConstraintKind.noOverlap then return noOverlapUpdates scope params
  else if kind = SoftConstraintKind.rateLimit then return rateLimitUpdates params
  else if kind = SoftConstraintKind.backoffWindow then backoffUpdates params guardActive
  else if kind = SoftConstraintKind.batchGroup then batchRuleUpdates latency scope params
  else if kind = SoftConstraintKind.sameSessionGroup then sessionRuleUpdates scope params
  else if kind = SoftConstraintKind.minGap then
    let gap := params.getD "gap_ms" (params.getD "min_gap_ms" (.int 0))
    let gapMs ← (gap.or (.int 0)).toInt
    return (neighbours ordered).flatMap fun pair => [.addGap pair gapMs, .addOrder pair]
  else if kind = SoftConstraintKind.softOrder then
    return (neighbours ordered).map Update.addOrder
  else return []

theorem performs_applyBudget (scope : List String) (params : Dict) :
    Performs latency (applyBudget scope params) (budgetUpdates scope params) := by
  intro d _
  unfold applyBudget budgetUpdates
  cases (params.getD "limit" (.int 1)).toInt with
  | error e => rfl
  | ok limit =>
    simp only [bind, Except.bind]
    split_ifs <;> rfl

theorem applyNoOverlap_eq (scope : List String) (params : Dict) (d : DerivedConstraintPolicy) :
    applyNoOverlap scope params d = applyAll (noOverlapUpdates scope params) d := by
  unfold applyNoOverlap noOverlapUpdates
  rw [applyAll_append, applyAll_ite]
  simp only [applyAll_cons, applyAll_nil, Update.apply, Limit.lower, lowerLimit_one]

theorem applyRateLimit_eq (params : Dict) (d : DerivedConstraintPolicy) :
    applyRateLimit params d = applyAll (rateLimitUpdates params) d := by
  unfold applyRateLimit rateLimitUpdates
  simp only [applyAll_append, applyAll_ite, applyAll_cons, applyAll_nil, Update.apply, Limit.lower,
    lowerLimit]
  split_ifs <;> rfl

theorem performs_applyBackoff (params : Dict) (active : Bool) :
    Performs latency (applyBackoff params active) (backoffUpdates params active) := by
  intro d _
  unfold applyBackoff backoffUpdates
  cases active with
  | false => rfl
  | true =>
    cases (params.getD "factor" (.int 2)).toFloat with
    | error e => rfl
    | ok factor => rfl

theorem performs_addBatchRule (scope : List String) (params : Dict) :
    Performs latency (addBatchRule scope params) (batchRuleUpdates latency scope params) := by
  intro d hd
  subst hd
  unfold addBatchRule batchRuleUpdates
  cases (params.getD "max_wait_ms" (.int 80)).toInt with
  | error e => rfl
  | ok maxWaitMs =>
    cases (params.getD "max_batch_size" (.int 20)).toInt with
    | error e => rfl
    | ok maxBatchSize =>
      simp only [bind, Except.bind, pure, Except.pure, Except.map]
      split_ifs <;> rfl

theorem performs_addSessionRule (scope : List String) (params : Dict) :
    Performs latency (addSessionRule scope params) (sessionRuleUpdates scope params) := by
  intro d _
  unfold addSessionRule sessionRuleUpdates
  cases (params.getD "reuse_window_ms" (.int 10000)).toInt with
  | error e => rfl
  | ok reuseWindowMs => rfl

theorem foldl_addMinGap_eq (ms : ℤ) (pairs : List (String × String))
    (d : DerivedConstraintPolicy) :
    pairs.foldl (addMinGap ms) d =
      applyAll (pairs.flatMap fun pair => [.addGap pair ms, .addOrder pair]) d := by
  induction pairs generalizing d with
  | nil => rfl
  | cons pair pairs ih => exact ih _

theorem foldl_addSoftOrder_eq (pairs : List (String × String)) (d : DerivedConstraintPolicy) :
    pairs.foldl addSoftOrder d = applyAll (pairs.map Update.addOrder) d := by
  induction pairs generalizing d with
  | nil => rfl
  | cons pair pairs ih => exact ih _

theorem performs_applyConstraint (constraint : SoftConstraint) (params : Dict) (active : Bool) :
    Performs latency (applyConstraint constraint params active)
      (constraintUpdates latency constraint params active) := by
  have hgap : ∀ gapMs : ℤ, Performs latency
      (fun d => .ok ((neighbours (constraint.scope.filter (· ≠ ""))).foldl (addMinGap gapMs) d))
      (.ok ((neighbours (constraint.scope.filter (· ≠ ""))).flatMap fun pair =>
        [.addGap pair gapMs, .addOrder pair])) :=
    fun gapMs => .of_applyAll (foldl_addMinGap_eq gapMs _)
  have hnone : Performs latency (fun d => .ok d) (.ok []) := .of_applyAll fun _ => rfl
  exact .ite (performs_applyBudget _ _) <|
    .ite (.of_applyAll (applyNoOverlap_eq _ _)) <|
    .ite (.of_applyAll (applyRateLimit_eq _)) <|
    .ite (performs_applyBackoff _ _) <|
    .ite (performs_addBatchRule _ _) <|
    .ite (performs_addSessionRule _ _) <|
    .ite (.of_read hgap) <|
    .ite (.of_applyAll (foldl_addSoftOrder_eq _)) hnone

/-! ## Given and inferred constraints -/

/-- The updates of a constraint that holds, and then those of its fallback. -/
def finishUpdates (latency : ℤ) (constraint : SoftConstraint) (mode : String)
    (active onInactive : Bool) (params : Dict) : Except PyErr (List Update) := do
  let us ← constraintUpdates latency constraint params active
  let vs ← afterUpdates constraint mode params active onInactive
  return us ++ vs

/-- The updates of one soft constraint. -/
def stepUpdates (metrics : Dict) (latency : ℤ) (constraint : SoftConstraint) :
    Except PyErr (List Update) := do
  let kind := constraint.kind
  let mode ← normalizedFallbackMode kind constraint.fallback metrics
  let active ← guardActive constraint.guard metrics
  let always := alwaysActive constraint.guard
  let onInactive := fallbackTriggersOnInactiveGuard kind constraint.guard constraint.fallback
  let note (params : Dict) : Update := .note (activeRow constraint params mode (always || active))
  if always || active then
    return note constraint.params ::
      (← finishUpdates latency constraint mode active onInactive constraint.params)
  else if constraint.fallback ≠ "" && onInactive then
    let shrinks := contains mode "shrink_batch" && isGroupingKind kind
    let params ← shrinkIf shrinks constraint.params
    let us ← triggerUpdates mode (constraintScopeSet constraint) params kind
    if shrinks then
      return note params :: (us ++ (← finishUpdates latency constraint mode active onInactive params))
    else return note params :: us
  else return [note constraint.params]

theorem performs_finish (constraint : SoftConstraint) (mode : String) (active onInactive : Bool)
    (params : Dict) :
    Performs latency (fun d => applyConstraint constraint params active d >>=
        fallbackAfter constraint mode params active onInactive)
      (finishUpdates latency constraint mode active onInactive params) :=
  (performs_applyConstraint constraint params active).bind
    (performs_fallbackAfter constraint mode params active onInactive)

/-- **A soft constraint performs its updates.** -/
theorem performs_deriveStep (metrics : Dict) (constraint : SoftConstraint) :
    Performs latency (deriveStep metrics · constraint) (stepUpdates metrics latency constraint) := by
  refine Performs.of_read fun mode => Performs.of_read fun active => ?_
  have hfinish := @performs_finish latency constraint mode active
    (fallbackTriggersOnInactiveGuard constraint.kind constraint.guard constraint.fallback)
  have henforced := (hfinish constraint.params).note
    (activeRow constraint constraint.params mode (alwaysActive constraint.guard || active))
  refine .ite henforced (.ite (.of_read fun params => ?_) ?_)
  · have hfallback := (@performs_applyFallback latency mode (constraintScopeSet constraint) params
      constraint.kind).note
        (activeRow constraint params mode (alwaysActive constraint.guard || active))
    cases contains mode "shrink_batch" && isGroupingKind constraint.kind with
    | false => exact hfallback.thenPure
    | true =>
      refine (hfallback.bind (hfinish params)).congr ?_
      cases triggerUpdates mode (constraintScopeSet constraint) params constraint.kind with
      | error e => rfl
      | ok us => rfl
  · exact .of_applyAll fun _ => rfl

/-- The updates of the rule of an inferred constraint. -/
def groupingUpdates (latency : ℤ) (constraint : SoftConstraint) (params : Dict) :
    Except PyErr (List Update) :=
  if constraint.kind = SoftConstraintKind.batchGroup then
    batchRuleUpdates latency (constraintScopeSet constraint) params
  else if constraint.kind = SoftConstraintKind.sameSessionGroup then
    sessionRuleUpdates (constraintScopeSet constraint) params
  else .ok []

/-- The updates of an inferred constraint. -/
def autoUpdates (metrics : Dict) (latency : ℤ) (constraint : SoftConstraint) :
    Except PyErr (List Update) := do
  let kind := constraint.kind
  let mode ← normalizedFallbackMode kind constraint.fallback metrics
  let active ← guardActive constraint.guard metrics
  let enforced := alwaysActive constraint.guard || active
  let onInactive := fallbackTriggersOnInactiveGuard kind constraint.guard constraint.fallback
  let params ← shrinkIf
    (!enforced && constraint.fallback ≠ "" && onInactive && contains mode "shrink_batch")
    constraint.params
  let us ← groupingUpdates latency constraint params
  let vs ← afterUpdates constraint mode params active onInactive
  return .note (activeRow constraint params mode enforced) :: (us ++ vs)

theorem performs_addGroupingRule (constraint : SoftConstraint) (params : Dict) :
    Performs latency (addGroupingRule constraint params)
      (groupingUpdates latency constraint params) := by
  intro d hd
  unfold addGroupingRule groupingUpdates
  split_ifs
  · exact performs_addBatchRule _ _ d hd
  · exact performs_addSessionRule _ _ d hd
  · rfl

/-- **An inferred constraint performs its updates.** -/
theorem performs_autoStep (metrics : Dict) (constraint : SoftConstraint) :
    Performs latency (autoStep metrics · constraint) (autoUpdates metrics latency constraint) := by
  refine Performs.of_read fun mode => Performs.of_read fun active => Performs.of_read fun params => ?_
  intro d hd
  have hboth := ((performs_addGroupingRule constraint params).bind
    (performs_fallbackAfter constraint mode params active (fallbackTriggersOnInactiveGuard
      constraint.kind constraint.guard constraint.fallback))).note
        (activeRow constraint params mode (alwaysActive constraint.guard || active)) d hd
  refine hboth.trans ?_
  cases groupingUpdates latency constraint params with
  | error e => rfl
  | ok us =>
    cases afterUpdates constraint mode params active (fallbackTriggersOnInactiveGuard
      constraint.kind constraint.guard constraint.fallback) with
    | error e => rfl
    | ok vs => rfl

end FloWeaver.Scheduler
