import FloWeaver.Scheduler.Guard
import FloWeaver.Trust.Evaluate

/-!
# Level-2 rollback and the restrictions of the graph

A soft constraint that keeps actions apart should survive the rollback of its rule.  The overlay
drops the constraints of a disabled rule, and a constraint of a tightened rule is no longer
active outside safe mode.

* `RuleChanged` — the change that the patch makes to a rule.
* `mem_changedRuleIds` — the ids in the patch.
* `restrictions_stay_iff` — when every restriction stays active.
-/

namespace FloWeaver.Trust

open Py
open Scheduler (guardActive)

/-! ## The patch of the rules -/

/-- What the patch does to a soft rule that is involved. -/
def ruleChange (rule : Rule) : RuleChange :=
  if isProtocolRule rule then .disabled
  else if rule.guard = "true" ∨ !namesSafeMode rule.guard then .tightened
  else .kept

/-- The change that the counterexamples bring to a rule. -/
def RuleChanged (counterexamples : List CounterExample) (rule : Rule) (kind : RuleChange) : Prop :=
  rule.status = RuleStatus.soft ∧
    ruleInvolvedInCounterexamples rule counterexamples = .ok true ∧ ruleChange rule = kind

theorem patchRule_spec {counterexamples : List CounterExample} {rule : Rule}
    {row : Rule × Option (RuleChange × Dict)} (h : patchRule counterexamples rule = .ok row) :
    row.1.ruleId = rule.ruleId ∧
      ∀ kind, row.2.map (·.1) = some kind ↔ RuleChanged counterexamples rule kind := by
  rw [patchRule] at h
  by_cases hstatus : rule.status ≠ RuleStatus.soft
  · rw [if_pos hstatus] at h
    obtain rfl := Except.ok.inj h
    exact ⟨rfl, fun kind => ⟨fun h => absurd h (by simp), fun h => absurd h.1 hstatus⟩⟩
  · rw [if_neg hstatus] at h
    obtain ⟨involved, hinvolved, h⟩ := bind_eq_ok.1 h
    have hsoft : rule.status = RuleStatus.soft := not_not.1 hstatus
    cases involved with
    | false =>
      obtain rfl := pure_eq_ok.1 h
      refine ⟨rfl, fun kind => ⟨fun h => absurd h (by simp), fun h => ?_⟩⟩
      exact absurd (Except.ok.inj (hinvolved.symm.trans h.2.1)) Bool.false_ne_true
    | true =>
      have hchanged : ∀ kind, RuleChanged counterexamples rule kind ↔
          some (ruleChange rule) = some kind :=
        fun kind => ⟨fun h => congrArg some h.2.2, fun h => ⟨hsoft, hinvolved, Option.some.inj h⟩⟩
      have hrow := pure_eq_ok.1 h
      simp only [hchanged, ruleChange]
      split_ifs at hrow ⊢ <;> subst hrow <;> exact ⟨rfl, fun kind => Iff.rfl⟩

/-- The ids that the patch names are those of the rules with the change. -/
theorem mem_changedRuleIds {counterexamples : List CounterExample} {rules : List Rule}
    {rows : List (Rule × Option (RuleChange × Dict))}
    (h : rules.mapM (patchRule counterexamples) = .ok rows) {kind : RuleChange} {id : String} :
    id ∈ changedRuleIds kind rows ↔
      ∃ rule ∈ rules, RuleChanged counterexamples rule kind ∧ rule.ruleId = id := by
  constructor
  · intro hid
    obtain ⟨row, hrow, rfl⟩ := List.mem_map.1 hid
    obtain ⟨hrow, hkind⟩ := List.mem_filter.1 hrow
    obtain ⟨rule, hrule, hpatch⟩ := mem_of_mapM_ok h row hrow
    obtain ⟨hsame, hspec⟩ := patchRule_spec hpatch
    exact ⟨rule, hrule, (hspec kind).1 (of_decide_eq_true hkind), hsame.symm⟩
  · rintro ⟨rule, hrule, hchanged, rfl⟩
    obtain ⟨row, hrow, hpatch⟩ := mem_mapM_of_ok h hrule
    obtain ⟨hsame, hspec⟩ := patchRule_spec hpatch
    refine List.mem_map.2 ⟨row, List.mem_filter.2 ⟨hrow, ?_⟩, hsame⟩
    exact decide_eq_true ((hspec kind).2 hchanged)

/-- Without a patch no rule is changed. -/
theorem not_ruleChanged {counterexamples : List CounterExample} {rules : List Rule}
    {rows : List (Rule × Option (RuleChange × Dict))}
    (h : rules.mapM (patchRule counterexamples) = .ok rows)
    (hnone : (rows.filterMap fun row => row.2.map (·.2)) = []) (rule : Rule) (hrule : rule ∈ rules)
    (kind : RuleChange) : ¬RuleChanged counterexamples rule kind := by
  intro hchanged
  obtain ⟨row, hrow, hpatch⟩ := mem_mapM_of_ok h hrule
  obtain ⟨pair, hpair, -⟩ := Option.map_eq_some_iff.1 (((patchRule_spec hpatch).2 kind).2 hchanged)
  have : pair.2 ∈ rows.filterMap fun row => row.2.map (·.2) :=
    List.mem_filterMap.2 ⟨row, hrow, by rw [hpair]; rfl⟩
  rw [hnone] at this
  exact absurd this List.not_mem_nil

/-! ## The restrictions -/

/-- The kinds that keep actions apart or in order. -/
def restrictingKinds : List String :=
  [SoftConstraintKind.noOverlap, SoftConstraintKind.minGap, SoftConstraintKind.budgetK,
    SoftConstraintKind.rateLimit, SoftConstraintKind.backoffWindow, SoftConstraintKind.softOrder]

/-- A restriction that the scheduler observes. -/
structure Restricts (metrics : Dict) (dag : TypedDAG) (constraint : SoftConstraint) : Prop where
  mem : constraint ∈ dag.softConstraints
  kind : constraint.kind ∈ restrictingKinds
  active : guardActive constraint.guard metrics = .ok true

/-- The same constraint, perhaps under another guard. -/
def SameButGuard (a b : SoftConstraint) : Prop := b = { a with guard := b.guard }

/-- Every restriction is still present and active. -/
def RestrictionsStay (metrics : Dict) (before after : TypedDAG) : Prop :=
  ∀ constraint, Restricts metrics before constraint →
    ∃ kept ∈ after.softConstraints, SameButGuard constraint kept ∧
      guardActive kept.guard metrics = .ok true

/-- The graph after the rollback of the rules. -/
def level2Dag (dag : TypedDAG) (patch : Option RulePatch) : TypedDAG :=
  (patch.map fun patch => (applyRuleOverlayToDag dag patch).1).getD dag

/-- A rule of the constraint has the change. -/
def OfChangedRule (counterexamples : List CounterExample) (rules : List Rule) (kind : RuleChange)
    (constraint : SoftConstraint) : Prop :=
  constraintRuleId constraint ≠ "" ∧
    ∃ rule ∈ rules, RuleChanged counterexamples rule kind ∧
      rule.ruleId = constraintRuleId constraint

theorem ruleIn_iff {ids : List String} {constraint : SoftConstraint} :
    ruleIn ids constraint = true ↔
      constraintRuleId constraint ≠ "" ∧ constraintRuleId constraint ∈ ids := by
  rw [ruleIn, Bool.and_eq_true, decide_eq_true_eq, List.contains_iff_mem]

/-- The constraints after the overlay. -/
theorem mem_overlay {dag : TypedDAG} {patch : RulePatch} {kept : SoftConstraint} :
    kept ∈ (applyRuleOverlayToDag dag patch).1.softConstraints ↔
      ∃ constraint ∈ dag.softConstraints, ruleIn patch.disabledRuleIds constraint = false ∧
        kept = { constraint with guard := overlayGuard patch constraint } := by
  show kept ∈ (dag.softConstraints.map (overlayConstraint patch)).filterMap (·.1) ↔ _
  rw [List.filterMap_map, List.mem_filterMap]
  refine exists_congr fun constraint => and_congr_right fun _ => ?_
  rw [Function.comp_apply, overlayConstraint]
  cases ruleIn patch.disabledRuleIds constraint <;> simp [eq_comm]

theorem SameButGuard.ruleId {a b : SoftConstraint} (h : SameButGuard a b) :
    constraintRuleId b = constraintRuleId a := by
  rw [h]
  rfl

/-- Every restriction stays active exactly where its rule is not disabled, and where, if its
rule is tightened, the constraint or a copy of it holds under its guard for the safe mode. -/
theorem restrictions_stay_iff {dag : TypedDAG} {rules rules' : List Rule}
    {counterexamples : List CounterExample} {patch : Option RulePatch} (metrics : Dict)
    (h : applyLevel2RulePatch rules counterexamples = .ok (rules', patch)) :
    RestrictionsStay metrics dag (level2Dag dag patch) ↔
      ∀ constraint, Restricts metrics dag constraint →
        ¬OfChangedRule counterexamples rules .disabled constraint ∧
        (OfChangedRule counterexamples rules .tightened constraint →
          ∃ twin ∈ dag.softConstraints, SameButGuard constraint twin ∧
            guardActive (if namesSafeMode twin.guard then twin.guard else safeModeGuard twin.guard)
              metrics = .ok true) := by
  obtain ⟨rows, hrows, h⟩ := bind_eq_ok.1 h
  have hresult := pure_eq_ok.1 h
  split_ifs at hresult with hempty
  · obtain ⟨-, rfl⟩ := Prod.mk.inj hresult
    have hnone := fun rule hrule kind =>
      not_ruleChanged hrows (List.isEmpty_iff.1 hempty) rule hrule kind
    refine ⟨fun _ constraint _ => ⟨?_, ?_⟩, fun _ constraint hc => ?_⟩
    · rintro ⟨-, rule, hrule, hchanged, -⟩
      exact hnone rule hrule _ hchanged
    · rintro ⟨-, rule, hrule, hchanged, -⟩
      exact absurd hchanged (hnone rule hrule _)
    · exact ⟨constraint, hc.mem, rfl, hc.active⟩
  · obtain ⟨-, rfl⟩ := Prod.mk.inj hresult
    have hids : ∀ kind constraint, ruleIn (changedRuleIds kind rows) constraint = true ↔
        OfChangedRule counterexamples rules kind constraint := by
      intro kind constraint
      rw [ruleIn_iff, mem_changedRuleIds hrows]
      rfl
    simp only [RestrictionsStay, level2Dag, Option.map_some, Option.getD_some, mem_overlay]
    refine forall₂_congr fun constraint hc => ?_
    have hof : ∀ kind twin, SameButGuard constraint twin →
        (OfChangedRule counterexamples rules kind twin ↔
          OfChangedRule counterexamples rules kind constraint) := by
      intro kind twin hsame
      rw [OfChangedRule, OfChangedRule, hsame.ruleId]
    constructor
    · rintro ⟨kept, ⟨origin, horigin, henabled, rfl⟩, hsame, hactive⟩
      have htwin : SameButGuard constraint origin := by
        rw [SameButGuard] at hsame ⊢
        cases origin
        cases constraint
        simpa using hsame
      refine ⟨fun hdisabled => ?_, fun htightened => ⟨origin, horigin, htwin, ?_⟩⟩
      · rw [← hof _ _ htwin, ← hids] at hdisabled
        exact absurd (henabled.symm.trans hdisabled) Bool.false_ne_true
      · rw [← hof _ _ htwin, ← hids] at htightened
        simp only [overlayGuard, htightened, Bool.true_and] at hactive
        cases hsafe : namesSafeMode origin.guard <;> simpa [hsafe] using hactive
    · rintro ⟨hdisabled, htightened⟩
      have henabled : ∀ twin, SameButGuard constraint twin →
          ruleIn (changedRuleIds .disabled rows) twin = false := by
        intro twin htwin
        rw [← Bool.not_eq_true, hids, hof _ _ htwin]
        exact hdisabled
      by_cases ht : OfChangedRule counterexamples rules .tightened constraint
      · obtain ⟨twin, hmem, htwin, hactive⟩ := htightened ht
        refine ⟨_, ⟨twin, hmem, henabled twin htwin, rfl⟩, ?_, ?_⟩
        · rw [SameButGuard] at htwin ⊢
          rw [htwin]
        · have hin := (hids _ _).2 ((hof _ _ htwin).2 ht)
          simp only [overlayGuard, hin, Bool.true_and]
          cases hsafe : namesSafeMode twin.guard <;> simpa [hsafe] using hactive
      · refine ⟨_, ⟨constraint, hc.mem, henabled constraint rfl, rfl⟩, rfl, ?_⟩
        have hout : ruleIn (changedRuleIds .tightened rows) constraint = false := by
          rw [← Bool.not_eq_true, hids]
          exact ht
        simp only [overlayGuard, hout, Bool.false_and]
        exact hc.active

/-! ## A restriction that is lost -/

/-- The rule that two Bluetooth operations must not overlap. -/
def bleRule : Rule where
  ruleId := "ble_no_overlap"
  category := "resource"
  markerHints := ["BLE_GATT_OP"]

def bleDag : TypedDAG where
  softConstraints :=
    [{ kind := SoftConstraintKind.noOverlap, scope := ["read", "write"],
       params := [("rule_id", .str "ble_no_overlap")] }]

/-- A Bluetooth operation that the optimised run left out. -/
def bleCounterExample : CounterExample where
  counterexampleId := "cex_0"
  scenarioId := "scenario_0"
  violatedAssertion := "observable_semantic_equivalence"
  diffSummary :=
    [("kind", .str "missing_prerequisite"),
      ("hunks", .list [.dict [("anchor", .str "RUNTIME:BLE:BLE_GATT_OP:lamp"),
        ("baseline_ops", .list [.str "RUNTIME:BLE:BLE_GATT_OP:lamp"]),
        ("optimized_ops", .list []), ("severity", .str "MEDIUM")]])]

def blePatch : RulePatch where
  reason := rollReason [bleCounterExample]
  changes :=
    [[("rule_id", .str "ble_no_overlap"), ("op", .str "tighten_guard"), ("from", .str "true"),
      ("to", .str "rollback_safe_mode"),
      ("reason", .str "counterexample_marker_match_semantic_rule")]]
  disabledRuleIds := []
  tightenedRuleIds := ["ble_no_overlap"]

theorem bleRule_involved : ruleInvolvedInCounterexamples bleRule [bleCounterExample] = .ok true := by
  decide +kernel

theorem applyLevel2RulePatch_ble : applyLevel2RulePatch [bleRule] [bleCounterExample] =
    .ok ([{ bleRule with guard := "rollback_safe_mode" }], some blePatch) := by
  have hkind : isProtocolRule bleRule = false := by decide +kernel
  have hrow : patchRule [bleCounterExample] bleRule =
      .ok ({ bleRule with guard := "rollback_safe_mode" },
        some (.tightened, blePatch.changes.head (by decide))) := by
    rw [patchRule, if_neg (by decide), bleRule_involved]
    show Except.ok (if isProtocolRule bleRule then _ else _) = _
    rw [hkind]
    rfl
  rw [applyLevel2RulePatch, List.mapM_cons, hrow]
  rfl

theorem restrictions_stay_ble :
    RestrictionsStay [] bleDag (level2Dag bleDag (some blePatch)) ↔
      ∀ constraint, Restricts [] bleDag constraint →
        ¬OfChangedRule [bleCounterExample] [bleRule] .disabled constraint ∧
        (OfChangedRule [bleCounterExample] [bleRule] .tightened constraint →
          ∃ twin ∈ bleDag.softConstraints, SameButGuard constraint twin ∧
            guardActive (if namesSafeMode twin.guard then twin.guard else safeModeGuard twin.guard)
              [] = .ok true) :=
  restrictions_stay_iff [] applyLevel2RulePatch_ble

/-- The two operations are kept apart before the rollback, and may overlap after it. -/
theorem level2_relaxes : ∃ rules' patch,
    applyLevel2RulePatch [bleRule] [bleCounterExample] = .ok (rules', some patch) ∧
      ¬RestrictionsStay [] bleDag (level2Dag bleDag (some patch)) := by
  refine ⟨_, blePatch, applyLevel2RulePatch_ble, fun hstay => ?_⟩
  obtain ⟨kept, hkept, -, hactive⟩ := hstay _
    ⟨List.mem_cons_self, by decide +kernel, by decide +kernel⟩
  obtain ⟨constraint, hc, -, rfl⟩ := mem_overlay.1 hkept
  obtain rfl := List.mem_singleton.1 hc
  exact absurd hactive (by decide +kernel)

end FloWeaver.Trust
