import FloWeaver.Trust.Level2Relaxes
import FloWeaver.Trust.Rounds

/-!
# The rules along a run

Only the second level changes rules, and it does so in one round at most.  A row of the rollback
log names no other rules than those that were changed.

* `namedByRow` — the rule ids in a row of the rollback log.
* `Patches` — the rule patch of a round changes a rule.
* `Reached.rules` — what a run keeps of every rule.
* `Reached.log_names` — the rules that the log names.
-/

namespace FloWeaver.Trust

open Py Trace
open Scheduler (strList)

/-! ## Names in the log -/

/-- The rule ids in the list of changes of a row. -/
def changeRuleIds (changes : Val) : List String :=
  match changes with
  | .list items => items.filterMap fun change =>
      match change with
      | .dict fields => (Dict.get? fields "rule_id").map Val.pyStr
      | _ => none
  | _ => []

/-- The rule ids that a row of the rollback log names, as they are written. -/
def namedByRow (row : Dict) : List String :=
  listTexts (row.getD "disabled_rule_ids" (.list [])) ++
    listTexts (row.getD "tightened_rule_ids" (.list [])) ++
    changeRuleIds (row.getD "changes" (.list []))

/-- The validation statistics read a name off a row when it is trimmed and not blank. -/
theorem mem_touchedByRow {row : Dict} {id : String} (h : id ∈ namedByRow row)
    (htrim : strip id = id) (hblank : id ≠ "") : id ∈ touchedByRow row := by
  refine List.mem_filter.2 ⟨List.mem_map.2 ⟨id, ?_, htrim⟩, by simpa using hblank⟩
  rcases List.mem_append.1 h with h | h
  · exact List.mem_append_left _ h
  · refine List.mem_append_right _ ?_
    generalize row.getD "changes" (.list []) = changes at h ⊢
    cases changes with
    | list items =>
      obtain ⟨change, hchange, hid⟩ := List.mem_filterMap.1 h
      refine List.mem_map.2 ⟨change, hchange, ?_⟩
      cases change with
      | dict fields =>
        obtain ⟨value, hvalue, rfl⟩ := Option.map_eq_some_iff.1 hid
        show (Dict.getD fields "rule_id" (.str "")).pyStr = _
        rw [Dict.getD, hvalue]
        rfl
      | _ => cases hid
    | _ => cases h

theorem listTexts_strList (ids : List String) : listTexts (strList ids) = ids := by
  show (ids.map Val.str).map Val.pyStr = ids
  rw [List.map_map]
  exact List.map_id'' (fun _ => rfl) ids

/-- Changes without a rule id name no rule. -/
theorem changeRuleIds_rowsVal_of_none {changes : List Dict}
    (h : ∀ d ∈ changes, Dict.get? d "rule_id" = none) : changeRuleIds (rowsVal changes) = [] := by
  show (changes.map Val.dict).filterMap _ = []
  rw [List.filterMap_map, List.filterMap_eq_nil_iff]
  intro d hd
  show (Dict.get? d "rule_id").map Val.pyStr = none
  rw [h d hd]
  rfl

theorem changeIfDifferent_names {path : String} {before after : Val} :
    ∀ d ∈ changeIfDifferent path before after, Dict.get? d "rule_id" = none := by
  intro d hd
  rw [changeIfDifferent] at hd
  split_ifs at hd
  · cases hd
  · obtain rfl := List.mem_singleton.1 hd
    rfl

theorem reduceLimit_names {policy : Dict} {key : String} {out : Dict × List Dict}
    (h : reduceLimit policy key = .ok out) : ∀ d ∈ out.2, Dict.get? d "rule_id" = none := by
  obtain ⟨old, -, h⟩ := bind_eq_ok.1 h
  obtain rfl := pure_eq_ok.1 h
  intro d hd
  split_ifs at hd
  · cases hd
  · obtain rfl := List.mem_singleton.1 hd
    rfl

theorem regroupBatch_names {target : Option OptimizationTarget} {maxGroup : ℕ} {batch : Batch} :
    ∀ d ∈ (regroupBatch target maxGroup batch).2, Dict.get? d "rule_id" = none := by
  intro d hd
  rw [regroupBatch] at hd
  split_ifs at hd
  · cases hd
  · obtain rfl := List.mem_singleton.1 hd
    rfl

/-- The changes of a plan name no rule. -/
theorem level1Changes_names {target : Option OptimizationTarget} {plan : MetaPlan}
    {strategy : Level1Strategy} {out : MetaPlan × List Dict}
    (h : level1Changes target plan strategy = .ok out) :
    ∀ d ∈ out.2, Dict.get? d "rule_id" = none := by
  cases strategy with
  | reduceParallelism =>
    obtain ⟨policy, -, h⟩ := bind_eq_ok.1 h
    obtain ⟨total, htotal, h⟩ := bind_eq_ok.1 h
    obtain ⟨ble, hble, h⟩ := bind_eq_ok.1 h
    obtain ⟨cloud, hcloud, h⟩ := bind_eq_ok.1 h
    obtain ⟨maxParallel, -, h⟩ := bind_eq_ok.1 h
    obtain rfl := pure_eq_ok.1 h
    intro d hd
    rcases List.mem_append.1 hd with hd | hd
    · rcases List.mem_append.1 hd with hd | hd
      · rcases List.mem_append.1 hd with hd | hd
        · exact reduceLimit_names htotal d hd
        · exact reduceLimit_names hble d hd
      · exact reduceLimit_names hcloud d hd
    · obtain ⟨row, hrow, hd⟩ := List.mem_flatMap.1 hd
      obtain ⟨batch, -, rfl⟩ := List.mem_map.1 hrow
      exact regroupBatch_names d hd
  | disableSessionReuse =>
    obtain rfl := Except.ok.inj h
    intro d hd
    obtain ⟨row, hrow, hd⟩ := List.mem_flatMap.1 hd
    obtain ⟨batch, -, rfl⟩ := List.mem_map.1 hrow
    exact changeIfDifferent_names d hd
  | disableBatching =>
    obtain ⟨ordered, -, h⟩ := bind_eq_ok.1 h
    obtain rfl := pure_eq_ok.1 h
    intro d hd
    split_ifs at hd
    · cases hd
    · obtain rfl := List.mem_singleton.1 hd
      rfl
  | enforceMinGapNoOverlap =>
    obtain ⟨batches, hbatches, h⟩ := bind_eq_ok.1 h
    obtain rfl := pure_eq_ok.1 h
    intro d hd
    obtain ⟨row, hrow, hd⟩ := List.mem_flatMap.1 hd
    obtain ⟨batch, -, hgaps⟩ := mem_of_mapM_ok hbatches row hrow
    obtain ⟨guards, -, hgaps⟩ := bind_eq_ok.1 hgaps
    obtain ⟨maxQps, -, hgaps⟩ := bind_eq_ok.1 hgaps
    obtain rfl := pure_eq_ok.1 hgaps
    rcases List.mem_append.1 hd with hd | hd
    · rcases List.mem_append.1 hd with hd | hd <;> exact changeIfDifferent_names d hd
    · exact changeIfDifferent_names d hd

/-- The row of a list of changes names what the changes name. -/
theorem names_of_changes {α : Type} {a b out : α} {head : Dict} {changes : List Dict} {row : Dict}
    (hhead : ∀ value, namedByRow (head ++ [("changes", value)]) = changeRuleIds value)
    (h : (if changes.isEmpty then (a, none) else (b, some (head ++ [("changes", rowsVal changes)])))
      = (out, some row)) : namedByRow row = changeRuleIds (rowsVal changes) := by
  split_ifs at h
  · exact absurd (congrArg Prod.snd h) (by simp)
  · rw [← Option.some.inj (congrArg Prod.snd h)]
    exact hhead _

theorem applyLevel1Patch_names {plan patched : MetaPlan} {n : ℤ}
    {target : Option OptimizationTarget} {counterexamples : List CounterExample} {row : Dict}
    (h : applyLevel1Patch plan n target counterexamples = .ok (patched, some row)) :
    namedByRow row = [] := by
  rw [applyLevel1Patch] at h
  by_cases hn : n < 0
  · rw [if_pos hn] at h
    exact absurd (Except.ok.inj h) (by simp)
  · rw [if_neg hn] at h
    cases hs : level1Strategies[n.toNat]? with
    | none =>
      rw [hs] at h
      exact absurd (Except.ok.inj h) (by simp)
    | some strategy =>
      rw [hs] at h
      obtain ⟨⟨p, changes⟩, hchanges, h⟩ := bind_eq_ok.1 h
      have hhead : ∀ value, namedByRow ([("kind", Val.str "plan_patch"), ("level", .str "LEVEL_1"),
          ("strategy", .str strategy.text), ("reason", .dict (rollReason counterexamples))] ++
            [("changes", value)]) = changeRuleIds value := fun value => rfl
      rw [names_of_changes hhead (pure_eq_ok.1 h)]
      exact changeRuleIds_rowsVal_of_none (level1Changes_names hchanges)

/-- The changes of the constraints name no rule. -/
theorem addConstraint_names {state : List SoftConstraint × List Dict} {c : SoftConstraint}
    {scope : List String} (h : ∀ d ∈ state.2, Dict.get? d "rule_id" = none) :
    ∀ d ∈ (addConstraint state c scope).2, Dict.get? d "rule_id" = none := by
  intro d hd
  rw [addConstraint] at hd
  split_ifs at hd
  · exact h d hd
  · rcases List.mem_append.1 hd with hd | hd
    · exact h d hd
    · obtain rfl := List.mem_singleton.1 hd
      rfl

theorem addNeighbours_names (implicated : List String)
    (contexts : OrderedDict String ExecutionContext) (pairs : List (String × String))
    {state : List SoftConstraint × List Dict} (h : ∀ d ∈ state.2, Dict.get? d "rule_id" = none) :
    ∀ d ∈ (pairs.foldl (addNeighbours implicated contexts) state).2,
      Dict.get? d "rule_id" = none := by
  induction pairs generalizing state with
  | nil => exact h
  | cons pair pairs ih =>
    refine ih ?_
    rw [addNeighbours]
    split_ifs
    · exact h
    · exact h
    · exact addConstraint_names h

theorem applyLevel3ConstraintPatch_names {dag patched : TypedDAG} {plan : MetaPlan}
    {target : Option OptimizationTarget} {counterexamples : List CounterExample} {row : Dict}
    (h : applyLevel3ConstraintPatch dag plan target counterexamples = .ok (patched, some row)) :
    namedByRow row = [] := by
  obtain ⟨order, -, h⟩ := bind_eq_ok.1 h
  obtain ⟨contexts, -, h⟩ := bind_eq_ok.1 h
  have hempty : ∀ d ∈ (dag.softConstraints, ([] : List Dict)).2, Dict.get? d "rule_id" = none :=
    fun d hd => absurd hd List.not_mem_nil
  have hneighbours := addNeighbours_names (implicatedActionIds target counterexamples)
    contexts (order.zip order.tail) hempty
  have hhead : ∀ value, namedByRow ([("kind", Val.str "constraint_patch"),
      ("level", .str "LEVEL_3"), ("reason", .dict (rollReason counterexamples))] ++
        [("changes", value)]) = changeRuleIds value := fun value => rfl
  dsimp only at h
  split at h
  · rw [names_of_changes hhead (pure_eq_ok.1 h)]
    exact changeRuleIds_rowsVal_of_none (addConstraint_names hneighbours)
  · rw [names_of_changes hhead (pure_eq_ok.1 h)]
    exact changeRuleIds_rowsVal_of_none hneighbours

/-! ## The patch of the rules -/

theorem exists_left_of_forall₂ {α β : Type} {r : α → β → Prop} {as : List α} {bs : List β}
    (h : List.Forall₂ r as bs) {b : β} (hb : b ∈ bs) : ∃ a ∈ as, r a b := by
  induction h with
  | nil => cases hb
  | @cons a _ _ _ hab _ ih =>
    rcases List.mem_cons.1 hb with rfl | hb
    · exact ⟨a, List.mem_cons_self, hab⟩
    · obtain ⟨a', ha', hr⟩ := ih hb
      exact ⟨a', List.mem_cons_of_mem _ ha', hr⟩

theorem exists_right_of_forall₂ {α β : Type} {r : α → β → Prop} {as : List α} {bs : List β}
    (h : List.Forall₂ r as bs) {a : α} (ha : a ∈ as) : ∃ b ∈ bs, r a b :=
  exists_left_of_forall₂ (r := fun b a => r a b) h.flip ha

section Patch

variable {counterexamples : List CounterExample}

/-- What the patch keeps of a rule, and when it disables it. -/
structure KeptRule (rule rule' : Rule) : Prop where
  ruleId : rule'.ruleId = rule.ruleId
  markerHints : rule'.markerHints = rule.markerHints
  disabled : rule.status = RuleStatus.disabled → rule'.status = RuleStatus.disabled

theorem KeptRule.refl (rule : Rule) : KeptRule rule rule := ⟨rfl, rfl, id⟩

theorem KeptRule.trans {a b c : Rule} (h : KeptRule a b) (h' : KeptRule b c) : KeptRule a c :=
  ⟨h'.ruleId.trans h.ruleId, h'.markerHints.trans h.markerHints, h'.disabled ∘ h.disabled⟩

theorem patchRule_kept {rule : Rule} {row : Rule × Option (RuleChange × Dict)}
    (h : patchRule counterexamples rule = .ok row) :
    KeptRule rule row.1 ∧
      (row.1.status = RuleStatus.disabled ↔
        rule.status = RuleStatus.disabled ∨ RuleChanged counterexamples rule .disabled) ∧
      (row.2 = none → row.1 = rule) ∧
      ∀ change, row.2 = some change → Dict.get? change.2 "rule_id" = some (.str rule.ruleId) := by
  rw [patchRule] at h
  by_cases hstatus : rule.status ≠ RuleStatus.soft
  · rw [if_pos hstatus] at h
    obtain rfl := Except.ok.inj h
    exact ⟨.refl _, ⟨.inl, fun h => h.elim id fun h => absurd h.1 hstatus⟩, fun _ => rfl,
      fun _ h => by cases h⟩
  · rw [if_neg hstatus] at h
    obtain ⟨involved, hinvolved, h⟩ := bind_eq_ok.1 h
    have hsoft : rule.status = RuleStatus.soft := not_not.1 hstatus
    have hactive : rule.status ≠ RuleStatus.disabled := by rw [hsoft]; decide
    cases involved with
    | false =>
      obtain rfl := pure_eq_ok.1 h
      refine ⟨.refl _, ⟨.inl, fun h => h.elim id fun h => ?_⟩, fun _ => rfl, fun _ h => by cases h⟩
      exact absurd (Except.ok.inj (hinvolved.symm.trans h.2.1)) Bool.false_ne_true
    | true =>
      have hrow := pure_eq_ok.1 h
      have hchange : ∀ kind, RuleChanged counterexamples rule kind ↔ ruleChange rule = kind :=
        fun kind => ⟨fun h => h.2.2, fun h => ⟨hsoft, hinvolved, h⟩⟩
      rw [hchange, ruleChange]
      split_ifs at hrow ⊢ <;> subst hrow
      · refine ⟨⟨rfl, rfl, fun _ => rfl⟩, ⟨fun _ => .inr rfl, fun _ => rfl⟩,
          fun h => absurd h (by simp), fun change h => ?_⟩
        rw [← Option.some.inj h]
        rfl
      all_goals
        refine ⟨⟨rfl, rfl, id⟩, ⟨fun h => absurd h hactive, fun h => h.elim id fun h => ?_⟩,
          fun h => absurd h (by simp), fun change h => ?_⟩
        · exact absurd h (by decide)
        · rw [← Option.some.inj h]
          rfl

/-- A row of the second level names the rules that it changes. -/
theorem rulePatch_names {rules : List Rule} {rows : List (Rule × Option (RuleChange × Dict))}
    (h : rules.mapM (patchRule counterexamples) = .ok rows) {patch : RulePatch}
    (hchanges : patch.changes = rows.filterMap fun row => row.2.map (·.2))
    (hdisabled : patch.disabledRuleIds = changedRuleIds .disabled rows)
    (htightened : patch.tightenedRuleIds = changedRuleIds .tightened rows) {id : String}
    (hid : id ∈ namedByRow patch.toDict) :
    ∃ rule ∈ rules, ∃ kind, RuleChanged counterexamples rule kind ∧ rule.ruleId = id := by
  have hrow : namedByRow patch.toDict = patch.disabledRuleIds ++ patch.tightenedRuleIds ++
      changeRuleIds (rowsVal patch.changes) := by
    rw [← listTexts_strList patch.disabledRuleIds, ← listTexts_strList patch.tightenedRuleIds]
    rfl
  rw [hrow, hdisabled, htightened, hchanges] at hid
  rcases List.mem_append.1 hid with hid | hid
  · rcases List.mem_append.1 hid with hid | hid
    all_goals
      obtain ⟨rule, hrule, hchanged, hsame⟩ := (mem_changedRuleIds h).1 hid
      exact ⟨rule, hrule, _, hchanged, hsame⟩
  · obtain ⟨change, hchange, hid⟩ := List.mem_filterMap.1 hid
    obtain ⟨d, hd, rfl⟩ := List.mem_map.1 hchange
    obtain ⟨row, hrow, hd⟩ := List.mem_filterMap.1 hd
    obtain ⟨⟨kind, d'⟩, hpair, rfl⟩ := Option.map_eq_some_iff.1 hd
    obtain ⟨rule, hrule, hpatch⟩ := mem_of_mapM_ok h row hrow
    obtain ⟨-, -, -, hget⟩ := patchRule_kept hpatch
    refine ⟨rule, hrule, kind, ((patchRule_spec hpatch).2 kind).1 (by rw [hpair]; rfl), ?_⟩
    have hget : Dict.get? d' "rule_id" = _ := hget _ hpair
    change (Dict.get? d' "rule_id").map Val.pyStr = some id at hid
    rw [hget] at hid
    exact Option.some.inj hid

end Patch

/-! ## The rules in a round -/

section Rounds

variable {input : RunInput} {s t : RollbackState} {plan : MetaPlan}
  {patched : Option (MetaPlan × Dict)}

/-- The rules stay, or the second level patches them; a row of the log names rules that the
patch changes. -/
def RulesStep (s s' : RollbackState) (patched : Option (MetaPlan × Dict)) : Prop :=
  (s'.rules = s.rules ∧ s'.level2Applied = s.level2Applied ∧
      ∀ row, patched = some row → namedByRow row.2 = []) ∨
    (s.level2Applied = false ∧ s'.level2Applied = true ∧
      ∃ rows, s.rules.mapM (patchRule s.summary.counterexamples) = .ok rows ∧
        s'.rules = rows.map (·.1) ∧ (patched = none → s'.rules = s.rules) ∧
        ∀ row, patched = some row → ∀ id ∈ namedByRow row.2, ∃ rule ∈ s.rules, ∃ kind,
          RuleChanged s.summary.counterexamples rule kind ∧ rule.ruleId = id)

theorem tryLevel1_rules {s' : RollbackState} (h : tryLevel1 input s plan = .ok (s', patched)) :
    s'.rules = s.rules ∧ s'.level2Applied = s.level2Applied ∧
      ∀ row, patched = some row → namedByRow row.2 = [] := by
  obtain ⟨next, -, h⟩ := bind_eq_ok.1 h
  cases next with
  | none =>
    obtain ⟨rfl, rfl⟩ := Prod.mk.inj (pure_eq_ok.1 h)
    exact ⟨rfl, rfl, fun _ h => by cases h⟩
  | some strategy =>
    obtain ⟨⟨result, patch⟩, hpatch, h⟩ := bind_eq_ok.1 h
    obtain ⟨rfl, rfl⟩ := Prod.mk.inj (pure_eq_ok.1 h)
    refine ⟨rfl, rfl, fun row hrow => ?_⟩
    obtain ⟨d, rfl, rfl⟩ := Option.map_eq_some_iff.1 hrow
    exact applyLevel1Patch_names hpatch

theorem tryLevel3_rules {s' : RollbackState} (h : tryLevel3 input s plan = .ok (s', patched)) :
    s'.rules = s.rules ∧ s'.level2Applied = s.level2Applied ∧
      ∀ row, patched = some row → namedByRow row.2 = [] := by
  rw [tryLevel3] at h
  split at h
  · obtain ⟨order, -, h⟩ := bind_eq_ok.1 h
    cases order with
    | false =>
      obtain ⟨rfl, rfl⟩ := Prod.mk.inj (pure_eq_ok.1 h)
      exact ⟨rfl, rfl, fun _ h => by cases h⟩
    | true =>
      obtain ⟨⟨dag, patch⟩, hpatch, h⟩ := bind_eq_ok.1 h
      cases patch with
      | none =>
        obtain ⟨rfl, rfl⟩ := Prod.mk.inj (pure_eq_ok.1 h)
        exact ⟨rfl, rfl, fun _ h => by cases h⟩
      | some patch =>
        obtain ⟨replanned, -, h⟩ := bind_eq_ok.1 h
        obtain ⟨rfl, rfl⟩ := Prod.mk.inj (pure_eq_ok.1 h)
        refine ⟨rfl, rfl, fun row hrow => ?_⟩
        obtain rfl := Option.some.inj hrow
        exact applyLevel3ConstraintPatch_names hpatch
  · obtain ⟨rfl, rfl⟩ := Prod.mk.inj (Except.ok.inj h)
    exact ⟨rfl, rfl, fun _ h => by cases h⟩

/-- Rules without a change are the rules as they were. -/
theorem map_fst_of_no_change {counterexamples : List CounterExample} {rules : List Rule}
    {rows : List (Rule × Option (RuleChange × Dict))}
    (h : rules.mapM (patchRule counterexamples) = .ok rows)
    (hnone : (rows.filterMap fun row => row.2.map (·.2)) = []) : rows.map (·.1) = rules := by
  have hrows := forall₂_of_mapM_ok h
  clear h
  induction hrows with
  | nil => rfl
  | @cons rule row rules rows hpatch _ ih =>
    have hrow : row.2.map (·.2) = none :=
      List.filterMap_eq_nil_iff.1 hnone row List.mem_cons_self
    have hrest : (rows.filterMap fun row => row.2.map (·.2)) = [] :=
      List.filterMap_eq_nil_iff.2 fun r hr =>
        List.filterMap_eq_nil_iff.1 hnone r (List.mem_cons_of_mem _ hr)
    rw [List.map_cons, ih hrest, (patchRule_kept hpatch).2.2.1 (Option.map_eq_none_iff.1 hrow)]

theorem tryLevel2_rules {s' : RollbackState} (h : tryLevel2 input s plan = .ok (s', patched)) :
    RulesStep s s' patched := by
  rw [tryLevel2] at h
  by_cases happlied : s.level2Applied = true
  · rw [if_pos happlied] at h
    obtain ⟨rfl, rfl⟩ := Prod.mk.inj (Except.ok.inj h)
    exact .inl ⟨rfl, rfl, fun _ h => by cases h⟩
  · rw [if_neg happlied] at h
    obtain ⟨⟨rules, patch⟩, hlevel2, h⟩ := bind_eq_ok.1 h
    obtain ⟨rows, hrows, hlevel2⟩ := bind_eq_ok.1 hlevel2
    replace hlevel2 := pure_eq_ok.1 hlevel2
    refine .inr ⟨Bool.eq_false_of_not_eq_true happlied, ?_⟩
    by_cases hempty : (rows.filterMap fun row => row.2.map (·.2)) = []
    · simp only [hempty, List.isEmpty_nil, if_true] at hlevel2
      obtain ⟨rfl, rfl⟩ := Prod.mk.inj hlevel2
      obtain ⟨rfl, rfl⟩ := Prod.mk.inj (pure_eq_ok.1 h)
      exact ⟨rfl, rows, hrows, (map_fst_of_no_change hrows hempty).symm, fun _ => rfl,
        fun _ h => by cases h⟩
    · rw [← List.isEmpty_iff, Bool.not_eq_true] at hempty
      simp only [hempty, Bool.false_eq_true, if_false] at hlevel2
      obtain ⟨rfl, rfl⟩ := Prod.mk.inj hlevel2
      dsimp only at h
      have hnames : ∀ effects : List Dict, ∀ id ∈ namedByRow
          ({ reason := rollReason s.summary.counterexamples
             changes := rows.filterMap fun row => row.2.map (·.2)
             disabledRuleIds := changedRuleIds .disabled rows
             tightenedRuleIds := changedRuleIds .tightened rows
             dagEffects := effects } : RulePatch).toDict,
          ∃ rule ∈ s.rules, ∃ kind, RuleChanged s.summary.counterexamples rule kind ∧
            rule.ruleId = id :=
        fun effects id hid => rulePatch_names hrows rfl rfl rfl hid
      cases hreplan : input.hooks.replanWithDag with
      | none =>
        rw [hreplan] at h
        obtain ⟨rfl, rfl⟩ := Prod.mk.inj (pure_eq_ok.1 h)
        exact ⟨rfl, rows, hrows, rfl, fun h => absurd h (by simp),
          fun row hrow => Option.some.inj hrow ▸ hnames _⟩
      | some replan =>
        rw [hreplan] at h
        obtain ⟨replanned, -, h⟩ := bind_eq_ok.1 h
        obtain ⟨rfl, rfl⟩ := Prod.mk.inj (pure_eq_ok.1 h)
        exact ⟨rfl, rows, hrows, rfl, fun h => absurd h (by simp),
          fun row hrow => Option.some.inj hrow ▸ hnames _⟩

/-- The three attempts patch the rules at most once. -/
theorem firstPatch_rules {s' : RollbackState}
    (h : firstPatch [tryLevel1 input, tryLevel2 input, tryLevel3 input] s plan =
      .ok (s', patched)) : RulesStep s s' patched := by
  obtain ⟨a, out, hlevel1, h⟩ := firstPatch_cons h
  obtain ⟨hrules1, happlied1, hnames1⟩ := tryLevel1_rules hlevel1
  rcases h with ⟨p, rfl, rfl, rfl⟩ | ⟨-, h⟩
  · exact .inl ⟨hrules1, happlied1, hnames1⟩
  · have hsummary : a.summary = s.summary := by
      obtain ⟨_, _, rfl, _⟩ := tryLevel1_spec hlevel1
      rfl
    obtain ⟨b, out, hlevel2, h⟩ := firstPatch_cons h
    have hstep := tryLevel2_rules hlevel2
    rw [RulesStep, hrules1, happlied1, hsummary] at hstep
    rcases h with ⟨p, rfl, rfl, rfl⟩ | ⟨rfl, h⟩
    · exact hstep
    · obtain ⟨c, out, hlevel3, h⟩ := firstPatch_cons h
      obtain ⟨hrules3, happlied3, hnames3⟩ := tryLevel3_rules hlevel3
      have hlast : s' = c ∧ ∀ row, patched = some row → namedByRow row.2 = [] := by
        rcases h with ⟨p, rfl, rfl, rfl⟩ | ⟨rfl, h⟩
        · exact ⟨rfl, hnames3⟩
        · obtain ⟨rfl, rfl⟩ := Prod.mk.inj (Except.ok.inj h)
          exact ⟨rfl, fun _ h => by cases h⟩
      obtain ⟨rfl, hnames⟩ := hlast
      rcases hstep with ⟨hrules2, happlied2, -⟩ |
        ⟨hfresh, happlied2, rows, hrows, hrules2, hsame, -⟩
      · exact .inl ⟨hrules3.trans hrules2, happlied3.trans happlied2, hnames⟩
      · refine .inr ⟨hfresh, happlied3.trans happlied2, rows, hrows, hrules3.trans hrules2,
          fun _ => hrules3.trans (hsame rfl), ?_⟩
        intro row hrow id hid
        rw [hnames row hrow] at hid
        cases hid

/-- The rule patch of a round changes a rule. -/
def Patches (input : RunInput) (s : RollbackState) (rule : Rule) (kind : RuleChange) : Prop :=
  ∃ j t, judge input s = .ok j ∧ round input s = .ok (.patched t) ∧ s.level2Applied = false ∧
    t.level2Applied = true ∧ rule ∈ s.rules ∧ RuleChanged j.summary.counterexamples rule kind

/-- A round that patches keeps the rules but for the patch, disables those that it changes to
disabled, and names no others in its row. -/
theorem round_rules (h : round input s = .ok (.patched t)) :
    List.Forall₂ (fun rule rule' => KeptRule rule rule' ∧
        (rule'.status = RuleStatus.disabled ↔
          rule.status = RuleStatus.disabled ∨ Patches input s rule .disabled)) s.rules t.rules ∧
      ∃ row, t.log = s.log ++ [row] ∧
        ∀ id ∈ namedByRow row, ∃ rule kind, Patches input s rule kind ∧ rule.ruleId = id := by
  obtain ⟨j, hjudge, hcases⟩ := round_cases h
  rcases hcases with ⟨hout, -⟩ | ⟨plan, replay, s', patched, -, -, -, hfirst, hout⟩
  · exact Outcome.noConfusion hout
  rcases hout with ⟨-, hout⟩ | ⟨plan', row, u, rfl, hreplayed, hout⟩
  · exact Outcome.noConfusion hout
  obtain rfl := Outcome.patched.inj hout
  obtain ⟨replays, -, hu⟩ := bind_eq_ok.1 hreplayed
  obtain rfl := pure_eq_ok.1 hu
  have hlog : s'.log = s.log := by
    obtain ⟨config, summary, -, -, rfl⟩ := judge_spec hjudge
    exact (firstPatch_spec hfirst).1.log
  have hstart : j.rules = s.rules ∧ j.level2Applied = s.level2Applied := by
    obtain ⟨config, summary, -, -, rfl⟩ := judge_spec hjudge
    exact ⟨rfl, rfl⟩
  rcases firstPatch_rules hfirst with ⟨hrules, happlied, hnames⟩ |
    ⟨hfresh, happlied, rows, hrows, hrules, -, hnames⟩
  · refine ⟨?_, row, congrArg (· ++ [row]) hlog, fun id hid => ?_⟩
    · show List.Forall₂ _ s.rules s'.rules
      rw [hrules, hstart.1]
      refine List.forall₂_same.2 fun rule _ => ⟨.refl _, .inl, fun hd => hd.elim id ?_⟩
      rintro ⟨_, t, _, hround, hfresh, happlied', _⟩
      obtain rfl := Outcome.patched.inj (Except.ok.inj (hround.symm.trans h))
      rw [show _ = true from happlied'] at happlied
      exact absurd (happlied.trans (hstart.2.trans hfresh)) Bool.true_eq_false_eq_False.elim
    · rw [hnames _ rfl] at hid
      cases hid
  · rw [hstart.2] at hfresh
    rw [hstart.1] at hrows hnames
    have hpatches : ∀ rule kind, Patches input s rule kind ↔
        rule ∈ s.rules ∧ RuleChanged j.summary.counterexamples rule kind := by
      refine fun rule kind => ⟨?_, fun ⟨hmem, hchanged⟩ =>
        ⟨j, _, hjudge, h, hfresh, happlied, hmem, hchanged⟩⟩
      rintro ⟨j', _, hjudge', -, -, -, hmem, hchanged⟩
      obtain rfl := Except.ok.inj (hjudge'.symm.trans hjudge)
      exact ⟨hmem, hchanged⟩
    refine ⟨?_, row, congrArg (· ++ [row]) hlog, fun id hid => ?_⟩
    · show List.Forall₂ _ s.rules s'.rules
      rw [hrules, List.forall₂_map_right_iff]
      have hmem := (List.forall₂_and_left _ _).2 ⟨fun _ hmem => hmem, forall₂_of_mapM_ok hrows⟩
      refine hmem.imp ?_
      rintro rule out ⟨hmem, hpatch⟩
      obtain ⟨hkept, hdisabled, -, -⟩ := patchRule_kept hpatch
      rw [hpatches]
      exact ⟨hkept, hdisabled.trans (or_congr_right (and_iff_right hmem).symm)⟩
    · obtain ⟨rule, hrule, kind, hchanged, hsame⟩ := hnames _ rfl id hid
      exact ⟨rule, kind, (hpatches rule kind).2 ⟨hrule, hchanged⟩, hsame⟩

/-- A round that ends leaves the rules as they are. -/
theorem round_ended_rules (h : round input s = .ok (.ended t)) : t.rules = s.rules := by
  obtain ⟨j, hjudge, hcases⟩ := round_cases h
  have hstart : j.rules = s.rules := by
    obtain ⟨config, summary, -, -, rfl⟩ := judge_spec hjudge
    rfl
  rcases hcases with ⟨hout, -⟩ | ⟨plan, replay, s', patched, -, -, -, hfirst, hout⟩
  · obtain rfl := Outcome.ended.inj hout
    exact hstart
  · rcases hout with ⟨rfl, hout⟩ | ⟨_, _, _, -, -, hout⟩
    · obtain rfl := Outcome.ended.inj hout
      rcases firstPatch_rules hfirst with ⟨hrules, -⟩ | ⟨-, -, _, -, -, hsame, -⟩
      · exact hrules.trans hstart
      · exact (hsame rfl).trans hstart
    · exact Outcome.noConfusion hout

/-! ## The rules along a run -/

theorem forall₂_kept_trans {a b c : List Rule} (h : List.Forall₂ KeptRule a b)
    (h' : List.Forall₂ KeptRule b c) : List.Forall₂ KeptRule a c := by
  induction h generalizing c with
  | nil =>
    cases h'
    exact .nil
  | cons hab _ ih =>
    cases h' with
    | cons hbc h' => exact .cons (hab.trans hbc) (ih h')

/-- Along a run every rule keeps its id and its hints, and a disabled rule stays disabled. -/
theorem rollbackLoop_kept : ∀ (steps : ℕ) {s : RollbackState},
    rollbackLoop input steps s = .ok t → List.Forall₂ KeptRule s.rules t.rules
  | 0, s, h => by
      obtain rfl := Except.ok.inj h
      exact List.forall₂_same.2 fun rule _ => .refl rule
  | steps + 1, s, h => by
      obtain ⟨out, hround, h⟩ := bind_eq_ok.1 h
      cases out with
      | ended u =>
        obtain rfl := pure_eq_ok.1 h
        rw [round_ended_rules hround]
        exact List.forall₂_same.2 fun rule _ => .refl rule
      | patched u =>
        have hstep := (round_rules hround).1.imp fun _ _ h => h.1
        exact forall₂_kept_trans hstep (rollbackLoop_kept _ h)

variable {s₀ : RollbackState}

/-- The rules stay active as long as no round disables one. -/
theorem Reached.none_disabled {steps : ℕ} (h : Reached input s₀ s)
    (hstart : ∀ rule ∈ s₀.rules, rule.status ≠ RuleStatus.disabled)
    (hsteps : ∀ u rule, Reached input s₀ u → u.appliedSteps < steps →
      ¬Patches input u rule .disabled) (hle : s.appliedSteps ≤ steps) :
    ∀ rule ∈ s.rules, rule.status ≠ RuleStatus.disabled := by
  induction h with
  | start => exact hstart
  | @patched s t hs hr ih =>
    have happlied := (round_patched hr).2.1
    intro rule' hrule' hdisabled
    obtain ⟨rule, hrule, hkept, hiff⟩ := exists_left_of_forall₂ (round_rules hr).1 hrule'
    rcases hiff.1 hdisabled with h | h
    · exact ih (by omega) rule hrule h
    · exact hsteps s rule hs (by omega) h

/-- The log names no other rules than those that a round has changed. -/
theorem Reached.log_names (h : Reached input s₀ s) (hlog : s₀.log = []) :
    ∀ row ∈ s.log, ∀ id ∈ namedByRow row, ∃ u rule kind, Reached input s₀ u ∧
      u.appliedSteps < s.appliedSteps ∧ Patches input u rule kind ∧ rule.ruleId = id := by
  induction h with
  | start =>
    rw [hlog]
    exact fun row hrow => absurd hrow List.not_mem_nil
  | @patched s t hs hr ih =>
    have happlied := (round_patched hr).2.1
    obtain ⟨last, hlast, hnames⟩ := (round_rules hr).2
    intro row hrow id hid
    rw [hlast] at hrow
    rcases List.mem_append.1 hrow with hrow | hrow
    · obtain ⟨u, rule, kind, hu, hlt, h⟩ := ih row hrow id hid
      exact ⟨u, rule, kind, hu, by omega, h⟩
    · obtain rfl := List.mem_singleton.1 hrow
      obtain ⟨rule, kind, h⟩ := hnames id hid
      exact ⟨s, rule, kind, hs, by omega, h⟩

end Rounds

end FloWeaver.Trust
