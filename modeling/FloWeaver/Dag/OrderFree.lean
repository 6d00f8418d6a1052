import FloWeaver.Dag.ShuffledCycles

/-!
# The graph of shuffled inputs

* `templateConstraint_perm`, `addSoftConstraints_perm` — the constraints of the rules and of the
  target have the same MSSUs in their scopes.
* `get?_foldl_keepSoftOrder` — of the soft orders of one scope the one with the greatest rank is
  kept, the first of several.
* `softViews_perm` — the constraints that are kept look the same.
* `build_perm` — the graph is the same, as long as no template of a rule makes a soft order of
  several MSSUs.
* `build_depends_on_order` — such a template orders them as they are listed.
-/

namespace FloWeaver.Dag

open Py LastWriter

variable {lib : Library} {profile : HAPProfile} {mssus mssus' : List MSSU}
  {candidates candidates' : List (String × String × String)} {target : Option OptimizationTarget}

/-! ## Constraints -/

/-- Two constraints that differ in the order of their scopes at most. -/
structure SameButOrder (c c' : SoftConstraint) : Prop where
  same : c' = { c with scope := c'.scope }
  scope : c.scope.Perm c'.scope

theorem defaultScope_perm (h : mssus.Perm mssus') :
    (defaultScope mssus).Perm (defaultScope mssus') := by
  have hcritical := (h.filter (·.critical)).map MSSU.mssuId
  simp only [defaultScope, ← hcritical.isEmpty_eq]
  split_ifs
  · exact h.map _
  · exact hcritical

theorem templateConstraint_perm (h : mssus.Perm mssus') (rule : ProfileRule) (tpl : Dict) :
    SameOutcome (List.Forall₂ SameButOrder) (templateConstraint mssus rule tpl)
      (templateConstraint mssus' rule tpl) := by
  rw [templateConstraint, templateConstraint]
  refine (SameOutcome.of_eq rfl).bind ?_
  rintro valid _ rfl
  have hnamed := fun hints : List String =>
    (h.filter fun mssu => hints.any (mssuMatchesHint mssu)).map MSSU.mssuId
  refine .returns ?_
  simp only [← (hnamed _).isEmpty_eq]
  split_ifs
  · exact .nil
  · exact .cons ⟨rfl, defaultScope_perm h⟩ .nil
  · exact .cons ⟨rfl, hnamed _⟩ .nil

theorem resourceLimit_perm (h : mssus.Perm mssus') (row : String × Val) :
    List.Forall₂ SameButOrder (resourceLimit mssus row) (resourceLimit mssus' row) := by
  have hscope := (h.filter (usesResource (upper row.1))).map MSSU.mssuId
  simp only [resourceLimit, ← hscope.isEmpty_eq]
  split_ifs
  · exact .cons ⟨rfl, defaultScope_perm h⟩ .nil
  · exact .cons ⟨rfl, hscope⟩ .nil
  · exact .nil

theorem kind_resourceLimit {row : String × Val} {c : SoftConstraint}
    (h : c ∈ resourceLimit mssus row) : c.kind = SoftConstraintKind.budgetK := by
  simp only [resourceLimit] at h
  by_cases hnumber : row.2.isNumber = true
  · rw [if_pos hnumber] at h
    rw [List.mem_singleton.1 h]
  · rw [if_neg hnumber] at h
    cases h

theorem targetLimits_perm (h : mssus.Perm mssus') (target : Option OptimizationTarget) :
    SameOutcome (List.Forall₂ SameButOrder) (targetLimits mssus target)
      (targetLimits mssus' target) := by
  cases target with
  | none => exact .returns .nil
  | some target =>
    refine (SameOutcome.of_eq rfl).bind ?_
    rintro knobs _ rfl
    refine .returns ?_
    induction (Dict.get knobs "max_concurrency").asDict with
    | nil => exact .nil
    | cons row rows ih => exact List.rel_append (resourceLimit_perm h row) ih

theorem addSoftConstraints_perm (h : mssus.Perm mssus') :
    SameOutcome (List.Forall₂ SameButOrder) (addSoftConstraints profile mssus target)
      (addSoftConstraints profile mssus' target) := by
  rw [addSoftConstraints, addSoftConstraints]
  refine (sameOutcome_mapM_left fun row _ =>
    templateConstraint_perm h row.1 row.2).bind fun rows rows' hrows => ?_
  refine (targetLimits_perm h target).bind fun limits limits' hlimits => ?_
  exact .returns (List.rel_append (List.rel_flatten hrows) hlimits)

/-! ## The soft order that is kept -/

/-- The soft orders of a scope. -/
def ordersOf (scope : List String) (constraints : List SoftConstraint) : List SoftConstraint :=
  (constraints.filter (·.kind = SoftConstraintKind.softOrder)).filter (·.scope = scope)

/-- Keeps the constraint of the greater rank. -/
def betterOrder (best : Option SoftConstraint) (constraint : SoftConstraint) :
    Option SoftConstraint :=
  match best with
  | none => some constraint
  | some previous =>
      if softConstraintReasonRank previous < softConstraintReasonRank constraint then
        some constraint
      else some previous

theorem get?_keepSoftOrder (keep : OrderedDict (List String) SoftConstraint)
    (constraint : SoftConstraint) (scope : List String) :
    (keepSoftOrder keep constraint).get? scope =
      if constraint.scope = scope then betterOrder (keep.get? scope) constraint
      else keep.get? scope := by
  rw [keepSoftOrder]
  by_cases hscope : constraint.scope = scope
  · subst hscope
    rw [if_pos rfl]
    cases hkeep : keep.get? constraint.scope with
    | none => simp [betterOrder, OrderedDict.get?_set]
    | some previous =>
      simp only [betterOrder]
      split_ifs
      · simp [OrderedDict.get?_set]
      · exact hkeep
  · rw [if_neg hscope]
    cases keep.get? constraint.scope with
    | none => simp [OrderedDict.get?_set, Ne.symm hscope]
    | some previous =>
      simp only []
      split_ifs
      · simp [OrderedDict.get?_set, Ne.symm hscope]
      · rfl

theorem get?_foldl_keepSoftOrder (constraints : List SoftConstraint)
    (keep : OrderedDict (List String) SoftConstraint) (scope : List String) :
    (constraints.foldl keepSoftOrder keep).get? scope =
      (constraints.filter (·.scope = scope)).foldl betterOrder (keep.get? scope) := by
  induction constraints generalizing keep with
  | nil => rfl
  | cons c constraints ih =>
    rw [List.foldl_cons, ih, get?_keepSoftOrder, List.filter_cons]
    by_cases hscope : c.scope = scope
    · simp [hscope]
    · simp [hscope]

theorem foldl_betterOrder (constraints : List SoftConstraint) :
    constraints.foldl betterOrder none = firstMaxBy softConstraintReasonRank constraints := by
  have hrun : ∀ (l : List SoftConstraint) (c : SoftConstraint), l.foldl betterOrder (some c) =
      some (l.foldl (fun best a =>
        if softConstraintReasonRank best < softConstraintReasonRank a then a else best) c) := by
    intro l
    induction l with
    | nil => exact fun c => rfl
    | cons d l ih =>
      intro c
      rw [List.foldl_cons, List.foldl_cons, betterOrder]
      split_ifs
      · exact ih d
      · exact ih c
  cases constraints with
  | nil => rfl
  | cons c l => exact hrun l c

theorem get?_kept (constraints : List SoftConstraint) (scope : List String) :
    ((constraints.filter (·.kind = SoftConstraintKind.softOrder)).foldl keepSoftOrder
        .empty).get? scope = firstMaxBy softConstraintReasonRank (ordersOf scope constraints) := by
  rw [get?_foldl_keepSoftOrder, ← foldl_betterOrder]
  rfl

/-! ## What constraints look like -/

/-- What a constraint is compared by: a soft order with its scope in order, every other one with the
set of its scope. -/
def softView (constraint : SoftConstraint) :
    String × String × String × (List String ⊕ Finset String) :=
  (constraint.kind, constraint.guard, constraint.fallback,
    if constraint.kind = SoftConstraintKind.softOrder then .inl constraint.scope
    else .inr constraint.scope.toFinset)

theorem mem_ordersOf {scope : List String} {constraints : List SoftConstraint} {c : SoftConstraint} :
    c ∈ ordersOf scope constraints ↔
      c ∈ constraints ∧ c.kind = SoftConstraintKind.softOrder ∧ c.scope = scope := by
  simp only [ordersOf, List.mem_filter, decide_eq_true_eq, and_assoc]

theorem ordersOf_append (scope : List String) (l m : List SoftConstraint) :
    ordersOf scope (l ++ m) = ordersOf scope l ++ ordersOf scope m := by
  simp [ordersOf]

theorem reasonOf_cycleBreak (edge : String × String) :
    reasonOf (cycleBreak edge) = "cycle_break" := by
  show lower "cycle_break" = "cycle_break"
  decide

/-- A soft order of the builder, for a cycle or for another reason. -/
def Standard (c : SoftConstraint) : Prop := Made c ∨ ∃ edge, c = cycleBreak edge

/-- The rank of a soft order of the builder tells its guard and its fallback. -/
theorem softView_eq_of_rank {scope : List String} {l m : List SoftConstraint}
    {c d : SoftConstraint} (hc : c ∈ ordersOf scope l) (hd : d ∈ ordersOf scope m)
    (hcs : Standard c) (hds : Standard d)
    (h : softConstraintReasonRank c = softConstraintReasonRank d) : softView c = softView d := by
  obtain ⟨-, hck, hcscope⟩ := mem_ordersOf.1 hc
  obtain ⟨-, hdk, hdscope⟩ := mem_ordersOf.1 hd
  have hreason : reasonOf c = reasonOf d := congrArg (fun rank => (ofLex rank).2) h
  have hsame : c.guard = d.guard ∧ c.fallback = d.fallback := by
    rcases hcs with hcs | ⟨p, rfl⟩
    · rcases hds with hds | ⟨q, rfl⟩
      · exact ⟨hcs.guard.trans hds.guard.symm, hcs.fallback.trans hds.fallback.symm⟩
      · exact absurd (hreason.trans (reasonOf_cycleBreak q)) hcs.reason
    · rcases hds with hds | ⟨q, rfl⟩
      · exact absurd (hreason.symm.trans (reasonOf_cycleBreak p)) hds.reason
      · exact ⟨rfl, rfl⟩
  rw [softView, softView, hck, hdk, hcscope, hdscope, hsame.1, hsame.2]

theorem SameButOrder.kind {c c' : SoftConstraint} (h : SameButOrder c c') : c'.kind = c.kind := by
  rw [h.same]

/-- A scope of one MSSU has one order. -/
theorem SameButOrder.eq {c c' : SoftConstraint} (h : SameButOrder c c')
    (hfew : c.scope.length ≤ 1) : c = c' := by
  have hscope : c.scope = c'.scope := by
    cases hc : c.scope with
    | nil =>
      have hnil := h.scope
      rw [hc] at hnil
      exact hnil.nil_eq
    | cons id rest =>
      have hone := h.scope
      rw [hc, List.length_cons] at hfew
      obtain rfl : rest = [] := List.eq_nil_of_length_eq_zero (by omega)
      rw [hc] at hone
      exact hone.singleton_eq
  rw [h.same, ← hscope]

section Views

variable {own pairs pairs' limits limits' : List SoftConstraint}

/-- Constraints over several MSSUs are no soft orders. -/
def OrdersFew (constraints : List SoftConstraint) : Prop :=
  ∀ c ∈ constraints, c.kind = SoftConstraintKind.softOrder → c.scope.length ≤ 1

theorem softOrders_eq (h : List.Forall₂ SameButOrder limits limits') (hfew : OrdersFew limits) :
    limits.filter (·.kind = SoftConstraintKind.softOrder) =
      limits'.filter (·.kind = SoftConstraintKind.softOrder) := by
  induction h with
  | nil => rfl
  | @cons c c' l l' hc _ ih =>
    rw [List.filter_cons, List.filter_cons, hc.kind,
      ih fun d hd => hfew d (List.mem_cons_of_mem _ hd)]
    split_ifs with hkind
    · rw [hc.eq (hfew c List.mem_cons_self (by simpa using hkind))]
    · rfl

theorem otherViews_eq (h : List.Forall₂ SameButOrder limits limits') :
    (limits.filter (·.kind ≠ SoftConstraintKind.softOrder)).map softView =
      (limits'.filter (·.kind ≠ SoftConstraintKind.softOrder)).map softView := by
  induction h with
  | nil => rfl
  | @cons c c' l l' hc _ ih =>
    rw [List.filter_cons, List.filter_cons, hc.kind]
    split_ifs with hkind
    · have hview : softView c = softView c' := by
        have hother : c.kind ≠ SoftConstraintKind.softOrder := by simpa using hkind
        rw [hc.same, softView, softView, if_neg hother, if_neg hother,
          List.toFinset_eq_of_perm _ _ hc.scope]
      rw [List.map_cons, List.map_cons, hview, ih]
    · exact ih

/-- The soft orders of one scope: of two MSSUs they are those of the builder, of any other number
they do not depend on the order of the inputs. -/
theorem keptView_eq (hperm : pairs.Perm pairs') (hown : ∀ c ∈ own, OwnOrder c)
    (hpairs : ∀ c ∈ pairs, PairOrder c) (hlimits : List.Forall₂ SameButOrder limits limits')
    (hfew : OrdersFew limits) (removed : List (String × String)) (scope : List String) :
    (firstMaxBy softConstraintReasonRank (ordersOf scope
        (own ++ pairs ++ limits ++ removed.map cycleBreak))).map softView =
      (firstMaxBy softConstraintReasonRank (ordersOf scope
        (own ++ pairs' ++ limits' ++ removed.map cycleBreak))).map softView := by
  have hsame : ordersOf scope limits = ordersOf scope limits' := by
    rw [ordersOf, ordersOf, softOrders_eq hlimits hfew]
  by_cases hlength : scope.length = 2
  · have hnone : ordersOf scope limits = [] := by
      refine List.eq_nil_iff_forall_not_mem.2 fun c hc => ?_
      obtain ⟨hmem, hkind, rfl⟩ := mem_ordersOf.1 hc
      have hone := hfew c hmem hkind
      omega
    have horders : (ordersOf scope (own ++ pairs ++ limits ++ removed.map cycleBreak)).Perm
        (ordersOf scope (own ++ pairs' ++ limits' ++ removed.map cycleBreak)) := by
      simp only [ordersOf_append, ← hsame]
      exact ((((hperm.filter _).filter _).append_left _).append_right _).append_right _
    have hstandard : ∀ c ∈ ordersOf scope (own ++ pairs ++ limits ++ removed.map cycleBreak),
        Standard c := by
      intro c hc
      obtain ⟨-, hkind, -⟩ := mem_ordersOf.1 hc
      simp only [ordersOf_append, hnone, List.append_nil, List.mem_append] at hc
      rcases hc with (hc | hc) | hc
      · exact .inl (hown c (mem_ordersOf.1 hc).1 hkind)
      · exact .inl (hpairs c (mem_ordersOf.1 hc).1).toMade
      · obtain ⟨edge, -, rfl⟩ := List.mem_map.1 (mem_ordersOf.1 hc).1
        exact .inr ⟨edge, rfl⟩
    cases hbest : firstMaxBy softConstraintReasonRank
        (ordersOf scope (own ++ pairs ++ limits ++ removed.map cycleBreak)) with
    | none =>
      cases hbest' : firstMaxBy softConstraintReasonRank
          (ordersOf scope (own ++ pairs' ++ limits' ++ removed.map cycleBreak)) with
      | none => rfl
      | some d =>
        obtain ⟨c, hc, -⟩ := firstMaxBy_perm horders.symm hbest'
        rw [hbest] at hc
        cases hc
    | some c =>
      obtain ⟨d, hd, hrank⟩ := firstMaxBy_perm horders hbest
      have hcmem := mem_of_firstMaxBy hbest
      have hdmem := mem_of_firstMaxBy hd
      rw [hd, Option.map_some, Option.map_some, softView_eq_of_rank hcmem hdmem
        (hstandard c hcmem) (hstandard d (horders.mem_iff.2 hdmem)) hrank]
  · have hnone : ∀ l : List SoftConstraint, (∀ c ∈ l, PairOrder c) → ordersOf scope l = [] := by
      intro l hl
      refine List.eq_nil_iff_forall_not_mem.2 fun c hc => ?_
      obtain ⟨hmem, -, rfl⟩ := mem_ordersOf.1 hc
      exact hlength (hl c hmem).pair
    simp only [ordersOf_append, ← hsame, hnone pairs hpairs,
      hnone pairs' fun c hc => hpairs c (hperm.mem_iff.2 hc)]

/-- The constraints that are kept look the same. -/
theorem softViews_perm (hperm : pairs.Perm pairs') (hown : ∀ c ∈ own, OwnOrder c)
    (hpairs : ∀ c ∈ pairs, PairOrder c) (hlimits : List.Forall₂ SameButOrder limits limits')
    (hfew : OrdersFew limits) (removed : List (String × String)) :
    ((dedupSoftOrderConstraints (own ++ pairs ++ limits ++ removed.map cycleBreak)).map
        softView).Perm
      ((dedupSoftOrderConstraints (own ++ pairs' ++ limits' ++ removed.map cycleBreak)).map
        softView) := by
  rw [dedupSoftOrderConstraints, dedupSoftOrderConstraints, List.map_append, List.map_append]
  refine List.Perm.append ?_ (OrderedDict.map_values_perm softView fun scope => ?_)
  · simp only [List.filter_append, List.map_append, otherViews_eq hlimits]
    exact ((((hperm.filter _).map _).append_left _).append_right _).append_right _
  · rw [get?_kept, get?_kept]
    exact keptView_eq hperm hown hpairs hlimits hfew removed scope

end Views

/-! ## The whole graph -/

/-- Two graphs with the same hard edges, with constraints that look the same, and with the same
edges removed. -/
structure SameGraph (left right : TypedDAG × DAGBuildDiagnostics) : Prop where
  hard : (left.1.hardEdges.map edgeKey).toFinset = (right.1.hardEdges.map edgeKey).toFinset
  soft : (left.1.softConstraints.map softView).Perm (right.1.softConstraints.map softView)
  removed : left.2.removedHardEdges.toFinset = right.2.removedHardEdges.toFinset

/-- No template of an enabled rule makes a soft order of more than one MSSU. -/
def NoListedOrders (profile : HAPProfile) (mssus : List MSSU) : Prop :=
  ∀ rule ∈ profile.enabledRules, ∀ tpl ∈ rule.softConstraintTemplates,
    ∀ constraints, templateConstraint mssus rule tpl = .ok constraints → OrdersFew constraints

theorem ordersFew_addSoftConstraints (horders : NoListedOrders profile mssus)
    {constraints : List SoftConstraint}
    (h : addSoftConstraints profile mssus target = .ok constraints) : OrdersFew constraints := by
  obtain ⟨rows, hrows, h⟩ := bind_eq_ok.1 h
  obtain ⟨limits, hlimits, h⟩ := bind_eq_ok.1 h
  obtain rfl := pure_eq_ok.1 h
  intro c hc hkind
  rcases List.mem_append.1 hc with hc | hc
  · obtain ⟨row, hrow, hc⟩ := List.mem_flatten.1 hc
    obtain ⟨⟨rule, tpl⟩, hmem, hrow⟩ := mem_of_mapM_ok hrows row hrow
    obtain ⟨rule', hrule, hmem⟩ := List.mem_flatMap.1 hmem
    obtain ⟨tpl', htpl, hpair⟩ := List.mem_map.1 hmem
    obtain ⟨rfl, rfl⟩ := Prod.mk.inj hpair
    exact horders _ hrule _ htpl row hrow c hc hkind
  · cases target with
    | none =>
      obtain rfl := Except.ok.inj hlimits
      cases hc
    | some target =>
      obtain ⟨knobs, -, hlimits⟩ := bind_eq_ok.1 hlimits
      obtain rfl := pure_eq_ok.1 hlimits
      obtain ⟨row, -, hc⟩ := List.mem_flatMap.1 hc
      rw [kind_resourceLimit hc] at hkind
      exact absurd hkind (by decide)

/-- Shuffled inputs give the same graph, as long as no template makes a soft order of several
MSSUs. -/
theorem build_perm (lib : Library) (profile : HAPProfile) (mssus mssus' : List MSSU)
    (candidates candidates' : List (String × String × String))
    (target : Option OptimizationTarget) (hmssus : mssus.Perm mssus')
    (hcandidates : candidates.Perm candidates') (hids : (mssus.map MSSU.mssuId).Nodup)
    (hnarrow : NarrowTemplates profile mssus) (horders : NoListedOrders profile mssus) :
    SameOutcome SameGraph (build lib profile mssus candidates target)
      (build lib profile mssus' candidates' target) := by
  have hnodes := sameNodes_of_perm hmssus hids
  rw [build, build]
  refine (collectEdges_alike hmssus hids hcandidates hnarrow).attach.bind ?_
  rintro a b ⟨hab, ha, hb⟩
  refine (addSoftConstraints_perm hmssus).attach.bind ?_
  rintro limits limits' ⟨hlimits, hok, -⟩
  have hleft : Sound (nodesOf mssus) (injectTarget mssus target a) :=
    sound_injectTarget (sound_collectEdges ha)
  have hright : Sound (nodesOf mssus') (injectTarget mssus' target b) :=
    sound_injectTarget (sound_collectEdges hb)
  obtain ⟨own, hinjected⟩ := injectTarget_alike hmssus hids hab target
  have hremoved : SameRemoved (injectTarget mssus target a).diagnostics
      (injectTarget mssus' target b).diagnostics :=
    ⟨hinjected.removed, by rw [hleft.tidy, hright.tidy, hinjected.removed]⟩
  obtain ⟨hhard, hdiagnostics⟩ := @breakAllCycles_perm lib _ _ hnodes _ _
    ⟨hinjected.apart, hinjected.kinds, hleft.known⟩ hinjected.hard hremoved
  refine .returns ⟨List.toFinset_eq_of_perm _ _ (hhard.map edgeKey), ?_, ?_⟩
  · have hsoft : ∀ nodes edges, (breakAllCycles lib nodes edges).soft = edges.soft :=
      fun _ _ => rfl
    simp only [hsoft, hinjected.left, hinjected.right, ← hdiagnostics.edges]
    exact softViews_perm hinjected.perm hinjected.own hinjected.pairs hlimits
      (ordersFew_addSoftConstraints horders hok) _
  · rw [hdiagnostics.edges]

/-! ## A soft order of several MSSUs -/

/-- A list of up to eight MSSUs has narrow templates only. -/
theorem narrowTemplates_of_length (profile : HAPProfile) (h : mssus.length ≤ 8) :
    NarrowTemplates profile mssus := by
  intro tpl htpl
  obtain ⟨row, -, hrow⟩ := List.mem_filterMap.1 htpl
  have hfew : ∀ p : MSSU → Bool, (mssus.filter p).length ≤ 8 :=
    fun p => (List.length_filter_le _ _).trans h
  rw [activeTemplate] at hrow
  split_ifs at hrow
  cases hkind : normalizeTemplateKind (row.2.1.getD "kind" (.str EdgeKind.hardControl)).pyStr with
  | none =>
    rw [hkind] at hrow
    cases hrow
  | some kind =>
    simp only [hkind] at hrow
    split_ifs at hrow
    obtain rfl := Option.some.inj hrow
    exact ⟨hfew _, hfew _⟩

/-- A refresh that comes before one of two writes. -/
def refreshProfile : HAPProfile where
  rules := [{ ruleId := "r1"
              hardEdgeTemplates := [[("src", .str "coord_refresh"), ("dst", .str "state_write"),
                ("kind", .str "HARD_LIFECYCLE")]] }]

def refreshMssus : List MSSU :=
  [{ mssuId := "r", mssuType := "SYNC", sideEffectSig := ["coord_refresh"] },
    { mssuId := "write_b", mssuType := "UPDATE", sideEffectSig := ["state_write"] },
    { mssuId := "write_a", mssuType := "UPDATE", sideEffectSig := ["state_write"] }]

theorem build_perm_refresh :
    SameOutcome SameGraph (build listedLibrary refreshProfile refreshMssus [] none)
      (build listedLibrary refreshProfile refreshMssus.reverse [] none) :=
  build_perm listedLibrary refreshProfile refreshMssus refreshMssus.reverse [] [] none
    (List.reverse_perm refreshMssus).symm (.refl _) (by decide)
    (narrowTemplates_of_length refreshProfile (by decide))
    (by
      intro rule hrule tpl htpl
      obtain rfl := List.mem_singleton.1 (List.mem_of_mem_filter hrule)
      cases htpl)

/-- A rule that asks for a soft order of all MSSUs. -/
def orderProfile : HAPProfile where
  rules := [{ ruleId := "r1", softConstraintTemplates := [[("kind", .str "SOFT_ORDER")]] }]

def twoActs : List MSSU :=
  [{ mssuId := "a", mssuType := "ACT" }, { mssuId := "b", mssuType := "ACT" }]

/-- Its scope lists the MSSUs as they come. -/
theorem build_depends_on_order :
    ¬ ∀ (lib : Library) (profile : HAPProfile) (mssus mssus' : List MSSU)
      (candidates candidates' : List (String × String × String))
      (target : Option OptimizationTarget), mssus.Perm mssus' → candidates.Perm candidates' →
      (mssus.map MSSU.mssuId).Nodup → NarrowTemplates profile mssus →
      (∀ tpl ∈ activeTemplates profile mssus, ∀ bindings,
        tpl.allBindings lib (actionTable target) = .ok bindings →
          bindings.length < Template.maxEdges) →
      SameOutcome SameGraph (build lib profile mssus candidates target)
        (build lib profile mssus' candidates' target) := by
  intro h
  have hsame := h listedLibrary orderProfile twoActs twoActs.reverse [] [] none
    (List.reverse_perm twoActs).symm (.refl _) (by decide)
    (narrowTemplates_of_length orderProfile (by decide)) (fun tpl htpl => nomatch htpl)
  have hviews : ∀ r, build listedLibrary orderProfile twoActs [] none = .ok r →
      r.1.softConstraints.map softView =
        [("SOFT_ORDER", "true", "disable_rule", .inl ["a", "b"])] := by
    rintro r hr
    rw [← Except.ok.inj hr]
    rfl
  have hviews' : ∀ r, build listedLibrary orderProfile twoActs.reverse [] none = .ok r →
      r.1.softConstraints.map softView =
        [("SOFT_ORDER", "true", "disable_rule", .inl ["b", "a"])] := by
    rintro r hr
    rw [← Except.ok.inj hr]
    rfl
  have hboth := hsame.attach
  cases hleft : build listedLibrary orderProfile twoActs [] none with
  | error e => cases hleft
  | ok r =>
    rw [hleft] at hboth
    cases hboth with
    | returns hr =>
      obtain ⟨hgraph, hr, hr'⟩ := hr
      have hperm := hgraph.soft
      rw [hviews _ hleft, hviews' _ hr'] at hperm
      exact absurd hperm.singleton_eq (by decide)

end FloWeaver.Dag
