import FloWeaver.Dag.Accounting

/-!
# No order is lost

* `softOrdered_dedup` — dropping duplicates leaves a soft order of every scope.
* `Readable` — the inputs that the builder can read; on these `collectEdges` and
  `addSoftConstraints` return.
* `build_keeps_order` — the graph has no cycle of MSSUs, and every candidate and every removed edge
  is in it as a hard edge or as a soft order.
* `nullKnobs_raises` — a target on which the builder raises.
-/

namespace FloWeaver.Dag

open Py DepGraph
open Scheduler (ActionIndex)

variable {lib : Library} {nodes : Nodes} {profile : HAPProfile} {mssus : List MSSU}
  {target : Option OptimizationTarget} {table : ActionTable}
  {candidates : List (String × String × String)}

/-! ## Soft orders -/

/-- A soft order over two MSSUs. -/
def SoftOrdered (constraints : List SoftConstraint) (src dst : String) : Prop :=
  ∃ constraint ∈ constraints, constraint.kind = SoftConstraintKind.softOrder ∧
    constraint.scope = [src, dst]

/-- The constraints that are kept are soft orders under their scope. -/
def KeepsScopes (keep : OrderedDict (List String) SoftConstraint) : Prop :=
  ∀ scope constraint, keep.get? scope = some constraint →
    constraint.kind = SoftConstraintKind.softOrder ∧ constraint.scope = scope

theorem KeepsScopes.set {keep : OrderedDict (List String) SoftConstraint} (h : KeepsScopes keep)
    {constraint : SoftConstraint} (hkind : constraint.kind = SoftConstraintKind.softOrder) :
    KeepsScopes (keep.set constraint.scope constraint) := by
  intro scope c hc
  rw [OrderedDict.get?_set] at hc
  split_ifs at hc with hscope
  · obtain rfl := Option.some.inj hc
    exact ⟨hkind, hscope.symm⟩
  · exact h scope c hc

theorem keepSoftOrder_spec {keep : OrderedDict (List String) SoftConstraint} (h : KeepsScopes keep)
    {constraint : SoftConstraint} (hkind : constraint.kind = SoftConstraintKind.softOrder) :
    KeepsScopes (keepSoftOrder keep constraint) ∧
      constraint.scope ∈ (keepSoftOrder keep constraint).keys ∧
      ∀ scope ∈ keep.keys, scope ∈ (keepSoftOrder keep constraint).keys := by
  have hwrite : KeepsScopes (keep.set constraint.scope constraint) ∧
      constraint.scope ∈ (keep.set constraint.scope constraint).keys ∧
      ∀ scope ∈ keep.keys, scope ∈ (keep.set constraint.scope constraint).keys :=
    ⟨h.set hkind, OrderedDict.mem_keys_set.2 (.inr rfl),
      fun _ hs => OrderedDict.mem_keys_set.2 (.inl hs)⟩
  unfold keepSoftOrder
  cases hprevious : keep.get? constraint.scope with
  | none => exact hwrite
  | some previous =>
    simp only []
    split_ifs
    · exact hwrite
    · refine ⟨h, OrderedDict.get?_isSome_iff.1 ?_, fun _ hs => hs⟩
      rw [hprevious]
      rfl

theorem foldl_keepSoftOrder {constraints : List SoftConstraint}
    (hkind : ∀ c ∈ constraints, c.kind = SoftConstraintKind.softOrder)
    {keep : OrderedDict (List String) SoftConstraint} (h : KeepsScopes keep) :
    KeepsScopes (constraints.foldl keepSoftOrder keep) ∧
      (∀ c ∈ constraints, c.scope ∈ (constraints.foldl keepSoftOrder keep).keys) ∧
      ∀ scope ∈ keep.keys, scope ∈ (constraints.foldl keepSoftOrder keep).keys := by
  induction constraints generalizing keep with
  | nil => exact ⟨h, fun _ hc => (nomatch hc), fun _ hs => hs⟩
  | cons c constraints ih =>
    obtain ⟨hkeep, hscope, hkeys⟩ := keepSoftOrder_spec h (hkind c List.mem_cons_self)
    obtain ⟨hkeep', hscopes, hkeys'⟩ :=
      ih (fun d hd => hkind d (List.mem_cons_of_mem _ hd)) hkeep
    refine ⟨hkeep', fun d hd => ?_, fun s hs => hkeys' s (hkeys s hs)⟩
    rcases List.mem_cons.1 hd with rfl | hd
    · exact hkeys' _ hscope
    · exact hscopes d hd

/-- Dropping duplicates leaves a soft order of every scope. -/
theorem softOrdered_dedup {constraints : List SoftConstraint} {src dst : String}
    (h : SoftOrdered constraints src dst) :
    SoftOrdered (dedupSoftOrderConstraints constraints) src dst := by
  obtain ⟨constraint, hmem, hkind, hscope⟩ := h
  have hempty : KeepsScopes .empty := fun _ _ hc => by
    simp [OrderedDict.get?, OrderedDict.empty] at hc
  have hsoft : ∀ c ∈ constraints.filter (·.kind = SoftConstraintKind.softOrder),
      c.kind = SoftConstraintKind.softOrder := fun c hc => by simpa using (List.mem_filter.1 hc).2
  obtain ⟨hkeep, hscopes, -⟩ := foldl_keepSoftOrder hsoft hempty
  have hkey := hscopes constraint (List.mem_filter.2 ⟨hmem, by simpa using hkind⟩)
  obtain ⟨kept, hkept⟩ := Option.isSome_iff_exists.1 (OrderedDict.get?_isSome_iff.2 hkey)
  obtain ⟨hkeptKind, hkeptScope⟩ := hkeep _ _ hkept
  exact ⟨kept, List.mem_append_right _ (mem_values_iff.2 ⟨_, hkept⟩), hkeptKind,
    hkeptScope.trans hscope⟩

/-! ## Cycles -/

/-- Both loops together. -/
theorem demotes_breakAllCycles (lib : Library) (nodes : Nodes) {edges : Edges}
    (h : edges.diagnostics.Tidy) :
    Demotes edges.hard edges.diagnostics ((breakAllCycles lib nodes edges).hard,
      (breakAllCycles lib nodes edges).diagnostics) := by
  have hfirst := demotes_breakActionLevelCycles lib nodes edges.hard h
  have hsecond := demotes_breakCycles nodes
    (breakActionLevelCycles lib nodes edges.hard edges.diagnostics).1 hfirst.tidy
  refine ⟨hsecond.sub.trans hfirst.sub, hsecond.tidy,
    fun p hp => hsecond.kept p (hfirst.kept p hp), fun edge he => ?_⟩
  rcases hfirst.noted edge he with he | hnoted
  · exact hsecond.noted edge he
  · exact .inr (hsecond.kept _ hnoted)

theorem acyclic_breakAllCycles {edges : Edges} (h : Sound nodes edges) :
    Acyclic (MssuEdge (breakAllCycles lib nodes edges).hard) := by
  have hfirst := demotes_breakActionLevelCycles lib nodes edges.hard h.tidy
  exact acyclic_breakCycles (fun edge he => h.known edge (hfirst.sub.subset he)) hfirst.tidy

/-! ## Inputs that can be read -/

/-- The inputs on which no stage raises: `urlparse` accepts the endpoints of the actions, the kinds
of the soft templates hash, and the optimisation knobs are a dict. -/
structure Readable (lib : Library) (profile : HAPProfile) (target : Option OptimizationTarget) :
    Prop where
  hosts : ∀ t, target = some t → ∀ action ∈ t.vdevActions,
    ∃ value, actionScopeValue lib action "host" = .ok value
  kinds : ∀ rule ∈ profile.enabledRules, ∀ tpl ∈ rule.softConstraintTemplates,
    ∃ valid, isSoftConstraintKind (Dict.getD tpl "kind" (.str SoftConstraintKind.budgetK)) =
      .ok valid
  knobs : ∀ t, target = some t →
    ∃ dict, (Dict.getD t.constraints "optimization_knobs" (.dict [])).needDict = .ok dict

/-- Every action of the table has a host. -/
def HasHosts (lib : Library) (table : ActionTable) : Prop :=
  ∀ actionId action, table.index.get? actionId = some action →
    ∃ value, actionScopeValue lib action "host" = .ok value

theorem Readable.hasHosts (h : Readable lib profile target) : HasHosts lib (actionTable target) := by
  intro actionId action hget
  cases target with
  | none => simp [actionTable, OrderedDict.get?, OrderedDict.empty] at hget
  | some t => exact h.hosts t rfl action (Scheduler.mem_of_get?_actionIndex hget)

/-- An action with a host has a value under every pair key. -/
theorem actionScopeValue_ok {action : Dict}
    (h : ∃ value, actionScopeValue lib action "host" = .ok value) (pairKey : String) :
    ∃ value, actionScopeValue lib action pairKey = .ok value := by
  have hhost : lower (strip "host") = "host" := by decide
  obtain ⟨value, hvalue⟩ := h
  simp only [actionScopeValue, hhost] at hvalue ⊢
  split_ifs
  · exact ⟨_, rfl⟩
  · exact ⟨_, rfl⟩
  · exact ⟨_, rfl⟩
  · exact ⟨value, hvalue⟩
  · exact ⟨_, rfl⟩

theorem mssuScopeTokens_ok (h : HasHosts lib table) (mssu : MSSU) (pairKey : String) :
    ∃ tokens, mssuScopeTokens lib table.index mssu pairKey = .ok tokens := by
  rw [mssuScopeTokens]
  split_ifs
  · exact ⟨_, rfl⟩
  · have hall : ∀ action ∈ (effectiveActionRefs mssu).filterMap table.index.get?,
        ∃ value, actionScopeValue lib action pairKey = .ok value := fun action ha => by
      obtain ⟨actionId, -, hget⟩ := List.mem_filterMap.1 ha
      exact actionScopeValue_ok (h actionId action hget) pairKey
    obtain ⟨values, hvalues⟩ := exists_mapM_ok hall
    exact ⟨_, bind_eq_ok.2 ⟨values, hvalues, rfl⟩⟩

theorem hasRealScopeTokens_ok (h : HasHosts lib table) (mssu : MSSU) (pairKey : String) :
    ∃ real, hasRealScopeTokens lib table.index mssu pairKey = .ok real := by
  rw [hasRealScopeTokens]
  split_ifs
  · exact ⟨_, rfl⟩
  · obtain ⟨tokens, htokens⟩ := mssuScopeTokens_ok h mssu pairKey
    exact ⟨_, bind_eq_ok.2 ⟨tokens, htokens, rfl⟩⟩

theorem pickNearestDst_ok (h : HasHosts lib table) (src : MSSU) (dsts : List MSSU)
    (srcHint dstHint pairKey : String) :
    ∃ best, pickNearestDst lib table src dsts srcHint dstHint pairKey = .ok best := by
  obtain ⟨srcScope, hsrc⟩ := mssuScopeTokens_ok h src pairKey
  refine (exists_mapM_ok fun dst _ => ?_).elim fun ranked hranked =>
    ⟨_, bind_eq_ok.2 ⟨srcScope, hsrc, bind_eq_ok.2 ⟨ranked, hranked, rfl⟩⟩⟩
  obtain ⟨dstScope, hdst⟩ := mssuScopeTokens_ok h dst pairKey
  exact ⟨_, bind_eq_ok.2 ⟨dstScope, hdst, rfl⟩⟩

/-! ## The stages return -/

namespace Template

variable (tpl : Template)

theorem bindUnscoped_ok (h : HasHosts lib table) (src : MSSU) (message kind reason : String)
    (edges : Edges) : ∃ r, bindUnscoped lib table tpl src message kind reason edges = .ok r := by
  obtain ⟨best, hbest⟩ := pickNearestDst_ok h src tpl.dstCandidates tpl.srcHint tpl.dstHint ""
  exact ⟨_, bind_eq_ok.2 ⟨best, hbest, rfl⟩⟩

theorem bindScoped_ok (h : HasHosts lib table) (src : MSSU) (dsts : List MSSU) (edges : Edges) :
    ∃ r, bindScoped lib table tpl src dsts edges = .ok r := by
  obtain ⟨best, hbest⟩ := pickNearestDst_ok h src dsts tpl.srcHint tpl.dstHint tpl.pairKey
  cases best with
  | none =>
    obtain ⟨other, hother⟩ := pickNearestDst_ok h src dsts "" "" ""
    exact ⟨_, bind_eq_ok.2 ⟨none, hbest, bind_eq_ok.2 ⟨other, hother, rfl⟩⟩⟩
  | some dst => exact ⟨_, bind_eq_ok.2 ⟨some dst, hbest, rfl⟩⟩

theorem bindSource_ok (h : HasHosts lib table) (src : MSSU) (edges : Edges) :
    ∃ r, bindSource lib table tpl src edges = .ok r := by
  obtain ⟨real, hreal⟩ := hasRealScopeTokens_ok h src tpl.pairKey
  cases real with
  | false =>
    obtain ⟨r, hr⟩ := bindUnscoped_ok tpl h src (" no scope tokens for " ++ src.mssuId)
      "missing-scope" "missing_scope_tokens" edges
    exact ⟨r, bind_eq_ok.2 ⟨false, hreal, hr⟩⟩
  | true =>
    obtain ⟨dsts, hdsts⟩ := exists_filterM_ok (l := tpl.dstCandidates)
      (f := fun dst => hasRealScopeTokens lib table.index dst tpl.pairKey)
      fun dst _ => hasRealScopeTokens_ok h dst tpl.pairKey
    by_cases hempty : dsts.isEmpty = true
    · obtain ⟨r, hr⟩ := bindUnscoped_ok tpl h src " no dst scope tokens"
        "missing-dst-scope" "missing_dst_scope_tokens" edges
      exact ⟨r, bind_eq_ok.2 ⟨true, hreal, bind_eq_ok.2 ⟨dsts, hdsts, by rw [if_pos hempty, hr]⟩⟩⟩
    · obtain ⟨r, hr⟩ := bindScoped_ok tpl h src dsts edges
      exact ⟨r, bind_eq_ok.2 ⟨true, hreal, bind_eq_ok.2 ⟨dsts, hdsts, by rw [if_neg hempty, hr]⟩⟩⟩

theorem bindSources_ok (h : HasHosts lib table) (srcs : List MSSU) (injected : ℕ) (edges : Edges) :
    ∃ r, bindSources lib table tpl srcs injected edges = .ok r := by
  induction srcs generalizing injected edges with
  | nil => exact ⟨edges, rfl⟩
  | cons src rest ih =>
    obtain ⟨⟨next, bound⟩, hnext⟩ := bindSource_ok tpl h src edges
    by_cases hcap : (bound && maxEdges ≤ injected + 1) = true
    · exact ⟨_, bind_eq_ok.2 ⟨(next, bound), hnext, if_pos hcap⟩⟩
    · obtain ⟨r, hr⟩ := ih (if bound then injected + 1 else injected) next
      exact ⟨r, bind_eq_ok.2 ⟨(next, bound), hnext, (if_neg hcap).trans hr⟩⟩

theorem bind_ok (h : HasHosts lib table) (edges : Edges) :
    ∃ r, tpl.bind lib table edges = .ok r := by
  rw [Template.bind]
  split_ifs
  · refine exists_foldlM_ok (fun edges src _ => ?_) _
    obtain ⟨best, hbest⟩ :=
      pickNearestDst_ok h src (tpl.dstCandidates.take 8) tpl.srcHint tpl.dstHint ""
    exact ⟨_, bind_eq_ok.2 ⟨best, hbest, rfl⟩⟩
  · exact bindSources_ok tpl h _ _ _

end Template

theorem collectEdges_ok (mssus : List MSSU) (candidates : List (String × String × String))
    (h : Readable lib profile target) :
    ∃ edges, collectEdges lib profile mssus candidates target = .ok edges := by
  refine (exists_foldlM_ok (fun edges row _ => ?_) _).elim fun edges hedges =>
    ⟨_, bind_eq_ok.2 ⟨edges, hedges, rfl⟩⟩
  rcases injectTemplate_eq lib (actionTable target) mssus edges row with heq | ⟨_, _, heq⟩ | ⟨kind, -, heq⟩
  · exact ⟨_, heq⟩
  · exact ⟨_, heq⟩
  · obtain ⟨r, hr⟩ := Template.bind_ok (templateOf mssus row.1 row.2.1 row.2.2 kind)
      h.hasHosts edges
    exact ⟨r, heq.trans hr⟩

theorem addSoftConstraints_ok (mssus : List MSSU) (h : Readable lib profile target) :
    ∃ constraints, addSoftConstraints profile mssus target = .ok constraints := by
  obtain ⟨limits, hlimits⟩ : ∃ limits, targetLimits mssus target = .ok limits := by
    cases target with
    | none => exact ⟨[], rfl⟩
    | some t =>
      obtain ⟨knobs, hknobs⟩ := h.knobs t rfl
      exact ⟨_, bind_eq_ok.2 ⟨knobs, hknobs, rfl⟩⟩
  refine (exists_mapM_ok fun row hrow => ?_).elim fun rows hrows =>
    ⟨_, bind_eq_ok.2 ⟨rows, hrows, bind_eq_ok.2 ⟨limits, hlimits, rfl⟩⟩⟩
  obtain ⟨rule, hrule, hrow⟩ := List.mem_flatMap.1 hrow
  obtain ⟨tpl, htpl, rfl⟩ := List.mem_map.1 hrow
  obtain ⟨valid, hvalid⟩ := h.kinds rule hrule tpl htpl
  exact ⟨_, bind_eq_ok.2 ⟨valid, hvalid, rfl⟩⟩

/-! ## The result -/

/-- What the graph keeps of the order. -/
structure KeepsOrder (mssus : List MSSU) (candidates : List (String × String × String))
    (collected : List DependencyEdge) (dag : TypedDAG) (diagnostics : DAGBuildDiagnostics) :
    Prop where
  acyclic : Acyclic (MssuEdge dag.hardEdges)
  candidate : ∀ src dst edgeType, (src, dst, edgeType) ∈ candidates → IsKept edgeType →
    src ∈ mssus.map MSSU.mssuId → dst ∈ mssus.map MSSU.mssuId →
      MssuEdge dag.hardEdges src dst ∨ SoftOrdered dag.softConstraints src dst
  removed : ∀ edge ∈ collected, edge ∉ dag.hardEdges →
    edgeEnds edge ∈ diagnostics.removedHardEdges
  demoted : ∀ p ∈ diagnostics.removedHardEdges, SoftOrdered dag.softConstraints p.1 p.2

theorem mem_keys_of_id {id : String} (h : id ∈ mssus.map MSSU.mssuId) :
    id ∈ (nodesOf mssus).keys := by
  obtain ⟨mssu, hmssu, rfl⟩ := List.mem_map.1 h
  exact mem_keys_nodesOf hmssu

/-- On inputs that can be read the builder returns a graph without a cycle of MSSUs in which no
order is lost. -/
theorem build_keeps_order (lib : Library) (profile : HAPProfile) (mssus : List MSSU)
    (candidates : List (String × String × String)) (target : Option OptimizationTarget)
    (h : Readable lib profile target) :
    ∃ collected dag diagnostics, collectEdges lib profile mssus candidates target = .ok collected ∧
      build lib profile mssus candidates target = .ok (dag, diagnostics) ∧
      KeepsOrder mssus candidates (injectTarget mssus target collected).hard dag diagnostics := by
  obtain ⟨collected, hcollected⟩ := collectEdges_ok mssus candidates h
  obtain ⟨constraints, hconstraints⟩ := addSoftConstraints_ok mssus h
  have hsound : Sound (nodesOf mssus) (injectTarget mssus target collected) :=
    sound_injectTarget (sound_collectEdges hcollected)
  have hdemotes := demotes_breakAllCycles lib (nodesOf mssus) hsound.tidy
  have hdemoted : ∀ p ∈ (breakAllCycles lib (nodesOf mssus)
      (injectTarget mssus target collected)).diagnostics.removedHardEdges,
      SoftOrdered (dedupSoftOrderConstraints ((injectTarget mssus target collected).soft ++
        constraints ++ (breakAllCycles lib (nodesOf mssus)
          (injectTarget mssus target collected)).diagnostics.removedHardEdges.map cycleBreak))
        p.1 p.2 := fun p hp =>
    softOrdered_dedup ⟨cycleBreak p, List.mem_append_right _ (List.mem_map_of_mem hp), rfl, rfl⟩
  refine ⟨collected, _, _, hcollected, bind_eq_ok.2 ⟨collected, hcollected,
    bind_eq_ok.2 ⟨constraints, hconstraints, rfl⟩⟩, acyclic_breakAllCycles hsound, ?_, ?_, hdemoted⟩
  · intro src dst edgeType hmem hkept hsrc hdst
    rcases (ordered_collectEdges hcollected hmem hkept (mem_keys_of_id hsrc)
      (mem_keys_of_id hdst)).injectTarget with ⟨edge, hedge, hends⟩ | ⟨c, hc, hsame⟩
    · obtain ⟨rfl, rfl⟩ : edge.srcMssu = src ∧ edge.dstMssu = dst := by
        simpa [edgeEnds] using hends
      rcases hdemotes.noted edge hedge with hleft | hnoted
      · exact .inl ⟨edge, hleft, rfl, rfl⟩
      · exact .inr (hdemoted _ hnoted)
    · exact .inr (softOrdered_dedup
        ⟨c, List.mem_append_left _ (List.mem_append_left _ hc), hsame⟩)
  · exact fun edge hedge hgone => (hdemotes.noted edge hedge).resolve_left hgone

/-- A library that reads plain URLs and keeps the order of insertion. -/
def plainLibrary : Library where
  netloc url := .ok (beforeFirst (afterFirst url "//") "/")
  setOrder := id
  setOrder_perm l := List.Perm.refl l

/-- Two MSSUs of one action. -/
def sampleMssus : List MSSU :=
  [{ mssuId := "connect", mssuType := "PREPARE", outputs := ["token"], actionRefs := ["a"] },
    { mssuId := "operate", mssuType := "ACT", inputs := ["token"], actionRefs := ["a"] }]

def sampleTarget : OptimizationTarget where
  vdevActions := [[("action_id", .str "a"), ("target", .dict [("endpoint", .str "http://hub/1")])]]

theorem readable_sample : Readable plainLibrary {} (some sampleTarget) where
  hosts t ht action haction := by
    obtain rfl := Option.some.inj ht
    obtain rfl := List.mem_singleton.1 haction
    exact ⟨"hub", by decide⟩
  kinds _ hrule := nomatch hrule
  knobs t ht := by
    obtain rfl := Option.some.inj ht
    exact ⟨[], rfl⟩

theorem build_keeps_order_sample :
    ∃ collected dag diagnostics,
      collectEdges plainLibrary {} sampleMssus [("connect", "operate", "DATA_DEP")]
        (some sampleTarget) = .ok collected ∧
      build plainLibrary {} sampleMssus [("connect", "operate", "DATA_DEP")] (some sampleTarget) =
        .ok (dag, diagnostics) ∧
      KeepsOrder sampleMssus [("connect", "operate", "DATA_DEP")]
        (injectTarget sampleMssus (some sampleTarget) collected).hard dag diagnostics :=
  build_keeps_order plainLibrary {} sampleMssus _ _ readable_sample

/-- With knobs that are not a dict the builder returns no graph. -/
theorem nullKnobs_raises :
    ¬ ∀ (lib : Library) (profile : HAPProfile) (mssus : List MSSU)
        (candidates : List (String × String × String)) (target : Option OptimizationTarget),
      (mssus.map MSSU.mssuId).Nodup →
        ∃ dag diagnostics, build lib profile mssus candidates target = .ok (dag, diagnostics) := by
  intro h
  obtain ⟨dag, diagnostics, hbuild⟩ := h plainLibrary {} [] []
    (some { constraints := [("optimization_knobs", .none)] }) List.nodup_nil
  have hraises : build plainLibrary {} [] []
      (some { constraints := [("optimization_knobs", .none)] }) = .error .attributeError := rfl
  rw [hraises] at hbuild
  cases hbuild

end FloWeaver.Dag
