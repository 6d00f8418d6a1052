import FloWeaver.Dag.Demotion

/-!
# What the stages of the builder add

* `Grows` — a stage of the builder adds edges between known MSSUs and soft constraints, and drops
  nothing; every stage before the cycles are broken does so.
* `Ordered` — two MSSUs with a hard edge or a soft order; growing keeps it.
* `ordered_candidates` — so every candidate that the graph has to keep is ordered.
* `Sound` — the ends of the hard edges are MSSUs of the graph; collecting the edges and injecting
  the dependencies of the target keep it.
-/

namespace FloWeaver.Dag

open Py DepGraph
open Scheduler (ActionIndex)

variable {lib : Library} {nodes : Nodes} {profile : HAPProfile} {mssus : List MSSU}
  {target : Option OptimizationTarget} {table : ActionTable} {a b c : Edges}

/-! ## Growing -/

/-- What a stage adds to the edges. -/
structure Grows (nodes : Nodes) (a b : Edges) : Prop where
  hard : ∀ edge ∈ a.hard, edge ∈ b.hard
  soft : ∀ constraint ∈ a.soft, constraint ∈ b.soft
  known : EndsKnown nodes a.hard → EndsKnown nodes b.hard
  tidy : a.diagnostics.Tidy → b.diagnostics.Tidy

namespace Grows

theorem refl (a : Edges) : Grows nodes a a := ⟨fun _ h => h, fun _ h => h, id, id⟩

theorem trans (h : Grows nodes a b) (h' : Grows nodes b c) : Grows nodes a c :=
  ⟨fun edge he => h'.hard edge (h.hard edge he), fun s hs => h'.soft s (h.soft s hs),
    fun hk => h'.known (h.known hk), fun ht => h'.tidy (h.tidy ht)⟩

theorem addSoft (a : Edges) (constraint : SoftConstraint) :
    Grows nodes a (a.addSoft constraint) :=
  ⟨fun _ h => h, fun _ h => List.mem_append_left _ h, id, id⟩

theorem addHard (a : Edges) {edge : DependencyEdge} (hsrc : edge.srcMssu ∈ nodes.keys)
    (hdst : edge.dstMssu ∈ nodes.keys) : Grows nodes a (a.addHard edge) := by
  refine ⟨fun _ h => List.mem_append_left _ h, fun _ h => h, fun hk e he => ?_, id⟩
  rcases List.mem_append.1 he with he | he
  · exact hk e he
  · rw [List.mem_singleton.1 he]
    exact ⟨hsrc, hdst⟩

theorem warn (a : Edges) (message key : String) : Grows nodes a (a.warn message key) := by
  refine ⟨fun _ h => h, fun _ h => h, id, fun h => ?_⟩
  show (a.diagnostics.warn message key).removedEdgeKeys =
    (a.diagnostics.warn message key).removedHardEdges
  rwa [DAGBuildDiagnostics.removedEdgeKeys_warn, DAGBuildDiagnostics.removedHardEdges_warn]

theorem note (a : Edges) (message : String) : Grows nodes a (a.note message) :=
  ⟨fun _ h => h, fun _ h => h, id, id⟩

/-- A loop grows the edges when each of its steps does. -/
theorem foldl {α : Type} {step : Edges → α → Edges} {l : List α}
    (h : ∀ edges, ∀ x ∈ l, Grows nodes edges (step edges x)) (a : Edges) :
    Grows nodes a (l.foldl step a) := by
  induction l generalizing a with
  | nil => exact refl a
  | cons x l ih =>
    exact (h a x List.mem_cons_self).trans
      (ih (fun edges y hy => h edges y (List.mem_cons_of_mem _ hy)) _)

end Grows

/-! ## Stages -/

theorem mem_keys_nodesOf {mssu : MSSU} (h : mssu ∈ mssus) : mssu.mssuId ∈ (nodesOf mssus).keys := by
  rw [nodesOf, OrderedDict.mem_keys_ofList]
  exact List.mem_map.2 ⟨_, List.mem_map_of_mem h, rfl⟩

theorem known_of_get? {id : String} {mssu : MSSU} (h : nodes.get? id = some mssu) :
    id ∈ nodes.keys :=
  OrderedDict.get?_isSome_iff.1 (by rw [h]; rfl)

theorem bothKnown_eq_some {src dst : String} {pair : MSSU × MSSU}
    (h : bothKnown nodes src dst = some pair) : src ∈ nodes.keys ∧ dst ∈ nodes.keys := by
  unfold bothKnown at h
  cases hsrc : nodes.get? src with
  | none => simp [hsrc] at h
  | some srcMssu =>
    cases hdst : nodes.get? dst with
    | none => simp [hsrc, hdst] at h
    | some dstMssu => exact ⟨known_of_get? hsrc, known_of_get? hdst⟩

/-- An edge of two ends that is hard, or a soft order over them. -/
def Ordered (edges : Edges) (src dst : String) : Prop :=
  (∃ edge ∈ edges.hard, edgeEnds edge = (src, dst)) ∨
    ∃ constraint ∈ edges.soft, constraint.kind = SoftConstraintKind.softOrder ∧
      constraint.scope = [src, dst]

theorem Grows.ordered (h : Grows nodes a b) {src dst : String} (ho : Ordered a src dst) :
    Ordered b src dst := by
  rcases ho with ⟨edge, he, hends⟩ | ⟨constraint, hc, hsame⟩
  · exact .inl ⟨edge, h.hard edge he, hends⟩
  · exact .inr ⟨constraint, h.soft constraint hc, hsame⟩

theorem ordered_addHard (edges : Edges) (edge : DependencyEdge) :
    Ordered (edges.addHard edge) edge.srcMssu edge.dstMssu :=
  .inl ⟨edge, by simp [Edges.addHard], rfl⟩

theorem ordered_addSoft (edges : Edges) (src dst edgeType : String) :
    Ordered (edges.addSoft (softOrderFromCandidate src dst edgeType)) src dst :=
  .inr ⟨softOrderFromCandidate src dst edgeType, by simp [Edges.addSoft], rfl, rfl⟩

theorem grows_addCandidate (edges : Edges) (candidate : String × String × String) :
    Grows nodes edges (addCandidate nodes edges candidate) := by
  obtain ⟨src, dst, edgeType⟩ := candidate
  simp only [addCandidate]
  cases hknown : bothKnown nodes src dst with
  | none =>
    simp only []
    split_ifs
    all_goals first | exact .refl _ | exact .addSoft _ _
  | some pair =>
    obtain ⟨srcMssu, dstMssu⟩ := pair
    obtain ⟨hsrc, hdst⟩ := bothKnown_eq_some hknown
    simp only []
    split_ifs
    all_goals first | exact .refl _ | exact .addSoft _ _ | exact .addHard _ hsrc hdst

/-- The candidates that the graph has to keep. -/
def IsKept (edgeType : String) : Prop := edgeType = "DATA_DEP" ∨ edgeType = "LIFECYCLE_DEP"

theorem ordered_addCandidate (edges : Edges) {src dst edgeType : String} (hkept : IsKept edgeType)
    (hsrc : src ∈ nodes.keys) (hdst : dst ∈ nodes.keys) :
    Ordered (addCandidate nodes edges (src, dst, edgeType)) src dst := by
  obtain ⟨srcMssu, hsrcMssu⟩ := Option.isSome_iff_exists.1 (OrderedDict.get?_isSome_iff.2 hsrc)
  obtain ⟨dstMssu, hdstMssu⟩ := Option.isSome_iff_exists.1 (OrderedDict.get?_isSome_iff.2 hdst)
  have hknown : bothKnown nodes src dst = some (srcMssu, dstMssu) := by
    rw [bothKnown, hsrcMssu, hdstMssu]
  simp only [addCandidate, hknown]
  rcases hkept with rfl | rfl
  · rw [if_pos rfl]
    split_ifs
    · exact ordered_addHard _ _
    · exact ordered_addSoft _ _ _ _
  · rw [if_neg (by decide), if_pos rfl]
    split_ifs
    · exact ordered_addHard _ _
    · exact ordered_addSoft _ _ _ _

theorem ordered_candidates {candidates : List (String × String × String)} {src dst edgeType : String}
    (hmem : (src, dst, edgeType) ∈ candidates) (hkept : IsKept edgeType)
    (hsrc : src ∈ nodes.keys) (hdst : dst ∈ nodes.keys) (edges : Edges) :
    Ordered (candidates.foldl (addCandidate nodes) edges) src dst := by
  obtain ⟨before, after, rfl⟩ := List.append_of_mem hmem
  rw [List.foldl_append, List.foldl_cons]
  exact (Grows.foldl (fun edges x _ => grows_addCandidate edges x) _).ordered
    (ordered_addCandidate _ hkept hsrc hdst)

/-! ## Templates -/

theorem Template.grows_bindSoft (tpl : Template) (src : MSSU) (best : Option MSSU)
    (reason : String) (edges : Edges) : Grows nodes edges (tpl.bindSoft src best reason edges) := by
  cases best with
  | none => exact .refl _
  | some dst =>
    rw [Template.bindSoft]
    split_ifs
    · exact .refl _
    · exact .addSoft _ _

theorem mem_of_pickNearestDst {src dst : MSSU} {candidates : List MSSU}
    {srcHint dstHint pairKey : String}
    (h : pickNearestDst lib table src candidates srcHint dstHint pairKey = .ok (some dst)) :
    dst ∈ candidates := by
  obtain ⟨srcScope, -, h⟩ := bind_eq_ok.1 h
  obtain ⟨ranked, hranked, h⟩ := bind_eq_ok.1 h
  obtain ⟨best, hbest, rfl⟩ := Option.map_eq_some_iff.1 (pure_eq_ok.1 h)
  have hmem : best ∈ ranked := mem_sortedBy.1 (List.mem_of_mem_head? hbest)
  obtain ⟨x, hx, hrow⟩ := mem_of_mapM_ok hranked best hmem
  obtain ⟨dstScope, -, hrow⟩ := bind_eq_ok.1 hrow
  rw [← pure_eq_ok.1 hrow]
  exact List.mem_of_mem_filter hx

/-- A template whose candidates are MSSUs of the graph. -/
def Template.Known (nodes : Nodes) (tpl : Template) : Prop :=
  (∀ src ∈ tpl.srcCandidates, src.mssuId ∈ nodes.keys) ∧
    ∀ dst ∈ tpl.dstCandidates, dst.mssuId ∈ nodes.keys

variable {tpl : Template}

theorem Template.grows_bindUnscoped {src : MSSU} {message kind reason : String} {edges : Edges}
    {result : Edges × Bool}
    (h : bindUnscoped lib table tpl src message kind reason edges = .ok result) :
    Grows nodes edges result.1 := by
  obtain ⟨best, -, h⟩ := bind_eq_ok.1 h
  rw [← pure_eq_ok.1 h]
  exact (Grows.warn _ _ _).trans (tpl.grows_bindSoft _ _ _ _)

theorem Template.grows_bindScoped {src : MSSU} (hsrc : src.mssuId ∈ nodes.keys)
    {candidates : List MSSU} (hdst : ∀ dst ∈ candidates, dst.mssuId ∈ nodes.keys) {edges : Edges}
    {result : Edges × Bool} (h : bindScoped lib table tpl src candidates edges = .ok result) :
    Grows nodes edges result.1 := by
  obtain ⟨best, hbest, h⟩ := bind_eq_ok.1 h
  cases best with
  | none =>
    obtain ⟨other, -, h⟩ := bind_eq_ok.1 h
    rw [← pure_eq_ok.1 h]
    exact tpl.grows_bindSoft _ _ _ _
  | some dst =>
    rw [← pure_eq_ok.1 h]
    have hmem := hdst dst (mem_of_pickNearestDst hbest)
    split_ifs
    · exact .refl _
    · exact .addHard _ hsrc hmem
    · exact tpl.grows_bindSoft src (some dst) _ edges

theorem Template.grows_bindSource (htpl : tpl.Known nodes) {src : MSSU}
    (hsrc : src.mssuId ∈ nodes.keys) {edges : Edges} {result : Edges × Bool}
    (h : bindSource lib table tpl src edges = .ok result) : Grows nodes edges result.1 := by
  obtain ⟨real, -, h⟩ := bind_eq_ok.1 h
  cases real with
  | false => exact grows_bindUnscoped h
  | true =>
    obtain ⟨candidates, hcandidates, h⟩ := bind_eq_ok.1 h
    split_ifs at h
    · exact grows_bindUnscoped h
    · exact grows_bindScoped hsrc (fun dst hd => htpl.2 dst (mem_of_filterM_ok hcandidates hd)) h

theorem Template.grows_bindSources (htpl : tpl.Known nodes) {srcs : List MSSU}
    (hsrcs : ∀ src ∈ srcs, src.mssuId ∈ nodes.keys) {injected : ℕ} {edges result : Edges}
    (h : bindSources lib table tpl srcs injected edges = .ok result) :
    Grows nodes edges result := by
  induction srcs generalizing injected edges with
  | nil =>
    rw [← Except.ok.inj h]
    exact .refl _
  | cons src rest ih =>
    obtain ⟨⟨next, bound⟩, hnext, h⟩ := bind_eq_ok.1 h
    have hgrows : Grows nodes edges next :=
      grows_bindSource htpl (hsrcs src List.mem_cons_self) hnext
    have hrest := fun s hs => hsrcs s (List.mem_cons_of_mem _ hs)
    simp only [] at h
    split_ifs at h
    · rw [← pure_eq_ok.1 h]
      exact hgrows.trans (Grows.warn _ _ _)
    · exact hgrows.trans (ih hrest h)
    · exact hgrows.trans (ih hrest h)

theorem Template.grows_bindWide {edges result : Edges}
    (h : bindWide lib table tpl edges = .ok result) : Grows nodes edges result := by
  refine (Grows.warn edges _ _).trans
    (foldlM_ok_induction (P := Grows nodes _) (.refl _) (fun b src b' _ hb hstep => ?_) h)
  obtain ⟨best, -, hstep⟩ := bind_eq_ok.1 hstep
  rw [← pure_eq_ok.1 hstep]
  exact hb.trans (tpl.grows_bindSoft _ _ _ _)

theorem Template.grows_bind (htpl : tpl.Known nodes) {edges result : Edges}
    (h : tpl.bind lib table edges = .ok result) : Grows nodes edges result := by
  rw [Template.bind] at h
  split_ifs at h
  · exact grows_bindWide h
  · exact grows_bindSources htpl htpl.1 h

/-- What a template does: nothing, a warning, or its edges. -/
theorem injectTemplate_eq (lib : Library) (table : ActionTable) (mssus : List MSSU) (edges : Edges)
    (row : ProfileRule × Dict × ℕ) :
    injectTemplate lib table mssus edges row = .ok edges ∨
      (∃ message key, injectTemplate lib table mssus edges row = .ok (edges.warn message key)) ∨
      ∃ kind, normalizeTemplateKind (row.2.1.getD "kind" (.str EdgeKind.hardControl)).pyStr =
          some kind ∧
        injectTemplate lib table mssus edges row =
          (templateOf mssus row.1 row.2.1 row.2.2 kind).bind lib table edges := by
  simp only [injectTemplate]
  split_ifs with hhints
  · exact .inl rfl
  cases normalizeTemplateKind (row.2.1.getD "kind" (.str EdgeKind.hardControl)).pyStr with
  | none => exact .inr (.inl ⟨_, _, rfl⟩)
  | some kind =>
    simp only []
    split_ifs with hempty
    · exact .inl rfl
    · exact .inr (.inr ⟨kind, rfl, rfl⟩)

theorem known_templateOf (rule : ProfileRule) (dict : Dict) (idx : ℕ) (kind : String) :
    (templateOf mssus rule dict idx kind).Known (nodesOf mssus) :=
  ⟨fun _ hs => mem_keys_nodesOf (List.mem_of_mem_filter hs),
    fun _ hd => mem_keys_nodesOf (List.mem_of_mem_filter hd)⟩

theorem grows_injectTemplate {edges result : Edges} {row : ProfileRule × Dict × ℕ}
    (h : injectTemplate lib table mssus edges row = .ok result) :
    Grows (nodesOf mssus) edges result := by
  rcases injectTemplate_eq lib table mssus edges row with heq | ⟨message, key, heq⟩ | ⟨kind, -, heq⟩
  · rw [← Except.ok.inj (heq.symm.trans h)]
    exact .refl _
  · rw [← Except.ok.inj (heq.symm.trans h)]
    exact .warn _ _ _
  · exact Template.grows_bind (known_templateOf row.1 row.2.1 row.2.2 kind) (heq.symm.trans h)

theorem grows_injectRuleTemplateHardEdges {edges result : Edges}
    (h : injectRuleTemplateHardEdges lib profile table mssus edges = .ok result) :
    Grows (nodesOf mssus) edges result :=
  foldlM_ok_induction (P := Grows (nodesOf mssus) edges) (.refl _)
    (fun _ _ _ _ hb hstep => hb.trans (grows_injectTemplate hstep)) h

/-! ## Inputs and dependencies -/

theorem mem_producersOf {name id : String} (h : id ∈ producersOf lib mssus name) :
    ∃ mssu ∈ mssus, mssu.mssuId = id := by
  have hmem := (lib.setOrder_perm _).mem_iff.1 h
  obtain ⟨mssu, hmssu, rfl⟩ := List.mem_map.1 (List.mem_eraseDups.1 hmem)
  exact ⟨mssu, List.mem_of_mem_filter hmssu, rfl⟩

theorem grows_addProducer {mssu : MSSU} (hmssu : mssu.mssuId ∈ nodes.keys) (name : String)
    (edges : Edges) {producerId : String} (hproducer : producerId ∈ nodes.keys) :
    Grows nodes edges (addProducer nodes mssu name edges producerId) := by
  obtain ⟨producer, hget⟩ := Option.isSome_iff_exists.1 (OrderedDict.get?_isSome_iff.2 hproducer)
  simp only [addProducer, hget]
  split_ifs
  all_goals first | exact .refl _ | exact .addSoft _ _ | exact .addHard _ hproducer hmssu

theorem grows_addInputs (edges : Edges) :
    Grows (nodesOf mssus) edges (addInputs lib mssus (nodesOf mssus) edges) := by
  refine Grows.foldl (fun edges row hrow => ?_) edges
  obtain ⟨mssu, hmssu, hrow⟩ := List.mem_flatMap.1 hrow
  obtain ⟨name, -, rfl⟩ := List.mem_map.1 hrow
  rw [addInput]
  split_ifs
  · exact .refl _
  · refine Grows.foldl (fun edges producerId hp => ?_) edges
    obtain ⟨producer, hproducer, rfl⟩ := mem_producersOf hp
    exact grows_addProducer (mem_keys_nodesOf hmssu) _ _ (mem_keys_nodesOf hproducer)

theorem grows_addRepresentatives (dep : Dict) (edges : Edges) (pair : String × String) :
    Grows nodes edges (addRepresentatives nodes dep edges pair) := by
  obtain ⟨src, dst⟩ := pair
  simp only [addRepresentatives]
  split_ifs
  · exact .refl _
  cases hknown : bothKnown nodes src dst with
  | none => exact .refl _
  | some mssus =>
    obtain ⟨hsrc, hdst⟩ := bothKnown_eq_some hknown
    obtain ⟨srcMssu, dstMssu⟩ := mssus
    simp only []
    split_ifs
    · exact .note _ _
    · exact .addHard _ hsrc hdst

theorem grows_injectKnownDependency (index : ActionIndex) (edges : Edges)
    (dep beforeAction afterAction : Dict) :
    Grows nodes edges (injectKnownDependency nodes index edges dep beforeAction afterAction) := by
  simp only [injectKnownDependency]
  by_cases hwriteback : (actionIsWriteback (some beforeAction) &&
      actionIsWriteback (some afterAction) && !actionIsAggregateSink (some afterAction)) = true
  · rw [if_pos hwriteback]
    split_ifs
    · exact .note _ _
    · exact .refl _
    · exact .addSoft _ _
  · rw [if_neg hwriteback]
    split_ifs
    · exact .note _ _
    · exact Grows.foldl (fun edges pair _ => grows_addRepresentatives dep edges pair) edges

theorem grows_injectHardDependency (index : ActionIndex) (edges : Edges) (dep : Dict) :
    Grows nodes edges (injectHardDependency nodes index edges dep) := by
  simp only [injectHardDependency]
  split_ifs
  · exact .refl _
  cases index.get? (dependencyEnd dep "before") with
  | none => exact .refl _
  | some beforeAction =>
    cases index.get? (dependencyEnd dep "after") with
    | none => exact .refl _
    | some afterAction => exact grows_injectKnownDependency _ _ _ _ _

theorem grows_injectVdevDependencies (target : Option OptimizationTarget) (edges : Edges) :
    Grows nodes edges (injectVdevDependencies nodes target edges) := by
  cases target with
  | none => exact .refl _
  | some target =>
    refine (Grows.foldl (fun edges dep _ => grows_injectHardDependency _ edges dep) edges).trans
      (Grows.foldl (fun edges dep _ => ?_) _)
    simp only [injectSoftDependency]
    split_ifs
    · exact .refl _
    · exact .addSoft _ _

/-! ## Deduplication -/

theorem mem_values_iff {κ υ : Type} [DecidableEq κ] {d : OrderedDict κ υ} {v : υ} :
    v ∈ d.values ↔ ∃ k, d.get? k = some v := by
  constructor
  · intro hv
    obtain ⟨row, hrow, rfl⟩ := List.mem_map.1 hv
    exact ⟨row.1, OrderedDict.get?_of_mem_rows hrow⟩
  · rintro ⟨k, hk⟩
    exact List.mem_map_of_mem (OrderedDict.mem_rows_of_get? hk)

/-- The key of an edge. -/
def edgeKey (edge : DependencyEdge) : String × String × String :=
  (edge.srcMssu, edge.dstMssu, edge.kind)

theorem mem_of_mem_dedupHardEdges {edges : List DependencyEdge} {edge : DependencyEdge}
    (h : edge ∈ dedupHardEdges edges) : edge ∈ edges := by
  obtain ⟨k, hk⟩ := mem_values_iff.1 h
  obtain ⟨e, he, heq⟩ := List.mem_map.1 (OrderedDict.mem_of_get?_ofList hk)
  rw [← (Prod.mk.inj heq).2]
  exact he

/-- Dropping duplicates leaves an edge of every key. -/
theorem exists_mem_dedupHardEdges {edges : List DependencyEdge} {edge : DependencyEdge}
    (h : edge ∈ edges) : ∃ e ∈ dedupHardEdges edges, edgeKey e = edgeKey edge := by
  obtain ⟨e, he⟩ : ∃ e, (OrderedDict.ofList (edges.map fun e => (edgeKey e, e))).get?
      (edgeKey edge) = some e := by
    rw [← Option.isSome_iff_exists, OrderedDict.get?_isSome_iff, OrderedDict.mem_keys_ofList]
    exact List.mem_map.2 ⟨_, List.mem_map_of_mem h, rfl⟩
  obtain ⟨e', -, heq⟩ := List.mem_map.1 (OrderedDict.mem_of_get?_ofList he)
  obtain ⟨hkey, rfl⟩ := Prod.mk.inj heq
  exact ⟨e', mem_values_iff.2 ⟨_, he⟩, hkey⟩

theorem Ordered.dedupHard {edges : Edges} {src dst : String} (h : Ordered edges src dst) :
    Ordered edges.dedupHard src dst := by
  rcases h with ⟨edge, he, hends⟩ | hsoft
  · obtain ⟨e, hmem, hkey⟩ := exists_mem_dedupHardEdges he
    simp only [edgeKey, Prod.mk.injEq] at hkey
    exact .inl ⟨e, hmem, by rw [← hends, edgeEnds, edgeEnds, hkey.1, hkey.2.1]⟩
  · exact .inr hsoft

theorem EndsKnown.dedup {edges : List DependencyEdge} (h : EndsKnown nodes edges) :
    EndsKnown nodes (dedupHardEdges edges) :=
  fun edge he => h edge (mem_of_mem_dedupHardEdges he)

/-! ## Whole stages -/

/-- The edges as they are before the cycles are broken. -/
structure Sound (nodes : Nodes) (edges : Edges) : Prop where
  known : EndsKnown nodes edges.hard
  tidy : edges.diagnostics.Tidy

theorem Grows.sound (h : Grows nodes a b) (ha : Sound nodes a) : Sound nodes b :=
  ⟨h.known ha.known, h.tidy ha.tidy⟩

theorem sound_empty : Sound nodes {} := ⟨fun _ he => (nomatch he), rfl⟩

variable {candidates : List (String × String × String)}

theorem sound_collectEdges {edges : Edges}
    (h : collectEdges lib profile mssus candidates target = .ok edges) :
    Sound (nodesOf mssus) edges := by
  obtain ⟨injected, hinjected, h⟩ := bind_eq_ok.1 h
  have hgrows : Grows (nodesOf mssus) {} (addInputs lib mssus (nodesOf mssus) injected) :=
    ((Grows.foldl (fun edges x _ => grows_addCandidate edges x) _).trans
      (grows_injectRuleTemplateHardEdges hinjected)).trans (grows_addInputs _)
  have hsound := hgrows.sound sound_empty
  rw [← pure_eq_ok.1 h]
  exact ⟨hsound.known.dedup, hsound.tidy⟩

/-- Every candidate that the graph has to keep is collected. -/
theorem ordered_collectEdges {edges : Edges}
    (h : collectEdges lib profile mssus candidates target = .ok edges)
    {src dst edgeType : String} (hmem : (src, dst, edgeType) ∈ candidates)
    (hkept : IsKept edgeType) (hsrc : src ∈ (nodesOf mssus).keys)
    (hdst : dst ∈ (nodesOf mssus).keys) : Ordered edges src dst := by
  obtain ⟨injected, hinjected, h⟩ := bind_eq_ok.1 h
  have hordered := ordered_candidates hmem hkept hsrc hdst {}
  rw [← pure_eq_ok.1 h]
  exact ((grows_addInputs _).ordered
    ((grows_injectRuleTemplateHardEdges hinjected).ordered hordered)).dedupHard

theorem sound_injectTarget {edges : Edges} (h : Sound (nodesOf mssus) edges) :
    Sound (nodesOf mssus) (injectTarget mssus target edges) := by
  have hgrows : Grows (nodesOf mssus) { edges with soft := [] } _ :=
    grows_injectVdevDependencies target _
  have hsound := hgrows.sound ⟨h.known, h.tidy⟩
  exact ⟨hsound.known.dedup, hsound.tidy⟩

theorem Ordered.injectTarget {edges : Edges} {src dst : String} (h : Ordered edges src dst) :
    Ordered (injectTarget mssus target edges) src dst := by
  have hgrows : Grows (nodesOf mssus) { edges with soft := [] } _ :=
    grows_injectVdevDependencies target _
  rcases h with ⟨edge, he, hends⟩ | ⟨constraint, hc, hsame⟩
  · rcases (hgrows.ordered (.inl ⟨edge, he, hends⟩)).dedupHard with hhard | ⟨s, hs, hsame⟩
    · exact .inl hhard
    · exact .inr ⟨s, List.mem_append_left _ hs, hsame⟩
  · exact .inr ⟨constraint, List.mem_append_right _ hc, hsame⟩

end FloWeaver.Dag
