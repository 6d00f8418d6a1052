import FloWeaver.Dag.Partners
import FloWeaver.Dag.Uniform
import FloWeaver.Lib.LastWriter

/-!
# The edges of shuffled inputs

Two runs are given the same MSSUs and the same candidates, each in its own order.  Every stage adds
the same edges, in some order; where two edges of a stage have the same ends and kind, they are the
same edge, so dropping duplicates keeps the same ones.

* `Alike` — the same last edge of every key, and the same soft constraints in some order.
* `alike_candidates`, `Template.bind_alike`, `alike_addInputs` — the stages.
* `collectEdges_alike` — the edges of the candidates, the templates and the inputs.
* `injectTarget_alike` — the hard edges are the same in some order, and the soft constraints of the
  target are the same.
-/

namespace FloWeaver.Dag

open Py LastWriter
open Scheduler (ActionIndex)

/-! ## Alike -/

/-- Their keys tell the edges apart. -/
def ToldApart (edges : List DependencyEdge) : Prop :=
  ∀ a ∈ edges, ∀ b ∈ edges, edgeKey a = edgeKey b → a = b

/-- What two runs have collected: soft orders of two MSSUs, in some order, and hard edges of which
the last one of each key is the same. -/
structure Alike (a b : Edges) : Prop where
  hard : SameLast edgeKey a.hard b.hard
  soft : a.soft.Perm b.soft
  removed : a.diagnostics.removedHardEdges = b.diagnostics.removedHardEdges
  pairs : ∀ constraint ∈ a.soft, PairOrder constraint
  kinds : ∀ edge ∈ a.hard, KnownKind edge

variable {a b a' b' new new' : Edges} {α : Type}

theorem alike_empty : Alike {} {} :=
  ⟨.refl _, .refl _, rfl, fun _ hc => (nomatch hc), fun _ he => (nomatch he)⟩

theorem Alike.added (h : Alike a b) (ha : Added PairOrder a new a') (hb : Added PairOrder b new' b')
    (hhard : SameLast edgeKey new.hard new'.hard) (hsoft : new.soft.Perm new'.soft) :
    Alike a' b' where
  hard := by
    rw [ha.hard, hb.hard]
    exact h.hard.append hhard
  soft := by
    rw [ha.soft, hb.soft]
    exact h.soft.append hsoft
  removed := by rw [ha.removed, hb.removed, h.removed]
  pairs constraint hc := by
    rw [ha.soft] at hc
    exact (List.mem_append.1 hc).elim (h.pairs constraint) (ha.each constraint)
  kinds edge he := by
    rw [ha.hard] at he
    exact (List.mem_append.1 he).elim (h.kinds edge) (ha.kinds edge)

/-- The additions of two runs, in some order. -/
theorem Alike.merged {news news' : List Edges} (h : Alike a b) (hnews : news.Perm news')
    (ha : Added PairOrder a (merged news) a') (hb : Added PairOrder b (Dag.merged news') b')
    (hkeys : ToldApart (Dag.merged news).hard) : Alike a' b' :=
  h.added ha hb (sameLast_of_perm (hnews.flatMap_right _) hkeys) (hnews.flatMap_right _)

/-- A loop over the same elements in another order. -/
theorem alike_foldl {step step' : Edges → α → Edges} {l l' : List α} (hperm : l.Perm l')
    (hsame : step = step') (hadds : ∀ x ∈ l, Adds PairOrder (step · x))
    (hkeys : ToldApart (l.flatMap fun x => (step {} x).hard)) (h : Alike a b) :
    Alike (l.foldl step a) (l'.foldl step' b) := by
  subst hsame
  refine h.merged (hperm.map _) (added_foldl hadds a)
    (added_foldl (fun x hx => hadds x (hperm.mem_iff.2 hx)) b) ?_
  rw [merged, List.flatMap_map]
  exact hkeys

/-- A loop that may raise, over the same elements in another order. -/
theorem alike_foldlM {step step' : Edges → α → Except PyErr Edges} {l l' : List α}
    (hperm : l.Perm l') (hsame : ∀ x ∈ l, SameOutcome (· = ·) (step {} x) (step' {} x))
    (hadds : ∀ x ∈ l, Uniform PairOrder (step · x))
    (hadds' : ∀ x ∈ l, Uniform PairOrder (step' · x))
    (hkeys : ∀ news, l.mapM (step {} ·) = .ok news → ToldApart (merged news).hard)
    (h : Alike a b) : SameOutcome Alike (l.foldlM step a) (l'.foldlM step' b) := by
  have hleft := (added_foldlM hadds a).attach
  have hright := added_foldlM (fun x hx => hadds' x (hperm.mem_iff.2 hx)) b
  refine ((hleft.symm.trans (sameOutcome_mapM hperm hsame)).trans hright).mono ?_
  rintro a' b' ⟨news', ⟨news, ⟨ha, hok, -⟩, hnews⟩, hb⟩
  exact h.merged hnews ha hb (hkeys news hok)

/-! ## The MSSUs by id -/

/-- Two tables have the same MSSU under every id. -/
def SameNodes (nodes nodes' : Nodes) : Prop := ∀ id, nodes.get? id = nodes'.get? id

section Nodes

variable {nodes nodes' : Nodes} {mssus mssus' : List MSSU}

theorem get?_nodesOf (mssus : List MSSU) (id : String) :
    (nodesOf mssus).get? id = lastOf MSSU.mssuId mssus id :=
  OrderedDict.get?_keyed MSSU.mssuId mssus id

theorem sameNodes_of_perm (h : mssus.Perm mssus') (hids : (mssus.map MSSU.mssuId).Nodup) :
    SameNodes (nodesOf mssus) (nodesOf mssus') := by
  intro id
  rw [get?_nodesOf, get?_nodesOf]
  exact sameLast_of_perm h (fun a ha b hb => List.inj_on_of_nodup_map hids ha hb) id

/-- Every MSSU of the table is under its own id. -/
theorem get?_of_mem_values {mssu : MSSU} (h : mssu ∈ (nodesOf mssus).values) :
    (nodesOf mssus).get? mssu.mssuId = some mssu := by
  obtain ⟨id, hid⟩ := mem_values_iff.1 h
  have hlast := get?_nodesOf mssus id ▸ hid
  rw [(mem_of_lastOf hlast).2]
  exact hid

theorem SameNodes.bothKnown (h : SameNodes nodes nodes') : bothKnown nodes = bothKnown nodes' := by
  funext src dst
  rw [Dag.bothKnown, Dag.bothKnown, h src, h dst]

theorem SameNodes.addCandidate (h : SameNodes nodes nodes') :
    addCandidate nodes = addCandidate nodes' := by
  funext edges candidate
  simp only [Dag.addCandidate, h.bothKnown]

theorem SameNodes.addProducer (h : SameNodes nodes nodes') :
    addProducer nodes = addProducer nodes' := by
  funext mssu name edges producerId
  simp only [Dag.addProducer, h producerId]

end Nodes

/-! ## Candidates -/

section Candidates

variable {nodes nodes' : Nodes} {candidates candidates' : List (String × String × String)}

/-- The hard edge of a candidate. -/
theorem hard_addCandidate {candidate : String × String × String} {edge : DependencyEdge}
    (h : edge ∈ (addCandidate nodes {} candidate).hard) :
    edge = ⟨candidate.1, candidate.2.1, EdgeKind.hardData, ["candidate:DATA_DEP"]⟩ ∨
      edge = ⟨candidate.1, candidate.2.1, EdgeKind.hardLifecycle, ["candidate:LIFECYCLE_DEP"]⟩ := by
  obtain ⟨src, dst, edgeType⟩ := candidate
  simp only [addCandidate] at h
  split_ifs at h with hdata hlifecycle
  · subst hdata
    cases hknown : bothKnown nodes src dst with
    | none => simp [hknown] at h
    | some pair =>
      simp only [hknown] at h
      split_ifs at h
      · exact .inl (List.mem_singleton.1 h)
      · cases h
  · subst hlifecycle
    cases hknown : bothKnown nodes src dst with
    | none => simp [hknown, Edges.addSoft] at h
    | some pair =>
      simp only [hknown] at h
      split_ifs at h
      · exact .inr (List.mem_singleton.1 h)
      · cases h
  · cases h
  · cases h

theorem toldApart_candidates (nodes : Nodes) (candidates : List (String × String × String)) :
    ToldApart (candidates.flatMap fun candidate => (addCandidate nodes {} candidate).hard) := by
  have hkinds : EdgeKind.hardData ≠ EdgeKind.hardLifecycle := by decide
  intro a ha b hb hkey
  obtain ⟨candidate, -, ha⟩ := List.mem_flatMap.1 ha
  obtain ⟨other, -, hb⟩ := List.mem_flatMap.1 hb
  rcases hard_addCandidate ha with rfl | rfl <;> rcases hard_addCandidate hb with rfl | rfl <;>
    simp_all [edgeKey]

theorem alike_candidates (hnodes : SameNodes nodes nodes') (h : candidates.Perm candidates') :
    Alike (candidates.foldl (addCandidate nodes) {}) (candidates'.foldl (addCandidate nodes') {}) :=
  alike_foldl h hnodes.addCandidate (fun candidate _ => adds_addCandidate nodes candidate)
    (toldApart_candidates nodes candidates) alike_empty

end Candidates

/-! ## The nearest partner -/

section Templates

variable {lib : Library} {table : ActionTable} {mssus mssus' srcs dsts dsts' : List MSSU}

theorem allowsMissingResourceCleanupPair_perm (h : dsts.Perm dsts') (src : MSSU)
    (srcHint dstHint : String) :
    allowsMissingResourceCleanupPair src dsts srcHint dstHint =
      allowsMissingResourceCleanupPair src dsts' srcHint dstHint := by
  simp only [allowsMissingResourceCleanupPair, (h.filter _).any_eq]

/-- The ranking ends with the id, so the candidates may come in any order. -/
theorem pickNearestDst_perm (h : dsts.Perm dsts') (hids : (dsts.map MSSU.mssuId).Nodup) (src : MSSU)
    (srcHint dstHint pairKey : String) :
    SameOutcome (· = ·) (pickNearestDst lib table src dsts srcHint dstHint pairKey)
      (pickNearestDst lib table src dsts' srcHint dstHint pairKey) := by
  rw [pickNearestDst, pickNearestDst]
  refine (SameOutcome.of_eq rfl).bind ?_
  rintro srcScope _ rfl
  rw [← allowsMissingResourceCleanupPair_perm h]
  refine (mapM_perm _ (h.filter _)).attach.bind ?_
  rintro ranked ranked' ⟨hranked, hok, -⟩
  have hrow : ∀ row ∈ ranked, row.2 ∈ dsts ∧ (ofLex row.1).2 = row.2.mssuId := by
    intro row hrow
    obtain ⟨dst, hdst, hrank⟩ := mem_of_mapM_ok hok row hrow
    obtain ⟨dstScope, -, hrank⟩ := bind_eq_ok.1 hrank
    obtain rfl := pure_eq_ok.1 hrank
    exact ⟨List.mem_of_mem_filter hdst, rfl⟩
  have hsorted : sortedBy (·.1) ranked = sortedBy (·.1) ranked' := by
    refine sortedBy_eq_of_perm hranked fun row hr other ho hkey => Prod.ext hkey ?_
    obtain ⟨hmem, hid⟩ := hrow row hr
    obtain ⟨hmem', hid'⟩ := hrow other ho
    exact List.inj_on_of_nodup_map hids hmem hmem' (by rw [← hid, ← hid', hkey])
  rw [hsorted]
  exact .returns rfl

/-! ## The sources of a template -/

namespace Template

variable (tpl : Template)

/-- A template with its candidates in another order. -/
def withCandidates (srcs dsts : List MSSU) : Template :=
  { tpl with srcCandidates := srcs, dstCandidates := dsts }

variable {tpl}

theorem bindUnscoped_perm (h : tpl.dstCandidates.Perm dsts)
    (hids : (tpl.dstCandidates.map MSSU.mssuId).Nodup) (src : MSSU) (message kind reason : String)
    (edges : Edges) :
    SameOutcome (· = ·) (bindUnscoped lib table tpl src message kind reason edges)
      (bindUnscoped lib table (tpl.withCandidates srcs dsts) src message kind reason edges) := by
  rw [bindUnscoped, bindUnscoped]
  refine (pickNearestDst_perm h hids src _ _ _).bind ?_
  rintro best _ rfl
  exact .returns rfl

theorem bindScoped_perm {candidates candidates' : List MSSU} (h : candidates.Perm candidates')
    (hids : (candidates.map MSSU.mssuId).Nodup) (src : MSSU) (edges : Edges) :
    SameOutcome (· = ·) (bindScoped lib table tpl src candidates edges)
      (bindScoped lib table (tpl.withCandidates srcs dsts) src candidates' edges) := by
  rw [bindScoped, bindScoped]
  refine (pickNearestDst_perm h hids src _ _ _).bind ?_
  rintro best _ rfl
  cases best with
  | none =>
    refine (pickNearestDst_perm h hids src _ _ _).bind ?_
    rintro other _ rfl
    exact .returns rfl
  | some dst => exact .of_eq rfl

theorem bindSource_perm (h : tpl.dstCandidates.Perm dsts)
    (hids : (tpl.dstCandidates.map MSSU.mssuId).Nodup) (src : MSSU) (edges : Edges) :
    SameOutcome (· = ·) (bindSource lib table tpl src edges)
      (bindSource lib table (tpl.withCandidates srcs dsts) src edges) := by
  rw [bindSource, bindSource]
  refine (SameOutcome.of_eq rfl).bind ?_
  rintro real _ rfl
  cases real with
  | false => exact bindUnscoped_perm h hids src _ _ _ edges
  | true =>
    refine (sameOutcome_filterM h).attach.bind ?_
    rintro candidates candidates' ⟨hperm, hok, -⟩
    have hkept : candidates = tpl.dstCandidates.filter _ :=
      filterM_eq_filter (g := fun dst =>
          (hasRealScopeTokens lib table.index dst tpl.pairKey).toOption.getD false)
        (fun dst _ keep hkeep => by rw [hkeep]; rfl) hok
    have hids' : (candidates.map MSSU.mssuId).Nodup := by
      rw [hkept]
      exact hids.sublist (List.filter_sublist.map _)
    rw [← hperm.isEmpty_eq]
    cases candidates.isEmpty with
    | true => exact bindUnscoped_perm h hids src _ _ _ edges
    | false => exact bindScoped_perm hperm hids' src edges

theorem bindOne_perm (h : tpl.dstCandidates.Perm dsts)
    (hids : (tpl.dstCandidates.map MSSU.mssuId).Nodup) (src : MSSU) (edges : Edges) :
    SameOutcome (· = ·) (bindOne lib table tpl src edges)
      (bindOne lib table (tpl.withCandidates srcs dsts) src edges) := by
  rw [bindOne, bindOne]
  refine (bindSource_perm h hids src edges).bind ?_
  rintro row _ rfl
  exact .returns rfl

/-- The hard edge of a source is the one to its partner. -/
theorem hard_bindOne {src : MSSU} {new : Edges} (h : bindOne lib table tpl src {} = .ok new)
    {edge : DependencyEdge} (hedge : edge ∈ new.hard) :
    ∃ dst, tpl.hardPartner lib table src = .ok (some dst) ∧ edge = tpl.hardEdge src dst := by
  obtain ⟨row, hrow, h⟩ := bind_eq_ok.1 h
  obtain rfl := pure_eq_ok.1 h
  obtain ⟨partner, hpartner, -, hhard⟩ := bindSource_hard hrow
  rw [hhard] at hedge
  cases partner with
  | none => cases hedge
  | some dst => exact ⟨dst, hpartner, List.mem_singleton.1 hedge⟩

/-- Every source has one hard edge at most. -/
theorem toldApart_sources (hids : (srcs.map MSSU.mssuId).Nodup) {news : List Edges}
    (h : srcs.mapM (bindOne lib table tpl · {}) = .ok news) : ToldApart (merged news).hard := by
  intro a ha b hb hkey
  obtain ⟨new, hnew, ha⟩ := List.mem_flatMap.1 ha
  obtain ⟨new', hnew', hb⟩ := List.mem_flatMap.1 hb
  obtain ⟨src, hsrc, hbind⟩ := mem_of_mapM_ok h new hnew
  obtain ⟨src', hsrc', hbind'⟩ := mem_of_mapM_ok h new' hnew'
  obtain ⟨dst, hpartner, rfl⟩ := hard_bindOne hbind ha
  obtain ⟨dst', hpartner', rfl⟩ := hard_bindOne hbind' hb
  obtain rfl := List.inj_on_of_nodup_map hids hsrc hsrc' (congrArg Prod.fst hkey)
  obtain rfl := Option.some.inj (Except.ok.inj (hpartner.symm.trans hpartner'))
  rfl

/-- A template with at most eight candidates on each side. -/
structure Narrow (tpl : Template) : Prop where
  src : tpl.srcCandidates.length ≤ 8
  dst : tpl.dstCandidates.length ≤ 8

theorem Narrow.bind_eq (h : tpl.Narrow) (edges : Edges) :
    tpl.bind lib table edges =
      tpl.srcCandidates.foldlM (fun edges src => bindOne lib table tpl src edges) edges := by
  have hwide : ¬ (tpl.pairKey = "" &&
      (8 < tpl.srcCandidates.length || 8 < tpl.dstCandidates.length)) = true := by
    simp [h.src, h.dst]
  have hcap : 0 + tpl.srcCandidates.length < maxEdges := by
    have := h.src
    rw [maxEdges]
    omega
  rw [Template.bind, if_neg hwide, bindSources_eq lib table tpl edges hcap]

/-- A narrow template gives the same edges, whatever the order of its candidates. -/
theorem bind_alike (hkind : tpl.KindKnown) (hnarrow : tpl.Narrow) (hsrc : tpl.srcCandidates.Perm srcs)
    (hdst : tpl.dstCandidates.Perm dsts) (hsrcs : (tpl.srcCandidates.map MSSU.mssuId).Nodup)
    (hdsts : (tpl.dstCandidates.map MSSU.mssuId).Nodup) {a b : Edges} (h : Alike a b) :
    SameOutcome Alike (tpl.bind lib table a) ((tpl.withCandidates srcs dsts).bind lib table b) := by
  have hnarrow' : (tpl.withCandidates srcs dsts).Narrow :=
    ⟨hsrc.length_eq ▸ hnarrow.src, hdst.length_eq ▸ hnarrow.dst⟩
  have hkind' : (tpl.withCandidates srcs dsts).KindKnown := hkind
  rw [hnarrow.bind_eq, hnarrow'.bind_eq]
  exact alike_foldlM hsrc (fun src _ => bindOne_perm hdst hdsts src {})
    (fun src _ => uniform_bindOne lib table tpl hkind src)
    (fun src _ => uniform_bindOne lib table _ hkind' src) (fun _ hok => toldApart_sources hsrcs hok) h

end Template

/-! ## All templates -/

variable {profile : HAPProfile}

theorem nodup_filter_mssuIds (hids : (mssus.map MSSU.mssuId).Nodup) (p : MSSU → Bool) :
    ((mssus.filter p).map MSSU.mssuId).Nodup :=
  hids.sublist (List.filter_sublist.map _)

theorem mem_values_of_normalizeTemplateKind {text kind : String}
    (h : normalizeTemplateKind text = some kind) : kind ∈ EdgeKind.values := by
  rw [normalizeTemplateKind] at h
  split_ifs at h with hvalue
  · obtain rfl := Option.some.inj h
    exact List.contains_iff_mem.1 hvalue
  · obtain rfl := Option.some.inj h
    decide
  · obtain rfl := Option.some.inj h
    decide
  · obtain rfl := Option.some.inj h
    decide

theorem templateOf_perm (mssus mssus' : List MSSU) (rule : ProfileRule) (dict : Dict) (idx : ℕ)
    (kind : String) :
    templateOf mssus' rule dict idx kind = (templateOf mssus rule dict idx kind).withCandidates
      (templateOf mssus' rule dict idx kind).srcCandidates
      (templateOf mssus' rule dict idx kind).dstCandidates := by
  simp only [templateOf, Template.withCandidates]

theorem injectTemplate_alike (h : mssus.Perm mssus') (hids : (mssus.map MSSU.mssuId).Nodup)
    {row : ProfileRule × Dict × ℕ} (hnarrow : ∀ tpl ∈ activeTemplate mssus row, tpl.Narrow)
    {a b : Edges} (hab : Alike a b) :
    SameOutcome Alike (injectTemplate lib table mssus a row)
      (injectTemplate lib table mssus' b row) := by
  rw [injectTemplate, injectTemplate]
  split_ifs with hhints hhints' hhints'
  · exact .returns hab
  · exact absurd hhints hhints'
  · exact absurd hhints' hhints
  cases hkind : normalizeTemplateKind (row.2.1.getD "kind" (.str EdgeKind.hardControl)).pyStr with
  | none => exact .returns (hab.added (Adds.warn _ _ a) (Adds.warn _ _ b) (.refl _) (.refl _))
  | some kind =>
    have hsrc : (templateOf mssus row.1 row.2.1 row.2.2 kind).srcCandidates.Perm
        (templateOf mssus' row.1 row.2.1 row.2.2 kind).srcCandidates := h.filter _
    have hdst : (templateOf mssus row.1 row.2.1 row.2.2 kind).dstCandidates.Perm
        (templateOf mssus' row.1 row.2.1 row.2.2 kind).dstCandidates := h.filter _
    simp only [← hsrc.isEmpty_eq, ← hdst.isEmpty_eq]
    by_cases hempty : ((templateOf mssus row.1 row.2.1 row.2.2 kind).srcCandidates.isEmpty ||
        (templateOf mssus row.1 row.2.1 row.2.2 kind).dstCandidates.isEmpty) = true
    · rw [if_pos hempty, if_pos hempty]
      exact .returns hab
    rw [if_neg hempty, if_neg hempty]
    have hactive : activeTemplate mssus row =
        some (templateOf mssus row.1 row.2.1 row.2.2 kind) := by
      rw [activeTemplate, if_neg hhints]
      simp only [hkind]
      rw [if_neg hempty]
    rw [templateOf_perm mssus mssus']
    exact Template.bind_alike (mem_values_of_normalizeTemplateKind hkind) (hnarrow _ hactive) hsrc
      hdst (nodup_filter_mssuIds hids _) (nodup_filter_mssuIds hids _) hab

/-- The templates of a profile are narrow on some MSSUs. -/
def NarrowTemplates (profile : HAPProfile) (mssus : List MSSU) : Prop :=
  ∀ tpl ∈ activeTemplates profile mssus, tpl.Narrow

theorem injectRuleTemplateHardEdges_alike (h : mssus.Perm mssus')
    (hids : (mssus.map MSSU.mssuId).Nodup) (hnarrow : NarrowTemplates profile mssus)
    {a b : Edges} (hab : Alike a b) :
    SameOutcome Alike (injectRuleTemplateHardEdges lib profile table mssus a)
      (injectRuleTemplateHardEdges lib profile table mssus' b) :=
  SameOutcome.foldlM (fun row hrow _ _ hab => injectTemplate_alike h hids
    (fun tpl htpl => hnarrow tpl (List.mem_filterMap.2 ⟨row, hrow, htpl⟩)) hab) hab

end Templates

/-! ## Inputs -/

section Inputs

variable {lib : Library} {mssus mssus' : List MSSU}

/-- Every input of an MSSU with each of its producers. -/
def inputRows (lib : Library) (mssus : List MSSU) : List (MSSU × String × String) :=
  (mssus.flatMap fun mssu => mssu.inputs.map fun name => (mssu, name)).flatMap fun row =>
    if genericIoSymbol row.2 then []
    else (producersOf lib mssus row.2).map fun producerId => (row.1, row.2, producerId)

theorem addInputs_eq (lib : Library) (mssus : List MSSU) (nodes : Nodes) (edges : Edges) :
    addInputs lib mssus nodes edges = (inputRows lib mssus).foldl
      (fun edges row => addProducer nodes row.1 row.2.1 edges row.2.2) edges := by
  have hstep : addInput lib mssus nodes = fun edges row =>
      (if genericIoSymbol row.2 then []
        else (producersOf lib mssus row.2).map fun producerId => (row.1, row.2, producerId)).foldl
          (fun edges row => addProducer nodes row.1 row.2.1 edges row.2.2) edges := by
    funext edges row
    rw [addInput]
    split_ifs
    · rfl
    · rw [List.foldl_map]
  rw [addInputs, inputRows, hstep]
  generalize (mssus.flatMap fun mssu => mssu.inputs.map fun name => (mssu, name)) = rows
  rw [List.foldl_flatMap]

theorem producersOf_perm (h : mssus.Perm mssus') (name : String) :
    (producersOf lib mssus name).Perm (producersOf lib mssus' name) := by
  refine (lib.setOrder_perm _).trans (List.Perm.trans ?_ (lib.setOrder_perm _).symm)
  refine (List.perm_ext_iff_of_nodup (nodup_eraseDups _) (nodup_eraseDups _)).2 fun id => ?_
  rw [List.mem_eraseDups, List.mem_eraseDups, ((h.filter _).map _).mem_iff]

theorem inputRows_perm (h : mssus.Perm mssus') :
    (inputRows lib mssus).Perm (inputRows lib mssus') := by
  refine (h.flatMap_right _).flatMap fun row _ => ?_
  split_ifs
  · exact .nil
  · exact (producersOf_perm h row.2).map _

theorem hard_addProducer {nodes : Nodes} {mssu : MSSU} {name producerId : String}
    {edge : DependencyEdge} (h : edge ∈ (addProducer nodes mssu name {} producerId).hard) :
    edge = ⟨producerId, mssu.mssuId, EdgeKind.hardData, ["io:outputs_intersect_inputs"]⟩ := by
  simp only [addProducer] at h
  split_ifs at h
  · cases h
  cases hproducer : nodes.get? producerId with
  | none =>
    rw [hproducer] at h
    exact List.mem_singleton.1 h
  | some producer =>
    simp only [hproducer] at h
    split_ifs at h
    · cases h
    · cases h
    · cases h
    · exact List.mem_singleton.1 h

theorem alike_addInputs {nodes nodes' : Nodes} (hnodes : SameNodes nodes nodes')
    (h : mssus.Perm mssus') {a b : Edges} (hab : Alike a b) :
    Alike (addInputs lib mssus nodes a) (addInputs lib mssus' nodes' b) := by
  rw [addInputs_eq, addInputs_eq]
  refine alike_foldl (inputRows_perm h) (by rw [hnodes.addProducer])
    (fun row _ => adds_addProducer nodes row.1 row.2.1 row.2.2) ?_ hab
  intro a ha b hb hkey
  obtain ⟨row, -, ha⟩ := List.mem_flatMap.1 ha
  obtain ⟨other, -, hb⟩ := List.mem_flatMap.1 hb
  rw [hard_addProducer ha, hard_addProducer hb] at hkey ⊢
  simp only [edgeKey, Prod.mk.injEq] at hkey
  rw [hkey.1, hkey.2.1]

end Inputs

/-! ## Dropping duplicates -/

theorem dedupHardEdges_perm {l m : List DependencyEdge} (h : SameLast edgeKey l m) :
    (dedupHardEdges l).Perm (dedupHardEdges m) :=
  OrderedDict.values_perm fun k => (OrderedDict.get?_keyed edgeKey l k).trans
    ((h k).trans (OrderedDict.get?_keyed edgeKey m k).symm)

theorem toldApart_dedupHardEdges (l : List DependencyEdge) : ToldApart (dedupHardEdges l) := by
  have hget : ∀ e ∈ dedupHardEdges l, lastOf edgeKey l (edgeKey e) = some e := by
    intro e he
    obtain ⟨k, hk⟩ := mem_values_iff.1 he
    have hlast := (OrderedDict.get?_keyed edgeKey l k).symm.trans hk
    rw [(mem_of_lastOf hlast).2]
    exact hlast
  intro a ha b hb hkey
  exact Option.some.inj ((hget a ha).symm.trans (hkey ▸ hget b hb))

theorem Alike.dedupHard (h : Alike a b) : Alike a.dedupHard b.dedupHard :=
  ⟨sameLast_of_perm (dedupHardEdges_perm h.hard) (toldApart_dedupHardEdges _), h.soft, h.removed,
    h.pairs, fun edge he => h.kinds edge (mem_of_mem_dedupHardEdges he)⟩

/-! ## All edges -/

section Whole

variable {lib : Library} {profile : HAPProfile} {mssus mssus' : List MSSU}
  {candidates candidates' : List (String × String × String)} {target : Option OptimizationTarget}

theorem collectEdges_alike (h : mssus.Perm mssus') (hids : (mssus.map MSSU.mssuId).Nodup)
    (hcandidates : candidates.Perm candidates') (hnarrow : NarrowTemplates profile mssus) :
    SameOutcome Alike (collectEdges lib profile mssus candidates target)
      (collectEdges lib profile mssus' candidates' target) := by
  have hnodes := sameNodes_of_perm h hids
  rw [collectEdges, collectEdges]
  refine (injectRuleTemplateHardEdges_alike h hids hnarrow
    (alike_candidates hnodes hcandidates)).bind fun a b hab => ?_
  exact .returns (alike_addInputs hnodes h hab).dedupHard

/-- The first MSSU by a key that tells the ids apart. -/
theorem firstMinBy_perm {κ : Type} [LinearOrder κ] {key : MSSU → κ}
    (hkey : ∀ a b, key a = key b → a.mssuId = b.mssuId) {l l' : List MSSU} (hperm : l.Perm l')
    (hl : ∀ mssu ∈ l, mssu ∈ (nodesOf mssus).values) : firstMinBy key l = firstMinBy key l' := by
  refine firstMinBy_eq_of_perm hperm fun a ha b hb hab => ?_
  have hget := get?_of_mem_values (hl b hb)
  rw [← hkey a b hab, get?_of_mem_values (hl a ha)] at hget
  exact Option.some.inj hget

/-- The MSSUs that may stand for an action: those it is the primary one of, when there are any. -/
def standIns (nodes : Nodes) (actionId : String) : List MSSU :=
  let refersTo := nodes.values.filter fun mssu => (effectiveActionRefs mssu).contains actionId
  let primary := refersTo.filter fun mssu => mssuPrimaryAction mssu = actionId
  if primary.isEmpty then refersTo else primary

/-- The one of them that is chosen. -/
def chooseStandIn (index : ActionIndex) (actionId : String) (candidates : List MSSU) :
    Option MSSU :=
  let byType (mssu : MSSU) : ℕ ×ₗ String := toLex (mssuTypePriority mssu, mssu.mssuId)
  let aggregates := candidates.filter (·.isAggregateSink)
  let updates := candidates.filter fun mssu => mssuTypeOf mssu = "UPDATE"
  if actionIsAggregateSink (index.get? actionId) && !aggregates.isEmpty then
    firstMinBy byType aggregates
  else if actionIsWriteback (index.get? actionId) && !updates.isEmpty then firstMinBy byType updates
  else firstMinBy
    (fun mssu => toLex (if mssuPrimaryAction mssu = actionId then 0 else 1, byType mssu)) candidates

theorem representativeMssusForAction_eq (nodes : Nodes) (index : ActionIndex) (actionId : String) :
    representativeMssusForAction nodes index actionId =
      ((chooseStandIn index (strip actionId) (standIns nodes (strip actionId))).map
        MSSU.mssuId).toList := rfl

theorem standIns_perm (h : mssus.Perm mssus') (hids : (mssus.map MSSU.mssuId).Nodup)
    (actionId : String) :
    (standIns (nodesOf mssus) actionId).Perm (standIns (nodesOf mssus') actionId) := by
  have hrefers := (OrderedDict.values_perm (sameNodes_of_perm h hids)).filter
    fun mssu => (effectiveActionRefs mssu).contains actionId
  have hprimary := hrefers.filter fun mssu => mssuPrimaryAction mssu = actionId
  simp only [standIns, ← hprimary.isEmpty_eq]
  split_ifs
  · exact hrefers
  · exact hprimary

theorem mem_values_of_standIns {actionId : String} {mssu : MSSU}
    (h : mssu ∈ standIns (nodesOf mssus) actionId) : mssu ∈ (nodesOf mssus).values := by
  simp only [standIns] at h
  split_ifs at h
  · exact List.mem_of_mem_filter h
  · exact List.mem_of_mem_filter (List.mem_of_mem_filter h)

/-- The choice is the first by a key that ends with the id. -/
theorem chooseStandIn_perm {candidates candidates' : List MSSU} (h : candidates.Perm candidates')
    (hmem : ∀ mssu ∈ candidates, mssu ∈ (nodesOf mssus).values) (index : ActionIndex)
    (actionId : String) :
    chooseStandIn index actionId candidates = chooseStandIn index actionId candidates' := by
  have haggregates := h.filter (·.isAggregateSink)
  have hupdates := h.filter fun mssu => mssuTypeOf mssu = "UPDATE"
  have hbyType : ∀ a b : MSSU, (toLex (mssuTypePriority a, a.mssuId) : ℕ ×ₗ String) =
      toLex (mssuTypePriority b, b.mssuId) → a.mssuId = b.mssuId :=
    fun a b hab => (Prod.mk.inj (toLex.injective hab)).2
  simp only [chooseStandIn, ← haggregates.isEmpty_eq, ← hupdates.isEmpty_eq]
  split_ifs
  · exact firstMinBy_perm hbyType haggregates fun mssu hm => hmem mssu (List.mem_of_mem_filter hm)
  · exact firstMinBy_perm hbyType hupdates fun mssu hm => hmem mssu (List.mem_of_mem_filter hm)
  · exact firstMinBy_perm (fun a b hab => hbyType a b (Prod.mk.inj (toLex.injective hab)).2) h hmem

theorem representativeMssusForAction_perm (h : mssus.Perm mssus')
    (hids : (mssus.map MSSU.mssuId).Nodup) :
    representativeMssusForAction (nodesOf mssus) = representativeMssusForAction (nodesOf mssus') := by
  funext index actionId
  rw [representativeMssusForAction_eq, representativeMssusForAction_eq,
    chooseStandIn_perm (standIns_perm h hids _) fun _ hm => mem_values_of_standIns hm]

theorem injectVdevDependencies_perm (h : mssus.Perm mssus') (hids : (mssus.map MSSU.mssuId).Nodup)
    (target : Option OptimizationTarget) (edges : Edges) :
    injectVdevDependencies (nodesOf mssus) target edges =
      injectVdevDependencies (nodesOf mssus') target edges := by
  have hreps : byAction (nodesOf mssus) = byAction (nodesOf mssus') := by
    funext index actionId
    rw [byAction, byAction, representativeMssusForAction_perm h hids]
  have hpair : addRepresentatives (nodesOf mssus) = addRepresentatives (nodesOf mssus') := by
    funext dep edges pair
    simp only [addRepresentatives, (sameNodes_of_perm h hids).bothKnown]
  have hhard : injectHardDependency (nodesOf mssus) = injectHardDependency (nodesOf mssus') := by
    funext index edges dep
    simp only [injectHardDependency, injectKnownDependency, hreps, hpair]
  have hsoft : injectSoftDependency (nodesOf mssus) = injectSoftDependency (nodesOf mssus') := by
    funext index edges dep
    simp only [injectSoftDependency, hreps]
  cases target with
  | none => rfl
  | some target => simp only [injectVdevDependencies, hhard, hsoft]

/-- What two runs have before the cycles are broken: the constraints of the target, then soft
orders of two MSSUs in some order; and the same hard edges in some order. -/
structure Injected (a b : Edges) (own pairs pairs' : List SoftConstraint) : Prop where
  hard : a.hard.Perm b.hard
  apart : ToldApart a.hard
  kinds : ∀ edge ∈ a.hard, KnownKind edge
  removed : a.diagnostics.removedHardEdges = b.diagnostics.removedHardEdges
  left : a.soft = own ++ pairs
  right : b.soft = own ++ pairs'
  perm : pairs.Perm pairs'
  own : ∀ constraint ∈ own, OwnOrder constraint
  pairs : ∀ constraint ∈ pairs, PairOrder constraint

theorem injectTarget_alike (h : mssus.Perm mssus') (hids : (mssus.map MSSU.mssuId).Nodup)
    {a b : Edges} (hab : Alike a b) (target : Option OptimizationTarget) :
    ∃ own, Injected (injectTarget mssus target a) (injectTarget mssus' target b) own a.soft
      b.soft := by
  have hleft := adds_injectVdevDependencies (nodesOf mssus) target { a with soft := [] }
  have hright := adds_injectVdevDependencies (nodesOf mssus') target { b with soft := [] }
  rw [← injectVdevDependencies_perm h hids target {}] at hright
  refine ⟨(injectVdevDependencies (nodesOf mssus) target {}).soft, dedupHardEdges_perm ?_,
    toldApart_dedupHardEdges _, fun edge he => ?_, ?_, ?_, ?_, hab.soft, hleft.each, hab.pairs⟩
  · rw [hleft.hard, hright.hard]
    exact hab.hard.append (.refl _)
  · have hmem := mem_of_mem_dedupHardEdges he
    rw [hleft.hard] at hmem
    exact (List.mem_append.1 hmem).elim (hab.kinds edge) (hleft.kinds edge)
  · exact (hleft.removed.trans hab.removed).trans hright.removed.symm
  · exact congrArg (· ++ a.soft) hleft.soft
  · exact congrArg (· ++ b.soft) hright.soft

end Whole

end FloWeaver.Dag
