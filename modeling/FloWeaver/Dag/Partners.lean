import FloWeaver.Dag.Accounting

/-!
# The hard edges of a template

A template binds its sources one after the other.  The partner of a source is the first candidate
in the ranking; the edge is hard when the two MSSUs may be ordered across their actions.

* `Template.hardPartner` — the partner to which a source is bound hard.
* `hardBindings` — all hard bindings of the templates, in the order in which they are made.
* `injectRuleTemplateHardEdges_hard` — the hard edges that are added are those of the bindings.
-/

namespace FloWeaver.Dag

open Py

/-- A source and its partner under a template. -/
structure Binding where
  template : Template
  src : MSSU
  dst : MSSU

def Binding.edge (b : Binding) : DependencyEdge := b.template.hardEdge b.src b.dst

section Bindings

variable (lib : Library) (table : ActionTable)

/-- The partner to which a source is bound hard. -/
def Template.hardPartner (tpl : Template) (src : MSSU) : Except PyErr (Option MSSU) := do
  if !(← hasRealScopeTokens lib table.index src tpl.pairKey) then return none
  let candidates ← tpl.dstCandidates.filterM fun dst =>
    hasRealScopeTokens lib table.index dst tpl.pairKey
  if candidates.isEmpty then return none
  let best ← pickNearestDst lib table src candidates tpl.srcHint tpl.dstHint tpl.pairKey
  return best.filter fun dst => src.mssuId ≠ dst.mssuId && allowTemplateHardEdge src dst

/-- The hard bindings of some sources, up to the cap. -/
def Template.bindings (tpl : Template) : List MSSU → ℕ → Except PyErr (List Binding)
  | [], _ => .ok []
  | src :: rest, injected => do
      match ← tpl.hardPartner lib table src with
      | none => tpl.bindings rest injected
      | some dst =>
          if maxEdges ≤ injected + 1 then return [⟨tpl, src, dst⟩]
          else return ⟨tpl, src, dst⟩ :: (← tpl.bindings rest (injected + 1))

/-- The hard bindings of one template; a wide one has none. -/
def Template.allBindings (tpl : Template) : Except PyErr (List Binding) :=
  if tpl.pairKey = "" && (8 < tpl.srcCandidates.length || 8 < tpl.dstCandidates.length) then .ok []
  else tpl.bindings lib table tpl.srcCandidates 0

/-- The template of a rule, when it has both hints, a known kind and candidates on both sides. -/
def activeTemplate (mssus : List MSSU) (row : ProfileRule × Dict × ℕ) : Option Template :=
  let template := templateOf mssus row.1 row.2.1 row.2.2
  if (template "").srcHint = "" || (template "").dstHint = "" then none
  else
    match normalizeTemplateKind (row.2.1.getD "kind" (.str EdgeKind.hardControl)).pyStr with
    | none => none
    | some kind =>
        if (template kind).srcCandidates.isEmpty || (template kind).dstCandidates.isEmpty then none
        else some (template kind)

/-- The templates of the rules that are not disabled, in order. -/
def activeTemplates (profile : HAPProfile) (mssus : List MSSU) : List Template :=
  (profile.enabledRules.flatMap fun rule =>
    rule.hardEdgeTemplates.zipIdx.map fun row => (rule, row.1, row.2)).filterMap
      (activeTemplate mssus)

/-- All hard bindings. -/
def hardBindings (profile : HAPProfile) (mssus : List MSSU) : Except PyErr (List Binding) := do
  return (← (activeTemplates profile mssus).mapM (Template.allBindings lib table)).flatten

end Bindings

/-! ## The edges of the bindings -/

section Edges

variable {lib : Library} {table : ActionTable} {tpl : Template}

theorem Template.bindSoft_hard (tpl : Template) (src : MSSU) (best : Option MSSU) (reason : String)
    (edges : Edges) : (tpl.bindSoft src best reason edges).hard = edges.hard := by
  cases best with
  | none => rfl
  | some dst =>
    rw [Template.bindSoft]
    split_ifs <;> rfl

theorem Edges.warn_hard (edges : Edges) (message key : String) :
    (edges.warn message key).hard = edges.hard := rfl

theorem Template.bindUnscoped_hard {src : MSSU} {message kind reason : String} {edges : Edges}
    {result : Edges × Bool}
    (h : bindUnscoped lib table tpl src message kind reason edges = .ok result) :
    result.1.hard = edges.hard ∧ result.2 = false := by
  obtain ⟨best, -, h⟩ := bind_eq_ok.1 h
  rw [← pure_eq_ok.1 h]
  exact ⟨tpl.bindSoft_hard _ _ _ _, rfl⟩

/-- A source adds the edge to its partner, and nothing else that is hard. -/
theorem Template.bindSource_hard {src : MSSU} {edges : Edges} {result : Edges × Bool}
    (h : bindSource lib table tpl src edges = .ok result) :
    ∃ partner, tpl.hardPartner lib table src = .ok partner ∧ result.2 = partner.isSome ∧
      result.1.hard = edges.hard ++ partner.toList.map (tpl.hardEdge src) := by
  obtain ⟨real, hreal, h⟩ := bind_eq_ok.1 h
  rw [hardPartner, hreal]
  cases real with
  | false =>
    obtain ⟨hhard, hflag⟩ := bindUnscoped_hard h
    exact ⟨none, rfl, hflag, by rw [hhard]; exact (List.append_nil _).symm⟩
  | true =>
    obtain ⟨candidates, hcandidates, h⟩ := bind_eq_ok.1 h
    split_ifs at h with hempty
    · obtain ⟨hhard, hflag⟩ := bindUnscoped_hard h
      refine ⟨none, bind_eq_ok.2 ⟨true, rfl, bind_eq_ok.2 ⟨candidates, hcandidates, ?_⟩⟩, hflag, ?_⟩
      · rw [if_pos hempty]
        rfl
      · rw [hhard]
        exact (List.append_nil _).symm
    · obtain ⟨best, hbest, h⟩ := bind_eq_ok.1 h
      refine ⟨best.filter fun dst => src.mssuId ≠ dst.mssuId && allowTemplateHardEdge src dst,
        bind_eq_ok.2 ⟨true, rfl, bind_eq_ok.2 ⟨candidates, hcandidates, ?_⟩⟩, ?_⟩
      · rw [if_neg hempty]
        exact bind_eq_ok.2 ⟨best, hbest, rfl⟩
      cases best with
      | none =>
        obtain ⟨other, -, h⟩ := bind_eq_ok.1 h
        rw [← pure_eq_ok.1 h]
        exact ⟨rfl, (tpl.bindSoft_hard _ _ _ _).trans (List.append_nil _).symm⟩
      | some dst =>
        rw [← pure_eq_ok.1 h]
        split_ifs with hsame hallow
        · simp [Option.filter, hsame]
        · simp [Option.filter, hsame, hallow, Edges.addHard]
        · simp [Option.filter, hsame, hallow, tpl.bindSoft_hard]

theorem Template.bindSources_hard {srcs : List MSSU} {injected : ℕ} {edges result : Edges}
    (h : bindSources lib table tpl srcs injected edges = .ok result) :
    ∃ bindings, tpl.bindings lib table srcs injected = .ok bindings ∧
      result.hard = edges.hard ++ bindings.map Binding.edge := by
  induction srcs generalizing injected edges with
  | nil =>
    obtain rfl := Except.ok.inj h
    exact ⟨[], rfl, (List.append_nil _).symm⟩
  | cons src rest ih =>
    obtain ⟨⟨next, bound⟩, hnext, h⟩ := bind_eq_ok.1 h
    obtain ⟨partner, hpartner, rfl, hhard⟩ := bindSource_hard hnext
    rw [Template.bindings, hpartner]
    cases partner with
    | none =>
      obtain ⟨bindings, hbindings, hresult⟩ := ih h
      exact ⟨bindings, hbindings, by rw [hresult, hhard]; simp⟩
    | some dst =>
      simp only [Option.isSome_some, Bool.true_and, decide_eq_true_eq, if_true] at h
      by_cases hcap : maxEdges ≤ injected + 1
      · rw [if_pos hcap] at h
        refine ⟨[⟨tpl, src, dst⟩], ?_, ?_⟩
        · show (if maxEdges ≤ injected + 1 then _ else _) = _
          rw [if_pos hcap]
          rfl
        · rw [← pure_eq_ok.1 h, Edges.warn_hard, hhard]
          rfl
      · rw [if_neg hcap] at h
        obtain ⟨bindings, hbindings, hresult⟩ := ih h
        refine ⟨⟨tpl, src, dst⟩ :: bindings, ?_, ?_⟩
        · show (if maxEdges ≤ injected + 1 then _ else _) = _
          rw [if_neg hcap]
          exact bind_eq_ok.2 ⟨bindings, hbindings, rfl⟩
        · rw [hresult, hhard, List.append_assoc]
          rfl

theorem Template.bindWide_hard {edges result : Edges}
    (h : bindWide lib table tpl edges = .ok result) : result.hard = edges.hard := by
  rw [bindWide] at h
  refine foldlM_ok_induction (P := fun e : Edges => e.hard = edges.hard) ?_
    (fun b src b' _ hb hstep => ?_) h
  · rfl
  obtain ⟨best, -, hstep⟩ := bind_eq_ok.1 hstep
  rw [← pure_eq_ok.1 hstep, tpl.bindSoft_hard]
  exact hb

theorem Template.bind_hard {edges result : Edges} (h : tpl.bind lib table edges = .ok result) :
    ∃ bindings, tpl.allBindings lib table = .ok bindings ∧
      result.hard = edges.hard ++ bindings.map Binding.edge := by
  rw [Template.bind] at h
  rw [Template.allBindings]
  split_ifs at h ⊢
  · exact ⟨[], rfl, by rw [bindWide_hard h]; exact (List.append_nil _).symm⟩
  · exact bindSources_hard h

variable {mssus : List MSSU} {profile : HAPProfile}

theorem injectTemplate_hard {edges result : Edges} {row : ProfileRule × Dict × ℕ}
    (h : injectTemplate lib table mssus edges row = .ok result) :
    ∃ bindings, (activeTemplate mssus row).toList.mapM (Template.allBindings lib table) =
        .ok bindings ∧
      result.hard = edges.hard ++ bindings.flatten.map Binding.edge := by
  rw [activeTemplate]
  simp only [injectTemplate] at h
  split_ifs at h ⊢ with hhints
  · obtain rfl := Except.ok.inj h
    exact ⟨[], rfl, (List.append_nil _).symm⟩
  · cases hkind : normalizeTemplateKind (row.2.1.getD "kind" (.str EdgeKind.hardControl)).pyStr with
    | none =>
      rw [hkind] at h
      obtain rfl := Except.ok.inj h
      exact ⟨[], rfl, (List.append_nil _).symm⟩
    | some kind =>
      simp only [hkind] at h ⊢
      split_ifs at h ⊢ with hempty
      · obtain rfl := Except.ok.inj h
        exact ⟨[], rfl, (List.append_nil _).symm⟩
      · obtain ⟨bindings, hbindings, hresult⟩ := Template.bind_hard h
        refine ⟨[bindings], ?_, by rw [hresult]; simp⟩
        rw [Option.toList_some, List.mapM_cons, hbindings]
        rfl

/-- The hard edges that the templates add are the edges of their bindings. -/
theorem injectRuleTemplateHardEdges_hard {edges result : Edges}
    (h : injectRuleTemplateHardEdges lib profile table mssus edges = .ok result) :
    ∃ bindings, hardBindings lib table profile mssus = .ok bindings ∧
      result.hard = edges.hard ++ bindings.map Binding.edge := by
  have hrun : ∀ (rows : List (ProfileRule × Dict × ℕ)) (edges : Edges),
      rows.foldlM (injectTemplate lib table mssus) edges = .ok result →
        ∃ lists, (rows.filterMap (activeTemplate mssus)).mapM (Template.allBindings lib table) =
            .ok lists ∧
          result.hard = edges.hard ++ lists.flatten.map Binding.edge := by
    intro rows
    induction rows with
    | nil =>
      intro edges h
      obtain rfl := pure_eq_ok.1 h
      exact ⟨[], rfl, (List.append_nil _).symm⟩
    | cons row rest ih =>
      intro edges h
      rw [List.foldlM_cons, bind_eq_ok] at h
      obtain ⟨next, hnext, h⟩ := h
      obtain ⟨first, hfirst, hnextHard⟩ := injectTemplate_hard hnext
      obtain ⟨lists, hlists, hresult⟩ := ih next h
      refine ⟨first ++ lists, ?_, ?_⟩
      · have hsplit : (row :: rest).filterMap (activeTemplate mssus) =
            (activeTemplate mssus row).toList ++ rest.filterMap (activeTemplate mssus) := by
          cases hrow : activeTemplate mssus row <;> simp [hrow]
        rw [hsplit, List.mapM_append, hfirst]
        exact bind_eq_ok.2 ⟨first, rfl, bind_eq_ok.2 ⟨lists, hlists, rfl⟩⟩
      · rw [hresult, hnextHard, List.flatten_append, List.map_append, List.append_assoc]
  obtain ⟨lists, hlists, hresult⟩ := hrun _ edges h
  exact ⟨lists.flatten, bind_eq_ok.2 ⟨lists, hlists, rfl⟩, hresult⟩

end Edges

end FloWeaver.Dag
