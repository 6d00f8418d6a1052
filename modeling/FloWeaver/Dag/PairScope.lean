import FloWeaver.Dag.Partners
import FloWeaver.Scheduler.ScopedPairs

/-!
# The scope of pair-keyed edges

A template with a pair key ought to pair MSSUs of one scope.  The ranking of the candidates puts
families, actions, lanes and phases first, and the test on the edge looks at lanes and resources:
the pairs stay within one scope exactly when the first candidate of every source does.

* `ComesFirst` — a candidate is the first one in the ranking of a source.
* `InScope` — a binding joins MSSUs, and action pairs, of one scope.
* `hardBindings_inScope_iff` — when all pair-keyed bindings are in scope.
-/

namespace FloWeaver.Dag

open Py
open Scheduler (ActionIndex mssuActionRefs edgeActionPairs actionGroupValue actionOf GroupsMatch)

/-! ## The first candidate -/

section Ranking

variable (lib : Library) (table : ActionTable) (tpl : Template)

/-- Has an MSSU a value under the pair key? -/
def hasScope (mssu : MSSU) : Bool :=
  (hasRealScopeTokens lib table.index mssu tpl.pairKey).toOption.getD false

/-- The set of the values of an MSSU under the pair key. -/
def scopeTokens (mssu : MSSU) : List String :=
  (mssuScopeTokens lib table.index mssu tpl.pairKey).toOption.getD []

/-- The candidates that have a value. -/
def scopedCandidates : List MSSU := tpl.dstCandidates.filter (hasScope lib table tpl)

/-- The candidates that fit a source, in order. -/
def fittingCandidates (src : MSSU) : List MSSU :=
  (scopedCandidates lib table tpl).filter fun dst =>
    src.mssuId ≠ dst.mssuId && templatePairCompatible src dst tpl.srcHint tpl.dstHint
      (allowsMissingResourceCleanupPair src (scopedCandidates lib table tpl) tpl.srcHint tpl.dstHint)

/-- The rank of a candidate of a source. -/
def rankOf (src dst : MSSU) : List ℤ ×ₗ String :=
  pairRank table src dst tpl.srcHint tpl.dstHint tpl.pairKey (scopeTokens lib table tpl src)
    (scopeTokens lib table tpl dst)

/-- The first of the fitting candidates of a source with the least rank. -/
def ComesFirst (src dst : MSSU) : Prop :=
  ∃ pre post, fittingCandidates lib table tpl src = pre ++ dst :: post ∧
    (∀ other ∈ pre, rankOf lib table tpl src dst < rankOf lib table tpl src other) ∧
    ∀ other ∈ post, rankOf lib table tpl src dst ≤ rankOf lib table tpl src other

end Ranking

section Partner

variable {lib : Library} {table : ActionTable} {tpl : Template} {src dst : MSSU}

theorem ComesFirst.mem (h : ComesFirst lib table tpl src dst) :
    dst ∈ fittingCandidates lib table tpl src := by
  obtain ⟨pre, post, he, -⟩ := h
  rw [he]
  exact List.mem_append_right _ List.mem_cons_self

/-- The candidate that is picked is the first one. -/
theorem pickNearestDst_iff {best : Option MSSU}
    (h : pickNearestDst lib table src (scopedCandidates lib table tpl) tpl.srcHint tpl.dstHint
      tpl.pairKey = .ok best) :
    best = some dst ↔ ComesFirst lib table tpl src dst := by
  obtain ⟨srcScope, hscope, h⟩ := bind_eq_ok.1 h
  obtain ⟨ranked, hranked, h⟩ := bind_eq_ok.1 h
  obtain rfl := pure_eq_ok.1 h
  have hsrc : srcScope = scopeTokens lib table tpl src := by rw [scopeTokens, hscope]; rfl
  have hmap : ranked = (fittingCandidates lib table tpl src).map fun dst =>
      (rankOf lib table tpl src dst, dst) := by
    have hpairs := forall₂_of_mapM_ok hranked
    refine (congrFun₂ List.forall₂_eq_eq_eq _ _).mp (List.forall₂_map_right_iff.2 ?_)
    refine (List.Forall₂.flip hpairs).imp fun row dst hrow => ?_
    obtain ⟨dstScope, hdst, hrow⟩ := bind_eq_ok.1 hrow
    rw [← pure_eq_ok.1 hrow, rankOf, ← hsrc, scopeTokens, hdst]
    rfl
  rw [Option.map_eq_some_iff, hmap]
  constructor
  · rintro ⟨row, hhead, rfl⟩
    obtain ⟨pre, post, hsplit, hpre, hpost⟩ := (head?_sortedBy_iff _).1 hhead
    obtain ⟨pre', rest, hfit, rfl, hrest⟩ := List.map_eq_append_iff.1 hsplit
    obtain ⟨dst, post', rfl, rfl, rfl⟩ := List.map_eq_cons_iff.1 hrest
    exact ⟨pre', post', hfit, fun other ho => hpre _ (List.mem_map_of_mem ho),
      fun other ho => hpost _ (List.mem_map_of_mem ho)⟩
  · rintro ⟨pre, post, hfit, hpre, hpost⟩
    refine ⟨(rankOf lib table tpl src dst, dst), (head?_sortedBy_iff _).2
      ⟨_, _, by rw [hfit, List.map_append, List.map_cons], ?_, ?_⟩, rfl⟩
    · intro row hrow
      obtain ⟨other, ho, rfl⟩ := List.mem_map.1 hrow
      exact hpre other ho
    · intro row hrow
      obtain ⟨other, ho, rfl⟩ := List.mem_map.1 hrow
      exact hpost other ho

/-- A source is bound hard to the first candidate, when it has a value and the edge may be hard. -/
theorem hardPartner_iff {partner : Option MSSU}
    (h : tpl.hardPartner lib table src = .ok partner) :
    partner = some dst ↔ hasScope lib table tpl src = true ∧ ComesFirst lib table tpl src dst ∧
      allowTemplateHardEdge src dst = true := by
  obtain ⟨real, hreal, h⟩ := bind_eq_ok.1 h
  have hscope : hasScope lib table tpl src = real := by rw [hasScope, hreal]; rfl
  rw [hscope]
  cases real with
  | false =>
    obtain rfl := pure_eq_ok.1 h
    simp
  | true =>
    obtain ⟨candidates, hcandidates, h⟩ := bind_eq_ok.1 h
    obtain rfl : candidates = scopedCandidates lib table tpl :=
      filterM_eq_filter (fun a _ b hb => by rw [hasScope, hb]; rfl) hcandidates
    split_ifs at h with hempty
    · obtain rfl := pure_eq_ok.1 h
      have hnone : ∀ dst, ¬ ComesFirst lib table tpl src dst := by
        intro dst hfirst
        have hmem := (List.mem_filter.1 hfirst.mem).1
        rw [List.isEmpty_iff.1 hempty] at hmem
        exact List.not_mem_nil hmem
      simp [hnone]
    · obtain ⟨best, hbest, h⟩ := bind_eq_ok.1 h
      obtain rfl := pure_eq_ok.1 h
      rw [Option.filter_eq_some_iff, pickNearestDst_iff hbest, Bool.and_eq_true, decide_eq_true_eq]
      constructor
      · exact fun h => ⟨rfl, h.1, h.2.2⟩
      · rintro ⟨-, hfirst, hallow⟩
        have hfit := (List.mem_filter.1 hfirst.mem).2
        rw [Bool.and_eq_true, decide_eq_true_eq] at hfit
        exact ⟨hfirst, hfit.1, hallow⟩

end Partner

/-! ## The bindings of a template -/

section Bindings

variable (lib : Library) (table : ActionTable) (tpl : Template)

/-- A source has a first candidate to which it may be bound hard. -/
def BindsHard (src dst : MSSU) : Prop :=
  hasScope lib table tpl src = true ∧ ComesFirst lib table tpl src dst ∧
    allowTemplateHardEdge src dst = true

/-- How many of some sources are bound hard. -/
def boundCount (srcs : List MSSU) : ℕ :=
  srcs.countP fun src => ((tpl.hardPartner lib table src).toOption.bind id).isSome

/-- A source that comes before the cap of the template. -/
def BeforeCap (src : MSSU) : Prop :=
  ∃ pre post, tpl.srcCandidates = pre ++ src :: post ∧ boundCount lib table tpl pre < Template.maxEdges

end Bindings

section Members

variable {lib : Library} {table : ActionTable} {tpl : Template}

theorem boundCount_cons {src : MSSU} {partner : Option MSSU}
    (h : tpl.hardPartner lib table src = .ok partner) (srcs : List MSSU) :
    boundCount lib table tpl (src :: srcs) =
      boundCount lib table tpl srcs + if partner.isSome then 1 else 0 := by
  rw [boundCount, List.countP_cons, h, boundCount]
  rfl

/-- A split of a list is at its first element or in the rest. -/
theorem exists_split_cons_iff {α : Type} {P : List α → Prop} {x a : α} {l : List α} :
    (∃ pre post, x :: l = pre ++ a :: post ∧ P pre) ↔
      (a = x ∧ P []) ∨ ∃ pre post, l = pre ++ a :: post ∧ P (x :: pre) := by
  constructor
  · rintro ⟨pre, post, he, hP⟩
    cases pre with
    | nil => exact .inl ⟨(List.cons.inj he).1.symm, hP⟩
    | cons p pre =>
      obtain ⟨rfl, rfl⟩ := List.cons.inj he
      exact .inr ⟨pre, post, rfl, hP⟩
  · rintro (⟨rfl, hP⟩ | ⟨pre, post, rfl, hP⟩)
    · exact ⟨[], l, rfl, hP⟩
    · exact ⟨x :: pre, post, rfl, hP⟩

/-- The bindings of some sources are those of the sources before the cap. -/
theorem mem_bindings_iff {srcs : List MSSU} {injected : ℕ} {bindings : List Binding}
    (hcap : injected < Template.maxEdges)
    (h : tpl.bindings lib table srcs injected = .ok bindings) (b : Binding) :
    b ∈ bindings ↔ b.template = tpl ∧ BindsHard lib table tpl b.src b.dst ∧
      ∃ pre post, srcs = pre ++ b.src :: post ∧
        injected + boundCount lib table tpl pre < Template.maxEdges := by
  induction srcs generalizing injected bindings with
  | nil =>
    obtain rfl := Except.ok.inj h
    simp
  | cons src rest ih =>
    obtain ⟨partner, hpartner, h⟩ := bind_eq_ok.1 h
    have hbinds : ∀ dst, partner = some dst ↔ BindsHard lib table tpl src dst :=
      fun dst => hardPartner_iff hpartner
    rw [exists_split_cons_iff]
    cases partner with
    | none =>
      rw [ih hcap h]
      simp only [boundCount_cons hpartner, Option.isSome_none, Bool.false_eq_true, if_false,
        Nat.add_zero]
      constructor
      · exact fun ⟨htpl, hb, hlater⟩ => ⟨htpl, hb, .inr hlater⟩
      · rintro ⟨htpl, hb, ⟨hsrc, -⟩ | hlater⟩
        · cases (hbinds b.dst).2 (hsrc ▸ hb)
        · exact ⟨htpl, hb, hlater⟩
    | some dst =>
      have hhead : b = ⟨tpl, src, dst⟩ ↔ b.template = tpl ∧ BindsHard lib table tpl b.src b.dst ∧
          b.src = src := by
        constructor
        · rintro rfl
          exact ⟨rfl, (hbinds dst).1 rfl, rfl⟩
        · rintro ⟨htpl, hb, hsrc⟩
          obtain ⟨template, s, d⟩ := b
          obtain rfl : template = tpl := htpl
          obtain rfl : s = src := hsrc
          rw [Option.some.inj ((hbinds d).2 hb)]
      have hzero : injected + boundCount lib table tpl [] < Template.maxEdges := hcap
      simp only [boundCount_cons hpartner, Option.isSome_some, if_true]
      dsimp only at h
      by_cases hlast : Template.maxEdges ≤ injected + 1
      · rw [if_pos hlast] at h
        obtain rfl := pure_eq_ok.1 h
        rw [List.mem_singleton, hhead]
        constructor
        · exact fun ⟨htpl, hb, hsrc⟩ => ⟨htpl, hb, .inl ⟨hsrc, hzero⟩⟩
        · rintro ⟨htpl, hb, ⟨hsrc, -⟩ | ⟨pre, post, -, hlt⟩⟩
          · exact ⟨htpl, hb, hsrc⟩
          · omega
      · rw [if_neg hlast] at h
        obtain ⟨later, hlater, h⟩ := bind_eq_ok.1 h
        obtain rfl := pure_eq_ok.1 h
        rw [List.mem_cons, hhead, ih (not_le.1 hlast) hlater]
        have hcount : ∀ pre, injected + 1 + boundCount lib table tpl pre =
            injected + (boundCount lib table tpl pre + 1) := fun pre => by omega
        simp only [hcount]
        constructor
        · rintro (⟨htpl, hb, hsrc⟩ | ⟨htpl, hb, hrest⟩)
          · exact ⟨htpl, hb, .inl ⟨hsrc, hzero⟩⟩
          · exact ⟨htpl, hb, .inr hrest⟩
        · rintro ⟨htpl, hb, ⟨hsrc, -⟩ | hrest⟩
          · exact .inl ⟨htpl, hb, hsrc⟩
          · exact .inr ⟨htpl, hb, hrest⟩

theorem template_of_allBindings {bindings : List Binding}
    (h : tpl.allBindings lib table = .ok bindings) {b : Binding} (hb : b ∈ bindings) :
    b.template = tpl := by
  rw [Template.allBindings] at h
  split_ifs at h
  · obtain rfl := Except.ok.inj h
    exact absurd hb List.not_mem_nil
  · exact ((mem_bindings_iff (by decide) h b).1 hb).1

theorem mem_allBindings_iff {bindings : List Binding} (hkey : tpl.pairKey ≠ "")
    (h : tpl.allBindings lib table = .ok bindings) (b : Binding) :
    b ∈ bindings ↔ b.template = tpl ∧ BindsHard lib table tpl b.src b.dst ∧
      BeforeCap lib table tpl b.src := by
  rw [Template.allBindings, if_neg (by simp [hkey])] at h
  rw [mem_bindings_iff (by decide) h]
  simp only [Nat.zero_add]
  rfl

end Members

/-! ## Bindings in scope -/

/-- A pair key that names a value of the actions. -/
def Template.PairKeyed (tpl : Template) : Prop := tpl.pairKey ≠ "" ∧ tpl.pairKey ≠ "nearest"

/-- Some actions of two MSSUs have a common value under a pair key. -/
def CommonScope (lib : Library) (index : ActionIndex) (pairKey : String) (src dst : MSSU) : Prop :=
  ∃ value ≠ "", (∃ u ∈ effectiveActionRefs src, ∃ action ∈ index.get? u,
      actionScopeValue lib action pairKey = .ok value) ∧
    ∃ v ∈ effectiveActionRefs dst, ∃ action ∈ index.get? v,
      actionScopeValue lib action pairKey = .ok value

/-- The MSSUs of a binding have a common value, and the action pairs that the scheduler derives from
its edge have the same group value at both ends. -/
structure Binding.InScope (lib : Library) (index : ActionIndex) (b : Binding) : Prop where
  mssus : CommonScope lib index b.template.pairKey b.src b.dst
  actions : ∀ p ∈ edgeActionPairs (mssuActionRefs b.src) (mssuActionRefs b.dst)
      b.edge.justification index,
    actionGroupValue (actionOf index p.1) b.template.pairKey =
      actionGroupValue (actionOf index p.2) b.template.pairKey

/-- The scheduler reads the pair key back from the edge. -/
theorem pairKeyFromJustification_hardEdge {tpl : Template} (hkeyed : tpl.PairKeyed)
    (hstrip : strip tpl.pairKey = tpl.pairKey) (src dst : MSSU) :
    Scheduler.pairKeyFromJustification (tpl.hardEdge src dst).justification = tpl.pairKey := by
  have hcond : (tpl.pairKey ≠ "" && tpl.pairKey ≠ "nearest") = true := by
    simp [hkeyed.1, hkeyed.2]
  have hother : ∀ (pre rest : String), pre.toList.head? ≠ some 'p' → pre.toList ≠ [] →
      startsWith (pre ++ rest) "pair_key:" = false := by
    intro pre rest hhead hne
    cases hpre : pre.toList with
    | nil => exact absurd hpre hne
    | cons c cs =>
      rw [hpre] at hhead
      have hc : c ≠ 'p' := fun he => hhead (by rw [he]; rfl)
      have hbeq : ('p' == c) = false := beq_eq_false_iff_ne.2 (Ne.symm hc)
      simp [startsWith, String.toList_append, hpre, List.isPrefixOf_cons_cons, hbeq]
  have hrank : startsWith
      "pairing_rank:exact_family_same_action_same_lane_phase_then_nearest" "pair_key:" = false := by
    decide
  have hself : startsWith ("pair_key:" ++ tpl.pairKey) "pair_key:" = true := by
    simp [startsWith, String.toList_append]
  have hafter : afterFirst ("pair_key:" ++ tpl.pairKey) ":" = tpl.pairKey := by
    simp [afterFirst, String.toList_append, splitOnceL]
  rw [Scheduler.pairKeyFromJustification, Template.hardEdge]
  simp only [hcond, if_true, List.cons_append, List.nil_append]
  have hrule : startsWith ("rule_template:" ++ tpl.ruleId ++ ":" ++ toString tpl.idx) "pair_key:" =
      false := by
    rw [String.append_assoc, String.append_assoc]
    exact hother _ _ (by decide) (by decide)
  have hsrc := hother "src_hint:" tpl.srcHint (by decide) (by decide)
  have hdst := hother "dst_hint:" tpl.dstHint (by decide) (by decide)
  rw [List.find?_cons_of_neg (by rw [hrule]; decide), List.find?_cons_of_neg (by rw [hsrc]; decide),
    List.find?_cons_of_neg (by rw [hdst]; decide), List.find?_cons_of_neg (by rw [hrank]; decide),
    List.find?_cons_of_pos (by exact hself)]
  simp only [hafter, hstrip]

/-! ## All bindings -/

section All

variable {lib : Library} {profile : HAPProfile} {mssus : List MSSU}

/-- Every template trims its pair key. -/
theorem strip_pairKey_activeTemplates {tpl : Template}
    (h : tpl ∈ activeTemplates profile mssus) : strip tpl.pairKey = tpl.pairKey := by
  obtain ⟨row, -, hrow⟩ := List.mem_filterMap.1 h
  rw [activeTemplate] at hrow
  split_ifs at hrow
  cases hkind : normalizeTemplateKind (row.2.1.getD "kind" (.str EdgeKind.hardControl)).pyStr with
  | none => rw [hkind] at hrow; cases hrow
  | some kind =>
    simp only [hkind] at hrow
    split_ifs at hrow
    obtain rfl := Option.some.inj hrow
    exact strip_strip _

/-- A binding is in scope exactly when its MSSUs have a common value and their groups match. -/
theorem Binding.inScope_iff {index : ActionIndex} {b : Binding} (hkeyed : b.template.PairKeyed)
    (hstrip : strip b.template.pairKey = b.template.pairKey) :
    b.InScope lib index ↔ CommonScope lib index b.template.pairKey b.src b.dst ∧
      GroupsMatch index b.template.pairKey (mssuActionRefs b.src) (mssuActionRefs b.dst) := by
  have hnodup : ∀ mssu : MSSU, (mssuActionRefs mssu).Nodup := fun _ => List.nodup_dedup _
  have hagree := Scheduler.edgeActionPairs_agree_iff index (hnodup b.src) (hnodup b.dst)
    (pairKeyFromJustification_hardEdge hkeyed hstrip b.src b.dst) hkeyed.1 hkeyed.2
  exact ⟨fun h => ⟨h.mssus, hagree.1 h.actions⟩, fun h => ⟨h.1, hagree.2 h.2⟩⟩

/-- **The pair-keyed hard edges stay within one scope if and only if the first candidate of every
source does**: the hard edges that the templates add are those of the bindings, and all pair-keyed
bindings are in scope exactly when, for every source before the cap of its template, the first
candidate in the ranking to which a hard edge is allowed has a common value with the source and
action groups that match. -/
theorem hardBindings_inScope_iff {target : Option OptimizationTarget} {edges result : Edges}
    (h : injectRuleTemplateHardEdges lib profile (actionTable target) mssus edges = .ok result) :
    ∃ bindings, hardBindings lib (actionTable target) profile mssus = .ok bindings ∧
      result.hard = edges.hard ++ bindings.map Binding.edge ∧
      ((∀ b ∈ bindings, b.template.PairKeyed → b.InScope lib (actionTable target).index) ↔
        ∀ tpl ∈ activeTemplates profile mssus, tpl.PairKeyed → ∀ src dst,
          BeforeCap lib (actionTable target) tpl src → BindsHard lib (actionTable target) tpl src dst →
            CommonScope lib (actionTable target).index tpl.pairKey src dst ∧
              GroupsMatch (actionTable target).index tpl.pairKey (mssuActionRefs src)
                (mssuActionRefs dst)) := by
  obtain ⟨bindings, hbindings, hhard⟩ := injectRuleTemplateHardEdges_hard h
  refine ⟨bindings, hbindings, hhard, ?_⟩
  obtain ⟨lists, hlists, hflat⟩ := bind_eq_ok.1 hbindings
  obtain rfl := pure_eq_ok.1 hflat
  constructor
  · intro hall tpl htpl hkeyed src dst hcap hbinds
    obtain ⟨list, hlist, htplList⟩ := mem_mapM_of_ok hlists htpl
    have hmem : (⟨tpl, src, dst⟩ : Binding) ∈ lists.flatten :=
      List.mem_flatten.2 ⟨list, hlist, (mem_allBindings_iff hkeyed.1 htplList _).2
        ⟨rfl, hbinds, hcap⟩⟩
    exact (Binding.inScope_iff (b := ⟨tpl, src, dst⟩) hkeyed
      (strip_pairKey_activeTemplates htpl)).1 (hall _ hmem hkeyed)
  · intro hall b hb hkeyed
    obtain ⟨list, hlist, hb⟩ := List.mem_flatten.1 hb
    obtain ⟨tpl, htpl, htplList⟩ := mem_of_mapM_ok hlists list hlist
    have hkey : tpl.pairKey ≠ "" := by
      intro hempty
      have htemplate : b.template = tpl := template_of_allBindings htplList hb
      exact hkeyed.1 (htemplate ▸ hempty)
    obtain ⟨rfl, hbinds, hcap⟩ := (mem_allBindings_iff hkey htplList b).1 hb
    exact (Binding.inScope_iff hkeyed (strip_pairKey_activeTemplates htpl)).2
      (hall b.template htpl hkeyed b.src b.dst hcap hbinds)

end All

/-! ## A connection and an operation of two devices -/

/-- A library that reads no URL. -/
def bareLibrary : Library where
  netloc _ := .ok ""
  setOrder := id
  setOrder_perm l := List.Perm.refl l

def bleAction (actionId deviceId : String) : Dict :=
  [("action_id", .str actionId), ("target", .dict [("device_id", .str deviceId)])]

/-- Two actions of two devices. -/
def twoDevices : OptimizationTarget where
  vdevActions := [bleAction "connect_a" "A", bleAction "read_b" "B"]

/-- A connection of the first device and an operation of the second one, without tags. -/
def connectAndRead : List MSSU :=
  [{ mssuId := "m1", mssuType := "PREPARE", sideEffectSig := ["ble_connect"]
     actionRefs := ["connect_a"] },
   { mssuId := "m2", mssuType := "ACT", sideEffectSig := ["ble_gatt_op"], actionRefs := ["read_b"] }]

/-- The rule that a device is connected before it is used. -/
def connectFirst : HAPProfile where
  rules := [{
    ruleId := "ble"
    hardEdgeTemplates := [[("src", .str "BLE_CONNECT"), ("dst", .str "BLE_GATT_OP"),
      ("kind", .str "HARD_LIFECYCLE"), ("params", .dict [("pair_key", .str "device_id")])]] }]

theorem exists_ok_of_isSome {α : Type} {x : Except PyErr α} (h : x.toOption.isSome = true) :
    ∃ a, x = .ok a := by
  cases x with
  | error e => cases h
  | ok a => exact ⟨a, rfl⟩

/-- The condition for the connection and the operation. -/
theorem hardBindings_inScope_iff_twoDevices :
    ∃ result bindings,
      injectRuleTemplateHardEdges bareLibrary connectFirst (actionTable (some twoDevices))
        connectAndRead {} = .ok result ∧
      hardBindings bareLibrary (actionTable (some twoDevices)) connectFirst connectAndRead =
        .ok bindings ∧
      ((∀ b ∈ bindings, b.template.PairKeyed →
          b.InScope bareLibrary (actionTable (some twoDevices)).index) ↔
        ∀ tpl ∈ activeTemplates connectFirst connectAndRead, tpl.PairKeyed → ∀ src dst,
          BeforeCap bareLibrary (actionTable (some twoDevices)) tpl src →
            BindsHard bareLibrary (actionTable (some twoDevices)) tpl src dst →
              CommonScope bareLibrary (actionTable (some twoDevices)).index tpl.pairKey src dst ∧
                GroupsMatch (actionTable (some twoDevices)).index tpl.pairKey (mssuActionRefs src)
                  (mssuActionRefs dst)) := by
  obtain ⟨result, hresult⟩ := exists_ok_of_isSome (x := injectRuleTemplateHardEdges bareLibrary
    connectFirst (actionTable (some twoDevices)) connectAndRead {}) (by decide +kernel)
  obtain ⟨bindings, hbindings, -, hiff⟩ := hardBindings_inScope_iff hresult
  exact ⟨result, bindings, hresult, hbindings, hiff⟩

/-- The connection of one device becomes a hard predecessor of the operation on another one: a
missing tag reads like any other text, so both MSSUs seem to be on one lane and one resource. -/
theorem connect_beforeOtherDevice :
    ∃ result bindings,
      injectRuleTemplateHardEdges bareLibrary connectFirst (actionTable (some twoDevices))
        connectAndRead {} = .ok result ∧
      hardBindings bareLibrary (actionTable (some twoDevices)) connectFirst connectAndRead =
        .ok bindings ∧
      result.hard = bindings.map Binding.edge ∧
      ∃ b ∈ bindings, b.src.mssuId = "m1" ∧ b.dst.mssuId = "m2" ∧ b.template.PairKeyed ∧
        ¬ b.InScope bareLibrary (actionTable (some twoDevices)).index := by
  obtain ⟨result, hresult⟩ := exists_ok_of_isSome (x := injectRuleTemplateHardEdges bareLibrary
    connectFirst (actionTable (some twoDevices)) connectAndRead {}) (by decide +kernel)
  obtain ⟨bindings, hbindings, hhard⟩ := injectRuleTemplateHardEdges_hard hresult
  have hread : (hardBindings bareLibrary (actionTable (some twoDevices)) connectFirst
      connectAndRead).map (fun bs => bs.map fun b => (b.src.mssuId, effectiveActionRefs b.src,
        b.dst.mssuId, effectiveActionRefs b.dst, b.template.pairKey)) =
      .ok [("m1", ["connect_a"], "m2", ["read_b"], "device_id")] := by decide +kernel
  rw [hbindings] at hread
  have hrows := Except.ok.inj hread
  obtain ⟨b, hb, hrow⟩ := List.mem_map.1 (hrows ▸ List.mem_singleton_self _)
  simp only [Prod.mk.injEq] at hrow
  obtain ⟨hsrc, hsrcRefs, hdst, hdstRefs, hkey⟩ := hrow
  refine ⟨result, bindings, hresult, hbindings, hhard, b, hb, hsrc, hdst, ?_, fun hscope => ?_⟩
  · rw [Template.PairKeyed, hkey]
    decide
  · obtain ⟨value, -, ⟨u, hu, action, haction, hvalue⟩, v, hv, other, hother, hvalue'⟩ := hscope.mssus
    rw [hsrcRefs] at hu
    rw [hdstRefs] at hv
    obtain rfl := List.mem_singleton.1 hu
    obtain rfl := List.mem_singleton.1 hv
    have ha : (actionTable (some twoDevices)).index.get? "connect_a" =
        some (bleAction "connect_a" "A") := by rfl
    have hb : (actionTable (some twoDevices)).index.get? "read_b" =
        some (bleAction "read_b" "B") := by rfl
    obtain rfl := Option.some.inj (ha.symm.trans haction)
    obtain rfl := Option.some.inj (hb.symm.trans hother)
    rw [hkey] at hvalue hvalue'
    have hA : actionScopeValue bareLibrary (bleAction "connect_a" "A") "device_id" = .ok "A" := by
      decide +kernel
    have hB : actionScopeValue bareLibrary (bleAction "read_b" "B") "device_id" = .ok "B" := by
      decide +kernel
    have hAB := (Except.ok.inj (hA.symm.trans hvalue)).trans
      (Except.ok.inj (hB.symm.trans hvalue')).symm
    exact absurd hAB (by decide)

end FloWeaver.Dag
