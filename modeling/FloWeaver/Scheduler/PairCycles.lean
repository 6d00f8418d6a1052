import FloWeaver.Scheduler.ScopedPairs

/-!
# Cycles among the pairs of one edge

The pairs of two groups of one scope value go from the places of the one to the same places of the
other, and what is left over on one side goes with the last of the other.  In sorted groups such
pairs keep the order, so they never return.  Where every action of the one end is paired with every
other one of the other end, two actions of both ends come before each other.

* `mem_scopedPairs_iff` — the pairs of two groups, by places.
* `acyclic_groupPairs` — they form no cycle.
* `edgeActionPairs_exact` — what the pairs of an edge cover, and when they form a cycle.
-/

namespace FloWeaver.Scheduler

open Py DepGraph Relation

/-! ## Places -/

section Places

variable {left right : List String} {u v : String}

/-- The element at a place, or the last one. -/
def atPlace (l : List String) (i : ℕ) : String := l.getD (min i (l.length - 1)) ""

theorem atPlace_of_lt {l : List String} {i : ℕ} (h : i < l.length) : atPlace l i = l[i] := by
  rw [atPlace, min_eq_left (by omega), List.getD_eq_getElem?_getD, List.getElem?_eq_getElem h,
    Option.getD_some]

theorem atPlace_of_le {l : List String} {i : ℕ} (h : l.length ≤ i) :
    atPlace l i = l.getD (l.length - 1) "" := by
  rw [atPlace, min_eq_right (by omega)]

theorem mem_zip_iff_atPlace : (u, v) ∈ left.zip right ↔
    ∃ i < min left.length right.length, u = atPlace left i ∧ v = atPlace right i := by
  rw [List.mem_iff_getElem]
  constructor
  · rintro ⟨i, hi, hpair⟩
    rw [List.length_zip] at hi
    rw [List.getElem_zip, Prod.mk.injEq] at hpair
    refine ⟨i, hi, ?_, ?_⟩
    · rw [atPlace_of_lt (by omega), hpair.1]
    · rw [atPlace_of_lt (by omega), hpair.2]
  · rintro ⟨i, hi, rfl, rfl⟩
    refine ⟨i, by rwa [List.length_zip], ?_⟩
    rw [List.getElem_zip, atPlace_of_lt (by omega), atPlace_of_lt (by omega)]

theorem mem_drop_iff_atPlace {l : List String} {n : ℕ} :
    u ∈ l.drop n ↔ ∃ i < l.length, n ≤ i ∧ u = atPlace l i := by
  rw [List.mem_drop_iff_getElem]
  constructor
  · rintro ⟨i, hi, rfl⟩
    exact ⟨n + i, by omega, by omega, (atPlace_of_lt (by omega)).symm⟩
  · rintro ⟨i, hi, hn, rfl⟩
    refine ⟨i - n, by omega, ?_⟩
    rw [atPlace_of_lt hi]
    congr 1
    omega

/-- The pairs of two groups: place by place, less the pairs of an action with itself. -/
theorem mem_scopedPairs_iff (hl : left ≠ []) (hr : right ≠ []) :
    (u, v) ∈ scopedPairs left right ↔
      (u ≠ v ∨ left.length = 1 ∧ right.length = 1) ∧
        ∃ i < max left.length right.length, u = atPlace left i ∧ v = atPlace right i := by
  have h1 := List.length_pos_of_ne_nil hl
  have h2 := List.length_pos_of_ne_nil hr
  rw [scopedPairs]
  split_ifs with hone
  · rw [Bool.and_eq_true, decide_eq_true_eq, decide_eq_true_eq] at hone
    rw [mem_zip_iff_atPlace, hone.1, hone.2]
    exact ⟨fun h => ⟨.inr ⟨rfl, rfl⟩, h⟩, fun h => h.2⟩
  · rw [Bool.and_eq_true, decide_eq_true_eq, decide_eq_true_eq] at hone
    simp only [List.mem_append, List.mem_filter, List.mem_map, Prod.mk.injEq, decide_eq_true_eq,
      mem_zip_iff_atPlace, mem_drop_iff_atPlace, or_iff_left hone]
    constructor
    · rintro ((⟨⟨i, hi, hu, hv⟩, hne⟩ | ⟨x, ⟨⟨i, hi, hn, rfl⟩, hne⟩, rfl, rfl⟩) |
        ⟨x, ⟨⟨i, hi, hn, rfl⟩, hne⟩, rfl, rfl⟩)
      · exact ⟨hne, i, by omega, hu, hv⟩
      · -- the left group is longer
        refine ⟨hne, i, by omega, rfl, ?_⟩
        rw [atPlace_of_le (by omega), min_eq_right (by omega)]
      · -- the right group is longer
        refine ⟨hne, i, by omega, ?_, rfl⟩
        rw [atPlace_of_le (by omega), min_eq_left (by omega)]
    · rintro ⟨hne, i, hi, hu, hv⟩
      by_cases hboth : i < min left.length right.length
      · exact .inl (.inl ⟨⟨i, hboth, hu, hv⟩, hne⟩)
      · by_cases hleft : i < left.length
        · have hlast : v = right.getD (min left.length right.length - 1) "" := by
            rw [hv, atPlace_of_le (by omega), min_eq_right (by omega)]
          exact .inl (.inr ⟨u, ⟨⟨i, hleft, by omega, hu⟩, hlast ▸ hne⟩, rfl, hlast.symm⟩)
        · have hlast : u = left.getD (min left.length right.length - 1) "" := by
            rw [hu, atPlace_of_le (by omega), min_eq_left (by omega)]
          exact .inr ⟨v, ⟨⟨i, by omega, by omega, hv⟩, hlast ▸ hne⟩, hlast.symm, rfl⟩

/-- In a sorted group later places have larger elements. -/
theorem le_of_atPlace_le {l : List String} (hsorted : l.Pairwise (· < ·)) {i j : ℕ}
    (hi : i < l.length) (hj : j < l.length) (h : atPlace l i ≤ atPlace l j) : i ≤ j := by
  by_contra hlt
  rw [atPlace_of_lt hi, atPlace_of_lt hj] at h
  exact absurd (List.pairwise_iff_getElem.1 hsorted j i hj hi (by omega)) (not_lt.2 h)

theorem atPlace_mono {l : List String} (hsorted : l.Pairwise (· < ·)) {i j : ℕ} (h : i ≤ j) :
    atPlace l i ≤ atPlace l j := by
  rcases List.eq_nil_or_concat l with rfl | hne
  · exact le_rfl
  have hpos : 0 < l.length := by
    obtain ⟨front, last, rfl⟩ := hne
    simp
  have hk : ∀ k, atPlace l k = l[min k (l.length - 1)] := by
    intro k
    rw [atPlace, List.getD_eq_getElem?_getD, List.getElem?_eq_getElem, Option.getD_some]
  rw [hk, hk]
  rcases (min_le_min_right (l.length - 1) h).eq_or_lt with heq | hlt
  · exact le_of_eq (by congr 1)
  · exact (List.pairwise_iff_getElem.1 hsorted _ _ _ _ hlt).le

/-- The pairs of two sorted groups form no cycle. -/
theorem acyclic_scopedPairs (hl : left ≠ []) (hr : right ≠ []) (hsl : left.Pairwise (· < ·))
    (hsr : right.Pairwise (· < ·)) :
    Acyclic fun u v => (u, v) ∈ scopedPairs left right ∧ u ≠ v := by
  rcases le_total right.length left.length with hlen | hlen
  · -- every source has one target
    refine acyclic_of_monotone (fun u v u' v' h h' hle => ?_) fun v h => h.2 rfl
    obtain ⟨-, i, hi, rfl, rfl⟩ := (mem_scopedPairs_iff hl hr).1 h.1
    obtain ⟨-, j, hj, rfl, rfl⟩ := (mem_scopedPairs_iff hl hr).1 h'.1
    exact atPlace_mono hsr (le_of_atPlace_le hsl (by omega) (by omega) hle)
  · -- every target has one source
    refine .of_swap (acyclic_of_monotone (fun v u v' u' h h' hle => ?_) fun v h => h.2 rfl)
    obtain ⟨-, i, hi, rfl, rfl⟩ := (mem_scopedPairs_iff hl hr).1 h.1
    obtain ⟨-, j, hj, rfl, rfl⟩ := (mem_scopedPairs_iff hl hr).1 h'.1
    exact atPlace_mono hsl (le_of_atPlace_le hsr (by omega) (by omega) hle)

end Places

/-! ## The pairs of shared values -/

section Groups

variable {index : ActionIndex} {pairKey : String} {srcActions dstActions : List String} {u v : String}

theorem pairwise_groupOf {actions : List String} (h : actions.Nodup) (value : String) :
    (groupOf index pairKey actions value).Pairwise (· < ·) :=
  (pairwise_lt_sortedStr (h.filter _)).filter _

theorem mem_groupPairs : (u, v) ∈ groupPairs index pairKey srcActions dstActions ↔
    ∃ value ≠ "", groupOf index pairKey srcActions value ≠ [] ∧
      groupOf index pairKey dstActions value ≠ [] ∧
      (u, v) ∈ scopedPairs (groupOf index pairKey srcActions value)
        (groupOf index pairKey dstActions value) := by
  rw [groupPairs, List.mem_flatMap]
  refine exists_congr fun value => ?_
  rw [mem_shared_iff, and_assoc, and_assoc]

/-- The pairs of shared values form no cycle: every value has its own actions. -/
theorem acyclic_groupPairs (hs : srcActions.Nodup) (hd : dstActions.Nodup) :
    Acyclic fun u v => (u, v) ∈ groupPairs index pairKey srcActions dstActions ∧ u ≠ v := by
  intro a ha
  obtain ⟨b, ⟨hab, -⟩, -⟩ := TransGen.head'_iff.1 ha
  obtain ⟨value, -, hl, hr, hab⟩ := mem_groupPairs.1 hab
  have hvalue := (mem_groupOf.1 (mem_scopedPairs hl hr hab).1).2
  have hpath : ∀ c, TransGen (fun u v => (u, v) ∈ groupPairs index pairKey srcActions dstActions ∧
      u ≠ v) a c → groupValue index pairKey c = value ∧
        TransGen (fun u v => (u, v) ∈ scopedPairs (groupOf index pairKey srcActions value)
          (groupOf index pairKey dstActions value) ∧ u ≠ v) a c := by
    -- a step stays with the value of the action it starts from
    have hstep : ∀ u v, (u, v) ∈ groupPairs index pairKey srcActions dstActions →
        groupValue index pairKey u = value → groupValue index pairKey v = value ∧
          (u, v) ∈ scopedPairs (groupOf index pairKey srcActions value)
            (groupOf index pairKey dstActions value) := by
      intro u v huv hu
      obtain ⟨other, -, hl', hr', huv⟩ := mem_groupPairs.1 huv
      obtain ⟨hmem, hmem'⟩ := mem_scopedPairs hl' hr' huv
      obtain rfl : other = value := (mem_groupOf.1 hmem).2.symm.trans hu
      exact ⟨(mem_groupOf.1 hmem').2, huv⟩
    intro c hc
    induction hc with
    | single h =>
      obtain ⟨h1, h2⟩ := hstep _ _ h.1 hvalue
      exact ⟨h1, .single ⟨h2, h.2⟩⟩
    | tail _ h ih =>
      obtain ⟨h1, h2⟩ := hstep _ _ h.1 ih.1
      exact ⟨h1, ih.2.tail ⟨h2, h.2⟩⟩
  exact acyclic_scopedPairs hl hr (pairwise_groupOf hs value) (pairwise_groupOf hd value) a
    (hpath a ha).2

end Groups

/-! ## The pairs of an edge -/

section Edge

variable (index : ActionIndex) (srcActions dstActions justifications : List String)

/-- Both ends have one known action. -/
def OnePair : Prop :=
  (knownActions index srcActions).length = 1 ∧ (knownActions index dstActions).length = 1

/-- The edge has a pair key, other than the one for the nearest. -/
def Keyed : Prop :=
  pairKeyFromJustification justifications ≠ "" ∧
    pairKeyFromJustification justifications ≠ "nearest"

/-- The groups of some shared value give pairs. -/
def PairsByScope : Prop :=
  Keyed justifications ∧ ∃ value,
    SharesGroup index (pairKeyFromJustification justifications) srcActions dstActions value

/-- Every known action of the one end is paired with every other one of the other end. -/
def TakesProduct : Prop :=
  ¬OnePair index srcActions dstActions ∧ ¬PairsByScope index srcActions dstActions justifications

variable {index srcActions dstActions justifications} {u v : String}

variable (justifications) in
theorem edgeActionPairs_of_one (h : OnePair index srcActions dstActions) :
    ∃ u v, knownActions index srcActions = [u] ∧ knownActions index dstActions = [v] ∧
      edgeActionPairs srcActions dstActions justifications index = [(u, v)] := by
  obtain ⟨u, hu⟩ := List.length_eq_one_iff.1 h.1
  obtain ⟨v, hv⟩ := List.length_eq_one_iff.1 h.2
  refine ⟨u, v, hu, hv, ?_⟩
  rw [knownActions] at hu hv
  simp only [edgeActionPairs, hu, hv]
  rfl

theorem edgeActionPairs_of_scope (hs : srcActions.Nodup) (hd : dstActions.Nodup)
    (hone : ¬OnePair index srcActions dstActions)
    (h : PairsByScope index srcActions dstActions justifications) :
    edgeActionPairs srcActions dstActions justifications index =
      groupPairs index (pairKeyFromJustification justifications) srcActions dstActions := by
  rw [edgeActionPairs_eq rfl h.1.1 h.1.2, if_neg, if_pos]
  · exact (groupPairs_ne_nil_iff hs hd).2 h.2
  · rwa [Bool.and_eq_true, decide_eq_true_eq, decide_eq_true_eq]

theorem mem_edgeActionPairs_of_product (hs : srcActions.Nodup) (hd : dstActions.Nodup)
    (h : TakesProduct index srcActions dstActions justifications) :
    (u, v) ∈ edgeActionPairs srcActions dstActions justifications index ↔
      u ∈ knownActions index srcActions ∧ v ∈ knownActions index dstActions ∧ u ≠ v := by
  have hone : ¬((knownActions index srcActions).length = 1 &&
      (knownActions index dstActions).length = 1) = true := by
    rw [Bool.and_eq_true, decide_eq_true_eq, decide_eq_true_eq]
    exact h.1
  have hproduct : edgeActionPairs srcActions dstActions justifications index =
      (knownActions index srcActions).flatMap fun src =>
        ((knownActions index dstActions).filter (src ≠ ·)).map fun dst => (src, dst) := by
    by_cases hkeyed : Keyed justifications
    · rw [edgeActionPairs_eq rfl hkeyed.1 hkeyed.2, if_neg hone, if_neg]
      rw [groupPairs_ne_nil_iff hs hd]
      exact fun hshare => h.2 ⟨hkeyed, hshare⟩
    · have hplain : ¬(pairKeyFromJustification justifications ≠ "" &&
          pairKeyFromJustification justifications ≠ "nearest") = true := by
        rw [Bool.and_eq_true, decide_eq_true_eq, decide_eq_true_eq]
        exact hkeyed
      rw [knownActions, knownActions] at hone
      simp only [edgeActionPairs]
      rw [if_neg hone, if_neg hplain]
      rfl
  rw [hproduct, List.mem_flatMap]
  simp [and_assoc]

theorem known_of_mem_edgeActionPairs (hs : srcActions.Nodup) (hd : dstActions.Nodup)
    (h : (u, v) ∈ edgeActionPairs srcActions dstActions justifications index) :
    u ∈ knownActions index srcActions ∧ v ∈ knownActions index dstActions := by
  by_cases hone : OnePair index srcActions dstActions
  · obtain ⟨a, b, ha, hb, hpairs⟩ := edgeActionPairs_of_one justifications hone
    rw [hpairs, List.mem_singleton, Prod.mk.injEq] at h
    rw [ha, hb, h.1, h.2]
    exact ⟨List.mem_singleton.2 rfl, List.mem_singleton.2 rfl⟩
  by_cases hscope : PairsByScope index srcActions dstActions justifications
  · rw [edgeActionPairs_of_scope hs hd hone hscope] at h
    obtain ⟨value, -, hl, hr, h⟩ := mem_groupPairs.1 h
    obtain ⟨hu, hv⟩ := mem_scopedPairs hl hr h
    exact ⟨(mem_groupOf.1 hu).1, (mem_groupOf.1 hv).1⟩
  · obtain ⟨hu, hv, -⟩ := (mem_edgeActionPairs_of_product hs hd ⟨hone, hscope⟩).1 h
    exact ⟨hu, hv⟩

theorem cyclic_edgeActionPairs_iff (hs : srcActions.Nodup) (hd : dstActions.Nodup) :
    Cyclic (fun u v => (u, v) ∈ edgeActionPairs srcActions dstActions justifications index ∧
        u ≠ v) ↔
      TakesProduct index srcActions dstActions justifications ∧
        ∃ a b, a ≠ b ∧ (∀ c ∈ [a, b], c ∈ knownActions index srcActions ∧
          c ∈ knownActions index dstActions) := by
  by_cases hone : OnePair index srcActions dstActions
  · obtain ⟨a, b, -, -, hpairs⟩ := edgeActionPairs_of_one justifications hone
    refine iff_of_false (not_cyclic_iff.2 ?_) fun h => h.1.1 hone
    rw [hpairs]
    refine acyclic_of_monotone (fun u v u' v' h h' _ => ?_) fun v h => h.2 rfl
    rw [(Prod.mk.inj (List.mem_singleton.1 h.1)).2, (Prod.mk.inj (List.mem_singleton.1 h'.1)).2]
  by_cases hscope : PairsByScope index srcActions dstActions justifications
  · refine iff_of_false (not_cyclic_iff.2 ?_) fun h => h.1.2 hscope
    rw [edgeActionPairs_of_scope hs hd hone hscope]
    exact acyclic_groupPairs hs hd
  have hproduct : TakesProduct index srcActions dstActions justifications := ⟨hone, hscope⟩
  have hmem : ∀ u v, ((u, v) ∈ edgeActionPairs srcActions dstActions justifications index ∧ u ≠ v) ↔
      u ∈ knownActions index srcActions ∧ v ∈ knownActions index dstActions ∧ u ≠ v := fun u v => by
    rw [mem_edgeActionPairs_of_product hs hd hproduct, and_assoc, and_assoc, and_self]
  simp only [hmem]
  rw [and_iff_right hproduct]
  constructor
  · rintro ⟨a, ha⟩
    -- the first step leads to an action that is left again, and the last one leads back
    obtain ⟨b, hab, hba⟩ := TransGen.head'_iff.1 ha
    rcases hba.cases_head with rfl | ⟨c, hbc, -⟩
    · exact absurd rfl hab.2.2
    · obtain ⟨d, -, hda⟩ := TransGen.tail'_iff.1 ha
      exact ⟨a, b, hab.2.2, by simp [hab.1, hab.2.1, hbc.1, hda.2.1]⟩
  · rintro ⟨a, b, hne, hboth⟩
    obtain ⟨ha, ha'⟩ := hboth a (by simp)
    obtain ⟨hb, hb'⟩ := hboth b (by simp)
    exact ⟨a, .tail (.single ⟨ha, hb', hne⟩) ⟨hb, ha', hne.symm⟩⟩

/-- An action is paired with itself only where it stands alone on both sides. -/
theorem alone_of_self_pair (hs : srcActions.Nodup) (hd : dstActions.Nodup)
    (h : (u, u) ∈ edgeActionPairs srcActions dstActions justifications index) :
    (knownActions index srcActions = [u] ∧ knownActions index dstActions = [u]) ∨
      ∃ value ≠ "", groupOf index (pairKeyFromJustification justifications) srcActions value = [u] ∧
        groupOf index (pairKeyFromJustification justifications) dstActions value = [u] := by
  by_cases hone : OnePair index srcActions dstActions
  · obtain ⟨a, b, ha, hb, hpairs⟩ := edgeActionPairs_of_one justifications hone
    rw [hpairs, List.mem_singleton, Prod.mk.injEq] at h
    rw [ha, hb, h.1, ← h.2, h.1]
    exact .inl ⟨rfl, rfl⟩
  by_cases hscope : PairsByScope index srcActions dstActions justifications
  · rw [edgeActionPairs_of_scope hs hd hone hscope] at h
    obtain ⟨value, hvalue, hl, hr, h⟩ := mem_groupPairs.1 h
    obtain ⟨hu, hv⟩ := mem_scopedPairs hl hr h
    obtain ⟨hlen, hlen'⟩ := ((mem_scopedPairs_iff hl hr).1 h).1.resolve_left fun hne => hne rfl
    obtain ⟨a, ha⟩ := List.length_eq_one_iff.1 hlen
    obtain ⟨b, hb⟩ := List.length_eq_one_iff.1 hlen'
    rw [ha, List.mem_singleton] at hu
    rw [hb, List.mem_singleton] at hv
    exact .inr ⟨value, hvalue, by rw [ha, hu], by rw [hb, hv]⟩
  · exact absurd rfl ((mem_edgeActionPairs_of_product hs hd ⟨hone, hscope⟩).1 h).2.2

/-- The actions of a shared value are paired place by place. -/
theorem atPlace_mem_edgeActionPairs (hs : srcActions.Nodup) (hd : dstActions.Nodup)
    (hkeyed : Keyed justifications) {value : String} (hvalue : value ≠ "")
    (hl : groupOf index (pairKeyFromJustification justifications) srcActions value ≠ [])
    (hr : groupOf index (pairKeyFromJustification justifications) dstActions value ≠ []) {i : ℕ}
    (hi : i < max (groupOf index (pairKeyFromJustification justifications) srcActions value).length
      (groupOf index (pairKeyFromJustification justifications) dstActions value).length)
    (hne : atPlace (groupOf index (pairKeyFromJustification justifications) srcActions value) i ≠
      atPlace (groupOf index (pairKeyFromJustification justifications) dstActions value) i) :
    (atPlace (groupOf index (pairKeyFromJustification justifications) srcActions value) i,
      atPlace (groupOf index (pairKeyFromJustification justifications) dstActions value) i) ∈
        edgeActionPairs srcActions dstActions justifications index := by
  have hpair := (mem_scopedPairs_iff hl hr).2 ⟨.inl hne, i, hi, rfl, rfl⟩
  have hgroup := mem_groupPairs.2 ⟨value, hvalue, hl, hr, hpair⟩
  by_cases hone : OnePair index srcActions dstActions
  · obtain ⟨a, b, ha, hb, hpairs⟩ := edgeActionPairs_of_one justifications hone
    obtain ⟨hu, hv⟩ := mem_scopedPairs hl hr hpair
    rw [mem_groupOf, ha, List.mem_singleton] at hu
    rw [mem_groupOf, hb, List.mem_singleton] at hv
    rw [hpairs, List.mem_singleton, hu.1, hv.1]
  · have hshare : ∃ value, SharesGroup index (pairKeyFromJustification justifications) srcActions
        dstActions value := (groupPairs_ne_nil_iff hs hd).1 (List.ne_nil_of_mem hgroup)
    rw [edgeActionPairs_of_scope hs hd hone ⟨hkeyed, hshare⟩]
    exact hgroup

/-- **What the pairs of an edge are.**  They go from known actions of the one end to known actions
of the other.  Different actions form a cycle exactly when every action is paired with every other
one and two actions are on both ends; an action is paired with itself only where it stands alone on
both sides.  With a pair key the actions of a shared value are paired place by place, the shorter
group with its last action, less an action with itself; without scoped pairs all are paired. -/
theorem edgeActionPairs_exact (index : ActionIndex) (srcActions dstActions justifications : List String)
    (hs : srcActions.Nodup) (hd : dstActions.Nodup) :
    let pairKey := pairKeyFromJustification justifications
    let pairs := edgeActionPairs srcActions dstActions justifications index
    (∀ u v, (u, v) ∈ pairs → u ∈ knownActions index srcActions ∧ v ∈ knownActions index dstActions) ∧
      (Cyclic (fun u v => (u, v) ∈ pairs ∧ u ≠ v) ↔
        TakesProduct index srcActions dstActions justifications ∧
          ∃ a b, a ≠ b ∧ (∀ c ∈ [a, b], c ∈ knownActions index srcActions ∧
            c ∈ knownActions index dstActions)) ∧
      (∀ a, (a, a) ∈ pairs →
        (knownActions index srcActions = [a] ∧ knownActions index dstActions = [a]) ∨
          ∃ value ≠ "", groupOf index pairKey srcActions value = [a] ∧
            groupOf index pairKey dstActions value = [a]) ∧
      (Keyed justifications → ∀ value ≠ "", groupOf index pairKey srcActions value ≠ [] →
        groupOf index pairKey dstActions value ≠ [] →
        ∀ i < max (groupOf index pairKey srcActions value).length
            (groupOf index pairKey dstActions value).length,
          atPlace (groupOf index pairKey srcActions value) i ≠
              atPlace (groupOf index pairKey dstActions value) i →
            (atPlace (groupOf index pairKey srcActions value) i,
              atPlace (groupOf index pairKey dstActions value) i) ∈ pairs) ∧
      (TakesProduct index srcActions dstActions justifications →
        ∀ u ∈ knownActions index srcActions, ∀ v ∈ knownActions index dstActions, u ≠ v →
          (u, v) ∈ pairs) := by
  intro pairKey pairs
  exact ⟨fun u v h => known_of_mem_edgeActionPairs hs hd h, cyclic_edgeActionPairs_iff hs hd,
    fun a h => alone_of_self_pair hs hd h,
    fun hkeyed value hvalue hl hr i hi hne =>
      atPlace_mem_edgeActionPairs hs hd hkeyed hvalue hl hr hi hne,
    fun hproduct u hu v hv hne =>
      (mem_edgeActionPairs_of_product hs hd hproduct).2 ⟨hu, hv, hne⟩⟩

end Edge

/-! ## Actions of one host -/

/-- Cloud actions of one host. -/
def hostIndex (ids : List String) : ActionIndex :=
  .ofList (ids.map fun id => (id, [("host_group_key", .str "api.demo.local")]))

/-- Three actions before two others of their host. -/
theorem edgeActionPairs_exact_hosts :
    ¬Cyclic (fun u v => (u, v) ∈ edgeActionPairs ["A1", "A2", "A3"] ["B1", "B2"] ["pair_key:host"]
        (hostIndex ["A1", "A2", "A3", "B1", "B2"]) ∧ u ≠ v) ∧
      ("A3", "B2") ∈ edgeActionPairs ["A1", "A2", "A3"] ["B1", "B2"] ["pair_key:host"]
        (hostIndex ["A1", "A2", "A3", "B1", "B2"]) := by
  obtain ⟨-, hcyclic, -, hplaces, -⟩ := edgeActionPairs_exact
    (hostIndex ["A1", "A2", "A3", "B1", "B2"]) ["A1", "A2", "A3"] ["B1", "B2"] ["pair_key:host"]
    (by decide) (by decide)
  have hkey : pairKeyFromJustification ["pair_key:host"] = "host" := by decide +kernel
  have hl : groupOf (hostIndex ["A1", "A2", "A3", "B1", "B2"]) "host" ["A1", "A2", "A3"]
      "api.demo.local" = ["A1", "A2", "A3"] := by decide +kernel
  have hr : groupOf (hostIndex ["A1", "A2", "A3", "B1", "B2"]) "host" ["B1", "B2"]
      "api.demo.local" = ["B1", "B2"] := by decide +kernel
  refine ⟨?_, ?_⟩
  · rw [hcyclic]
    rintro ⟨-, a, b, -, hboth⟩
    obtain ⟨ha, ha'⟩ := hboth a List.mem_cons_self
    have hnone : ∀ c ∈ knownActions (hostIndex ["A1", "A2", "A3", "B1", "B2"]) ["A1", "A2", "A3"],
        c ∉ knownActions (hostIndex ["A1", "A2", "A3", "B1", "B2"]) ["B1", "B2"] := by
      decide +kernel
    exact hnone a ha ha'
  · rw [hkey] at hplaces
    have hpair := hplaces (by rw [Keyed, hkey]; decide) "api.demo.local" (by decide)
      (by rw [hl]; decide) (by rw [hr]; decide) 2 (by rw [hl]; decide) (by rw [hl, hr]; decide)
    rw [hl, hr] at hpair
    exact hpair

/-- Two ends that share two actions are ordered both ways; and with a pair key an action that
stands at one place of both sides is in no pair, though another action has its value. -/
theorem edgeActionPairs_cycle :
    edgeActionPairs ["a", "b"] ["a", "b"] [] (hostIndex ["a", "b"]) = [("a", "b"), ("b", "a")] ∧
      edgeActionPairs ["a", "b"] ["a", "c"] ["pair_key:host"] (hostIndex ["a", "b", "c"]) =
        [("b", "c")] ∧
      groupValue (hostIndex ["a", "b", "c"]) "host" "a" =
        groupValue (hostIndex ["a", "b", "c"]) "host" "c" ∧
      ¬∀ (index : ActionIndex) (srcActions dstActions justifications : List String),
        srcActions.Nodup → dstActions.Nodup →
          Acyclic fun u v => (u, v) ∈ edgeActionPairs srcActions dstActions justifications index := by
  have hpairs : edgeActionPairs ["a", "b"] ["a", "b"] [] (hostIndex ["a", "b"]) =
      [("a", "b"), ("b", "a")] := by decide +kernel
  refine ⟨hpairs, by decide +kernel, by decide +kernel, fun hall => ?_⟩
  refine hall (hostIndex ["a", "b"]) ["a", "b"] ["a", "b"] [] (by decide) (by decide) "a" ?_
  rw [hpairs]
  exact .tail (.single (List.mem_cons_self)) (List.mem_cons_of_mem _ List.mem_cons_self)

end FloWeaver.Scheduler
