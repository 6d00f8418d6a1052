import FloWeaver.Scheduler.HardGraphFacts

/-!
# Action pairs of one scope

An edge of a template with a pair key is projected to pairs of actions of one group value.  Where
no such pair is found, every action of the one end comes before every other one of the other end.

* `scopedPairs_eq_nil_iff` — two groups give no pair only when they are the same actions.
* `GroupsMatch` — some value groups actions of both ends, or all pairs agree.
* `edgeActionPairs_agree_iff` — the pairs of an edge agree exactly when the groups match.
-/

namespace FloWeaver.Scheduler

open Py

/-! ## Two groups of one value -/

/-- The elements at the same places of two lists are equal when no place is kept. -/
theorem take_eq_of_filter_zip {left right : List String}
    (h : (left.zip right).filter (fun p => p.1 ≠ p.2) = []) :
    left.take (min left.length right.length) = right.take (min left.length right.length) := by
  induction left generalizing right with
  | nil => simp
  | cons a left ih =>
    cases right with
    | nil => simp
    | cons b right =>
      rw [List.zip_cons_cons, List.filter_cons] at h
      split_ifs at h with hab
      have heq : a = b := by simpa using hab
      rw [List.length_cons, List.length_cons, Nat.add_min_add_right, List.take_succ_cons,
        List.take_succ_cons, ih h, heq]

theorem drop_eq_nil_of_filter {l : List String} {n : ℕ} {last : String} (hnodup : l.Nodup)
    (hpos : 0 < n) (hlast : l.getD (n - 1) "" = last) (h : (l.drop n).filter (· ≠ last) = []) :
    l.drop n = [] := by
  by_contra hne
  obtain ⟨x, hx⟩ := List.exists_mem_of_ne_nil _ hne
  have hxlast : x = last := by simpa using List.filter_eq_nil_iff.1 h x hx
  obtain ⟨i, hi, rfl⟩ := List.mem_iff_getElem.1 hx
  rw [List.length_drop] at hi
  have hn : n - 1 < l.length := by omega
  rw [List.getElem_drop, ← hlast, List.getD_eq_getElem?_getD, List.getElem?_eq_getElem hn,
    Option.getD_some] at hxlast
  have := (List.Nodup.getElem_inj_iff hnodup).1 hxlast
  omega

/-- Two groups give no pair exactly when they are the same two or more actions. -/
theorem scopedPairs_eq_nil_iff {left right : List String} (hl : left ≠ []) (hr : right ≠ [])
    (hnl : left.Nodup) (hnr : right.Nodup) :
    scopedPairs left right = [] ↔ left = right ∧ left.length ≠ 1 := by
  have hlpos := List.length_pos_of_ne_nil hl
  have hrpos := List.length_pos_of_ne_nil hr
  rw [scopedPairs]
  split_ifs with hone
  · rw [Bool.and_eq_true, decide_eq_true_eq, decide_eq_true_eq] at hone
    constructor
    · intro h
      have hlen := congrArg List.length h
      rw [List.length_zip, hone.1, hone.2] at hlen
      cases hlen
    · exact fun h => absurd hone.1 h.2
  · constructor
    · intro h
      rw [List.append_eq_nil_iff, List.append_eq_nil_iff, List.map_eq_nil_iff,
        List.map_eq_nil_iff] at h
      obtain ⟨⟨hzip, hleft⟩, hright⟩ := h
      have htake := take_eq_of_filter_zip hzip
      -- the last elements of the two overlaps are the same
      have hlast : left.getD (min left.length right.length - 1) "" =
          right.getD (min left.length right.length - 1) "" := by
        have hget := congrArg (fun l => l[min left.length right.length - 1]?) htake
        simp only [List.getElem?_take] at hget
        rw [if_pos (by omega), if_pos (by omega)] at hget
        rw [List.getD_eq_getElem?_getD, List.getD_eq_getElem?_getD, hget]
      have hdropl := drop_eq_nil_of_filter hnl (by omega) hlast hleft
      have hright' : (right.drop (min left.length right.length)).filter
          (· ≠ left.getD (min left.length right.length - 1) "") = [] := by
        simpa [ne_comm] using hright
      have hdropr := drop_eq_nil_of_filter hnr (by omega) hlast.symm hright'
      have heq : left = right := by
        rw [← List.take_append_drop (min left.length right.length) left, hdropl, htake,
          ← hdropr, List.take_append_drop]
      refine ⟨heq, fun hlen => hone ?_⟩
      rw [← heq, hlen]
      rfl
    · rintro ⟨rfl, -⟩
      have hzip : (left.zip left).filter (fun p => p.1 ≠ p.2) = [] := by
        rw [List.filter_eq_nil_iff]
        intro p hp
        obtain ⟨i, hi, rfl⟩ := List.mem_iff_getElem.1 hp
        simp
      simp only [Nat.min_self, hzip, List.drop_length]
      rfl

/-! ## The pairs of an edge -/

section Groups

variable (index : ActionIndex) (pairKey : String) (srcActions dstActions : List String)

/-- The known actions of one end, sorted. -/
def knownActions (actions : List String) : List String :=
  sortedStr (actions.filter fun a => index.keys.contains a)

/-- The group value of an action. -/
def groupValue (actionId : String) : String := actionGroupValue (actionOf index actionId) pairKey

/-- The known actions of one end with a group value. -/
def groupOf (actions : List String) (value : String) : List String :=
  (knownActions index actions).filter (groupValue index pairKey · = value)

/-- A value that actions of both ends have; the two groups are not the same two or more actions. -/
def SharesGroup (value : String) : Prop :=
  value ≠ "" ∧ groupOf index pairKey srcActions value ≠ [] ∧
    groupOf index pairKey dstActions value ≠ [] ∧
    ¬ (groupOf index pairKey srcActions value = groupOf index pairKey dstActions value ∧
      (groupOf index pairKey srcActions value).length ≠ 1)

/-- Different known actions of the two ends always have the same group value, or one end has
several known actions and some value is shared. -/
def GroupsMatch : Prop :=
  (∀ u ∈ knownActions index srcActions, ∀ v ∈ knownActions index dstActions, u ≠ v →
      groupValue index pairKey u = groupValue index pairKey v) ∨
    (¬ ((knownActions index srcActions).length = 1 ∧ (knownActions index dstActions).length = 1) ∧
      ∃ value, SharesGroup index pairKey srcActions dstActions value)

end Groups

section Pairs

variable {index : ActionIndex} {pairKey : String} {srcActions dstActions justifications : List String}

theorem nodup_groupOf {actions : List String} (h : actions.Nodup) (value : String) :
    (groupOf index pairKey actions value).Nodup :=
  ((List.perm_insertionSort _ _).nodup_iff.2 (h.filter _)).filter _

theorem mem_groupOf {actions : List String} {value u : String} :
    u ∈ groupOf index pairKey actions value ↔
      u ∈ knownActions index actions ∧ groupValue index pairKey u = value := by
  rw [groupOf, List.mem_filter, decide_eq_true_eq]

/-- The pairs of the shared values, one value after the other. -/
def groupPairs (index : ActionIndex) (pairKey : String) (srcActions dstActions : List String) :
    List (String × String) :=
  (sortedSet (((knownActions index srcActions).map (groupValue index pairKey)).filter fun v =>
    v ≠ "" && ((knownActions index dstActions).map (groupValue index pairKey)).contains v)).flatMap
      fun v => scopedPairs (groupOf index pairKey srcActions v) (groupOf index pairKey dstActions v)

theorem mem_shared_iff {value : String} :
    value ∈ sortedSet (((knownActions index srcActions).map (groupValue index pairKey)).filter
        fun v => v ≠ "" &&
          ((knownActions index dstActions).map (groupValue index pairKey)).contains v) ↔
      value ≠ "" ∧ groupOf index pairKey srcActions value ≠ [] ∧
        groupOf index pairKey dstActions value ≠ [] := by
  have hgroup : ∀ actions, groupOf index pairKey actions value ≠ [] ↔
      value ∈ (knownActions index actions).map (groupValue index pairKey) := by
    intro actions
    rw [List.mem_map]
    constructor
    · intro h
      obtain ⟨u, hu⟩ := List.exists_mem_of_ne_nil _ h
      exact ⟨u, (mem_groupOf.1 hu).1, (mem_groupOf.1 hu).2⟩
    · rintro ⟨u, hu, hvalue⟩
      exact List.ne_nil_of_mem (mem_groupOf.2 ⟨hu, hvalue⟩)
  rw [mem_sortedSet, List.mem_filter, Bool.and_eq_true, decide_eq_true_eq, List.contains_iff_mem,
    hgroup, hgroup]
  tauto

/-- Both ends of a pair of shared values have the same value. -/
theorem agree_of_mem_groupPairs {p : String × String}
    (h : p ∈ groupPairs index pairKey srcActions dstActions) :
    groupValue index pairKey p.1 = groupValue index pairKey p.2 := by
  obtain ⟨value, hvalue, hp⟩ := List.mem_flatMap.1 h
  obtain ⟨-, hl, hr⟩ := mem_shared_iff.1 hvalue
  obtain ⟨hu, hv⟩ := mem_scopedPairs hl hr hp
  rw [(mem_groupOf.1 hu).2, (mem_groupOf.1 hv).2]

theorem groupPairs_ne_nil_iff (hs : srcActions.Nodup) (hd : dstActions.Nodup) :
    groupPairs index pairKey srcActions dstActions ≠ [] ↔
      ∃ value, SharesGroup index pairKey srcActions dstActions value := by
  rw [groupPairs, Ne, List.flatMap_eq_nil_iff]
  simp only [not_forall, exists_prop]
  constructor
  · rintro ⟨value, hvalue, hpairs⟩
    obtain ⟨hne, hl, hr⟩ := mem_shared_iff.1 hvalue
    exact ⟨value, hne, hl, hr, fun h => hpairs ((scopedPairs_eq_nil_iff hl hr
      (nodup_groupOf hs value) (nodup_groupOf hd value)).2 h)⟩
  · rintro ⟨value, hne, hl, hr, hdiff⟩
    exact ⟨value, mem_shared_iff.2 ⟨hne, hl, hr⟩, fun h => hdiff ((scopedPairs_eq_nil_iff hl hr
      (nodup_groupOf hs value) (nodup_groupOf hd value)).1 h)⟩

/-- What an edge with a pair key is projected to. -/
theorem edgeActionPairs_eq (hkey : pairKeyFromJustification justifications = pairKey)
    (hne : pairKey ≠ "") (hnear : pairKey ≠ "nearest") :
    edgeActionPairs srcActions dstActions justifications index =
      if (knownActions index srcActions).length = 1 && (knownActions index dstActions).length = 1
      then (knownActions index srcActions).zip (knownActions index dstActions)
      else if groupPairs index pairKey srcActions dstActions ≠ [] then
        groupPairs index pairKey srcActions dstActions
      else (knownActions index srcActions).flatMap fun src =>
        ((knownActions index dstActions).filter (src ≠ ·)).map fun dst => (src, dst) := by
  have hscoped : (pairKey ≠ "" && pairKey ≠ "nearest") = true := by simp [hne, hnear]
  simp only [edgeActionPairs, hkey, hscoped, if_true, ← knownActions.eq_1, ← groupValue.eq_1,
    ← groupOf.eq_1, ← groupPairs.eq_1]
  split_ifs <;> simp_all

/-- **The pairs of an edge agree on their group value exactly when the groups match.** -/
theorem edgeActionPairs_agree_iff (index : ActionIndex) (hs : srcActions.Nodup) (hd : dstActions.Nodup)
    (hkey : pairKeyFromJustification justifications = pairKey)
    (hne : pairKey ≠ "") (hnear : pairKey ≠ "nearest") :
    (∀ p ∈ edgeActionPairs srcActions dstActions justifications index,
      groupValue index pairKey p.1 = groupValue index pairKey p.2) ↔
      GroupsMatch index pairKey srcActions dstActions := by
  rw [edgeActionPairs_eq hkey hne hnear]
  split_ifs with hone hgroups
  · rw [Bool.and_eq_true, decide_eq_true_eq, decide_eq_true_eq] at hone
    obtain ⟨u, hu⟩ := List.length_eq_one_iff.1 hone.1
    obtain ⟨v, hv⟩ := List.length_eq_one_iff.1 hone.2
    rw [GroupsMatch, hu, hv]
    simp only [List.zip_cons_cons, List.zip_nil_right, List.mem_singleton, forall_eq,
      List.length_singleton, and_self, not_true_eq_false, false_and, or_false]
    constructor
    · exact fun h _ => h
    · intro h
      by_cases heq : u = v
      · rw [heq]
      · exact h heq
  · rw [Bool.and_eq_true, decide_eq_true_eq, decide_eq_true_eq] at hone
    exact ⟨fun _ => .inr ⟨hone, (groupPairs_ne_nil_iff hs hd).1 hgroups⟩,
      fun _ p hp => agree_of_mem_groupPairs hp⟩
  · constructor
    · refine fun h => .inl fun u hu v hv hdiff => h (u, v) ?_
      exact List.mem_flatMap.2 ⟨u, hu, List.mem_map.2
        ⟨v, List.mem_filter.2 ⟨hv, by simpa using hdiff⟩, rfl⟩⟩
    · rintro (h | ⟨-, hshare⟩) p hp
      · obtain ⟨u, hu, hp⟩ := List.mem_flatMap.1 hp
        obtain ⟨v, hv, rfl⟩ := List.mem_map.1 hp
        obtain ⟨hv, hdiff⟩ := List.mem_filter.1 hv
        exact h u hu v hv (by simpa using hdiff)
      · exact absurd ((groupPairs_ne_nil_iff hs hd).2 hshare) hgroups

end Pairs

end FloWeaver.Scheduler
