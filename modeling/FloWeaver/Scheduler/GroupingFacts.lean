import FloWeaver.Scheduler.Schedule

/-!
# What the groups of a batch contain

Splitting a batch into groups never adds an action and never loses one.  Whether an action
can appear twice depends on the buckets alone: the layers are a partition of the batch, the
actions outside the buckets are emitted once, but every bucket is emitted as it is.

* `flatten_groupSelectedActions` — the actions of the groups of a layer.
* `layerLoop_perm` — the layers are a partition.
* `buildParallelGroups_perm` — the groups of a batch list the buckets of its layers and what
  they leave.
* `mem_buildParallelGroups` — as a set the groups are the batch.
* `buildParallelGroups_nodup_iff` — the groups list no action twice exactly when no two rules
  claim an action of one layer (`SoleClaims`).
-/

namespace FloWeaver.Scheduler

open Py ListCut

variable {ctx : Ctx} {selected : List String}

/-! ## Buckets -/

theorem extendBuckets_mem {ruleKind groupKey : String} {scope : List String} {size wait : ℤ}
    {idem : Bool} {valueFn : Dict → String → String} {b : BatchingBucket}
    (h : b ∈ extendBuckets ctx ruleKind scope groupKey size wait idem valueFn) :
    b.members = scope.filter (bucketKey ctx idem valueFn groupKey · = b.bucket) := by
  obtain ⟨h, -⟩ := List.mem_filter.1 h
  obtain ⟨key, -, rfl⟩ := List.mem_map.1 h
  rfl

/-- Two buckets of one rule share no action. -/
theorem extendBuckets_disjoint {ruleKind groupKey : String} {scope : List String}
    {size wait : ℤ} {idem : Bool} {valueFn : Dict → String → String} :
    (extendBuckets ctx ruleKind scope groupKey size wait idem valueFn).Pairwise
      (fun b b' => List.Disjoint b.members b'.members) := by
  refine List.Pairwise.filter _ (List.pairwise_map.2 ?_)
  refine (nodup_eraseDups _).imp fun {k k'} hne a ha ha' => hne ?_
  have h1 := (List.mem_filter.1 ha).2
  have h2 := (List.mem_filter.1 ha').2
  simp only [decide_eq_true_eq] at h1 h2
  exact h1.symm.trans h2

/-- The buckets come from one list of rules, each with disjoint parts of the selection. -/
structure RuleBuckets (selected : List String) (bs : List BatchingBucket) : Prop where
  sublist : ∀ b ∈ bs, b.members.Sublist selected
  disjoint : bs.Pairwise fun b b' => List.Disjoint b.members b'.members

theorem ruleBuckets_nil : RuleBuckets selected [] := ⟨by simp, by simp⟩

theorem ruleBuckets_extend {ruleKind groupKey : String} {scope : List String} {size wait : ℤ}
    {idem : Bool} {valueFn : Dict → String → String} :
    RuleBuckets selected
      (extendBuckets ctx ruleKind (scopedActions scope selected) groupKey size wait idem valueFn) :=
  ⟨fun b hb => by
    rw [extendBuckets_mem hb]
    exact List.filter_sublist.trans List.filter_sublist, extendBuckets_disjoint⟩

theorem ruleBuckets_batch (rule : BatchRule) :
    RuleBuckets selected (batchRuleBuckets ctx selected rule) := by
  unfold batchRuleBuckets
  dsimp only
  split_ifs
  · exact ruleBuckets_nil
  · exact ruleBuckets_extend

theorem ruleBuckets_session (rule : SessionRule) :
    RuleBuckets selected (sessionRuleBuckets ctx selected rule) := by
  unfold sessionRuleBuckets
  dsimp only
  split_ifs
  · exact ruleBuckets_nil
  · exact ruleBuckets_extend

theorem mem_buildBatchingBuckets {b : BatchingBucket}
    (h : b ∈ buildBatchingBuckets ctx selected) : b.members.Sublist selected := by
  unfold buildBatchingBuckets at h
  dsimp only at h
  split_ifs at h
  · obtain ⟨rule, -, hb⟩ := List.mem_flatMap.1 h
    exact (ruleBuckets_batch rule).sublist b hb
  · obtain ⟨rule, -, hb⟩ := List.mem_flatMap.1 h
    exact (ruleBuckets_session rule).sublist b hb

/-- The actions that the buckets of a layer list. -/
def bucketActions (ctx : Ctx) (selected : List String) : List String :=
  (buildBatchingBuckets ctx selected).flatMap bucketMembers

theorem bucketActions_subset {a : String} (h : a ∈ bucketActions ctx selected) :
    a ∈ selected := by
  obtain ⟨b, hb, ha⟩ := List.mem_flatMap.1 h
  exact (mem_buildBatchingBuckets hb).subset (List.mem_filter.1 ha).1

/-! ## Claims -/

/-- The action is in one of the buckets. -/
def inBuckets (bs : List BatchingBucket) (a : String) : Prop := ∃ b ∈ bs, a ∈ bucketMembers b

instance (bs : List BatchingBucket) (a : String) : Decidable (inBuckets bs a) :=
  inferInstanceAs (Decidable (∃ b ∈ bs, a ∈ bucketMembers b))

/-- The buckets of a layer, rule by rule: the batch rules, or the session rules when no batch
rule has a bucket. -/
def layerBuckets (ctx : Ctx) (layer : List String) : List (List BatchingBucket) :=
  let batch := ctx.derived.batchRules.map (batchRuleBuckets ctx layer)
  if !batch.flatten.isEmpty then batch
  else ctx.derived.sessionRules.map (sessionRuleBuckets ctx layer)

/-- No action of the layer is claimed by two rules. -/
def SoleClaims (ctx : Ctx) (layer : List String) : Prop :=
  (layerBuckets ctx layer).Pairwise fun bs bs' => ∀ a ∈ layer, ¬ (inBuckets bs a ∧ inBuckets bs' a)

theorem flatten_layerBuckets (layer : List String) :
    (layerBuckets ctx layer).flatten = buildBatchingBuckets ctx layer := by
  unfold layerBuckets buildBatchingBuckets
  rw [List.flatMap_def, List.flatMap_def]
  dsimp only
  split_ifs <;> rfl

theorem ruleBuckets_layerBuckets {layer : List String} {bs : List BatchingBucket}
    (h : bs ∈ layerBuckets ctx layer) : RuleBuckets layer bs := by
  unfold layerBuckets at h
  dsimp only at h
  split_ifs at h
  · obtain ⟨rule, -, rfl⟩ := List.mem_map.1 h
    exact ruleBuckets_batch rule
  · obtain ⟨rule, -, rfl⟩ := List.mem_map.1 h
    exact ruleBuckets_session rule

/-- One rule never lists an action twice. -/
theorem RuleBuckets.nodup {layer : List String} (hnd : layer.Nodup) {bs : List BatchingBucket}
    (h : RuleBuckets layer bs) : (bs.flatMap bucketMembers).Nodup := by
  refine List.nodup_flatMap.2 ⟨fun b hb => ((h.sublist b hb).nodup hnd).filter _, ?_⟩
  exact h.disjoint.imp fun hd a ha ha' => hd (List.mem_filter.1 ha).1 (List.mem_filter.1 ha').1

/-- The buckets of a layer list no action twice exactly when no two rules claim it. -/
theorem bucketActions_nodup_iff {layer : List String} (hnd : layer.Nodup) :
    (bucketActions ctx layer).Nodup ↔ SoleClaims ctx layer := by
  have hflat : bucketActions ctx layer =
      (layerBuckets ctx layer).flatMap fun bs => bs.flatMap bucketMembers := by
    rw [bucketActions, ← flatten_layerBuckets, ← List.flatMap_id, List.flatMap_assoc]
    rfl
  rw [hflat, List.nodup_flatMap, SoleClaims]
  constructor
  · rintro ⟨-, h⟩
    exact h.imp fun hd a _ ⟨h1, h2⟩ => hd (List.mem_flatMap.2 h1) (List.mem_flatMap.2 h2)
  · refine fun h => ⟨fun bs hbs => (ruleBuckets_layerBuckets hbs).nodup hnd, ?_⟩
    refine h.imp_of_mem fun {bs bs'} hbs _ hsole a ha ha' => ?_
    obtain ⟨b, hb, hab⟩ := List.mem_flatMap.1 ha
    exact hsole a (((ruleBuckets_layerBuckets hbs).sublist b hb).subset (List.mem_filter.1 hab).1)
      ⟨List.mem_flatMap.1 ha, List.mem_flatMap.1 ha'⟩

/-! ## The groups of a layer -/

theorem flatten_flushGroup (run : List String) : (flushGroup run).flatten = run := by
  cases run <;> simp [flushGroup]

theorem flatten_unassignedGroups (assigned : List String) :
    ∀ run l : List String, (unassignedGroups ctx assigned run l).flatten =
      run ++ l.filter (fun a => !assigned.contains a)
  | run, [] => by simp [unassignedGroups, flatten_flushGroup]
  | run, a :: rest => by
      rw [unassignedGroups]
      by_cases h1 : assigned.contains a = true
      · rw [if_pos h1, List.filter_cons_of_neg (by simpa using h1), List.flatten_append,
          flatten_flushGroup, flatten_unassignedGroups assigned [] rest, List.nil_append]
      · rw [if_neg h1, List.filter_cons_of_pos (by simpa using h1)]
        split_ifs
        · rw [flatten_unassignedGroups assigned (run ++ [a]) rest, List.append_assoc,
            List.singleton_append]
        · rw [List.flatten_append, flatten_flushGroup, List.flatten_cons,
            flatten_unassignedGroups assigned [] rest, List.nil_append, List.singleton_append]

/-- With grouping rules a layer is emitted as its buckets and what they leave. -/
theorem flatten_groupSelectedActions
    (h : (ctx.derived.batchRules.isEmpty && ctx.derived.sessionRules.isEmpty) = false) :
    (groupSelectedActions ctx selected).1.flatten =
      bucketActions ctx selected ++
        selected.filter (fun a => !(bucketActions ctx selected).contains a) := by
  unfold groupSelectedActions
  cases selected with
  | nil =>
    have hnil : bucketActions ctx [] = [] :=
      List.eq_nil_iff_forall_not_mem.2 fun a ha => List.not_mem_nil (bucketActions_subset ha)
    simp [hnil]
  | cons a rest =>
    rw [if_neg (by simp), if_neg (by simp [h])]
    show List.flatten (_ ++ _) = _
    rw [List.flatten_append, flatten_unassignedGroups, List.nil_append, bucketActions,
      ListCut.flatten_flatMap]
    congr 1
    exact List.flatMap_congr fun b _ => flatten_chunks _ _

theorem buildBatchingBuckets_eq_nil
    (h : (ctx.derived.batchRules.isEmpty && ctx.derived.sessionRules.isEmpty) = true) :
    buildBatchingBuckets ctx selected = [] := by
  obtain ⟨h1, h2⟩ := Bool.and_eq_true_iff.1 h
  simp [buildBatchingBuckets, List.isEmpty_iff.1 h1, List.isEmpty_iff.1 h2]

/-- Up to order a layer is emitted as its buckets and what they leave. -/
theorem groupSelectedActions_perm :
    (groupSelectedActions ctx selected).1.flatten.Perm
      (bucketActions ctx selected ++
        selected.filter (fun a => !(bucketActions ctx selected).contains a)) := by
  cases h : ctx.derived.batchRules.isEmpty && ctx.derived.sessionRules.isEmpty with
  | false => rw [flatten_groupSelectedActions h]
  | true =>
    rw [bucketActions, buildBatchingBuckets_eq_nil h, groupSelectedActions]
    split_ifs with hs
    · simpa using List.isEmpty_iff.1 hs
    · simp

theorem mem_groupSelectedActions {a : String} :
    a ∈ (groupSelectedActions ctx selected).1.flatten ↔ a ∈ selected := by
  rw [groupSelectedActions_perm.mem_iff, List.mem_append, List.mem_filter]
  constructor
  · rintro (h | h)
    · exact bucketActions_subset h
    · exact h.1
  · intro h
    by_cases hb : a ∈ bucketActions ctx selected
    · exact .inl hb
    · exact .inr ⟨h, by simpa using hb⟩

/-- A layer is emitted without repetition exactly when its buckets are. -/
theorem groupSelectedActions_nodup_iff (hnd : selected.Nodup) :
    (groupSelectedActions ctx selected).1.flatten.Nodup ↔ (bucketActions ctx selected).Nodup := by
  rw [groupSelectedActions_perm.nodup_iff, List.nodup_append]
  refine ⟨fun h => h.1, fun h => ⟨h, hnd.filter _, fun a ha b hb => ?_⟩⟩
  rintro rfl
  simp [ha] at hb

/-! ## Layers -/

theorem layerLoop_perm (edges : List (String × String)) :
    ∀ (fuel : ℕ) (remaining : List String) (indegree : String → ℕ), remaining.Nodup →
      remaining.length ≤ fuel → (layerLoop edges fuel remaining indegree).flatten.Perm remaining
  | 0, remaining, _, _, h => by
      have : remaining = [] := List.length_eq_zero_iff.1 (by omega)
      simp [layerLoop, this]
  | _ + 1, [], _, _, _ => by simp [layerLoop]
  | fuel + 1, a :: rest, indegree, hnd, h => by
      rw [layerLoop]
      set layer := if ((a :: rest).filter fun x => indegree x = 0).isEmpty then [a]
        else (a :: rest).filter fun x => indegree x = 0 with hlayer
      -- a layer is a non-empty part of what remains
      have hsub : layer.Sublist (a :: rest) := by
        rw [hlayer]
        split_ifs
        · exact (List.nil_sublist rest).cons_cons a
        · exact List.filter_sublist
      have hne : layer ≠ [] := by
        rw [hlayer]
        split_ifs with h0
        · simp
        · exact fun e => h0 (by simp [e])
      have hlt : ((a :: rest).filter fun x => !layer.contains x).length < (a :: rest).length := by
        obtain ⟨x, hx⟩ := List.exists_mem_of_ne_nil _ hne
        refine List.length_filter_lt_length_iff_exists.2 ⟨x, hsub.subset hx, ?_⟩
        simp [hx]
      have ih := layerLoop_perm edges fuel ((a :: rest).filter fun x => !layer.contains x)
        (fun x => indegree x - (edges.filter fun e => layer.contains e.1 && e.2 = x).length)
        (hnd.filter _) (by simp only [List.length_cons] at h hlt ⊢; omega)
      rw [List.flatten_cons]
      refine (ih.append_left layer).trans ?_
      have hfilter : ((a :: rest).filter fun x => layer.contains x).Perm layer := by
        refine (List.perm_ext_iff_of_nodup (hnd.filter _) (hsub.nodup hnd)).2 fun x => ?_
        simp only [List.mem_filter, List.contains_iff_mem]
        exact ⟨fun hx => hx.2, fun hx => ⟨hsub.subset hx, hx⟩⟩
      refine (hfilter.symm.append_right _).trans ?_
      exact List.filter_append_perm (fun x => layer.contains x) (a :: rest)

/-- The layers that are grouped one by one are a partition of the batch. -/
theorem groupingLayers_perm (ctx : Ctx) (hnd : selected.Nodup) :
    (groupingLayers ctx selected).flatten.Perm selected := by
  unfold groupingLayers
  split_ifs
  · simp
  · exact layerLoop_perm _ _ _ _ hnd (Nat.le_refl _)

theorem nodup_of_mem_groupingLayers (hnd : selected.Nodup) {layer : List String}
    (h : layer ∈ groupingLayers ctx selected) : layer.Nodup :=
  (List.nodup_flatten.1 ((groupingLayers_perm ctx hnd).nodup_iff.2 hnd)).1 layer h

/-! ## The groups of a batch -/

theorem buildParallelGroups_perm :
    (buildParallelGroups ctx selected).1.flatten.Perm
      (if selected.isEmpty then [] else (groupingLayers ctx selected).flatMap fun layer =>
        (groupSelectedActions ctx layer).1.flatten) := by
  have hflat : (((groupingLayers ctx selected).map (groupSelectedActions ctx)).flatMap
      (·.1)).flatten =
      (groupingLayers ctx selected).flatMap fun layer =>
        (groupSelectedActions ctx layer).1.flatten := by
    rw [List.flatMap_map, ListCut.flatten_flatMap]
  unfold buildParallelGroups
  by_cases h1 : selected.isEmpty = true
  · rw [if_pos h1, if_pos h1]
    exact List.Perm.refl _
  · rw [if_neg h1, if_neg h1]
    dsimp only
    split_ifs
    · exact ((sortedBy_perm _ _).flatten).trans (List.Perm.of_eq hflat)
    · exact List.Perm.of_eq hflat

/-- As a set the groups are the batch. -/
theorem mem_buildParallelGroups (hnd : selected.Nodup) {a : String} :
    a ∈ (buildParallelGroups ctx selected).1.flatten ↔ a ∈ selected := by
  rw [buildParallelGroups_perm.mem_iff]
  split_ifs with h
  · simp [List.isEmpty_iff.1 h]
  · rw [← (groupingLayers_perm ctx hnd).mem_iff]
    rw [List.mem_flatMap, List.mem_flatten]
    exact exists_congr fun layer => and_congr_right fun _ => mem_groupSelectedActions

/-- The groups of a batch list no action twice exactly when no two rules claim an action of
a layer. -/
theorem buildParallelGroups_nodup_iff (hnd : selected.Nodup) :
    (buildParallelGroups ctx selected).1.flatten.Nodup ↔
      ∀ layer ∈ groupingLayers ctx selected, SoleClaims ctx layer := by
  have hlayers := List.nodup_flatten.1 ((groupingLayers_perm ctx hnd).nodup_iff.2 hnd)
  have hone : ∀ layer ∈ groupingLayers ctx selected,
      (groupSelectedActions ctx layer).1.flatten.Nodup ↔ SoleClaims ctx layer := fun layer hl =>
    (groupSelectedActions_nodup_iff (hlayers.1 layer hl)).trans
      (bucketActions_nodup_iff (hlayers.1 layer hl))
  rw [buildParallelGroups_perm.nodup_iff]
  split_ifs with hs
  · obtain rfl := List.isEmpty_iff.1 hs
    refine ⟨fun _ layer hl => (hone layer hl).1 ?_, fun _ => List.nodup_nil⟩
    have : layer = [] := List.eq_nil_iff_forall_not_mem.2 fun a ha =>
      List.not_mem_nil ((groupingLayers_perm ctx hnd).mem_iff.1
        (List.mem_flatten.2 ⟨layer, hl, ha⟩))
    simp [this, groupSelectedActions]
  · rw [List.nodup_flatMap]
    constructor
    · exact fun h layer hl => (hone layer hl).1 (h.1 layer hl)
    · refine fun h => ⟨fun layer hl => (hone layer hl).2 (h layer hl), ?_⟩
      exact hlayers.2.imp fun hd a ha ha' =>
        hd (mem_groupSelectedActions.1 ha) (mem_groupSelectedActions.1 ha')

end FloWeaver.Scheduler
