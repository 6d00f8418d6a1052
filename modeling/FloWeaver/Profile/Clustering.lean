import FloWeaver.Lib.Greedy
import FloWeaver.Lib.Grouped
import FloWeaver.Py.Sha1
import FloWeaver.Py.Sort
import Mathlib.Algebra.Order.Ring.Rat
import Mathlib.Data.List.Pairwise
import Mathlib.Data.String.Basic

/-!
# Clusters of counterexample evidence

Evidence is bucketed by its type, and each bucket is merged into clusters by first fit: an item
joins the first cluster with the same rule gap, resource context and traces whose known conditions
do not contradict its own.  An unknown condition contradicts nothing, so that two items agree is not
transitive; it is the cluster's conditions, which collect what any member knows, that keep all
members together.

* `mergeBucketToClusters`, `clusterEvidence` — the clusters of a bucket, and of all evidence.
* `SummedUp` — what a cluster says of its members; every join keeps it.
* `clusterEvidence_partition` — what the clusters are, as long as no two of them share an id.
* `clusterEvidence_collision` — two that do.
-/

namespace FloWeaver.Profile

open Py

/-- `_KEY_FIELDS`. -/
inductive KeyField where
  | concurrencyLevel
  | bucketSize
  | timeoutEnabled
  | retryCount
deriving DecidableEq

def keyFields : List KeyField := [.concurrencyLevel, .bucketSize, .timeoutEnabled, .retryCount]

theorem mem_keyFields (field : KeyField) : field ∈ keyFields := by cases field <;> decide

/-- Minimal conditions, with values of any type; a field that is not set reads as `none`. -/
structure Conditions (υ : Type) where
  value : KeyField → Option υ := fun _ => none
  rawConditions : List String := []

structure CounterexampleEvidence (υ : Type) where
  evidenceId : String
  violatedProperty : String
  triggerPattern : String
  protocolContext : String
  phaseContext : String
  resourceContext : String
  minimalConditions : Conditions υ := {}
  baselineTraceSignature : List String := []
  optimizedTraceSignature : List String := []
  suspectedRuleGap : Option String := none
  suggestedRefinement : Option String := none

abbrev BucketKey := String × String × String × String

def CounterexampleEvidence.bucketKey {υ : Type} (e : CounterexampleEvidence υ) : BucketKey :=
  (e.violatedProperty, e.protocolContext, e.phaseContext, e.triggerPattern)

/-- The violated property and the contexts of a cluster are those of its bucket key. -/
structure CounterexampleCluster (υ : Type) where
  clusterId : String
  bucketKey : BucketKey
  suspectedRuleGap : Option String
  resourceContext : String
  memberEvidenceIds : List String
  representativeTraceSignature : List String
  representativeMinimalConditions : Conditions υ
  suggestedRefinement : Option String
  clusterConfidence : ℚ

variable {υ : Type} [BEq υ]

/-- `_conditions_compatible`: a field that is unknown on one side is passed over. -/
def conditionsCompatible (left right : Conditions υ) : Bool :=
  keyFields.all fun field =>
    match left.value field, right.value field with
    | some leftValue, some rightValue => leftValue == rightValue
    | _, _ => true

/-- `_merge_conditions`. -/
def mergeConditions (left right : Conditions υ) : Conditions υ where
  value := fun field => (left.value field).or (right.value field)
  rawConditions := right.rawConditions.foldl
    (fun raw item => if item ∈ raw then raw else raw ++ [item]) left.rawConditions

/-- `bool(text)` of an optional text. -/
def given (text : Option String) : Bool := (text.getD "") ≠ ""

def clusterConfidence (size : ℕ) (hasGap : Bool) : ℚ :=
  if hasGap ∧ 3 ≤ size then 19 / 20 else if hasGap ∧ size = 2 then 17 / 20 else 7 / 10

variable (sha1 : String → String)

def stableId (label payload : String) : String :=
  label ++ "_" ++ String.ofList ((sha1 payload).toList.take 12)

def CounterexampleEvidence.clusterId (e : CounterexampleEvidence υ) : String :=
  stableId sha1 "CEXCL" ("::".intercalate [e.evidenceId, e.violatedProperty, e.protocolContext,
    e.phaseContext, e.triggerPattern])

/-- A cluster with one member. -/
def CounterexampleEvidence.cluster (e : CounterexampleEvidence υ) : CounterexampleCluster υ where
  clusterId := e.clusterId sha1
  bucketKey := e.bucketKey
  suspectedRuleGap := e.suspectedRuleGap
  resourceContext := e.resourceContext
  memberEvidenceIds := [e.evidenceId]
  representativeTraceSignature := e.baselineTraceSignature
  representativeMinimalConditions := e.minimalConditions
  suggestedRefinement := e.suggestedRefinement
  clusterConfidence := clusterConfidence 1 (given e.suspectedRuleGap)

/-- A cluster with one more member. -/
def CounterexampleCluster.join (c : CounterexampleCluster υ) (e : CounterexampleEvidence υ) :
    CounterexampleCluster υ :=
  { c with
    memberEvidenceIds := c.memberEvidenceIds ++ [e.evidenceId]
    representativeMinimalConditions :=
      mergeConditions c.representativeMinimalConditions e.minimalConditions
    clusterConfidence :=
      Profile.clusterConfidence (c.memberEvidenceIds ++ [e.evidenceId]).length (given c.suspectedRuleGap)
    suggestedRefinement :=
      if !given c.suggestedRefinement && given e.suggestedRefinement then e.suggestedRefinement
      else c.suggestedRefinement }

/-- Whether evidence fits a cluster whose optimised trace signature is the given one. -/
def CounterexampleCluster.accepts (c : CounterexampleCluster υ) (optimized : List String)
    (e : CounterexampleEvidence υ) : Bool :=
  c.suspectedRuleGap == e.suspectedRuleGap && c.resourceContext == e.resourceContext &&
    c.representativeTraceSignature == e.baselineTraceSignature &&
    optimized == e.optimizedTraceSignature &&
    conditionsCompatible c.representativeMinimalConditions e.minimalConditions

/-- The clusters so far, and their optimised trace signatures by cluster id. -/
structure MergeState (υ : Type) where
  clusters : List (CounterexampleCluster υ) := []
  optimizedSignatures : OrderedDict String (List String) := OrderedDict.empty

def MergeState.signature (s : MergeState υ) (c : CounterexampleCluster υ) : List String :=
  (s.optimizedSignatures.get? c.clusterId).getD []

/-- Evidence joins the first cluster that accepts it. -/
def joinFirst (accepts : CounterexampleCluster υ → Bool) (e : CounterexampleEvidence υ) :
    List (CounterexampleCluster υ) → Option (List (CounterexampleCluster υ))
  | [] => none
  | c :: rest => if accepts c then some (c.join e :: rest)
      else (joinFirst accepts e rest).map (c :: ·)

def MergeState.step (s : MergeState υ) (e : CounterexampleEvidence υ) : MergeState υ :=
  match joinFirst (fun c => c.accepts (s.signature c) e) e s.clusters with
  | some clusters => { s with clusters }
  | none =>
    { clusters := s.clusters ++ [e.cluster sha1]
      optimizedSignatures := s.optimizedSignatures.set (e.clusterId sha1) e.optimizedTraceSignature }

def mergeBucketToClusters (bucket : List (CounterexampleEvidence υ)) :
    List (CounterexampleCluster υ) :=
  ((sortedBy (·.evidenceId) bucket).foldl (MergeState.step sha1) {}).clusters

def bucketEvidenceByType (evidence : List (CounterexampleEvidence υ)) :
    OrderedDict BucketKey (List (CounterexampleEvidence υ)) :=
  (OrderedDict.grouped (·.bucketKey) evidence).mapValues (sortedBy (·.evidenceId))

/-- Tuples are compared from the left. -/
def BucketKey.rank (key : BucketKey) : String ×ₗ String ×ₗ String ×ₗ String :=
  toLex (key.1, toLex (key.2.1, toLex key.2.2))

/-- The clusters of all buckets, as `build_counterexample_cluster_packs` puts them together. -/
def clusterEvidence (evidence : List (CounterexampleEvidence υ)) :
    List (CounterexampleCluster υ) :=
  (sortedBy (fun row => BucketKey.rank row.1) (bucketEvidenceByType evidence).rows).flatMap
    fun row => mergeBucketToClusters sha1 row.2

/-! ## The merge is first fit -/

/-- An item goes to the first of the clusters, kept with their signatures, that accepts it. -/
abbrev place (summaries : List (CounterexampleCluster υ × List String))
    (e : CounterexampleEvidence υ) : List (CounterexampleCluster υ × List String) :=
  FirstFit.place (fun s e => s.1.accepts s.2 e) (fun s e => (s.1.join e, s.2))
    (fun e => (e.cluster sha1, e.optimizedTraceSignature)) summaries e

abbrev fit (bucket : List (CounterexampleEvidence υ)) :
    List (CounterexampleCluster υ × List String) :=
  FirstFit.firstFit (fun s e => s.1.accepts s.2 e) (fun s e => (s.1.join e, s.2))
    (fun e => (e.cluster sha1, e.optimizedTraceSignature)) bucket

/-- The signatures of the state are those of the clusters. -/
structure Represents (s : MergeState υ) (summaries : List (CounterexampleCluster υ × List String)) :
    Prop where
  clusters : s.clusters = summaries.map Prod.fst
  signature : ∀ c ∈ summaries, s.signature c.1 = c.2

variable {sha1}

variable (sha1) in
theorem joinFirst_cases {s : MergeState υ} (e : CounterexampleEvidence υ)
    {summaries : List (CounterexampleCluster υ × List String)}
    (h : ∀ c ∈ summaries, s.signature c.1 = c.2) :
    (joinFirst (fun c => c.accepts (s.signature c) e) e (summaries.map Prod.fst) =
        some ((place sha1 summaries e).map Prod.fst) ∧
      ∀ c ∈ place sha1 summaries e, s.signature c.1 = c.2) ∨
    (joinFirst (fun c => c.accepts (s.signature c) e) e (summaries.map Prod.fst) = none ∧
      place sha1 summaries e = summaries ++ [(e.cluster sha1, e.optimizedTraceSignature)]) := by
  induction summaries with
  | nil => exact .inr ⟨rfl, rfl⟩
  | cons c rest ih =>
    obtain ⟨hc, hrest⟩ := List.forall_mem_cons.1 h
    rw [List.map_cons, joinFirst, place, FirstFit.place, hc]
    by_cases haccepts : c.1.accepts c.2 e = true
    · rw [if_pos haccepts, if_pos haccepts]
      exact .inl ⟨rfl, List.forall_mem_cons.2 ⟨hc, hrest⟩⟩
    · rw [if_neg haccepts, if_neg haccepts]
      rcases ih hrest with ⟨hjoin, hplace⟩ | ⟨hjoin, hplace⟩
      · exact .inl ⟨by rw [hjoin]; rfl, List.forall_mem_cons.2 ⟨hc, hplace⟩⟩
      · exact .inr ⟨by rw [hjoin]; rfl, congrArg (c :: ·) hplace⟩

/-- One item, whose cluster id is new. -/
theorem Represents.step {s : MergeState υ} {e : CounterexampleEvidence υ}
    {summaries : List (CounterexampleCluster υ × List String)} (h : Represents s summaries)
    (hfresh : ∀ c ∈ summaries, c.1.clusterId ≠ e.clusterId sha1) :
    Represents (s.step sha1 e) (place sha1 summaries e) := by
  rcases joinFirst_cases sha1 e h.signature with ⟨hjoin, hplace⟩ | ⟨hjoin, hplace⟩
  · rw [MergeState.step, h.clusters, hjoin]
    exact ⟨rfl, hplace⟩
  · rw [MergeState.step, h.clusters, hjoin, hplace]
    refine ⟨by simp, fun c hc => ?_⟩
    rw [MergeState.signature, OrderedDict.get?_set]
    rcases List.mem_append.1 hc with hc | hc
    · rw [if_neg (hfresh c hc)]
      exact h.signature c hc
    · rw [List.mem_singleton.1 hc]
      simp [CounterexampleEvidence.cluster]

/-! ## What a cluster says of its members -/

/-- No condition that both have set differs. -/
def Agree (left right : Conditions υ) : Prop :=
  ∀ field v w, left.value field = some v → right.value field = some w → (v == w) = true

/-- Evidence that one cluster may hold. -/
structure Alike (a b : CounterexampleEvidence υ) : Prop where
  bucketKey : a.bucketKey = b.bucketKey
  suspectedRuleGap : a.suspectedRuleGap = b.suspectedRuleGap
  resourceContext : a.resourceContext = b.resourceContext
  baselineTraceSignature : a.baselineTraceSignature = b.baselineTraceSignature
  optimizedTraceSignature : a.optimizedTraceSignature = b.optimizedTraceSignature
  minimalConditions : Agree a.minimalConditions b.minimalConditions

/-- What the one knows of a condition the other knows as well. -/
def Covers (left right : Conditions υ) : Prop :=
  ∀ field v, right.value field = some v → ∃ w, left.value field = some w ∧ (w = v ∨ (w == v) = true)

/-- A cluster and its optimised trace signature sum up the members. -/
structure SummedUp (sha1 : String → String) (key : BucketKey) (members : List (CounterexampleEvidence υ))
    (s : CounterexampleCluster υ × List String) : Prop where
  memberIds : s.1.memberEvidenceIds = members.map (·.evidenceId)
  clusterId : ∃ e ∈ members, s.1.clusterId = e.clusterId sha1
  bucketKey : ∀ e ∈ members, e.bucketKey = key
  suspectedRuleGap : ∀ e ∈ members, s.1.suspectedRuleGap = e.suspectedRuleGap
  resourceContext : ∀ e ∈ members, s.1.resourceContext = e.resourceContext
  baseline : ∀ e ∈ members, s.1.representativeTraceSignature = e.baselineTraceSignature
  optimized : ∀ e ∈ members, s.2 = e.optimizedTraceSignature
  covers : ∀ e ∈ members, Covers s.1.representativeMinimalConditions e.minimalConditions
  agree : members.Pairwise fun a b => Agree a.minimalConditions b.minimalConditions
  confidence : s.1.clusterConfidence =
    clusterConfidence members.length (given s.1.suspectedRuleGap)

theorem summedUp_cluster (e : CounterexampleEvidence υ) :
    SummedUp sha1 e.bucketKey [e] (e.cluster sha1, e.optimizedTraceSignature) := by
  constructor
  case covers => exact List.forall_mem_singleton.2 fun _ v hv => ⟨v, hv, .inl rfl⟩
  all_goals simp [CounterexampleEvidence.cluster]

theorem covers_mergeConditions_left {left right conditions : Conditions υ}
    (h : Covers left conditions) : Covers (mergeConditions left right) conditions := by
  intro field v hv
  obtain ⟨w, hw, hwv⟩ := h field v hv
  exact ⟨w, by simp [mergeConditions, hw], hwv⟩

/-- Conditions without a contradiction both stay known when they are merged. -/
theorem covers_mergeConditions_right {left right : Conditions υ}
    (h : conditionsCompatible left right = true) : Covers (mergeConditions left right) right := by
  intro field v hv
  have hfield := List.all_eq_true.1 h field (mem_keyFields field)
  cases hleft : left.value field with
  | none => exact ⟨v, by simp [mergeConditions, hleft, hv], .inl rfl⟩
  | some w =>
    rw [hleft, hv] at hfield
    exact ⟨w, by simp [mergeConditions, hleft], .inr hfield⟩

variable [PartialEquivBEq υ]

theorem agree_symm {left right : Conditions υ} (h : Agree left right) : Agree right left :=
  fun field v w hv hw => BEq.symm (h field w v hw hv)

/-- What does not contradict the cluster agrees with each member. -/
theorem agree_of_covers {representative left right : Conditions υ} (h : Covers representative left)
    (hcompatible : conditionsCompatible representative right = true) : Agree left right := by
  intro field v w hv hw
  have hfield := List.all_eq_true.1 hcompatible field (mem_keyFields field)
  obtain ⟨x, hx, hxv⟩ := h field v hv
  rw [hx, hw] at hfield
  rcases hxv with rfl | hxv
  · exact hfield
  · exact BEq.trans (BEq.symm hxv) hfield

theorem SummedUp.alike {key : BucketKey} {members : List (CounterexampleEvidence υ)}
    {s : CounterexampleCluster υ × List String} (h : SummedUp sha1 key members s)
    {a b : CounterexampleEvidence υ} (ha : a ∈ members) (hb : b ∈ members) (hne : a ≠ b) :
    Alike a b where
  bucketKey := (h.bucketKey a ha).trans (h.bucketKey b hb).symm
  suspectedRuleGap := (h.suspectedRuleGap a ha).symm.trans (h.suspectedRuleGap b hb)
  resourceContext := (h.resourceContext a ha).symm.trans (h.resourceContext b hb)
  baselineTraceSignature := (h.baseline a ha).symm.trans (h.baseline b hb)
  optimizedTraceSignature := (h.optimized a ha).symm.trans (h.optimized b hb)
  minimalConditions := by
    have hsymm : Std.Symm fun a b : CounterexampleEvidence υ =>
        Agree a.minimalConditions b.minimalConditions := ⟨fun _ _ => agree_symm⟩
    exact h.agree.forall ha hb hne

/-- A cluster that accepts an item sums up the item as well. -/
theorem SummedUp.join {key : BucketKey} {members : List (CounterexampleEvidence υ)}
    {s : CounterexampleCluster υ × List String} (h : SummedUp sha1 key members s)
    {e : CounterexampleEvidence υ} (hkey : e.bucketKey = key)
    (haccepts : s.1.accepts s.2 e = true) : SummedUp sha1 key (members ++ [e]) (s.1.join e, s.2) := by
  simp only [CounterexampleCluster.accepts, Bool.and_eq_true, beq_iff_eq] at haccepts
  obtain ⟨⟨⟨⟨hgap, hresource⟩, hbaseline⟩, hoptimized⟩, hconditions⟩ := haccepts
  have hall {P : CounterexampleEvidence υ → Prop} (hmembers : ∀ a ∈ members, P a) (he : P e) :
      ∀ a ∈ members ++ [e], P a :=
    List.forall_mem_append.2 ⟨hmembers, List.forall_mem_singleton.2 he⟩
  constructor
  case memberIds => simp [CounterexampleCluster.join, h.memberIds]
  case clusterId =>
    obtain ⟨a, ha, hid⟩ := h.clusterId
    exact ⟨a, List.mem_append_left _ ha, hid⟩
  case bucketKey => exact hall h.bucketKey hkey
  case suspectedRuleGap => exact hall h.suspectedRuleGap hgap
  case resourceContext => exact hall h.resourceContext hresource
  case baseline => exact hall h.baseline hbaseline
  case optimized => exact hall h.optimized hoptimized
  case covers =>
    exact hall (fun a ha => covers_mergeConditions_left (h.covers a ha))
      (covers_mergeConditions_right hconditions)
  case agree =>
    refine List.pairwise_append.2 ⟨h.agree, List.pairwise_singleton _ _, fun a ha b hb => ?_⟩
    rw [List.mem_singleton.1 hb]
    exact agree_of_covers (h.covers a ha) hconditions
  case confidence => simp [CounterexampleCluster.join, h.memberIds]

/-! ## The clusters of a bucket -/

variable (sha1) in
/-- The clusters of evidence of one type. -/
theorem exists_groups_fit {key : BucketKey} {bucket : List (CounterexampleEvidence υ)}
    (hkey : ∀ e ∈ bucket, e.bucketKey = key) :
    ∃ groups, List.Forall₂ (SummedUp sha1 key) groups (fit sha1 bucket) ∧
      groups.flatten.Perm bucket :=
  FirstFit.exists_groups (fun e he => hkey e he ▸ summedUp_cluster e)
    fun e he _ _ h haccepts => h.join (hkey e he) haccepts

theorem represents_foldl {key : BucketKey} {bucket : List (CounterexampleEvidence υ)}
    (hkey : ∀ e ∈ bucket, e.bucketKey = key)
    (hfree : (bucket.map (·.clusterId sha1)).Nodup) :
    Represents (bucket.foldl (MergeState.step sha1) {}) (fit sha1 bucket) := by
  induction bucket using List.reverseRecOn with
  | nil => exact ⟨rfl, fun c hc => by cases hc⟩
  | append_singleton bucket e ih =>
    rw [List.map_append, List.map_singleton, List.nodup_append] at hfree
    obtain ⟨hfree, -, hfresh⟩ := hfree
    have hkey' : ∀ a ∈ bucket, a.bucketKey = key := fun a ha => hkey a (List.mem_append_left _ ha)
    rw [List.foldl_append, fit, FirstFit.firstFit, List.foldl_append]
    refine (ih hkey' hfree).step fun c hc heq => ?_
    -- the id of a cluster is that of a member
    obtain ⟨groups, hgroups, hperm⟩ := exists_groups_fit sha1 hkey'
    obtain ⟨members, hmembers, hsummed⟩ := FirstFit.exists_group_of_mem hgroups hc
    obtain ⟨a, ha, hid⟩ := hsummed.clusterId
    have hbucket : a ∈ bucket := hperm.mem_iff.1 (List.mem_flatten_of_mem hmembers ha)
    exact hfresh _ (List.mem_map_of_mem hbucket) _ (List.mem_singleton.2 rfl) (hid.symm.trans heq)

theorem exists_groups_mergeBucketToClusters {key : BucketKey}
    {bucket : List (CounterexampleEvidence υ)} (hkey : ∀ e ∈ bucket, e.bucketKey = key)
    (hfree : (bucket.map (·.clusterId sha1)).Nodup) :
    ∃ groups, List.Forall₂ (fun members c => ∃ optimized, SummedUp sha1 key members (c, optimized))
      groups (mergeBucketToClusters sha1 bucket) ∧ groups.flatten.Perm bucket := by
  have hperm := sortedBy_perm (fun e : CounterexampleEvidence υ => e.evidenceId) bucket
  have hkey' : ∀ e ∈ sortedBy (·.evidenceId) bucket, e.bucketKey = key :=
    fun e he => hkey e (hperm.mem_iff.1 he)
  have hfree' := (hperm.map (·.clusterId sha1)).nodup_iff.2 hfree
  obtain ⟨groups, hgroups, hflat⟩ := exists_groups_fit sha1 hkey'
  refine ⟨groups, ?_, hflat.trans hperm⟩
  rw [mergeBucketToClusters, (represents_foldl hkey' hfree').clusters, List.forall₂_map_right_iff]
  exact hgroups.imp fun _ s hs => ⟨s.2, hs⟩

/-! ## All buckets -/

omit [BEq υ] [PartialEquivBEq υ] in
theorem mem_bucketEvidenceByType {evidence : List (CounterexampleEvidence υ)}
    {row : BucketKey × List (CounterexampleEvidence υ)} :
    row ∈ (bucketEvidenceByType evidence).rows ↔ row.1 ∈ evidence.map (·.bucketKey) ∧
      row.2 = sortedBy (·.evidenceId) (evidence.filter fun e => e.bucketKey = row.1) := by
  rw [bucketEvidenceByType, OrderedDict.mapValues, List.mem_map,
    ← OrderedDict.mem_keys_grouped (f := fun e : CounterexampleEvidence υ => e.bucketKey),
    OrderedDict.keys, List.mem_map]
  constructor
  · rintro ⟨group, hgroup, rfl⟩
    exact ⟨⟨group, hgroup, rfl⟩, by rw [OrderedDict.snd_of_mem_grouped hgroup]⟩
  · rintro ⟨⟨group, hgroup, hkey⟩, hrow⟩
    refine ⟨group, hgroup, Prod.ext hkey ?_⟩
    rw [hrow, OrderedDict.snd_of_mem_grouped hgroup, hkey]

omit [BEq υ] [PartialEquivBEq υ] in
theorem flatMap_bucketEvidenceByType_perm (evidence : List (CounterexampleEvidence υ)) :
    ((bucketEvidenceByType evidence).rows.flatMap (·.2)).Perm evidence := by
  refine .trans ?_ (OrderedDict.flatMap_grouped_perm (·.bucketKey) evidence)
  rw [bucketEvidenceByType, OrderedDict.mapValues, List.flatMap_map]
  exact List.Perm.flatMap_left _ fun row _ => sortedBy_perm _ row.2

theorem BucketKey.rank_injective : Function.Injective BucketKey.rank := by
  intro a b h
  simp only [BucketKey.rank, toLex_inj, Prod.mk.injEq] at h
  exact Prod.ext h.1 (Prod.ext h.2.1 h.2.2)

omit [PartialEquivBEq υ] in
/-- The same evidence in another order makes the same clusters. -/
theorem clusterEvidence_eq_of_perm {evidence other : List (CounterexampleEvidence υ)}
    (hids : (evidence.map (·.evidenceId)).Nodup) (hperm : other.Perm evidence) :
    clusterEvidence sha1 other = clusterEvidence sha1 evidence := by
  have hinj := List.inj_on_of_nodup_map hids
  have hrow (key : BucketKey) : sortedBy (·.evidenceId) (other.filter fun e => e.bucketKey = key) =
      sortedBy (·.evidenceId) (evidence.filter fun e => e.bucketKey = key) := by
    refine sortedBy_eq_of_perm (hperm.filter _) fun a ha b hb h => hinj ?_ ?_ h
    · exact hperm.mem_iff.1 (List.mem_of_mem_filter ha)
    · exact hperm.mem_iff.1 (List.mem_of_mem_filter hb)
  have hrows : (bucketEvidenceByType other).rows.Perm (bucketEvidenceByType evidence).rows := by
    refine (List.perm_ext_iff_of_nodup (bucketEvidenceByType other).nodup.of_map
      (bucketEvidenceByType evidence).nodup.of_map).2 fun row => ?_
    rw [mem_bucketEvidenceByType, mem_bucketEvidenceByType, (hperm.map _).mem_iff, hrow]
  rw [clusterEvidence, clusterEvidence, sortedBy_eq_of_perm hrows fun a ha b hb h => ?_]
  exact List.inj_on_of_nodup_map (bucketEvidenceByType other).nodup ha hb
    (BucketKey.rank_injective h)

/-- The clusters of all evidence, each with its members. -/
theorem exists_groups_clusterEvidence {evidence : List (CounterexampleEvidence υ)}
    (hids : (evidence.map (·.evidenceId)).Nodup)
    (hfree : ∀ a ∈ evidence, ∀ b ∈ evidence, a.bucketKey = b.bucketKey →
      a.clusterId sha1 = b.clusterId sha1 → a.evidenceId = b.evidenceId) :
    ∃ groups, List.Forall₂
      (fun members c => ∃ key optimized, SummedUp sha1 key members (c, optimized))
      groups (clusterEvidence sha1 evidence) ∧ groups.flatten.Perm evidence := by
  have hbucket : ∀ row ∈ (bucketEvidenceByType evidence).rows,
      ∃ groups, List.Forall₂
        (fun members c => ∃ key optimized, SummedUp sha1 key members (c, optimized))
        groups (mergeBucketToClusters sha1 row.2) ∧ groups.flatten.Perm row.2 := by
    intro row hrow
    have hmem : ∀ e ∈ row.2, e ∈ evidence ∧ e.bucketKey = row.1 := by
      intro e he
      rw [(mem_bucketEvidenceByType.1 hrow).2, mem_sortedBy, List.mem_filter] at he
      exact ⟨he.1, of_decide_eq_true he.2⟩
    have hnodup : row.2.Nodup := by
      rw [(mem_bucketEvidenceByType.1 hrow).2]
      exact (sortedBy_perm _ _).nodup_iff.2 (hids.of_map.filter _)
    have hfree' : (row.2.map (·.clusterId sha1)).Nodup := by
      refine hnodup.map_on fun a ha b hb heq => ?_
      have hkey := (hmem a ha).2.trans (hmem b hb).2.symm
      exact List.inj_on_of_nodup_map hids (hmem a ha).1 (hmem b hb).1
        (hfree a (hmem a ha).1 b (hmem b hb).1 hkey heq)
    obtain ⟨groups, hgroups, hflat⟩ :=
      exists_groups_mergeBucketToClusters (fun e he => (hmem e he).2) hfree'
    exact ⟨groups, hgroups.imp fun _ _ h => ⟨row.1, h⟩, hflat⟩
  have hperm := sortedBy_perm
    (fun row : BucketKey × List (CounterexampleEvidence υ) => row.1.rank)
    (bucketEvidenceByType evidence).rows
  have hall : ∀ rows : List (BucketKey × List (CounterexampleEvidence υ)),
      (∀ row ∈ rows, row ∈ (bucketEvidenceByType evidence).rows) →
      ∃ groups, List.Forall₂
        (fun members c => ∃ key optimized, SummedUp sha1 key members (c, optimized))
        groups (rows.flatMap fun row => mergeBucketToClusters sha1 row.2) ∧
        groups.flatten.Perm (rows.flatMap (·.2)) := by
    intro rows hrows
    induction rows with
    | nil => exact ⟨[], .nil, .refl _⟩
    | cons row rest ih =>
      obtain ⟨hrow, hrest⟩ := List.forall_mem_cons.1 hrows
      obtain ⟨first, hfirst, hflat⟩ := hbucket row hrow
      obtain ⟨groups, hgroups, hflats⟩ := ih hrest
      refine ⟨first ++ groups, List.rel_append hfirst hgroups, ?_⟩
      rw [List.flatten_append, List.flatMap_cons]
      exact hflat.append hflats
  obtain ⟨groups, hgroups, hflat⟩ := hall _ fun row hrow => hperm.mem_iff.1 hrow
  exact ⟨groups, hgroups,
    hflat.trans ((hperm.flatMap_right _).trans (flatMap_bucketEvidenceByType_perm evidence))⟩

variable (sha1) in
/-- When no two clusters of one type have the same id, every item of evidence is in one cluster, the
members of a cluster are alike, its confidence is that of its size, and the order in which the
evidence is listed does not matter. -/
theorem clusterEvidence_partition (evidence : List (CounterexampleEvidence υ))
    (hids : (evidence.map (·.evidenceId)).Nodup)
    (hfree : ∀ a ∈ evidence, ∀ b ∈ evidence, a.bucketKey = b.bucketKey →
      a.clusterId sha1 = b.clusterId sha1 → a.evidenceId = b.evidenceId) :
    ((clusterEvidence sha1 evidence).flatMap (·.memberEvidenceIds)).Perm
        (evidence.map (·.evidenceId)) ∧
      (∀ c ∈ clusterEvidence sha1 evidence, ∀ a ∈ evidence, ∀ b ∈ evidence,
        a.evidenceId ∈ c.memberEvidenceIds → b.evidenceId ∈ c.memberEvidenceIds → a ≠ b →
        Alike a b) ∧
      (∀ c ∈ clusterEvidence sha1 evidence, c.clusterConfidence =
        clusterConfidence c.memberEvidenceIds.length (given c.suspectedRuleGap)) ∧
      ∀ other, other.Perm evidence →
        clusterEvidence sha1 other = clusterEvidence sha1 evidence := by
  obtain ⟨groups, hgroups, hflat⟩ := exists_groups_clusterEvidence hids hfree
  refine ⟨?_, fun c hc a ha b hb hca hcb hne => ?_, fun c hc => ?_, fun other hperm =>
    clusterEvidence_eq_of_perm hids hperm⟩
  · have hmembers : groups.map (List.map (·.evidenceId)) =
        (clusterEvidence sha1 evidence).map (·.memberEvidenceIds) := by
      rw [← List.forall₂_eq_eq_eq, List.forall₂_map_left_iff, List.forall₂_map_right_iff]
      exact hgroups.imp fun _ c ⟨_, _, h⟩ => h.memberIds.symm
    rw [List.flatMap_def, ← hmembers, ← List.map_flatten]
    exact hflat.map _
  · obtain ⟨members, hmembers, key, optimized, h⟩ := FirstFit.exists_group_of_mem hgroups hc
    have hmem {e : CounterexampleEvidence υ} (he : e ∈ evidence)
        (hid : e.evidenceId ∈ c.memberEvidenceIds) : e ∈ members := by
      rw [h.memberIds] at hid
      obtain ⟨e', he', heq⟩ := List.mem_map.1 hid
      have hevidence := hflat.mem_iff.1 (List.mem_flatten_of_mem hmembers he')
      exact List.inj_on_of_nodup_map hids hevidence he heq ▸ he'
    exact h.alike (hmem ha hca) (hmem hb hcb) hne
  · obtain ⟨members, hmembers, key, optimized, h⟩ := FirstFit.exists_group_of_mem hgroups hc
    rw [h.confidence, h.memberIds, List.length_map]

/-! ## Two clusters with one id -/

/-- Counterexamples of one type, which differ in their id and their optimised trace. -/
def unsubscribeEvidence (evidenceId op : String) : CounterexampleEvidence ℤ where
  evidenceId := evidenceId
  violatedProperty := "RESOURCE_PROTOCOL_VIOLATION"
  triggerPattern := "missing_unsubscribe"
  protocolContext := "CLOUD"
  phaseContext := "TEARDOWN"
  resourceContext := "CLOUD_LISTENER"
  optimizedTraceSignature := [op]

def distinctEvidence : List (CounterexampleEvidence ℤ) :=
  [unsubscribeEvidence "CEX_00000095d6e7" "HA:ENTRY_UNLOAD",
    unsubscribeEvidence "CEX_000000fa1b95" "CLOUD:CLOUD_HTTP_CALL"]

theorem clusterEvidence_partition_distinct :
    ((clusterEvidence Py.sha1 distinctEvidence).flatMap (·.memberEvidenceIds)).Perm
      (distinctEvidence.map (·.evidenceId)) :=
  (clusterEvidence_partition Py.sha1 distinctEvidence (by decide +kernel) (by decide +kernel)).1

def collidingEvidence : List (CounterexampleEvidence ℤ) :=
  distinctEvidence ++ [unsubscribeEvidence "CEX_000000fa1b94" "CLOUD:CLOUD_HTTP_CALL"]

/-- The digests of the first and the last item agree on the twelve digits that an id keeps, so the
cluster of the last replaces the signature of the first, which then takes in the item between. -/
theorem clusterEvidence_collision : ¬ ∀ evidence : List (CounterexampleEvidence ℤ),
    (evidence.map (·.evidenceId)).Nodup →
      ∀ c ∈ clusterEvidence Py.sha1 evidence, ∀ a ∈ evidence, ∀ b ∈ evidence,
        a.evidenceId ∈ c.memberEvidenceIds → b.evidenceId ∈ c.memberEvidenceIds → a ≠ b →
        Alike a b := by
  intro h
  have hmembers : ["CEX_00000095d6e7", "CEX_000000fa1b95"] ∈
      (clusterEvidence Py.sha1 collidingEvidence).map (·.memberEvidenceIds) := by
    decide +kernel
  obtain ⟨c, hc, hids⟩ := List.mem_map.1 hmembers
  have ha : unsubscribeEvidence "CEX_00000095d6e7" "HA:ENTRY_UNLOAD" ∈ collidingEvidence :=
    List.mem_cons_self
  have hb : unsubscribeEvidence "CEX_000000fa1b95" "CLOUD:CLOUD_HTTP_CALL" ∈ collidingEvidence :=
    List.mem_cons_of_mem _ List.mem_cons_self
  have hca : "CEX_00000095d6e7" ∈ c.memberEvidenceIds := by simp [hids]
  have hcb : "CEX_000000fa1b95" ∈ c.memberEvidenceIds := by simp [hids]
  have hne : unsubscribeEvidence "CEX_00000095d6e7" "HA:ENTRY_UNLOAD" ≠
      unsubscribeEvidence "CEX_000000fa1b95" "CLOUD:CLOUD_HTTP_CALL" := fun heq =>
    absurd (congrArg CounterexampleEvidence.evidenceId heq) (by decide)
  have halike := h collidingEvidence (by decide +kernel) c hc _ ha _ hb hca hcb hne
  exact absurd halike.optimizedTraceSignature (by decide)

end FloWeaver.Profile
