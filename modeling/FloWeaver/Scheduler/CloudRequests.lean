import FloWeaver.Scheduler.ExactlyOnce
import Mathlib.Data.List.Pairwise

/-!
# The cloud requests of a batch

While a batch is built every cloud call is charged to a request: it joins the request of its bucket
while that has room, and opens a new one otherwise.  Afterwards the batch is cut into groups anew,
layer by layer and rule by rule.  Both agree when the calls that were charged to one request are
grouped together.

* `Charges` — the calls that open a request, pick by pick, and `exists_charges`.
* `EmittedAsCharged` — calls charged to one bucket are grouped by one rule, in one layer, with as
  much room.
* `cloudGroups_le` — then no more groups contain a cloud call than requests were charged.
* `cloudGroups_le_cloudLimit` — and no batch of a plan exceeds the limit.
* `idempotentOnly_exceeds` — a rule for idempotent calls only is charged for all calls.
-/

namespace FloWeaver.Scheduler

open Py DepGraph ListCut

variable {ctx : Ctx} {f : Frontier String} {st : BatchBuildState}

/-! ## What is charged -/

section

variable (ctx : Ctx) (a : String)

def isCloud : Bool := ctx.protocol a = .cloud

/-- The bucket that a cloud call is charged to. -/
def requestBucket : String := (ctx.cloudRequestSlot a).1

/-- The number of calls that one request of the bucket holds. -/
def requestSize : ℕ := (max 1 (ctx.cloudRequestSlot a).2).toNat

theorem requestSize_pos : 0 < requestSize ctx a := by
  unfold requestSize
  omega

end

/-- The calls charged to a bucket. -/
def bucketCalls (ctx : Ctx) (selected : List String) (bucket : String) : ℕ :=
  selected.countP fun a => isCloud ctx a && requestBucket ctx a = bucket

/-- The calls that open a request of a bucket. -/
def bucketRequests (ctx : Ctx) (charged : String → Bool) (selected : List String)
    (bucket : String) : ℕ :=
  selected.countP fun a => isCloud ctx a && requestBucket ctx a = bucket && charged a

/-- All calls that open a request. -/
def openedRequests (ctx : Ctx) (charged : String → Bool) (selected : List String) : ℕ :=
  selected.countP fun a => isCloud ctx a && charged a

/-- The requests suffice for the calls of every bucket whose calls agree in the size. -/
def Covered (ctx : Ctx) (charged : String → Bool) (selected : List String) : Prop :=
  ∀ bucket size, (∀ a ∈ selected, isCloud ctx a = true → requestBucket ctx a = bucket →
    requestSize ctx a = size) →
    bucketCalls ctx selected bucket ≤ size * bucketRequests ctx charged selected bucket

/-- The counters of a batch, when the marked calls are those that opened a request. -/
structure Charges (ctx : Ctx) (st : BatchBuildState) (charged : String → Bool) : Prop where
  counts : ∀ bucket, st.cloudRequestCounts bucket = bucketCalls ctx st.selected bucket
  total : st.cloudCount = openedRequests ctx charged st.selected
  covered : Covered ctx charged st.selected

/-- A call opens a request when those of its bucket are full. -/
theorem cloudRequestIncrement_eq (a : String) {counts : String → ℤ} {n : ℕ}
    (h : counts (requestBucket ctx a) = n) :
    cloudRequestIncrement ctx a counts = if n % requestSize ctx a = 0 then 1 else 0 := by
  have hsize : max 1 (ctx.cloudRequestSlot a).2 = requestSize ctx a := by
    unfold requestSize
    omega
  unfold cloudRequestIncrement
  dsimp only
  rw [show (ctx.cloudRequestSlot a).1 = requestBucket ctx a from rfl, h, hsize, ← Int.natCast_mod]
  simp only [Nat.cast_eq_zero]

/-- One more call, and one more request when the others are full. -/
theorem covered_step {n k size : ℕ} (hsize : 0 < size) (h : n ≤ size * k) :
    n + 1 ≤ size * (k + if n % size = 0 then 1 else 0) := by
  split_ifs with hfull
  · rw [Nat.mul_add, Nat.mul_one]
    omega
  · have hne : n ≠ size * k := fun hn => hfull (by rw [hn, Nat.mul_mod_right])
    exact Nat.lt_of_le_of_ne h hne

/-- The marks after a pick. -/
def chargePick (ctx : Ctx) (st : BatchBuildState) (a : String) (charged : String → Bool) :
    String → Bool :=
  Function.update charged a (bucketCalls ctx st.selected (requestBucket ctx a) %
    requestSize ctx a = 0)

theorem countP_chargePick {a : String} (hnew : a ∉ st.selected) (charged : String → Bool)
    (p : String → Bool) :
    st.selected.countP (fun x => p x && chargePick ctx st a charged x) =
      st.selected.countP (fun x => p x && charged x) := by
  refine List.countP_congr fun x hx => ?_
  have hne : x ≠ a := fun h => hnew (h ▸ hx)
  rw [chargePick, Function.update_of_ne hne]

theorem cloudCount_pick (a : String) (st : BatchBuildState) :
    (applyPickToBatchState ctx a st).cloudCount = st.cloudCount +
      if isCloud ctx a then cloudRequestIncrement ctx a st.cloudRequestCounts else 0 := by
  unfold applyPickToBatchState candidateOccupancyIncrement isCloud
  dsimp only
  by_cases hcloud : ctx.protocol a = .cloud
  · rw [if_pos hcloud, if_pos (decide_eq_true hcloud), hcloud]
  · rw [if_neg hcloud, if_neg (by simpa using hcloud), add_zero]

theorem cloudRequestCounts_pick (a : String) (st : BatchBuildState) (bucket : String) :
    (applyPickToBatchState ctx a st).cloudRequestCounts bucket = st.cloudRequestCounts bucket +
      if isCloud ctx a && requestBucket ctx a = bucket then 1 else 0 := by
  unfold applyPickToBatchState isCloud requestBucket
  dsimp only
  by_cases hcloud : ctx.protocol a = .cloud
  · rw [if_pos hcloud, bump_apply, List.count_singleton]
    simp [hcloud]
  · simp [hcloud]

theorem Charges.pick {charged : String → Bool} (h : Charges ctx st charged) {a : String}
    (hnew : a ∉ st.selected) :
    Charges ctx (applyPickToBatchState ctx a st) (chargePick ctx st a charged) where
  counts bucket := by
    rw [cloudRequestCounts_pick, applyPick_selected, bucketCalls, List.countP_append,
      List.countP_singleton, Nat.cast_add, ← bucketCalls, ← h.counts]
    split_ifs <;> rfl
  total := by
    rw [cloudCount_pick, cloudRequestIncrement_eq a (h.counts _), applyPick_selected,
      openedRequests, List.countP_append, List.countP_singleton, countP_chargePick hnew,
      ← openedRequests, Nat.cast_add, ← h.total, chargePick, Function.update_self]
    cases isCloud ctx a with
    | false => rfl
    | true => simp
  covered bucket size hsize := by
    have hold := h.covered bucket size fun x hx => hsize x (List.mem_append_left _ hx)
    rw [applyPick_selected] at hsize ⊢
    rw [bucketCalls, bucketRequests, List.countP_append, List.countP_append,
      List.countP_singleton, List.countP_singleton, countP_chargePick hnew, ← bucketCalls,
      ← bucketRequests]
    by_cases hjoins : (isCloud ctx a && requestBucket ctx a = bucket) = true
    · obtain ⟨hcloud, hbucket⟩ := Bool.and_eq_true_iff.1 hjoins
      have hbucket : requestBucket ctx a = bucket := of_decide_eq_true hbucket
      have ha := hsize a (List.mem_append_right _ (List.mem_singleton_self a)) hcloud hbucket
      have hpos : 0 < size := ha ▸ requestSize_pos ctx a
      have hstep := covered_step hpos hold
      simpa [hjoins, hcloud, chargePick, hbucket, ha] using hstep
    · simpa [hjoins, Bool.eq_false_of_not_eq_true hjoins] using hold

/-- A batch under construction charges its calls one by one. -/
theorem exists_charges (h : Admitted ctx f st) : ∃ charged, Charges ctx st charged := by
  induction h with
  | empty =>
    exact ⟨fun _ => false, fun _ => rfl, rfl, fun _ _ _ => Nat.zero_le _⟩
  | pick _ _ hnew _ ih =>
    obtain ⟨charged, hcharged⟩ := ih
    exact ⟨_, hcharged.pick hnew⟩

/-- An allowed cloud call leaves the count within the limit. -/
theorem cloudCount_le (hl : SoundLimits ctx.derived) (h : Admitted ctx f st) :
    st.cloudCount ≤ ctx.derived.cloudLimit := by
  induction h with
  | empty => exact (by decide : (0 : ℤ) ≤ 1).trans hl.cloud
  | @pick st a allow _ _ _ hallowed ih =>
    simp only [applyPickToBatchState]
    split_ifs with hcloud
    · by_contra hover
      unfold candidateAllowedInBatch at hallowed
      simp only [Bool.and_eq_true, Bool.not_eq_true', Bool.and_eq_false_iff,
        decide_eq_false_iff_not] at hallowed
      obtain ⟨⟨⟨⟨⟨⟨-, hroom⟩, -⟩, -⟩, -⟩, -⟩, -⟩ := hallowed
      rcases hroom with hroom | hroom
      · exact hroom hcloud
      · exact hroom (not_le.1 hover)
    · exact ih

/-! ## What is emitted -/

/-- The number of groups with a cloud call. -/
def cloudGroups (index : ActionIndex) (groups : List (List String)) : ℕ :=
  groups.countP fun group => group.any fun a => actionProtocol (actionOf index a) = .cloud

/-- Two calls are grouped together: they agree in the size of their request, lie in one layer, and
a batch rule gives both the same key and at least that size. -/
structure GroupedTogether (ctx : Ctx) (layers : List (List String)) (a b : String) : Prop where
  size : requestSize ctx a = requestSize ctx b
  layer : ∃ layer ∈ layers, a ∈ layer ∧ b ∈ layer
  rule : ∃ rule ∈ ctx.derived.batchRules, a ∈ rule.scope ∧ b ∈ rule.scope ∧
    bucketKey ctx rule.idempotentOnly actionBatchGroupValue rule.groupKey a ≠ "" ∧
    bucketKey ctx rule.idempotentOnly actionBatchGroupValue rule.groupKey b =
      bucketKey ctx rule.idempotentOnly actionBatchGroupValue rule.groupKey a ∧
    requestSize ctx a ≤ (max 1 rule.maxBatchSize).toNat

/-- The calls of a batch that are charged to one bucket are grouped together, and no call is
grouped twice. -/
structure EmittedAsCharged (ctx : Ctx) (selected : List String) : Prop where
  together : ∀ a ∈ selected, ∀ b ∈ selected, a ≠ b → isCloud ctx a = true →
    isCloud ctx b = true → requestBucket ctx a = requestBucket ctx b →
    GroupedTogether ctx (groupingLayers ctx selected) a b
  once : ∀ layer ∈ groupingLayers ctx selected, ClaimedOnce ctx layer

variable {selected layer part : List String} {charged : String → Bool}

/-- A part of a batch holds the bucket of each of its calls completely. -/
def HoldsBuckets (ctx : Ctx) (selected part : List String) : Prop :=
  ∀ a ∈ part, ∀ b ∈ selected, isCloud ctx b = true → requestBucket ctx b = requestBucket ctx a →
    b ∈ part

theorem countP_part (hnd : selected.Nodup) (hpart : part.Nodup) (hsub : part ⊆ selected)
    (hholds : HoldsBuckets ctx selected part) {a : String} (ha : a ∈ part) (p : String → Bool) :
    selected.countP (fun x => isCloud ctx x && requestBucket ctx x = requestBucket ctx a && p x) =
      part.countP (fun x => isCloud ctx x && requestBucket ctx x = requestBucket ctx a && p x) := by
  rw [List.countP_eq_length_filter, List.countP_eq_length_filter]
  refine ((List.perm_ext_iff_of_nodup (hnd.filter _) (hpart.filter _)).2 fun x => ?_).length_eq
  simp only [List.mem_filter, Bool.and_eq_true, decide_eq_true_eq]
  constructor
  · rintro ⟨hx, ⟨hcloud, hbucket⟩, hp⟩
    exact ⟨hholds a ha x hx hcloud hbucket, ⟨hcloud, hbucket⟩, hp⟩
  · rintro ⟨hx, hrest⟩
    exact ⟨hsub hx, hrest⟩

/-- The requests charged for such a part suffice for it, at any size that its buckets respect. -/
theorem length_le_charged (hcovered : Covered ctx charged selected) (hnd : selected.Nodup)
    (hpart : part.Nodup) (hsub : part ⊆ selected) (hholds : HoldsBuckets ctx selected part)
    (hcloud : ∀ a ∈ part, isCloud ctx a = true) {size : ℕ} (hpos : 0 < size)
    (hsize : ∀ a ∈ part, ∀ b ∈ part, a ≠ b → requestBucket ctx a = requestBucket ctx b →
      requestSize ctx a = requestSize ctx b ∧ requestSize ctx a ≤ size) :
    part.length ≤ size * part.countP charged := by
  refine length_le_mul_countP (requestBucket ctx) charged size part fun bucket => ?_
  by_cases hmet : ∃ a ∈ part, requestBucket ctx a = bucket
  · obtain ⟨a, ha, rfl⟩ := hmet
    -- the calls of the bucket, in the batch as in the part
    have hcalls : bucketCalls ctx selected (requestBucket ctx a) =
        part.countP (fun x => requestBucket ctx x = requestBucket ctx a) := by
      have h := countP_part hnd hpart hsub hholds ha fun _ => true
      simp only [Bool.and_true] at h
      rw [bucketCalls, h]
      exact List.countP_congr fun x hx => by simp [hcloud x hx]
    have hrequests : bucketRequests ctx charged selected (requestBucket ctx a) =
        part.countP (fun x => requestBucket ctx x = requestBucket ctx a && charged x) := by
      rw [bucketRequests, countP_part hnd hpart hsub hholds ha charged]
      exact List.countP_congr fun x hx => by simp [hcloud x hx]
    have hle := hcovered (requestBucket ctx a) (requestSize ctx a) fun x hx hx' hbucket => by
      by_cases hxa : x = a
      · rw [hxa]
      · exact (hsize x (hholds a ha x hx hx' hbucket) a ha hxa hbucket).1
    rw [hcalls, hrequests] at hle
    by_cases halone : ∀ b ∈ part, requestBucket ctx b = requestBucket ctx a → b = a
    · have hone : part.countP (fun x => requestBucket ctx x = requestBucket ctx a) ≤ 1 := by
        have hsingle : part.filter (fun x => requestBucket ctx x = requestBucket ctx a) ⊆ [a] := by
          intro x hx
          obtain ⟨hx, hbucket⟩ := List.mem_filter.1 hx
          exact List.mem_singleton.2 (halone x hx (of_decide_eq_true hbucket))
        rw [List.countP_eq_length_filter]
        exact (List.subperm_of_subset (hpart.filter _) hsingle).length_le
      have hmet : 0 < part.countP (fun x => requestBucket ctx x = requestBucket ctx a) :=
        List.countP_pos_iff.2 ⟨a, ha, by simp⟩
      have hopen : 0 < part.countP
          (fun x => requestBucket ctx x = requestBucket ctx a && charged x) :=
        Nat.pos_of_mul_pos_left (hmet.trans_le hle)
      exact hone.trans (Nat.mul_pos hpos hopen)
    · push Not at halone
      obtain ⟨b, hb, hbucket, hne⟩ := halone
      exact hle.trans (Nat.mul_le_mul_right _ (hsize a ha b hb (Ne.symm hne) hbucket.symm).2)
  · have hnone : part.countP (fun x => requestBucket ctx x = bucket) = 0 :=
      List.countP_eq_zero.2 fun x hx hbucket => hmet ⟨x, hx, of_decide_eq_true hbucket⟩
    rw [hnone]
    exact Nat.zero_le _

/-- A call that shares its bucket with no other one opens a request. -/
theorem charged_of_alone (hcovered : Covered ctx charged selected) (hnd : selected.Nodup)
    {a : String} (ha : a ∈ selected) (hcloud : isCloud ctx a = true)
    (halone : ∀ b ∈ selected, isCloud ctx b = true → requestBucket ctx b = requestBucket ctx a →
      b = a) : charged a = true := by
  have hlen := length_le_charged hcovered hnd (List.nodup_singleton a) (by simpa using ha)
    (fun x hx b hb hb' hbucket => by
      obtain rfl := List.mem_singleton.1 hx
      exact List.mem_singleton.2 (halone b hb hb' hbucket))
    (fun x hx => List.mem_singleton.1 hx ▸ hcloud) Nat.one_pos
    (fun x hx b hb hne => absurd ((List.mem_singleton.1 hx).trans (List.mem_singleton.1 hb).symm)
      hne)
  by_contra hnot
  simp [hnot] at hlen

/-! ## One layer -/

theorem isCloud_of_bucketKey {idem : Bool} {valueFn : Dict → String → String} {groupKey a : String}
    (h : bucketKey ctx idem valueFn groupKey a ≠ "") : isCloud ctx a = true := by
  by_contra hcloud
  have hprotocol : ¬ actionProtocol (ctx.action a) = .cloud := fun hp => hcloud (decide_eq_true hp)
  simp [bucketKey, hprotocol] at h

/-- What the buckets of a layer hold are cloud calls. -/
theorem isCloud_of_mem_bucketActions (hnd : layer.Nodup) (hids : ∀ a ∈ layer, a ≠ "") {a : String}
    (h : a ∈ bucketActions ctx layer) : isCloud ctx a = true := by
  obtain ⟨b, hb, hab⟩ := List.mem_flatMap.1 h
  rw [← flatten_layerBuckets, List.mem_flatten] at hb
  obtain ⟨bs, hbs, hb⟩ := hb
  unfold layerBuckets at hbs
  dsimp only at hbs
  split_ifs at hbs
  · obtain ⟨rule, -, rfl⟩ := List.mem_map.1 hbs
    exact isCloud_of_bucketKey ((inBuckets_batchRuleBuckets_iff hnd hids rule).1 ⟨b, hb, hab⟩).keyed
  · obtain ⟨rule, -, rfl⟩ := List.mem_map.1 hbs
    exact isCloud_of_bucketKey
      ((inBuckets_sessionRuleBuckets_iff hnd hids rule).1 ⟨b, hb, hab⟩).keyed

theorem mem_buildBatchingBuckets_of_batch {rule : BatchRule} (hrule : rule ∈ ctx.derived.batchRules)
    {b : BatchingBucket} (hb : b ∈ batchRuleBuckets ctx layer rule) :
    b ∈ buildBatchingBuckets ctx layer := by
  have hmem : b ∈ ctx.derived.batchRules.flatMap (batchRuleBuckets ctx layer) :=
    List.mem_flatMap.2 ⟨rule, hrule, hb⟩
  unfold buildBatchingBuckets
  dsimp only
  rw [if_pos (by simpa using List.ne_nil_of_mem hmem)]
  exact hmem

/-- The bucket of a batch rule that holds an action holds every action with its key, and has the
size of the rule. -/
theorem batchRuleBuckets_spec {rule : BatchRule} {b : BatchingBucket}
    (hb : b ∈ batchRuleBuckets ctx layer rule) {a : String} (ha : a ∈ bucketMembers b) :
    b.maxBatchSize = max 1 rule.maxBatchSize ∧
      ∀ x ∈ layer, x ∈ rule.scope → x ≠ "" →
        bucketKey ctx rule.idempotentOnly actionBatchGroupValue rule.groupKey x =
          bucketKey ctx rule.idempotentOnly actionBatchGroupValue rule.groupKey a →
        x ∈ bucketMembers b := by
  unfold batchRuleBuckets at hb
  dsimp only at hb
  split_ifs at hb with hfew
  · cases hb
  · have hmembers := extendBuckets_mem hb
    obtain ⟨hmem, -⟩ := List.mem_filter.1 hb
    obtain ⟨key, -, rfl⟩ := List.mem_map.1 hmem
    refine ⟨rfl, fun x hx hscope hne hkey => ?_⟩
    have hak := (List.mem_filter.1 (List.mem_filter.1 ha).1).2
    refine List.mem_filter.2 ⟨List.mem_filter.2 ⟨mem_scopedActions.2 ⟨hx, hscope⟩, ?_⟩, by simpa⟩
    rw [decide_eq_true_eq] at hak ⊢
    exact hkey.trans hak

/-- Layers that share an action are the same. -/
theorem eq_of_mem_layers {layers : List (List String)} (hnd : layers.flatten.Nodup)
    {layer layer' : List String} (h : layer ∈ layers) (h' : layer' ∈ layers) {a : String}
    (ha : a ∈ layer) (ha' : a ∈ layer') : layer = layer' := by
  by_contra hne
  have : Std.Symm (List.Disjoint (α := String)) := ⟨fun _ _ hd => hd.symm⟩
  exact (List.nodup_flatten.1 hnd).2.forall h h' hne ha ha'

section Layer

variable (hagree : EmittedAsCharged ctx selected) (hnd : selected.Nodup)
  (hids : ∀ a ∈ selected, a ≠ "") (hlayer : layer ∈ groupingLayers ctx selected)

include hnd in
theorem subset_of_mem_groupingLayers (hlayer : layer ∈ groupingLayers ctx selected) :
    layer ⊆ selected := fun _ ha =>
  (groupingLayers_perm ctx hnd).mem_iff.1 (List.mem_flatten.2 ⟨layer, hlayer, ha⟩)

include hagree hnd hids hlayer in
/-- Two calls of one bucket are in one bucket of the layer, with room for their request. -/
theorem exists_bucket_of_partner {a b : String} (ha : a ∈ layer) (hb : b ∈ selected) (hne : a ≠ b)
    (hca : isCloud ctx a = true) (hcb : isCloud ctx b = true)
    (hbucket : requestBucket ctx a = requestBucket ctx b) :
    ∃ bucket ∈ buildBatchingBuckets ctx layer, a ∈ bucketMembers bucket ∧
      b ∈ bucketMembers bucket ∧ requestSize ctx a = requestSize ctx b ∧
      requestSize ctx a ≤ (max 1 bucket.maxBatchSize).toNat := by
  have hsub := subset_of_mem_groupingLayers hnd hlayer
  obtain ⟨hsize, ⟨layer', hlayer', ha', hb'⟩, rule, hrule, hsa, hsb, hkey, hkeys, hroom⟩ :=
    hagree.together a (hsub ha) b hb hne hca hcb hbucket
  obtain rfl := eq_of_mem_layers ((groupingLayers_perm ctx hnd).nodup_iff.2 hnd) hlayer hlayer'
    ha ha'
  have hclaims : BatchClaims ctx layer rule a := ⟨ha, hsa, hkey, b, hb', hsb, hne.symm, hkeys⟩
  obtain ⟨bucket, hmem, hab⟩ := (inBuckets_batchRuleBuckets_iff
    (nodup_of_mem_groupingLayers hnd hlayer) (fun x hx => hids x (hsub hx)) rule).2 hclaims
  obtain ⟨hmax, hall⟩ := batchRuleBuckets_spec hmem hab
  refine ⟨bucket, mem_buildBatchingBuckets_of_batch hrule hmem, hab,
    hall b hb' hsb (hids b hb) hkeys, hsize, ?_⟩
  rw [hmax]
  exact hroom.trans (by omega)

include hagree hnd hids hlayer in
/-- A bucket of the layer holds the requests of its calls, and has room for them. -/
theorem holdsBuckets_of_mem {bucket : BatchingBucket}
    (hbucket : bucket ∈ buildBatchingBuckets ctx layer) {a b : String}
    (ha : a ∈ bucketMembers bucket) (hb : b ∈ selected) (hne : a ≠ b)
    (hcb : isCloud ctx b = true) (hsame : requestBucket ctx a = requestBucket ctx b) :
    b ∈ bucketMembers bucket ∧ requestSize ctx a = requestSize ctx b ∧
      requestSize ctx a ≤ (max 1 bucket.maxBatchSize).toNat := by
  have hsub := subset_of_mem_groupingLayers hnd hlayer
  have hndl := nodup_of_mem_groupingLayers hnd hlayer
  have hidl : ∀ x ∈ layer, x ≠ "" := fun x hx => hids x (hsub hx)
  have hall : a ∈ bucketActions ctx layer := List.mem_flatMap.2 ⟨bucket, hbucket, ha⟩
  obtain ⟨bucket', hbucket', ha', hb', hsize, hroom⟩ := exists_bucket_of_partner hagree hnd hids
    hlayer (bucketActions_subset hall) hb hne (isCloud_of_mem_bucketActions hndl hidl hall) hcb hsame
  -- the bucket of the partner is the given one, since no action is in two buckets
  have hsole := (bucketActions_nodup_iff hndl).2 ((soleClaims_iff hndl hidl).2
    (hagree.once layer hlayer))
  obtain rfl : bucket = bucket' := by
    by_contra hdiff
    have : Std.Symm (Function.onFun (List.Disjoint (α := String)) bucketMembers) :=
      ⟨fun _ _ hd => hd.symm⟩
    exact (List.nodup_flatMap.1 hsole).2.forall hbucket hbucket' hdiff ha ha'
  exact ⟨hb', hsize, hroom⟩

include hagree hnd hids hlayer in
/-- A call of the layer in no bucket opens a request. -/
theorem charged_of_unassigned (hcovered : Covered ctx charged selected) {a : String}
    (ha : a ∈ layer) (hcloud : isCloud ctx a = true) (hout : a ∉ bucketActions ctx layer) :
    charged a = true := by
  refine charged_of_alone hcovered hnd (subset_of_mem_groupingLayers hnd hlayer ha) hcloud
    fun b hb hcb hsame => ?_
  by_contra hne
  obtain ⟨bucket, hbucket, hab, -⟩ := exists_bucket_of_partner hagree hnd hids hlayer ha hb
    (Ne.symm hne) hcloud hcb hsame.symm
  exact hout (List.mem_flatMap.2 ⟨bucket, hbucket, hab⟩)

include hagree hnd hids hlayer in
/-- The chunks of a bucket are no more than the requests charged for it. -/
theorem length_chunks_bucket_le (hcovered : Covered ctx charged selected) {bucket : BatchingBucket}
    (hbucket : bucket ∈ buildBatchingBuckets ctx layer) :
    (chunks (max 1 bucket.maxBatchSize).toNat (bucketMembers bucket)).length ≤
      (bucketMembers bucket).countP charged := by
  have hsub := subset_of_mem_groupingLayers hnd hlayer
  have hndl := nodup_of_mem_groupingLayers hnd hlayer
  have hidl : ∀ x ∈ layer, x ≠ "" := fun x hx => hids x (hsub hx)
  have hpos : 0 < (max 1 bucket.maxBatchSize).toNat := by omega
  have hin : ∀ x ∈ bucketMembers bucket, x ∈ bucketActions ctx layer := fun x hx =>
    List.mem_flatMap.2 ⟨bucket, hbucket, hx⟩
  have hcloud : ∀ x ∈ bucketMembers bucket, isCloud ctx x = true := fun x hx =>
    isCloud_of_mem_bucketActions hndl hidl (hin x hx)
  have hmembers : bucketMembers bucket ⊆ selected := fun x hx =>
    hsub (bucketActions_subset (hin x hx))
  have hholds := fun {a b : String} => holdsBuckets_of_mem (a := a) (b := b) hagree hnd hids hlayer
    hbucket
  refine length_chunks_le hpos (length_le_charged hcovered hnd ?_ hmembers ?_ hcloud hpos ?_)
  · exact ((mem_buildBatchingBuckets hbucket).nodup hndl).filter _
  · intro a ha b hb hcb hsame
    by_cases hab : a = b
    · exact hab ▸ ha
    · exact (hholds ha hb hab hcb hsame.symm).1
  · intro a ha b hb hne hsame
    exact (hholds ha (hmembers hb) hne (hcloud b hb) hsame).2

end Layer

theorem countP_flushGroup {run : List String} (h : ∀ a ∈ run, isCloud ctx a = false) :
    cloudGroups ctx.index (flushGroup run) = 0 := by
  unfold flushGroup cloudGroups
  split_ifs
  · rfl
  · refine List.countP_eq_zero.2 fun group hgroup => ?_
    obtain rfl := List.mem_singleton.1 hgroup
    rw [Bool.not_eq_true, List.any_eq_false]
    exact fun a ha => Bool.eq_false_iff.1 (h a ha)

/-- What no bucket took is emitted call by call. -/
theorem cloudGroups_unassigned (assigned : List String) : ∀ run l : List String,
    (∀ a ∈ run, isCloud ctx a = false) →
    cloudGroups ctx.index (unassignedGroups ctx assigned run l) =
      l.countP fun a => isCloud ctx a && !assigned.contains a
  | run, [], h => by rw [unassignedGroups, countP_flushGroup h, List.countP_nil]
  | run, a :: rest, h => by
      have happend : ∀ gs gs', cloudGroups ctx.index (gs ++ gs') =
          cloudGroups ctx.index gs + cloudGroups ctx.index gs' := fun _ _ => List.countP_append
      rw [unassignedGroups]
      split_ifs with hin hlocal
      · rw [List.countP_cons, happend, countP_flushGroup h, cloudGroups_unassigned assigned [] rest (by simp),
          hin]
        simp
      · have hcloud : isCloud ctx a = false := by
          have hprotocol : ctx.protocol a = .localNet := by
            simp only [isLocalRead, Bool.and_eq_true, decide_eq_true_eq] at hlocal
            exact hlocal.1.1
          simp [isCloud, hprotocol]
        rw [List.countP_cons, cloudGroups_unassigned assigned (run ++ [a]) rest fun x hx => by
          rcases List.mem_append.1 hx with hx | hx
          · exact h x hx
          · rw [List.mem_singleton.1 hx, hcloud]]
        simp [hcloud]
      · rw [List.countP_cons, happend, countP_flushGroup h, cloudGroups, List.countP_cons,
          ← cloudGroups, cloudGroups_unassigned assigned [] rest (by simp),
          Bool.eq_false_of_not_eq_true hin]
        by_cases hp : actionProtocol (actionOf ctx.index a) = .cloud <;>
          simp [isCloud, Ctx.protocol, Ctx.action, hp]

theorem cloudGroups_le_length (index : ActionIndex) (groups : List (List String)) :
    cloudGroups index groups ≤ groups.length := List.countP_le_length

/-- Pieces of which each needs no more than its marks need no more than all marks. -/
theorem length_flatMap_le {buckets : List BatchingBucket} {cut : BatchingBucket → List (List String)}
    (h : ∀ b ∈ buckets, (cut b).length ≤ (bucketMembers b).countP charged) :
    (buckets.flatMap cut).length ≤ (buckets.flatMap bucketMembers).countP charged := by
  induction buckets with
  | nil => exact Nat.le_refl _
  | cons b buckets ih =>
    rw [List.flatMap_cons, List.flatMap_cons, List.length_append, List.countP_append]
    exact Nat.add_le_add (h b List.mem_cons_self) (ih fun x hx => h x (List.mem_cons_of_mem b hx))

/-- A layer is emitted in no more requests than were charged for its calls. -/
theorem cloudGroups_layer_le (hagree : EmittedAsCharged ctx selected) (hnd : selected.Nodup)
    (hids : ∀ a ∈ selected, a ≠ "") (hcovered : Covered ctx charged selected)
    (hlayer : layer ∈ groupingLayers ctx selected) :
    cloudGroups ctx.index (groupSelectedActions ctx layer).1 ≤ openedRequests ctx charged layer := by
  have hsub := subset_of_mem_groupingLayers hnd hlayer
  have hndl := nodup_of_mem_groupingLayers hnd hlayer
  have hidl : ∀ x ∈ layer, x ≠ "" := fun x hx => hids x (hsub hx)
  have hopens := fun {a : String} => charged_of_unassigned (a := a) hagree hnd hids hlayer hcovered
  unfold groupSelectedActions
  split_ifs with hempty hrules
  · exact Nat.zero_le _
  · -- without rules the layer is one group, and each of its cloud calls opens a request
    have hnone : buildBatchingBuckets ctx layer = [] := buildBatchingBuckets_eq_nil hrules
    unfold cloudGroups
    rw [List.countP_singleton]
    split_ifs with hcloud
    · obtain ⟨a, ha, hca⟩ := List.any_eq_true.1 hcloud
      have hcharged := hopens ha hca (by simp [bucketActions, hnone])
      have hboth : (isCloud ctx a && charged a) = true := Bool.and_eq_true_iff.2 ⟨hca, hcharged⟩
      exact List.countP_pos_iff.2 ⟨a, ha, hboth⟩
    · exact Nat.zero_le _
  · dsimp only
    have hperm : layer.Perm (bucketActions ctx layer ++
        layer.filter fun a => !(bucketActions ctx layer).contains a) := by
      have hsole := (bucketActions_nodup_iff hndl).2 ((soleClaims_iff hndl hidl).2
        (hagree.once layer hlayer))
      refine (List.perm_ext_iff_of_nodup hndl ?_).2 fun a => ?_
      · refine List.nodup_append.2 ⟨hsole, hndl.filter _, fun a ha b hb => ?_⟩
        rintro rfl
        simp [ha] at hb
      · rw [← @mem_groupSelectedActions ctx, groupSelectedActions_perm.mem_iff]
    have hbuckets : cloudGroups ctx.index ((buildBatchingBuckets ctx layer).flatMap fun b =>
        chunks (max 1 b.maxBatchSize).toNat (bucketMembers b)) ≤
          openedRequests ctx charged (bucketActions ctx layer) := by
      refine (cloudGroups_le_length _ _).trans ((length_flatMap_le
        fun b hb => length_chunks_bucket_le hagree hnd hids hlayer hcovered hb).trans ?_)
      refine (List.countP_congr fun a ha => ?_).le
      simp [isCloud_of_mem_bucketActions hndl hidl ha]
    have hrest : layer.countP (fun a => isCloud ctx a && !(bucketActions ctx layer).contains a) ≤
        openedRequests ctx charged
          (layer.filter fun a => !(bucketActions ctx layer).contains a) := by
      rw [openedRequests, List.countP_filter]
      refine List.countP_mono_left fun a ha hout => ?_
      obtain ⟨hca, hout⟩ := Bool.and_eq_true_iff.1 hout
      have hcharged := hopens ha hca (by simpa using hout)
      rw [hca, hcharged, hout]
      rfl
    have hsum : openedRequests ctx charged layer =
        openedRequests ctx charged (bucketActions ctx layer) + openedRequests ctx charged
          (layer.filter fun a => !(bucketActions ctx layer).contains a) := by
      rw [openedRequests, hperm.countP_eq, List.countP_append]
      rfl
    rw [hsum]
    refine le_trans (le_of_eq ?_) (Nat.add_le_add hbuckets hrest)
    rw [cloudGroups, List.countP_append]
    congr 1
    exact cloudGroups_unassigned _ [] layer (by simp)

/-! ## A batch -/

/-- **A batch whose calls are grouped as they were charged** is emitted in no more requests than
were charged. -/
theorem cloudGroups_le (hagree : EmittedAsCharged ctx selected) (hnd : selected.Nodup)
    (hids : ∀ a ∈ selected, a ≠ "") (hcovered : Covered ctx charged selected) :
    cloudGroups ctx.index (buildParallelGroups ctx selected).1 ≤
      openedRequests ctx charged selected := by
  have hparts : cloudGroups ctx.index
      (((groupingLayers ctx selected).map (groupSelectedActions ctx)).flatMap (·.1)) ≤
      openedRequests ctx charged selected := by
    have hlayers : ∀ layers : List (List String), layers ⊆ groupingLayers ctx selected →
        cloudGroups ctx.index ((layers.map (groupSelectedActions ctx)).flatMap (·.1)) ≤
          openedRequests ctx charged layers.flatten := by
      intro layers
      induction layers with
      | nil => exact fun _ => Nat.le_refl _
      | cons layer layers ih =>
        intro hsub
        rw [List.map_cons, List.flatMap_cons, List.flatten_cons, cloudGroups, openedRequests,
          List.countP_append, List.countP_append]
        exact Nat.add_le_add
          (cloudGroups_layer_le hagree hnd hids hcovered (hsub List.mem_cons_self))
          (ih fun x hx => hsub (List.mem_cons_of_mem layer hx))
    have hall := hlayers _ (List.Subset.refl _)
    rwa [openedRequests, (groupingLayers_perm ctx hnd).countP_eq] at hall
  unfold buildParallelGroups
  split_ifs
  · exact Nat.zero_le _
  · dsimp only
    rw [cloudGroups, (sortedBy_perm _ _).countP_eq]
    exact hparts
  · exact hparts

/-- One call needs one request. -/
theorem covered_singleton (a : String) : Covered ctx (fun _ => true) [a] := by
  intro bucket size hsize
  unfold bucketCalls bucketRequests
  simp only [Bool.and_true]
  by_cases hcalls : (isCloud ctx a && requestBucket ctx a = bucket) = true
  · obtain ⟨hcloud, hbucket⟩ := Bool.and_eq_true_iff.1 hcalls
    have hpos : 0 < size :=
      hsize a (List.mem_singleton_self a) hcloud (of_decide_eq_true hbucket) ▸ requestSize_pos ctx a
    exact Nat.le_mul_of_pos_left _ hpos
  · simp [hcalls]

variable {base : SchedulerPolicy} {dag : TypedDAG} {metrics : Dict} {target : OptimizationTarget}
  {plan : ExecutionPlan} {steps : List BatchStep}

/-- The batch of a round keeps the limit of the cloud calls. -/
theorem CompleteRun.cloudGroups_le (h : CompleteRun ctx steps) {s : BatchStep} (hs : s ∈ steps)
    (hids : ∀ a ∈ s.selection.selected, a ≠ "")
    (hagree : EmittedAsCharged ctx s.selection.selected) (idx : ℕ) :
    cloudGroups ctx.index (assembleBatch ctx idx s).parallelGroups ≤ ctx.derived.cloudLimit := by
  have hnd := h.nodup hs
  obtain ⟨hready, -, heq⟩ := h.step hs
  show (cloudGroups ctx.index (buildParallelGroups ctx s.selection.selected).1 : ℤ) ≤ _
  rw [heq] at hagree hnd hids ⊢
  rcases selectBatch_cases h.limits hready with ⟨st, hst, -, e⟩ | ⟨a, -, -, e⟩
  · rw [e] at hagree hnd hids ⊢
    obtain ⟨charged, hcharged⟩ := exists_charges hst
    have hle := Scheduler.cloudGroups_le hagree hnd hids hcharged.covered
    have hlimit := cloudCount_le h.limits hst
    rw [hcharged.total] at hlimit
    exact (Int.ofNat_le.2 hle).trans hlimit
  · rw [e] at hagree hnd hids ⊢
    have hle := Scheduler.cloudGroups_le hagree hnd hids (covered_singleton a)
    have hone : openedRequests ctx (fun _ => true) [a] ≤ 1 := List.countP_le_length
    have hlimit := h.limits.cloud
    dsimp only at hle ⊢
    omega

/-! ## The plan -/

/-- Every batch of the run is emitted as it was charged. -/
def EmittedAsChargedThroughout (base : SchedulerPolicy) (dag : TypedDAG) (metrics : Dict)
    (target : OptimizationTarget) : Prop :=
  ∀ ctx steps, prepare base dag metrics target = .ok ctx → scheduleSteps ctx = .ok steps →
    ∀ s ∈ steps, EmittedAsCharged ctx s.selection.selected

instance (ctx : Ctx) (layers : List (List String)) (a b : String) :
    Decidable (GroupedTogether ctx layers a b) :=
  decidable_of_iff
    (requestSize ctx a = requestSize ctx b ∧ (∃ layer ∈ layers, a ∈ layer ∧ b ∈ layer) ∧
      ∃ rule ∈ ctx.derived.batchRules, a ∈ rule.scope ∧ b ∈ rule.scope ∧
        bucketKey ctx rule.idempotentOnly actionBatchGroupValue rule.groupKey a ≠ "" ∧
        bucketKey ctx rule.idempotentOnly actionBatchGroupValue rule.groupKey b =
          bucketKey ctx rule.idempotentOnly actionBatchGroupValue rule.groupKey a ∧
        requestSize ctx a ≤ (max 1 rule.maxBatchSize).toNat)
    ⟨fun ⟨hsize, hlayer, hrule⟩ => ⟨hsize, hlayer, hrule⟩,
      fun ⟨hsize, hlayer, hrule⟩ => ⟨hsize, hlayer, hrule⟩⟩

instance (ctx : Ctx) (layer : List String) : Decidable (SoleClaims ctx layer) :=
  inferInstanceAs (Decidable (List.Pairwise _ _))

/-- The condition of a batch, with the claims counted in the buckets. -/
def emitsAsCharged (ctx : Ctx) (selected : List String) : Bool :=
  decide (∀ a ∈ selected, ∀ b ∈ selected, a ≠ b → isCloud ctx a = true → isCloud ctx b = true →
    requestBucket ctx a = requestBucket ctx b →
    GroupedTogether ctx (groupingLayers ctx selected) a b) &&
  decide (∀ layer ∈ groupingLayers ctx selected, layer.Nodup ∧ (∀ a ∈ layer, a ≠ "") ∧
    SoleClaims ctx layer)

theorem emittedAsCharged_of_check (h : emitsAsCharged ctx selected = true) :
    EmittedAsCharged ctx selected := by
  obtain ⟨htogether, honce⟩ := Bool.and_eq_true_iff.1 h
  refine ⟨of_decide_eq_true htogether, fun layer hlayer => ?_⟩
  obtain ⟨hnd, hids, hsole⟩ := of_decide_eq_true honce layer hlayer
  exact (soleClaims_iff hnd hids).1 hsole

/-- The condition of a whole run. -/
def emitsAsChargedThroughout (base : SchedulerPolicy) (dag : TypedDAG) (metrics : Dict)
    (target : OptimizationTarget) : Bool :=
  match prepare base dag metrics target with
  | .ok ctx =>
    match scheduleSteps ctx with
    | .ok steps => steps.all fun s => emitsAsCharged ctx s.selection.selected
    | .error _ => true
  | .error _ => true

theorem emittedAsChargedThroughout_of_check
    (h : emitsAsChargedThroughout base dag metrics target = true) :
    EmittedAsChargedThroughout base dag metrics target := by
  intro ctx steps h1 h2 s hs
  rw [emitsAsChargedThroughout, h1] at h
  dsimp only at h
  rw [h2] at h
  exact emittedAsCharged_of_check (List.all_eq_true.1 h s hs)

/-- Two status reads that name the same endpoint group, and do not call themselves idempotent. -/
def groupedTarget : OptimizationTarget where
  vdevActions := ["a", "b"].map fun id =>
    [("action_id", .str id), ("protocol", .str "CLOUD"), ("endpoint_group_key", .str "g"),
      ("target", .dict [("endpoint", .str "http://h/x"), ("kind", .str "status")])]

end FloWeaver.Scheduler
