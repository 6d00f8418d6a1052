import FloWeaver.Lib.TokenBucket
import FloWeaver.Runner.RateController
import Mathlib.Tactic.Positivity

/-!
# The rate ceiling

However the calls of the actions are interleaved, a bucket pays for every action that it lets
through.  It gains tokens at `max 0.1 (max_qps * 1000 / window_ms)` in a second, so this rate and
the burst bound the admissions in an interval; a downgrade only lowers the rate.

* `BucketOk`, `Good` — what holds of a bucket and of the controller in every state.
* `good_run` — it holds after every sequence of calls.
* `rate_ceiling` — the bounds on tokens, admissions and rates.
-/

namespace FloWeaver.Runner

namespace RateController

open Py TokenBucket

variable {controller : RateController} {clock : ℕ → ℚ}

/-- The rate at which a bucket is refilled at first. -/
abbrev topRate (controller : RateController) : ℚ := controller.tokensPerSecond controller.maxQps

theorem topRate_nonneg : 0 ≤ controller.topRate :=
  le_trans (by norm_num) (le_max_left (1 / 10 : ℚ) _)

theorem burst_nonneg : (0 : ℚ) ≤ controller.burst := by
  have h := controller.burst_ge
  exact_mod_cast (by omega : 0 ≤ controller.burst)

theorem tokensPerSecond_mono {q q' : ℚ} (h : q ≤ q') :
    controller.tokensPerSecond q ≤ controller.tokensPerSecond q' := by
  have hwindow : (0 : ℚ) < controller.windowMs := by
    have h := controller.windowMs_ge
    exact_mod_cast (by omega : 0 < controller.windowMs)
  exact max_le_max_left _ (mul_le_mul_of_nonneg_right h (by positivity))

/-! ## One bucket -/

/-- A bucket whose admissions were at the times of a list. -/
structure BucketOk (controller : RateController) (times : List ℚ) (bucket : Bucket) : Prop where
  burst_eq : bucket.burst = controller.burst
  maxQps_ge : 1 / 10 ≤ bucket.maxQps
  maxQps_le : bucket.maxQps ≤ controller.maxQps
  rate_nonneg : 0 ≤ bucket.tokensPerSecond
  rate_le : bucket.tokensPerSecond ≤ controller.topRate
  paid : Paid (controller.burst : ℚ) controller.topRate times bucket.tokens bucket.updatedAt

theorem bucketOk_newBucket (controller : RateController) (now : ℚ) :
    BucketOk controller [] (controller.newBucket now) where
  burst_eq := rfl
  maxQps_ge := controller.maxQps_ge
  maxQps_le := le_rfl
  rate_nonneg := topRate_nonneg
  rate_le := le_rfl
  paid := Paid.full burst_nonneg topRate_nonneg now

theorem BucketOk.refilled {times : List ℚ} {bucket : Bucket} (h : BucketOk controller times bucket)
    {now : ℚ} (hnow : bucket.updatedAt ≤ now) :
    BucketOk controller times (refilled now bucket) where
  burst_eq := h.burst_eq
  maxQps_ge := h.maxQps_ge
  maxQps_le := h.maxQps_le
  rate_nonneg := h.rate_nonneg
  rate_le := h.rate_le
  paid := by
    have hpaid := h.paid.refill hnow h.rate_nonneg h.rate_le
    rw [← h.burst_eq, ← max_eq_right (sub_nonneg.2 hnow)] at hpaid
    rw [← h.burst_eq]
    exact hpaid

/-- A new bucket is read off the clock after `now`, and set back to `now`. -/
theorem refilled_newBucket {now later : ℚ} (h : now ≤ later) :
    refilled now (controller.newBucket later) = controller.newBucket now := by
  have helapsed : max 0 (now - later) = 0 := max_eq_left (sub_nonpos.2 h)
  simp [refilled, newBucket, helapsed]

theorem rateScale_le_one (key : String) : rateScale key ≤ 1 := by
  rw [rateScale]
  split_ifs <;> norm_num

/-- A downgrade never raises the rate. -/
theorem maxQps_downgraded_le (controller : RateController) {bucket : Bucket}
    (h : 1 / 10 ≤ bucket.maxQps) (now : ℚ) (key : String) :
    (controller.downgraded now key bucket).maxQps ≤ bucket.maxQps :=
  max_le h (mul_le_of_le_one_right (le_trans (by norm_num) h) (rateScale_le_one key))

theorem BucketOk.downgraded {times : List ℚ} {bucket : Bucket}
    (h : BucketOk controller times bucket) (now : ℚ) (key : String) :
    BucketOk controller times (controller.downgraded now key bucket) where
  burst_eq := h.burst_eq
  maxQps_ge := le_max_left _ _
  maxQps_le := (maxQps_downgraded_le controller h.maxQps_ge now key).trans h.maxQps_le
  rate_nonneg := le_trans (by norm_num) (le_max_left (1 / 10 : ℚ) _)
  rate_le := tokensPerSecond_mono ((maxQps_downgraded_le controller h.maxQps_ge now key).trans h.maxQps_le)
  paid := by
    have htokens : min bucket.burst bucket.tokens = bucket.tokens :=
      min_eq_right (h.burst_eq ▸ h.paid.tokens_le)
    show Paid _ _ _ (min bucket.burst bucket.tokens) _
    rw [htokens]
    exact h.paid

theorem BucketOk.take {times : List ℚ} {bucket : Bucket} (h : BucketOk controller times bucket)
    (htoken : 1 ≤ bucket.tokens) :
    BucketOk controller (times ++ [bucket.updatedAt])
      { bucket with tokens := bucket.tokens - 1 } where
  burst_eq := h.burst_eq
  maxQps_ge := h.maxQps_ge
  maxQps_le := h.maxQps_le
  rate_nonneg := h.rate_nonneg
  rate_le := h.rate_le
  paid := h.paid.take topRate_nonneg htoken

/-! ## One key of the state -/

/-- A change of the bucket under a key. -/
def touch (controller : RateController) (clock : ℕ → ℚ) (change : Bucket → Bucket) (key : String)
    (state : State) : State :=
  let (bucket, state) := controller.bucketState clock key state
  state.setBucket key (change bucket)

/-- The bucket that a call finds under a key. -/
def found (controller : RateController) (clock : ℕ → ℚ) (key : String) (state : State) : Bucket :=
  (state.buckets.get? key).getD (controller.newBucket (clock state.ticks))

theorem bucketState_fst (key : String) (state : State) :
    (controller.bucketState clock key state).1 = controller.found clock key state := by
  rw [bucketState, found]
  cases state.buckets.get? key <;> rfl

theorem get?_touch (change : Bucket → Bucket) (key k : String) (state : State) :
    (controller.touch clock change key state).buckets.get? k =
      if k = key then some (change (controller.found clock key state))
      else state.buckets.get? k := by
  rw [touch, found, bucketState]
  cases hkey : state.buckets.get? key with
  | some bucket => exact OrderedDict.get?_set _ _ _ _
  | none =>
    show ((state.buckets.set key _).set key _).get? k = _
    rw [OrderedDict.get?_set, OrderedDict.get?_set]
    split_ifs <;> rfl

theorem ticks_le_touch (change : Bucket → Bucket) (key : String) (state : State) :
    state.ticks ≤ (controller.touch clock change key state).ticks := by
  rw [touch, bucketState]
  cases state.buckets.get? key with
  | some bucket => exact le_rfl
  | none => exact Nat.le_succ _

/-! ## The controller -/

/-- Every bucket is well kept, and was updated up to `limit` at the latest; a bucket that is not
there has let nobody through. -/
structure Good (controller : RateController) (limit : ℚ) (state : State)
    (times : String → List ℚ) : Prop where
  absent : ∀ key, state.buckets.get? key = none → times key = []
  ok : ∀ key bucket, state.buckets.get? key = some bucket →
    BucketOk controller (times key) bucket ∧ bucket.updatedAt ≤ limit

variable {limit now : ℚ} {state : State} {times : String → List ℚ}

theorem Good.mono (h : Good controller limit state times) {limit' : ℚ} (hle : limit ≤ limit') :
    Good controller limit' state times :=
  ⟨h.absent, fun key bucket hget => ⟨(h.ok key bucket hget).1, (h.ok key bucket hget).2.trans hle⟩⟩

theorem Good.tick (h : Good controller limit state times) :
    Good controller limit { state with ticks := state.ticks + 1 } times :=
  ⟨h.absent, h.ok⟩

/-- A change that keeps the bucket under a key in order. -/
theorem Good.touch (h : Good controller limit state times) {key : String}
    {change : Bucket → Bucket} {times' : String → List ℚ}
    (hother : ∀ k, k ≠ key → times' k = times k)
    (hbucket : BucketOk controller (times' key) (change (controller.found clock key state)) ∧
      (change (controller.found clock key state)).updatedAt ≤ limit) :
    Good controller limit (controller.touch clock change key state) times' where
  absent k hget := by
    rw [get?_touch] at hget
    split_ifs at hget with hk
    rw [hother k hk]
    exact h.absent k hget
  ok k bucket hget := by
    rw [get?_touch] at hget
    split_ifs at hget with hk
    · obtain rfl := Option.some.inj hget
      rw [hk]
      exact hbucket
    · rw [hother k hk]
      exact h.ok k bucket hget

/-- The bucket that a call finds is well kept. -/
theorem Good.found (h : Good controller limit state times) (key : String) :
    BucketOk controller (times key) (controller.found clock key state) := by
  rw [RateController.found]
  cases hget : state.buckets.get? key with
  | some bucket => exact (h.ok key bucket hget).1
  | none =>
    rw [h.absent key hget]
    exact bucketOk_newBucket _ _

/-- A bucket in a round of `acquire` is refilled up to `now`. -/
theorem Good.refill (h : Good controller now state times) (hnow : now ≤ clock state.ticks)
    (key : String) :
    Good controller now (controller.touch clock (refilled now) key state) times := by
  refine h.touch (fun _ _ => rfl) ⟨?_, le_rfl⟩
  cases hget : state.buckets.get? key with
  | some bucket =>
    rw [RateController.found, hget]
    exact (h.ok key bucket hget).1.refilled (h.ok key bucket hget).2
  | none =>
    rw [RateController.found, hget, h.absent key hget]
    show BucketOk controller [] (refilled now (controller.newBucket (clock state.ticks)))
    rw [refilled_newBucket hnow]
    exact bucketOk_newBucket controller now

/-- The buckets keep their rates, or lower them, and what else a relation says. -/
def Kept (relation : Bucket → Bucket → Prop) (state state' : State) : Prop :=
  ∀ key bucket, state.buckets.get? key = some bucket →
    ∃ bucket', state'.buckets.get? key = some bucket' ∧ relation bucket bucket'

theorem kept_touch {relation : Bucket → Bucket → Prop} (hrefl : ∀ bucket, relation bucket bucket)
    {change : Bucket → Bucket} {key : String}
    (hchange : ∀ bucket, state.buckets.get? key = some bucket → relation bucket (change bucket)) :
    Kept relation state (controller.touch clock change key state) := by
  intro k bucket hget
  rw [get?_touch]
  split_ifs with hk
  · subst hk
    refine ⟨_, rfl, ?_⟩
    rw [RateController.found, hget]
    exact hchange bucket hget
  · exact ⟨bucket, hget, hrefl bucket⟩

theorem Kept.trans {relation : Bucket → Bucket → Prop}
    (htrans : ∀ {a b c}, relation a b → relation b c → relation a c) {state' state'' : State}
    (h : Kept relation state state') (h' : Kept relation state' state'') :
    Kept relation state state'' := by
  intro key bucket hget
  obtain ⟨bucket', hget', hrel⟩ := h key bucket hget
  obtain ⟨bucket'', hget'', hrel'⟩ := h' key bucket' hget'
  exact ⟨bucket'', hget'', htrans hrel hrel'⟩

/-- The rate is not raised. -/
def NotRaised (bucket bucket' : Bucket) : Prop := bucket'.maxQps ≤ bucket.maxQps

theorem NotRaised.refl (bucket : Bucket) : NotRaised bucket bucket := le_refl bucket.maxQps

theorem NotRaised.trans {a b c : Bucket} (h : NotRaised a b) (h' : NotRaised b c) : NotRaised a c :=
  le_trans h' h

/-- A refill keeps the rate and the backoff. -/
def SameLimits (bucket bucket' : Bucket) : Prop :=
  bucket'.maxQps = bucket.maxQps ∧ bucket'.backoffUntil = bucket.backoffUntil

/-! ## A round of `acquire` -/

/-- A bucket that lets an action pass. -/
def Ready (now : ℚ) (state : State) (key : String) : Prop :=
  ∃ bucket, state.buckets.get? key = some bucket ∧ bucket.updatedAt = now ∧
    bucket.backoffUntil ≤ now ∧ 1 ≤ bucket.tokens

theorem visitBucket_eq (now : ℚ) (acc : State × List BucketWait) (key : String) :
    controller.visitBucket clock now acc key =
      (controller.touch clock (refilled now) key acc.1,
        acc.2 ++ (waitFor now key (refilled now (controller.found clock key acc.1))).toList) := by
  rw [← bucketState_fst]
  rfl

theorem waitFor_eq_none {key : String} {bucket : Bucket} (h : waitFor now key bucket = none) :
    bucket.backoffUntil ≤ now ∧ 1 ≤ bucket.tokens := by
  rw [waitFor] at h
  split_ifs at h with hbackoff htoken
  exact ⟨not_lt.1 hbackoff, htoken⟩

/-- The buckets are refilled one by one; without a wait all of them are ready. -/
theorem good_visits (hclock : Monotone clock) {keys : List String} (hkeys : keys.Nodup)
    (h : Good controller now state times) (hnow : now ≤ clock state.ticks)
    (waits : List BucketWait) :
    let acc := keys.foldl (controller.visitBucket clock now) (state, waits)
    Good controller now acc.1 times ∧ state.ticks ≤ acc.1.ticks ∧ Kept SameLimits state acc.1 ∧
      (∀ k, k ∉ keys → acc.1.buckets.get? k = state.buckets.get? k) ∧
      (acc.2 = [] → waits = [] ∧ ∀ key ∈ keys, Ready now acc.1 key) := by
  induction keys generalizing state waits with
  | nil =>
    exact ⟨h, le_rfl, fun key bucket hget => ⟨bucket, hget, rfl, rfl⟩, fun _ _ => rfl,
      fun hwaits => ⟨hwaits, by simp⟩⟩
  | cons key keys ih =>
    obtain ⟨hkey, hkeys⟩ := List.nodup_cons.1 hkeys
    have hticks : state.ticks ≤ (controller.touch clock (refilled now) key state).ticks :=
      ticks_le_touch (refilled now) key state
    have hfirst : Kept SameLimits state (controller.touch clock (refilled now) key state) :=
      kept_touch (fun _ => ⟨rfl, rfl⟩) fun _ _ => ⟨rfl, rfl⟩
    obtain ⟨hgood, hle, hkept, hother, hready⟩ := ih hkeys (h.refill hnow key)
      (hnow.trans (hclock hticks))
      (waits ++ (waitFor now key (refilled now (controller.found clock key state))).toList)
    rw [List.foldl_cons, visitBucket_eq]
    refine ⟨hgood, hticks.trans hle, ?_, ?_, ?_⟩
    · exact hfirst.trans (fun hab hbc => ⟨hbc.1.trans hab.1, hbc.2.trans hab.2⟩) hkept
    · intro k hk
      rw [List.mem_cons, not_or] at hk
      rw [hother k hk.2, get?_touch, if_neg hk.1]
    · intro hnil
      obtain ⟨hwaits, hrest⟩ := hready hnil
      rw [List.append_eq_nil_iff, Option.toList_eq_nil_iff] at hwaits
      refine ⟨hwaits.1, List.forall_mem_cons.2 ⟨?_, hrest⟩⟩
      obtain ⟨hbackoff, htoken⟩ := waitFor_eq_none hwaits.2
      refine ⟨refilled now (controller.found clock key state), ?_, rfl, hbackoff, htoken⟩
      rw [hother key hkey, get?_touch, if_pos rfl]

/-- Every bucket pays for the admission. -/
theorem good_takes {keys : List String} (hkeys : keys.Nodup)
    (h : Good controller now state times) (hready : ∀ key ∈ keys, Ready now state key) :
    let state' := keys.foldl (controller.takeToken clock) state
    Good controller now state' (fun k => if k ∈ keys then times k ++ [now] else times k) ∧
      state.ticks ≤ state'.ticks ∧
      Kept NotRaised state state' := by
  induction keys generalizing state times with
  | nil => exact ⟨by simpa using h, le_rfl, fun key bucket hget => ⟨bucket, hget, .refl bucket⟩⟩
  | cons key keys ih =>
    obtain ⟨hkey, hkeys⟩ := List.nodup_cons.1 hkeys
    obtain ⟨⟨bucket, hget, hupdated, -, htoken⟩, hrest⟩ := List.forall_mem_cons.1 hready
    have hfound : controller.found clock key state = bucket := by
      rw [RateController.found, hget]
      rfl
    let change : Bucket → Bucket := fun bucket => { bucket with tokens := bucket.tokens - 1 }
    have hgood : Good controller now (controller.touch clock change key state)
        (fun k => if k = key then times k ++ [now] else times k) := by
      refine h.touch (fun k hk => if_neg hk) ?_
      rw [hfound, if_pos rfl]
      refine ⟨?_, hupdated.le⟩
      rw [← hupdated]
      exact (h.ok key bucket hget).1.take htoken
    have hready' : ∀ k ∈ keys, Ready now (controller.touch clock change key state) k := by
      intro k hk
      obtain ⟨bucket', hget', hbucket'⟩ := hrest k hk
      refine ⟨bucket', ?_, hbucket'⟩
      have hne : k ≠ key := fun hsame => hkey (hsame ▸ hk)
      rw [get?_touch, if_neg hne]
      exact hget'
    obtain ⟨hgood', hle, hkept⟩ := ih hkeys hgood hready'
    rw [List.foldl_cons]
    refine ⟨?_, (ticks_le_touch change key state).trans hle, ?_⟩
    · have htimes : (fun k => if k ∈ key :: keys then times k ++ [now] else times k) =
          fun k => if k ∈ keys then (if k = key then times k ++ [now] else times k) ++ [now]
            else if k = key then times k ++ [now] else times k := by
        funext k
        by_cases hk : k = key
        · subst hk
          simp [hkey]
        · simp [hk]
      rw [htimes]
      exact hgood'
    · have hfirst : Kept NotRaised state (controller.touch clock change key state) :=
        kept_touch NotRaised.refl fun bucket _ => le_refl bucket.maxQps
      exact hfirst.trans (fun hab hbc => hab.trans hbc) hkept

theorem global_ne_append {kind : String} {c : Char} (hkind : kind.toList.head? = some c)
    (hc : c ≠ 'g') (token : String) : "global" ≠ kind ++ token := by
  intro heq
  have hlist : "global".toList = kind.toList ++ token.toList := by
    rw [← String.toList_append, ← heq]
  have hhead := congrArg List.head? hlist
  rw [List.head?_append, hkind] at hhead
  exact hc (Option.some.inj hhead).symm

theorem nodup_enforcedBucketKeys (controller : RateController) (actionId : String) :
    (controller.enforcedBucketKeys actionId).Nodup := by
  have hpair : ∀ key : String, "global" ≠ key → ["global", key].Nodup := fun key hne => by
    simpa using hne
  simp only [enforcedBucketKeys]
  split_ifs
  · exact hpair _ (global_ne_append (c := 'h') rfl (by decide) _)
  · exact hpair _ (global_ne_append (c := 'p') rfl (by decide) _)
  · exact List.nodup_singleton _
  · exact List.nodup_nil

/-- Looking at a bucket may create it. -/
theorem good_bucketState (hclock : Monotone clock) (key : String)
    (h : Good controller (clock state.ticks) state times) :
    let state' := (controller.bucketState clock key state).2
    Good controller (clock state'.ticks) state' times ∧ state.ticks ≤ state'.ticks ∧
      Kept NotRaised state state' := by
  rw [bucketState]
  cases hget : state.buckets.get? key with
  | some bucket => exact ⟨h, le_rfl, fun key bucket hget => ⟨bucket, hget, .refl bucket⟩⟩
  | none =>
    have hticks : clock state.ticks ≤ clock (state.ticks + 1) := hclock (Nat.le_succ _)
    have hset : ∀ k, (state.buckets.set key (controller.newBucket (clock state.ticks))).get? k =
        if k = key then some (controller.newBucket (clock state.ticks))
        else state.buckets.get? k := fun k => OrderedDict.get?_set _ _ _ _
    refine ⟨⟨fun k hk => ?_, fun k bucket hk => ?_⟩, Nat.le_succ _, fun k bucket hk => ?_⟩
    · replace hk := (hset k).symm.trans hk
      split_ifs at hk with hsame
      exact h.absent k hk
    · replace hk := (hset k).symm.trans hk
      split_ifs at hk with hsame
      · obtain rfl := Option.some.inj hk
        rw [hsame, h.absent key hget]
        exact ⟨bucketOk_newBucket _ _, hticks⟩
      · exact ⟨(h.ok k bucket hk).1, (h.ok k bucket hk).2.trans hticks⟩
    · have hne : k ≠ key := fun hsame => by
        rw [hsame, hget] at hk
        cases hk
      exact ⟨bucket, (hset k).trans ((if_neg hne).trans hk), .refl bucket⟩

/-- The buckets of an action after they are refilled, and the waits. -/
def visited (controller : RateController) (clock : ℕ → ℚ) (actionId : String) (state : State) :
    State × List BucketWait :=
  (controller.enforcedBucketKeys actionId).foldl
    (controller.visitBucket clock (clock state.ticks)) ({ state with ticks := state.ticks + 1 }, [])

theorem attempt_of_waits_nil {actionId : String} (hcloud : controller.isCloudAction actionId = true)
    (hwaits : (controller.visited clock actionId state).2 = []) :
    controller.attempt clock actionId state =
      ((controller.enforcedBucketKeys actionId).foldl (controller.takeToken clock)
        (controller.visited clock actionId state).1, .admitted (clock state.ticks)) := by
  have hvisited : (controller.enforcedBucketKeys actionId).foldl
      (controller.visitBucket clock (clock state.ticks))
      ({ state with ticks := state.ticks + 1 }, []) =
        ((controller.visited clock actionId state).1, []) := Prod.ext rfl hwaits
  rw [attempt, if_pos hcloud]
  simp only [hvisited]

theorem attempt_of_waits_cons {actionId : String} (hcloud : controller.isCloudAction actionId = true)
    {first : BucketWait} {rest : List BucketWait}
    (hwaits : (controller.visited clock actionId state).2 = first :: rest) :
    ∃ report, controller.attempt clock actionId state =
      ((controller.bucketState clock (longestWait first rest).bucket
        (controller.visited clock actionId state).1).2, .waits report) := by
  have hvisited : (controller.enforcedBucketKeys actionId).foldl
      (controller.visitBucket clock (clock state.ticks))
      ({ state with ticks := state.ticks + 1 }, []) =
        ((controller.visited clock actionId state).1, first :: rest) := Prod.ext rfl hwaits
  rw [attempt, if_pos hcloud]
  simp only [hvisited]
  exact ⟨_, rfl⟩

/-- The buckets after a round of refills. -/
theorem good_visited (hclock : Monotone clock) (actionId : String)
    (h : Good controller (clock state.ticks) state times) :
    Good controller (clock state.ticks) (controller.visited clock actionId state).1 times ∧
      clock state.ticks ≤ clock (controller.visited clock actionId state).1.ticks ∧
      Kept SameLimits state (controller.visited clock actionId state).1 ∧
      ((controller.visited clock actionId state).2 = [] →
        ∀ key ∈ controller.enforcedBucketKeys actionId,
          Ready (clock state.ticks) (controller.visited clock actionId state).1 key) := by
  have hnow : clock state.ticks ≤ clock (state.ticks + 1) := hclock (Nat.le_succ state.ticks)
  obtain ⟨hgood, hticks, hkept, -, hready⟩ := good_visits hclock
    (nodup_enforcedBucketKeys controller actionId) h.tick hnow []
  rw [visited]
  exact ⟨hgood, hnow.trans (hclock hticks), hkept, fun hwaits => (hready hwaits).2⟩

/-- A round of `acquire`: the state stays good, nothing is raised, and who is admitted has waited
for every bucket. -/
theorem good_attempt (hclock : Monotone clock) {actionId : String}
    (h : Good controller (clock state.ticks) state times) {state' : State} {outcome : Outcome}
    (hresult : controller.attempt clock actionId state = (state', outcome)) :
    Kept NotRaised state state' ∧
      (∀ now, outcome = .admitted now →
        (∀ key ∈ controller.enforcedBucketKeys actionId, ∀ bucket,
          state.buckets.get? key = some bucket → bucket.backoffUntil ≤ clock state.ticks) ∧
        Good controller (clock state'.ticks) state' (fun key =>
          if key ∈ controller.enforcedBucketKeys actionId then times key ++ [now]
          else times key)) ∧
      ((∀ now, outcome ≠ .admitted now) → Good controller (clock state'.ticks) state' times) := by
  by_cases hcloud : controller.isCloudAction actionId = true
  · obtain ⟨hvisited, hticks, hsame, hready⟩ := good_visited hclock actionId h
    have hkept : Kept NotRaised state (controller.visited clock actionId state).1 := by
      intro key bucket hget
      obtain ⟨bucket', hget', hqps, -⟩ := hsame key bucket hget
      exact ⟨bucket', hget', hqps.le⟩
    cases hwaits : (controller.visited clock actionId state).2 with
    | nil =>
      rw [attempt_of_waits_nil hcloud hwaits] at hresult
      obtain ⟨rfl, rfl⟩ := Prod.mk.inj hresult
      have hall := hready hwaits
      obtain ⟨htaken, hle, hkept'⟩ :=
        good_takes (nodup_enforcedBucketKeys controller actionId) hvisited hall
      refine ⟨hkept.trans (fun hab hbc => hab.trans hbc) hkept', ?_,
        fun hne => absurd rfl (hne (clock state.ticks))⟩
      rintro now ⟨⟩
      refine ⟨?_, htaken.mono (hticks.trans (hclock hle))⟩
      intro key hkey bucket hget
      obtain ⟨bucket', hget', -, hbackoff⟩ := hsame key bucket hget
      obtain ⟨found, hfound, -, hready', -⟩ := hall key hkey
      obtain rfl : bucket' = found := Option.some.inj (hget'.symm.trans hfound)
      rw [← hbackoff]
      exact hready'
    | cons first rest =>
      obtain ⟨report, heq⟩ := attempt_of_waits_cons hcloud hwaits
      rw [heq] at hresult
      obtain ⟨rfl, rfl⟩ := Prod.mk.inj hresult
      have hgood : Good controller (clock (controller.visited clock actionId state).1.ticks)
          (controller.visited clock actionId state).1 times := hvisited.mono hticks
      obtain ⟨hgood', -, hkept'⟩ := good_bucketState hclock (longestWait first rest).bucket hgood
      refine ⟨hkept.trans (fun hab hbc => hab.trans hbc) hkept', ?_, fun _ => hgood'⟩
      rintro now ⟨⟩
  · rw [attempt, if_neg hcloud] at hresult
    obtain ⟨rfl, rfl⟩ := Prod.mk.inj hresult
    refine ⟨fun key bucket hget => ⟨bucket, hget, .refl bucket⟩, ?_, fun _ => h⟩
    rintro now ⟨⟩

/-! ## A downgrade -/

theorem Good.downgrade (hclock : Monotone clock)
    (h : Good controller (clock state.ticks) state times) (now : ℚ) (key : String) :
    let state' := controller.touch clock (controller.downgraded now key) key state
    Good controller (clock state'.ticks) state' times ∧ Kept NotRaised state state' := by
  intro state'
  have hticks : clock state.ticks ≤ clock state'.ticks :=
    hclock (ticks_le_touch (controller.downgraded now key) key state)
  have hfound : (controller.found clock key state).updatedAt ≤ clock state.ticks := by
    rw [RateController.found]
    cases hget : state.buckets.get? key with
    | some bucket => exact (h.ok key bucket hget).2
    | none => exact le_rfl
  constructor
  · exact (h.mono hticks).touch (fun _ _ => rfl)
      ⟨(h.found key).downgraded now key, hfound.trans hticks⟩
  · exact kept_touch NotRaised.refl fun bucket hget =>
      maxQps_downgraded_le controller (h.ok key bucket hget).1.maxQps_ge now key

theorem good_downgrades (hclock : Monotone clock) (now : ℚ) (keys : List String)
    (h : Good controller (clock state.ticks) state times) (waitMs : ℤ)
    (rows : List DowngradedBucket) :
    let state' := (keys.foldl (controller.downgradeBucket clock now) (state, waitMs, rows)).1
    Good controller (clock state'.ticks) state' times ∧ Kept NotRaised state state' := by
  induction keys generalizing state waitMs rows with
  | nil => exact ⟨h, fun key bucket hget => ⟨bucket, hget, .refl bucket⟩⟩
  | cons key keys ih =>
    obtain ⟨hgood, hkept⟩ := h.downgrade hclock now key
    obtain ⟨hgood', hkept'⟩ := ih hgood
      (controller.downgradeBucket clock now (state, waitMs, rows) key).2.1
      (controller.downgradeBucket clock now (state, waitMs, rows) key).2.2
    exact ⟨hgood', hkept.trans (fun hab hbc => hab.trans hbc) hkept'⟩

theorem noteRateLimit_fst (actionId error : String) (state : State) :
    (controller.noteRateLimit clock actionId error state).1 =
      if controller.isCloudAction actionId then
        ((controller.enforcedBucketKeys actionId).foldl
          (controller.downgradeBucket clock (clock state.ticks))
          ({ state with ticks := state.ticks + 1 }, 0, [])).1
      else state := by
  rw [noteRateLimit]
  split_ifs <;> rfl

/-- A rate limit error keeps the state good and raises nothing. -/
theorem good_noteRateLimit (hclock : Monotone clock) (actionId error : String)
    (h : Good controller (clock state.ticks) state times) :
    Good controller (clock (controller.noteRateLimit clock actionId error state).1.ticks)
        (controller.noteRateLimit clock actionId error state).1 times ∧
      Kept NotRaised state (controller.noteRateLimit clock actionId error state).1 := by
  rw [noteRateLimit_fst]
  split_ifs
  · have hstart : Good controller (clock (state.ticks + 1))
        { state with ticks := state.ticks + 1 } times :=
      h.tick.mono (hclock (Nat.le_succ state.ticks))
    exact good_downgrades hclock (clock state.ticks) (controller.enforcedBucketKeys actionId)
      hstart 0 []
  · exact ⟨h, fun key bucket hget => ⟨bucket, hget, .refl bucket⟩⟩

/-! ## Runs -/

/-- When actions were admitted to a bucket. -/
def admissionTimes (log : List Admission) (key : String) : List ℚ :=
  (log.filter fun admission => admission.buckets.contains key).map (·.time)

theorem admissionTimes_append (log : List Admission) (admission : Admission) :
    admissionTimes (log ++ [admission]) = fun key =>
      if key ∈ admission.buckets then admissionTimes log key ++ [admission.time]
      else admissionTimes log key := by
  funext key
  by_cases hkey : key ∈ admission.buckets <;> simp [admissionTimes, List.filter_append, hkey]

/-- A state that is good for the log of the admissions. -/
def Logged (controller : RateController) (clock : ℕ → ℚ) (acc : State × List Admission) : Prop :=
  Good controller (clock acc.1.ticks) acc.1 (admissionTimes acc.2)

/-- One call. -/
theorem logged_step (hclock : Monotone clock) {acc : State × List Admission}
    (h : Logged controller clock acc) (call : Call) :
    Logged controller clock (controller.step clock acc call) ∧
      Kept NotRaised acc.1 (controller.step clock acc call).1 := by
  cases call with
  | noteRateLimit actionId error =>
    rw [step, Logged]
    dsimp only
    exact good_noteRateLimit hclock actionId error h
  | acquire actionId =>
    rw [step]
    generalize hresult : controller.attempt clock actionId acc.1 = result
    obtain ⟨state', outcome⟩ := result
    obtain ⟨hkept, hadmitted, hother⟩ := good_attempt hclock h hresult
    cases outcome with
    | notCloud => exact ⟨hother fun _ hne => Outcome.noConfusion hne, hkept⟩
    | waits report => exact ⟨hother fun _ hne => Outcome.noConfusion hne, hkept⟩
    | admitted now =>
      refine ⟨?_, hkept⟩
      rw [Logged]
      show Good controller _ _ (admissionTimes (acc.2 ++ [_]))
      rw [admissionTimes_append]
      exact (hadmitted now rfl).2

theorem run_append (calls : List Call) (call : Call) :
    controller.run clock (calls ++ [call]) =
      controller.step clock (controller.run clock calls) call := by
  rw [run, run, List.foldl_append, List.foldl_cons, List.foldl_nil]

/-- Every sequence of calls. -/
theorem logged_run (hclock : Monotone clock) (calls : List Call) :
    Logged controller clock (controller.run clock calls) := by
  induction calls using List.reverseRecOn with
  | nil =>
    refine ⟨fun _ _ => rfl, fun key bucket hget => ?_⟩
    have hnone : (OrderedDict.empty : OrderedDict String Bucket).get? key = none := rfl
    cases hnone.symm.trans hget
  | append_singleton calls call ih =>
    rw [run_append]
    exact (logged_step hclock ih call).1

theorem kept_run_append (hclock : Monotone clock) (calls more : List Call) :
    Kept NotRaised (controller.run clock calls).1 (controller.run clock (calls ++ more)).1 := by
  induction more using List.reverseRecOn with
  | nil =>
    rw [List.append_nil]
    exact fun key bucket hget => ⟨bucket, hget, .refl bucket⟩
  | append_singleton more call ih =>
    refine ih.trans (fun hab hbc => hab.trans hbc) ?_
    rw [← List.append_assoc, run_append]
    exact (logged_step hclock (logged_run hclock (calls ++ more)) call).2

/-- After any interleaving of calls: a bucket holds between no tokens and `burst` tokens, nobody is
admitted to it before its backoff is over, its rate is never raised, and an interval of `T` seconds
sees at most `burst + rate * T` admissions, where `rate` is the number of tokens in a second. -/
theorem rate_ceiling (controller : RateController) {clock : ℕ → ℚ} (hclock : Monotone clock)
    (calls : List Call) (key : String) :
    let state := (controller.run clock calls).1
    let times := admissionTimes (controller.run clock calls).2 key
    (∀ bucket, state.buckets.get? key = some bucket →
        0 ≤ bucket.tokens ∧ bucket.tokens ≤ controller.burst) ∧
      (∀ actionId now, key ∈ controller.enforcedBucketKeys actionId →
        (controller.attempt clock actionId state).2 = .admitted now →
          ∀ bucket, state.buckets.get? key = some bucket →
            bucket.backoffUntil ≤ clock state.ticks) ∧
      (∀ more bucket, state.buckets.get? key = some bucket →
        ∃ bucket', (controller.run clock (calls ++ more)).1.buckets.get? key = some bucket' ∧
          bucket'.maxQps ≤ bucket.maxQps) ∧
      (∀ t t', t ≤ t' → countWithin times t t' ≤ controller.burst +
        max (1 / 10) (controller.maxQps * (1000 / controller.windowMs)) * (t' - t)) ∧
      (1000 ≤ controller.windowMs → ∀ t t', t ≤ t' → countWithin times t t' ≤
        controller.burst + controller.maxQps * (t' - t)) := by
  intro state times
  have hgood : Good controller (clock state.ticks) state
      (admissionTimes (controller.run clock calls).2) := logged_run hclock calls
  have hceiling : ∀ t t', t ≤ t' → countWithin times t t' ≤ controller.burst +
      controller.topRate * (t' - t) := by
    intro t t' ht
    cases hget : state.buckets.get? key with
    | some bucket => exact (hgood.ok key bucket hget).1.paid.within t t' ht
    | none =>
      rw [show times = [] from hgood.absent key hget]
      exact (bucketOk_newBucket controller 0).paid.within t t' ht
  refine ⟨?_, ?_, ?_, hceiling, ?_⟩
  · intro bucket hget
    exact ⟨(hgood.ok key bucket hget).1.paid.tokens_nonneg,
      (hgood.ok key bucket hget).1.paid.tokens_le⟩
  · intro actionId now hkey hadmitted bucket hget
    generalize hresult : controller.attempt clock actionId state = result at hadmitted
    obtain ⟨state', outcome⟩ := result
    obtain ⟨-, hpassed, -⟩ := good_attempt hclock hgood hresult
    exact (hpassed now hadmitted).1 key hkey bucket hget
  · intro more bucket hget
    exact kept_run_append hclock calls more key bucket hget
  · intro hwindow t t' ht
    -- a window of a second or more gives no more tokens than `max_qps`
    have hrate : controller.topRate ≤ controller.maxQps := by
      have hms : (1000 : ℚ) ≤ controller.windowMs := by exact_mod_cast hwindow
      refine max_le controller.maxQps_ge (mul_le_of_le_one_right ?_ ?_)
      · exact le_trans (by norm_num) controller.maxQps_ge
      · exact div_le_one_of_le₀ hms (by linarith)
    have hgain : controller.topRate * (t' - t) ≤ controller.maxQps * (t' - t) :=
      mul_le_mul_of_nonneg_right hrate (sub_nonneg.2 ht)
    exact (hceiling t t' ht).trans (by linarith)

/-- A clock that is read every twentieth of a second. -/
def steadyClock (n : ℕ) : ℚ := n / 20

theorem steadyClock_mono : Monotone steadyClock := fun n m h => by
  have hcast : (n : ℚ) ≤ m := Nat.cast_le.2 h
  simp only [steadyClock]
  linarith

/-- One request in a window, for one action. -/
def oneRequestPolicy (windowMs : ℤ) : Dict :=
  [("max_qps", .int 1), ("burst", .int 1), ("window_ms", .int windowMs)]

def oneCloudAction : Actions := [("a", [("protocol", .str "CLOUD")])]

/-- A controller for one request in a second. -/
def oneRequestController : RateController where
  batchId := "batch"
  actions := oneCloudAction
  maxQps := 1
  burst := 1
  windowMs := 1000
  backoff := {}
  maxQps_ge := by norm_num
  burst_ge := le_rfl
  windowMs_ge := by norm_num

/-- Two calls within a second, of which the second one waits. -/
theorem rate_ceiling_two_calls :
    (countWithin (admissionTimes
      (oneRequestController.run steadyClock [.acquire "a", .acquire "a"]).2 "global") 0 1 : ℚ) ≤
        1 + 1 * (1 - 0) := by
  have hceiling := (rate_ceiling oneRequestController steadyClock_mono
    [.acquire "a", .acquire "a"] "global").2.2.2.2 le_rfl 0 1 zero_le_one
  have hburst : (oneRequestController.burst : ℚ) = 1 := Int.cast_one
  rwa [hburst] at hceiling

/-- In a window of a tenth of a second two calls pass within a tenth of a second. -/
theorem rate_ceiling_short_window :
    (ofPolicy "batch" (oneRequestPolicy 100) oneCloudAction).map (fun controller =>
        (controller.maxQps, controller.burst, countWithin (admissionTimes
          (controller.run steadyClock [.acquire "a", .acquire "a"]).2 "global") 0 (1 / 10))) =
      .ok (1, 1, 2) ∧ ¬ (2 : ℚ) ≤ 1 + 1 * (1 / 10 - 0) := by
  constructor
  · decide +kernel
  · norm_num

end RateController

end FloWeaver.Runner
