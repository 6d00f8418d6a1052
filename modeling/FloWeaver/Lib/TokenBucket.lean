import Mathlib.Algebra.Order.Field.Basic
import Mathlib.Tactic.LinearCombination
import Mathlib.Tactic.Linarith

/-!
# Token buckets

A bucket holds at most `burst` tokens and gains `rate` tokens in a unit of time.  Whoever is
admitted takes a token.  Then an interval of length `T` sees at most `burst + rate * T`
admissions, however the admissions and the refills are spread.

* `Paid` — the bucket has paid for the admissions so far.
* `Paid.full`, `Paid.refill`, `Paid.take` — a new bucket, a refill and an admission.
* `Paid.within` — the bound for an interval.
-/

namespace TokenBucket

section Counts

variable {K : Type*} [LinearOrder K]

/-- The number of the times between two times. -/
def countWithin (times : List K) (t t' : K) : ℕ :=
  times.countP fun time => decide (t ≤ time) && decide (time ≤ t')

/-- The number of the times from a time on. -/
def countSince (times : List K) (t : K) : ℕ := times.countP fun time => decide (t ≤ time)

theorem countWithin_le_countSince (times : List K) (t t' : K) :
    countWithin times t t' ≤ countSince times t :=
  List.countP_mono_left fun _ _ h => (Bool.and_eq_true _ _ ▸ h).1

theorem countSince_eq_zero {times : List K} {t : K} (h : ∀ time ∈ times, time < t) :
    countSince times t = 0 :=
  List.countP_eq_zero.2 fun time htime => by simpa using h time htime

end Counts

variable {K : Type*} [Field K] [LinearOrder K] [IsStrictOrderedRing K]

/-- A bucket with `tokens` left at `updatedAt`, after admissions at the times of a list. -/
structure Paid (burst rate : K) (times : List K) (tokens updatedAt : K) : Prop where
  tokens_nonneg : 0 ≤ tokens
  tokens_le : tokens ≤ burst
  times_le : ∀ time ∈ times, time ≤ updatedAt
  since : ∀ t ≤ updatedAt, countSince times t + tokens ≤ burst + rate * (updatedAt - t)
  within : ∀ t t', t ≤ t' → countWithin times t t' ≤ burst + rate * (t' - t)

variable {burst rate tokens updatedAt : K} {times : List K}

/-- A new bucket is full. -/
theorem Paid.full (hburst : 0 ≤ burst) (hrate : 0 ≤ rate) (updatedAt : K) :
    Paid burst rate [] burst updatedAt where
  tokens_nonneg := hburst
  tokens_le := le_rfl
  times_le := by simp
  since t ht := by
    have hgain : 0 ≤ rate * (updatedAt - t) := mul_nonneg hrate (sub_nonneg.2 ht)
    simp only [countSince, List.countP_nil, Nat.cast_zero]
    linarith
  within t t' ht := by
    have hgain : 0 ≤ rate * (t' - t) := mul_nonneg hrate (sub_nonneg.2 ht)
    simp only [countWithin, List.countP_nil, Nat.cast_zero]
    linarith

/-- A refill, at the full rate or at a lower one. -/
theorem Paid.refill (h : Paid burst rate times tokens updatedAt) {now gain : K}
    (hnow : updatedAt ≤ now) (hgain : 0 ≤ gain) (hrate : gain ≤ rate) :
    Paid burst rate times (min burst (tokens + (now - updatedAt) * gain)) now where
  tokens_nonneg := le_min (h.tokens_nonneg.trans h.tokens_le)
    (add_nonneg h.tokens_nonneg (mul_nonneg (sub_nonneg.2 hnow) hgain))
  tokens_le := min_le_left _ _
  times_le time htime := (h.times_le time htime).trans hnow
  since t ht := by
    rcases le_or_gt t updatedAt with hle | hlt
    · have hsince := h.since t hle
      have hmin := min_le_right burst (tokens + (now - updatedAt) * gain)
      have hless : (now - updatedAt) * gain ≤ (now - updatedAt) * rate :=
        mul_le_mul_of_nonneg_left hrate (sub_nonneg.2 hnow)
      linear_combination hsince + hmin + hless
    · -- all the admissions are earlier
      rw [countSince_eq_zero fun time htime => (h.times_le time htime).trans_lt hlt]
      have hmin := min_le_left burst (tokens + (now - updatedAt) * gain)
      have hnonneg : 0 ≤ rate * (now - t) :=
        mul_nonneg (hgain.trans hrate) (sub_nonneg.2 ht)
      rw [Nat.cast_zero]
      linarith
  within := h.within

/-- An admission takes a token. -/
theorem Paid.take (h : Paid burst rate times tokens updatedAt) (hrate : 0 ≤ rate)
    (htoken : 1 ≤ tokens) :
    Paid burst rate (times ++ [updatedAt]) (tokens - 1) updatedAt := by
  have hsince : ∀ t ≤ updatedAt, countSince (times ++ [updatedAt]) t + (tokens - 1) ≤
      burst + rate * (updatedAt - t) := by
    intro t ht
    have hcount : countSince (times ++ [updatedAt]) t = countSince times t + 1 := by
      simp [countSince, List.countP_append, ht]
    have hbound := h.since t ht
    rw [hcount]
    push_cast
    linarith
  refine ⟨sub_nonneg.2 htoken, (sub_le_self _ zero_le_one).trans h.tokens_le, ?_, hsince, ?_⟩
  · intro time htime
    rcases List.mem_append.1 htime with htime | htime
    · exact h.times_le time htime
    · rw [List.mem_singleton.1 htime]
  · intro t t' ht
    by_cases hin : t ≤ updatedAt ∧ updatedAt ≤ t'
    · -- the admissions in the interval are among those since its start
      have hcount : (countWithin (times ++ [updatedAt]) t t' : K) ≤
          countSince (times ++ [updatedAt]) t :=
        Nat.cast_le.2 (countWithin_le_countSince _ t t')
      have hbound := hsince t hin.1
      have hgain : rate * (updatedAt - t) ≤ rate * (t' - t) :=
        mul_le_mul_of_nonneg_left (sub_le_sub_right hin.2 t) hrate
      linarith
    · have hcount : countWithin (times ++ [updatedAt]) t t' = countWithin times t t' := by
        simp only [countWithin, List.countP_append, List.countP_singleton, Bool.and_eq_true,
          decide_eq_true_iff, if_neg hin, Nat.add_zero]
      rw [hcount]
      exact h.within t t' ht

end TokenBucket
