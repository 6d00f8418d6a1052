import FloWeaver.Micro.ApiTimeline
import Mathlib.Algebra.BigOperators.Group.List.Basic
import Mathlib.Algebra.BigOperators.Ring.List

/-!
# The shares of the phases of a step

A total is split over phases by rounded shares, and whatever is missing or too much goes to the last
phase.  The durations add up to the total in any case; the last one is negative when the shares of
the others are rounded up by more than it is owed.

* `exactShare`, `roundedUp`, `owed` — shares before rounding, and what rounding adds.
* `RoundsWithin` — rounding adds no more than the last phase is owed.
* `lastDuration_eq` — what the last phase gets.
* `allocatePhaseDurations_sound_iff` — when no duration is negative.
-/

namespace FloWeaver.Micro.Api

open Py

section Shares

variable {ν : Type} (totalMs : ℤ) (specs : List (PhaseSpec ν))

/-- The share of a phase before it is rounded: of the total, or of what the shortest durations
leave. -/
def exactShare (spec : PhaseSpec ν) : ℚ :=
  let minTotal := (specs.map PhaseSpec.minMs).sum
  let weightTotal := ((specs.map PhaseSpec.weight).filter (0 < ·)).sum
  if totalMs ≤ minTotal then (totalMs : ℚ) * spec.minMs / minTotal
  else if weightTotal ≤ 0 then 0
  else ((totalMs - minTotal : ℤ) : ℚ) * spec.weight / weightTotal

/-- What rounding adds to a share. -/
def roundedUp (spec : PhaseSpec ν) : ℚ :=
  Val.roundHalfEven (exactShare totalMs specs spec) - exactShare totalMs specs spec

/-- What a phase has without its share. -/
def baseMs (spec : PhaseSpec ν) : ℤ :=
  if totalMs ≤ (specs.map PhaseSpec.minMs).sum then 0 else spec.minMs

/-- The duration of the last phase if nothing were rounded; without weights it takes all that the
shortest durations leave. -/
def owed (last : PhaseSpec ν) : ℚ :=
  let minTotal := (specs.map PhaseSpec.minMs).sum
  let weightTotal := ((specs.map PhaseSpec.weight).filter (0 < ·)).sum
  if minTotal < totalMs ∧ weightTotal ≤ 0 then last.minMs + (totalMs - minTotal : ℤ)
  else baseMs totalMs specs last + exactShare totalMs specs last

/-- The shares of the phases before the last are rounded up by no more than the last one is owed. -/
def RoundsWithin : Prop :=
  ∀ last ∈ specs.getLast?,
    (specs.dropLast.map (roundedUp totalMs specs)).sum ≤ owed totalMs specs last

/-- `durations[name]`. -/
def allotted [DecidableEq ν] (phase : ν) : ℤ :=
  ((allocatePhaseDurations totalMs specs).lookup phase).getD 0

end Shares

section Sound

variable {ν : Type} {totalMs : ℤ} {specs front : List (PhaseSpec ν)} {last : PhaseSpec ν}

/-- No phase has a negative shortest duration or weight. -/
def NonnegSpecs (specs : List (PhaseSpec ν)) : Prop :=
  ∀ spec ∈ specs, 0 ≤ spec.minMs ∧ 0 ≤ spec.weight

theorem NonnegSpecs.minTotal_nonneg (h : NonnegSpecs specs) :
    0 ≤ (specs.map PhaseSpec.minMs).sum :=
  List.sum_nonneg fun ms hms => by
    obtain ⟨spec, hspec, rfl⟩ := List.mem_map.1 hms
    exact (h spec hspec).1

/-- A weight of zero adds nothing. -/
theorem NonnegSpecs.weightTotal_eq (h : NonnegSpecs specs) :
    ((specs.map PhaseSpec.weight).filter (0 < ·)).sum = (specs.map PhaseSpec.weight).sum := by
  induction specs with
  | nil => rfl
  | cons spec specs ih =>
    have hrest := ih fun other hother => h other (List.mem_cons_of_mem _ hother)
    have hweight := (h spec List.mem_cons_self).2
    rw [List.map_cons, List.filter_cons]
    split_ifs with hpos
    · rw [List.sum_cons, List.sum_cons, hrest]
    · have hzero : spec.weight = 0 := le_antisymm (not_lt.1 (by simpa using hpos)) hweight
      rw [hrest, List.sum_cons, hzero, zero_add]

/-- What a phase before the last gets: its base, its share, and what rounding adds. -/
theorem cast_partOf (htotal : 0 ≤ totalMs) (h : NonnegSpecs specs) {spec : PhaseSpec ν}
    (hspec : spec ∈ specs) : (partOf totalMs specs spec : ℚ) =
      (baseMs totalMs specs spec + exactShare totalMs specs spec) + roundedUp totalMs specs spec := by
  have hmin := h.minTotal_nonneg
  obtain ⟨hspecMin, hspecWeight⟩ := h spec hspec
  rw [roundedUp, add_add_sub_cancel]
  simp only [partOf, baseMs, exactShare]
  split_ifs with hzero hscaled hweights
  · obtain rfl : totalMs = 0 := le_antisymm hzero htotal
    norm_num [Val.roundHalfEven]
  · omega
  · omega
  · rw [max_eq_right (shareOf_nonneg htotal hspecMin hmin), shareOf]
    norm_num
  · norm_num [Val.roundHalfEven]
  · rw [max_eq_right (shareOf_nonneg (by omega) hspecWeight (by omega)), shareOf]
    push_cast
    rfl

/-- Parts of a whole add up to the part that all of them are. -/
theorem sum_parts (total whole : ℚ) (f : PhaseSpec ν → ℤ) (specs : List (PhaseSpec ν)) :
    (specs.map fun spec => total * f spec / whole).sum = total * ((specs.map f).sum : ℤ) / whole := by
  induction specs with
  | nil => simp
  | cons spec specs ih =>
    rw [List.map_cons, List.sum_cons, ih, List.map_cons, List.sum_cons, Int.cast_add, mul_add, add_div]

/-- Without rounding the durations add up to the total. -/
theorem sum_owed (htotal : 0 ≤ totalMs) (h : NonnegSpecs (front ++ [last])) :
    (front.map fun spec => (baseMs totalMs (front ++ [last]) spec : ℚ) +
        exactShare totalMs (front ++ [last]) spec).sum + owed totalMs (front ++ [last]) last =
      totalMs := by
  have hmin := h.minTotal_nonneg
  have hweight := h.weightTotal_eq
  have hsplit : ∀ f : PhaseSpec ν → ℤ, ((front ++ [last]).map f).sum = (front.map f).sum + f last := by
    intro f
    rw [List.map_append, List.sum_append, List.map_singleton, List.sum_singleton]
  have hminSplit := hsplit PhaseSpec.minMs
  have hweightSplit := hsplit PhaseSpec.weight
  simp only [owed, baseMs, exactShare]
  rw [hweight]
  generalize ((front ++ [last]).map PhaseSpec.minMs).sum = minTotal at *
  generalize ((front ++ [last]).map PhaseSpec.weight).sum = weightTotal at *
  by_cases hscaled : totalMs ≤ minTotal
  · simp only [if_pos hscaled, not_lt.2 hscaled, false_and, if_false, Int.cast_zero, zero_add]
    rw [sum_parts, ← add_div, ← mul_add, ← Int.cast_add, ← hminSplit]
    rcases hmin.eq_or_lt with hzero | hpos
    · obtain rfl : totalMs = 0 := by omega
      simp
    · rw [mul_div_assoc, div_self (by exact_mod_cast hpos.ne'), mul_one]
  · have hbase : ∀ l : List (PhaseSpec ν), (l.map fun spec => (spec.minMs : ℚ)).sum =
        ((l.map PhaseSpec.minMs).sum : ℤ) := by
      intro l
      simpa using sum_parts 1 1 PhaseSpec.minMs l
    by_cases hnone : weightTotal ≤ 0
    · simp only [if_neg hscaled, not_le.1 hscaled, hnone, and_self, if_true, add_zero]
      rw [hbase, hminSplit]
      push_cast
      ring
    · simp only [if_neg hscaled, hnone, and_false, if_false]
      rw [List.sum_map_add, hbase, sum_parts]
      have hpos : (weightTotal : ℚ) ≠ 0 := by
        exact_mod_cast (not_le.1 hnone).ne'
      have hall : ((totalMs - minTotal : ℤ) : ℚ) * ((front.map PhaseSpec.weight).sum : ℤ) / weightTotal +
          ((totalMs - minTotal : ℤ) : ℚ) * last.weight / weightTotal = (totalMs - minTotal : ℤ) := by
        rw [← add_div, ← mul_add, ← Int.cast_add, ← hweightSplit, mul_div_assoc, div_self hpos, mul_one]
      rw [hminSplit] at hall ⊢
      push_cast at hall ⊢
      linarith

/-- The last phase gets what it is owed, less what rounding adds to the others. -/
theorem lastDuration_eq (htotal : 0 ≤ totalMs) (h : NonnegSpecs (front ++ [last])) :
    ((totalMs - (front.map (partOf totalMs (front ++ [last]))).sum : ℤ) : ℚ) =
      owed totalMs (front ++ [last]) last -
        (front.map (roundedUp totalMs (front ++ [last]))).sum := by
  have hparts : ∀ l : List (PhaseSpec ν), l ⊆ front ++ [last] →
      (((l.map (partOf totalMs (front ++ [last]))).sum : ℤ) : ℚ) =
        (l.map fun spec => (baseMs totalMs (front ++ [last]) spec : ℚ) +
          exactShare totalMs (front ++ [last]) spec).sum +
        (l.map (roundedUp totalMs (front ++ [last]))).sum := by
    intro l hl
    induction l with
    | nil => simp
    | cons spec l ih =>
      obtain ⟨hspec, hrest⟩ := List.cons_subset.1 hl
      rw [List.map_cons, List.sum_cons, Int.cast_add, ih hrest, cast_partOf htotal h hspec,
        List.map_cons, List.sum_cons, List.map_cons, List.sum_cons]
      ring
  have hsum := sum_owed htotal h
  rw [Int.cast_sub, hparts front (List.subset_append_left _ _)]
  linarith

end Sound

/-- For phases with distinct names, shortest durations and weights that are not negative, the
durations add up to the total; none is negative if and only if rounding adds no more to the phases
before the last than the last one is owed. -/
theorem allocatePhaseDurations_sound_iff {ν : Type} [DecidableEq ν] (totalMs : ℤ)
    (specs : List (PhaseSpec ν)) (htotal : 0 ≤ totalMs) (hne : specs ≠ [])
    (hnames : (specs.map PhaseSpec.phase).Nodup) (hspecs : NonnegSpecs specs) :
    ((∀ spec ∈ specs, 0 ≤ allotted totalMs specs spec.phase) ∧
        (specs.map fun spec => allotted totalMs specs spec.phase).sum = totalMs) ↔
      RoundsWithin totalMs specs := by
  obtain ⟨front, last, rfl⟩ : ∃ front last, specs = front ++ [last] :=
    ⟨specs.dropLast, specs.getLast hne, (List.dropLast_append_getLast hne).symm⟩
  have hrows := allocatePhaseDurations_append htotal front last
  have hnodup : ((allocatePhaseDurations totalMs (front ++ [last])).map Prod.fst).Nodup := by
    rw [hrows, List.map_append, List.map_map]
    rwa [List.map_append] at hnames
  have hfront : ∀ spec ∈ front, allotted totalMs (front ++ [last]) spec.phase =
      partOf totalMs (front ++ [last]) spec := by
    intro spec hspec
    have hrow : (spec.phase, partOf totalMs (front ++ [last]) spec) ∈
        allocatePhaseDurations totalMs (front ++ [last]) := by
      rw [hrows]
      exact List.mem_append_left _ (List.mem_map.2 ⟨spec, hspec, rfl⟩)
    rw [allotted, lookup_of_mem hnodup hrow, Option.getD_some]
  have hlast : allotted totalMs (front ++ [last]) last.phase =
      totalMs - (front.map (partOf totalMs (front ++ [last]))).sum := by
    have hrow : (last.phase, totalMs - (front.map (partOf totalMs (front ++ [last]))).sum) ∈
        allocatePhaseDurations totalMs (front ++ [last]) := by
      rw [hrows]
      exact List.mem_append_right _ (List.mem_singleton.2 rfl)
    rw [allotted, lookup_of_mem hnodup hrow, Option.getD_some]
  have hsum : ((front ++ [last]).map fun spec =>
      allotted totalMs (front ++ [last]) spec.phase).sum = totalMs := by
    rw [List.map_append, List.sum_append, List.map_congr_left hfront, List.map_singleton,
      List.sum_singleton, hlast, add_sub_cancel]
  have hlastIff : 0 ≤ allotted totalMs (front ++ [last]) last.phase ↔
      RoundsWithin totalMs (front ++ [last]) := by
    rw [hlast, ← Int.cast_nonneg_iff (R := ℚ), lastDuration_eq htotal hspecs, sub_nonneg, RoundsWithin,
      List.getLast?_concat, List.dropLast_concat]
    simp
  rw [and_iff_left hsum, List.forall_mem_append, List.forall_mem_singleton, hlastIff,
    and_iff_right_iff_imp]
  intro _ spec hspec
  rw [hfront spec hspec]
  have hmin := (hspecs spec (List.mem_append_left _ hspec)).1
  simp only [partOf]
  split_ifs <;> omega

/-- The phases of a cloud step that waits for a backoff. -/
def cloudSpecs (backoffMs : ℤ) : List (PhaseSpec APIMicroPhase) :=
  phaseSpecs { cloudBackoffWaitMs := backoffMs }
    { stepId := "s", batchId := "b", protocol := "CLOUD", phaseKind := .cloud,
      capabilityClass := "cloud_control", actionIds := ["a"], latencyMs := 450, hostKey := "",
      bucketKey := "", sessionKey := "", endpointKey := "", hasBackoffWait := true }

/-- A cloud step of 450 ms with a backoff of 220 ms. -/
theorem allocatePhaseDurations_sound_iff_cloud :
    ((∀ spec ∈ cloudSpecs 220, 0 ≤ allotted 450 (cloudSpecs 220) spec.phase) ∧
        ((cloudSpecs 220).map fun spec => allotted 450 (cloudSpecs 220) spec.phase).sum = 450) ↔
      RoundsWithin 450 (cloudSpecs 220) :=
  allocatePhaseDurations_sound_iff 450 (cloudSpecs 220) (by decide) (by decide) (by decide)
    (by unfold NonnegSpecs; decide)

/-- With a backoff of 6905 ms the last phase of a cloud step of 450 ms gets less than nothing. -/
theorem allocatePhaseDurations_negative :
    NonnegSpecs (cloudSpecs 6905) ∧
      allocatePhaseDurations 450 (cloudSpecs 6905) =
        [(.cloudAuthCheck, 1), (.cloudRateBudgetCheck, 1), (.apiPrepare, 1), (.apiSessionReady, 1),
          (.cloudRequestSend, 2), (.apiResponseRecv, 2), (.cloudBackoffWait, 442),
          (.apiParseNormalize, 1), (.apiAggregate, 1), (.cloudBatchGroupCommit, 1),
          (.haStateWrite, -3)] ∧
      ¬∀ (totalMs : ℤ) (specs : List (PhaseSpec APIMicroPhase)), 0 ≤ totalMs → specs ≠ [] →
        (specs.map PhaseSpec.phase).Nodup → NonnegSpecs specs →
        (∀ spec ∈ specs, 0 ≤ allotted totalMs specs spec.phase) ∧
          (specs.map fun spec => allotted totalMs specs spec.phase).sum = totalMs := by
  have hspecs : NonnegSpecs (cloudSpecs 6905) := by
    unfold NonnegSpecs
    decide
  have hrows : allocatePhaseDurations 450 (cloudSpecs 6905) =
      [(.cloudAuthCheck, 1), (.cloudRateBudgetCheck, 1), (.apiPrepare, 1), (.apiSessionReady, 1),
        (.cloudRequestSend, 2), (.apiResponseRecv, 2), (.cloudBackoffWait, 442),
        (.apiParseNormalize, 1), (.apiAggregate, 1), (.cloudBatchGroupCommit, 1),
        (.haStateWrite, -3)] := by decide +kernel
  refine ⟨hspecs, hrows, fun hall => ?_⟩
  have hwrite : (⟨.haStateWrite, 8, 3⟩ : PhaseSpec APIMicroPhase) ∈ cloudSpecs 6905 := by
    simp [cloudSpecs, phaseSpecs]
  have hnonneg := (hall 450 (cloudSpecs 6905) (by decide) (by decide) (by decide) hspecs).1 _ hwrite
  rw [allotted, hrows] at hnonneg
  exact absurd hnonneg (by decide)

end FloWeaver.Micro.Api
