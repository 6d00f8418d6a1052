import FloWeaver.Micro.Api
import Mathlib.Algebra.Order.BigOperators.Group.List

/-!
# The time line of an API corridor

The phases of a step take its latency in all.  A step is placed by the one before it: it sends its
request after the write of that step, so the writes follow each other, and every millisecond that is
prepared earlier is saved.

* `msOf_phaseSequence` — the phases of a step take its latency.
* `allotted_of_lt` — when no phase gets less than nothing.
* `PlacedStep`, `placeNext` — where the phases of a step are.
* `expandRefinedSteps_eq` — the events of a corridor are those of its placed steps.
* `lastEnd_corridorEvents` — how long a refined corridor takes.
-/

namespace FloWeaver.Micro.Api

open Py
open Spans (neighbours)

/-! ## Durations -/

section Rounding

theorem roundHalfEven_le_floor_add_one (q : ℚ) : Val.roundHalfEven q ≤ ⌊q⌋ + 1 := by
  simp only [Val.roundHalfEven]
  split_ifs <;> omega

theorem floor_le_roundHalfEven (q : ℚ) : ⌊q⌋ ≤ Val.roundHalfEven q := by
  simp only [Val.roundHalfEven]
  split_ifs <;> omega

/-- Rounding keeps the order. -/
theorem roundHalfEven_mono {q r : ℚ} (h : q ≤ r) : Val.roundHalfEven q ≤ Val.roundHalfEven r := by
  rcases (Int.floor_le_floor h).lt_or_eq with hlt | heq
  · calc Val.roundHalfEven q ≤ ⌊q⌋ + 1 := roundHalfEven_le_floor_add_one q
      _ ≤ ⌊r⌋ := hlt
      _ ≤ Val.roundHalfEven r := floor_le_roundHalfEven r
  · have hfract : q - ⌊q⌋ ≤ r - ⌊q⌋ := sub_le_sub_right h _
    simp only [Val.roundHalfEven, ← heq]
    split_ifs <;> first | omega | linarith

theorem roundHalfEven_nonneg {q : ℚ} (h : 0 ≤ q) : 0 ≤ Val.roundHalfEven q :=
  (Int.floor_nonneg.2 h).trans (floor_le_roundHalfEven q)

/-- A number is rounded up by a half at most. -/
theorem roundHalfEven_le (q : ℚ) : (Val.roundHalfEven q : ℚ) ≤ q + 1 / 2 := by
  have hfloor : (⌊q⌋ : ℚ) ≤ q := Int.floor_le q
  simp only [Val.roundHalfEven]
  split_ifs <;> push_cast <;> linarith

/-- Of two parts of a total, the larger one has the larger share. -/
theorem shareOf_mono {total a b whole : ℤ} (htotal : 0 ≤ total) (hwhole : 0 ≤ whole) (h : a ≤ b) :
    shareOf total a whole ≤ shareOf total b whole := by
  refine roundHalfEven_mono (div_le_div_of_nonneg_right ?_ (by exact_mod_cast hwhole))
  exact mul_le_mul_of_nonneg_left (by exact_mod_cast h) (by exact_mod_cast htotal)

theorem shareOf_nonneg {total part whole : ℤ} (htotal : 0 ≤ total) (hpart : 0 ≤ part)
    (hwhole : 0 ≤ whole) : 0 ≤ shareOf total part whole := by
  refine roundHalfEven_nonneg (div_nonneg (mul_nonneg ?_ ?_) ?_) <;> exact_mod_cast ‹_›

end Rounding

section Allocation

variable {ν : Type}

/-- What a phase that is not the last one gets. -/
def partOf (totalMs : ℤ) (specs : List (PhaseSpec ν)) (spec : PhaseSpec ν) : ℤ :=
  let minTotal := (specs.map PhaseSpec.minMs).sum
  let weightTotal := ((specs.map PhaseSpec.weight).filter (0 < ·)).sum
  if totalMs ≤ 0 then 0
  else if totalMs ≤ minTotal then max 0 (shareOf totalMs spec.minMs minTotal)
  else spec.minMs +
    max 0 (if weightTotal ≤ 0 then 0 else shareOf (totalMs - minTotal) spec.weight weightTotal)

variable {totalMs : ℤ}

theorem scaledDurations_append (totalMs minTotal scaledTotal : ℤ) (front : List (PhaseSpec ν))
    (last : PhaseSpec ν) : ∃ ms, scaledDurations totalMs minTotal scaledTotal (front ++ [last]) =
      (front.map fun spec => (spec.phase, max 0 (shareOf totalMs spec.minMs minTotal))) ++
        [(last.phase, ms)] := by
  induction front generalizing scaledTotal with
  | nil => exact ⟨_, rfl⟩
  | cons spec front ih =>
    obtain ⟨ms, hms⟩ := ih (scaledTotal + max 0 (shareOf totalMs spec.minMs minTotal))
    refine ⟨ms, ?_⟩
    rw [List.cons_append, scaledDurations, hms]
    · rfl
    · simp

theorem extendedDurations_append (remaining weightTotal allocated : ℤ) (front : List (PhaseSpec ν))
    (last : PhaseSpec ν) : ∃ ms, extendedDurations remaining weightTotal allocated (front ++ [last]) =
      (front.map fun spec => (spec.phase, spec.minMs +
        max 0 (if weightTotal ≤ 0 then 0 else shareOf remaining spec.weight weightTotal))) ++
        [(last.phase, ms)] := by
  induction front generalizing allocated with
  | nil => exact ⟨_, rfl⟩
  | cons spec front ih =>
    obtain ⟨ms, hms⟩ := ih (allocated +
      if weightTotal ≤ 0 then 0 else shareOf remaining spec.weight weightTotal)
    refine ⟨ms, ?_⟩
    rw [List.cons_append, extendedDurations, hms]
    · rfl
    · simp

theorem addDrift_append (durations : List (ν × ℤ)) (phase : ν) (ms : ℤ) :
    addDrift totalMs (durations ++ [(phase, ms)]) =
      durations ++ [(phase, totalMs - (durations.map Prod.snd).sum)] := by
  simp only [addDrift, List.getLast?_concat, List.dropLast_concat, List.map_append,
    List.sum_append, List.map_cons, List.map_nil, List.sum_singleton]
  congr 3
  omega

/-- Every phase gets its part, and the last one what is left. -/
theorem allocatePhaseDurations_append (htotal : 0 ≤ totalMs) (front : List (PhaseSpec ν))
    (last : PhaseSpec ν) : allocatePhaseDurations totalMs (front ++ [last]) =
      (front.map fun spec => (spec.phase, partOf totalMs (front ++ [last]) spec)) ++
        [(last.phase, totalMs - (front.map (partOf totalMs (front ++ [last]))).sum)] := by
  have hsum : ∀ part : PhaseSpec ν → ℤ,
      ((front.map fun spec => (spec.phase, part spec)).map Prod.snd).sum =
        (front.map part).sum := by
    intro part
    rw [List.map_map]
    rfl
  simp only [allocatePhaseDurations]
  by_cases hzero : totalMs ≤ 0
  · obtain rfl : totalMs = 0 := le_antisymm hzero htotal
    have hpart : partOf 0 (front ++ [last]) = fun _ => 0 := rfl
    rw [hpart]
    simp
  rw [if_neg hzero]
  by_cases hscaled : totalMs ≤ ((front ++ [last]).map PhaseSpec.minMs).sum
  · have hpart : partOf totalMs (front ++ [last]) = fun spec =>
        max 0 (shareOf totalMs spec.minMs ((front ++ [last]).map PhaseSpec.minMs).sum) := by
      funext spec
      simp only [partOf, if_neg hzero, if_pos hscaled]
    obtain ⟨ms, hms⟩ := scaledDurations_append totalMs
      ((front ++ [last]).map PhaseSpec.minMs).sum 0 front last
    rw [if_pos hscaled, hms, addDrift_append, hsum, hpart]
  · have hpart : partOf totalMs (front ++ [last]) = fun spec => spec.minMs +
        max 0 (if (((front ++ [last]).map PhaseSpec.weight).filter (0 < ·)).sum ≤ 0 then 0
          else shareOf (totalMs - ((front ++ [last]).map PhaseSpec.minMs).sum) spec.weight
            (((front ++ [last]).map PhaseSpec.weight).filter (0 < ·)).sum) := by
      funext spec
      simp only [partOf, if_neg hzero, if_neg hscaled]
    obtain ⟨ms, hms⟩ := extendedDurations_append
      (totalMs - ((front ++ [last]).map PhaseSpec.minMs).sum)
      (((front ++ [last]).map PhaseSpec.weight).filter (0 < ·)).sum 0 front last
    rw [if_neg hscaled, hms, addDrift_append, hsum, hpart]

/-- A phase that must be longer and weighs more gets more. -/
theorem partOf_mono {specs : List (PhaseSpec ν)} {a b : PhaseSpec ν} (hmin : a.minMs ≤ b.minMs)
    (hweight : a.weight ≤ b.weight) : partOf totalMs specs a ≤ partOf totalMs specs b := by
  simp only [partOf]
  split_ifs with hzero hscaled hweights
  · exact le_rfl
  · exact max_le_max_left 0 (shareOf_mono (by omega) (by omega) hmin)
  · exact add_le_add_left hmin _
  · exact add_le_add hmin (max_le_max_left 0 (shareOf_mono (by omega) (by omega) hweight))

/-- What the phases but the last get, when there is time for all of them. -/
theorem sum_partOf_le {specs front : List (PhaseSpec ν)} (htotal : 0 < totalMs)
    (hmin : (specs.map PhaseSpec.minMs).sum < totalMs)
    (hweights : 0 < ((specs.map PhaseSpec.weight).filter (0 < ·)).sum)
    (hweight : ∀ spec ∈ front, 0 ≤ spec.weight) :
    (((front.map (partOf totalMs specs)).sum : ℤ) : ℚ) ≤
      (((front.map PhaseSpec.minMs).sum : ℤ) : ℚ) +
        ((totalMs - (specs.map PhaseSpec.minMs).sum : ℤ) : ℚ) *
          ((front.map PhaseSpec.weight).sum : ℤ) /
          (((specs.map PhaseSpec.weight).filter (0 < ·)).sum : ℤ) + (front.length : ℚ) / 2 := by
  induction front with
  | nil => simp
  | cons spec front ih =>
    have hrest := ih fun other hother => hweight other (List.mem_cons_of_mem spec hother)
    have hpart : partOf totalMs specs spec = spec.minMs +
        shareOf (totalMs - (specs.map PhaseSpec.minMs).sum) spec.weight
          ((specs.map PhaseSpec.weight).filter (0 < ·)).sum := by
      simp only [partOf]
      rw [if_neg (not_le.2 htotal), if_neg (not_le.2 hmin), if_neg (not_le.2 hweights),
        max_eq_right (shareOf_nonneg (by omega) (hweight spec List.mem_cons_self) hweights.le)]
    have hshare := roundHalfEven_le
      (((totalMs - (specs.map PhaseSpec.minMs).sum : ℤ) : ℚ) * (spec.weight : ℚ) /
        ((((specs.map PhaseSpec.weight).filter (0 < ·)).sum : ℤ) : ℚ))
    rw [List.map_cons, List.sum_cons, hpart, List.map_cons, List.sum_cons, List.map_cons,
      List.sum_cons, List.length_cons, shareOf]
    push_cast at hrest hshare ⊢
    rw [mul_add, add_div]
    linarith

end Allocation

section Phases

variable {policy : APIMicroRefinementPolicy} {step : APIBatchStep}

/-- The duration of some phases of a step. -/
def msOf (policy : APIMicroRefinementPolicy) (step : APIBatchStep) (phases : List APIMicroPhase) :
    ℤ :=
  (phases.map (durationOf policy step)).sum

theorem nodup_phaseSequence (kind : APIPhaseKind) : (phaseSequence kind).Nodup := by
  cases kind <;> decide

theorem map_phase_phaseSpecs (policy : APIMicroRefinementPolicy) (step : APIBatchStep) :
    (phaseSpecs policy step).map PhaseSpec.phase = phaseSequence step.phaseKind := by
  rw [phaseSpecs]
  cases step.phaseKind <;> rfl

/-- The write is the last phase. -/
theorem phaseSpecs_eq (policy : APIMicroRefinementPolicy) (step : APIBatchStep) :
    ∃ last : PhaseSpec APIMicroPhase, last.phase = .haStateWrite ∧
      phaseSpecs policy step = (phaseSpecs policy step).dropLast ++ [last] := by
  rw [phaseSpecs]
  cases step.phaseKind <;> exact ⟨_, rfl, rfl⟩

/-- The phases of a step with their durations. -/
theorem phaseDurations_eq (h : 0 ≤ step.latencyMs) :
    phaseDurations policy step = ((phaseSpecs policy step).dropLast.map fun spec =>
      (spec.phase, partOf step.latencyMs (phaseSpecs policy step) spec)) ++
        [(.haStateWrite, step.latencyMs - ((phaseSpecs policy step).dropLast.map
          (partOf step.latencyMs (phaseSpecs policy step))).sum)] := by
  obtain ⟨last, hlast, hspecs⟩ := phaseSpecs_eq policy step
  rw [phaseDurations]
  generalize phaseSpecs policy step = specs at hspecs ⊢
  generalize specs.dropLast = front at hspecs ⊢
  subst hspecs
  rw [allocatePhaseDurations_append h, hlast]

theorem map_fst_phaseDurations (policy : APIMicroRefinementPolicy) (h : 0 ≤ step.latencyMs) :
    (phaseDurations policy step).map Prod.fst = phaseSequence step.phaseKind := by
  obtain ⟨last, hlast, hspecs⟩ := phaseSpecs_eq policy step
  rw [phaseDurations_eq h, ← map_phase_phaseSpecs policy step]
  generalize partOf step.latencyMs (phaseSpecs policy step) = part
  conv_rhs => rw [hspecs]
  rw [List.map_append, List.map_append, List.map_map, List.map_cons, List.map_cons, hlast]
  rfl

theorem durationOf_of_mem (h : 0 ≤ step.latencyMs) {row : APIMicroPhase × ℤ}
    (hrow : row ∈ phaseDurations policy step) : durationOf policy step row.1 = row.2 := by
  have hnodup : ((phaseDurations policy step).map Prod.fst).Nodup := by
    rw [map_fst_phaseDurations policy h]
    exact nodup_phaseSequence _
  rw [durationOf, lookup_of_mem hnodup hrow]
  rfl

/-- The phases of a step take its latency. -/
theorem msOf_phaseSequence (policy : APIMicroRefinementPolicy) (h : 0 ≤ step.latencyMs) :
    msOf policy step (phaseSequence step.phaseKind) = step.latencyMs := by
  have hdurations : (phaseSequence step.phaseKind).map (durationOf policy step) =
      (phaseDurations policy step).map Prod.snd := by
    rw [← map_fst_phaseDurations policy h, List.map_map]
    exact List.map_congr_left fun row hrow => durationOf_of_mem h hrow
  rw [msOf, hdurations, phaseDurations_eq h, List.map_append, List.map_map, List.sum_append]
  simp only [List.map_cons, List.map_nil, List.sum_singleton]
  have hsum : (Prod.snd ∘ fun spec : PhaseSpec APIMicroPhase =>
      (spec.phase, partOf step.latencyMs (phaseSpecs policy step) spec)) =
      partOf step.latencyMs (phaseSpecs policy step) := rfl
  rw [hsum]
  omega

theorem durationOf_part (h : 0 ≤ step.latencyMs) {spec : PhaseSpec APIMicroPhase}
    (hspec : spec ∈ (phaseSpecs policy step).dropLast) :
    durationOf policy step spec.phase = partOf step.latencyMs (phaseSpecs policy step) spec :=
  durationOf_of_mem h (by
    rw [phaseDurations_eq h]
    exact List.mem_append_left _ (List.mem_map_of_mem hspec))

/-- No phase of a step gets less than nothing. -/
def Allotted (policy : APIMicroRefinementPolicy) (step : APIBatchStep) : Prop :=
  ∀ phase, 0 ≤ durationOf policy step phase

theorem msOf_append (policy : APIMicroRefinementPolicy) (step : APIBatchStep)
    (a b : List APIMicroPhase) : msOf policy step (a ++ b) = msOf policy step a + msOf policy step b := by
  rw [msOf, List.map_append, List.sum_append]
  rfl

theorem Allotted.msOf_nonneg (h : Allotted policy step) (phases : List APIMicroPhase) :
    0 ≤ msOf policy step phases := by
  refine List.sum_nonneg fun ms hms => ?_
  obtain ⟨phase, -, rfl⟩ := List.mem_map.1 hms
  exact h phase

/-- The phases that may run while the step before waits. -/
def preparePhases : APIPhaseKind → List APIMicroPhase
  | .cloud => [.cloudAuthCheck, .cloudRateBudgetCheck, .apiPrepare]
  | .localHttp => [.localEndpointResolve, .localSessionReady]
  | .mqtt => []

def leadPhases : APIPhaseKind → List APIMicroPhase
  | .cloud => [.apiSessionReady]
  | .localHttp => []
  | .mqtt => []

def requestPhase : APIPhaseKind → APIMicroPhase
  | .cloud => .cloudRequestSend
  | .localHttp => .localRequestSend
  | .mqtt => .mqttLastMsgRead

def responsePhase : APIPhaseKind → APIMicroPhase
  | .cloud => .apiResponseRecv
  | .localHttp => .localResponseRecv
  | .mqtt => .mqttCacheParse

def tailPhases : APIPhaseKind → List APIMicroPhase
  | .cloud => [.cloudBackoffWait, .apiParseNormalize, .apiAggregate, .cloudBatchGroupCommit]
  | .localHttp => [.localParse, .localCacheUpdate]
  | .mqtt => []

/-- The phases that follow the write of the step before. -/
def corePhases (kind : APIPhaseKind) : List APIMicroPhase :=
  leadPhases kind ++ requestPhase kind :: responsePhase kind :: (tailPhases kind ++ [.haStateWrite])

theorem phaseSequence_eq (kind : APIPhaseKind) :
    phaseSequence kind = preparePhases kind ++ corePhases kind := by
  cases kind <;> rfl

/-- Preparing takes no longer than getting ready, the request and its response. -/
theorem prepare_le (h : 0 ≤ step.latencyMs) (hallot : Allotted policy step) :
    msOf policy step (preparePhases step.phaseKind) ≤
      msOf policy step (leadPhases step.phaseKind) +
        durationOf policy step (requestPhase step.phaseKind) +
        durationOf policy step (responsePhase step.phaseKind) := by
  have hle : ∀ a ∈ (phaseSpecs policy step).dropLast, ∀ b ∈ (phaseSpecs policy step).dropLast,
      a.minMs ≤ b.minMs → a.weight ≤ b.weight →
        durationOf policy step a.phase ≤ durationOf policy step b.phase := by
    intro a ha b hb hmin hweight
    rw [durationOf_part h ha, durationOf_part h hb]
    exact partOf_mono hmin hweight
  cases hkind : step.phaseKind with
  | cloud =>
    rw [phaseSpecs, hkind] at hle
    have hauth := hle ⟨.cloudAuthCheck, 10, 5⟩ (by simp) ⟨.cloudRequestSend, 24, 18⟩ (by simp)
      (by decide) (by decide)
    have hbudget := hle ⟨.cloudRateBudgetCheck, 8, 4⟩ (by simp) ⟨.apiSessionReady, 8, 4⟩ (by simp)
      (by decide) (by decide)
    have hprepare := hle ⟨.apiPrepare, 14, 8⟩ (by simp) ⟨.apiResponseRecv, 24, 16⟩ (by simp)
      (by decide) (by decide)
    simp only [msOf, preparePhases, leadPhases, requestPhase, responsePhase, List.map_cons,
      List.map_nil, List.sum_cons, List.sum_nil] at hauth hbudget hprepare ⊢
    omega
  | localHttp =>
    rw [phaseSpecs, hkind] at hle
    have hresolve := hle ⟨.localEndpointResolve, 12, 8⟩ (by simp) ⟨.localRequestSend, 18, 14⟩
      (by simp) (by decide) (by decide)
    have hsession := hle ⟨.localSessionReady, 10, 6⟩ (by simp) ⟨.localResponseRecv, 18, 12⟩
      (by simp) (by decide) (by decide)
    simp only [msOf, preparePhases, leadPhases, requestPhase, responsePhase, List.map_cons,
      List.map_nil, List.sum_cons, List.sum_nil] at hresolve hsession ⊢
    omega
  | mqtt =>
    have hrequest := hallot .mqttLastMsgRead
    have hresponse := hallot .mqttCacheParse
    simp only [msOf, preparePhases, leadPhases, requestPhase, responsePhase, List.map_nil,
      List.sum_nil]
    omega

/-- What is left for the write when all other shares are rounded up. -/
theorem phaseSpecs_margin (policy : APIMicroRefinementPolicy) (step : APIBatchStep) :
    let specs := phaseSpecs policy step
    let weightTotal := ((specs.map PhaseSpec.weight).filter (0 < ·)).sum
    (specs.dropLast.map PhaseSpec.minMs).sum + 8 = (specs.map PhaseSpec.minMs).sum ∧
      (specs.dropLast.map PhaseSpec.weight).sum ≤ weightTotal ∧ 0 < weightTotal ∧
      specs.dropLast.length ≤ 10 := by
  rw [phaseSpecs]
  cases step.phaseKind with
  | cloud =>
    refine ⟨?_, show (73 : ℤ) ≤ 76 by decide, show (0 : ℤ) < 76 by decide, le_rfl⟩
    simp [List.dropLast]
    omega
  | localHttp =>
    exact ⟨rfl, show (53 : ℤ) ≤ 56 by decide, show (0 : ℤ) < 56 by decide,
      show 6 ≤ 10 by decide⟩
  | mqtt =>
    exact ⟨rfl, show (18 : ℤ) ≤ 20 by decide, show (0 : ℤ) < 20 by decide, show 2 ≤ 10 by decide⟩

theorem phaseSpecs_nonneg (step : APIBatchStep) (hwait : 0 ≤ policy.cloudBackoffWaitMs) :
    ∀ spec ∈ phaseSpecs policy step, 0 ≤ spec.minMs ∧ 0 ≤ spec.weight := by
  have hbackoff : 0 ≤ if step.hasBackoffWait then policy.cloudBackoffWaitMs else 0 := by
    split_ifs <;> omega
  rw [phaseSpecs]
  cases step.phaseKind <;> simp only [List.forall_mem_cons, List.not_mem_nil, false_imp_iff,
    implies_true, and_true] <;> omega

/-- When the shortest durations leave some time, no phase gets less than nothing. -/
theorem allotted_of_lt (hwait : 0 ≤ policy.cloudBackoffWaitMs)
    (hmin : ((phaseSpecs policy step).map PhaseSpec.minMs).sum < step.latencyMs) :
    Allotted policy step := by
  intro phase
  have hminimum := phaseSpecs_nonneg step hwait
  have htotal : 0 < step.latencyMs := by
    refine lt_of_le_of_lt (List.sum_nonneg fun ms hms => ?_) hmin
    obtain ⟨spec, hspec, rfl⟩ := List.mem_map.1 hms
    exact (hminimum spec hspec).1
  have hnonneg : ∀ row ∈ phaseDurations policy step, 0 ≤ row.2 := by
    rw [phaseDurations_eq htotal.le, List.forall_mem_append, List.forall_mem_map]
    refine ⟨fun spec hspec => ?_, List.forall_mem_singleton.2 ?_⟩
    · have hge := (hminimum spec (List.dropLast_subset _ hspec)).1
      simp only [partOf]
      split_ifs <;> omega
    · obtain ⟨hsum, hweights, hpos, hlength⟩ := phaseSpecs_margin policy step
      have hle := sum_partOf_le htotal hmin hpos
        fun spec hspec => (hminimum spec (List.dropLast_subset _ hspec)).2
      generalize ((phaseSpecs policy step).dropLast.map
        (partOf step.latencyMs (phaseSpecs policy step))).sum = parts at hle ⊢
      generalize (((phaseSpecs policy step).map PhaseSpec.weight).filter (0 < ·)).sum = weightTotal
        at hweights hpos hle
      have hrest : 0 ≤ ((step.latencyMs - ((phaseSpecs policy step).map PhaseSpec.minMs).sum : ℤ)
          : ℚ) := by
        exact_mod_cast (sub_pos.2 hmin).le
      have hshare : ((step.latencyMs - ((phaseSpecs policy step).map PhaseSpec.minMs).sum : ℤ) : ℚ) *
          (((phaseSpecs policy step).dropLast.map PhaseSpec.weight).sum : ℤ) / (weightTotal : ℚ) ≤
          ((step.latencyMs - ((phaseSpecs policy step).map PhaseSpec.minMs).sum : ℤ) : ℚ) := by
        rw [div_le_iff₀ (by exact_mod_cast hpos)]
        exact mul_le_mul_of_nonneg_left (by exact_mod_cast hweights) hrest
      have hhalf : (((phaseSpecs policy step).dropLast.length : ℕ) : ℚ) ≤ 10 := by
        exact_mod_cast hlength
      have hcast : (parts : ℚ) ≤ ((step.latencyMs - 3 : ℤ) : ℚ) := by
        have hsum' : ((((phaseSpecs policy step).dropLast.map PhaseSpec.minMs).sum : ℤ) : ℚ) + 8 =
            ((((phaseSpecs policy step).map PhaseSpec.minMs).sum : ℤ) : ℚ) := by
          exact_mod_cast hsum
        simp only [Int.cast_sub, Int.cast_ofNat] at hle hshare ⊢
        linarith
      have hint : parts ≤ step.latencyMs - 3 := by exact_mod_cast hcast
      omega
  rw [durationOf]
  cases hlookup : (phaseDurations policy step).lookup phase with
  | none => exact le_rfl
  | some ms =>
    exact hnonneg (phase, ms) (mem_of_lookup hlookup)

end Phases

/-! ## Placed steps -/

section Placed

variable (policy : APIMicroRefinementPolicy)

/-- Where the phases of a step are: some follow the write of the step before, the overlapped ones
start earlier, and the others follow those that are not overlapped. -/
structure PlacedStep where
  step : APIBatchStep
  early : List APIMicroPhase
  overlapped : List APIMicroPhase
  origin : ℤ
  overlapStart : ℤ
  phases : early ++ overlapped = preparePhases step.phaseKind

namespace PlacedStep

variable (placed : PlacedStep)

def coreStart : ℤ := placed.origin + msOf policy placed.step placed.early

def requestStart : ℤ :=
  placed.coreStart policy + msOf policy placed.step (leadPhases placed.step.phaseKind)

def requestEnd : ℤ :=
  placed.requestStart policy + durationOf policy placed.step (requestPhase placed.step.phaseKind)

def responseEnd : ℤ :=
  placed.requestEnd policy + durationOf policy placed.step (responsePhase placed.step.phaseKind)

def writeStart : ℤ :=
  placed.responseEnd policy + msOf policy placed.step (tailPhases placed.step.phaseKind)

def writeEnd : ℤ := placed.writeStart policy + durationOf policy placed.step .haStateWrite

def events : List APIMicroEvent :=
  chainFrom policy placed.step placed.origin placed.early ++
    chainFrom policy placed.step placed.overlapStart placed.overlapped ++
    chainFrom policy placed.step (placed.coreStart policy) (corePhases placed.step.phaseKind)

end PlacedStep

def placeFirst (step : APIBatchStep) : PlacedStep :=
  ⟨step, preparePhases step.phaseKind, [], 0, 0, List.append_nil _⟩

/-- All of the preparation is overlapped, or nothing, or only its last phase. -/
theorem overlapPhases_cases (left right : APIBatchStep) :
    overlapPhases policy left right = [] ∨
      overlapPhases policy left right = preparePhases right.phaseKind ∨
      (right.phaseKind = .cloud ∧ policy.allowCloudAuthBudgetOverlap = false ∧
        overlapPhases policy left right = [.apiPrepare]) := by
  rw [overlapPhases]
  cases right.phaseKind with
  | mqtt => exact .inl rfl
  | localHttp =>
    dsimp only
    split_ifs
    · exact .inr (.inl rfl)
    · exact .inl rfl
  | cloud =>
    dsimp only
    split_ifs with hadmitted hauth
    · exact .inr (.inl rfl)
    · exact .inr (.inr ⟨rfl, Bool.eq_false_iff.2 hauth, rfl⟩)
    · exact .inl rfl

theorem filter_append_overlapPhases (left right : APIBatchStep) :
    ((preparePhases right.phaseKind).filter fun phase => phase ∉ overlapPhases policy left right) ++
      overlapPhases policy left right = preparePhases right.phaseKind := by
  rcases overlapPhases_cases policy left right with hnone | hall | ⟨hkind, -, hlast⟩
  · rw [hnone]
    simp
  · rw [hall]
    simp
  · rw [hlast, hkind]
    decide

def placeNext (placed : PlacedStep) (step : APIBatchStep) : PlacedStep where
  step := step
  early := (preparePhases step.phaseKind).filter fun phase =>
    phase ∉ overlapPhases policy placed.step step
  overlapped := overlapPhases policy placed.step step
  origin := placed.writeEnd policy
  overlapStart := max (placed.requestStart policy)
    (placed.responseEnd policy - msOf policy step (overlapPhases policy placed.step step))
  phases := filter_append_overlapPhases policy placed.step step

def placeAfter (placed : PlacedStep) : List APIBatchStep → List PlacedStep
  | [] => []
  | step :: steps => placeNext policy placed step :: placeAfter (placeNext policy placed step) steps

def placeAll : List APIBatchStep → List PlacedStep
  | [] => []
  | step :: steps => placeFirst step :: placeAfter policy (placeFirst step) steps

/-! ## The events of placed steps -/

variable {policy} {step : APIBatchStep} {placed : PlacedStep}

theorem chainFrom_append (cursor : ℤ) (a b : List APIMicroPhase) :
    chainFrom policy step cursor (a ++ b) =
      chainFrom policy step cursor a ++ chainFrom policy step (cursor + msOf policy step a) b := by
  induction a generalizing cursor with
  | nil => simp [chainFrom, msOf]
  | cons phase a ih =>
    rw [List.cons_append, chainFrom, ih, chainFrom, List.cons_append, msOf, msOf, List.map_cons,
      List.sum_cons, add_assoc]

theorem map_phase_chainFrom (policy : APIMicroRefinementPolicy) (step : APIBatchStep) (cursor : ℤ) (phases : List APIMicroPhase) :
    (chainFrom policy step cursor phases).map APIMicroEvent.phase = phases := by
  induction phases generalizing cursor with
  | nil => rfl
  | cons phase phases ih => rw [chainFrom, List.map_cons, ih]

theorem stepId_of_mem_chainFrom {cursor : ℤ} {phases : List APIMicroPhase} :
    ∀ event ∈ chainFrom policy step cursor phases, event.stepId = step.stepId := by
  induction phases generalizing cursor with
  | nil => exact fun event hevent => absurd hevent List.not_mem_nil
  | cons phase phases ih =>
    rw [chainFrom]
    exact List.forall_mem_cons.2 ⟨rfl, ih⟩

/-- The phases of a step from the write before it up to its own. -/
theorem chainFrom_corePhases (placed : PlacedStep) :
    chainFrom policy placed.step (placed.coreStart policy) (corePhases placed.step.phaseKind) =
      chainFrom policy placed.step (placed.coreStart policy) (leadPhases placed.step.phaseKind) ++
        ⟨placed.step.stepId, requestPhase placed.step.phaseKind, placed.requestStart policy,
          placed.requestEnd policy⟩ ::
        ⟨placed.step.stepId, responsePhase placed.step.phaseKind, placed.requestEnd policy,
          placed.responseEnd policy⟩ ::
        (chainFrom policy placed.step (placed.responseEnd policy)
          (tailPhases placed.step.phaseKind) ++
        [⟨placed.step.stepId, .haStateWrite, placed.writeStart policy, placed.writeEnd policy⟩]) := by
  rw [corePhases, chainFrom_append, chainFrom, chainFrom, chainFrom_append]
  rfl

theorem PlacedStep.map_phase_events (placed : PlacedStep) :
    (placed.events policy).map APIMicroEvent.phase = phaseSequence placed.step.phaseKind := by
  rw [PlacedStep.events, List.map_append, List.map_append, map_phase_chainFrom,
    map_phase_chainFrom, map_phase_chainFrom, placed.phases, phaseSequence_eq]

theorem PlacedStep.stepId_of_mem_events :
    ∀ event ∈ placed.events policy, event.stepId = placed.step.stepId := by
  intro event hevent
  rw [PlacedStep.events, List.mem_append, List.mem_append] at hevent
  rcases hevent with (hevent | hevent) | hevent <;> exact stepId_of_mem_chainFrom event hevent

/-- Of events with different phases, the first of a phase is the only one. -/
theorem find?_phase_of_mem {events : List APIMicroEvent}
    (hnodup : (events.map APIMicroEvent.phase).Nodup) {event : APIMicroEvent}
    (hevent : event ∈ events) : events.find? (·.phase = event.phase) = some event := by
  obtain ⟨before, after, rfl⟩ := List.append_of_mem hevent
  rw [List.map_append, List.nodup_append] at hnodup
  refine List.find?_eq_some_iff_append.2 ⟨decide_eq_true rfl, before, after, rfl, ?_⟩
  intro other hother
  have hne := hnodup.2.2 other.phase (List.mem_map_of_mem hother) event.phase List.mem_cons_self
  simpa using hne

/-- Events are found again by their phases. -/
theorem filterMap_find?_perm {events : List APIMicroEvent} (found : List APIMicroEvent)
    (h : found.Perm events)
    (hnodup : (events.map APIMicroEvent.phase).Nodup) :
    ((events.map APIMicroEvent.phase).filterMap fun phase => found.find? (·.phase = phase)) =
      events := by
  have hfound : (found.map APIMicroEvent.phase).Nodup := (h.map _).nodup_iff.2 hnodup
  rw [List.filterMap_map]
  calc events.filterMap ((fun phase => found.find? (·.phase = phase)) ∘ APIMicroEvent.phase)
      = events.filterMap some :=
        List.filterMap_congr fun event hevent => find?_phase_of_mem hfound (h.mem_iff.2 hevent)
    _ = events := List.filterMap_some

theorem eventAt_of_mem {event : APIMicroEvent} (hevent : event ∈ placed.events policy) :
    eventAt (placed.events policy) event.phase = .ok event := by
  have hnodup : ((placed.events policy).map APIMicroEvent.phase).Nodup := by
    rw [placed.map_phase_events]
    exact nodup_phaseSequence _
  rw [eventAt, find?_phase_of_mem hnodup hevent]

theorem mem_events_of_core {event : APIMicroEvent}
    (hevent : event ∈ chainFrom policy placed.step (placed.coreStart policy)
      (corePhases placed.step.phaseKind)) : event ∈ placed.events policy :=
  List.mem_append_right _ hevent

theorem PlacedStep.request_mem (policy : APIMicroRefinementPolicy) (placed : PlacedStep) :
    ⟨placed.step.stepId, requestPhase placed.step.phaseKind, placed.requestStart policy,
      placed.requestEnd policy⟩ ∈ placed.events policy := by
  refine mem_events_of_core ?_
  rw [chainFrom_corePhases]
  exact List.mem_append_right _ List.mem_cons_self

theorem PlacedStep.response_mem (policy : APIMicroRefinementPolicy) (placed : PlacedStep) :
    ⟨placed.step.stepId, responsePhase placed.step.phaseKind, placed.requestEnd policy,
      placed.responseEnd policy⟩ ∈ placed.events policy := by
  refine mem_events_of_core ?_
  rw [chainFrom_corePhases]
  exact List.mem_append_right _ (List.mem_cons_of_mem _ List.mem_cons_self)

theorem PlacedStep.write_mem (policy : APIMicroRefinementPolicy) (placed : PlacedStep) :
    ⟨placed.step.stepId, .haStateWrite, placed.writeStart policy, placed.writeEnd policy⟩ ∈
      placed.events policy := by
  refine mem_events_of_core ?_
  rw [chainFrom_corePhases]
  exact List.mem_append_right _ (List.mem_cons_of_mem _ (List.mem_cons_of_mem _
    (List.mem_append_right _ (List.mem_singleton_self _))))

/-- No phase that follows the write of the step before is overlapped. -/
theorem filter_corePhases (left right : APIBatchStep) :
    ((corePhases right.phaseKind).filter fun phase => phase ∉ overlapPhases policy left right) =
      corePhases right.phaseKind := by
  rw [List.filter_eq_self]
  intro phase hphase
  rw [decide_eq_true_eq]
  intro hmem
  have hprepare : phase ∈ preparePhases right.phaseKind := by
    rw [← filter_append_overlapPhases policy left right]
    exact List.mem_append_right _ hmem
  have hnodup := nodup_phaseSequence right.phaseKind
  rw [phaseSequence_eq, List.nodup_append] at hnodup
  exact hnodup.2.2 phase hprepare phase hphase rfl

theorem windowPhases_cases (kind : APIPhaseKind) :
    (windowPhases kind = none ∧ preparePhases kind = []) ∨
      windowPhases kind = some (requestPhase kind, responsePhase kind) := by
  cases kind with
  | cloud => exact .inr rfl
  | localHttp => exact .inr rfl
  | mqtt => exact .inl ⟨rfl, rfl⟩

/-- The overlapped phases of a step of the kind of the step before. -/
theorem overlapEvents_eq (hkind : step.phaseKind = placed.step.phaseKind) :
    overlapEvents policy placed.step (placed.events policy) step =
      .ok (chainFrom policy step (placeNext policy placed step).overlapStart
        (overlapPhases policy placed.step step)) := by
  rw [overlapEvents]
  rcases windowPhases_cases step.phaseKind with ⟨hnone, hprepare⟩ | hsome
  · have hoverlap : overlapPhases policy placed.step step = [] := by
      have happend := filter_append_overlapPhases policy placed.step step
      rw [hprepare] at happend
      exact (List.append_eq_nil_iff.1 happend).2
    rw [hnone, hoverlap]
    rfl
  · have hrequest := eventAt_of_mem (placed.request_mem policy)
    have hresponse := eventAt_of_mem (placed.response_mem policy)
    rw [hsome, hkind]
    dsimp only at hrequest hresponse ⊢
    rw [hrequest, hresponse]
    rfl

/-- The events of a step are placed by the step before. -/
theorem expandStep_eq (hkind : step.phaseKind = placed.step.phaseKind) :
    expandStep policy placed.step (placed.events policy) step =
      .ok ((placeNext policy placed step).events policy) := by
  have hwrite := eventAt_of_mem (placed.write_mem policy)
  rw [expandStep, overlapEvents_eq hkind]
  dsimp only at hwrite ⊢
  rw [hwrite]
  have hpost : chainFrom policy step (placed.writeEnd policy)
      ((phaseSequence step.phaseKind).filter fun phase =>
        phase ∉ overlapPhases policy placed.step step) =
      chainFrom policy step (placed.writeEnd policy) (placeNext policy placed step).early ++
        chainFrom policy step ((placeNext policy placed step).coreStart policy)
          (corePhases step.phaseKind) := by
    rw [phaseSequence_eq, List.filter_append, filter_corePhases, chainFrom_append]
    rfl
  have hnodup : (((placeNext policy placed step).events policy).map APIMicroEvent.phase).Nodup := by
    rw [PlacedStep.map_phase_events]
    exact nodup_phaseSequence _
  refine congrArg Except.ok (Eq.trans ?_ (filterMap_find?_perm
    (chainFrom policy step (placeNext policy placed step).overlapStart
      (overlapPhases policy placed.step step) ++ chainFrom policy step (placed.writeEnd policy)
        ((phaseSequence step.phaseKind).filter fun phase =>
          phase ∉ overlapPhases policy placed.step step)) ?_ hnodup))
  · rw [PlacedStep.map_phase_events, map_phase_chainFrom]
    rfl
  · rw [hpost, ← List.append_assoc]
    exact (List.perm_append_comm).append_right _

theorem expandAfter_eq (policy : APIMicroRefinementPolicy) {steps : List APIBatchStep}
    (placed : PlacedStep)
    (hkind : ∀ step ∈ steps, step.phaseKind = placed.step.phaseKind) :
    expandAfter policy placed.step (placed.events policy) steps =
      .ok ((placeAfter policy placed steps).flatMap (PlacedStep.events policy)) := by
  induction steps generalizing placed with
  | nil => rfl
  | cons step steps ih =>
    have hstep := hkind step List.mem_cons_self
    have hrest := ih (placeNext policy placed step) fun other hother =>
      (hkind other (List.mem_cons_of_mem step hother)).trans hstep.symm
    rw [expandAfter, expandStep_eq hstep]
    exact bind_eq_ok.2 ⟨_, rfl, bind_eq_ok.2 ⟨_, hrest, rfl⟩⟩

/-- Steps of one kind. -/
def Uniform (steps : List APIBatchStep) : Prop :=
  ∃ kind, ∀ step ∈ steps, step.phaseKind = kind

/-- The events of a corridor are those of its placed steps. -/
theorem expandRefinedSteps_eq {steps : List APIBatchStep} (h : Uniform steps) :
    expandRefinedSteps policy steps =
      .ok ((placeAll policy steps).flatMap (PlacedStep.events policy)) := by
  obtain ⟨kind, hkind⟩ := h
  cases steps with
  | nil => rfl
  | cons step steps =>
    have hfirst : (placeFirst step).events policy =
        chainFrom policy step 0 (phaseSequence step.phaseKind) := by
      rw [phaseSequence_eq, chainFrom_append, PlacedStep.events]
      exact congrArg (· ++ _) (List.append_nil _)
    have hrest := expandAfter_eq policy (placeFirst step) fun other hother =>
      (hkind other (List.mem_cons_of_mem step hother)).trans (hkind step List.mem_cons_self).symm
    rw [hfirst] at hrest
    rw [expandRefinedSteps, placeAll, List.flatMap_cons, hfirst]
    exact bind_eq_ok.2 ⟨_, hrest, rfl⟩

end Placed

/-! ## Times -/

section Times

variable {policy : APIMicroRefinementPolicy} {placed left right : PlacedStep}
  {step : APIBatchStep}

def PlacedStep.overlapEnd (policy : APIMicroRefinementPolicy) (placed : PlacedStep) : ℤ :=
  placed.overlapStart + msOf policy placed.step placed.overlapped

/-- A step that is placed well: it takes some time, no phase takes less than nothing, and what is
overlapped is over when the response is there. -/
structure SoundPlaced (policy : APIMicroRefinementPolicy) (placed : PlacedStep) : Prop where
  latency_pos : 0 < placed.step.latencyMs
  allotted : Allotted policy placed.step
  overlapEnd_le : placed.overlapEnd policy ≤ placed.responseEnd policy

/-- What holds of a step and the next one. -/
structure Follows (policy : APIMicroRefinementPolicy) (left right : PlacedStep) : Prop where
  origin : right.origin = left.writeEnd policy
  overlapped : right.overlapped = overlapPhases policy left.step right.step
  overlapStart : right.overlapStart = max (left.requestStart policy)
    (left.responseEnd policy - msOf policy right.step right.overlapped)

/-- The times of a step follow each other. -/
theorem PlacedStep.times (placed : PlacedStep) (h : Allotted policy placed.step) :
    placed.origin ≤ placed.coreStart policy ∧
      placed.coreStart policy ≤ placed.requestStart policy ∧
      placed.requestStart policy ≤ placed.requestEnd policy ∧
      placed.requestEnd policy ≤ placed.responseEnd policy ∧
      placed.responseEnd policy ≤ placed.writeStart policy ∧
      placed.writeStart policy ≤ placed.writeEnd policy := by
  have hearly := h.msOf_nonneg placed.early
  have hlead := h.msOf_nonneg (leadPhases placed.step.phaseKind)
  have hrequest := h (requestPhase placed.step.phaseKind)
  have hresponse := h (responsePhase placed.step.phaseKind)
  have htail := h.msOf_nonneg (tailPhases placed.step.phaseKind)
  have hwrite := h .haStateWrite
  simp only [PlacedStep.coreStart, PlacedStep.requestStart, PlacedStep.requestEnd,
    PlacedStep.responseEnd, PlacedStep.writeStart, PlacedStep.writeEnd]
  omega

theorem PlacedStep.msOf_early_add (policy : APIMicroRefinementPolicy) (placed : PlacedStep) :
    msOf policy placed.step placed.early + msOf policy placed.step placed.overlapped =
      msOf policy placed.step (preparePhases placed.step.phaseKind) := by
  rw [← msOf_append, placed.phases]

/-- A step writes when its latency is over, less what was overlapped. -/
theorem PlacedStep.writeEnd_eq (policy : APIMicroRefinementPolicy) (placed : PlacedStep)
    (h : 0 ≤ placed.step.latencyMs) :
    placed.writeEnd policy = placed.origin + placed.step.latencyMs -
      msOf policy placed.step placed.overlapped := by
  have htotal := msOf_phaseSequence policy h
  have hprepare := placed.msOf_early_add policy
  have hcore : msOf policy placed.step (corePhases placed.step.phaseKind) =
      msOf policy placed.step (leadPhases placed.step.phaseKind) +
        durationOf policy placed.step (requestPhase placed.step.phaseKind) +
        durationOf policy placed.step (responsePhase placed.step.phaseKind) +
        msOf policy placed.step (tailPhases placed.step.phaseKind) +
        durationOf policy placed.step .haStateWrite := by
    simp only [corePhases, msOf, List.map_append, List.map_cons, List.map_nil, List.sum_append,
      List.sum_cons, List.sum_nil]
    omega
  rw [phaseSequence_eq, msOf_append, hcore] at htotal
  simp only [PlacedStep.coreStart, PlacedStep.requestStart, PlacedStep.requestEnd,
    PlacedStep.responseEnd, PlacedStep.writeStart, PlacedStep.writeEnd]
  omega

/-- What is overlapped takes no longer than a step needs to receive its response. -/
theorem PlacedStep.origin_add_le (placed : PlacedStep) (h : 0 ≤ placed.step.latencyMs)
    (hallot : Allotted policy placed.step) :
    placed.origin + msOf policy placed.step placed.overlapped ≤ placed.responseEnd policy := by
  have hprepare := placed.msOf_early_add policy
  have hle := prepare_le h hallot
  have hearly := hallot.msOf_nonneg placed.early
  simp only [PlacedStep.coreStart, PlacedStep.requestStart, PlacedStep.requestEnd,
    PlacedStep.responseEnd]
  omega

/-- A step takes some time. -/
theorem SoundPlaced.origin_lt (h : SoundPlaced policy placed) :
    placed.origin < placed.writeEnd policy := by
  have hend := placed.writeEnd_eq policy h.latency_pos.le
  have hle := placed.origin_add_le h.latency_pos.le h.allotted
  have hpos := h.latency_pos
  obtain ⟨-, -, -, -, h₅, h₆⟩ := placed.times h.allotted
  omega

theorem placeFirst_sound (hpos : 0 < step.latencyMs) (hallot : Allotted policy step) :
    SoundPlaced policy (placeFirst step) where
  latency_pos := hpos
  allotted := hallot
  overlapEnd_le := by
    obtain ⟨h₁, h₂, h₃, h₄, -, -⟩ := (placeFirst step).times hallot
    exact h₁.trans (h₂.trans (h₃.trans h₄))

/-- The next step is placed well, and follows. -/
theorem placeNext_sound (h : SoundPlaced policy placed) (hpos : 0 < step.latencyMs)
    (hallot : Allotted policy step) : SoundPlaced policy (placeNext policy placed step) ∧
      Follows policy placed (placeNext policy placed step) := by
  have hfollows : Follows policy placed (placeNext policy placed step) := ⟨rfl, rfl, rfl⟩
  refine ⟨⟨hpos, hallot, ?_⟩, hfollows⟩
  have hle := (placeNext policy placed step).origin_add_le hpos.le hallot
  have hnonneg := hallot.msOf_nonneg (placeNext policy placed step).overlapped
  obtain ⟨-, h₂, h₃, h₄, h₅, h₆⟩ := placed.times h.allotted
  rw [hfollows.origin] at hle
  rw [PlacedStep.overlapEnd, hfollows.overlapStart]
  have hstep : (placeNext policy placed step).step = step := rfl
  rw [hstep] at hle ⊢
  omega

/-- All the steps of a corridor are placed well, one after the other. -/
structure SoundCorridor (policy : APIMicroRefinementPolicy) (placed : List PlacedStep) : Prop where
  sound : ∀ row ∈ placed, SoundPlaced policy row
  chain : placed.IsChain (Follows policy)
  first : ∀ row, placed.head? = some row → row = placeFirst row.step

theorem placeAfter_sound {steps : List APIBatchStep} (hpos : ∀ step ∈ steps, 0 < step.latencyMs)
    (hallot : ∀ step ∈ steps, Allotted policy step) (h : SoundPlaced policy placed) :
    (∀ row ∈ placed :: placeAfter policy placed steps, SoundPlaced policy row) ∧
      (placed :: placeAfter policy placed steps).IsChain (Follows policy) ∧
      (placeAfter policy placed steps).map PlacedStep.step = steps := by
  induction steps generalizing placed with
  | nil => exact ⟨List.forall_mem_singleton.2 h, List.IsChain.singleton _, rfl⟩
  | cons step steps ih =>
    obtain ⟨hsound, hfollows⟩ := placeNext_sound h (hpos step List.mem_cons_self)
      (hallot step List.mem_cons_self)
    obtain ⟨hall, hchain, hmap⟩ := ih (fun other hother => hpos other (List.mem_cons_of_mem _ hother))
      (fun other hother => hallot other (List.mem_cons_of_mem _ hother)) hsound
    rw [placeAfter]
    refine ⟨List.forall_mem_cons.2 ⟨h, hall⟩, List.isChain_cons_cons.2 ⟨hfollows, hchain⟩, ?_⟩
    rw [List.map_cons, hmap]
    rfl

theorem placeAll_sound {steps : List APIBatchStep} (hpos : ∀ step ∈ steps, 0 < step.latencyMs)
    (hallot : ∀ step ∈ steps, Allotted policy step) :
    SoundCorridor policy (placeAll policy steps) ∧
      (placeAll policy steps).map PlacedStep.step = steps := by
  cases steps with
  | nil =>
    refine ⟨⟨fun row hrow => ?_, List.IsChain.nil, fun row hrow => ?_⟩, rfl⟩
    · cases hrow
    · cases hrow
  | cons step steps =>
    have hfirst := placeFirst_sound (hpos step List.mem_cons_self)
      (hallot step List.mem_cons_self)
    obtain ⟨hall, hchain, hmap⟩ := placeAfter_sound
      (fun other hother => hpos other (List.mem_cons_of_mem _ hother))
      (fun other hother => hallot other (List.mem_cons_of_mem _ hother)) hfirst
    rw [placeAll]
    refine ⟨⟨hall, hchain, fun row hrow => ?_⟩, ?_⟩
    · obtain rfl := Option.some.inj hrow
      rfl
    · rw [List.map_cons, hmap]
      rfl

/-! ## Latencies -/

/-- The time of the phases that are overlapped. -/
def overlapTotalMs (policy : APIMicroRefinementPolicy) (steps : List APIBatchStep) : ℤ :=
  ((neighbours steps).map fun pair => msOf policy pair.2 (overlapPhases policy pair.1 pair.2)).sum

theorem overlapTotalMs_cons_cons (policy : APIMicroRefinementPolicy) (left right : APIBatchStep)
    (steps : List APIBatchStep) : overlapTotalMs policy (left :: right :: steps) =
      msOf policy right (overlapPhases policy left right) + overlapTotalMs policy (right :: steps) :=
  rfl

/-- The last write ends when all latencies are over, less what was overlapped. -/
theorem exists_last_write {steps : List APIBatchStep} (hpos : ∀ step ∈ steps, 0 < step.latencyMs)
    (hallot : ∀ step ∈ steps, Allotted policy step) (h : SoundPlaced policy placed) :
    ∃ row ∈ placed :: placeAfter policy placed steps,
      row.writeEnd policy = placed.writeEnd policy + (steps.map APIBatchStep.latencyMs).sum -
        overlapTotalMs policy (placed.step :: steps) ∧
      ∀ other ∈ placed :: placeAfter policy placed steps,
        other.writeEnd policy ≤ row.writeEnd policy := by
  induction steps generalizing placed with
  | nil =>
    refine ⟨placed, List.mem_cons_self, ?_, List.forall_mem_singleton.2 le_rfl⟩
    simp [overlapTotalMs, neighbours]
  | cons step steps ih =>
    obtain ⟨hsound, hfollows⟩ := placeNext_sound h (hpos step List.mem_cons_self)
      (hallot step List.mem_cons_self)
    obtain ⟨row, hrow, hend, hlast⟩ :=
      ih (fun other hother => hpos other (List.mem_cons_of_mem _ hother))
        (fun other hother => hallot other (List.mem_cons_of_mem _ hother)) hsound
    have hlt := hsound.origin_lt
    have hnext := (placeNext policy placed step).writeEnd_eq policy hsound.latency_pos.le
    rw [hfollows.overlapped] at hnext
    rw [hfollows.origin] at hlt hnext
    have hstep : (placeNext policy placed step).step = step := rfl
    rw [hstep] at hend hnext
    rw [placeAfter]
    refine ⟨row, List.mem_cons_of_mem _ hrow, ?_, List.forall_mem_cons.2 ⟨?_, hlast⟩⟩
    · rw [List.map_cons, List.sum_cons, overlapTotalMs_cons_cons]
      omega
    · have := hlast _ List.mem_cons_self
      omega

theorem lastEnd_eq {events : List APIMicroEvent} {event : APIMicroEvent} (hevent : event ∈ events)
    (hlast : ∀ other ∈ events, other.endMs ≤ event.endMs) : lastEnd events = event.endMs := by
  have hmax : (events.map APIMicroEvent.endMs).max? = some event.endMs :=
    List.max?_eq_some_iff.2 ⟨List.mem_map_of_mem hevent, List.forall_mem_map.2 hlast⟩
  rw [lastEnd]
  cases hends : events.map APIMicroEvent.endMs with
  | nil =>
    rw [hends] at hmax
    cases hmax
  | cons endMs rest =>
    rw [hends, List.max?_cons'] at hmax
    exact Option.some.inj hmax

/-- The events of some phases follow each other. -/
theorem chainFrom_times (h : Allotted policy step) {cursor : ℤ} {phases : List APIMicroPhase} :
    ∀ event ∈ chainFrom policy step cursor phases, cursor ≤ event.startMs ∧
      event.startMs ≤ event.endMs ∧ event.endMs ≤ cursor + msOf policy step phases := by
  induction phases generalizing cursor with
  | nil => exact fun event hevent => absurd hevent List.not_mem_nil
  | cons phase phases ih =>
    have hphase := h phase
    have hrest := h.msOf_nonneg phases
    have hms : msOf policy step (phase :: phases) =
        durationOf policy step phase + msOf policy step phases := by
      rw [msOf, List.map_cons, List.sum_cons]
      rfl
    rw [chainFrom, hms]
    refine List.forall_mem_cons.2 ⟨?_, fun event hevent => ?_⟩
    · dsimp only
      omega
    · have := ih event hevent
      omega

theorem PlacedStep.coreStart_add (policy : APIMicroRefinementPolicy) (placed : PlacedStep) : placed.coreStart policy +
    msOf policy placed.step (corePhases placed.step.phaseKind) = placed.writeEnd policy := by
  simp only [corePhases, msOf, List.map_append, List.map_cons, List.map_nil, List.sum_append,
    List.sum_cons, List.sum_nil, PlacedStep.coreStart, PlacedStep.requestStart,
    PlacedStep.requestEnd, PlacedStep.responseEnd, PlacedStep.writeStart, PlacedStep.writeEnd]
  omega

/-- The events of a step lie between the start of its preparation and its write. -/
theorem SoundPlaced.span (h : SoundPlaced policy placed) : ∀ event ∈ placed.events policy,
    min placed.origin placed.overlapStart ≤ event.startMs ∧ event.startMs ≤ event.endMs ∧
      event.endMs ≤ placed.writeEnd policy := by
  obtain ⟨h₁, h₂, h₃, h₄, h₅, h₆⟩ := placed.times h.allotted
  have hover := h.overlapEnd_le
  have hcore := placed.coreStart_add policy
  have hearly : placed.origin + msOf policy placed.step placed.early = placed.coreStart policy := rfl
  rw [PlacedStep.overlapEnd] at hover
  intro event hevent
  rw [PlacedStep.events, List.mem_append, List.mem_append] at hevent
  rcases hevent with (hevent | hevent) | hevent
  · have := chainFrom_times h.allotted event hevent
    omega
  · have := chainFrom_times h.allotted event hevent
    omega
  · have := chainFrom_times h.allotted event hevent
    omega

/-- The events of a corridor. -/
def corridorEvents (policy : APIMicroRefinementPolicy) (placed : List PlacedStep) :
    List APIMicroEvent :=
  placed.flatMap (PlacedStep.events policy)

/-- A refined corridor takes the latencies of its steps, less what was overlapped. -/
theorem lastEnd_corridorEvents {steps : List APIBatchStep}
    (hpos : ∀ step ∈ steps, 0 < step.latencyMs) (hallot : ∀ step ∈ steps, Allotted policy step) :
    lastEnd (corridorEvents policy (placeAll policy steps)) =
      (steps.map APIBatchStep.latencyMs).sum - overlapTotalMs policy steps := by
  cases steps with
  | nil => rfl
  | cons step steps =>
    have hfirst := placeFirst_sound (hpos step List.mem_cons_self)
      (hallot step List.mem_cons_self)
    have hsound := (placeAll_sound hpos hallot).1.sound
    obtain ⟨row, hrow, hend, hlast⟩ := exists_last_write
      (fun other hother => hpos other (List.mem_cons_of_mem _ hother))
      (fun other hother => hallot other (List.mem_cons_of_mem _ hother)) hfirst
    have hwrite : (placeFirst step).writeEnd policy = step.latencyMs := by
      have heq := (placeFirst step).writeEnd_eq policy hfirst.latency_pos.le
      have horigin : (placeFirst step).origin = 0 := rfl
      have hnone : msOf policy (placeFirst step).step (placeFirst step).overlapped = 0 := rfl
      rw [horigin, hnone, zero_add, sub_zero] at heq
      exact heq
    have hmax : lastEnd (corridorEvents policy (placeAll policy (step :: steps))) =
        row.writeEnd policy := by
      refine lastEnd_eq (List.mem_flatMap.2 ⟨row, hrow, row.write_mem policy⟩) fun event hevent => ?_
      obtain ⟨other, hother, hmem⟩ := List.mem_flatMap.1 hevent
      exact ((hsound other hother).span event hmem).2.2.trans (hlast other hother)
    rw [hmax, hend, hwrite, List.map_cons, List.sum_cons]
    rfl

theorem exists_chainFrom_end (policy : APIMicroRefinementPolicy) (step : APIBatchStep) (cursor : ℤ)
    {phases : List APIMicroPhase} (hphases : phases ≠ []) :
    ∃ event ∈ chainFrom policy step cursor phases,
      event.endMs = cursor + msOf policy step phases := by
  induction phases generalizing cursor with
  | nil => exact absurd rfl hphases
  | cons phase phases ih =>
    have hms : msOf policy step (phase :: phases) =
        durationOf policy step phase + msOf policy step phases := by
      rw [msOf, List.map_cons, List.sum_cons]
      rfl
    rw [chainFrom, hms]
    by_cases hnil : phases = []
    · subst hnil
      refine ⟨_, List.mem_cons_self, ?_⟩
      simp [msOf]
    · obtain ⟨event, hevent, hend⟩ := ih (cursor + durationOf policy step phase) hnil
      refine ⟨event, List.mem_cons_of_mem _ hevent, ?_⟩
      omega

/-- Without overlaps a corridor takes the latencies of its steps. -/
theorem serialEventsFrom_times {steps : List APIBatchStep}
    (hpos : ∀ step ∈ steps, 0 < step.latencyMs) (hallot : ∀ step ∈ steps, Allotted policy step)
    (cursor : ℤ) :
    (∀ event ∈ serialEventsFrom policy cursor steps,
      event.endMs ≤ cursor + (steps.map APIBatchStep.latencyMs).sum) ∧
    (steps ≠ [] → ∃ event ∈ serialEventsFrom policy cursor steps,
      event.endMs = cursor + (steps.map APIBatchStep.latencyMs).sum) := by
  induction steps generalizing cursor with
  | nil => exact ⟨fun event hevent => absurd hevent List.not_mem_nil, fun h => absurd rfl h⟩
  | cons step steps ih =>
    have hstep := hpos step List.mem_cons_self
    have hms : msOf policy step (phaseSequence step.phaseKind) = step.latencyMs :=
      msOf_phaseSequence policy hstep.le
    have hsum : 0 ≤ (steps.map APIBatchStep.latencyMs).sum := by
      refine List.sum_nonneg fun ms hms => ?_
      obtain ⟨other, hother, rfl⟩ := List.mem_map.1 hms
      exact (hpos other (List.mem_cons_of_mem _ hother)).le
    obtain ⟨hle, hlast⟩ := ih (fun other hother => hpos other (List.mem_cons_of_mem _ hother))
      (fun other hother => hallot other (List.mem_cons_of_mem _ hother)) (cursor + step.latencyMs)
    have hevents : serialEventsFrom policy cursor (step :: steps) =
        chainFrom policy step cursor (phaseSequence step.phaseKind) ++
          serialEventsFrom policy (cursor + step.latencyMs) steps := by
      rw [serialEventsFrom, ← hms]
      rfl
    rw [hevents, List.map_cons, List.sum_cons]
    refine ⟨List.forall_mem_append.2 ⟨fun event hevent => ?_, fun event hevent => ?_⟩, fun _ => ?_⟩
    · have := chainFrom_times (hallot step List.mem_cons_self) event hevent
      omega
    · have := hle event hevent
      omega
    · by_cases hnil : steps = []
      · have hphases : phaseSequence step.phaseKind ≠ [] := by
          cases step.phaseKind <;> decide
        obtain ⟨event, hevent, hend⟩ := exists_chainFrom_end policy step cursor hphases
        refine ⟨event, List.mem_append_left _ hevent, ?_⟩
        rw [hend, hms, hnil]
        simp
      · obtain ⟨event, hevent, hend⟩ := hlast hnil
        refine ⟨event, List.mem_append_right _ hevent, ?_⟩
        omega

theorem lastEnd_serialEvents {steps : List APIBatchStep}
    (hpos : ∀ step ∈ steps, 0 < step.latencyMs) (hallot : ∀ step ∈ steps, Allotted policy step) :
    lastEnd (serialEventsForSteps policy steps) = (steps.map APIBatchStep.latencyMs).sum := by
  obtain ⟨hle, hlast⟩ := serialEventsFrom_times hpos hallot 0
  simp only [zero_add] at hle hlast
  by_cases hnil : steps = []
  · subst hnil
    rfl
  · obtain ⟨event, hevent, hend⟩ := hlast hnil
    rw [serialEventsForSteps, lastEnd_eq hevent (fun other hother => (hle other hother).trans_eq
      hend.symm), hend]

end Times

end FloWeaver.Micro.Api
