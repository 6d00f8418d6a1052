import FloWeaver.Micro.ApiTimeline
import Mathlib.Data.List.Chain

/-!
# Which API corridors are accepted

No request is sent before the write of the step before, and at most two steps are at work at any
instant, whatever is overlapped.  The phases of a step are in order when its preparation fits in the
window of the step before; then the validator has nothing to say but of parsing, aggregating and
backing off.

* `InOrder`, `FitsWindow` — the phases of a step, and whether the preparation fits.
* `SoundCorridor.completionOrder_eq` — steps are completed in their order.
* `Follows.insideWindow_iff` — what is overlapped is inside the window exactly when it fits.
* `SoundCorridor.check_mem`, `SoundCorridor.check_mem_of_fits` — what the validator may find.
-/

namespace FloWeaver.Micro.Api

open Py
open Spans (neighbours)

section Validator

variable {policy : APIMicroRefinementPolicy} {placed left right : PlacedStep}
  {step : APIBatchStep} {rows : List PlacedStep}

/-! ## What the validator looks at -/

theorem filter_corridorEvents (policy : APIMicroRefinementPolicy)
    (hnodup : (rows.map fun row => row.step.stepId).Nodup)
    (hplaced : placed ∈ rows) :
    (corridorEvents policy rows).filter (·.stepId = placed.step.stepId) = placed.events policy :=
  Spans.filter_owner hnodup (fun _ => PlacedStep.stepId_of_mem_events) hplaced

/-- The validator finds the event of a phase. -/
theorem eventOf_corridorEvents (hnodup : (rows.map fun row => row.step.stepId).Nodup)
    (hplaced : placed ∈ rows) {event : APIMicroEvent} (hevent : event ∈ placed.events policy) :
    eventOf (corridorEvents policy rows) placed.step.stepId event.phase = some event := by
  have hphases : ((placed.events policy).map APIMicroEvent.phase).Nodup := by
    rw [placed.map_phase_events]
    exact nodup_phaseSequence _
  have hone : (placed.events policy).filter (·.phase = event.phase) = [event] := by
    obtain ⟨before, after, hsplit⟩ := List.append_of_mem hevent
    rw [hsplit, List.map_append, List.map_cons, List.nodup_append, List.nodup_cons] at hphases
    rw [hsplit, List.filter_append, List.filter_cons, if_pos (decide_eq_true rfl)]
    have hbefore : before.filter (·.phase = event.phase) = [] := by
      rw [List.filter_eq_nil_iff]
      intro other hother
      have := hphases.2.2 other.phase (List.mem_map_of_mem hother) event.phase List.mem_cons_self
      simpa using this
    have hafter : after.filter (·.phase = event.phase) = [] := by
      rw [List.filter_eq_nil_iff]
      intro other hother heq
      exact hphases.2.1.1 (of_decide_eq_true heq ▸ List.mem_map_of_mem hother)
    rw [hbefore, hafter]
    rfl
  have hfilter : (corridorEvents policy rows).filter (fun other =>
      other.stepId = placed.step.stepId ∧ other.phase = event.phase) = [event] := by
    rw [← hone, ← filter_corridorEvents policy hnodup hplaced, List.filter_filter]
    refine List.filter_congr fun other _ => ?_
    rw [Bool.and_comm, ← Bool.decide_and]
  rw [eventOf, hfilter]
  rfl

/-- Steps end in their order. -/
theorem SoundCorridor.pairwise_writeEnd (h : SoundCorridor policy rows) :
    rows.Pairwise fun left right => left.writeEnd policy < right.writeEnd policy := by
  let before (left right : PlacedStep) : Prop := left.writeEnd policy < right.writeEnd policy
  have htrans : Trans before before before := ⟨fun hab hbc => lt_trans hab hbc⟩
  refine List.IsChain.pairwise (R := before) (h.chain.imp_of_mem_imp
    fun left right _ hright hfollows => ?_)
  exact hfollows.origin.symm.trans_lt (h.sound right hright).origin_lt

theorem SoundCorridor.follows (h : SoundCorridor policy rows) {i : ℕ} (hleft : rows[i]? = some left)
    (hright : rows[i + 1]? = some right) : Follows policy left right := by
  obtain ⟨hi, rfl⟩ := List.getElem?_eq_some_iff.1 hleft
  obtain ⟨hj, rfl⟩ := List.getElem?_eq_some_iff.1 hright
  exact h.chain.getElem i hj

/-- A step does not start before the step before the last has written. -/
theorem SoundCorridor.apart_two (h : SoundCorridor policy rows) :
    Spans.Apart (fun row => min row.origin row.overlapStart) (PlacedStep.writeEnd policy) 2 rows := by
  intro i j a c hij ha hc
  obtain ⟨j, rfl⟩ : ∃ m, j = m + 2 := ⟨j - 2, by omega⟩
  obtain ⟨hj, -⟩ := List.getElem?_eq_some_iff.1 hc
  have hmid : rows[j + 1]? = some rows[j + 1] := List.getElem?_eq_getElem (by omega)
  have hbefore : rows[j]? = some rows[j] := List.getElem?_eq_getElem (by omega)
  have hnext := h.follows hmid hc
  have hprevious := h.follows hbefore hmid
  have hle : a.writeEnd policy ≤ rows[j].writeEnd policy := by
    rcases Nat.lt_or_eq_of_le (Nat.le_of_add_le_add_right hij) with hlt | rfl
    · obtain ⟨hi, rfl⟩ := List.getElem?_eq_some_iff.1 ha
      exact (List.pairwise_iff_getElem.1 h.pairwise_writeEnd i j hi (by omega) hlt).le
    · rw [Option.some.inj (ha.symm.trans hbefore)]
  obtain ⟨h₁, h₂, h₃, h₄, h₅, h₆⟩ :=
    rows[j + 1].times (h.sound _ (List.getElem_mem _)).allotted
  have horigin := hprevious.origin
  refine hle.trans (le_min ?_ ?_)
  · rw [hnext.origin]
    omega
  · rw [hnext.overlapStart]
    omega

/-- At most two steps are at work at any instant. -/
theorem SoundCorridor.maxActiveSteps_le (h : SoundCorridor policy rows) :
    maxActiveSteps (corridorEvents policy rows) ≤ 2 := by
  refine Spans.depth_le fun point => Spans.length_activeAt_le
    (fun row _ => row.stepId_of_mem_events) (fun row hrow event hevent => ?_) h.apart_two point
  have := (h.sound row hrow).span event hevent
  exact ⟨this.1, this.2.2⟩

/-! ## The order of the phases -/

/-- The phases of a step follow each other. -/
def InOrder (events : List APIMicroEvent) : Prop :=
  events.IsChain fun a b => a.endMs ≤ b.startMs

/-- What is overlapped fits between the request of the step before and its response. -/
def FitsWindow (policy : APIMicroRefinementPolicy) (left right : APIBatchStep) : Prop :=
  msOf policy right (overlapPhases policy left right) ≤
    durationOf policy left (requestPhase left.phaseKind) +
      durationOf policy left (responsePhase left.phaseKind)

theorem chainFrom_inOrder (cursor : ℤ) (phases : List APIMicroPhase) :
    InOrder (chainFrom policy step cursor phases) := by
  induction phases generalizing cursor with
  | nil => exact List.IsChain.nil
  | cons phase phases ih =>
    cases phases with
    | nil => exact List.IsChain.singleton _
    | cons next phases => exact List.isChain_cons_cons.2 ⟨le_rfl, ih _⟩

theorem InOrder.append {a b : List APIMicroEvent} {time : ℤ} (ha : InOrder a) (hb : InOrder b)
    (hbefore : ∀ event ∈ a, event.endMs ≤ time) (hafter : ∀ event ∈ b, time ≤ event.startMs) :
    InOrder (a ++ b) :=
  List.isChain_append.2 ⟨ha, hb, fun x hx y hy =>
    (hbefore x (List.mem_of_getLast? hx)).trans (hafter y (List.mem_of_head? hy))⟩

theorem PlacedStep.inOrder_of_nil (placed : PlacedStep) (hnone : placed.overlapped = []) :
    InOrder (placed.events policy) := by
  have hevents : placed.events policy = chainFrom policy placed.step placed.origin
      (placed.early ++ corePhases placed.step.phaseKind) := by
    rw [PlacedStep.events, hnone, chainFrom_append]
    exact congrArg (· ++ _) (List.append_nil _)
  rw [hevents]
  exact chainFrom_inOrder _ _

/-- What is overlapped is over when the response of the step before is there, if it fits. -/
theorem Follows.overlapEnd_le (h : Follows policy left right)
    (hfits : FitsWindow policy left.step right.step) :
    right.overlapEnd policy ≤ left.responseEnd policy := by
  rw [FitsWindow, ← h.overlapped] at hfits
  rw [PlacedStep.overlapEnd, h.overlapStart]
  have hwindow : left.responseEnd policy = left.requestStart policy +
      durationOf policy left.step (requestPhase left.step.phaseKind) +
        durationOf policy left.step (responsePhase left.step.phaseKind) := rfl
  omega

/-- The preparation is overlapped as a whole, or not at all. -/
def OverlapsWhole (policy : APIMicroRefinementPolicy) (left right : APIBatchStep) : Prop :=
  overlapPhases policy left right = [] ∨
    overlapPhases policy left right = preparePhases right.phaseKind

theorem Follows.overlapped_cases (h : Follows policy left right)
    (hwhole : OverlapsWhole policy left.step right.step) :
    right.overlapped = [] ∨
      (right.early = [] ∧ right.overlapped = preparePhases right.step.phaseKind) := by
  rw [h.overlapped]
  rcases hwhole with hnone | hall
  · exact .inl hnone
  · have hphases := right.phases
    rw [h.overlapped, hall, List.append_left_eq_self] at hphases
    exact .inr ⟨hphases, hall⟩

/-- When the preparation fits, the phases of a step are in order. -/
theorem Follows.inOrder (h : Follows policy left right) (hleft : SoundPlaced policy left)
    (hright : SoundPlaced policy right)
    (hwhole : OverlapsWhole policy left.step right.step)
    (hfits : FitsWindow policy left.step right.step) : InOrder (right.events policy) := by
  rcases h.overlapped_cases hwhole with hnone | ⟨hearly, -⟩
  · exact right.inOrder_of_nil hnone
  · obtain ⟨-, -, -, -, h₅, h₆⟩ := left.times hleft.allotted
    have hend := h.overlapEnd_le hfits
    have hcore : right.coreStart policy = left.writeEnd policy := by
      rw [PlacedStep.coreStart, hearly, h.origin]
      exact add_zero _
    rw [PlacedStep.events, hearly]
    refine InOrder.append (chainFrom_inOrder _ _) (chainFrom_inOrder _ _) (fun event hevent => ?_)
      fun event hevent => (chainFrom_times hright.allotted event hevent).1
    rw [hcore]
    exact (chainFrom_times hright.allotted event hevent).2.2.trans (hend.trans (h₅.trans h₆))

/-- Events in order are sorted by their starts. -/
theorem InOrder.pairwise {events : List APIMicroEvent} (h : InOrder events)
    (hspan : ∀ event ∈ events, event.startMs ≤ event.endMs) :
    events.Pairwise fun a b => a.startMs ≤ b.startMs := by
  let before (a b : APIMicroEvent) : Prop := a.startMs ≤ b.startMs
  have htrans : Trans before before before := ⟨fun hab hbc => le_trans hab hbc⟩
  exact List.IsChain.pairwise (R := before) (List.IsChain.imp_of_mem_imp
    (fun a b ha _ hab => (hspan a ha).trans hab) h)

/-! ## The order of completion -/

/-- The last end of a step so far. -/
def complete (completion : OrderedDict String ℤ) (event : APIMicroEvent) : OrderedDict String ℤ :=
  completion.set event.stepId (max ((completion.get? event.stepId).getD 0) event.endMs)

/-- The events of a step that has ended before move its end. -/
theorem foldl_complete_concat {stepId : String} {before : List (String × ℤ)} {ms : ℤ}
    (hnew : stepId ∉ before.map Prod.fst) {events : List APIMicroEvent}
    (hevents : ∀ event ∈ events, event.stepId = stepId) {completion : OrderedDict String ℤ}
    (hrows : completion.rows = before ++ [(stepId, ms)]) :
    (events.foldl complete completion).rows =
      before ++ [(stepId, (events.map APIMicroEvent.endMs).foldl max ms)] := by
  induction events generalizing completion ms with
  | nil => exact hrows
  | cons event events ih =>
    have hmem : (stepId, ms) ∈ completion.rows := by
      rw [hrows]
      exact List.mem_append_right _ (List.mem_singleton_self _)
    have hget : completion.get? stepId = some ms := OrderedDict.get?_of_mem_rows hmem
    rw [List.foldl_cons, List.map_cons, List.foldl_cons]
    refine ih (fun other hother => hevents other (List.mem_cons_of_mem _ hother)) ?_
    have hset : (complete completion event).rows =
        OrderedDict.setRows completion.rows event.stepId
          (max ((completion.get? event.stepId).getD 0) event.endMs) := rfl
    rw [hset, hevents event List.mem_cons_self, hget, hrows, OrderedDict.setRows_concat hnew]
    rfl

/-- The events of a step that is new give its last end. -/
theorem foldl_complete_new {stepId : String} {last : APIMicroEvent} {events : List APIMicroEvent}
    (hevents : ∀ event ∈ events, event.stepId = stepId) (hmem : last ∈ events)
    (hlast : ∀ event ∈ events, event.endMs ≤ last.endMs) (hnonneg : 0 ≤ last.endMs)
    {completion : OrderedDict String ℤ} (hnew : stepId ∉ completion.keys) :
    (events.foldl complete completion).rows = completion.rows ++ [(stepId, last.endMs)] := by
  cases events with
  | nil => cases hmem
  | cons event events =>
    have hset : (complete completion event).rows =
        OrderedDict.setRows completion.rows event.stepId
          (max ((completion.get? event.stepId).getD 0) event.endMs) := rfl
    have hnone : completion.get? stepId = none := by
      rw [← Option.not_isSome_iff_eq_none, OrderedDict.get?_isSome_iff]
      exact hnew
    have hfirst : (complete completion event).rows =
        completion.rows ++ [(stepId, max 0 event.endMs)] := by
      rw [hset, hevents event List.mem_cons_self, hnone, OrderedDict.setRows_of_not_mem hnew]
      rfl
    have hmax : (0 :: (event :: events).map APIMicroEvent.endMs).max? = some last.endMs := by
      refine List.max?_eq_some_iff.2 ⟨List.mem_cons_of_mem _ (List.mem_map_of_mem hmem), ?_⟩
      exact List.forall_mem_cons.2 ⟨hnonneg, List.forall_mem_map.2 hlast⟩
    rw [List.foldl_cons, foldl_complete_concat hnew
      (fun other hother => hevents other (List.mem_cons_of_mem _ hother)) hfirst]
    rw [List.max?_cons', List.map_cons, List.foldl_cons] at hmax
    rw [Option.some.inj hmax]

/-- Every step has its last end, in the order of the steps. -/
theorem foldl_complete_corridorEvents (hsound : ∀ row ∈ rows, SoundPlaced policy row)
    (hnonneg : ∀ row ∈ rows, 0 ≤ row.writeEnd policy) (completion : OrderedDict String ℤ)
    (hnodup : (completion.keys ++ rows.map fun row => row.step.stepId).Nodup) :
    ((corridorEvents policy rows).foldl complete completion).rows =
      completion.rows ++ rows.map fun row => (row.step.stepId, row.writeEnd policy) := by
  induction rows generalizing completion with
  | nil => exact (List.append_nil _).symm
  | cons row rows ih =>
    have hrow := hsound row List.mem_cons_self
    have hnew : row.step.stepId ∉ completion.keys := fun hmem =>
      (List.nodup_append.1 hnodup).2.2 _ hmem _ List.mem_cons_self rfl
    have hone := foldl_complete_new (fun event hevent => row.stepId_of_mem_events event hevent)
      (row.write_mem policy) (fun event hevent => (hrow.span event hevent).2.2)
      (hnonneg row List.mem_cons_self) hnew
    rw [corridorEvents, List.flatMap_cons, List.foldl_append]
    rw [← corridorEvents, ih (fun other hother => hsound other (List.mem_cons_of_mem _ hother))
      (fun other hother => hnonneg other (List.mem_cons_of_mem _ hother)) _, hone, List.append_assoc]
    · rfl
    · rw [OrderedDict.keys, hone, List.map_append, List.append_assoc]
      exact hnodup

/-- Steps are completed in their order. -/
theorem SoundCorridor.completionOrder_eq (h : SoundCorridor policy rows)
    (hnonneg : ∀ row ∈ rows, 0 ≤ row.writeEnd policy)
    (hnodup : (rows.map fun row => row.step.stepId).Nodup) :
    completionOrder (corridorEvents policy rows) = rows.map fun row => row.step.stepId := by
  have hrows := foldl_complete_corridorEvents h.sound hnonneg
    OrderedDict.empty (by simpa [OrderedDict.empty, OrderedDict.keys] using hnodup)
  have hcompletion : completionOrder (corridorEvents policy rows) =
      (sortedBy (fun row => (toLex (row.2, row.1) : ℤ ×ₗ String))
        ((corridorEvents policy rows).foldl complete OrderedDict.empty).rows).map (·.1) := rfl
  have hsorted : (rows.map fun row => (row.step.stepId, row.writeEnd policy)).Pairwise
      fun a b => (toLex (a.2, a.1) : ℤ ×ₗ String) ≤ toLex (b.2, b.1) :=
    List.pairwise_map.2 (h.pairwise_writeEnd.imp fun hlt =>
      (Prod.Lex.toLex_lt_toLex.2 (.inl hlt)).le)
  rw [hcompletion, hrows, OrderedDict.empty, List.nil_append, sortedBy_of_pairwise hsorted,
    List.map_map]
  rfl

theorem SoundCorridor.writeEnd_nonneg (h : SoundCorridor policy rows) :
    ∀ row ∈ rows, 0 ≤ row.writeEnd policy := by
  cases rows with
  | nil => exact fun row hrow => absurd hrow List.not_mem_nil
  | cons first rows =>
    have hzero : first.origin = 0 := by
      rw [h.first first rfl]
      rfl
    have hfirst := (h.sound first List.mem_cons_self).origin_lt
    rw [hzero] at hfirst
    refine List.forall_mem_cons.2 ⟨hfirst.le, fun row hrow => ?_⟩
    exact hfirst.le.trans ((List.pairwise_cons.1 h.pairwise_writeEnd).1 row hrow).le

/-! ## What is found about a step -/

theorem of_mem_findEvent {event : Option APIMicroEvent} {wrong : APIMicroEvent → Bool}
    {check : APICheck} {reason : String} {finding : Finding}
    (h : finding ∈ findEvent event wrong check reason) :
    finding.check = check ∧ ∃ row, event = some row ∧ wrong row = true := by
  rw [findEvent] at h
  split_ifs at h with hwrong
  · rw [List.mem_singleton.1 h]
    exact ⟨rfl, Option.any_eq_true .. |>.1 hwrong⟩
  · cases h

/-- A phase between the request and the write is over when the write starts. -/
theorem exists_before_write (h : SoundPlaced policy placed) {phase : APIMicroPhase}
    (hphase : phase ∈ responsePhase placed.step.phaseKind :: tailPhases placed.step.phaseKind) :
    ∃ event ∈ placed.events policy, event.phase = phase ∧
      event.endMs ≤ placed.writeStart policy := by
  obtain ⟨-, -, -, -, h₅, -⟩ := placed.times h.allotted
  rcases List.mem_cons.1 hphase with rfl | htail
  · exact ⟨_, placed.response_mem policy, rfl, h₅⟩
  · rw [← map_phase_chainFrom policy placed.step
      (placed.responseEnd policy) (tailPhases placed.step.phaseKind)] at htail
    obtain ⟨event, hevent, rfl⟩ := List.mem_map.1 htail
    refine ⟨event, mem_events_of_core ?_, rfl, (chainFrom_times h.allotted event hevent).2.2⟩
    rw [chainFrom_corePhases]
    exact List.mem_append_right _ (List.mem_cons_of_mem _ (List.mem_cons_of_mem _
      (List.mem_append_left _ hevent)))

/-- What a step does with its response may take too long, but is over before the write. -/
theorem workFindings_check (h : SoundPlaced policy placed)
    (hnodup : (rows.map fun row => row.step.stepId).Nodup) (hplaced : placed ∈ rows) :
    ∀ finding ∈ workFindings (corridorEvents policy rows) policy placed.step,
      finding.check = .eventLoop := by
  have hwrite : eventOf (corridorEvents policy rows) placed.step.stepId .haStateWrite = some
      ⟨placed.step.stepId, .haStateWrite, placed.writeStart policy, placed.writeEnd policy⟩ :=
    eventOf_corridorEvents hnodup hplaced (placed.write_mem policy)
  have hlate : ∀ phase ∈ responsePhase placed.step.phaseKind :: tailPhases placed.step.phaseKind,
      ∀ reason finding, finding ∉ findEvent
        (eventOf (corridorEvents policy rows) placed.step.stepId phase)
        (fun row => policy.availabilityMustPrecedeWrite &&
          (eventOf (corridorEvents policy rows) placed.step.stepId .haStateWrite).any
            fun write => decide (write.startMs < row.endMs)) .availability reason := by
    intro phase hphase reason finding hfinding
    obtain ⟨event, hevent, rfl, hend⟩ := exists_before_write h hphase
    obtain ⟨-, row, hrow, hwrong⟩ := of_mem_findEvent hfinding
    rw [eventOf_corridorEvents hnodup hplaced hevent] at hrow
    obtain rfl := Option.some.inj hrow
    rw [hwrite, Bool.and_eq_true, Option.any_some, decide_eq_true_eq] at hwrong
    exact absurd hwrong.2 (not_lt.2 hend)
  intro finding hfinding
  rw [workFindings] at hfinding
  cases hkind : placed.step.phaseKind with
  | localHttp =>
    rw [hkind] at hfinding hlate
    rcases List.mem_append.1 hfinding with hfinding | hfinding
    · rcases List.mem_append.1 hfinding with hfinding | hfinding
      · exact (of_mem_findEvent hfinding).1
      · exact (of_mem_findEvent hfinding).1
    · exact absurd hfinding (hlate .localCacheUpdate (by decide) _ _)
  | cloud =>
    rw [hkind] at hfinding hlate
    rcases List.mem_append.1 hfinding with hfinding | hfinding
    · rcases List.mem_append.1 hfinding with hfinding | hfinding
      · exact (of_mem_findEvent hfinding).1
      · exact (of_mem_findEvent hfinding).1
    · exact absurd hfinding (hlate .cloudBatchGroupCommit (by decide) _ _)
  | mqtt =>
    rw [hkind] at hfinding hlate
    rcases List.mem_append.1 hfinding with hfinding | hfinding
    · exact (of_mem_findEvent hfinding).1
    · exact absurd hfinding (hlate .mqttCacheParse (by decide) _ _)

/-- Only the order of the phases of a step may be wrong, and what it does with its response. -/
theorem stepFindings_check (h : SoundPlaced policy placed)
    (hnodup : (rows.map fun row => row.step.stepId).Nodup) (hplaced : placed ∈ rows) :
    ∀ finding ∈ stepFindings (corridorEvents policy rows) policy placed.step,
      finding.check = .eventLoop ∨
        (finding.check = .phaseOrder ∧ ¬ InOrder (placed.events policy)) := by
  intro finding hfinding
  have hfilter := filter_corridorEvents policy hnodup hplaced
  by_cases horder : InOrder (placed.events policy)
  · have hsorted : sortedBy APIMicroEvent.startMs
        ((corridorEvents policy rows).filter (·.stepId = placed.step.stepId)) =
        placed.events policy := by
      rw [hfilter]
      exact sortedBy_of_pairwise (horder.pairwise fun event hevent => (h.span event hevent).2.1)
    have hphases : ¬ (placed.events policy).map APIMicroEvent.phase ≠
        phaseSequence placed.step.phaseKind := not_not.2 placed.map_phase_events
    rw [stepFindings, hsorted, if_neg hphases] at hfinding
    rcases List.mem_append.1 hfinding with hfinding | hfinding
    · obtain ⟨row, hrow, hsome⟩ := List.mem_filterMap.1 hfinding
      rw [if_neg (not_lt.2 (Spans.forall_mem_neighbours horder row hrow))] at hsome
      cases hsome
    · exact .inl (workFindings_check h hnodup hplaced finding hfinding)
  · rw [stepFindings] at hfinding
    split_ifs at hfinding with hphases
    · rw [List.mem_singleton.1 hfinding]
      exact .inr ⟨rfl, horder⟩
    · rcases List.mem_append.1 hfinding with hfinding | hfinding
      · obtain ⟨row, hrow, hsome⟩ := List.mem_filterMap.1 hfinding
        split_ifs at hsome
        rw [← Option.some.inj hsome]
        exact .inr ⟨rfl, horder⟩
      · exact .inl (workFindings_check h hnodup hplaced finding hfinding)

/-! ## What is found about two steps -/

/-- A phase of the preparation follows the write of the step before, or is overlapped and follows
its request. -/
theorem Follows.exists_prepare (h : Follows policy left right) (hright : SoundPlaced policy right)
    {phase : APIMicroPhase} (hphase : phase ∈ preparePhases right.step.phaseKind) :
    ∃ event ∈ right.events policy, event.phase = phase ∧
      (left.writeEnd policy ≤ event.startMs ∨
        (phase ∈ overlapPhases policy left.step right.step ∧
          left.requestStart policy ≤ event.startMs ∧ event.endMs ≤ right.overlapEnd policy)) := by
  rw [← right.phases] at hphase
  rcases List.mem_append.1 hphase with hearly | hover
  · rw [← map_phase_chainFrom policy right.step right.origin
      right.early] at hearly
    obtain ⟨event, hevent, rfl⟩ := List.mem_map.1 hearly
    refine ⟨event, List.mem_append_left _ (List.mem_append_left _ hevent), rfl, .inl ?_⟩
    rw [← h.origin]
    exact (chainFrom_times hright.allotted event hevent).1
  · have hmem : phase ∈ overlapPhases policy left.step right.step := h.overlapped ▸ hover
    rw [← map_phase_chainFrom policy right.step right.overlapStart
      right.overlapped] at hover
    obtain ⟨event, hevent, rfl⟩ := List.mem_map.1 hover
    have htimes := chainFrom_times hright.allotted event hevent
    refine ⟨event, List.mem_append_left _ (List.mem_append_right _ hevent), rfl,
      .inr ⟨hmem, le_trans ?_ htimes.1, htimes.2.2⟩⟩
    rw [h.overlapStart]
    exact le_max_left _ _

/-- A request is not sent before the step before has written. -/
theorem Follows.writeEnd_le_requestStart (h : Follows policy left right)
    (hright : SoundPlaced policy right) : left.writeEnd policy ≤ right.requestStart policy := by
  obtain ⟨h₁, h₂, -⟩ := right.times hright.allotted
  rw [← h.origin]
  exact h₁.trans h₂

theorem requestFindings_eq_nil (h : Follows policy left right) (hright : SoundPlaced policy right)
    (hnodup : (rows.map fun row => row.step.stepId).Nodup) (hmem : right ∈ rows)
    (write : APIMicroEvent) (hwrite : write.endMs = left.writeEnd policy) (reason : String) :
    requestFindings (corridorEvents policy rows) policy left.step right.step write
      (requestPhase right.step.phaseKind) reason = [] := by
  have hrequest := eventOf_corridorEvents hnodup hmem (right.request_mem policy)
  have hlate := h.writeEnd_le_requestStart hright
  dsimp only at hrequest
  simp only [requestFindings, findEvent, hrequest, Option.any_some, hwrite, not_lt.2 hlate,
    decide_false, Bool.and_false, Bool.false_eq_true, if_false, List.append_nil]

/-- What is wrong with two steps: the preparation may exceed its window, or bypass a backoff. -/
structure PairChecked (policy : APIMicroRefinementPolicy) (left right : PlacedStep)
    (findings : List Finding) : Prop where
  checks : ∀ finding ∈ findings, finding.check = .requestSend ∨ finding.check = .backoff
  fits : FitsWindow policy left.step right.step → OverlapsWhole policy left.step right.step →
    ∀ finding ∈ findings, finding.check = .backoff

/-- When a phase of the preparation is overlapped, and fits, all of it ends with the response of the
step before. -/
theorem Follows.prepare_end_le (h : Follows policy left right) (hright : SoundPlaced policy right)
    (hfits : FitsWindow policy left.step right.step)
    (hwhole : OverlapsWhole policy left.step right.step)
    (hover : overlapPhases policy left.step right.step ≠ []) {event : APIMicroEvent}
    (hevent : event ∈ right.events policy)
    (hphase : event.phase ∈ preparePhases right.step.phaseKind) :
    event.endMs ≤ left.responseEnd policy := by
  rcases h.overlapped_cases hwhole with hnone | ⟨hearly, hall⟩
  · exact absurd (h.overlapped ▸ hnone) hover
  · have hend := h.overlapEnd_le hfits
    rw [PlacedStep.events, hearly] at hevent
    rcases List.mem_append.1 hevent with hevent | hevent
    · exact (chainFrom_times hright.allotted event hevent).2.2.trans hend
    · have hcore : event.phase ∈ corePhases right.step.phaseKind := by
        rw [← map_phase_chainFrom policy right.step
          (right.coreStart policy) (corePhases right.step.phaseKind)]
        exact List.mem_map_of_mem hevent
      have hnodup := nodup_phaseSequence right.step.phaseKind
      rw [phaseSequence_eq, List.nodup_append] at hnodup
      exact absurd rfl (hnodup.2.2 event.phase hphase event.phase hcore)

/-- What overlaps is admitted. -/
theorem localAdmission_of_mem {left right : APIBatchStep} {phase : APIMicroPhase}
    (hkind : right.phaseKind = .localHttp) (h : phase ∈ overlapPhases policy left right) :
    localPrepareOverlapAdmission left right policy = [] := by
  rw [overlapPhases, hkind] at h
  dsimp only at h
  split_ifs at h with hadmitted
  · exact List.isEmpty_iff.1 hadmitted
  · cases h

theorem cloudAdmission_of_mem {left right : APIBatchStep} {phase : APIMicroPhase}
    (hkind : right.phaseKind = .cloud) (h : phase ∈ overlapPhases policy left right) :
    cloudPrepareOverlapAdmission left right policy = [] := by
  rw [overlapPhases, hkind] at h
  dsimp only at h
  split_ifs at h with hadmitted
  · exact List.isEmpty_iff.1 hadmitted
  · exact List.isEmpty_iff.1 hadmitted
  · cases h

theorem PairChecked.nil : PairChecked policy left right [] where
  checks := fun _ hfinding => absurd hfinding List.not_mem_nil
  fits := fun _ _ _ hfinding => absurd hfinding List.not_mem_nil

theorem PairChecked.append {a b : List Finding} (ha : PairChecked policy left right a)
    (hb : PairChecked policy left right b) : PairChecked policy left right (a ++ b) where
  checks := List.forall_mem_append.2 ⟨ha.checks, hb.checks⟩
  fits := fun hfits hwhole =>
    List.forall_mem_append.2 ⟨ha.fits hfits hwhole, hb.fits hfits hwhole⟩

/-- A phase of the preparation exceeds its window only when it does not fit. -/
theorem Follows.window_checked (h : Follows policy left right) (hright : SoundPlaced policy right)
    {first : APIMicroPhase} (hover : first ∈ overlapPhases policy left.step right.step)
    {event : APIMicroEvent} (hevent : event ∈ right.events policy)
    (hphase : event.phase ∈ preparePhases right.step.phaseKind) (reason : String) :
    PairChecked policy left right (findEvent (some event)
      (fun row => decide (left.responseEnd policy < row.endMs)) .requestSend reason) where
  checks := fun finding hfinding => .inl (of_mem_findEvent hfinding).1
  fits := by
    intro hfits hwhole finding hfinding
    obtain ⟨-, row, hrow, hlate⟩ := of_mem_findEvent hfinding
    obtain rfl := Option.some.inj hrow
    exact absurd (of_decide_eq_true hlate)
      (not_lt.2 (h.prepare_end_le hright hfits hwhole (List.ne_nil_of_mem hover) hevent hphase))

theorem localPairFindings_checked (h : Follows policy left right)
    (hright : SoundPlaced policy right)
    (hnodup : (rows.map fun row => row.step.stepId).Nodup) (hleftMem : left ∈ rows)
    (hrightMem : right ∈ rows) (hleftKind : left.step.phaseKind = .localHttp)
    (hrightKind : right.step.phaseKind = .localHttp) :
    PairChecked policy left right
      (localPairFindings (corridorEvents policy rows) policy left.step right.step) := by
  have hrequest := eventOf_corridorEvents hnodup hleftMem (left.request_mem policy)
  have hresponse := eventOf_corridorEvents hnodup hleftMem (left.response_mem policy)
  have hwrite := eventOf_corridorEvents hnodup hleftMem (left.write_mem policy)
  have hnil := requestFindings_eq_nil h hright hnodup hrightMem
    ⟨left.step.stepId, .haStateWrite, left.writeStart policy, left.writeEnd policy⟩ rfl
    "local_request_send_overlap"
  have hresolveMem : APIMicroPhase.localEndpointResolve ∈ preparePhases right.step.phaseKind := by
    rw [hrightKind]
    decide
  have hsessionMem : APIMicroPhase.localSessionReady ∈ preparePhases right.step.phaseKind := by
    rw [hrightKind]
    decide
  obtain ⟨resolve, hresolve, hresolvePhase, hplace⟩ := h.exists_prepare hright hresolveMem
  obtain ⟨session, hsession, hsessionPhase, -⟩ := h.exists_prepare hright hsessionMem
  have hresolveOf := eventOf_corridorEvents hnodup hrightMem hresolve
  have hsessionOf := eventOf_corridorEvents hnodup hrightMem hsession
  rw [hresolvePhase] at hresolveOf
  rw [hsessionPhase] at hsessionOf
  simp only [hleftKind, requestPhase, responsePhase] at hrequest hresponse hwrite
  rw [hrightKind, requestPhase] at hnil
  rw [localPairFindings]
  simp only [hresolveOf, hsessionOf, hrequest, hresponse, hwrite, hnil, List.append_nil]
  rcases hplace with hlate | ⟨hover, hfrom, -⟩
  · rw [if_neg (not_lt.2 hlate)]
    exact .nil
  · rw [localAdmission_of_mem hrightKind hover, if_neg (not_lt.2 hfrom)]
    split_ifs
    · exact PairChecked.nil.append (h.window_checked hright hover hsession
        (hsessionPhase ▸ hsessionMem) _)
    · exact .nil

theorem cloudPairFindings_checked (h : Follows policy left right)
    (hright : SoundPlaced policy right)
    (hnodup : (rows.map fun row => row.step.stepId).Nodup) (hleftMem : left ∈ rows)
    (hrightMem : right ∈ rows) (hleftKind : left.step.phaseKind = .cloud)
    (hrightKind : right.step.phaseKind = .cloud) :
    PairChecked policy left right
      (cloudPairFindings (corridorEvents policy rows) policy left.step right.step) := by
  have hrequest := eventOf_corridorEvents hnodup hleftMem (left.request_mem policy)
  have hresponse := eventOf_corridorEvents hnodup hleftMem (left.response_mem policy)
  have hwrite := eventOf_corridorEvents hnodup hleftMem (left.write_mem policy)
  have hnil := requestFindings_eq_nil h hright hnodup hrightMem
    ⟨left.step.stepId, .haStateWrite, left.writeStart policy, left.writeEnd policy⟩ rfl
    "cloud_request_send_overlap"
  have hprepares : ∀ phase ∈ preparePhases .cloud, phase ∈ preparePhases right.step.phaseKind :=
    fun phase hphase => hrightKind.symm ▸ hphase
  have hauthMem := hprepares .cloudAuthCheck (by decide)
  have hbudgetMem := hprepares .cloudRateBudgetCheck (by decide)
  have hprepareMem := hprepares .apiPrepare (by decide)
  obtain ⟨auth, hauth, hauthPhase, hplace⟩ := h.exists_prepare hright hauthMem
  obtain ⟨budget, hbudget, hbudgetPhase, -⟩ := h.exists_prepare hright hbudgetMem
  obtain ⟨prepare, hprepare, hpreparePhase, -⟩ := h.exists_prepare hright hprepareMem
  have hauthOf := eventOf_corridorEvents hnodup hrightMem hauth
  have hbudgetOf := eventOf_corridorEvents hnodup hrightMem hbudget
  have hprepareOf := eventOf_corridorEvents hnodup hrightMem hprepare
  rw [hauthPhase] at hauthOf
  rw [hbudgetPhase] at hbudgetOf
  rw [hpreparePhase] at hprepareOf
  simp only [hleftKind, requestPhase, responsePhase] at hrequest hresponse hwrite
  rw [hrightKind, requestPhase] at hnil
  rw [cloudPairFindings]
  simp only [hauthOf, hbudgetOf, hprepareOf, hrequest, hresponse, hwrite, hnil, List.append_nil]
  rcases hplace with hlate | ⟨hover, hfrom, -⟩
  · rw [if_neg (not_lt.2 hlate)]
    exact .nil
  · rw [cloudAdmission_of_mem hrightKind hover, if_neg (not_lt.2 hfrom)]
    split_ifs
    · refine ((PairChecked.nil.append (h.window_checked hright hover hbudget
        (hbudgetPhase ▸ hbudgetMem) _)).append (h.window_checked hright hover hprepare
          (hpreparePhase ▸ hprepareMem) _)).append ⟨fun finding hfinding => ?_,
            fun _ _ finding hfinding => (of_mem_findEvent hfinding).1⟩
      exact .inr (of_mem_findEvent hfinding).1
    · exact .nil

/-- The checks of two steps that follow each other. -/
theorem pairFindings_checked (h : Follows policy left right) (hright : SoundPlaced policy right)
    (hnodup : (rows.map fun row => row.step.stepId).Nodup) (hleftMem : left ∈ rows)
    (hrightMem : right ∈ rows) : PairChecked policy left right
      (pairFindings (corridorEvents policy rows) policy left.step right.step) := by
  rw [pairFindings]
  split
  · exact localPairFindings_checked h hright hnodup hleftMem hrightMem ‹_› ‹_›
  · exact cloudPairFindings_checked h hright hnodup hleftMem hrightMem ‹_› ‹_›
  · exact .nil

/-! ## What is found about a corridor -/

theorem mem_events_of_stepId (hnodup : (rows.map fun row => row.step.stepId).Nodup)
    (hplaced : placed ∈ rows) {event : APIMicroEvent} (hevent : event ∈ corridorEvents policy rows)
    (hstep : event.stepId = placed.step.stepId) : event ∈ placed.events policy := by
  rw [← filter_corridorEvents policy hnodup hplaced]
  exact List.mem_filter.2 ⟨hevent, decide_eq_true hstep⟩

/-- A step has one event of a phase. -/
theorem PlacedStep.eq_of_phase {a b : APIMicroEvent} (ha : a ∈ placed.events policy)
    (hb : b ∈ placed.events policy) (hphase : a.phase = b.phase) : a = b := by
  have hnodup : ((placed.events policy).map APIMicroEvent.phase).Nodup := by
    rw [placed.map_phase_events]
    exact nodup_phaseSequence _
  have hfind := find?_phase_of_mem hnodup ha
  rw [hphase, find?_phase_of_mem hnodup hb] at hfind
  exact (Option.some.inj hfind).symm

/-- The requests of a step are not sent before the step before has written. -/
def RequestAfterWrite (events : List APIMicroEvent) (left right : APIBatchStep) : Prop :=
  ∀ write ∈ events, ∀ request ∈ events, write.stepId = left.stepId → write.phase = .haStateWrite →
    request.stepId = right.stepId → request.phase = requestPhase right.phaseKind →
      write.endMs ≤ request.startMs

/-- What is overlapped is between the request and the response of the step before. -/
def InsideWindow (policy : APIMicroRefinementPolicy) (events : List APIMicroEvent)
    (left right : APIBatchStep) : Prop :=
  ∀ request ∈ events, ∀ response ∈ events, ∀ event ∈ events,
    request.stepId = left.stepId → request.phase = requestPhase left.phaseKind →
    response.stepId = left.stepId → response.phase = responsePhase left.phaseKind →
    event.stepId = right.stepId → event.phase ∈ overlapPhases policy left right →
      request.startMs ≤ event.startMs ∧ event.endMs ≤ response.endMs

theorem Follows.requestAfterWrite (h : Follows policy left right)
    (hright : SoundPlaced policy right)
    (hnodup : (rows.map fun row => row.step.stepId).Nodup) (hleftMem : left ∈ rows)
    (hrightMem : right ∈ rows) :
    RequestAfterWrite (corridorEvents policy rows) left.step right.step := by
  intro write hwrite request hrequest hwriteStep hwritePhase hrequestStep hrequestPhase
  rw [PlacedStep.eq_of_phase (mem_events_of_stepId hnodup hleftMem hwrite hwriteStep)
      (left.write_mem policy) hwritePhase,
    PlacedStep.eq_of_phase (mem_events_of_stepId hnodup hrightMem hrequest hrequestStep)
      (right.request_mem policy) hrequestPhase]
  exact h.writeEnd_le_requestStart hright

/-- What is overlapped is inside the window exactly when it fits. -/
theorem Follows.insideWindow_iff (h : Follows policy left right) (hleft : SoundPlaced policy left)
    (hright : SoundPlaced policy right)
    (hnodup : (rows.map fun row => row.step.stepId).Nodup) (hleftMem : left ∈ rows)
    (hrightMem : right ∈ rows) : FitsWindow policy left.step right.step ↔
      InsideWindow policy (corridorEvents policy rows) left.step right.step := by
  have hwindow : left.responseEnd policy = left.requestStart policy +
      durationOf policy left.step (requestPhase left.step.phaseKind) +
        durationOf policy left.step (responsePhase left.step.phaseKind) := rfl
  have hover : ∀ event ∈ chainFrom policy right.step right.overlapStart right.overlapped,
      event ∈ right.events policy :=
    fun event hevent => List.mem_append_left _ (List.mem_append_right _ hevent)
  constructor
  · intro hfits request hrequest response hresponse event hevent hrequestStep hrequestPhase
      hresponseStep hresponsePhase heventStep heventPhase
    rw [PlacedStep.eq_of_phase (mem_events_of_stepId hnodup hleftMem hrequest hrequestStep)
        (left.request_mem policy) hrequestPhase,
      PlacedStep.eq_of_phase (mem_events_of_stepId hnodup hleftMem hresponse hresponseStep)
        (left.response_mem policy) hresponsePhase]
    rw [← h.overlapped, ← map_phase_chainFrom policy right.step
      right.overlapStart right.overlapped] at heventPhase
    obtain ⟨other, hother, hphase⟩ := List.mem_map.1 heventPhase
    rw [← PlacedStep.eq_of_phase (hover other hother)
      (mem_events_of_stepId hnodup hrightMem hevent heventStep) hphase]
    have htimes := chainFrom_times hright.allotted other hother
    have hstart := h.overlapStart
    exact ⟨(le_max_left _ _).trans (hstart.symm.le.trans htimes.1),
      htimes.2.2.trans (h.overlapEnd_le hfits)⟩
  · intro hinside
    rw [FitsWindow, ← h.overlapped]
    by_cases hnil : right.overlapped = []
    · have hrequest := hleft.allotted (requestPhase left.step.phaseKind)
      have hresponse := hleft.allotted (responsePhase left.step.phaseKind)
      rw [hnil, msOf, List.map_nil, List.sum_nil]
      omega
    · obtain ⟨event, hevent, hend⟩ := exists_chainFrom_end policy right.step
        right.overlapStart hnil
      have hmem : ∀ row ∈ rows, ∀ event ∈ row.events policy, event ∈ corridorEvents policy rows :=
        fun row hrow event hevent => List.mem_flatMap.2 ⟨row, hrow, hevent⟩
      have hphase : event.phase ∈ overlapPhases policy left.step right.step := by
        rw [← h.overlapped, ← map_phase_chainFrom policy right.step
          right.overlapStart right.overlapped]
        exact List.mem_map_of_mem hevent
      have hlast := (hinside _ (hmem left hleftMem _ (left.request_mem policy))
        _ (hmem left hleftMem _ (left.response_mem policy))
        event (hmem right hrightMem event (hover event hevent)) rfl rfl rfl rfl
        (stepId_of_mem_chainFrom event hevent) hphase).2
      have hstart : left.requestStart policy ≤ right.overlapStart := by
        rw [h.overlapStart]
        exact le_max_left _ _
      dsimp only at hlast
      omega

/-- A finding of a corridor is one about a step, or about two that follow each other. -/
theorem SoundCorridor.mem_validationFindings (h : SoundCorridor policy rows)
    (hlookahead : 1 ≤ policy.maxLookaheadSteps)
    (hnodup : (rows.map fun row => row.step.stepId).Nodup) {finding : Finding}
    (hfinding : finding ∈ validationFindings (corridorEvents policy rows) policy
      (rows.map fun row => row.step.stepId) (rows.map PlacedStep.step)) :
    (∃ row ∈ rows, finding ∈ stepFindings (corridorEvents policy rows) policy row.step) ∨
      ∃ pair ∈ neighbours rows,
        finding ∈ pairFindings (corridorEvents policy rows) policy pair.1.step pair.2.step := by
  have hdepth : (maxActiveSteps (corridorEvents policy rows) : ℤ) ≤ policy.maxLookaheadSteps + 1 := by
    have := h.maxActiveSteps_le
    omega
  rw [validationFindings, if_pos (h.completionOrder_eq h.writeEnd_nonneg hnodup), if_pos hdepth,
    List.append_nil, List.append_nil, List.mem_append, Spans.neighbours_map, List.flatMap_map,
    List.flatMap_map] at hfinding
  rcases hfinding with hfinding | hfinding
  · exact .inl (List.mem_flatMap.1 hfinding)
  · exact .inr (List.mem_flatMap.1 hfinding)

/-- The preparation of every step of a corridor fits. -/
def FitsAll (policy : APIMicroRefinementPolicy) (steps : List APIBatchStep) : Prop :=
  ∀ pair ∈ neighbours steps,
    FitsWindow policy pair.1 pair.2 ∧ OverlapsWhole policy pair.1 pair.2

theorem FitsAll.pair (h : FitsAll policy (rows.map PlacedStep.step)) {pair : PlacedStep × PlacedStep}
    (hpair : pair ∈ neighbours rows) : FitsWindow policy pair.1.step pair.2.step ∧
      OverlapsWhole policy pair.1.step pair.2.step := by
  refine h (pair.1.step, pair.2.step) ?_
  rw [Spans.neighbours_map]
  exact List.mem_map_of_mem hpair

/-- When the preparation fits, the phases of every step are in order. -/
theorem SoundCorridor.inOrder (h : SoundCorridor policy rows)
    (hfits : FitsAll policy (rows.map PlacedStep.step)) (hplaced : placed ∈ rows) :
    InOrder (placed.events policy) := by
  rcases Spans.head?_or_exists_neighbours hplaced with hhead | ⟨before, hpair⟩
  · refine placed.inOrder_of_nil ?_
    rw [h.first placed hhead]
    rfl
  · obtain ⟨hleft, hright⟩ := Spans.mem_of_mem_neighbours hpair
    obtain ⟨hwindow, hwhole⟩ := hfits.pair hpair
    exact Follows.inOrder (Spans.forall_mem_neighbours h.chain _ hpair) (h.sound _ hleft)
      (h.sound _ hright) hwhole hwindow

/-- All that may be wrong with a corridor. -/
theorem SoundCorridor.check_mem (h : SoundCorridor policy rows)
    (hlookahead : 1 ≤ policy.maxLookaheadSteps)
    (hnodup : (rows.map fun row => row.step.stepId).Nodup) :
    ∀ finding ∈ validationFindings (corridorEvents policy rows) policy
      (rows.map fun row => row.step.stepId) (rows.map PlacedStep.step),
      finding.check ∈ [.phaseOrder, .requestSend, .backoff, .eventLoop] := by
  intro finding hfinding
  rcases h.mem_validationFindings hlookahead hnodup hfinding with
    ⟨row, hrow, hmem⟩ | ⟨pair, hpair, hmem⟩
  · rcases stepFindings_check (h.sound row hrow) hnodup hrow finding hmem with hcheck | ⟨hcheck, -⟩
    · simp [hcheck]
    · simp [hcheck]
  · obtain ⟨hleft, hright⟩ := Spans.mem_of_mem_neighbours hpair
    have hchecked := pairFindings_checked (Spans.forall_mem_neighbours h.chain _ hpair)
      (h.sound _ hright) hnodup hleft hright
    rcases hchecked.checks finding hmem with hcheck | hcheck
    · simp [hcheck]
    · simp [hcheck]

/-- All that may be wrong with a corridor when its preparation fits. -/
theorem SoundCorridor.check_mem_of_fits (h : SoundCorridor policy rows)
    (hlookahead : 1 ≤ policy.maxLookaheadSteps)
    (hnodup : (rows.map fun row => row.step.stepId).Nodup)
    (hfits : FitsAll policy (rows.map PlacedStep.step)) :
    ∀ finding ∈ validationFindings (corridorEvents policy rows) policy
      (rows.map fun row => row.step.stepId) (rows.map PlacedStep.step),
      finding.check ∈ [.backoff, .eventLoop] := by
  intro finding hfinding
  rcases h.mem_validationFindings hlookahead hnodup hfinding with
    ⟨row, hrow, hmem⟩ | ⟨pair, hpair, hmem⟩
  · rcases stepFindings_check (h.sound row hrow) hnodup hrow finding hmem with
      hcheck | ⟨-, hdisorder⟩
    · simp [hcheck]
    · exact absurd (h.inOrder hfits hrow) hdisorder
  · obtain ⟨hleft, hright⟩ := Spans.mem_of_mem_neighbours hpair
    obtain ⟨hwindow, hwhole⟩ := hfits.pair hpair
    have hchecked := pairFindings_checked (Spans.forall_mem_neighbours h.chain _ hpair)
      (h.sound _ hright) hnodup hleft hright
    simp [hchecked.fits hwindow hwhole finding hmem]

end Validator

end FloWeaver.Micro.Api
