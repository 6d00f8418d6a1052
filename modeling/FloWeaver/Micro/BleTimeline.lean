import FloWeaver.Micro.Ble
import Mathlib.Algebra.Order.BigOperators.Group.List

/-!
# The time line of a BLE corridor

What the validator asks of a refined corridor holds by the way the actions are placed: an action is
placed by the one before it, and the facts about two neighbours chain up to facts about the corridor.
Only the number of actions at work at the same time is not under the control of one step back.  It
is at most four, and less when the policy does not admit the overlaps that lead there.

* `SoundDurations` — the phases of an action, and how they compare to those of any other.
* `Follows` — what holds of an action and the one placed after it.
* `settleEnd_le_advStart` — actions far enough apart do not overlap.
* `validateRefinedCorridor_expand` — the corridor passes when its depth does.
-/

namespace FloWeaver.Micro

open Py

/-! ## Durations -/

section Durations

variable {action : Dict} {policy : BLEMicroRefinementPolicy}

/-- The phases of an action: preparation keeps to its time limits, and a transfer takes longer than
settling does, be it of the same action or another. -/
structure SoundDurations (action : Dict) (policy : BLEMicroRefinementPolicy) (d : PhaseDurations) :
    Prop where
  adv_nonneg : 0 ≤ d.adv
  adv_le : d.adv ≤ policy.prepareAdvTimeoutMs
  connect_nonneg : 0 ≤ d.connect
  connect_le : d.connect ≤ policy.prepareConnectTimeoutMs
  lt_xfer : 144 < d.xfer
  settle_pos : 0 < d.settle
  settle_le : d.settle ≤ 144
  total : d.adv + d.connect + d.xfer + d.settle = estimatedActionLatencyMs action

theorem roundHalfEven_intCast (n : ℤ) : Val.roundHalfEven (n : ℚ) = n := by
  simp [Val.roundHalfEven]

theorem shareOf_mul (k m : ℤ) : shareOf (50 * k) (2 * m) = k * m := by
  have hq : ((50 * k : ℤ) : ℚ) * (((2 * m : ℤ) : ℚ) / 100) = ((k * m : ℤ) : ℚ) := by
    push_cast
    ring
  rw [shareOf, hq, roundHalfEven_intCast]

/-- A transfer that is long enough leaves the phases as they should be. -/
theorem phaseDurations_of_le (hxfer : xferMin ≤ (targetDurations action policy).xfer)
    (hsettle : 1 ≤ (targetDurations action policy).settle)
    (htotal : (targetDurations action policy).adv + (targetDurations action policy).connect +
      (targetDurations action policy).xfer + (targetDurations action policy).settle =
        estimatedActionLatencyMs action) :
    phaseDurations action policy = targetDurations action policy := by
  simp only [phaseDurations, borrow, if_pos hxfer, if_neg (not_lt.2 hxfer), htotal, sub_self,
    add_zero, max_eq_right hsettle]

/-- The phases that an action should have are sound. -/
theorem soundDurations_target (hprotocol : actionProtocol action = "BLE")
    (hadv : 0 ≤ policy.prepareAdvTimeoutMs) (hconnect : 0 ≤ policy.prepareConnectTimeoutMs) :
    SoundDurations action policy (targetDurations action policy) := by
  obtain ⟨k, hlo, hhi, htotal⟩ := ble_latency hprotocol
  have hshares : shareOf (50 * k) 8 = 4 * k ∧ shareOf (50 * k) 24 = 12 * k ∧
      shareOf (50 * k) 12 = 6 * k ∧ shareOf (50 * k) 10 = 5 * k ∧ shareOf (50 * k) 26 = 13 * k ∧
      shareOf (50 * k) 18 = 9 * k := by
    refine ⟨?_, ?_, ?_, ?_, ?_, ?_⟩
    · rw [show (8 : ℤ) = 2 * 4 from rfl, shareOf_mul, mul_comm]
    · rw [show (24 : ℤ) = 2 * 12 from rfl, shareOf_mul, mul_comm]
    · rw [show (12 : ℤ) = 2 * 6 from rfl, shareOf_mul, mul_comm]
    · rw [show (10 : ℤ) = 2 * 5 from rfl, shareOf_mul, mul_comm]
    · rw [show (26 : ℤ) = 2 * 13 from rfl, shareOf_mul, mul_comm]
    · rw [show (18 : ℤ) = 2 * 9 from rfl, shareOf_mul, mul_comm]
  obtain ⟨h8, h24, h12, h10, h26, h18⟩ := hshares
  simp only [targetDurations, htotal, h8, h24, h12, h10, h26, h18, advMin, connectMin, settleMin]
  split_ifs <;> refine ⟨?_, ?_, ?_, ?_, ?_, ?_, ?_, ?_⟩ <;> dsimp only <;> omega

theorem soundDurations_phase (hprotocol : actionProtocol action = "BLE")
    (hadv : 0 ≤ policy.prepareAdvTimeoutMs) (hconnect : 0 ≤ policy.prepareConnectTimeoutMs) :
    SoundDurations action policy (phaseDurations action policy) := by
  have htarget := soundDurations_target hprotocol hadv hconnect
  have hxfer : xferMin ≤ (targetDurations action policy).xfer := by
    have := htarget.lt_xfer
    rw [xferMin]
    omega
  rw [phaseDurations_of_le hxfer htarget.settle_pos htarget.total]
  exact htarget

end Durations

/-! ## Neighbours -/

section Neighbours

variable {policy : BLEMicroRefinementPolicy}

/-- An action that is placed well: its phases are sound and follow each other. -/
structure SoundPlaced (policy : BLEMicroRefinementPolicy) (placed : PlacedAction) : Prop where
  durations : SoundDurations placed.action policy placed.durations
  advEnd_le : placed.advEnd ≤ placed.connectStart
  connectEnd_le : placed.connectEnd ≤ placed.xferStart

/-- What holds of an action and the next one.  The next one does not prepare before this one
connects and does not connect before this one transfers; it overlaps this one where the policy
admits it only. -/
structure Follows (policy : BLEMicroRefinementPolicy) (left right : PlacedAction) : Prop where
  connectStart_le : left.connectStart ≤ right.advStart
  advStart_le : right.advStart ≤ left.settleEnd
  xferStart_le : left.xferStart ≤ right.connectStart
  xferEnd_le : left.xferEnd ≤ right.xferStart
  settleEnd_le : right.settleEnd ≤ left.settleEnd + estimatedActionLatencyMs right.action
  blocked : (advOverlapAdmission left.action right.action policy).isEmpty = false →
    right.advStart = left.settleEnd
  unanchored : allowAdvAnchorDuringConnectPrepare left.action right.action policy = false →
    left.xferStart ≤ right.advStart
  unconnected : (connectOverlapAdmission left.action right.action policy).isEmpty = false →
    left.settleEnd ≤ right.connectStart

/-- The phases of an action in time. -/
theorem SoundPlaced.bounds {placed : PlacedAction} (h : SoundPlaced policy placed) :
    placed.advStart ≤ placed.advEnd ∧ placed.advEnd ≤ placed.connectStart ∧
      placed.connectStart ≤ placed.connectEnd ∧ placed.connectEnd ≤ placed.xferStart ∧
      placed.xferStart + 144 < placed.xferEnd ∧ placed.xferEnd < placed.settleEnd ∧
      placed.settleEnd ≤ placed.xferEnd + 144 := by
  have hd := h.durations
  have hadv := hd.adv_nonneg
  have hconnect := hd.connect_nonneg
  have hxfer := hd.lt_xfer
  have hsettle := hd.settle_pos
  have hle := hd.settle_le
  have h₁ := h.advEnd_le
  have h₂ := h.connectEnd_le
  simp only [PlacedAction.advEnd, PlacedAction.connectEnd, PlacedAction.xferEnd,
    PlacedAction.settleEnd] at h₁ h₂ ⊢
  omega

theorem placeFirst_sound (actionId : String) {action : Dict}
    (hd : SoundDurations action policy (phaseDurations action policy)) :
    SoundPlaced policy (placeFirst policy actionId action) ∧
      (placeFirst policy actionId action).settleEnd = estimatedActionLatencyMs action := by
  have hadv := hd.adv_nonneg
  have hconnect := hd.connect_nonneg
  have htotal := hd.total
  refine ⟨⟨hd, ?_, ?_⟩, ?_⟩
  · simp only [placeFirst, PlacedAction.advEnd]
    omega
  · simp only [placeFirst, PlacedAction.connectEnd]
    omega
  · simp only [placeFirst, PlacedAction.settleEnd, PlacedAction.xferEnd]
    omega

/-- When the next action starts to advertise. -/
theorem advStart_placeNext {previous : PlacedAction} (actionId : String) (action : Dict)
    (hprevious : SoundPlaced policy previous) :
    let advStart := (placeNext policy previous actionId action).advStart
    previous.connectStart ≤ advStart ∧ advStart ≤ previous.settleEnd ∧
      ((advOverlapAdmission previous.action action policy).isEmpty = false →
        advStart = previous.settleEnd) ∧
      (allowAdvAnchorDuringConnectPrepare previous.action action policy = false →
        previous.xferStart ≤ advStart) := by
  obtain ⟨-, -, h₃, h₄, h₅, h₆, -⟩ := hprevious.bounds
  have hconnect : previous.connectStart ≤ previous.xferStart := h₃.trans h₄
  have hsettle : previous.xferStart ≤ previous.settleEnd := by omega
  dsimp only [placeNext]
  split_ifs with hadmitted hanchored
  · refine ⟨le_rfl, hconnect.trans hsettle, fun h => ?_, fun h => ?_⟩
    · rw [hadmitted] at h
      cases h
    · rw [hanchored] at h
      cases h
  · refine ⟨hconnect, hsettle, fun h => ?_, fun _ => le_rfl⟩
    rw [hadmitted] at h
    cases h
  · exact ⟨hconnect.trans hsettle, le_rfl, fun _ => rfl, fun _ => hsettle⟩

/-- When the next action starts to connect. -/
theorem connectStart_placeNext {previous : PlacedAction} (actionId : String) (action : Dict)
    (hprevious : SoundPlaced policy previous) :
    let placed := placeNext policy previous actionId action
    placed.advEnd ≤ placed.connectStart ∧ previous.xferStart ≤ placed.connectStart ∧
      placed.connectStart ≤ max placed.advEnd previous.settleEnd ∧
      ((connectOverlapAdmission previous.action action policy).isEmpty = false →
        previous.settleEnd ≤ placed.connectStart) := by
  obtain ⟨-, -, -, -, h₅, h₆, -⟩ := hprevious.bounds
  have hsettle : previous.xferStart ≤ previous.settleEnd := by omega
  have hstart : (placeNext policy previous actionId action).connectStart =
      if (connectOverlapAdmission previous.action action policy).isEmpty then
        max (placeNext policy previous actionId action).advEnd previous.xferStart
      else max (placeNext policy previous actionId action).advEnd previous.settleEnd := rfl
  dsimp only
  rw [hstart]
  generalize (placeNext policy previous actionId action).advEnd = advEnd
  split_ifs with hadmitted
  · refine ⟨le_max_left _ _, le_max_right _ _, max_le_max_left _ hsettle, fun h => ?_⟩
    rw [hadmitted] at h
    cases h
  · exact ⟨le_max_left _ _, hsettle.trans (le_max_right _ _), le_rfl, fun _ => le_max_right _ _⟩

/-- The next action is placed well, and follows the previous one. -/
theorem placeNext_sound {previous : PlacedAction} (actionId : String) {action : Dict}
    (hprevious : SoundPlaced policy previous)
    (hd : SoundDurations action policy (phaseDurations action policy)) :
    SoundPlaced policy (placeNext policy previous actionId action) ∧
      Follows policy previous (placeNext policy previous actionId action) := by
  obtain ⟨-, -, -, -, -, hxfer, -⟩ := hprevious.bounds
  obtain ⟨hfrom, hto, hblocked, hunanchored⟩ := advStart_placeNext actionId action hprevious
  obtain ⟨hadvEnd, hxferStart, hmax, hunconnected⟩ :=
    connectStart_placeNext actionId action hprevious
  have hxferEnd : previous.xferEnd ≤ (placeNext policy previous actionId action).xferStart :=
    le_max_right _ _
  have hlast : (placeNext policy previous actionId action).settleEnd ≤
      previous.settleEnd + estimatedActionLatencyMs action := by
    have hadv := hd.adv_nonneg
    have hconnect := hd.connect_nonneg
    have htotal := hd.total
    have hstart : (placeNext policy previous actionId action).xferStart =
        max ((placeNext policy previous actionId action).connectStart +
          (phaseDurations action policy).connect) previous.xferEnd := rfl
    have hend : (placeNext policy previous actionId action).advEnd =
        (placeNext policy previous actionId action).advStart +
          (phaseDurations action policy).adv := rfl
    have hsettle : (placeNext policy previous actionId action).settleEnd =
        (placeNext policy previous actionId action).xferStart +
          (phaseDurations action policy).xfer + (phaseDurations action policy).settle := rfl
    have hpos := hd.lt_xfer
    omega
  exact ⟨⟨hd, hadvEnd, le_max_left _ _⟩,
    ⟨hfrom, hto, hxferStart, hxferEnd, hlast, hblocked, hunanchored, hunconnected⟩⟩

end Neighbours

/-! ## The corridor -/

section Corridor

variable {policy : BLEMicroRefinementPolicy}

/-- All the actions of a corridor are placed well, one after the other. -/
structure SoundCorridor (policy : BLEMicroRefinementPolicy) (placed : List PlacedAction) : Prop where
  sound : ∀ row ∈ placed, SoundPlaced policy row
  chain : placed.IsChain (Follows policy)

/-- BLE actions are placed well, and are done by the sum of their latencies. -/
theorem placeAfter_sound (hadv : 0 ≤ policy.prepareAdvTimeoutMs)
    (hconnect : 0 ≤ policy.prepareConnectTimeoutMs) {rows : List (String × Dict)}
    (hble : ∀ row ∈ rows, actionProtocol row.2 = "BLE") {previous : PlacedAction}
    (hprevious : SoundPlaced policy previous) :
    SoundCorridor policy (previous :: placeAfter policy previous rows) ∧
      (placeAfter policy previous rows).map (fun row => (row.actionId, row.action)) = rows ∧
      ∀ row ∈ previous :: placeAfter policy previous rows, row.settleEnd ≤
        previous.settleEnd + (rows.map fun row => estimatedActionLatencyMs row.2).sum := by
  induction rows generalizing previous with
  | nil =>
    refine ⟨⟨fun row hrow => ?_, List.IsChain.singleton _⟩, rfl, fun row hrow => ?_⟩
    · exact List.mem_singleton.1 hrow ▸ hprevious
    · rw [List.mem_singleton.1 hrow]
      simp
  | cons head rows ih =>
    obtain ⟨actionId, action⟩ := head
    have hprotocol : actionProtocol action = "BLE" := hble (actionId, action) List.mem_cons_self
    obtain ⟨hsound, hfollows⟩ := placeNext_sound actionId hprevious
      (soundDurations_phase hprotocol hadv hconnect)
    obtain ⟨⟨hall, hchain⟩, hmap, hlast⟩ :=
      ih (fun row hrow => hble row (List.mem_cons_of_mem _ hrow)) hsound
    rw [placeAfter]
    refine ⟨⟨fun row hrow => ?_, List.isChain_cons_cons.2 ⟨hfollows, hchain⟩⟩, ?_, fun row hrow => ?_⟩
    · rcases List.mem_cons.1 hrow with rfl | hrow
      · exact hprevious
      · exact hall row hrow
    · rw [List.map_cons, hmap]
      rfl
    · have hnonneg : 0 ≤ (rows.map fun row => estimatedActionLatencyMs row.2).sum := by
        refine List.sum_nonneg fun cost hcost => ?_
        obtain ⟨row, hrow, rfl⟩ := List.mem_map.1 hcost
        obtain ⟨k, hk, -, hcost⟩ := ble_latency (hble row (List.mem_cons_of_mem _ hrow))
        omega
      have hupper := hfollows.settleEnd_le
      have haction : (placeNext policy previous actionId action).action = action := rfl
      rw [haction] at hupper
      obtain ⟨k, hk, -, hcost⟩ := ble_latency hprotocol
      rw [List.map_cons, List.sum_cons]
      dsimp only
      rcases List.mem_cons.1 hrow with rfl | hrow
      · omega
      · have := hlast row hrow
        omega

theorem placeAll_sound (hadv : 0 ≤ policy.prepareAdvTimeoutMs)
    (hconnect : 0 ≤ policy.prepareConnectTimeoutMs) {rows : List (String × Dict)}
    (hble : ∀ row ∈ rows, actionProtocol row.2 = "BLE") :
    SoundCorridor policy (placeAll policy rows) ∧
      (placeAll policy rows).map (fun row => (row.actionId, row.action)) = rows ∧
      ∀ row ∈ placeAll policy rows,
        row.settleEnd ≤ (rows.map fun row => estimatedActionLatencyMs row.2).sum := by
  cases rows with
  | nil =>
    refine ⟨⟨fun row hrow => ?_, List.IsChain.nil⟩, rfl, fun row hrow => ?_⟩
    · cases hrow
    · cases hrow
  | cons head rows =>
    obtain ⟨actionId, action⟩ := head
    have hprotocol : actionProtocol action = "BLE" := hble (actionId, action) List.mem_cons_self
    obtain ⟨hsound, hend⟩ := placeFirst_sound actionId
      (soundDurations_phase hprotocol hadv hconnect)
    obtain ⟨hcorridor, hmap, hlast⟩ := placeAfter_sound hadv hconnect
      (fun row hrow => hble row (List.mem_cons_of_mem _ hrow)) hsound
    refine ⟨hcorridor, ?_, fun row hrow => ?_⟩
    · rw [placeAll, List.map_cons, hmap]
      rfl
    · rw [List.map_cons, List.sum_cons, ← hend]
      exact hlast row hrow

/-! ## Overlaps -/

/-- The actions of some rows. -/
def actionsOf (placed : List PlacedAction) : List Dict := placed.map PlacedAction.action

/-- May the second of two actions prepare and connect while the first is at work? -/
def OverlapsTwice (policy : BLEMicroRefinementPolicy) (first second : Dict) : Prop :=
  (advOverlapAdmission first second policy).isEmpty ∧
    (connectOverlapAdmission first second policy).isEmpty

/-- Three actions in a row that may be at work at the same time. -/
def Stacks (policy : BLEMicroRefinementPolicy) (actions : List Dict) (i : ℕ) : Prop :=
  ∃ a b c, actions[i]? = some a ∧ actions[i + 1]? = some b ∧ actions[i + 2]? = some c ∧
    OverlapsTwice policy a b ∧ (advOverlapAdmission b c policy).isEmpty

/-- Four actions in a row that may be at work at the same time. -/
def StacksDeep (policy : BLEMicroRefinementPolicy) (actions : List Dict) (i : ℕ) : Prop :=
  ∃ a b c d, actions[i]? = some a ∧ actions[i + 1]? = some b ∧ actions[i + 2]? = some c ∧
    actions[i + 3]? = some d ∧ OverlapsTwice policy a b ∧ OverlapsTwice policy b c ∧
    allowAdvAnchorDuringConnectPrepare c d policy

section Apart

variable {placed : List PlacedAction} {i j : ℕ} {a b c d : PlacedAction}

theorem SoundCorridor.follows (h : SoundCorridor policy placed) (ha : placed[i]? = some a)
    (hb : placed[i + 1]? = some b) : Follows policy a b := by
  obtain ⟨hi, rfl⟩ := List.getElem?_eq_some_iff.1 ha
  obtain ⟨hj, rfl⟩ := List.getElem?_eq_some_iff.1 hb
  exact h.chain.getElem i hj

theorem SoundCorridor.bounds (h : SoundCorridor policy placed) (ha : placed[i]? = some a) :
    a.advStart ≤ a.advEnd ∧ a.advEnd ≤ a.connectStart ∧ a.connectStart ≤ a.connectEnd ∧
      a.connectEnd ≤ a.xferStart ∧ a.xferStart + 144 < a.xferEnd ∧ a.xferEnd < a.settleEnd ∧
      a.settleEnd ≤ a.xferEnd + 144 :=
  (h.sound a (List.mem_of_getElem? ha)).bounds

/-- The transfers follow each other along the corridor. -/
theorem SoundCorridor.xferEnd_le (h : SoundCorridor policy placed) (hij : i ≤ j)
    (ha : placed[i]? = some a) (hb : placed[j]? = some b) : a.xferEnd ≤ b.xferEnd := by
  induction hij generalizing b with
  | refl =>
    obtain rfl := Option.some.inj (ha.symm.trans hb)
    exact le_rfl
  | @step j hij ih =>
    obtain ⟨hj, -⟩ := List.getElem?_eq_some_iff.1 hb
    have hmid : placed[j]? = some placed[j] := List.getElem?_eq_getElem (Nat.lt_of_succ_lt hj)
    have hnext := (h.follows hmid hb).xferEnd_le
    obtain ⟨-, -, -, -, hxfer, -, -⟩ := h.bounds hb
    have := ih hmid
    omega

/-- An action has settled when the next one has transferred. -/
theorem SoundCorridor.settleEnd_le (h : SoundCorridor policy placed) (ha : placed[i]? = some a)
    (hb : placed[i + 1]? = some b) : a.settleEnd ≤ b.xferEnd := by
  have hfollows := (h.follows ha hb).xferEnd_le
  obtain ⟨-, -, -, -, -, -, hsettle⟩ := h.bounds ha
  obtain ⟨-, -, -, -, hxfer, -, -⟩ := h.bounds hb
  omega

/-- An action has settled before one that is not the next transfers. -/
theorem SoundCorridor.settleEnd_le_xferStart (h : SoundCorridor policy placed) (hij : i + 2 ≤ j)
    (ha : placed[i]? = some a) (hb : placed[j]? = some b) : a.settleEnd ≤ b.xferStart := by
  obtain ⟨j, rfl⟩ : ∃ m, j = m + 1 := ⟨j - 1, by omega⟩
  obtain ⟨hj, -⟩ := List.getElem?_eq_some_iff.1 hb
  have hsecond : placed[i + 1]? = some placed[i + 1] := List.getElem?_eq_getElem (by omega)
  have hlast : placed[j]? = some placed[j] := List.getElem?_eq_getElem (by omega)
  calc a.settleEnd ≤ placed[i + 1].xferEnd := h.settleEnd_le ha hsecond
    _ ≤ placed[j].xferEnd := h.xferEnd_le (by omega) hsecond hlast
    _ ≤ b.xferStart := (h.follows hlast hb).xferEnd_le

/-- Actions four apart do not overlap. -/
theorem SoundCorridor.apart_four (h : SoundCorridor policy placed) :
    Spans.Apart PlacedAction.advStart PlacedAction.settleEnd 4 placed := by
  intro i j a b hij ha hb
  obtain ⟨j, rfl⟩ : ∃ m, j = m + 2 := ⟨j - 2, by omega⟩
  obtain ⟨hj, -⟩ := List.getElem?_eq_some_iff.1 hb
  have hone : placed[j + 1]? = some placed[j + 1] := List.getElem?_eq_getElem (by omega)
  have htwo : placed[j]? = some placed[j] := List.getElem?_eq_getElem (by omega)
  calc a.settleEnd ≤ placed[j].xferStart := h.settleEnd_le_xferStart (by omega) ha htwo
    _ ≤ placed[j + 1].connectStart := (h.follows htwo hone).xferStart_le
    _ ≤ b.advStart := (h.follows hone hb).connectStart_le

/-- Without both overlaps an action has settled when the next one connects. -/
theorem SoundCorridor.settleEnd_le_connectStart (h : SoundCorridor policy placed)
    (ha : placed[i]? = some a) (hb : placed[i + 1]? = some b)
    (hnot : ¬ OverlapsTwice policy a.action b.action) : a.settleEnd ≤ b.connectStart := by
  have hfollows := h.follows ha hb
  by_cases hadv : (advOverlapAdmission a.action b.action policy).isEmpty
  · exact hfollows.unconnected (Bool.eq_false_iff.2 fun hconnect => hnot ⟨hadv, hconnect⟩)
  · obtain ⟨h₁, h₂, -⟩ := h.bounds hb
    rw [← hfollows.blocked (Bool.eq_false_iff.2 hadv)]
    exact h₁.trans h₂

theorem getElem?_actionsOf (ha : placed[i]? = some a) :
    (actionsOf placed)[i]? = some a.action := by
  rw [actionsOf, List.getElem?_map, ha]
  rfl

/-- Unless four actions stack up, actions three apart do not overlap. -/
theorem SoundCorridor.apart_three (h : SoundCorridor policy placed)
    (hstack : ∀ i, ¬ StacksDeep policy (actionsOf placed) i) :
    Spans.Apart PlacedAction.advStart PlacedAction.settleEnd 3 placed := by
  intro i j a d hij ha hd
  rcases Nat.lt_or_ge j (i + 4) with hlt | hge
  · obtain rfl : j = i + 3 := by omega
    obtain ⟨hj, -⟩ := List.getElem?_eq_some_iff.1 hd
    have hb : placed[i + 1]? = some placed[i + 1] := List.getElem?_eq_getElem (by omega)
    have hc : placed[i + 2]? = some placed[i + 2] := List.getElem?_eq_getElem (by omega)
    cases hanchor : allowAdvAnchorDuringConnectPrepare placed[i + 2].action d.action policy with
    | false =>
      exact (h.settleEnd_le_xferStart le_rfl ha hc).trans ((h.follows hc hd).unanchored hanchor)
    | true =>
      have hconnect : placed[i + 2].connectStart ≤ d.advStart := (h.follows hc hd).connectStart_le
      by_cases hab : OverlapsTwice policy a.action placed[i + 1].action
      · have hbc : ¬ OverlapsTwice policy placed[i + 1].action placed[i + 2].action :=
          fun hbc => hstack i ⟨_, _, _, _, getElem?_actionsOf ha, getElem?_actionsOf hb,
            getElem?_actionsOf hc, getElem?_actionsOf hd, hab, hbc, hanchor⟩
        obtain ⟨-, -, -, -, -, hsettle, -⟩ := h.bounds hb
        calc a.settleEnd ≤ placed[i + 1].xferEnd := h.settleEnd_le ha hb
          _ ≤ placed[i + 1].settleEnd := hsettle.le
          _ ≤ placed[i + 2].connectStart := h.settleEnd_le_connectStart hb hc hbc
          _ ≤ d.advStart := hconnect
      · obtain ⟨-, -, h₃, h₄, -⟩ := h.bounds hb
        calc a.settleEnd ≤ placed[i + 1].connectStart := h.settleEnd_le_connectStart ha hb hab
          _ ≤ placed[i + 1].xferStart := h₃.trans h₄
          _ ≤ placed[i + 2].connectStart := (h.follows hb hc).xferStart_le
          _ ≤ d.advStart := hconnect
  · exact h.apart_four i j a d hge ha hd

/-- Unless three actions stack up, actions two apart do not overlap. -/
theorem SoundCorridor.apart_two (h : SoundCorridor policy placed)
    (hstack : ∀ i, ¬ Stacks policy (actionsOf placed) i) :
    Spans.Apart PlacedAction.advStart PlacedAction.settleEnd 2 placed := by
  have hdeep : ∀ i, ¬ StacksDeep policy (actionsOf placed) i := by
    rintro i ⟨a, b, c, d, ha, hb, hc, -, hab, hbc, -⟩
    exact hstack i ⟨a, b, c, ha, hb, hc, hab, hbc.1⟩
  intro i j a c hij ha hc
  rcases Nat.lt_or_ge j (i + 3) with hlt | hge
  · obtain rfl : j = i + 2 := by omega
    obtain ⟨hj, -⟩ := List.getElem?_eq_some_iff.1 hc
    have hb : placed[i + 1]? = some placed[i + 1] := List.getElem?_eq_getElem (by omega)
    by_cases hab : OverlapsTwice policy a.action placed[i + 1].action
    · have hbc : ¬ (advOverlapAdmission placed[i + 1].action c.action policy).isEmpty :=
        fun hbc => hstack i ⟨_, _, _, getElem?_actionsOf ha, getElem?_actionsOf hb,
          getElem?_actionsOf hc, hab, hbc⟩
      obtain ⟨-, -, -, -, -, hsettle, -⟩ := h.bounds hb
      rw [(h.follows hb hc).blocked (Bool.eq_false_iff.2 hbc)]
      exact (h.settleEnd_le ha hb).trans hsettle.le
    · exact (h.settleEnd_le_connectStart ha hb hab).trans (h.follows hb hc).connectStart_le
  · exact h.apart_three hdeep i j a c hge ha hc

end Apart

end Corridor

/-! ## The validator -/

section Validator

variable {policy : BLEMicroRefinementPolicy} {placed : List PlacedAction} {row : PlacedAction}

theorem actionId_of_mem_events : ∀ event ∈ row.events, event.actionId = row.actionId := by
  simp [PlacedAction.events]

/-- The events of a corridor. -/
def corridorEvents (placed : List PlacedAction) : List BLEMicroEvent :=
  placed.flatMap PlacedAction.events

/-- The events of an action are its phases, in order. -/
theorem phasesOf_corridorEvents (h : SoundCorridor policy placed)
    (hnodup : (placed.map PlacedAction.actionId).Nodup) (hrow : row ∈ placed) :
    phasesOf (corridorEvents placed) row.actionId = row.events := by
  obtain ⟨h₁, h₂, h₃, h₄, h₅, h₆, -⟩ := (h.sound row hrow).bounds
  have hfilter : (corridorEvents placed).filter (·.actionId = row.actionId) = row.events :=
    Spans.filter_owner hnodup (fun _ => actionId_of_mem_events) hrow
  rw [phasesOf, hfilter]
  refine sortedBy_of_pairwise ?_
  simp only [PlacedAction.events, List.pairwise_cons, List.mem_cons, List.not_mem_nil, or_false,
    forall_eq_or_imp, forall_eq, false_imp_iff, implies_true, List.Pairwise.nil, and_true]
  omega

theorem phaseOrderReasons_eq_nil (h : SoundCorridor policy placed)
    (hnodup : (placed.map PlacedAction.actionId).Nodup) (hrow : row ∈ placed) :
    phaseOrderReasons (corridorEvents placed) row.actionId = [] := by
  obtain ⟨h₁, h₂, h₃, h₄, h₅, h₆, -⟩ := (h.sound row hrow).bounds
  simp only [phaseOrderReasons, phasesOf_corridorEvents h hnodup hrow]
  rw [if_neg fun hne => hne rfl, List.filterMap_eq_nil_iff]
  simp [PlacedAction.events, Spans.neighbours, h₂, h₄]

theorem rollbackReasons_eq_nil (h : SoundCorridor policy placed)
    (hnodup : (placed.map PlacedAction.actionId).Nodup) (hrow : row ∈ placed) :
    rollbackReasons (corridorEvents placed) policy row.actionId = [] := by
  have hadv : row.advEnd - row.advStart ≤ policy.prepareAdvTimeoutMs := by
    have := (h.sound row hrow).durations.adv_le
    rw [PlacedAction.advEnd]
    omega
  have hconnect : row.connectEnd - row.connectStart ≤ policy.prepareConnectTimeoutMs := by
    have := (h.sound row hrow).durations.connect_le
    rw [PlacedAction.connectEnd]
    omega
  rw [rollbackReasons, phasesOf_corridorEvents h hnodup hrow]
  simp [PlacedAction.events, bleMicroPhases, hadv, hconnect]

/-- The event of a phase of an action. -/
def PlacedAction.eventAt (row : PlacedAction) : BLEMicroPhase → BLEMicroEvent
  | .prepareAdvSide => ⟨row.actionId, .prepareAdvSide, row.advStart, row.advEnd⟩
  | .prepareConnectSide => ⟨row.actionId, .prepareConnectSide, row.connectStart, row.connectEnd⟩
  | .bleXfer => ⟨row.actionId, .bleXfer, row.xferStart, row.xferEnd⟩
  | .bleSettle => ⟨row.actionId, .bleSettle, row.xferEnd, row.settleEnd⟩

/-- The validator finds the event of a phase. -/
theorem eventOf_corridorEvents (hnodup : (placed.map PlacedAction.actionId).Nodup)
    (hrow : row ∈ placed) (phase : BLEMicroPhase) :
    eventOf (corridorEvents placed) row.actionId phase = some (row.eventAt phase) := by
  have hfilter : (corridorEvents placed).filter (·.actionId = row.actionId) = row.events :=
    Spans.filter_owner hnodup (fun _ => actionId_of_mem_events) hrow
  have hphase : (row.events.filter (·.phase = phase)).getLast? = some (row.eventAt phase) := by
    cases phase <;> rfl
  rw [eventOf, ← hphase, ← hfilter, List.filter_filter]
  congr 2
  funext event
  rw [Bool.and_comm, ← Bool.decide_and]

/-- The transfers of a corridor. -/
theorem filter_xfer_corridorEvents : (corridorEvents placed).filter (·.phase = .bleXfer) =
    placed.map fun row => ⟨row.actionId, .bleXfer, row.xferStart, row.xferEnd⟩ := by
  rw [corridorEvents, List.filter_flatMap, List.map_eq_flatMap]
  rfl

/-- The ends of the actions of a corridor. -/
theorem filter_settle_corridorEvents : (corridorEvents placed).filter (·.phase = .bleSettle) =
    placed.map fun row => ⟨row.actionId, .bleSettle, row.xferEnd, row.settleEnd⟩ := by
  rw [corridorEvents, List.filter_flatMap, List.map_eq_flatMap]
  rfl

/-- Actions follow each other in any measure in which neighbours do. -/
theorem SoundCorridor.pairwise (h : SoundCorridor policy placed) (key : PlacedAction → ℤ)
    (hkey : ∀ left right, SoundPlaced policy left → SoundPlaced policy right →
      Follows policy left right → key left < key right) :
    placed.Pairwise fun left right => key left < key right := by
  have htrans : Trans (fun left right : PlacedAction => key left < key right)
      (fun left right => key left < key right) fun left right => key left < key right :=
    ⟨fun hab hbc => lt_trans hab hbc⟩
  refine List.IsChain.pairwise (List.isChain_iff_getElem.2 fun i hi => ?_)
  exact hkey _ _ (h.sound _ (List.getElem_mem _)) (h.sound _ (List.getElem_mem _))
    (h.chain.getElem i hi)

theorem SoundCorridor.pairwise_xferStart (h : SoundCorridor policy placed) :
    placed.Pairwise fun left right => left.xferStart < right.xferStart := by
  refine h.pairwise PlacedAction.xferStart fun left right hleft _ hfollows => ?_
  obtain ⟨-, -, -, -, hxfer, -, -⟩ := hleft.bounds
  have := hfollows.xferEnd_le
  omega

theorem SoundCorridor.pairwise_settleEnd (h : SoundCorridor policy placed) :
    placed.Pairwise fun left right => left.settleEnd < right.settleEnd := by
  refine h.pairwise PlacedAction.settleEnd fun left right hleft hright hfollows => ?_
  obtain ⟨-, -, -, -, -, -, hle⟩ := hleft.bounds
  obtain ⟨-, -, -, -, hxfer, hsettle, -⟩ := hright.bounds
  have := hfollows.xferEnd_le
  omega

theorem xferReasons_eq_nil (h : SoundCorridor policy placed) :
    xferReasons (corridorEvents placed) = [] := by
  rw [xferReasons, filter_xfer_corridorEvents, sortedBy_of_pairwise, Spans.neighbours_map,
    List.filterMap_map, List.filterMap_eq_nil_iff]
  · intro row hrow
    have := (Spans.forall_mem_neighbours h.chain row hrow).xferEnd_le
    exact if_neg (not_lt.2 this)
  · exact List.pairwise_map.2 (h.pairwise_xferStart.imp fun hlt => hlt.le)

theorem completionOrder_eq (h : SoundCorridor policy placed)
    (hnodup : (placed.map PlacedAction.actionId).Nodup) :
    completionOrder (corridorEvents placed) = placed.map PlacedAction.actionId := by
  have hkeys : ((placed.map fun row => (row.actionId, row.settleEnd)).map Prod.fst).Nodup := by
    rwa [List.map_map]
  have hrows : (OrderedDict.ofList (((corridorEvents placed).filter (·.phase = .bleSettle)).map
      fun event => (event.actionId, event.endMs))).rows =
      placed.map fun row => (row.actionId, row.settleEnd) := by
    rw [filter_settle_corridorEvents, List.map_map]
    exact OrderedDict.rows_ofList hkeys
  simp only [completionOrder]
  rw [hrows, sortedBy_of_pairwise, List.map_map]
  · rfl
  · refine List.pairwise_map.2 (h.pairwise_settleEnd.imp fun hlt => ?_)
    exact (Prod.Lex.toLex_lt_toLex.2 (.inl hlt)).le

/-- Nothing is wrong with two neighbours. -/
theorem pairReasons_eq (h : SoundCorridor policy placed)
    (hnodup : (placed.map PlacedAction.actionId).Nodup) {pair : PlacedAction × PlacedAction}
    (hpair : pair ∈ Spans.neighbours placed) :
    pairReasons (corridorEvents placed) policy (pair.1.actionId, pair.1.action)
      (pair.2.actionId, pair.2.action) = {} := by
  obtain ⟨left, right⟩ := pair
  obtain ⟨hleft, hright⟩ := List.of_mem_zip hpair
  have hright : right ∈ placed := List.mem_of_mem_drop hright
  have hfollows : Follows policy left right := Spans.forall_mem_neighbours h.chain _ hpair
  have hblocked : ¬ (right.advStart < left.settleEnd ∧
      ¬ (advOverlapAdmission left.action right.action policy).isEmpty) := by
    rintro ⟨hlt, hadmission⟩
    exact hlt.ne (hfollows.blocked (Bool.eq_false_iff.2 hadmission))
  have hanchor : ¬ ((right.advStart < left.settleEnd ∧
      (advOverlapAdmission left.action right.action policy).isEmpty ∧
        right.advStart < left.xferStart) ∧
      ¬ allowAdvAnchorDuringConnectPrepare left.action right.action policy) := by
    rintro ⟨⟨-, -, hlt⟩, hanchor⟩
    exact absurd hlt (not_lt.2 (hfollows.unanchored (Bool.eq_false_iff.2 hanchor)))
  have hearly : ¬ ((right.advStart < left.settleEnd ∧
      (advOverlapAdmission left.action right.action policy).isEmpty ∧
        right.advStart < left.xferStart) ∧ right.advStart < left.connectStart) :=
    fun hlt => absurd hlt.2 (not_lt.2 hfollows.connectStart_le)
  have hconnect : (if right.connectStart < left.settleEnd then
      (connectOverlapAdmission left.action right.action policy).map fun reason =>
        left.actionId ++ "->" ++ right.actionId ++ ":" ++ reason else []) = [] := by
    split_ifs with hlt
    · cases hadmission : (connectOverlapAdmission left.action right.action policy).isEmpty with
      | true => rw [List.isEmpty_iff.1 hadmission, List.map_nil]
      | false => exact absurd hlt (not_lt.2 (hfollows.unconnected hadmission))
    · rfl
  simp only [pairReasons, eventOf_corridorEvents hnodup hleft,
    eventOf_corridorEvents hnodup hright, PlacedAction.eventAt]
  rw [if_neg hblocked, if_neg hanchor, if_neg hearly, hconnect]

/-- The events of an action lie between the start of its preparation and its end. -/
theorem events_span (h : SoundPlaced policy row) : ∀ event ∈ row.events,
    row.advStart ≤ event.startMs ∧ event.endMs ≤ row.settleEnd := by
  obtain ⟨h₁, h₂, h₃, h₄, h₅, h₆, -⟩ := h.bounds
  simp only [PlacedAction.events, List.forall_mem_cons, List.not_mem_nil, false_imp_iff,
    implies_true, and_true]
  omega

/-- The actions at work at an instant. -/
def activeActions (refinedEvents : List BLEMicroEvent) (point : ℤ) : List String :=
  Spans.activeAt BLEMicroEvent.actionId BLEMicroEvent.startMs BLEMicroEvent.endMs refinedEvents
    point

/-- When actions `k` apart do not overlap, at most `k` are at work at any instant. -/
theorem SoundCorridor.length_activeActions_le (h : SoundCorridor policy placed) {k : ℕ}
    (hapart : Spans.Apart PlacedAction.advStart PlacedAction.settleEnd k placed) (point : ℤ) :
    (activeActions (corridorEvents placed) point).length ≤ k :=
  Spans.length_activeAt_le (fun _ _ => actionId_of_mem_events)
    (fun row hrow => events_span (h.sound row hrow)) hapart point

/-- The policy looks ahead as far as actions may stack up. -/
def LooksAhead (policy : BLEMicroRefinementPolicy) (actions : List Dict) : Prop :=
  3 ≤ policy.maxLookaheadActions ∨
    (2 ≤ policy.maxLookaheadActions ∧ ∀ i, ¬ StacksDeep policy actions i) ∨
    (1 ≤ policy.maxLookaheadActions ∧ ∀ i, ¬ Stacks policy actions i)

/-- Then there are never more actions at work than it allows. -/
theorem SoundCorridor.exists_apart (h : SoundCorridor policy placed)
    (hlooks : LooksAhead policy (actionsOf placed)) :
    ∃ k : ℕ, (k : ℤ) ≤ policy.maxLookaheadActions + 1 ∧
      Spans.Apart PlacedAction.advStart PlacedAction.settleEnd k placed := by
  rcases hlooks with hmax | ⟨hmax, hstack⟩ | ⟨hmax, hstack⟩
  · exact ⟨4, by omega, h.apart_four⟩
  · exact ⟨3, by omega, h.apart_three hstack⟩
  · exact ⟨2, by omega, h.apart_two hstack⟩

theorem foldl_max_le {l : List ℤ} {a b : ℤ} (ha : a ≤ b) (h : ∀ c ∈ l, c ≤ b) :
    l.foldl max a ≤ b := by
  induction l generalizing a with
  | nil => exact ha
  | cons c l ih =>
    exact ih (max_le ha (h c List.mem_cons_self)) fun d hd => h d (List.mem_cons_of_mem c hd)

theorem refinedLatencyMs_le {refinedEvents : List BLEMicroEvent} {b : ℤ} (hb : 0 ≤ b)
    (h : ∀ event ∈ refinedEvents, event.endMs ≤ b) : refinedLatencyMs refinedEvents ≤ b := by
  cases refinedEvents with
  | nil => exact hb
  | cons event events =>
    refine foldl_max_le (h event List.mem_cons_self) fun c hc => ?_
    obtain ⟨other, hother, rfl⟩ := List.mem_map.1 hc
    exact h other (List.mem_cons_of_mem event hother)

end Validator

/-! ## The result -/

section Result

variable {policy : BLEMicroRefinementPolicy} {actionIds : List String}
  {actionLookup : OrderedDict String Dict}

/-- The ids of a corridor are different, and those of BLE actions. -/
structure BleCorridor (actionLookup : OrderedDict String Dict) (actionIds : List String) :
    Prop where
  nodup : actionIds.Nodup
  ble : ∀ actionId ∈ actionIds, ∃ action,
    actionLookup.get? actionId = some action ∧ actionProtocol action = "BLE"

theorem exists_actionRows (h : BleCorridor actionLookup actionIds) :
    ∃ rows, actionRows actionIds actionLookup = .ok rows ∧ rows.map Prod.fst = actionIds ∧
      ∀ row ∈ rows, actionProtocol row.2 = "BLE" := by
  have hble := h.ble
  clear h
  induction actionIds with
  | nil => exact ⟨[], rfl, rfl, fun row hrow => absurd hrow List.not_mem_nil⟩
  | cons actionId actionIds ih =>
    obtain ⟨rows, hrows, hmap, hall⟩ := ih fun other hother => hble other (List.mem_cons_of_mem _ hother)
    obtain ⟨action, haction, hprotocol⟩ := hble actionId List.mem_cons_self
    refine ⟨(actionId, action) :: rows, ?_, ?_, fun row hrow => ?_⟩
    · rw [actionRows, List.mapM_cons, haction]
      exact bind_eq_ok.2 ⟨_, rfl, bind_eq_ok.2 ⟨rows, hrows, rfl⟩⟩
    · rw [List.map_cons, hmap]
    · rcases List.mem_cons.1 hrow with rfl | hrow
      · exact hprotocol
      · exact hall row hrow

/-- Every check succeeds but the one of the depth, which decides. -/
structure PassesByDepth (result : BLEMicroValidationResult) : Prop where
  completion : result.coarseCompletionOrderPreserved = true
  phaseOrder : result.phaseOrderValid = true
  xfer : result.xferSerialized = true
  scanner : result.scannerConstraintsOk = true
  connectable : result.connectableConstraintsOk = true
  slot : result.slotConstraintsOk = true
  type : result.typeConstraintsOk = true
  rollback : result.rollbackConstraintsOk = true
  passed : result.passed = result.lookaheadDepthOk

/-- The verdict about a corridor that is placed well. -/
theorem passesByDepth_corridor {placed : List PlacedAction} (h : SoundCorridor policy placed)
    (hnodup : (placed.map PlacedAction.actionId).Nodup) :
    PassesByDepth (validateRows (corridorEvents placed) policy
      (placed.map fun row => (row.actionId, row.action))) := by
  have hids : (placed.map fun row => (row.actionId, row.action)).map Prod.fst =
      placed.map PlacedAction.actionId := by
    rw [List.map_map]
    rfl
  have hphase : ((placed.map PlacedAction.actionId).all fun actionId =>
      (phaseOrderReasons (corridorEvents placed) actionId).isEmpty) = true := by
    simp only [List.all_map, List.all_eq_true, Function.comp_apply]
    exact fun row hrow => List.isEmpty_iff.2 (phaseOrderReasons_eq_nil h hnodup hrow)
  have hrollback : ((placed.map PlacedAction.actionId).all fun actionId =>
      (rollbackReasons (corridorEvents placed) policy actionId).isEmpty) = true := by
    simp only [List.all_map, List.all_eq_true, Function.comp_apply]
    exact fun row hrow => List.isEmpty_iff.2 (rollbackReasons_eq_nil h hnodup hrow)
  have hxfer : (xferReasons (corridorEvents placed)).isEmpty = true :=
    List.isEmpty_iff.2 (xferReasons_eq_nil h)
  have hcompletion : decide (completionOrder (corridorEvents placed) =
      placed.map PlacedAction.actionId) = true := decide_eq_true (completionOrder_eq h hnodup)
  have hpairs : ∀ pair ∈ (Spans.neighbours
      (placed.map fun row => (row.actionId, row.action))).map fun row =>
        pairReasons (corridorEvents placed) policy row.1 row.2, pair = {} := by
    rw [Spans.neighbours_map, List.map_map]
    intro pair hpair
    obtain ⟨row, hrow, rfl⟩ := List.mem_map.1 hpair
    exact pairReasons_eq h hnodup hrow
  have hall : ∀ part : PairReasons → List String, part {} = [] →
      (((Spans.neighbours (placed.map fun row => (row.actionId, row.action))).map fun row =>
        pairReasons (corridorEvents placed) policy row.1 row.2).all fun pair =>
          (part pair).isEmpty) = true := by
    intro part hpart
    rw [List.all_eq_true]
    intro pair hpair
    rw [hpairs pair hpair, hpart]
    rfl
  have hkind := hall PairReasons.kind rfl
  have hscanner := hall PairReasons.scanner rfl
  have hconnect := hall PairReasons.connect rfl
  constructor <;> simp only [validateRows, hids, hphase, hrollback, hxfer, hcompletion, hkind,
    hscanner, hconnect, Bool.true_and, Bool.and_true]

/-- The refined corridor passes every check but the one of the depth, and takes no longer than its
actions one after the other.  At most four actions are at work at any instant, and no more than the
validator allows when the policy looks ahead as far as actions may stack up; then the corridor is
accepted. -/
theorem validateRefinedCorridor_expand (h : BleCorridor actionLookup actionIds)
    (hadv : 0 ≤ policy.prepareAdvTimeoutMs) (hconnect : 0 ≤ policy.prepareConnectTimeoutMs) :
    ∃ rows events result, actionRows actionIds actionLookup = .ok rows ∧
      expandConservativeOverlap policy actionIds actionLookup = .ok events ∧
      validateRefinedCorridor events policy actionIds actionLookup = .ok result ∧
      PassesByDepth result ∧
      refinedLatencyMs events ≤ (rows.map fun row => estimatedActionLatencyMs row.2).sum ∧
      (∀ point, (activeActions events point).length ≤ 4) ∧
      (LooksAhead policy (rows.map Prod.snd) → result.passed = true ∧
        ∀ point, ((activeActions events point).length : ℤ) ≤ policy.maxLookaheadActions + 1) := by
  obtain ⟨rows, hrows, hids, hble⟩ := exists_actionRows h
  obtain ⟨hsound, hmap, hlast⟩ := placeAll_sound hadv hconnect hble
  have hnodup : ((placeAll policy rows).map PlacedAction.actionId).Nodup := by
    have hnames : (placeAll policy rows).map PlacedAction.actionId = rows.map Prod.fst := by
      conv_rhs => rw [← hmap]
      rw [List.map_map]
      rfl
    rw [hnames, hids]
    exact h.nodup
  have hactions : rows.map Prod.snd = actionsOf (placeAll policy rows) := by
    conv_lhs => rw [← hmap]
    rw [List.map_map]
    rfl
  have hverdict := passesByDepth_corridor hsound hnodup
  rw [hmap] at hverdict
  refine ⟨rows, corridorEvents (placeAll policy rows), _, hrows,
    bind_eq_ok.2 ⟨rows, hrows, rfl⟩, bind_eq_ok.2 ⟨rows, hrows, rfl⟩, hverdict, ?_,
    hsound.length_activeActions_le hsound.apart_four, fun hlooks => ?_⟩
  · refine refinedLatencyMs_le (List.sum_nonneg fun cost hcost => ?_) fun event hevent => ?_
    · obtain ⟨row, hrow, rfl⟩ := List.mem_map.1 hcost
      obtain ⟨k, hk, -, hcost⟩ := ble_latency (hble row hrow)
      omega
    · obtain ⟨row, hrow, hmem⟩ := List.mem_flatMap.1 hevent
      exact ((events_span (hsound.sound row hrow)) event hmem).2.trans (hlast row hrow)
  · rw [hactions] at hlooks
    obtain ⟨k, hk, hapart⟩ := hsound.exists_apart hlooks
    have hdepth := hsound.length_activeActions_le hapart
    refine ⟨?_, fun point => ?_⟩
    · rw [hverdict.passed]
      have hmax : maxActiveActions (corridorEvents (placeAll policy rows)) ≤ k :=
        Spans.depth_le hdepth
      exact decide_eq_true (le_trans (Int.ofNat_le.2 hmax) hk)
    · exact le_trans (Int.ofNat_le.2 (hdepth point)) hk

end Result

/-! ## Three actions at work at the same time -/

/-- A lamp of its own. -/
def lampAction (actionId : String) : Dict :=
  [("action_id", .str actionId), ("protocol", .str "BLE"), ("action_kind", .str "turn_on"),
    ("target", .dict [("device_id", .str actionId), ("source", .str "switchbot")])]

def lampLookup : OrderedDict String Dict :=
  .ofList (["A1", "A2", "A3"].map fun actionId => (actionId, lampAction actionId))

/-- Connecting may overlap, and there are slots for it. -/
def overlapPolicy : BLEMicroRefinementPolicy where
  allowConnectPrepareOverlap := true
  connectableSlotLimit := 2

theorem bleCorridor_lamps : BleCorridor lampLookup ["A1", "A2", "A3"] where
  nodup := by decide
  ble := by
    have hlamps : ∀ actionId ∈ ["A1", "A2", "A3"],
        actionProtocol (lampAction actionId) = "BLE" := by decide +kernel
    refine List.forall_mem_cons.2 ⟨⟨lampAction "A1", rfl, hlamps "A1" (by decide)⟩,
      List.forall_mem_cons.2 ⟨⟨lampAction "A2", rfl, hlamps "A2" (by decide)⟩,
        List.forall_mem_singleton.2 ⟨lampAction "A3", rfl, hlamps "A3" (by decide)⟩⟩⟩

theorem validateRefinedCorridor_expand_lamps :
    ∃ rows events result, actionRows ["A1", "A2", "A3"] lampLookup = .ok rows ∧
      expandConservativeOverlap overlapPolicy ["A1", "A2", "A3"] lampLookup = .ok events ∧
      validateRefinedCorridor events overlapPolicy ["A1", "A2", "A3"] lampLookup = .ok result ∧
      PassesByDepth result ∧
      refinedLatencyMs events ≤ (rows.map fun row => estimatedActionLatencyMs row.2).sum ∧
      (∀ point, (activeActions events point).length ≤ 4) ∧
      (LooksAhead overlapPolicy (rows.map Prod.snd) → result.passed = true ∧
        ∀ point, ((activeActions events point).length : ℤ) ≤
          overlapPolicy.maxLookaheadActions + 1) :=
  validateRefinedCorridor_expand bleCorridor_lamps (by decide) (by decide)

/-- The first lamp settles and the second transfers when the third advertises: the corridor is
rejected, although the policy looks ahead one action. -/
theorem expand_exceeds_lookahead : BleCorridor lampLookup ["A1", "A2", "A3"] ∧
    0 ≤ overlapPolicy.prepareAdvTimeoutMs ∧ 0 ≤ overlapPolicy.prepareConnectTimeoutMs ∧
    1 ≤ overlapPolicy.maxLookaheadActions ∧ ∃ events result,
      expandConservativeOverlap overlapPolicy ["A1", "A2", "A3"] lampLookup = .ok events ∧
      validateRefinedCorridor events overlapPolicy ["A1", "A2", "A3"] lampLookup = .ok result ∧
      result.passed = false ∧ (activeActions events 800).length = 3 := by
  refine ⟨bleCorridor_lamps, by decide, by decide, by decide, ?_⟩
  have hrun : ((expandConservativeOverlap overlapPolicy ["A1", "A2", "A3"] lampLookup).toOption.bind
      fun events => (validateRefinedCorridor events overlapPolicy ["A1", "A2", "A3"]
        lampLookup).toOption.map fun result =>
          (result.passed, (activeActions events 800).length)) = some (false, 3) := by
    decide +kernel
  cases hevents : expandConservativeOverlap overlapPolicy ["A1", "A2", "A3"] lampLookup with
  | error e => simp [hevents, Except.toOption] at hrun
  | ok events =>
    cases hresult : validateRefinedCorridor events overlapPolicy ["A1", "A2", "A3"] lampLookup with
    | error e => simp [hevents, hresult, Except.toOption] at hrun
    | ok result =>
      simp only [hevents, hresult, Except.toOption, Option.bind_some, Option.map_some,
        Option.some.injEq, Prod.mk.injEq] at hrun
      exact ⟨events, result, rfl, hresult, hrun⟩

end FloWeaver.Micro
