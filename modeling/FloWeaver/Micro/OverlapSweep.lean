import FloWeaver.Lib.Grouped
import FloWeaver.Lib.Spans
import FloWeaver.Py.Sort
import Mathlib.Order.Bounds.Defs

/-!
# The sweep over a simulated plan

The validator of a combined refinement counts how many events of one kind overlap: it samples the
instants at which an event starts or ends, and keeps the largest count for every key.

* `CombinedSimulatedEvent`, `sweepMaxOverlap` — the events and the sweep.
* `overlapAt` — how many events of a key there are at an instant.
* `sweepMaxOverlap_exact` — the sweep finds the maximum over all instants.
-/

namespace FloWeaver.Micro

open Py

/-- An event of a simulated plan, with the keys under which overlaps are counted. -/
structure CombinedSimulatedEvent where
  phase : String
  startMs : ℤ
  endMs : ℤ
  hostKey : String := ""
  bucketKey : String := ""
  sessionKey : String := ""
  endpointKey : String := ""

namespace CombinedSimulatedEvent

/-- The event has started at an instant and has not ended. -/
def activeAt (event : CombinedSimulatedEvent) (point : ℤ) : Bool :=
  event.startMs ≤ point && point < event.endMs

end CombinedSimulatedEvent

section Sweep

variable (events : List CombinedSimulatedEvent) (phaseFilter : Option (List String))
  (keyFn : Option (CombinedSimulatedEvent → String))

/-- The key of an event; without a key function all events have one. -/
def overlapKey (event : CombinedSimulatedEvent) : String :=
  match keyFn with
  | some key => key event
  | none => "__all__"

def filteredEvents : List CombinedSimulatedEvent :=
  match phaseFilter with
  | some phases => events.filter fun event => phases.contains event.phase
  | none => events

/-- The counts of the events that are active at an instant. -/
def bucketsAt (point : ℤ) : OrderedDict String ℕ :=
  (((filteredEvents events phaseFilter).filter (·.activeAt point)).map fun event =>
    (overlapKey keyFn event, 1)).foldl OrderedDict.bump .empty

/-- `sorted({starts} | {ends})`. -/
def timePoints : List ℤ :=
  let filtered := filteredEvents events phaseFilter
  sortedBy id (filtered.map (·.startMs) ++ filtered.map (·.endMs)).dedup

def sweepMaxOverlap : OrderedDict String ℕ :=
  (timePoints events phaseFilter).foldl
    (fun maxima point => (bucketsAt events phaseFilter keyFn point).rows.foldl
      OrderedDict.raise maxima) .empty

/-- How many events of a key are active at an instant. -/
def overlapAt (key : String) (point : ℤ) : ℕ :=
  (filteredEvents events phaseFilter).countP fun event =>
    event.activeAt point && decide (overlapKey keyFn event = key)

end Sweep

/-! ## One instant -/

section Counts

variable {events : List CombinedSimulatedEvent} {phaseFilter : Option (List String)}
  {keyFn : Option (CombinedSimulatedEvent → String)} {key : String}

theorem valueAt_bucketsAt (point : ℤ) :
    (bucketsAt events phaseFilter keyFn point).valueAt key =
      overlapAt events phaseFilter keyFn key point := by
  rw [bucketsAt, OrderedDict.valueAt_foldl_bump, overlapAt]
  generalize filteredEvents events phaseFilter = filtered
  rw [show (OrderedDict.empty : OrderedDict String ℕ).valueAt key = 0 from rfl, zero_add]
  induction filtered with
  | nil => rfl
  | cons event filtered ih =>
    rw [List.filter_cons, List.countP_cons, ← ih]
    by_cases hactive : event.activeAt point = true
    · by_cases hkey : overlapKey keyFn event = key <;> simp [hactive, hkey, Nat.add_comm]
    · simp [hactive]

theorem mem_keys_bucketsAt (point : ℤ) :
    key ∈ (bucketsAt events phaseFilter keyFn point).keys ↔
      0 < overlapAt events phaseFilter keyFn key point := by
  rw [bucketsAt, OrderedDict.mem_keys_foldl_bump, overlapAt, List.countP_pos_iff]
  simp [OrderedDict.keys, OrderedDict.empty, and_assoc]

/-- What overlaps at an instant overlaps at an instant that is sampled. -/
theorem exists_timePoint {point : ℤ} (h : 0 < overlapAt events phaseFilter keyFn key point) :
    ∃ sample ∈ timePoints events phaseFilter, overlapAt events phaseFilter keyFn key point ≤
      overlapAt events phaseFilter keyFn key sample := by
  obtain ⟨event, hevent, hactive⟩ := List.countP_pos_iff.1 h
  rw [Bool.and_eq_true, CombinedSimulatedEvent.activeAt, Bool.and_eq_true, decide_eq_true_eq,
    decide_eq_true_eq] at hactive
  obtain ⟨last, hlast, -, hall⟩ := Spans.exists_start_of_active ⟨event, hevent, hactive.1⟩
  refine ⟨last.startMs, ?_, List.countP_mono_left fun other hother hother' => ?_⟩
  · rw [timePoints, mem_sortedBy, List.mem_dedup]
    exact List.mem_append_left _ (List.mem_map_of_mem hlast)
  · rw [Bool.and_eq_true, CombinedSimulatedEvent.activeAt, Bool.and_eq_true, decide_eq_true_eq,
      decide_eq_true_eq] at hother'
    obtain ⟨⟨hstart, hstop⟩, hkey⟩ := hother'
    obtain ⟨h1, h2⟩ := hall other hother hstart hstop
    simp [CombinedSimulatedEvent.activeAt, h1, h2, of_decide_eq_true hkey]

/-! ## All instants -/

theorem sweepMaxOverlap_eq : sweepMaxOverlap events phaseFilter keyFn =
    ((timePoints events phaseFilter).flatMap fun point =>
      (bucketsAt events phaseFilter keyFn point).rows).foldl OrderedDict.raise .empty := by
  rw [sweepMaxOverlap, List.foldl_flatMap]

theorem le_valueAt_sweep {n : ℕ} :
    n ≤ (sweepMaxOverlap events phaseFilter keyFn).valueAt key ↔
      n = 0 ∨ ∃ point, n ≤ overlapAt events phaseFilter keyFn key point := by
  rw [sweepMaxOverlap_eq, OrderedDict.le_valueAt_foldl_raise]
  rcases Nat.eq_zero_or_pos n with rfl | hpos
  · exact ⟨fun _ => .inl rfl, fun _ => .inl (Nat.zero_le _)⟩
  refine or_congr Nat.le_zero ⟨?_, ?_⟩
  · rintro ⟨row, hrow, rfl, hle⟩
    obtain ⟨point, -, hrow⟩ := List.mem_flatMap.1 hrow
    refine ⟨point, hle.trans_eq ?_⟩
    rw [← valueAt_bucketsAt, OrderedDict.valueAt, OrderedDict.get?_of_mem_rows hrow]
    rfl
  · rintro ⟨point, hle⟩
    obtain ⟨sample, hsample, hmore⟩ := exists_timePoint (hpos.trans_le hle)
    have hkey := (mem_keys_bucketsAt sample).2 (hpos.trans_le (hle.trans hmore))
    obtain ⟨count, hcount⟩ := Option.isSome_iff_exists.1 (OrderedDict.get?_isSome_iff.2 hkey)
    refine ⟨(key, count), List.mem_flatMap.2 ⟨sample, hsample, OrderedDict.mem_rows_of_get? hcount⟩,
      rfl, (hle.trans hmore).trans_eq ?_⟩
    rw [← valueAt_bucketsAt, OrderedDict.valueAt, hcount]
    rfl

theorem mem_keys_sweep : key ∈ (sweepMaxOverlap events phaseFilter keyFn).keys ↔
    ∃ point, 0 < overlapAt events phaseFilter keyFn key point := by
  rw [sweepMaxOverlap_eq, OrderedDict.mem_keys_foldl_raise]
  constructor
  · rintro (hnone | hkey)
    · exact absurd hnone List.not_mem_nil
    · obtain ⟨row, hrow, rfl⟩ := List.mem_map.1 hkey
      obtain ⟨point, -, hrow⟩ := List.mem_flatMap.1 hrow
      exact ⟨point, (mem_keys_bucketsAt point).1 (List.mem_map_of_mem hrow)⟩
  · rintro ⟨point, hpos⟩
    obtain ⟨sample, hsample, hmore⟩ := exists_timePoint hpos
    obtain ⟨row, hrow, hkey⟩ := List.mem_map.1 ((mem_keys_bucketsAt sample).2 (hpos.trans_le hmore))
    exact .inr (List.mem_map.2 ⟨row, List.mem_flatMap.2 ⟨sample, hsample, hrow⟩, hkey⟩)

end Counts

/-- For every key the sweep has the largest number of its events at any instant, and no row where
this is zero. -/
theorem sweepMaxOverlap_exact (events : List CombinedSimulatedEvent)
    (phaseFilter : Option (List String)) (keyFn : Option (CombinedSimulatedEvent → String))
    (key : String) :
    ∃ most, IsGreatest (Set.range (overlapAt events phaseFilter keyFn key)) most ∧
      (sweepMaxOverlap events phaseFilter keyFn).get? key = if most = 0 then none else some most := by
  have hupper : ∀ point, overlapAt events phaseFilter keyFn key point ≤
      (sweepMaxOverlap events phaseFilter keyFn).valueAt key := fun point =>
    le_valueAt_sweep.2 (.inr ⟨point, le_rfl⟩)
  refine ⟨(sweepMaxOverlap events phaseFilter keyFn).valueAt key, ⟨?_, ?_⟩, ?_⟩
  · rcases le_valueAt_sweep.1 (le_refl ((sweepMaxOverlap events phaseFilter keyFn).valueAt key)) with
      hzero | ⟨point, hle⟩
    · exact ⟨0, le_antisymm (hupper 0) (hzero ▸ Nat.zero_le _)⟩
    · exact ⟨point, le_antisymm (hupper point) hle⟩
  · rintro _ ⟨point, rfl⟩
    exact hupper point
  · cases hget : (sweepMaxOverlap events phaseFilter keyFn).get? key with
    | none => rw [OrderedDict.valueAt, hget, Option.getD_none, if_pos rfl]
    | some most =>
      obtain ⟨point, hpos⟩ := mem_keys_sweep.1
        (OrderedDict.get?_isSome_iff.1 (Option.isSome_iff_exists.2 ⟨most, hget⟩))
      have hvalue := hpos.trans_le (hupper point)
      rw [OrderedDict.valueAt, hget, Option.getD_some] at hvalue ⊢
      rw [if_neg hvalue.ne']

end FloWeaver.Micro
