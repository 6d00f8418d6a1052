import FloWeaver.Scheduler.Action

/-!
# How long an action takes

The refinements of a plan compare it by estimates: every action has a latency by its protocol and
its kind, and the actions of a group overlap as far as their protocol allows.

* `actionProtocol`, `actionKind` — what the estimate depends on.
* `estimatedActionLatencyMs` — the latency of an action.
* `groupLatencyMs`, `batchLatencyMs`, `estimatePlanLatencyMs` — of a group, a batch and a plan.
-/

namespace FloWeaver.Micro

open Py
open Scheduler (actionIndex execCfg firstOf)

/-- `str(value or "").strip()`. -/
def textOf (value : Val) : String := strip (firstOf [value]).pyStr

/-- The first of some values that is not blank. -/
def firstText (values : List Val) : String := ((values.map textOf).find? (· ≠ "")).getD ""

def actionProtocol (action : Dict) : String :=
  let token := upper (textOf (action.get "protocol"))
  if token = "MQTT" then "LOCAL" else if token = "" then "UNKNOWN" else token

def actionKind (action : Dict) : String :=
  let token := lower (firstText [action.get "action_kind", action.get "type", action.get "kind",
    (execCfg action).get "service"])
  if token = "" then "unknown" else token

def isControlLike (action : Dict) : Bool :=
  ["turn_on", "turn_off", "set_", "open", "close", "play_media", "set_volume",
    "set_cover_position"].any (contains (actionKind action) ·)

def bleDurationMs : List (String × ℤ) :=
  [("set_cover_position", 950), ("refresh_cover", 850), ("read_sensor", 750),
    ("read_status", 650), ("connect", 1200), ("subscribe", 450), ("set_percentage", 850),
    ("turn_on", 850), ("turn_off", 800)]

def defaultBleDurationMs : ℤ := 800

def estimatedActionLatencyMs (action : Dict) : ℤ :=
  let protocol := actionProtocol action
  let kind := actionKind action
  if protocol = "BLE" then (bleDurationMs.lookup kind).getD defaultBleDurationMs
  else if protocol = "CLOUD" then
    if contains kind "runtime" then 450 else if isControlLike action then 400 else 350
  else if protocol = "LOCAL" then if contains kind "read_last_message" then 80 else 100
  else if protocol = "HA" then 50
  else 100

/-- `max(costs)` of costs that are not negative. -/
def maxCost (costs : List ℤ) : ℤ := costs.foldr max 0

section Plan

variable (actionLookup : OrderedDict String Dict)

/-- The latency of a group: actions on one BLE radio follow each other, others start one after the
other or at once. -/
def groupLatencyMs (group : List String) : ℤ :=
  let actions := group.filterMap actionLookup.get?
  let protocols := (actions.map actionProtocol).eraseDups
  let costs := actions.map estimatedActionLatencyMs
  let extra : ℤ := actions.length - 1
  if actions.isEmpty then 0
  else if protocols = ["BLE"] then costs.sum
  else if protocols = ["LOCAL"] then maxCost costs + max 0 (20 * extra)
  else if protocols = ["HA"] then maxCost costs + max 0 (10 * extra)
  else if protocols = ["CLOUD"] then maxCost costs + max 0 (120 * extra)
  else maxCost costs

def batchLatencyMs (batch : Batch) : ℤ :=
  maxCost (batch.parallelGroups.map (groupLatencyMs actionLookup))

end Plan

def estimatePlanLatencyMs (plan : ExecutionPlan) (target : OptimizationTarget) : ℤ :=
  (plan.orderedBatches.map (batchLatencyMs (actionIndex target))).sum

/-! ## The longest of some costs -/

theorem maxCost_nonneg (costs : List ℤ) : 0 ≤ maxCost costs := by
  induction costs with
  | nil => exact le_rfl
  | cons cost costs ih => exact ih.trans (le_max_right _ _)

theorem le_maxCost {costs : List ℤ} {cost : ℤ} (h : cost ∈ costs) : cost ≤ maxCost costs := by
  induction costs with
  | nil => cases h
  | cons other costs ih =>
    rcases List.mem_cons.1 h with rfl | h
    · exact le_max_left _ _
    · exact (ih h).trans (le_max_right _ _)

/-! ## The latency of a BLE action -/

/-- The latency of a BLE action is a multiple of fifty, from 450 to 1200. -/
theorem ble_latency {action : Dict} (h : actionProtocol action = "BLE") :
    ∃ k : ℤ, 9 ≤ k ∧ k ≤ 24 ∧ estimatedActionLatencyMs action = 50 * k := by
  have hrows : ∀ row ∈ bleDurationMs,
      9 ≤ row.2 / 50 ∧ row.2 / 50 ≤ 24 ∧ row.2 = 50 * (row.2 / 50) := by decide
  simp only [estimatedActionLatencyMs, h, if_true]
  cases hlookup : bleDurationMs.lookup (actionKind action) with
  | none => exact ⟨16, by decide, by decide, rfl⟩
  | some cost =>
    exact ⟨cost / 50, hrows (actionKind action, cost) (mem_of_lookup hlookup)⟩

end FloWeaver.Micro
