import FloWeaver.Trace.Compare
import FloWeaver.Lib.OrderedDict

/-!
# The observation contract

Besides the comparison with the baseline, a trace is checked on its own: the operations it must
show, the entities it must write, their last values, and how often an operation may occur.

* `ObservationSchema` — what is required.
* `extractLastStateValues` — the last value written to each entity.
* `assertContract` — the check of one trace.
-/

namespace FloWeaver.Trace

open Py

structure ObservationSchema where
  semanticOps : List String :=
    ["ENTRY_SETUP", "ENTRY_UNLOAD", "COORD_REFRESH", "STATE_WRITE", "SUBSCRIBE", "UNSUBSCRIBE",
      "BLE_CONNECT", "BLE_DISCONNECT", "BLE_GATT_OP", "BLE_SCAN", "BLE_RETRY_OR_TIMEOUT",
      "CLOUD_HTTP_CALL", "CLOUD_TOKEN_REFRESH", "CLOUD_429_CHECK", "CLOUD_BACKOFF_SLEEP",
      "EXCEPTION"]
  canonicalizationVersion : String := "v1"
  requiredStateWrites : List String := []
  requiredFinalState : Dict := []
  opCountBounds : Dict := []
  opCountFactorUpper : List (String × ℚ) := []
  equivalenceWhitelist : List Val := []

/-- `_trace_compare_config`. -/
def ObservationSchema.traceCompareConfig (schema : ObservationSchema) : TraceCompareConfig :=
  fromObservation schema.canonicalizationVersion schema.equivalenceWhitelist

/-! ## The final state -/

/-- The parameters that hold the value of a write, the first one that is there. -/
def stateKeys : List String := ["state", "value", "payload_hash", "body_hash", "json_hash"]

/-- The value that an event writes. -/
def writtenValue (event : Event) : Val :=
  (stateKeys.findSome? event.paramsAbst.get?).getD (.dict event.paramsAbst)

/-- `_extract_last_state_values`. -/
def extractLastStateValues (events : List Event) : OrderedDict String Val :=
  events.foldl (fun values event =>
    if event.op ≠ "STATE_WRITE" then values else values.set event.target (writtenValue event))
    .empty

/-- `_normalize_expected_state`. -/
def normalizeExpectedState : Val → Val
  | .dict rows => (stateKeys.findSome? (Dict.get? rows)).getD (.dict rows)
  | expected => expected

/-! ## The checks -/

structure FinalStateMismatch where
  entityId : String
  expected : Val
  actual : Val

structure OpCountViolation where
  op : String
  count : ℕ
  min : Val
  max : Val

structure OpCountFactorViolation where
  op : String
  count : ℕ
  baselineCount : ℕ
  factor : ℚ
  maxAllowed : ℤ

structure ContractResult where
  passed : Bool
  failedOps : List String
  missingRequiredStateWrites : List String
  finalStateMismatches : List FinalStateMismatch
  opCountViolations : List OpCountViolation
  opCountFactorViolations : List OpCountFactorViolation

/-- `assert_trace_contract`: the required operations that do not occur. -/
def failedRules (events : List Event) (requiredOps : List String) : List String :=
  (normalizedOps requiredOps).filter fun op =>
    !events.any fun event => normalizeOpName event.op = op

def missingWrites (schema : ObservationSchema) (events : List Event) : List String :=
  schema.requiredStateWrites.filter fun entityId =>
    !events.any fun event => event.op = "STATE_WRITE" && event.target = entityId

def finalStateMismatches (schema : ObservationSchema) (events : List Event) :
    List FinalStateMismatch :=
  let last := extractLastStateValues events
  schema.requiredFinalState.filterMap fun row =>
    let expected := normalizeExpectedState row.2
    match last.get? row.1 with
    | some actual =>
        if actual.eqv expected then none else some { entityId := row.1, expected, actual }
    | none => some { entityId := row.1, expected, actual := .none }

/-- How often an operation occurs. -/
def opCount (events : List Event) (op : String) : ℕ := events.countP fun event => event.op = op

/-- `int(bound)`, when there is a bound. -/
def readBound : Val → Except PyErr (Option ℤ)
  | .none => .ok none
  | bound => bound.toInt.map some

/-- The bounds of one operation; the lower one is looked at first. -/
def opCountViolations (count : String → ℕ) (row : String × Val) :
    Except PyErr (List OpCountViolation) :=
  match row.2 with
  | .dict bounds => do
      let op := normalizeOpName row.1
      if op = "" then return []
      let min ← readBound (Dict.get bounds "min")
      match min with
      | some low =>
          if (count op : ℤ) < low then
            return [{ op, count := count op, min := .int low, max := Dict.get bounds "max" }]
          checkMax bounds op
      | none => checkMax bounds op
  | _ => .ok []
where
  checkMax (bounds : Dict) (op : String) : Except PyErr (List OpCountViolation) := do
    match ← readBound (Dict.get bounds "max") with
    | some high =>
        if high < (count op : ℤ) then
          return [{ op, count := count op, min := Dict.get bounds "min", max := .int high }]
        return []
    | none => return []

/-- The factor by which an operation may occur more often than in the baseline. -/
def opCountFactorViolation (baselineCount count : String → ℕ) (row : String × ℚ) :
    Option OpCountFactorViolation :=
  let op := normalizeOpName row.1
  let maxAllowed := Val.truncate (baselineCount op * row.2)
  if op = "" ∨ row.2 ≤ 0 ∨ (count op : ℤ) ≤ maxAllowed then none
  else some { op, count := count op, baselineCount := baselineCount op, factor := row.2,
              maxAllowed }

/-- The check of a trace, with the baseline when there is one to compare the counts with. -/
def assertContract (sha1 : String → String) (schema : ObservationSchema) (trace : List Event)
    (baselineTrace : Option (List Event)) : Except PyErr ContractResult := do
  let volatile := schema.traceCompareConfig.volatileParamKeys
  let canonical := trace.map (canonicalizeEvent sha1 volatile)
  let failedOps := failedRules canonical schema.semanticOps
  let missing := missingWrites schema canonical
  let mismatches := finalStateMismatches schema canonical
  let violations ← schema.opCountBounds.mapM (opCountViolations (opCount canonical))
  let factorViolations :=
    match baselineTrace with
    | some baseline =>
        let baselineCanonical := baseline.map (canonicalizeEvent sha1 volatile)
        schema.opCountFactorUpper.filterMap
          (opCountFactorViolation (opCount baselineCanonical) (opCount canonical))
    | none => []
  return {
    passed := failedOps.isEmpty && missing.isEmpty && mismatches.isEmpty &&
      violations.flatten.isEmpty && factorViolations.isEmpty
    failedOps
    missingRequiredStateWrites := missing
    finalStateMismatches := mismatches
    opCountViolations := violations.flatten
    opCountFactorViolations := factorViolations }

end FloWeaver.Trace
