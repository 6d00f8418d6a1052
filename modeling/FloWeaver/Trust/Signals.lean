import FloWeaver.Trace.Compare
import FloWeaver.Trust.Level1

/-!
# What a counterexample points at

The trust layer reads the operations out of the hunks of a counterexample: to tell what kind of
difference it is, which rules it involves, and which strategy to try first.

* `HunkPayload` — a hunk as it is stored in a counterexample.
* `inferCounterexample` — the kind of a difference.
* `isOrderTypeCounterexample`, `ruleInvolvedInCounterexamples` — the two tests on which the
  rollback depends.
* `level1StrategyChain` — the order in which the strategies are tried.
-/

namespace FloWeaver.Trust

open Py Trace
open Scheduler (strList)

/-! ## Hunks -/

/-- A hunk as a counterexample stores it. -/
structure HunkPayload where
  anchor : String
  baselineOps : List String
  optimizedOps : List String
  severity : String

def HunkPayload.ofHunk (hunk : DiffHunk) : HunkPayload :=
  ⟨hunk.anchor, hunk.baselineOps, hunk.optimizedOps, hunk.severity⟩

def HunkPayload.toDict (payload : HunkPayload) : Dict :=
  [("anchor", .str payload.anchor), ("baseline_ops", strList payload.baselineOps),
    ("optimized_ops", strList payload.optimizedOps), ("severity", .str payload.severity)]

/-- `[str(item) for item in payload.get(key, [])]`. -/
def payloadOps (payload : Dict) (key : String) : Except PyErr (List String) := do
  let items ← (payload.getD key (.list [])).needItems
  return items.map Val.pyStr

def readPayload (payload : Dict) : Except PyErr HunkPayload := do
  let baselineOps ← payloadOps payload "baseline_ops"
  let optimizedOps ← payloadOps payload "optimized_ops"
  return ⟨(payload.getD "anchor" (.str "UNKNOWN")).pyStr, baselineOps, optimizedOps,
    (payload.getD "severity" (.str "")).pyStr⟩

/-- The dicts among the hunks of a counterexample. -/
def counterexampleHunks (counterexample : CounterExample) : Except PyErr (List Dict) := do
  let hunks ← (counterexample.diffSummary.getD "hunks" (.list [])).needItems
  return hunks.filterMap fun hunk =>
    match hunk with
    | .dict rows => some rows
    | _ => none

/-! ## Operations -/

/-- `text.split(":", count)`. -/
def splitColons : ℕ → List Char → List (List Char)
  | 0, cs => [cs]
  | count + 1, cs =>
      match splitOnceL [':'] cs with
      | some (part, rest) => part :: splitColons count rest
      | none => [cs]

/-- The operation of an event text. -/
def eventReprOp (token : String) : String :=
  let text := strip token
  match splitColons 3 text.toList with
  | _ :: _ :: op :: _ => normalizeOpName (String.ofList op)
  | _ => normalizeOpName text

/-- The target of an event text. -/
def eventReprTarget (token : String) : String :=
  let text := strip token
  let part :=
    match splitColons 3 text.toList with
    | _ :: _ :: _ :: target :: _ => String.ofList target
    | _ => text
  let normalized := lower (strip part)
  let normalized :=
    if startsWith normalized "http://" || startsWith normalized "https://" then
      rstripSlash normalized
    else normalized
  String.ofList ((replaceChar normalized '-' ':').toList.filter (· ≠ ' '))

/-- The operations of a list of event texts, less the empty ones. -/
def opsOf (tokens : List String) : List String := (tokens.map eventReprOp).filter (· ≠ "")

def HunkPayload.ops (payload : HunkPayload) : List String :=
  opsOf (payload.anchor :: (payload.baselineOps ++ payload.optimizedOps))

def HunkPayload.targets (payload : HunkPayload) : List String :=
  ((payload.anchor :: (payload.baselineOps ++ payload.optimizedOps)).map eventReprTarget).filter
    (· ≠ "")

/-! ## Kinds of differences -/

/-- Two operations whose first occurrences are the other way round. -/
def hasSequenceInversion (baseline optimized : List String) : Bool :=
  let baselineUnique := baseline.eraseDups
  let optimizedUnique := optimized.eraseDups
  let common := baselineUnique.filter (optimizedUnique.contains ·)
  common.any fun left => common.any fun right =>
    decide (baselineUnique.idxOf left < baselineUnique.idxOf right ∧
      optimizedUnique.idxOf right < optimizedUnique.idxOf left)

/-- The kind of a difference, and what it is inferred by. -/
def inferCounterexample (payloads : List HunkPayload) : String × String :=
  let baseline := opsOf (payloads.flatMap (·.baselineOps))
  let optimized := opsOf (payloads.flatMap (·.optimizedOps))
  let within := optimized.all (baseline.contains ·)
  if baseline ≠ [] ∧ baseline.isPerm optimized then
    ("order_violation", "multiset_equal_but_order_diff")
  else if hasSequenceInversion baseline optimized then ("order_violation", "sequence_inversion")
  else if baseline ≠ [] ∧ optimized = [] then ("missing_prerequisite", "optimized_ops_missing")
  else if baseline ≠ [] ∧ optimized ≠ [] ∧ within ∧ !baseline.all (optimized.contains ·) then
    ("missing_prerequisite", "optimized_subset_of_baseline")
  else if baseline ≠ [] ∧ baseline.any (fun op => optimized.count op < baseline.count op) ∧ within
  then ("missing_prerequisite", "baseline_ops_missing_in_optimized")
  else ("semantic_delta", "op_set_delta")

def orderKinds : List String := ["order_violation", "missing_prerequisite"]

def isOrderTypeCounterexample (counterexample : CounterExample) : Except PyErr Bool :=
  if orderKinds.contains
      (lower (strip (counterexample.diffSummary.getD "kind" (.str "")).pyStr)) then .ok true
  else do
    let hunks ← counterexampleHunks counterexample
    let payloads ← hunks.mapM readPayload
    return !payloads.isEmpty && orderKinds.contains (inferCounterexample payloads).1

/-! ## Rules -/

/-- The hints of a rule as operations. -/
def ruleHints (rule : Rule) : List String := normalizedOps rule.markerHints

/-- The hints of a rule as texts. -/
def ruleTextHints (rule : Rule) : List String :=
  (rule.markerHints.filter fun item => 4 ≤ (strip item).length).map upper

/-- Does a hunk show one of the operations or texts of a rule? -/
def ruleInHunk (rule : Rule) (payload : HunkPayload) : Bool :=
  (ruleHints rule).any (payload.ops.contains ·) ||
    (ruleTextHints rule).any
      (contains (upper (join " " (payload.baselineOps ++ payload.optimizedOps))) ·)

def ruleInvolvedInCounterexamples (rule : Rule) (counterexamples : List CounterExample) :
    Except PyErr Bool :=
  counterexamples.anyM fun counterexample => do
    let hunks ← counterexampleHunks counterexample
    hunks.anyM fun hunk => do
      let payload ← readPayload hunk
      return ruleInHunk rule payload

/-! ## Strategies -/

/-- The operations in the hunks of all counterexamples, in one text. -/
def counterexampleText (counterexamples : List CounterExample) : Except PyErr String := do
  let ops ← counterexamples.mapM fun counterexample => do
    let hunks ← counterexampleHunks counterexample
    let payloads ← hunks.mapM readPayload
    return payloads.flatMap HunkPayload.ops
  return join " " (sortedSet ops.flatten)

/-- The strategies that the counterexamples call for. -/
def preferredStrategies (counterexamples : List CounterExample) :
    Except PyErr (List Level1Strategy) := do
  if ← counterexamples.anyM isOrderTypeCounterexample then return [.enforceMinGapNoOverlap]
  else
    let signalText ← counterexampleText counterexamples
    return if ["CLOUD_BACKOFF_SLEEP", "BLE_RETRY_OR_TIMEOUT", "TIMEOUT"].any
        (contains signalText ·) then
      [.reduceParallelism, .disableBatching, .disableSessionReuse]
    else []

/-- The strategies in the order in which they are tried. -/
def level1StrategyChain (counterexamples : List CounterExample) :
    Except PyErr (List Level1Strategy) := do
  let preferred ← preferredStrategies counterexamples
  return (preferred ++ level1Strategies).eraseDups

end FloWeaver.Trust
