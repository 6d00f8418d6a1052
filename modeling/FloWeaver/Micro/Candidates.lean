import FloWeaver.Lib.Greedy
import FloWeaver.Py.Sort
import FloWeaver.Py.Val

/-!
# Choosing among the refined corridors

The BLE and the API refinement both propose corridors that they made faster.  Candidates that touch
the same batches, actions or nearby resources cannot both be applied, so the one that saves more
wins.

* `CombinedCandidate`, `normalizeCandidate` — a corridor that was proposed.
* `candidateConflictReasons` — why two candidates cannot both be applied.
* `resolveCombinedCandidates` — which candidates are applied.
-/

namespace FloWeaver.Micro

open Py

/-- What the policy says about candidates. -/
structure CombinedMicroRefinementPolicy where
  forbidBatchOverlap : Bool := true
  forbidActionOverlap : Bool := true
  requireComponentValidation : Bool := true
  adjacentBatchGapThreshold : ℤ := 1
  forbidAdjacentSameBleSessionDomain : Bool := true
  forbidAdjacentSameApiHostDomain : Bool := false
  forbidAdjacentSameApiEndpointDomain : Bool := false

structure CombinedCandidate where
  source : String
  corridorId : String
  batchIds : List String
  actionIds : List String
  latencySavedMs : ℤ
  validationPassed : Bool
  payload : Dict := []

structure CombinedDecision where
  accepted : List CombinedCandidate := []
  rejected : List CombinedCandidate := []
  conflicts : List Dict := []

/-- The texts of a list without blanks around them; blank texts are left out. -/
def nonBlank (texts : List String) : List String := (texts.map strip).filter (· ≠ "")

def normalizeCandidate (candidate : CombinedCandidate) : CombinedCandidate where
  source := upper (strip candidate.source)
  corridorId := strip candidate.corridorId
  batchIds := nonBlank candidate.batchIds
  actionIds := nonBlank candidate.actionIds
  latencySavedMs := max 0 candidate.latencySavedMs
  validationPassed := candidate.validationPassed
  payload := candidate.payload

/-! ## Conflicts -/

/-- Do two lists have an element in common? -/
def meets (left right : List String) : Bool := left.any right.contains

/-- The numbers of the batches that are called `batch_` and a number. -/
def batchOrdinals (batchIds : List String) : List ℤ :=
  sortedBy id <| batchIds.filterMap fun batchId =>
    let token := strip batchId
    if startsWith token "batch_" then readInt ((splitMax token "_" 1).getD 1 "") else none

def rangesAdjacentOrOverlap (left right : List String) (gapThreshold : ℤ) : Bool :=
  match (batchOrdinals left).head?, (batchOrdinals left).getLast?,
      (batchOrdinals right).head?, (batchOrdinals right).getLast? with
  | some leftMin, some leftMax, some rightMin, some rightMax =>
      if rightMin ≤ leftMax && leftMin ≤ rightMax then true
      else if leftMax < rightMin then rightMin - leftMax ≤ gapThreshold + 1
      else leftMin - rightMax ≤ gapThreshold + 1
  | _, _, _, _ => false

/-- The `resource_domains` of a candidate, when they are a dict. -/
def CombinedCandidate.resourceDomains (candidate : CombinedCandidate) : Dict :=
  match candidate.payload.getD "resource_domains" (.dict []) with
  | .dict domains => domains
  | _ => []

/-- The texts of one of the resource domains. -/
def domainTexts (candidate : CombinedCandidate) (domain : String) :
    Except PyErr (List String) := do
  let items ← (candidate.resourceDomains.getD domain (.list [])).needItems
  return nonBlank (items.map Val.pyStr)

/-- Do two candidates share something of a resource domain? -/
def domainsMeet (left right : CombinedCandidate) (domain : String) : Except PyErr Bool := do
  return meets (← domainTexts left domain) (← domainTexts right domain)

section Conflicts

variable (left right : CombinedCandidate) (policy : CombinedMicroRefinementPolicy)

def candidateResourceDomainConflictReasons : Except PyErr (List String) := do
  if left.source ≠ right.source then return []
  if !rangesAdjacentOrOverlap left.batchIds right.batchIds policy.adjacentBatchGapThreshold then
    return []
  let ble ←
    if left.source = "BLE" && policy.forbidAdjacentSameBleSessionDomain then do
      let sessions ← domainsMeet left right "session_groups"
      let devices ← domainsMeet left right "device_ids"
      pure (if sessions || devices then ["ble_resource_domain_adjacent"] else [])
    else pure []
  let host ←
    if left.source = "API" && policy.forbidAdjacentSameApiHostDomain then do
      let hosts ← domainsMeet left right "host_keys"
      pure (if hosts then ["api_host_domain_adjacent"] else [])
    else pure []
  let endpoint ←
    if left.source = "API" && policy.forbidAdjacentSameApiEndpointDomain then do
      let endpoints ← domainsMeet left right "endpoint_keys"
      pure (if endpoints then ["api_endpoint_domain_adjacent"] else [])
    else pure []
  return ble ++ host ++ endpoint

def candidateConflictReasons : Except PyErr (List String) := do
  let domains ← candidateResourceDomainConflictReasons left right policy
  return (if policy.forbidBatchOverlap && meets left.batchIds right.batchIds then
      ["batch_overlap"] else []) ++
    (if policy.forbidActionOverlap && meets left.actionIds right.actionIds then
      ["action_overlap"] else []) ++ domains

end Conflicts

/-! ## The choice -/

variable (policy : CombinedMicroRefinementPolicy)

/-- The first of the accepted candidates that a candidate conflicts with. -/
def firstWinner (candidate : CombinedCandidate) :
    List CombinedCandidate → Except PyErr (Option (CombinedCandidate × List String))
  | [] => .ok none
  | existing :: rest => do
      let reasons ← candidateConflictReasons existing candidate policy
      if reasons = [] then firstWinner candidate rest else return some (existing, reasons)

/-- A candidate that is rejected before it is compared. -/
def CombinedDecision.dismiss (decision : CombinedDecision) (candidate : CombinedCandidate)
    (reason : String) : CombinedDecision :=
  { decision with
    rejected := decision.rejected ++ [candidate]
    conflicts := decision.conflicts ++
      [[("winner", .none), ("loser", .str candidate.corridorId),
        ("loser_source", .str candidate.source), ("reasons", .list [.str reason])]] }

/-- The step of the loop over the pool. -/
def resolveCandidate (decision : CombinedDecision) (candidate : CombinedCandidate) :
    Except PyErr CombinedDecision := do
  if policy.requireComponentValidation && !candidate.validationPassed then
    return decision.dismiss candidate "component_validation_failed"
  if candidate.latencySavedMs ≤ 0 then return decision.dismiss candidate "non_positive_saving"
  match ← firstWinner policy candidate decision.accepted with
  | none => return { decision with accepted := decision.accepted ++ [candidate] }
  | some (winner, reasons) =>
      return { decision with
        rejected := decision.rejected ++ [candidate]
        conflicts := decision.conflicts ++
          [[("winner", .str winner.corridorId), ("winner_source", .str winner.source),
            ("loser", .str candidate.corridorId), ("loser_source", .str candidate.source),
            ("reasons", .list (reasons.map .str))]] }

/-- What the lists of a decision are sorted by. -/
def CombinedCandidate.key (row : CombinedCandidate) : String ×ₗ String :=
  toLex (row.source, row.corridorId)

/-- The candidates by saving, the largest first, then by source and corridor. -/
def candidatePool (bleCandidates apiCandidates : List CombinedCandidate) :
    List CombinedCandidate :=
  sortedBy (fun row => (toLex (-row.latencySavedMs, row.key) : ℤ ×ₗ String ×ₗ String))
    ((bleCandidates ++ apiCandidates).map normalizeCandidate)

def resolveCombinedCandidates (bleCandidates apiCandidates : List CombinedCandidate) :
    Except PyErr CombinedDecision := do
  let decision ← (candidatePool bleCandidates apiCandidates).foldlM (resolveCandidate policy) {}
  return { decision with
    accepted := sortedBy CombinedCandidate.key decision.accepted
    rejected := sortedBy CombinedCandidate.key decision.rejected }

end FloWeaver.Micro
