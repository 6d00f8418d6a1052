import FloWeaver.Counterexample.State

/-!
# The check of the resource protocol

A configuration breaks the protocol when a resource is released that is not held, when two holders
overlap, or when the end is reached with resources held, or held on one side only.

* `defaultResourceModel` — the rules when no others are given.
* `checkResourceProtocolViolation` — the check.
* `checkResource_same` — two sides in the same state that hold nothing wrongly pass it.
-/

namespace FloWeaver.Counterexample

open Py Ir Trace

/-- The verdict of a check. -/
structure DivergenceResult where
  isDivergent : Bool
  violatedProperty : Option String := none
  reason : String := ""
  details : Dict := []

def resourceProtocolViolation : String := "RESOURCE_PROTOCOL_VIOLATION"

/-- A broken protocol, and why. -/
def brokenProtocol (reason : String) (details : Dict) : DivergenceResult where
  isDivergent := true
  violatedProperty := some resourceProtocolViolation
  reason := reason
  details := details

/-! ## The rules -/

def defaultRules : List ResourceRule :=
  [{ resourceKind := "listener"
     acquireOps := ["SUBSCRIBE"]
     releaseOps := ["UNSUBSCRIBE"]
     forbidOverlap := true
     mustRelease := true },
   { resourceKind := "manager"
     acquireOps := ["ENTRY_SETUP"]
     releaseOps := ["ENTRY_UNLOAD"]
     mustRelease := true },
   { resourceKind := "connection"
     acquireOps := ["BLE_CONNECT"]
     releaseOps := ["BLE_DISCONNECT", "ENTRY_UNLOAD"]
     forbidOverlap := true
     mustRelease := true },
   { resourceKind := "session"
     acquireOps := ["CLOUD_SESSION_REUSE"]
     releaseOps := ["ENTRY_UNLOAD"]
     requiredBefore := ["CLOUD_HTTP_CALL"] },
   { resourceKind := "cloud_session"
     acquireOps := ["CLOUD_SESSION_REUSE"]
     releaseOps := ["ENTRY_UNLOAD"]
     requiredBefore := ["CLOUD_HTTP_CALL"] }]

/-- The rules of `from_m0_schema`, read by `ResourceModel.from_observation_schema`. -/
def defaultResourceModel : ResourceModel where
  rules := ⟨defaultRules.map fun rule => (rule.resourceKind, rule), by decide⟩

/-! ## The check -/

/-- A needed operation comes before the resource is acquired. -/
def requiredBeforeViolated (requiredBefore acquireOps : List String) : Bool → List Event → Bool
  | _, [] => false
  | acquired, event :: events =>
      let op := normalizeOpName event.op
      let acquired := acquired || acquireOps.contains op
      if requiredBefore.contains op && ! acquired then true
      else requiredBeforeViolated requiredBefore acquireOps acquired events

/-- The keys of a kind of resource, on either side. -/
def allKeys (left right : OrderedDict String ResourcePayload) : List String :=
  sortedBy id (left.keys ++ right.keys).eraseDups

/-- One resource: the violation that ends the check, or the difference to report. -/
def checkKey (atTerminal : Bool) (resourceKind : String) (rule : ResourceRule)
    (left right : ResourcePayload) (key : String) : Except DivergenceResult (List Dict) :=
  let place : Dict := [("resource_kind", .str resourceKind), ("resource_key", .str key)]
  let counts : Dict :=
    place ++ [("counts", .list [.int left.count, .int right.count])]
  if left.prematureRelease || right.prematureRelease then
    .error (brokenProtocol "premature_cleanup" place)
  else if rule.forbidOverlap && (1 < left.count || 1 < right.count) then
    .error (brokenProtocol "illegal_overlap" counts)
  else if atTerminal && rule.mustRelease && (left.count ≠ 0 || right.count ≠ 0) then
    .error (brokenProtocol "missing_release_or_unsubscribe" counts)
  else if atTerminal && left.count ≠ right.count then
    .ok [place ++ [("baseline_count", .int left.count), ("optimized_count", .int right.count)]]
  else .ok []

/-- The operations that a rule wants after an acquisition. -/
def checkRequiredBefore (atTerminal : Bool) (resourceKind : String) (rule : ResourceRule)
    (left right : List Event) : Except DivergenceResult Unit :=
  let missing (trace : List Event) :=
    requiredBeforeViolated rule.requiredBefore rule.acquireOps false trace
  if atTerminal && ! rule.requiredBefore.isEmpty && missing left != missing right then
    .error (brokenProtocol "wrong_session_reuse_or_missing_required_before"
      [("resource_kind", .str resourceKind),
        ("required_before", .list (rule.requiredBefore.map Val.str)),
        ("baseline_missing", .bool (missing left)), ("optimized_missing", .bool (missing right))])
  else .ok ()

/-- One rule. -/
def checkRule (cfg : SymConfig) (details : List Dict) (row : String × ResourceRule) :
    Except DivergenceResult (List Dict) := do
  let left := resourcesOf cfg.baseline.resourceState row.1
  let right := resourcesOf cfg.optimized.resourceState row.1
  let atTerminal := cfg.divergenceStatus.atTerminal
  let found ← (allKeys left right).mapM fun key =>
    checkKey atTerminal row.1 row.2 ((left.get? key).getD {}) ((right.get? key).getD {}) key
  checkRequiredBefore atTerminal row.1 row.2 cfg.baseline.trace cfg.optimized.trace
  return details ++ found.flatten

/-- How often the entry is unloaded. -/
def unloads (events : List Event) : ℕ :=
  events.countP fun event => normalizeOpName event.op = "ENTRY_UNLOAD"

/-- All rules, and the boundary of the lifecycle. -/
def resourceDifferences (cfg : SymConfig) (resourceModel : ResourceModel) :
    Except DivergenceResult (List Dict) := do
  let details ← resourceModel.rules.rows.foldlM (checkRule cfg) []
  if cfg.divergenceStatus.atTerminal &&
      unloads cfg.baseline.trace ≠ unloads cfg.optimized.trace then
    return details ++ [[("resource_kind", .str "lifecycle"),
      ("reason", .str "setup_unload_boundary_violation")]]
  else return details

/-- `check_resource_protocol_violation`. -/
def checkResourceProtocolViolation (cfg : SymConfig) (resourceModel : ResourceModel) :
    DivergenceResult :=
  match resourceDifferences cfg resourceModel with
  | .error violation => violation
  | .ok [] => { isDivergent := false }
  | .ok details =>
      brokenProtocol "resource_state_diverged"
        [("differences", .list (details.map Val.dict))]

/-! ## Two sides in the same state -/

/-- No resource of a state is released too early, and those of a rule are held by no more than the
rule allows. -/
structure HoldsRightly (resourceModel : ResourceModel) (state : ResourceState) : Prop where
  kept : ∀ row ∈ resourceModel.rules.rows, ∀ key,
    (payloadOf state row.1 key).prematureRelease = false
  alone : ∀ row ∈ resourceModel.rules.rows, row.2.forbidOverlap = true → ∀ key,
    (payloadOf state row.1 key).count ≤ 1
  released : ∀ row ∈ resourceModel.rules.rows, row.2.mustRelease = true → ∀ key,
    (payloadOf state row.1 key).count = 0

theorem checkKey_same {atTerminal : Bool} {resourceKind key : String} {rule : ResourceRule}
    {payload : ResourcePayload} (hkept : payload.prematureRelease = false)
    (halone : rule.forbidOverlap = true → payload.count ≤ 1)
    (hreleased : rule.mustRelease = true → payload.count = 0) :
    checkKey atTerminal resourceKind rule payload payload key = .ok [] := by
  have hone : ¬ (rule.forbidOverlap = true ∧ 1 < payload.count) :=
    fun h => absurd (halone h.1) (not_le.2 h.2)
  have hzero : ¬ ((atTerminal = true ∧ rule.mustRelease = true) ∧ ¬ payload.count = 0) :=
    fun h => h.2 (hreleased h.1.2)
  simp [checkKey, hkept, hone, hzero]

theorem checkRequiredBefore_same (atTerminal : Bool) (resourceKind : String) (rule : ResourceRule)
    (trace : List Event) :
    checkRequiredBefore atTerminal resourceKind rule trace trace = .ok () := by
  simp [checkRequiredBefore]

/-- A check that succeeds with nothing for every element finds nothing. -/
theorem mapM_ok_nil {ε α β : Type} {f : α → Except ε (List β)} {l : List α}
    (h : ∀ a ∈ l, f a = .ok []) : l.mapM f = .ok (l.map fun _ => []) := by
  induction l with
  | nil => rfl
  | cons a rest ih =>
    rw [List.mapM_cons, h a List.mem_cons_self, ih fun b hb => h b (List.mem_cons_of_mem _ hb)]
    rfl

variable {cfg : SymConfig} {resourceModel : ResourceModel}

theorem checkRule_same (htrace : cfg.optimized.trace = cfg.baseline.trace)
    (hstate : ∀ resourceKind key, payloadOf cfg.optimized.resourceState resourceKind key =
      payloadOf cfg.baseline.resourceState resourceKind key)
    (h : HoldsRightly resourceModel cfg.baseline.resourceState) {row : String × ResourceRule}
    (hrow : row ∈ resourceModel.rules.rows) (details : List Dict) :
    checkRule cfg details row = .ok details := by
  have hkeys : ∀ key ∈ allKeys (resourcesOf cfg.baseline.resourceState row.1)
      (resourcesOf cfg.optimized.resourceState row.1),
      checkKey cfg.divergenceStatus.atTerminal row.1 row.2
        (payloadOf cfg.baseline.resourceState row.1 key)
        (payloadOf cfg.optimized.resourceState row.1 key) key = .ok [] := by
    intro key _
    rw [hstate]
    exact checkKey_same (h.kept row hrow key) (fun hf => h.alone row hrow hf key)
      fun hm => h.released row hrow hm key
  rw [checkRule, htrace]
  refine bind_eq_ok.2 ⟨_, mapM_ok_nil hkeys, bind_eq_ok.2 ⟨(), checkRequiredBefore_same _ _ _ _, ?_⟩⟩
  simp [pure, Except.pure]

/-- Two sides in the same state that hold nothing wrongly pass the check. -/
theorem checkResource_same (htrace : cfg.optimized.trace = cfg.baseline.trace)
    (hstate : ∀ resourceKind key, payloadOf cfg.optimized.resourceState resourceKind key =
      payloadOf cfg.baseline.resourceState resourceKind key)
    (h : HoldsRightly resourceModel cfg.baseline.resourceState) :
    (checkResourceProtocolViolation cfg resourceModel).isDivergent = false := by
  have hrules : ∀ rows : List (String × ResourceRule),
      (∀ row ∈ rows, row ∈ resourceModel.rules.rows) →
        rows.foldlM (checkRule cfg) [] = (.ok [] : Except DivergenceResult (List Dict)) := by
    intro rows hrows
    induction rows with
    | nil => rfl
    | cons row rest ih =>
      rw [List.foldlM_cons, checkRule_same htrace hstate h (hrows row List.mem_cons_self)]
      exact ih fun row' hrow' => hrows row' (List.mem_cons_of_mem _ hrow')
  have hnone : resourceDifferences cfg resourceModel = .ok [] := by
    rw [resourceDifferences, htrace]
    refine bind_eq_ok.2 ⟨[], hrules _ fun _ hrow => hrow, ?_⟩
    simp [pure, Except.pure]
  rw [checkResourceProtocolViolation, hnone]

end FloWeaver.Counterexample
