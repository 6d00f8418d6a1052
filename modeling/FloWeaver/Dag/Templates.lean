import FloWeaver.Contracts
import FloWeaver.Dag.Mssu
import FloWeaver.Scheduler.Action
import Mathlib.Data.List.Lex

/-!
# Edges from the templates of the rules

A rule may ask that every MSSU with one effect comes before the nearest MSSU with another one.  A
template with a pair key pairs MSSUs by the value that their actions have under the key.

* `ProfileRule`, `HAPProfile` — the rules, with the templates of their edges and constraints.
* `DAGBuildDiagnostics` — the warnings, each key once, and the edges that were removed.
* `Edges` — the hard edges and the soft constraints collected so far.
* `Library` — what the builder leaves to Python: the host of a URL and the order of a set.
* `actionScopeValue`, `mssuScopeTokens` — the values under a pair key.
* `pickNearestDst` — the best partner of an MSSU.
* `bindSource`, `bindSources` — the edges of one source, and of all sources up to a cap.
* `injectRuleTemplateHardEdges` — the templates of all rules that are not disabled.
-/

/-!
## What the builder reads and keeps

-/

namespace FloWeaver.Dag

open Py

/-- A rule with its templates. -/
structure ProfileRule extends Rule where
  hardEdgeTemplates : List Dict := []
  softConstraintTemplates : List Dict := []
  fallback : String := "disable_rule"

structure HAPProfile where
  rules : List ProfileRule := []

/-- The rules that are not disabled. -/
def HAPProfile.enabledRules (profile : HAPProfile) : List ProfileRule :=
  profile.rules.filter fun rule => rule.status ≠ RuleStatus.disabled

/-- The parts of Python that differ between versions and runs: `urlparse(url).netloc`, which may
raise, and the order in which a set is iterated. -/
structure Library where
  netloc : String → Except PyErr String
  setOrder : List String → List String
  setOrder_perm : ∀ l, (setOrder l).Perm l

structure DAGBuildDiagnostics where
  warnings : List String := []
  removedHardEdges : List (String × String) := []
  warningKeys : List String := []
  removedEdgeKeys : List (String × String) := []

namespace DAGBuildDiagnostics

/-- A warning with a key is given once. -/
def warn (diagnostics : DAGBuildDiagnostics) (message key : String) : DAGBuildDiagnostics :=
  if key = "" then { diagnostics with warnings := diagnostics.warnings ++ [message] }
  else if diagnostics.warningKeys.contains key then diagnostics
  else
    { diagnostics with
      warnings := diagnostics.warnings ++ [message]
      warningKeys := diagnostics.warningKeys ++ [key] }

def recordRemovedEdge (diagnostics : DAGBuildDiagnostics) (src dst : String) :
    DAGBuildDiagnostics :=
  if diagnostics.removedEdgeKeys.contains (src, dst) then diagnostics
  else
    { diagnostics with
      removedEdgeKeys := diagnostics.removedEdgeKeys ++ [(src, dst)]
      removedHardEdges := diagnostics.removedHardEdges ++ [(src, dst)] }

@[simp] theorem removedHardEdges_warn (diagnostics : DAGBuildDiagnostics) (message key : String) :
    (diagnostics.warn message key).removedHardEdges = diagnostics.removedHardEdges := by
  rw [warn]
  split_ifs <;> rfl

@[simp] theorem removedEdgeKeys_warn (diagnostics : DAGBuildDiagnostics) (message key : String) :
    (diagnostics.warn message key).removedEdgeKeys = diagnostics.removedEdgeKeys := by
  rw [warn]
  split_ifs <;> rfl

end DAGBuildDiagnostics

/-- What was collected so far. -/
structure Edges where
  hard : List DependencyEdge := []
  soft : List SoftConstraint := []
  diagnostics : DAGBuildDiagnostics := {}

namespace Edges

def addHard (edges : Edges) (edge : DependencyEdge) : Edges :=
  { edges with hard := edges.hard ++ [edge] }

def addSoft (edges : Edges) (constraint : SoftConstraint) : Edges :=
  { edges with soft := edges.soft ++ [constraint] }

def warn (edges : Edges) (message key : String) : Edges :=
  { edges with diagnostics := edges.diagnostics.warn message key }

/-- `diagnostics.warnings.append(message)`. -/
def note (edges : Edges) (message : String) : Edges :=
  { edges with
    diagnostics := { edges.diagnostics with
      warnings := edges.diagnostics.warnings ++ [message] } }

end Edges

end FloWeaver.Dag

namespace FloWeaver.Dag

open Py
open Scheduler (ActionIndex firstOf execCfg)

/-! ## The actions of the target -/

/-- The actions by trimmed id, and the position of each. -/
structure ActionTable where
  index : ActionIndex
  rank : OrderedDict String ℕ

/-- `str(action.get("action_id", "")).strip()`. -/
def trimmedId (action : Dict) : String := strip (action.getD "action_id" (.str "")).pyStr

def actionRank (target : OptimizationTarget) : OrderedDict String ℕ :=
  .ofList ((target.vdevActions.zipIdx.filter fun row => trimmedId row.1 ≠ "").map
    fun row => (trimmedId row.1, row.2))

def actionTable : Option OptimizationTarget → ActionTable
  | none => { index := .empty, rank := .empty }
  | some target => { index := Scheduler.actionIndex target, rank := actionRank target }

/-! ## Scopes -/

section Scope

variable (lib : Library)

/-- The host part of an endpoint. -/
def hostOf (endpoint : String) : Except PyErr String :=
  if startsWith endpoint "http://" || startsWith endpoint "https://" then lib.netloc endpoint
  else if contains endpoint ":" then .ok (beforeFirst endpoint ":")
  else .ok endpoint

/-- What an action has under a pair key. -/
def actionScopeValue (action : Dict) (pairKey : String) : Except PyErr String :=
  let pair := lower (strip pairKey)
  let target := Scheduler.target action
  let cfg := execCfg action
  let endpoint := (firstOf [target.get "endpoint", target.get "id", cfg.get "endpoint"]).pyStr
  if pair = "" then .ok ""
  else if pair = "device_id" then
    .ok (firstOf [target.get "device_id", target.get "id", cfg.get "device_id"]).pyStr
  else if pair = "endpoint" then .ok endpoint
  else if pair = "host" then hostOf lib endpoint
  else .ok (firstOf [action.get pair, target.get pair, cfg.get pair]).pyStr

/-- The scope of an MSSU without a value. -/
def nearest : List String := ["__nearest__"]

/-- The set of the values that the actions of an MSSU have under a pair key. -/
def mssuScopeTokens (index : ActionIndex) (mssu : MSSU) (pairKey : String) :
    Except PyErr (List String) :=
  if pairKey = "" then .ok nearest
  else do
    let values ← ((effectiveActionRefs mssu).filterMap index.get?).mapM
      fun action => actionScopeValue lib action pairKey
    let tokens := (values.filter (· ≠ "")).dedup
    return if tokens.isEmpty then nearest else tokens

def hasRealScopeTokens (index : ActionIndex) (mssu : MSSU) (pairKey : String) :
    Except PyErr Bool :=
  if pairKey = "" then .ok true
  else do
    let tokens ← mssuScopeTokens lib index mssu pairKey
    return tokens ≠ nearest

end Scope

/-! ## The nearest partner -/

def mssuRank (table : ActionTable) (mssu : MSSU) : ℕ :=
  minOr 10000 ((effectiveActionRefs mssu).map fun actionId => (table.rank.get? actionId).getD 10000)

/-- Exact families, a cleanup that only unsubscribes, a common action, a common lane, and a
teardown after a run. -/
def templatePairScore (src dst : MSSU) (srcHint dstHint : String) : List Bool :=
  [hintExactMatch src srcHint, hintExactMatch dst dstHint,
    primaryEffectFamily dst = "unsubscribe" && mssuEffectTokens dst = ["unsubscribe"],
    sameActionScope src dst,
    src.laneTag.getD "" ≠ "" && src.laneTag = dst.laneTag,
    ["RUNTIME", "TEARDOWN"].contains (upper (strip src.phase)) &&
      upper (strip dst.phase) = "TEARDOWN"]

/-- The key by which partners are compared, the smallest first. -/
def pairRank (table : ActionTable) (src dst : MSSU) (srcHint dstHint pairKey : String)
    (srcScope dstScope : List String) : List ℤ ×ₗ String :=
  let srcRank := mssuRank table src
  let dstRank := mssuRank table dst
  let directionPenalty : ℤ :=
    if pairKey = "" && srcRank = 10000 && dstRank = 10000 then 0
    else if srcRank ≤ dstRank then 0 else 1
  let overlap := (srcScope.filter (dstScope.contains ·)).length
  toLex ((templatePairScore src dst srcHint dstHint).map (fun exact => if exact then -1 else 0) ++
    [-(overlap : ℤ), directionPenalty, |(dstRank : ℤ) - srcRank|], dst.mssuId)

def pickNearestDst (lib : Library) (table : ActionTable) (src : MSSU) (dstCandidates : List MSSU)
    (srcHint dstHint pairKey : String) : Except PyErr (Option MSSU) := do
  let srcScope ← mssuScopeTokens lib table.index src pairKey
  let allow := allowsMissingResourceCleanupPair src dstCandidates srcHint dstHint
  let fitting := dstCandidates.filter fun dst =>
    src.mssuId ≠ dst.mssuId && templatePairCompatible src dst srcHint dstHint allow
  let ranked ← fitting.mapM fun dst => do
    let dstScope ← mssuScopeTokens lib table.index dst pairKey
    return (pairRank table src dst srcHint dstHint pairKey srcScope dstScope, dst)
  return ((sortedBy (·.1) ranked).head?).map (·.2)

/-! ## Binding a template -/

/-- A template with its texts read and its candidates found. -/
structure Template where
  ruleId : String
  ruleFamily : String
  idx : ℕ
  srcHint : String
  dstHint : String
  kind : String
  pairKey : String
  srcCandidates : List MSSU
  dstCandidates : List MSSU

/-- The rule without the part number at the end of its id. -/
def canonicalRuleFamily (ruleId : String) : String :=
  let cs := (strip ruleId).toList.reverse
  let rest := cs.dropWhile isDigit
  if (cs.head?.map isDigit).getD false && ":part".toList.reverse.isPrefixOf rest then
    String.ofList (rest.drop 5).reverse
  else strip ruleId

namespace Template

variable (lib : Library) (table : ActionTable) (tpl : Template)

/-- `f"{rule_id}[{tpl_idx}]"`. -/
def place : String := tpl.ruleId ++ "[" ++ toString tpl.idx ++ "]"

/-- `f"{kind}:{rule_family}:{tpl_idx}:{src_hint}:{dst_hint}"`. -/
def warningKey (kind : String) : String :=
  join ":" [kind, tpl.ruleFamily, toString tpl.idx, tpl.srcHint, tpl.dstHint]

def softOrder (src dst reason : String) : SoftConstraint where
  kind := SoftConstraintKind.softOrder
  scope := [src, dst]
  params := [("reason", .str (join ":" ["template", tpl.ruleId, toString tpl.idx, reason]))]
  guard := "true"
  fallback := "preserve_action_order"

/-- The order between a source and its partner becomes soft. -/
def bindSoft (src : MSSU) (best : Option MSSU) (reason : String) (edges : Edges) : Edges :=
  match best with
  | none => edges
  | some dst =>
      if src.mssuId = dst.mssuId then edges
      else edges.addSoft (tpl.softOrder src.mssuId dst.mssuId reason)

def hardEdge (src dst : MSSU) : DependencyEdge where
  srcMssu := src.mssuId
  dstMssu := dst.mssuId
  kind := tpl.kind
  justification :=
    ["rule_template:" ++ tpl.ruleId ++ ":" ++ toString tpl.idx, "src_hint:" ++ tpl.srcHint,
      "dst_hint:" ++ tpl.dstHint,
      "pairing_rank:exact_family_same_action_same_lane_phase_then_nearest"] ++
    if tpl.pairKey ≠ "" && tpl.pairKey ≠ "nearest" then ["pair_key:" ++ tpl.pairKey] else []

/-- A source or all candidates have no value under the pair key: the nearest candidate comes
after the source, softly. -/
def bindUnscoped (src : MSSU) (message kind reason : String) (edges : Edges) :
    Except PyErr (Edges × Bool) := do
  let best ← pickNearestDst lib table src tpl.dstCandidates tpl.srcHint tpl.dstHint ""
  let edges := edges.warn ("Rule template skipped hard bind: " ++ tpl.place ++ message)
    (tpl.warningKey kind ++ ":" ++ tpl.pairKey)
  return (tpl.bindSoft src best reason edges, false)

/-- Pairs a source with the best of the candidates that have a value. -/
def bindScoped (src : MSSU) (candidates : List MSSU) (edges : Edges) :
    Except PyErr (Edges × Bool) := do
  match ← pickNearestDst lib table src candidates tpl.srcHint tpl.dstHint tpl.pairKey with
  | none =>
      let best ← pickNearestDst lib table src candidates "" "" ""
      return (tpl.bindSoft src best "template_binding_failed_fallback" edges, false)
  | some dst =>
      return if src.mssuId = dst.mssuId then (edges, false)
        else if allowTemplateHardEdge src dst then (edges.addHard (tpl.hardEdge src dst), true)
        else (tpl.bindSoft src (some dst) "cross_action_scope_filtered" edges, false)

/-- Pairs one source; the flag says that the edge is hard. -/
def bindSource (src : MSSU) (edges : Edges) : Except PyErr (Edges × Bool) := do
  let real ← hasRealScopeTokens lib table.index src tpl.pairKey
  if !real then
    bindUnscoped lib table tpl src (" no scope tokens for " ++ src.mssuId) "missing-scope"
      "missing_scope_tokens" edges
  else
    let candidates ← tpl.dstCandidates.filterM fun dst =>
      hasRealScopeTokens lib table.index dst tpl.pairKey
    if candidates.isEmpty then
      bindUnscoped lib table tpl src " no dst scope tokens" "missing-dst-scope"
        "missing_dst_scope_tokens" edges
    else bindScoped lib table tpl src candidates edges

/-- The hard edges that one template may add. -/
def maxEdges : ℕ := 64

/-- Pairs the sources in order, until the cap is reached. -/
def bindSources : List MSSU → ℕ → Edges → Except PyErr Edges
  | [], _, edges => .ok edges
  | src :: rest, injected, edges => do
      let (edges, bound) ← bindSource lib table tpl src edges
      if bound && maxEdges ≤ injected + 1 then
        return edges.warn ("Rule template edge cap reached for " ++ tpl.place)
          (tpl.warningKey "edge-cap")
      bindSources rest (if bound then injected + 1 else injected) edges

/-- A template with many candidates and no pair key gives soft orders between the first eight. -/
def bindWide (edges : Edges) : Except PyErr Edges :=
  let edges := edges.warn
    ("Rule template widened to soft order: " ++ tpl.place ++ " src_candidates=" ++
      toString tpl.srcCandidates.length ++ " dst_candidates=" ++
      toString tpl.dstCandidates.length)
    (tpl.warningKey "wide-template")
  (tpl.srcCandidates.take 8).foldlM
    (fun edges src => do
      let best ← pickNearestDst lib table src (tpl.dstCandidates.take 8) tpl.srcHint tpl.dstHint ""
      return tpl.bindSoft src best "wide_template_scope" edges)
    edges

/-- The edges of a template with candidates on both sides. -/
def bind (edges : Edges) : Except PyErr Edges :=
  if tpl.pairKey = "" && (8 < tpl.srcCandidates.length || 8 < tpl.dstCandidates.length) then
    bindWide lib table tpl edges
  else bindSources lib table tpl tpl.srcCandidates 0 edges

end Template

/-! ## The templates of the rules -/

/-- A template of a rule with its texts read. -/
def templateOf (mssus : List MSSU) (rule : ProfileRule) (tpl : Dict) (idx : ℕ) (kind : String) :
    Template :=
  let srcHint := strip (tpl.getD "src" (.str "")).pyStr
  let dstHint := strip (tpl.getD "dst" (.str "")).pyStr
  let params := (tpl.get "params").asDict
  { ruleId := rule.ruleId, ruleFamily := canonicalRuleFamily rule.ruleId, idx, srcHint, dstHint
    kind
    pairKey := strip ((Dict.get params "pair_key").or (tpl.getD "pair_key" (.str ""))).pyStr
    srcCandidates := mssus.filter (mssuMatchesHint · srcHint)
    dstCandidates := mssus.filter (mssuMatchesHint · dstHint) }

/-- The edges of one template of a rule. -/
def injectTemplate (lib : Library) (table : ActionTable) (mssus : List MSSU) (edges : Edges)
    (row : ProfileRule × Dict × ℕ) : Except PyErr Edges :=
  let template := templateOf mssus row.1 row.2.1 row.2.2
  if (template "").srcHint = "" || (template "").dstHint = "" then .ok edges
  else
    match normalizeTemplateKind (row.2.1.getD "kind" (.str EdgeKind.hardControl)).pyStr with
    | none => .ok (edges.warn ("Rule template kind unsupported for " ++ (template "").place)
        ((template "").warningKey "unsupported-kind"))
    | some kind =>
        if (template kind).srcCandidates.isEmpty || (template kind).dstCandidates.isEmpty then
          .ok edges
        else (template kind).bind lib table edges

def injectRuleTemplateHardEdges (lib : Library) (profile : HAPProfile) (table : ActionTable)
    (mssus : List MSSU) (edges : Edges) : Except PyErr Edges :=
  (profile.enabledRules.flatMap fun rule =>
    rule.hardEdgeTemplates.zipIdx.map fun row => (rule, row.1, row.2)).foldlM
      (injectTemplate lib table mssus) edges

end FloWeaver.Dag
