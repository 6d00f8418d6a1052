import FloWeaver.Contracts
import FloWeaver.Lib.Pieces

/-!
# Guard expressions in the scheduler

A guard is a text such as `latency_budget_allows_batching AND 429_rate_low`.  The
scheduler cuts it at the word `OR`, each part at the word `AND`, and looks the remaining
tokens up in the runtime metrics.

* `splitWord` — `re.split(r"\s+WORD\s+", text, flags=re.IGNORECASE)`.
* `guardFlag` — the value of one token.
* `guardActive` — the value of an expression; `fuel` bounds the nesting, and the length of
  the text is enough.
-/

namespace FloWeaver.Scheduler

open Py

/-! ## Cutting at a word -/

/-- What follows white space, the word and white space again at the head of the text. -/
def matchSep (word cs : List Char) : Option (List Char) :=
  match cs with
  | [] => none
  | c :: _ =>
      let rest := cs.dropWhile isSpace
      if isSpace c && word.isPrefixOf (upperL rest) then
        match rest.drop word.length with
        | d :: ds => if isSpace d then some ((d :: ds).dropWhile isSpace) else none
        | [] => none
      else none

/-- The pieces of a text between the occurrences of a word that stands between white space. -/
def splitWord (word : List Char) : ℕ → List Char → List (List Char)
  | 0, cs => [cs]
  | _ + 1, [] => [[]]
  | fuel + 1, c :: cs =>
      match matchSep word (c :: cs) with
      | some rest => [] :: splitWord word fuel rest
      | none => ListCut.consHead c (splitWord word fuel cs)

/-! ## Tokens -/

/-- A sub-object of the metrics. -/
def metricsDict (metrics : Dict) (key : String) : Dict := (metrics.get key).asDict

/-- The built-in tokens with their values. -/
def guardMapping (metrics : Dict) : Except PyErr (List (String × Bool)) := do
  let risks := metricsDict metrics "risk_indicators"
  let recent429 ← (risks.getD "recent_429_rate" (.int 0)).toFloat
  let bleTimeout ← (risks.getD "ble_timeout_rate" (.int 0)).toFloat
  let bleOverlap ← (risks.getD "ble_overlap_risk" (.int 0)).toFloat
  let loopLoad ← (risks.getD "ha_loop_load" (.int 0)).toFloat
  let bleSuccess ← (risks.getD "ble_conn_success_rate" (.int 1)).toFloat
  return [("recent_429_rate_high", recent429 ≥ 1 / 10), ("429_rate_low", recent429 < 1 / 20),
    ("ble_timeout_rate_high", bleTimeout ≥ 1 / 5), ("ble_overlap_risk_high", bleOverlap ≥ 1 / 5),
    ("ble_conn_success_rate_ok", bleSuccess ≥ 9 / 10), ("resource_constrained", loopLoad ≥ 4 / 5),
    ("latency_budget_allows_batching",
      (metrics.getD "latency_budget_allows_batching" (.bool true)).truthy),
    ("runtime_metrics_available", !metrics.isEmpty),
    ("rollback_safe_mode", (metrics.getD "rollback_safe_mode" (.bool false)).truthy)]

/-- The value of one guard token. -/
def guardFlag (name : String) (metrics : Dict) : Except PyErr Bool :=
  let token := lower (strip name)
  if token = "" ∨ token = "true" then .ok true
  else if token = "false" then .ok false
  else
    match (metricsDict metrics "guard_flags").get? token with
    | some value => .ok value.truthy
    | none => do
        let mapping ← guardMapping metrics
        return (mapping.lookup token).getD (metrics.getD token (.bool false)).truthy

/-! ## Expressions -/

/-- The value of a guard expression. -/
def guardActiveL (metrics : Dict) : ℕ → List Char → Except PyErr Bool
  | 0, _ => .ok false
  | fuel + 1, guard =>
      let expr := stripL (if guard.isEmpty then "true".toList else guard)
      if containsL " OR ".toList (upperL expr) then
        (splitWord "OR".toList (expr.length + 1) expr).anyM (guardActiveL metrics fuel)
      else if containsL " AND ".toList (upperL expr) then
        (splitWord "AND".toList (expr.length + 1) expr).allM (guardActiveL metrics fuel)
      else guardFlag (String.ofList expr) metrics

/-- The value of a guard expression under the runtime metrics. -/
def guardActive (guard : String) (metrics : Dict) : Except PyErr Bool :=
  guardActiveL metrics (guard.length + 4) guard.toList

end FloWeaver.Scheduler
