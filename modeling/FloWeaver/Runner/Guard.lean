import FloWeaver.Lib.Pieces
import FloWeaver.Py.Val

/-!
# Guard expressions in the generated runner

The runner that is generated for a plan reads the guard texts again when it executes a batch.
It drops outer parentheses, cuts the text at the words `OR` and `AND` outside parentheses,
knows `NOT`, and refuses a token that it does not know.

* `stripParens`, `splitBoolExpr` — the two text operations.
* `guardFlag` — the value of one token in the data of a service call.
* `guardOk` — the value of an expression; `fuel` bounds the nesting, and the length of the text
  is enough.
-/

namespace FloWeaver.Runner

open Py

/-- Why a guard has no value. -/
inductive RunnerError where
  | python (e : PyErr)
  | actionExecution (message : String)
deriving DecidableEq

/-! ## Parentheses -/

/-- Does the parenthesis that is open at depth one close at the end of the text, and not
before?  The text starts with a parenthesis, so the depth is positive until it closes. -/
def closesAtEnd : ℕ → List Char → Bool
  | depth, [] => depth = 0
  | depth, c :: cs =>
      if c = '(' then closesAtEnd (depth + 1) cs
      else if c = ')' then
        if depth - 1 = 0 && !cs.isEmpty then false else closesAtEnd (depth - 1) cs
      else closesAtEnd depth cs

/-- Drops the parentheses around the whole text; every round makes the text shorter. -/
def stripParensLoop : ℕ → List Char → List Char
  | 0, text => text
  | fuel + 1, text =>
      if text.head? = some '(' && text.getLast? = some ')' && closesAtEnd 0 text then
        stripParensLoop fuel (stripL (text.drop 1).dropLast)
      else text

def stripParens (expr : List Char) : List Char :=
  stripParensLoop expr.length (stripL expr)

/-! ## Operators -/

/-- The pieces between the occurrences of a token outside parentheses. -/
def splitTop (token : List Char) : ℕ → ℕ → List Char → List (List Char)
  | 0, _, cs => [cs]
  | _ + 1, _, [] => [[]]
  | fuel + 1, depth, c :: cs =>
      if c = '(' then ListCut.consHead c (splitTop token fuel (depth + 1) cs)
      else if c = ')' then ListCut.consHead c (splitTop token fuel (depth - 1) cs)
      else if depth = 0 && token.isPrefixOf (upperL (c :: cs)) then
        [] :: splitTop token fuel 0 ((c :: cs).drop token.length)
      else ListCut.consHead c (splitTop token fuel depth cs)

/-- The trimmed operands of an operator; without an operator the trimmed text. -/
def splitBoolExpr (expr operator : List Char) : List (List Char) :=
  let parts := (splitTop (' ' :: operator ++ [' ']) (expr.length + 1) 0 expr).map stripL
  if parts.length = 1 then parts else parts.filter fun part => !part.isEmpty

/-! ## Tokens -/

/-- The service data under trimmed lower-case names; the last of several equal names counts. -/
def directContext (serviceData : Dict) : Dict :=
  serviceData.foldl (fun d row => d.set (lower (strip row.1)) row.2) []

/-- The built-in tokens with their values. -/
def guardMapping (runtimeMetrics : Dict) : Except PyErr (List (String × Bool)) := do
  let risks := (runtimeMetrics.get "risk_indicators").asDict
  let recent429 ← (risks.getD "recent_429_rate" (.int 0)).toFloat
  let bleTimeout ← (risks.getD "ble_timeout_rate" (.int 0)).toFloat
  let bleOverlap ← (risks.getD "ble_overlap_risk" (.int 0)).toFloat
  let loopLoad ← (risks.getD "ha_loop_load" (.int 0)).toFloat
  let bleSuccess ← (risks.getD "ble_conn_success_rate" (.int 1)).toFloat
  return [("recent_429_rate_high", recent429 ≥ 1 / 10), ("429_rate_low", recent429 < 1 / 20),
    ("ble_timeout_rate_high", bleTimeout ≥ 1 / 5), ("ble_overlap_risk_high", bleOverlap ≥ 1 / 5),
    ("ble_conn_success_rate_ok", bleSuccess ≥ 9 / 10), ("resource_constrained", loopLoad ≥ 4 / 5),
    ("loop_load_high", loopLoad ≥ 4 / 5),
    ("latency_budget_allows_batching",
      (runtimeMetrics.getD "latency_budget_allows_batching" (.bool true)).truthy),
    ("runtime_metrics_available", !runtimeMetrics.isEmpty),
    ("rollback_safe_mode", (runtimeMetrics.getD "rollback_safe_mode" (.bool false)).truthy)]

/-- The value of a token, or `none` when the token is unknown. -/
def guardFlag (token : String) (serviceData : Dict) : Except PyErr (Option Bool) :=
  let key := lower (strip token)
  let runtimeMetrics := (Dict.get serviceData "runtime_metrics").asDict
  let guardFlags := (runtimeMetrics.get "guard_flags").asDict
  if key = "" ∨ key = "true" then .ok (some true)
  else if key = "false" then .ok (some false)
  else
    match (directContext serviceData).get? key with
    | some value => .ok (some value.truthy)
    | none =>
      match guardFlags.get? key with
      | some value => .ok (some value.truthy)
      | none => do
          let mapping ← guardMapping runtimeMetrics
          return mapping.lookup key

/-- The value of a token; an unknown token is refused. -/
def tokenOk (serviceData : Dict) (expr : List Char) : Except RunnerError Bool :=
  match guardFlag (String.ofList expr) serviceData with
  | .error e => .error (.python e)
  | .ok none => .error (.actionExecution ("Unknown guard token '" ++ String.ofList expr ++ "'"))
  | .ok (some value) => .ok value

/-! ## Expressions -/

def guardOkL (serviceData : Dict) : ℕ → List Char → Except RunnerError Bool
  | 0, _ => .ok false
  | fuel + 1, guard =>
      let expr := stripParens (stripL (if guard.isEmpty then "true".toList else guard))
      let orParts := splitBoolExpr expr "OR".toList
      let andParts := splitBoolExpr expr "AND".toList
      if 1 < orParts.length then orParts.anyM (guardOkL serviceData fuel)
      else if 1 < andParts.length then andParts.allM (guardOkL serviceData fuel)
      else if "NOT ".toList.isPrefixOf (upperL expr) then do
        let value ← guardOkL serviceData fuel (expr.drop 4)
        return !value
      else tokenOk serviceData expr

/-- The value of a guard expression under the data of a service call. -/
def guardOk (guard : String) (serviceData : Dict) : Except RunnerError Bool :=
  guardOkL serviceData (guard.length + 4) guard.toList

end FloWeaver.Runner
