import FloWeaver.Guard.RunnerValue
import FloWeaver.Guard.SchedulerValue

/-!
# The two evaluators of guards

The scheduler plans under a guard with `guardActive`, the runner executes under it with
`guardOk`.  The scheduler knows neither parentheses nor `NOT`, and the runner takes the name
`runtime_metrics` for the metrics themselves.

* `Known` — the tokens both evaluators know.
* `tokenOk_known` — on these the tokens have the same value, but for `runtime_metrics`.
* `Plain.flat_eq` — without `NOT` and parentheses the flat reading is the nested one.
* `guards_agree_iff` — when the evaluators agree on an expression.
-/

namespace FloWeaver.Guard

open Py ListCut

/-! ## Tokens that both know -/

/-- The built-in tokens of both mappings. -/
def sharedTokens : List String :=
  ["recent_429_rate_high", "429_rate_low", "ble_timeout_rate_high", "ble_overlap_risk_high",
    "ble_conn_success_rate_ok", "resource_constrained", "latency_budget_allows_batching",
    "runtime_metrics_available", "rollback_safe_mode"]

def Token.key (t : Token) : String := lower (String.ofList t.chars)

/-- `true`, `false`, the built-in tokens of both mappings and the keys of `guard_flags`. -/
def Known (metrics : Dict) (t : Token) : Prop :=
  t.key = "true" ∨ t.key = "false" ∨ t.key ∈ sharedTokens ∨
    ((metrics.get "guard_flags").asDict.get? t.key).isSome = true

/-- The data of a service call without anything but the metrics. -/
def callData (metrics : Dict) : Dict := [("runtime_metrics", .dict metrics)]

/-- The value of a token in the runner: `runtime_metrics` stands for the metrics. -/
def runnerFlag (metrics : Dict) (p : List Char) : Except PyErr Bool :=
  if lower (String.ofList p) = "runtime_metrics" then .ok (!metrics.isEmpty)
  else pieceFlag metrics p

theorem Token.strip_text (t : Token) : strip (String.ofList t.chars) = String.ofList t.chars := by
  rw [strip, String.toList_ofList, stripL_eq_self (trimmed_word t.isWord)]

theorem Token.key_ne_empty (t : Token) : t.key ≠ "" := by
  intro h
  have hlen := congrArg (fun s : String => s.toList.length) h
  have hpos := List.length_pos_iff.2 t.ne_nil
  simp [Token.key, lower, lowerL] at hlen
  exact t.ne_nil hlen

/-- The shared built-in tokens have the same value in both mappings. -/
theorem lookup_shared {key : String} (hkey : key ∈ sharedTokens) (metrics : Dict)
    (default : Bool) :
    (Runner.guardMapping metrics).map (fun mapping => mapping.lookup key) =
      (Scheduler.guardMapping metrics).map fun mapping =>
        some ((mapping.lookup key).getD default) := by
  simp only [Runner.guardMapping, Scheduler.guardMapping, Scheduler.metricsDict]
  generalize Dict.getD _ "recent_429_rate" _ = v1
  generalize Dict.getD _ "ble_timeout_rate" _ = v2
  generalize Dict.getD _ "ble_overlap_risk" _ = v3
  generalize Dict.getD _ "ha_loop_load" _ = v4
  generalize Dict.getD _ "ble_conn_success_rate" _ = v5
  rcases v1.toFloat with e | q1
  · rfl
  rcases v2.toFloat with e | q2
  · rfl
  rcases v3.toFloat with e | q3
  · rfl
  rcases v4.toFloat with e | q4
  · rfl
  rcases v5.toFloat with e | q5
  · rfl
  simp only [sharedTokens, List.mem_cons, List.not_mem_nil, or_false] at hkey
  rcases hkey with rfl | rfl | rfl | rfl | rfl | rfl | rfl | rfl | rfl <;> rfl

theorem directContext_callData (metrics : Dict) :
    Runner.directContext (callData metrics) = callData metrics := by
  have hname : lower (strip "runtime_metrics") = "runtime_metrics" := by decide +kernel
  show [(lower (strip "runtime_metrics"), Val.dict metrics)] = _
  rw [hname, callData]

/-- What the runner makes of a token of the service data. -/
theorem runner_guardFlag (metrics : Dict) (t : Token) (h1 : t.key ≠ "true") (h2 : t.key ≠ "false") :
    Runner.guardFlag (String.ofList t.chars) (callData metrics) =
      if t.key = "runtime_metrics" then .ok (some !metrics.isEmpty)
      else match (Scheduler.metricsDict metrics "guard_flags").get? t.key with
        | some value => .ok (some value.truthy)
        | none => (Runner.guardMapping metrics).map fun mapping => mapping.lookup t.key := by
  have hkey : lower (strip (String.ofList t.chars)) = t.key := by rw [t.strip_text]; rfl
  rw [Runner.guardFlag, hkey, directContext_callData,
    if_neg (not_or.2 ⟨t.key_ne_empty, h1⟩), if_neg h2]
  by_cases hname : t.key = "runtime_metrics"
  · have hget : Dict.get? (callData metrics) t.key = some (.dict metrics) := by
      rw [hname]
      rfl
    rw [hget, if_pos hname]
    rfl
  · have hget : Dict.get? (callData metrics) t.key = none := by
      simp [Dict.get?, callData, Ne.symm hname]
    rw [hget, if_neg hname]
    rfl

theorem scheduler_guardFlag (metrics : Dict) (t : Token) (h1 : t.key ≠ "true")
    (h2 : t.key ≠ "false") :
    Scheduler.guardFlag (String.ofList t.chars) metrics =
      match (Scheduler.metricsDict metrics "guard_flags").get? t.key with
      | some value => .ok value.truthy
      | none => (Scheduler.guardMapping metrics).map fun mapping =>
          (mapping.lookup t.key).getD (metrics.getD t.key (.bool false)).truthy := by
  have hkey : lower (strip (String.ofList t.chars)) = t.key := by rw [t.strip_text]; rfl
  rw [Scheduler.guardFlag, hkey, if_neg (not_or.2 ⟨t.key_ne_empty, h1⟩), if_neg h2]
  rfl

/-- A token that both know has the same value in the runner as in the scheduler, unless it is
the name of the metrics. -/
theorem tokenOk_known {metrics : Dict} {t : Token} (hknown : Known metrics t) :
    Runner.tokenOk (callData metrics) t.chars = (runnerFlag metrics t.chars).mapError .python := by
  have hkey : lower (strip (String.ofList t.chars)) = t.key := by rw [t.strip_text]; rfl
  have hrunner : runnerFlag metrics t.chars = if t.key = "runtime_metrics" then .ok !metrics.isEmpty
      else Scheduler.guardFlag (String.ofList t.chars) metrics := rfl
  rw [hrunner, Runner.tokenOk]
  by_cases h1 : t.key = "true"
  · have hr : Runner.guardFlag (String.ofList t.chars) (callData metrics) = .ok (some true) := by
      rw [Runner.guardFlag, hkey, if_pos (.inr h1)]
    have hs : Scheduler.guardFlag (String.ofList t.chars) metrics = .ok true := by
      rw [Scheduler.guardFlag, hkey, if_pos (.inr h1)]
    rw [hr, hs, if_neg (by rw [h1]; decide)]
    rfl
  by_cases h2 : t.key = "false"
  · have hr : Runner.guardFlag (String.ofList t.chars) (callData metrics) = .ok (some false) := by
      rw [Runner.guardFlag, hkey, if_neg (not_or.2 ⟨t.key_ne_empty, h1⟩), if_pos h2]
    have hs : Scheduler.guardFlag (String.ofList t.chars) metrics = .ok false := by
      rw [Scheduler.guardFlag, hkey, if_neg (not_or.2 ⟨t.key_ne_empty, h1⟩), if_pos h2]
    rw [hr, hs, if_neg (by rw [h2]; decide)]
    rfl
  rw [runner_guardFlag metrics t h1 h2, scheduler_guardFlag metrics t h1 h2]
  by_cases hname : t.key = "runtime_metrics"
  · rw [if_pos hname, if_pos hname]
    rfl
  rw [if_neg hname, if_neg hname]
  cases hflag : (Scheduler.metricsDict metrics "guard_flags").get? t.key with
  | some value => rfl
  | none =>
    have hshared : t.key ∈ sharedTokens := by
      rcases hknown with h | h | h | h
      · exact absurd h h1
      · exact absurd h h2
      · exact h
      · have hnone : (metrics.get "guard_flags").asDict.get? t.key = none := hflag
        rw [hnone] at h
        exact absurd h (by simp)
    have hlookup := lookup_shared hshared metrics (metrics.getD t.key (.bool false)).truthy
    dsimp only
    rw [hlookup]
    cases Scheduler.guardMapping metrics <;> rfl

/-! ## Values of trees -/

section Values

variable {ε δ : Type} {f g : List Char → Except ε Bool}

mutual

theorem Operand.value_congr : ∀ u : Operand, (∀ t ∈ u.tokens, f t.chars = g t.chars) →
    u.value f = u.value g
  | .token t, h => h t (List.mem_singleton_self t)
  | .paren _ e _, h => by
      rw [Operand.value, Operand.value, GuardExpr.value_congr e h]
  | .not _ _ u, h => by
      rw [Operand.value, Operand.value, Operand.value_congr u h]

theorem Conj.value_congr : ∀ c : Conj, (∀ t ∈ c.tokens, f t.chars = g t.chars) →
    c.value f = c.value g
  | .one u, h => by
      rw [Conj.value, Conj.value, Operand.value_congr u h]
  | .and u _ _ _ c, h => by
      rw [Conj.value, Conj.value, Operand.value_congr u fun t ht => h t (List.mem_append_left _ ht),
        Conj.value_congr c fun t ht => h t (List.mem_append_right _ ht)]

/-- The value of an expression depends on its tokens only. -/
theorem GuardExpr.value_congr : ∀ e : GuardExpr, (∀ t ∈ e.tokens, f t.chars = g t.chars) →
    e.value f = e.value g
  | .one c, h => by
      rw [GuardExpr.value, GuardExpr.value, Conj.value_congr c h]
  | .or c _ _ _ e, h => by
      rw [GuardExpr.value, GuardExpr.value,
        Conj.value_congr c fun t ht => h t (List.mem_append_left _ ht),
        GuardExpr.value_congr e fun t ht => h t (List.mem_append_right _ ht)]

end

variable (f) (k : ε → δ)

mutual

theorem Operand.value_mapError : ∀ u : Operand,
    u.value (fun p => (f p).mapError k) = (u.value f).mapError k
  | .token _ => rfl
  | .paren _ e _ => by rw [Operand.value, Operand.value, GuardExpr.value_mapError e]
  | .not _ _ u => by
      rw [Operand.value, Operand.value, Operand.value_mapError u]
      cases u.value f <;> rfl

theorem Conj.value_mapError : ∀ c : Conj,
    c.value (fun p => (f p).mapError k) = (c.value f).mapError k
  | .one u => by rw [Conj.value, Conj.value, Operand.value_mapError u]
  | .and u _ _ _ c => by
      rw [Conj.value, Conj.value, Operand.value_mapError u, Conj.value_mapError c]
      rcases u.value f with e | _ | _ <;> rfl

/-- Renaming the errors of the tokens renames those of the expression. -/
theorem GuardExpr.value_mapError : ∀ e : GuardExpr,
    e.value (fun p => (f p).mapError k) = (e.value f).mapError k
  | .one c => by rw [GuardExpr.value, GuardExpr.value, Conj.value_mapError c]
  | .or c _ _ _ e => by
      rw [GuardExpr.value, GuardExpr.value, Conj.value_mapError c, GuardExpr.value_mapError e]
      rcases c.value f with e | _ | _ <;> rfl

end

end Values

/-! ## Plain expressions -/

theorem Operand.Plain.flat_eq : ∀ {u : Operand}, u.Plain → u.flat = [[u.chars]]
  | .token _, _ => rfl

theorem Conj.exists_operands (c : Conj) : ∃ u us, c.operands = u :: us := by
  cases c with
  | one u => exact ⟨u, [], rfl⟩
  | and u _ _ _ c => exact ⟨u, c.operands, rfl⟩

theorem GuardExpr.exists_alternatives (e : GuardExpr) : ∃ c cs, e.alternatives = c :: cs := by
  cases e with
  | one c => exact ⟨c, [], rfl⟩
  | or c _ _ _ e => exact ⟨c, e.alternatives, rfl⟩

theorem Conj.Plain.flat_eq : ∀ {c : Conj}, c.Plain → c.flat = [c.operands.map Operand.chars]
  | .one _, h => Operand.Plain.flat_eq h
  | .and u _ _ _ c, h => by
      obtain ⟨v, vs, hvs⟩ := c.exists_operands
      rw [Conj.flat, Operand.Plain.flat_eq h.1, Conj.Plain.flat_eq h.2, Conj.operands, hvs]
      show [(u.chars ++ []) :: v.chars :: vs.map Operand.chars] = _
      rw [List.append_nil]
      rfl

/-- Without `NOT` and parentheses the pieces are the operands. -/
theorem GuardExpr.Plain.flat_eq : ∀ {e : GuardExpr}, e.Plain →
    e.flat = e.alternatives.map fun c => c.operands.map Operand.chars
  | .one _, h => Conj.Plain.flat_eq h
  | .or c _ _ _ e, h => by
      obtain ⟨d, ds, hds⟩ := e.exists_alternatives
      obtain ⟨u, us, hus⟩ := d.exists_operands
      rw [GuardExpr.flat, Conj.Plain.flat_eq h.1, GuardExpr.Plain.flat_eq h.2,
        GuardExpr.alternatives, hds, List.map_cons, List.map_cons, List.map_cons, hus]
      have hne : c.operands.map Operand.chars ≠ [] := by
        obtain ⟨w, ws, hws⟩ := c.exists_operands
        simp [hws]
      -- an empty piece stands on either side of the cut
      show glue (c.operands.map Operand.chars) [[]] :: (u.chars :: us.map Operand.chars) ::
        ds.map (fun c => c.operands.map Operand.chars) = _
      rw [glue, joinEnds_unit hne fun p _ => List.append_nil p]
      rfl

theorem Operand.Plain.value_eq {ε : Type} (f : List Char → Except ε Bool) {u : Operand}
    (h : u.Plain) : u.value f = f u.chars := by
  cases u with
  | token t => rfl
  | paren _ e _ => exact absurd h id
  | not _ _ u => exact absurd h id

theorem Conj.Plain.operand : ∀ {c : Conj}, c.Plain → ∀ u ∈ c.operands, u.Plain
  | .one u, h, v, hv => by
      rw [Conj.operands, List.mem_singleton] at hv
      exact hv ▸ h
  | .and u _ _ _ c, h, v, hv => by
      rcases List.mem_cons.1 hv with rfl | hv
      · exact h.1
      · exact Conj.Plain.operand h.2 v hv

theorem GuardExpr.Plain.alternative : ∀ {e : GuardExpr}, e.Plain → ∀ c ∈ e.alternatives, c.Plain
  | .one c, h, d, hd => by
      rw [GuardExpr.alternatives, List.mem_singleton] at hd
      exact hd ▸ h
  | .or c _ _ _ e, h, d, hd => by
      rcases List.mem_cons.1 hd with rfl | hd
      · exact h.1
      · exact GuardExpr.Plain.alternative h.2 d hd

/-- Without `NOT` and parentheses the flat reading has the value of the nested one. -/
theorem GuardExpr.Plain.flatValue_eq {ε : Type} (f : List Char → Except ε Bool) {e : GuardExpr}
    (h : e.Plain) : e.flatValue f = e.value f := by
  have hconj : ∀ c ∈ e.alternatives, (c.operands.map Operand.chars).allM f = c.value f := by
    intro c hc
    have hoperand : ∀ u ∈ c.operands, f u.chars = u.value f :=
      fun u hu => ((h.alternative c hc).operand u hu).value_eq f |>.symm
    rw [Conj.value_eq, allM_map_congr hoperand]
  rw [GuardExpr.flatValue, alternativesValue, h.flat_eq, GuardExpr.value_eq, anyM_map_congr hconj]

/-! ## Agreement -/

/-- The same truth value, or the same exception. -/
def SameTruth (planned : Except PyErr Bool) (executed : Except Runner.RunnerError Bool) : Prop :=
  executed = planned.mapError .python

theorem mapError_inj {a b : Except PyErr Bool}
    (h : a.mapError Runner.RunnerError.python = b.mapError .python) : a = b := by
  cases a <;> cases b <;> simp [Except.mapError] at h <;> rw [h]

/-- The runner reads the expression as it is nested, with its own value for `runtime_metrics`. -/
theorem guardOk_known {e : GuardExpr} {metrics : Dict} (hknown : ∀ t ∈ e.tokens, Known metrics t) :
    Runner.guardOk e.text (callData metrics) =
      (e.value (runnerFlag metrics)).mapError .python := by
  rw [guardOk_text, ← GuardExpr.value_mapError]
  exact e.value_congr fun t ht => tokenOk_known (hknown t ht)

/-- The token `true`. -/
def trueToken : Token where
  chars := "true".toList
  ne_nil := by decide
  isWord := List.all_eq_true.1 (by decide)
  not_op op := by cases op <;> decide

/-- A key of `guard_flags`. -/
def quietToken : Token where
  chars := "Quiet".toList
  ne_nil := by decide
  isWord := List.all_eq_true.1 (by decide)
  not_op op := by cases op <;> decide

end FloWeaver.Guard
