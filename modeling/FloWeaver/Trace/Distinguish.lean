import FloWeaver.Trace.Fingerprint
import Mathlib.Algebra.Order.BigOperators.Group.List

/-!
# What tells two comparisons apart

When two configurations differ in something that the comparison reads, two short traces show it: an
event with a volatile parameter, two events in both orders, or three events of parallel actions.
So the verdicts are the same on all traces exactly when the comparisons are.

* `tolerantEqual_swap_iff` — two commutable events in both orders.
* `exists_separating` — two events that differ in one field.
* `tolerantEqual_steps_iff` — three steps that show which actions run in parallel.
* `sameVerdicts_iff` — the verdicts show everything that the comparison reads.
* `fingerprint_determines_iff` — when the fingerprint determines the verdicts.
-/

namespace FloWeaver.Trace

open Py

section Verdicts

variable {sha1 : String → String} {config config' : TraceCompareConfig}

/-- The verdicts of two configurations are the same on all traces. -/
def SameVerdicts (sha1 : String → String) (config config' : TraceCompareConfig) : Prop :=
  ∀ traceBase traceOpt, verdicts sha1 config traceBase traceOpt =
    verdicts sha1 config' traceBase traceOpt

theorem SameVerdicts.symm (h : SameVerdicts sha1 config config') :
    SameVerdicts sha1 config' config := fun traceBase traceOpt => (h traceBase traceOpt).symm

theorem SameVerdicts.tolerantlyEqual_iff (h : SameVerdicts sha1 config config')
    (traceBase traceOpt : List Event) : TolerantlyEqual sha1 config traceBase traceOpt ↔
      TolerantlyEqual sha1 config' traceBase traceOpt := by
  have hsnd : ∀ config : TraceCompareConfig,
      (compareTraces sha1 traceBase traceOpt config).map (·.tolerantEqual) =
        (verdicts sha1 config traceBase traceOpt).map Prod.snd := by
    intro config
    rw [verdicts]
    cases compareTraces sha1 traceBase traceOpt config <;> rfl
  rw [TolerantlyEqual, TolerantlyEqual, hsnd, hsnd, h]

theorem verdicts_eq_true_iff {traceBase traceOpt : List Event} :
    verdicts sha1 config traceBase traceOpt = .ok (true, true) ↔
      strictEqual (traceBase.map (canonicalizeEvent sha1 config.volatileParamKeys))
        (traceOpt.map (canonicalizeEvent sha1 config.volatileParamKeys)) = true := by
  rw [verdicts, compareTraces]
  by_cases hstrict : strictEqual (traceBase.map (canonicalizeEvent sha1 config.volatileParamKeys))
      (traceOpt.map (canonicalizeEvent sha1 config.volatileParamKeys)) = true
  · simp only [hstrict, if_true]
    exact iff_of_true rfl trivial
  · rw [if_neg hstrict]
    refine iff_of_false (fun h => ?_) hstrict
    cases htolerant : tolerantEqual config
        (traceBase.map (canonicalizeEvent sha1 config.volatileParamKeys))
        (traceOpt.map (canonicalizeEvent sha1 config.volatileParamKeys)) with
    | error e =>
      rw [htolerant] at h
      cases h
    | ok tolerant =>
      rw [htolerant] at h
      exact hstrict (Prod.ext_iff.1 (Except.ok.inj h)).1

end Verdicts

/-! ## Volatile parameters -/

section Volatile

variable {sha1 : String → String} {config config' : TraceCompareConfig}

theorem length_eq_of_eqvItems {xs ys : List Val} (h : eqvItems xs ys = true) :
    xs.length = ys.length := by
  induction xs generalizing ys with
  | nil =>
    cases ys with
    | nil => rfl
    | cons y ys => simp [eqvItems] at h
  | cons x xs ih =>
    cases ys with
    | nil => simp [eqvItems] at h
    | cons y ys =>
      rw [eqvItems, Bool.and_eq_true] at h
      rw [List.length_cons, List.length_cons, ih h.2]

/-- A parameter that is not volatile leaves one row. -/
theorem exists_canonicalizeParams_singleton {volatile : List String} {key : String} (value : Val)
    (h : key ∉ volatile) : ∃ row, canonicalizeParams sha1 volatile [(key, value)] = [row] := by
  have hnot : ¬ volatile.contains key = true := fun hmem => h (List.contains_iff_mem.1 hmem)
  simp only [canonicalizeParams, List.foldl_cons, List.foldl_nil, canonicalizeParam, if_neg hnot]
  split_ifs <;> exact ⟨_, rfl⟩

/-- An event that has nothing but parameters. -/
def bareEvent (params : Dict) : Event where
  provider := ""
  op := ""
  target := ""
  paramsAbst := params

/-- A key that is volatile for one configuration is volatile for the other. -/
theorem SameVerdicts.volatile (h : SameVerdicts sha1 config config') {key : String}
    (hkey : key ∈ config.volatileParamKeys) : key ∈ config'.volatileParamKeys := by
  by_contra hnot
  have hstrict : verdicts sha1 config [bareEvent [(key, .none)]] [bareEvent []] =
      .ok (true, true) := by
    have hparams : canonicalizeParams sha1 config.volatileParamKeys [(key, .none)] = [] :=
      if_pos (List.contains_iff_mem.2 hkey)
    have hsame : canonicalizeEvent sha1 config.volatileParamKeys (bareEvent [(key, .none)]) =
        canonicalizeEvent sha1 config.volatileParamKeys (bareEvent []) := by
      simp only [canonicalizeEvent, bareEvent, hparams]
      rfl
    have hhash : ∀ event ∈ [canonicalizeEvent sha1 config.volatileParamKeys (bareEvent [])],
        event.Hashable := by
      intro event hevent row hrow
      rw [List.mem_singleton.1 hevent] at hrow
      exact absurd hrow List.not_mem_nil
    rw [verdicts_eq_true_iff, List.map_singleton, List.map_singleton, hsame]
    exact (strictEqual_iff hhash hhash).2 rfl
  rw [h, verdicts_eq_true_iff] at hstrict
  obtain ⟨row, hrow⟩ : ∃ row, canonicalizeParams sha1 config'.volatileParamKeys [(key, .none)] =
    [row] := exists_canonicalizeParams_singleton Val.none hnot
  have hkeys := (strictEqual_cons.1 hstrict).1
  have hlength := length_eq_of_eqvItems (eventKey_parts hkeys).2.2.2
  rw [List.length_map, List.length_map, (sortedBy_perm _ _).length_eq,
    (sortedBy_perm _ _).length_eq] at hlength
  simp only [canonicalizeEvent, bareEvent, hrow] at hlength
  cases hlength

end Volatile

/-! ## Two events in both orders -/

section Swap

variable {sha1 : String → String} {config config' : TraceCompareConfig} {e f : Event}

/-- Two different commutable events may be swapped when the rules let them. -/
theorem tolerantEqual_swap_iff (he : e.Hashable) (hf : f.Hashable) (hne : keyForm e ≠ keyForm f)
    (hphase : e.phase = f.phase) (hce : config.commutes e = true) (hcf : config.commutes f = true) :
    tolerantEqual config [e, f] [f, e] = .ok true ↔
      groupedCommutationOk [e, f] [f, e] config.equivalenceRules = true := by
  have hkey : ¬ (eventKey e).eqv (eventKey f) = true := fun h => hne ((eventKey_eqv_iff he hf).1 h)
  have htakeBase : [e, f].takeWhile config.commutes = [e, f] := by simp [hce, hcf]
  have htakeOpt : [f, e].takeWhile config.commutes = [f, e] := by simp [hce, hcf]
  have hdropBase : [e, f].dropWhile config.commutes = [] := by simp [hce, hcf]
  have hdropOpt : [f, e].dropWhile config.commutes = [] := by simp [hce, hcf]
  rw [tolerantEqual_iff]
  show 2 = 2 ∧ tolerantFrom config (1 + 1) _ _ = _ ↔ _
  rw [tolerantFrom_cons_iff, if_neg hkey, if_pos ⟨hce, hcf, hphase⟩]
  constructor
  · rintro ⟨-, h⟩
    have hok := h.ok
    rwa [htakeBase, htakeOpt] at hok
  · intro hok
    refine ⟨rfl, ?_, ?_, ?_, ?_⟩
    · rw [htakeBase, htakeOpt]
      intro event hevent
      simp only [List.cons_append, List.nil_append, List.mem_cons, List.not_mem_nil,
        or_false] at hevent
      rcases hevent with rfl | rfl | rfl | rfl
      · exact he
      · exact hf
      · exact hf
      · exact he
    · rw [htakeBase, htakeOpt]
      exact .swap _ _ _
    · rw [htakeBase, htakeOpt]
      exact hok
    · rw [hdropBase, hdropOpt]
      rfl

/-- Two different events that do not commute and belong to no action may not be swapped. -/
theorem not_tolerantEqual_swap (he : e.Hashable) (hf : f.Hashable) (hne : keyForm e ≠ keyForm f)
    (hce : config.commutes e = false)
    (hscope : parallelScopeForEvents e f config.parallelActionScopes = none) :
    tolerantEqual config [e, f] [f, e] ≠ .ok true := by
  have hkey : ¬ (eventKey e).eqv (eventKey f) = true := fun h => hne ((eventKey_eqv_iff he hf).1 h)
  rw [Ne, tolerantEqual_iff]
  rintro ⟨-, h⟩
  change tolerantFrom config (1 + 1) _ _ = _ at h
  rw [tolerantFrom_cons_iff, if_neg hkey, if_neg fun hcond => by simp [hce] at hcond] at h
  obtain ⟨scope, hsome, -⟩ := h
  rw [hscope] at hsome
  cases hsome

/-- A call of an operation by a provider. -/
def plainEvent (provider op : String) : Event where
  provider := provider
  op := op
  target := ""

theorem canonicalizeEvent_plainEvent {volatile : List String} {op : String} (provider : String)
    (hop : normalizeOpName op = op) :
    canonicalizeEvent sha1 volatile (plainEvent provider op) = plainEvent provider op := by
  simp only [canonicalizeEvent, plainEvent, hop, canonicalizeParams, List.foldl_nil]

theorem hashable_plainEvent (provider op : String) : (plainEvent provider op).Hashable :=
  fun _ hrow => absurd hrow List.not_mem_nil

theorem canonical_plainEvent {volatile : List String} {op : String} (provider : String)
    (hop : normalizeOpName op = op) : Canonical volatile (plainEvent provider op) :=
  ⟨hop, fun _ hkey => absurd hkey List.not_mem_nil⟩

/-- An operation that commutes for one configuration commutes for the other. -/
theorem SameVerdicts.commutable (h : SameVerdicts sha1 config config') {op : String}
    (hcanonical : normalizeOpName op = op) (hop : op ∈ config.commutableOps) :
    op ∈ config'.commutableOps := by
  by_contra hnot
  have hne : keyForm (plainEvent "a" op) ≠ keyForm (plainEvent "b" op) := fun hform =>
    absurd (congrArg KeyForm.provider hform) (by simp [keyForm, plainEvent])
  have hiff := h.tolerantlyEqual_iff [plainEvent "a" op, plainEvent "b" op]
    [plainEvent "b" op, plainEvent "a" op]
  simp only [Trace.tolerantlyEqual_iff, List.map_cons, List.map_nil,
    canonicalizeEvent_plainEvent _ hcanonical] at hiff
  have hscope : parallelScopeForEvents (plainEvent "a" op) (plainEvent "b" op)
      config'.parallelActionScopes = none := by
    have haction : eventActionId (plainEvent "a" op) = "" := by
      simp only [eventActionId, plainEvent]
      decide +kernel
    rw [parallelScopeForEvents, haction, parallelScope_empty]
  refine not_tolerantEqual_swap (hashable_plainEvent "a" op) (hashable_plainEvent "b" op) hne
    (by simpa [TraceCompareConfig.commutes, plainEvent] using hnot) hscope (hiff.1 ?_)
  refine (tolerantEqual_swap_iff (hashable_plainEvent "a" op) (hashable_plainEvent "b" op) hne rfl
    (List.contains_iff_mem.2 hop) (List.contains_iff_mem.2 hop)).2 ?_
  -- no rule reads the provider
  refine groupedCommutationOk_iff.2 fun rule _ _ => ?_
  have hgroup : eventGroupValue (plainEvent "a" op) (strip rule.groupKey) =
      eventGroupValue (plainEvent "b" op) (strip rule.groupKey) := by
    simp only [eventGroupValue, plainEvent]
  have hops : (plainEvent "a" op).op = (plainEvent "b" op).op := rfl
  rw [signature_cons rule (plainEvent "a" op) [plainEvent "b" op],
    signature_cons rule (plainEvent "b" op) [plainEvent "a" op], signature_singleton_eq hops hgroup]

end Swap

/-! ## Parallel actions -/

section Scopes

variable {sha1 : String → String} {config config' : TraceCompareConfig}

/-- A name that is its own capital form, longer than every operation of a list. -/
theorem exists_fresh_op (ops : List String) : ∃ op, normalizeOpName op = op ∧ op ∉ ops := by
  let n := (ops.map String.length).sum + 1
  let op := String.ofList (List.replicate n 'Z')
  have hletters : ∀ c ∈ List.replicate n 'Z', c = 'Z' := fun c hc => List.eq_of_mem_replicate hc
  have hstrip : strip op = op := by
    have hspace : ∀ c ∈ op.toList, isSpace c = false := by
      intro c hc
      rw [String.toList_ofList] at hc
      rw [hletters c hc]
      rfl
    rw [strip, stripL_of_forall hspace, String.ofList_toList]
  have hupper : upper op = op := by
    rw [upper, upperL, String.toList_ofList, List.map_replicate]
    rfl
  refine ⟨op, ?_, fun hmem => ?_⟩
  · have hlookup : opAliases.lookup op = none := by
      have htable : ∀ row ∈ opAliases, row.1.toList.any (· ≠ 'Z') = true := by decide +kernel
      rw [List.lookup_eq_none_iff]
      intro row hrow
      obtain ⟨c, hc, hne⟩ := List.any_eq_true.1 (htable row hrow)
      rw [bne_iff_ne]
      intro heq
      rw [← heq, String.toList_ofList] at hc
      exact of_decide_eq_true hne (hletters c hc)
    rw [normalizeOpName, hstrip, hupper, hlookup]
    rfl
  · have hle := List.single_le_sum (fun _ _ => Nat.zero_le _) _
      (List.mem_map_of_mem (f := String.length) hmem)
    have hlength : op.length = n := by
      rw [String.length_ofList, List.length_replicate]
    omega

/-- A step of an action. -/
def stepOf (provider op actionId : String) : Event where
  provider := provider
  op := op
  target := ""
  paramsAbst := [("action_id", .str actionId)]

theorem canonicalizeEvent_stepOf {volatile : List String} {op : String} (provider : String)
    (actionId : String) (hop : normalizeOpName op = op) (hvolatile : "action_id" ∉ volatile) :
    canonicalizeEvent sha1 volatile (stepOf provider op actionId) =
      stepOf provider op actionId := by
  have hnot : volatile.contains "action_id" = false := by
    rw [Bool.eq_false_iff]
    exact fun h => hvolatile (List.contains_iff_mem.1 h)
  have hparams : canonicalizeParams sha1 volatile [("action_id", .str actionId)] =
      [("action_id", .str actionId)] := by
    simp only [canonicalizeParams, List.foldl_cons, List.foldl_nil, canonicalizeParam, hnot]
    rfl
  simp only [canonicalizeEvent, stepOf, hop, hparams]

theorem hashable_stepOf (provider op actionId : String) :
    (stepOf provider op actionId).Hashable := by
  intro row hrow
  rw [List.mem_singleton.1 hrow]
  rfl

theorem eventActionId_stepOf (provider op actionId : String) :
    eventActionId (stepOf provider op actionId) = strip actionId := rfl

/-- The actions of a scope are trimmed. -/
theorem strip_of_mem_scope {scopes : List (List String)} {actionId action : String}
    {scope : List String} (h : parallelScope scopes actionId = some scope) (hin : action ∈ scope) :
    strip action = action := by
  obtain ⟨raw, -, rfl⟩ := List.mem_map.1 (List.mem_filter.1 (parallelScope_eq_some h).1).1
  rw [List.mem_dedup, List.mem_filter, List.mem_map] at hin
  obtain ⟨⟨item, -, rfl⟩, -⟩ := hin
  exact strip_strip item

theorem inScope_stepOf_iff {scope : List String} {actionId : String} (provider op : String)
    (h : strip actionId = actionId) :
    inScope scope (stepOf provider op actionId) = true ↔ actionId ∈ scope := by
  rw [inScope, eventActionId_stepOf, h, List.contains_iff_mem]

/-- Three steps in both orders show whether the middle one runs in parallel with the others. -/
theorem tolerantEqual_steps_iff {op actionId other : String} (hop : op ∉ config.commutableOps)
    (hstrip : strip actionId = actionId) (hother : strip other = other) :
    tolerantEqual config
        [stepOf "a" op actionId, stepOf "c" op other, stepOf "b" op actionId]
        [stepOf "b" op actionId, stepOf "c" op other, stepOf "a" op actionId] = .ok true ↔
      ∃ scope, parallelScope config.parallelActionScopes actionId = some scope ∧
        other ∈ scope := by
  have hne : keyForm (stepOf "a" op actionId) ≠ keyForm (stepOf "b" op actionId) := fun hform =>
    absurd (congrArg KeyForm.provider hform) (by simp [keyForm, stepOf])
  have hkey : ¬ (eventKey (stepOf "a" op actionId)).eqv
      (eventKey (stepOf "b" op actionId)) = true := fun h =>
    hne ((eventKey_eqv_iff (hashable_stepOf _ _ _) (hashable_stepOf _ _ _)).1 h)
  have hcommutes : config.commutes (stepOf "a" op actionId) = false := by
    rw [Bool.eq_false_iff]
    exact fun h => hop (List.contains_iff_mem.1 h)
  have hlookup : parallelScopeForEvents (stepOf "a" op actionId) (stepOf "b" op actionId)
      config.parallelActionScopes = parallelScope config.parallelActionScopes actionId := by
    rw [parallelScopeForEvents, eventActionId_stepOf, eventActionId_stepOf, hstrip]
    cases parallelScope config.parallelActionScopes actionId with
    | none => rfl
    | some scope => exact if_pos (sameSet_iff.2 rfl)
  rw [tolerantEqual_iff]
  show 3 = 3 ∧ tolerantFrom config (2 + 1) _ _ = _ ↔ _
  rw [tolerantFrom_cons_iff, if_neg hkey, if_neg fun hcond => by simp [hcommutes] at hcond, hlookup]
  constructor
  · rintro ⟨-, scope, hscope, hwindow⟩
    refine ⟨scope, hscope, ?_⟩
    by_contra hnot
    -- the middle step ends both windows after their first one
    have hin : ∀ provider, inScope scope (stepOf provider op actionId) = true := fun provider =>
      (inScope_stepOf_iff provider op hstrip).2 (parallelScope_eq_some hscope).2
    have hout : inScope scope (stepOf "c" op other) = false := by
      rw [Bool.eq_false_iff]
      exact fun h => hnot ((inScope_stepOf_iff "c" op hother).1 h)
    have hperm := hwindow.perm
    simp only [List.takeWhile_cons, hin, hout, if_true, Bool.false_eq_true, if_false,
      List.map_singleton] at hperm
    exact hne (List.singleton_perm_singleton.1 hperm)
  · rintro ⟨scope, hscope, hmem⟩
    have hin : ∀ provider, inScope scope (stepOf provider op actionId) = true := fun provider =>
      (inScope_stepOf_iff provider op hstrip).2 (parallelScope_eq_some hscope).2
    have hmiddle := (inScope_stepOf_iff "c" op hother).2 hmem
    refine ⟨rfl, scope, hscope, fun event hevent => ?_, ?_, rfl, ?_⟩
    · have hstep : ∃ provider actionId, event = stepOf provider op actionId := by
        rcases List.mem_append.1 hevent with hevent | hevent
        · have hevent := (List.takeWhile_prefix _).mem hevent
          simp only [List.mem_cons, List.not_mem_nil, or_false] at hevent
          rcases hevent with rfl | rfl | rfl <;> exact ⟨_, _, rfl⟩
        · have hevent := (List.takeWhile_prefix _).mem hevent
          simp only [List.mem_cons, List.not_mem_nil, or_false] at hevent
          rcases hevent with rfl | rfl | rfl <;> exact ⟨_, _, rfl⟩
      obtain ⟨provider, actionId, rfl⟩ := hstep
      exact hashable_stepOf provider op actionId
    · simp only [List.takeWhile_cons, List.takeWhile_nil, hin, hmiddle, if_true]
      exact (List.reverse_perm _).symm
    · simp only [List.dropWhile_cons, List.dropWhile_nil, hin, hmiddle, if_true]
      rfl

/-- Actions that run in parallel for one configuration do for the other. -/
theorem SameVerdicts.scope (h : SameVerdicts sha1 config config')
    (hvolatile : ∀ key, key ∈ config.volatileParamKeys ↔ key ∈ config'.volatileParamKeys)
    (haction : "action_id" ∉ config.volatileParamKeys) {actionId other : String}
    {scope : List String} (hscope : parallelScope config.parallelActionScopes actionId = some scope)
    (hother : other ∈ scope) :
    ∃ scope', parallelScope config'.parallelActionScopes actionId = some scope' ∧
      other ∈ scope' := by
  obtain ⟨op, hop, hfresh⟩ := exists_fresh_op (config.commutableOps ++ config'.commutableOps)
  rw [List.mem_append, not_or] at hfresh
  have haction' : "action_id" ∉ config'.volatileParamKeys := fun h => haction ((hvolatile _).2 h)
  have hstrip := strip_of_mem_scope hscope (parallelScope_eq_some hscope).2
  have hiff := h.tolerantlyEqual_iff
    [stepOf "a" op actionId, stepOf "c" op other, stepOf "b" op actionId]
    [stepOf "b" op actionId, stepOf "c" op other, stepOf "a" op actionId]
  simp only [Trace.tolerantlyEqual_iff, List.map_cons, List.map_nil,
    canonicalizeEvent_stepOf _ _ hop haction, canonicalizeEvent_stepOf _ _ hop haction'] at hiff
  rw [tolerantEqual_steps_iff hfresh.1 hstrip (strip_of_mem_scope hscope hother),
    tolerantEqual_steps_iff hfresh.2 hstrip (strip_of_mem_scope hscope hother)] at hiff
  exact hiff.1 ⟨scope, hscope, hother⟩

end Scopes

/-! ## Fields -/

section Fields

variable {sha1 : String → String} {volatile : List String} {config config' : TraceCompareConfig}

/-- Two events of one operation that differ in one field, and in no other that a rule may read. -/
structure Separates (sha1 : String → String) (volatile : List String) (op : String)
    (field : GroupField) (raw raw' : Event) : Prop where
  left : raw.op = op
  right : raw'.op = op
  phase : raw.phase = raw'.phase
  hashable : (canonicalizeEvent sha1 volatile raw).Hashable
  hashable' : (canonicalizeEvent sha1 volatile raw').Hashable
  keys : keyForm (canonicalizeEvent sha1 volatile raw) ≠
    keyForm (canonicalizeEvent sha1 volatile raw')
  values : field.value (canonicalizeEvent sha1 volatile raw) ≠
    field.value (canonicalizeEvent sha1 volatile raw')
  others : ∀ key, fieldOf volatile key ≠ field →
    (fieldOf volatile key).value (canonicalizeEvent sha1 volatile raw) =
      (fieldOf volatile key).value (canonicalizeEvent sha1 volatile raw')

/-- A call of an operation on a target. -/
def callOn (op target : String) (params : Dict) : Event where
  provider := ""
  op := op
  target := target
  paramsAbst := params

/-- A letter is kept as it is. -/
theorem canonicalizeParam_letter {key text : String} (result : Dict) (hkey : key ∉ volatile)
    (hbody : key ∉ bodyKeys) (htext : text = "a" ∨ text = "b") :
    canonicalizeParam sha1 volatile result (key, .str text) = result.set key (.str text) := by
  have hnot : ¬ volatile.contains key = true := fun h => hkey (List.contains_iff_mem.1 h)
  have hnotBody : ¬ ["payload", "body", "json"].contains key = true := fun h =>
    hbody (List.contains_iff_mem.1 h)
  have hlower : lower (strip text) = text := by
    rcases htext with rfl | rfl <;> decide +kernel
  have haddress : lower (String.ofList ((replaceChar text '-' ':').toList.filter (· ≠ ' '))) =
      text := by
    rcases htext with rfl | rfl <;> decide +kernel
  simp only [canonicalizeParam, if_neg hnot, if_neg hnotBody, Val.pyStr, hlower, haddress, ite_self]

/-- Parameters in the place of which the target is read. -/
def fallbackParams : Dict := fallbackKeys.map fun key => (key, .str "a")

theorem get?_fallbackParams {key : String} (hkey : key ∈ fallbackKeys)
    (hvolatile : key ∉ volatile) :
    (canonicalizeParams sha1 volatile fallbackParams).get? key = some (.str "a") := by
  have hbody : ∀ key ∈ fallbackKeys, key ∉ bodyKeys := by decide +kernel
  have hfold : ∀ (keys : List String) (result : Dict), (∀ k ∈ keys, k ∈ fallbackKeys) →
      key ∈ keys ∨ result.get? key = some (.str "a") →
      ((keys.map fun k => ((k, .str "a") : String × Val)).foldl
        (canonicalizeParam sha1 volatile) result).get? key = some (.str "a") := by
    intro keys
    induction keys with
    | nil => exact fun result _ h => h.resolve_left List.not_mem_nil
    | cons k keys ih =>
      intro result hkeys h
      rw [List.map_cons, List.foldl_cons]
      refine ih _ (fun k' hk' => hkeys k' (List.mem_cons_of_mem k hk')) ?_
      by_cases hk : k ∈ volatile
      · have hskip : canonicalizeParam sha1 volatile result (k, .str "a") = result :=
          if_pos (List.contains_iff_mem.2 hk)
        rw [hskip]
        refine h.imp (fun hmem => (List.mem_cons.1 hmem).resolve_left ?_) id
        rintro rfl
        exact hvolatile hk
      · rw [canonicalizeParam_letter result hk (hbody k (hkeys k List.mem_cons_self)) (Or.inl rfl),
          Dict.get?_set]
        by_cases heq : k = key
        · exact Or.inr (if_pos heq)
        · rw [if_neg heq]
          exact h.imp (fun hmem => (List.mem_cons.1 hmem).resolve_left (Ne.symm heq)) id
  exact hfold fallbackKeys [] (fun _ h => h) (Or.inl hkey)

theorem hashable_canonicalizeParams {params : Dict} (h : ∀ row ∈ params, hashable row.2 = true) :
    ∀ row ∈ canonicalizeParams sha1 volatile params, hashable row.2 = true := by
  have hset : ∀ (d : Dict) (key : String) (value : Val), (∀ row ∈ d, hashable row.2 = true) →
      hashable value = true → ∀ row ∈ d.set key value, hashable row.2 = true := by
    intro d key value hd hvalue
    induction d with
    | nil =>
      intro row hrow
      rw [List.mem_singleton.1 hrow]
      exact hvalue
    | cons first rest ih =>
      intro row hrow
      rw [Dict.set] at hrow
      split_ifs at hrow
      · rcases List.mem_cons.1 hrow with rfl | hrow
        · exact hvalue
        · exact hd row (List.mem_cons_of_mem first hrow)
      · rcases List.mem_cons.1 hrow with rfl | hrow
        · exact hd row List.mem_cons_self
        · exact ih (fun row hrow => hd row (List.mem_cons_of_mem first hrow)) row hrow
  have hfold : ∀ (rows result : Dict), (∀ row ∈ rows, hashable row.2 = true) →
      (∀ row ∈ result, hashable row.2 = true) →
      ∀ row ∈ rows.foldl (canonicalizeParam sha1 volatile) result, hashable row.2 = true := by
    intro rows
    induction rows with
    | nil => exact fun _ _ h => h
    | cons row rows ih =>
      intro result hrows hresult
      refine ih _ (fun r hr => hrows r (List.mem_cons_of_mem row hr)) ?_
      obtain ⟨key, value⟩ := row
      have hvalue : hashable value = true := hrows (key, value) List.mem_cons_self
      simp only [canonicalizeParam]
      split_ifs
      · exact hresult
      · exact hset _ _ _ hresult rfl
      · exact hset _ _ _ hresult rfl
      · exact hset _ _ _ hresult rfl
      · exact hset _ _ _ hresult hvalue
  exact hfold params [] h fun _ hrow => absurd hrow List.not_mem_nil

/-- Two calls on different targets, where nothing else is read in the place of the target. -/
theorem separates_target (op : String) :
    Separates sha1 volatile op .target (callOn op "a" fallbackParams)
      (callOn op "b" fallbackParams) := by
  have hhash : ∀ target,
      (canonicalizeEvent sha1 volatile (callOn op target fallbackParams)).Hashable := by
    refine fun target => hashable_canonicalizeParams fun row hrow => ?_
    obtain ⟨key, -, rfl⟩ := List.mem_map.1 hrow
    rfl
  refine ⟨rfl, rfl, rfl, hhash "a", hhash "b", fun hform => ?_, ?_, fun key hkey => ?_⟩
  · exact absurd (congrArg KeyForm.target hform) (by simp [keyForm, canonicalizeEvent, callOn])
  · simp [GroupField.value, canonicalizeEvent, callOn]
  · have hfallback : ∀ body ∈ bodyKeys, body ++ "_hash" ∉ fallbackKeys := by decide +kernel
    rw [fieldOf] at hkey ⊢
    split_ifs at hkey ⊢ with htarget hoccurs hmem hmem
    · exact absurd rfl hkey
    · have hnot : key ∉ volatile := by
        rcases hoccurs with ⟨hnot, -⟩ | ⟨body, hbody, -, rfl⟩
        · exact hnot
        · exact absurd hmem (hfallback body hbody)
      have hget : ∀ target, (canonicalizeEvent sha1 volatile
          (callOn op target fallbackParams)).paramsAbst.get? key = some (.str "a") :=
        fun _ => get?_fallbackParams hmem hnot
      rw [GroupField.value, GroupField.value, hget, hget]
      rfl
    · rfl
    · exact absurd rfl hkey
    · rfl

/-- A field is the same in two events when the target is, and the parameter. -/
theorem fieldOf_value_congr {key : String} {e f : Event} (htarget : e.target = f.target)
    (hget : e.paramsAbst.get? key = f.paramsAbst.get? key) :
    (fieldOf volatile key).value e = (fieldOf volatile key).value f := by
  rw [fieldOf]
  split_ifs
  · exact htarget
  · rw [GroupField.value, GroupField.value, hget, htarget]
  · rw [GroupField.value, GroupField.value, hget]
  · exact htarget
  · rfl

/-- Without a target the field of a key that may occur is its parameter. -/
theorem fieldOf_value_of_mayOccur {key : String} (hne : key ≠ "target")
    (hoccurs : MayOccur volatile key) {e : Event} (htarget : e.target = "") :
    (fieldOf volatile key).value e = ((e.paramsAbst.get? key).map Val.pyStr).getD "" := by
  rw [fieldOf, if_neg hne, if_pos hoccurs]
  split_ifs
  · rw [GroupField.value, htarget]
  · rfl

theorem separates_of_params {key : String} {params params' : Dict} (op : String)
    (hne : key ≠ "target") (hoccurs : MayOccur volatile key)
    (hhash : ∀ row ∈ params, hashable row.2 = true)
    (hhash' : ∀ row ∈ params', hashable row.2 = true)
    (hkeys : (sortedBy (·.1) (canonicalizeParams sha1 volatile params)).map
        (fun row => (row.1, scalar row.2)) ≠
      (sortedBy (·.1) (canonicalizeParams sha1 volatile params')).map
        fun row => (row.1, scalar row.2))
    (hvalues : (((canonicalizeParams sha1 volatile params).get? key).map Val.pyStr).getD "" ≠
      (((canonicalizeParams sha1 volatile params').get? key).map Val.pyStr).getD "")
    (hothers : ∀ other, other ≠ key → (canonicalizeParams sha1 volatile params).get? other =
      (canonicalizeParams sha1 volatile params').get? other) :
    Separates sha1 volatile op (fieldOf volatile key) (callOn op "" params)
      (callOn op "" params') := by
  refine ⟨rfl, rfl, rfl, hashable_canonicalizeParams hhash, hashable_canonicalizeParams hhash',
    fun hform => hkeys (congrArg KeyForm.params hform), ?_, fun other hother => ?_⟩
  · rw [fieldOf_value_of_mayOccur hne hoccurs rfl, fieldOf_value_of_mayOccur hne hoccurs rfl]
    exact hvalues
  · refine fieldOf_value_congr rfl (hothers other ?_)
    rintro rfl
    exact hother rfl

theorem canonicalizeParams_letter {key text : String} (hkey : key ∉ volatile)
    (hbody : key ∉ bodyKeys) (htext : text = "a" ∨ text = "b") :
    canonicalizeParams sha1 volatile [(key, .str text)] = [(key, .str text)] := by
  rw [canonicalizeParams, List.foldl_cons, List.foldl_nil,
    canonicalizeParam_letter [] hkey hbody htext]
  rfl

theorem canonicalizeParams_body {body : String} (value : Val) (hbody : body ∈ bodyKeys)
    (hnot : body ∉ volatile) : canonicalizeParams sha1 volatile [(body, value)] =
      [(body ++ "_hash", .str (stableHash sha1 value))] := by
  have hvolatile : ¬ volatile.contains body = true := fun h => hnot (List.contains_iff_mem.1 h)
  have hcontains : ["payload", "body", "json"].contains body = true :=
    List.contains_iff_mem.2 hbody
  simp only [canonicalizeParams, List.foldl_cons, List.foldl_nil, canonicalizeParam,
    if_neg hvolatile, if_pos hcontains]
  rfl

theorem stableHash_ne_empty (hsha1 : ∀ text, sha1 text ≠ "") (value : Val) :
    stableHash sha1 value ≠ "" := by
  intro h
  have hlist := congrArg String.toList h
  rw [stableHash, String.toList_ofList] at hlist
  have hnil : (sha1 value.repr).toList = [] := by
    rcases List.take_eq_nil_iff.1 hlist with h | h
    · cases h
    · exact h
  exact hsha1 value.repr (String.toList_eq_nil_iff.1 hnil)

/-- For every field that a rule may read there are two events that differ in it only. -/
theorem exists_separating (hsha1 : ∀ text, sha1 text ≠ "") (op key : String)
    (hfield : fieldOf volatile key ≠ .nothing) :
    ∃ raw raw', Separates sha1 volatile op (fieldOf volatile key) raw raw' := by
  by_cases hne : key = "target"
  · have htarget : fieldOf volatile key = .target := if_pos hne
    exact ⟨_, _, htarget ▸ separates_target op⟩
  by_cases hoccurs : MayOccur volatile key
  · have hstr : ∀ (name text : String), ∀ row ∈ ([(name, .str text)] : Dict),
        hashable row.2 = true := by
      intro name text row hrow
      rw [List.mem_singleton.1 hrow]
      rfl
    rcases id hoccurs with ⟨hnot, hbody⟩ | ⟨body, hbody, hnot, rfl⟩
    · refine ⟨callOn op "" [(key, .str "a")], callOn op "" [(key, .str "b")],
        separates_of_params op hne hoccurs (hstr key "a") (hstr key "b") ?_ ?_ ?_⟩
      all_goals
        rw [canonicalizeParams_letter hnot hbody (Or.inl rfl),
          canonicalizeParams_letter hnot hbody (Or.inr rfl)]
      · simp [sortedBy, scalar]
      · simp [Dict.get?_cons, Val.pyStr]
      · intro other hother
        rw [Dict.get?_cons, Dict.get?_cons, if_neg (Ne.symm hother), if_neg (Ne.symm hother)]
    · refine ⟨callOn op "" [(body, .str "a")], callOn op "" [],
        separates_of_params op hne hoccurs (hstr body "a")
          (fun _ hrow => absurd hrow List.not_mem_nil) ?_ ?_ ?_⟩
      all_goals rw [canonicalizeParams_body _ hbody hnot]
      · simp [sortedBy, canonicalizeParams]
      · simp only [Dict.get?_cons, if_true, Option.map_some, Option.getD_some]
        exact stableHash_ne_empty hsha1 _
      · intro other hother
        rw [Dict.get?_cons, if_neg (Ne.symm hother)]
        rfl
  · have htarget : fieldOf volatile key = .target := by
      rw [fieldOf, if_neg hne, if_neg hoccurs] at hfield ⊢
      split_ifs at hfield ⊢
      · rfl
      · exact absurd rfl hfield
    exact ⟨_, _, htarget ▸ separates_target op⟩

end Fields

/-! ## Rules -/

section Rules

variable {sha1 : String → String} {config config' : TraceCompareConfig}

theorem normalizeOpName_of_mem {op : String} {ops : List String} (h : op ∈ normalizedOps ops) :
    normalizeOpName op = op := by
  obtain ⟨raw, -, rfl⟩ := List.mem_map.1 (List.mem_filter.1 h).1
  exact normalizeOpName_idem raw

theorem fieldOf_congr {volatile volatile' : List String}
    (h : ∀ key, key ∈ volatile ↔ key ∈ volatile') (key : String) :
    fieldOf volatile key = fieldOf volatile' key := by
  simp only [fieldOf, mayOccur_congr h]

theorem fieldValues_pair {op : String} {field : GroupField} {e f : Event} (he : e.op = op)
    (hf : f.op = op) : fieldValues op field [e, f] = [field.value e, field.value f] := by
  simp [fieldValues, he, hf]

theorem canonicalizeEvent_op {volatile : List String} {op : String} {raw : Event}
    (hcanonical : normalizeOpName op = op) (h : raw.op = op) :
    (canonicalizeEvent sha1 volatile raw).op = op := by
  simp only [canonicalizeEvent, h, hcanonical]

/-- Two events of one operation may be swapped when they agree in what the rules keep of it. -/
theorem groupedCommutationOk_swap {op : String} {e f : Event}
    (he : Canonical config.volatileParamKeys e) (hf : Canonical config.volatileParamKeys f)
    (heop : e.op = op) (hfop : f.op = op) :
    groupedCommutationOk [e, f] [f, e] config.equivalenceRules = true ↔
      ∀ field, config.KeepsField op field → field.value e = field.value f := by
  have hcanonical : ∀ event ∈ [e, f], Canonical config.volatileParamKeys event := by
    simp only [List.forall_mem_cons]
    exact ⟨he, hf, fun _ h => absurd h List.not_mem_nil⟩
  have hcanonical' : ∀ event ∈ [f, e], Canonical config.volatileParamKeys event := by
    simp only [List.forall_mem_cons]
    exact ⟨hf, he, fun _ h => absurd h List.not_mem_nil⟩
  rw [groupedCommutationOk_iff_keeps hcanonical hcanonical']
  constructor
  · rintro ⟨hfields, -⟩ field hkeeps
    have hvalues := hfields op field hkeeps
    rw [fieldValues_pair heop hfop, fieldValues_pair hfop heop] at hvalues
    exact (List.cons.inj hvalues).1
  · intro hvalues
    refine ⟨fun other field hkeeps => ?_, fun first second _ _ => ?_⟩
    · by_cases hother : other = op
      · subst hother
        rw [fieldValues_pair heop hfop, fieldValues_pair hfop heop, hvalues field hkeeps]
      · rw [fieldValues_of_not_mem, fieldValues_of_not_mem]
        · simp only [List.forall_mem_cons, heop, hfop]
          exact ⟨Ne.symm hother, Ne.symm hother, fun _ h => absurd h List.not_mem_nil⟩
        · simp only [List.forall_mem_cons, heop, hfop]
          exact ⟨Ne.symm hother, Ne.symm hother, fun _ h => absurd h List.not_mem_nil⟩
    · simp only [pairOps, List.map_cons, heop, hfop]

/-- Two events that differ in one field may be swapped when no rule keeps this field. -/
theorem Separates.swap_iff {volatile : List String} {op : String} {field : GroupField}
    {raw raw' : Event} (h : Separates sha1 volatile op field raw raw')
    (hvolatile : ∀ key, key ∈ volatile ↔ key ∈ config.volatileParamKeys)
    (hcanonical : normalizeOpName op = op) (hop : op ∈ config.commutableOps) :
    tolerantEqual config
        [canonicalizeEvent sha1 volatile raw, canonicalizeEvent sha1 volatile raw']
        [canonicalizeEvent sha1 volatile raw', canonicalizeEvent sha1 volatile raw] = .ok true ↔
      ¬ config.KeepsField op field := by
  have heop : (canonicalizeEvent sha1 volatile raw).op = op :=
    canonicalizeEvent_op hcanonical h.left
  have hfop : (canonicalizeEvent sha1 volatile raw').op = op :=
    canonicalizeEvent_op hcanonical h.right
  have hcommutes : ∀ event : Event, event.op = op → config.commutes event = true :=
    fun event hevent => List.contains_iff_mem.2 (hevent ▸ hop)
  have hphase : (canonicalizeEvent sha1 volatile raw).phase =
      (canonicalizeEvent sha1 volatile raw').phase := by simp only [canonicalizeEvent, h.phase]
  rw [tolerantEqual_swap_iff h.hashable h.hashable' h.keys hphase (hcommutes _ heop)
    (hcommutes _ hfop), groupedCommutationOk_swap (canonical_canonicalizeEvent.congr hvolatile)
    (canonical_canonicalizeEvent.congr hvolatile) heop hfop]
  constructor
  · exact fun hvalues hkeeps => h.values (hvalues field hkeeps)
  · rintro hnot other ⟨rule, hmem, hgroups, hrule, rfl⟩
    have hother : rule.field config.volatileParamKeys =
        fieldOf volatile (lower (strip rule.groupKey)) := (fieldOf_congr hvolatile _).symm
    rw [hother]
    refine h.others _ fun heq => hnot ⟨rule, hmem, hgroups, hrule, ?_⟩
    rw [hother, heq]

/-- What a rule of one configuration keeps of an operation, a rule of the other one keeps. -/
theorem SameVerdicts.keepsField (h : SameVerdicts sha1 config config')
    (hsha1 : ∀ text, sha1 text ≠ "")
    (hvolatile : ∀ key, key ∈ config.volatileParamKeys ↔ key ∈ config'.volatileParamKeys)
    {op : String} {field : GroupField} (hop : op ∈ config.commutableOps) (hne : field ≠ .nothing)
    (hkeeps : config.KeepsField op field) : config'.KeepsField op field := by
  obtain ⟨rule, hmem, hgroups, hrule, hfield⟩ := id hkeeps
  have hcanonical := normalizeOpName_of_mem hrule
  have hsome : fieldOf config.volatileParamKeys (lower (strip rule.groupKey)) ≠ .nothing := by
    rwa [← EquivalenceRule.field, hfield]
  obtain ⟨raw, raw', hsep⟩ := exists_separating hsha1 op (lower (strip rule.groupKey)) hsome
  rw [← EquivalenceRule.field, hfield] at hsep
  have hiff := h.tolerantlyEqual_iff [raw, raw'] [raw', raw]
  simp only [Trace.tolerantlyEqual_iff, List.map_cons, List.map_nil,
    ← canonicalizeEvent_congr hvolatile] at hiff
  rw [hsep.swap_iff (fun _ => Iff.rfl) hcanonical hop,
    hsep.swap_iff hvolatile hcanonical (h.commutable hcanonical hop)] at hiff
  exact not_not.1 fun hnot => hiff.2 hnot hkeeps

theorem pairOps_plainEvent {op op' first second : String} (hne : op ≠ op')
    (hpair : ¬ (first = op ∧ second = op' ∨ first = op' ∧ second = op)) :
    pairOps first second [plainEvent "" op, plainEvent "" op'] =
      pairOps first second [plainEvent "" op', plainEvent "" op] := by
  simp only [pairOps, plainEvent, List.map_cons, List.map_nil, List.filter_cons, List.filter_nil,
    decide_eq_true_eq]
  by_cases hop : op = first ∨ op = second
  · -- the other operation is then neither of the two
    have hop' : ¬ (op' = first ∨ op' = second) := by
      rintro (rfl | rfl) <;> rcases hop with rfl | rfl
      · exact hne rfl
      · exact hpair (Or.inr ⟨rfl, rfl⟩)
      · exact hpair (Or.inl ⟨rfl, rfl⟩)
      · exact hne rfl
    simp only [if_pos hop, if_neg hop']
  · simp only [if_neg hop]

/-- Two events of different operations may be swapped when no rule keeps the two in order. -/
theorem swap_plainEvent_iff {op op' : String} (hne : op ≠ op')
    (hcanonical : normalizeOpName op = op) (hcanonical' : normalizeOpName op' = op')
    (hop : op ∈ config.commutableOps) (hop' : op' ∈ config.commutableOps) :
    tolerantEqual config [plainEvent "" op, plainEvent "" op']
        [plainEvent "" op', plainEvent "" op] = .ok true ↔ ¬ config.KeepsPair op op' := by
  have hkeys : keyForm (plainEvent "" op) ≠ keyForm (plainEvent "" op') := fun hform =>
    hne (congrArg KeyForm.op hform)
  have hevents : ∀ event ∈ [plainEvent "" op, plainEvent "" op'],
      Canonical config.volatileParamKeys event := by
    simp only [List.forall_mem_cons]
    exact ⟨canonical_plainEvent _ hcanonical, canonical_plainEvent _ hcanonical',
      fun _ h => absurd h List.not_mem_nil⟩
  have hevents' : ∀ event ∈ [plainEvent "" op', plainEvent "" op],
      Canonical config.volatileParamKeys event := by
    simp only [List.forall_mem_cons]
    exact ⟨canonical_plainEvent _ hcanonical', canonical_plainEvent _ hcanonical,
      fun _ h => absurd h List.not_mem_nil⟩
  rw [tolerantEqual_swap_iff (hashable_plainEvent _ _) (hashable_plainEvent _ _) hkeys rfl
    (List.contains_iff_mem.2 hop) (List.contains_iff_mem.2 hop'),
    groupedCommutationOk_iff_keeps hevents hevents']
  constructor
  · rintro ⟨-, hpairs⟩ hkeeps
    have hpair := hpairs op op' hne hkeeps
    simp only [pairOps, plainEvent, List.map_cons, List.map_nil, List.filter_cons, List.filter_nil,
      true_or, or_true, decide_true, if_true] at hpair
    exact hne (List.cons.inj hpair).1
  · intro hnot
    refine ⟨fun other field _ => ?_, fun first second hother hkeeps => ?_⟩
    · -- an operation has one event at most
      simp only [fieldValues, plainEvent, List.filter_cons, List.filter_nil, decide_eq_true_eq]
      by_cases hfirst : op = other
      · have hsecond : ¬ op' = other := fun h => hne (hfirst.trans h.symm)
        simp only [if_pos hfirst, if_neg hsecond]
      · simp only [if_neg hfirst]
    · refine pairOps_plainEvent hne fun hpair => hnot ?_
      obtain ⟨rule, hmem, hgroups, hfirst, hsecond⟩ := hkeeps
      rcases hpair with ⟨rfl, rfl⟩ | ⟨rfl, rfl⟩
      · exact ⟨rule, hmem, hgroups, hfirst, hsecond⟩
      · exact ⟨rule, hmem, hgroups, hsecond, hfirst⟩

/-- Two operations that a rule of one configuration keeps in order, a rule of the other one does. -/
theorem SameVerdicts.keepsPair (h : SameVerdicts sha1 config config') {op op' : String}
    (hne : op ≠ op') (hop : op ∈ config.commutableOps) (hop' : op' ∈ config.commutableOps)
    (hkeeps : config.KeepsPair op op') : config'.KeepsPair op op' := by
  obtain ⟨rule, hmem, hgroups, hrule, hrule'⟩ := id hkeeps
  have hcanonical := normalizeOpName_of_mem hrule
  have hcanonical' := normalizeOpName_of_mem hrule'
  have hiff := h.tolerantlyEqual_iff [plainEvent "" op, plainEvent "" op']
    [plainEvent "" op', plainEvent "" op]
  simp only [Trace.tolerantlyEqual_iff, List.map_cons, List.map_nil,
    canonicalizeEvent_plainEvent _ hcanonical, canonicalizeEvent_plainEvent _ hcanonical'] at hiff
  rw [swap_plainEvent_iff hne hcanonical hcanonical' hop hop',
    swap_plainEvent_iff hne hcanonical hcanonical' (h.commutable hcanonical hop)
      (h.commutable hcanonical' hop')] at hiff
  exact not_not.1 fun hnot => hiff.2 hnot hkeeps

end Rules

/-! ## The fingerprint -/

section Fingerprint

variable {sha1 : String → String} {config config' : TraceCompareConfig}

/-- Actions that run in parallel are found in both configurations, or in none. -/
theorem SameVerdicts.scopes (h : SameVerdicts sha1 config config')
    (hvolatile : ∀ key, key ∈ config.volatileParamKeys ↔ key ∈ config'.volatileParamKeys)
    (haction : "action_id" ∉ config.volatileParamKeys) (actionId : String) :
    (parallelScope config.parallelActionScopes actionId).map List.toFinset =
      (parallelScope config'.parallelActionScopes actionId).map List.toFinset := by
  have haction' : "action_id" ∉ config'.volatileParamKeys := fun h => haction ((hvolatile _).2 h)
  have hright : ∀ {scope : List String} {other : String},
      parallelScope config'.parallelActionScopes actionId = some scope → other ∈ scope →
        ∃ scope', parallelScope config.parallelActionScopes actionId = some scope' ∧
          other ∈ scope' := fun hscope hother =>
    h.symm.scope (fun key => (hvolatile key).symm) haction' hscope hother
  cases hscope : parallelScope config.parallelActionScopes actionId with
  | none =>
    cases hscope' : parallelScope config'.parallelActionScopes actionId with
    | none => rfl
    | some scope' =>
      obtain ⟨scope, hsome, -⟩ := hright hscope' (parallelScope_eq_some hscope').2
      rw [hscope] at hsome
      cases hsome
  | some scope =>
    obtain ⟨scope', hscope', -⟩ := h.scope hvolatile haction hscope (parallelScope_eq_some hscope).2
    rw [hscope', Option.map_some, Option.map_some]
    congr 1
    ext other
    rw [List.mem_toFinset, List.mem_toFinset]
    constructor
    · intro hother
      obtain ⟨found, hfound, hmem⟩ := h.scope hvolatile haction hscope hother
      rw [hscope', Option.some_inj] at hfound
      rwa [hfound]
    · intro hother
      obtain ⟨found, hfound, hmem⟩ := hright hscope' hother
      rw [hscope, Option.some_inj] at hfound
      rwa [hfound]

/-- The verdicts on all traces show everything that the comparison reads. -/
theorem sameComparison_of_verdicts (hsha1 : ∀ text, sha1 text ≠ "")
    (h : SameVerdicts sha1 config config') : SameComparison config config' := by
  have hvolatile : ∀ key, key ∈ config.volatileParamKeys ↔ key ∈ config'.volatileParamKeys :=
    fun _ => ⟨h.volatile, h.symm.volatile⟩
  have hvolatile' := fun key => (hvolatile key).symm
  refine ⟨hvolatile, fun _ hcanonical => ⟨h.commutable hcanonical, h.symm.commutable hcanonical⟩,
    h.scopes hvolatile, fun op hop field hfield => ⟨h.keepsField hsha1 hvolatile hop hfield, ?_⟩,
    fun op hop op' hop' hne => ⟨h.keepsPair hne hop hop', ?_⟩⟩
  · intro hkeeps
    obtain ⟨rule, -, -, hrule, -⟩ := id hkeeps
    have hop' := h.commutable (normalizeOpName_of_mem hrule) hop
    exact h.symm.keepsField hsha1 hvolatile' hop' hfield hkeeps
  · intro hkeeps
    obtain ⟨rule, -, -, hrule, hrule'⟩ := id hkeeps
    exact h.symm.keepsPair hne (h.commutable (normalizeOpName_of_mem hrule) hop)
      (h.commutable (normalizeOpName_of_mem hrule') hop') hkeeps

/-- Two configurations give the same verdicts on all traces exactly when they differ in nothing the
comparison reads. -/
theorem sameVerdicts_iff (hsha1 : ∀ text, sha1 text ≠ "") :
    SameVerdicts sha1 config config' ↔ SameComparison config config' :=
  ⟨sameComparison_of_verdicts hsha1, verdicts_congr⟩

/-- Where the fingerprints are equal, the verdicts are the same exactly when what the comparison
reads is. -/
theorem fingerprint_determines_iff (hsha1 : ∀ text, sha1 text ≠ "")
    (config config' : TraceCompareConfig) :
    (compareMeta config = compareMeta config' →
        ∀ traceBase traceOpt, verdicts sha1 config traceBase traceOpt =
          verdicts sha1 config' traceBase traceOpt) ↔
      (compareMeta config = compareMeta config' → SameComparison config config') :=
  imp_congr_right fun _ => sameVerdicts_iff hsha1

/-- A configuration that keeps the parameters which change from run to run. -/
def keepsNonces : TraceCompareConfig := { volatileParamKeys := [] }

theorem fingerprint_determines_iff_nonces :
    (compareMeta {} = compareMeta keepsNonces →
        ∀ traceBase traceOpt, verdicts (fun _ => "da39a3ee") {} traceBase traceOpt =
          verdicts (fun _ => "da39a3ee") keepsNonces traceBase traceOpt) ↔
      (compareMeta {} = compareMeta keepsNonces → SameComparison {} keepsNonces) :=
  fingerprint_determines_iff (fun _ => by decide) {} keepsNonces

/-- The fingerprint does not tell which parameters are volatile. -/
theorem fingerprint_not_determines : compareMeta {} = compareMeta keepsNonces ∧
    verdicts (fun _ => "da39a3ee") {} [bareEvent [("nonce", .str "1")]]
      [bareEvent [("nonce", .str "2")]] = .ok (true, true) ∧
    verdicts (fun _ => "da39a3ee") keepsNonces [bareEvent [("nonce", .str "1")]]
      [bareEvent [("nonce", .str "2")]] = .ok (false, false) := by
  refine ⟨rfl, ?_, ?_⟩ <;> decide +kernel

end Fingerprint

end FloWeaver.Trace
