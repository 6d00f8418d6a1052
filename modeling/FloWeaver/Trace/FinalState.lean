import FloWeaver.Trace.Observation
import FloWeaver.Trace.Scan

/-!
# The final state of two tolerated traces

The comparison accepts traces with the same events in another order.  Whatever the contract reads
off the set of events is then the same for both.  The last value of an entity depends on the
order, so it needs more: writes that all carry one value, or that no window can hold.

* `tolerated_counts` — the keys are the same up to their order.
* `last_value_kept` — the last value of an entity that is undisturbed.
* `contract_kept` — counts, final state and verdict, together.
-/

namespace FloWeaver.Trace

open Py

variable {config : TraceCompareConfig} {base opt : List Event}

/-! ## Values of hashable parameters -/

/-- A dict with one row for each key, and hashable values. -/
structure PlainDict (d : Dict) : Prop where
  nodup : (d.map (·.1)).Nodup
  hashable : ∀ row ∈ d, hashable row.2 = true

theorem mem_of_get? {d : Dict} {key : String} {v : Val} (h : d.get? key = some v) :
    (key, v) ∈ d := by
  obtain ⟨row, hrow, rfl⟩ := Option.map_eq_some_iff.1 h
  obtain rfl : row.1 = key := by simpa using List.find?_some hrow
  exact List.mem_of_find?_eq_some hrow

theorem PlainDict.get?_eq_some {d : Dict} (hd : PlainDict d) {row : String × Val} (h : row ∈ d) :
    d.get? row.1 = some row.2 := by
  have hsome : (d.find? fun r => decide (r.1 = row.1)).isSome := by
    rw [List.find?_isSome]
    exact ⟨row, h, by simp⟩
  obtain ⟨found, hfound⟩ := Option.isSome_iff_exists.1 hsome
  have hkey : found.1 = row.1 := by simpa using List.find?_some hfound
  have hsame := List.inj_on_of_nodup_map hd.nodup (List.mem_of_find?_eq_some hfound) h hkey
  rw [Dict.get?, hfound, hsame]
  rfl

/-- The rows of a dict as normal forms. -/
def rowForms (d : Dict) : List (String × Scalar) := d.map fun row => (row.1, scalar row.2)

theorem PlainDict.nodup_rowForms {d : Dict} (hd : PlainDict d) : (rowForms d).Nodup := by
  refine List.Nodup.of_map Prod.fst ?_
  rw [rowForms, List.map_map]
  exact hd.nodup

theorem eqvRows_iff {xs : Dict} {ys : List (String × Val)} :
    eqvRows xs ys = true ↔ ∀ row ∈ xs, eqvRow row ys = true := by
  induction xs with
  | nil => simp [eqvRows]
  | cons x xs ih => simp [eqvRows, ih]

/-- A hashable value is only equal to values with its normal form. -/
theorem eqv_iff_scalar {v w : Val} (hv : hashable v = true) :
    v.eqv w = true ↔ hashable w = true ∧ scalar v = scalar w := by
  by_cases hw : hashable w = true
  · rw [eqv_eq_scalar hv hw, decide_eq_true_iff]
    exact ⟨fun h => ⟨hw, h⟩, fun h => h.2⟩
  · refine ⟨fun h => ?_, fun h => absurd h.1 hw⟩
    cases v <;> cases w <;> simp_all [hashable, Val.eqv, Val.isNumber]

/-- A plain dict equals a dict that has its rows, and no more. -/
theorem eqv_dict_iff {xs ys : Dict} (hx : PlainDict xs) :
    (Val.dict xs).eqv (.dict ys) = true ↔ xs.length = ys.length ∧
      ∀ form ∈ rowForms xs, ∃ w, Dict.get? ys form.1 = some w ∧ hashable w = true ∧
        form.2 = scalar w := by
  rw [Val.eqv, Bool.and_eq_true, decide_eq_true_iff, eqvRows_iff, rowForms, List.forall_mem_map]
  refine and_congr_right fun _ => forall₂_congr fun row hrow => ?_
  obtain ⟨key, v⟩ := row
  rw [eqvRow]
  cases hget : Dict.get? ys key with
  | none => simp
  | some w => simp [eqv_iff_scalar (hx.hashable _ hrow)]

/-- Two plain dicts are equal when their rows are. -/
theorem eqv_dict_iff_perm {xs ys : Dict} (hx : PlainDict xs) (hy : PlainDict ys) :
    (Val.dict xs).eqv (.dict ys) = true ↔ (rowForms xs).Perm (rowForms ys) := by
  rw [eqv_dict_iff hx]
  constructor
  · rintro ⟨hlength, hrows⟩
    have hsub : rowForms xs ⊆ rowForms ys := by
      intro form hform
      obtain ⟨w, hget, -, hscalar⟩ := hrows form hform
      exact List.mem_map.2 ⟨(form.1, w), mem_of_get? hget, Prod.ext rfl hscalar.symm⟩
    refine (List.subperm_of_subset hx.nodup_rowForms hsub).perm_of_length_le ?_
    rw [rowForms, rowForms, List.length_map, List.length_map, hlength]
  · intro hperm
    refine ⟨by simpa [rowForms] using hperm.length_eq, fun form hform => ?_⟩
    obtain ⟨row, hrow, rfl⟩ := List.mem_map.1 (hperm.mem_iff.1 hform)
    exact ⟨row.2, hy.get?_eq_some hrow, hy.hashable row hrow, rfl⟩

/-- A value that an event with hashable parameters can write. -/
def Plain : Val → Prop
  | .dict d => PlainDict d
  | v => hashable v = true

/-- Equal plain values are equal to the same values. -/
theorem eqv_congr {v w x : Val} (hv : Plain v) (hw : Plain w) (h : v.eqv w = true) :
    v.eqv x = w.eqv x := by
  by_cases hhash : hashable v = true
  · obtain ⟨hhash', hscalar⟩ := (eqv_iff_scalar hhash).1 h
    rw [Bool.eq_iff_iff, eqv_iff_scalar hhash, eqv_iff_scalar hhash', hscalar]
  · cases v with
    | dict d =>
      cases w with
      | dict e =>
        have hperm := (eqv_dict_iff_perm hv hw).1 h
        cases x with
        | dict f =>
          rw [Bool.eq_iff_iff, eqv_dict_iff hv, eqv_dict_iff hw]
          have hlength : d.length = e.length := by simpa [rowForms] using hperm.length_eq
          rw [hlength]
          refine and_congr_right fun _ => ?_
          exact ⟨fun hall form hform => hall form (hperm.mem_iff.2 hform),
            fun hall form hform => hall form (hperm.mem_iff.1 hform)⟩
        | _ => simp [Val.eqv, Val.isNumber]
      | _ => simp [Val.eqv, Val.isNumber] at h
    | list _ => exact absurd hv hhash
    | _ => exact absurd rfl hhash

/-! ## Writes -/

/-- An event with one parameter for each name, all hashable. -/
def Event.Plain (event : Event) : Prop := PlainDict event.paramsAbst

theorem Event.Plain.hashable {event : Event} (h : event.Plain) : event.Hashable := h.2

theorem plain_writtenValue {event : Event} (h : event.Plain) : Plain (writtenValue event) := by
  rw [writtenValue]
  cases hfound : stateKeys.findSome? event.paramsAbst.get? with
  | none => exact h
  | some v =>
    obtain ⟨key, -, hkey⟩ := List.exists_of_findSome?_eq_some hfound
    have hhash := h.hashable _ (mem_of_get? hkey)
    cases v with
    | dict d => cases hhash
    | list items => cases hhash
    | _ => rfl

/-- What two events have under the first key that is there. -/
theorem sameValue_findSome? {b o : Event}
    (h : ∀ key, sameValue (b.paramsAbst.get? key) (o.paramsAbst.get? key) = true)
    (keys : List String) :
    sameValue (keys.findSome? b.paramsAbst.get?) (keys.findSome? o.paramsAbst.get?) = true := by
  induction keys with
  | nil => rfl
  | cons key keys ih =>
    have hkey := h key
    rw [List.findSome?_cons, List.findSome?_cons]
    cases hb : b.paramsAbst.get? key with
    | none =>
      cases ho : o.paramsAbst.get? key with
      | none => exact ih
      | some w => rw [hb, ho] at hkey; cases hkey
    | some v =>
      cases ho : o.paramsAbst.get? key with
      | none => rw [hb, ho] at hkey; cases hkey
      | some w => rw [hb, ho] at hkey; exact hkey

/-- Events with equal keys write equal values. -/
theorem writtenValue_eqv {b o : Event} (hb : b.Plain) (ho : o.Plain)
    (hkey : (eventKey b).eqv (eventKey o) = true) :
    (writtenValue b).eqv (writtenValue o) = true := by
  have hfound := sameValue_findSome? (sameValue_of_eventKey hkey) stateKeys
  rw [writtenValue, writtenValue]
  cases hfb : stateKeys.findSome? b.paramsAbst.get? with
  | some v =>
    cases hfo : stateKeys.findSome? o.paramsAbst.get? with
    | some w => rw [hfb, hfo] at hfound; exact hfound
    | none => rw [hfb, hfo] at hfound; cases hfound
  | none =>
    cases hfo : stateKeys.findSome? o.paramsAbst.get? with
    | some w => rw [hfb, hfo] at hfound; cases hfound
    | none =>
      -- neither event names a state, so each writes all of its parameters
      have hforms : rowForms (sortedBy (·.1) b.paramsAbst) =
          rowForms (sortedBy (·.1) o.paramsAbst) :=
        congrArg KeyForm.params ((eventKey_eqv_iff hb.hashable ho.hashable).1 hkey)
      refine (eqv_dict_iff_perm hb ho).2 ?_
      have hb' : (rowForms (sortedBy (·.1) b.paramsAbst)).Perm (rowForms b.paramsAbst) :=
        List.Perm.map _ (sortedBy_perm (fun row : String × Val => row.1) b.paramsAbst)
      have ho' : (rowForms (sortedBy (·.1) o.paramsAbst)).Perm (rowForms o.paramsAbst) :=
        List.Perm.map _ (sortedBy_perm (fun row : String × Val => row.1) o.paramsAbst)
      rw [hforms] at hb'
      exact hb'.symm.trans ho'

/-- The event writes the state of an entity. -/
def writesTo (entityId : String) (event : Event) : Bool :=
  decide (event.op = "STATE_WRITE") && decide (event.target = entityId)

/-- The value of an entity is that of its last write. -/
theorem get?_extractLastStateValues (events : List Event) (entityId : String) :
    (extractLastStateValues events).get? entityId =
      (events.filter (writesTo entityId)).getLast?.map writtenValue := by
  induction events using List.reverseRecOn with
  | nil => rfl
  | append_singleton events event ih =>
    rw [extractLastStateValues, List.foldl_append, List.foldl_cons, List.foldl_nil,
      ← extractLastStateValues, List.filter_append]
    by_cases hop : event.op = "STATE_WRITE"
    · rw [if_neg (not_not.2 hop), OrderedDict.get?_set]
      by_cases htarget : event.target = entityId
      · have hwrites : writesTo entityId event = true := by simp [writesTo, hop, htarget]
        rw [if_pos htarget.symm, List.filter_cons_of_pos hwrites, List.filter_nil,
          List.getLast?_append]
        rfl
      · have hwrites : ¬ writesTo entityId event = true := by simp [writesTo, htarget]
        rw [if_neg (Ne.symm htarget), ih, List.filter_cons_of_neg hwrites, List.filter_nil,
          List.append_nil]
    · have hwrites : ¬ writesTo entityId event = true := by simp [writesTo, hop]
      rw [if_pos hop, ih, List.filter_cons_of_neg hwrites, List.filter_nil, List.append_nil]

/-! ## Undisturbed entities -/

/-- The writes of the two traces to an entity all carry one value. -/
def OneValue (entityId : String) (base opt : List Event) : Prop :=
  ∀ b ∈ base, ∀ o ∈ opt, writesTo entityId b = true → writesTo entityId o = true →
    (writtenValue b).eqv (writtenValue o) = true

/-- No window can hold a write to the entity. -/
def OutsideWindows (config : TraceCompareConfig) (entityId : String) (base opt : List Event) :
    Prop :=
  ∀ event ∈ base ++ opt, writesTo entityId event = true → config.commutes event = false ∧
    parallelScope config.parallelActionScopes (eventActionId event) = none

/-- No reordering that the comparison tolerates can change the last value of the entity. -/
def Undisturbed (config : TraceCompareConfig) (entityId : String) (base opt : List Event) : Prop :=
  OneValue entityId base opt ∨ OutsideWindows config entityId base opt

/-- Two sequences with equal keys end in equal writes. -/
theorem sameValue_getLast? (hb : ∀ event ∈ base, event.Plain) (ho : ∀ event ∈ opt, event.Plain)
    (h : strictEqual base opt = true) :
    sameValue (base.getLast?.map writtenValue) (opt.getLast?.map writtenValue) = true := by
  induction base generalizing opt with
  | nil =>
    cases opt with
    | nil => rfl
    | cons o opt => simp [strictEqual, eqvItems] at h
  | cons b base ih =>
    cases opt with
    | nil => simp [strictEqual, eqvItems] at h
    | cons o opt =>
      obtain ⟨hkey, hrest⟩ := strictEqual_cons.1 h
      have hlast := ih (fun event he => hb event (List.mem_cons_of_mem b he))
        (fun event he => ho event (List.mem_cons_of_mem o he)) hrest
      cases base with
      | nil =>
        cases opt with
        | nil => exact writtenValue_eqv (hb b (by simp)) (ho o (by simp)) hkey
        | cons o' opt => simp [strictEqual, eqvItems] at hrest
      | cons b' base =>
        cases opt with
        | nil => simp [strictEqual, eqvItems] at hrest
        | cons o' opt =>
          rw [List.getLast?_cons_cons, List.getLast?_cons_cons]
          exact hlast

/-- The last value of an undisturbed entity is kept. -/
theorem last_value_kept (hb : ∀ event ∈ base, event.Plain) (ho : ∀ event ∈ opt, event.Plain)
    (h : Accepted config base opt) {entityId : String}
    (hentity : Undisturbed config entityId base opt) :
    sameValue ((extractLastStateValues base).get? entityId)
      ((extractLastStateValues opt).get? entityId) = true := by
  rw [get?_extractLastStateValues, get?_extractLastStateValues]
  have hkeys : ∀ b ∈ base, ∀ o ∈ opt, (eventKey b).eqv (eventKey o) = true →
      writesTo entityId b = writesTo entityId o := by
    intro b _ o _ hkey
    obtain ⟨-, hop, htarget, -⟩ := eventKey_parts hkey
    rw [writesTo, writesTo, hop, htarget]
  rcases hentity with hone | houtside
  · -- the two traces have writes to the entity or neither has
    have hperm := perm_filter (h.perm (fun b hb' => (hb b hb').hashable)
      fun o ho' => (ho o ho').hashable) fun b hb' o ho' hform => hkeys b hb' o ho'
        ((eventKey_eqv_iff (hb b hb').hashable (ho o ho').hashable).2 hform)
    cases hlb : (base.filter (writesTo entityId)).getLast? with
    | none =>
      have hnil := List.getLast?_eq_none_iff.1 hlb
      rw [hnil, List.map_nil, List.nil_perm, List.map_eq_nil_iff] at hperm
      rw [hperm]
      rfl
    | some b =>
      have hmem := List.mem_filter.1 (List.mem_of_getLast? hlb)
      cases hlo : (opt.filter (writesTo entityId)).getLast? with
      | none =>
        have hnil := List.getLast?_eq_none_iff.1 hlo
        rw [hnil, List.map_nil, List.perm_nil, List.map_eq_nil_iff] at hperm
        rw [hperm] at hlb
        cases hlb
      | some o =>
        have hmem' := List.mem_filter.1 (List.mem_of_getLast? hlo)
        exact hone b hmem.1 o hmem'.1 hmem.2 hmem'.2
  · refine sameValue_getLast? (fun event he => hb event (List.mem_filter.1 he).1)
      (fun event he => ho event (List.mem_filter.1 he).1)
      (h.filter_keys hkeys fun event he hwrites => ?_)
    obtain ⟨hcommutes, hscope⟩ := houtside event he hwrites
    refine ⟨hcommutes, fun scope hmem => ?_⟩
    rw [Bool.eq_false_iff]
    intro hin
    have hsome := parallelScope_isSome hmem (List.contains_iff_mem.1 hin)
    rw [hscope] at hsome
    cases hsome

/-! ## Canonical events -/

/-- Canonical parameters have one row for each key. -/
theorem nodup_canonicalizeParams (sha1 : String → String) (volatile : List String)
    (params : Dict) : ((canonicalizeParams sha1 volatile params).map (·.1)).Nodup := by
  have hstep : ∀ (result : Dict) (row : String × Val), (result.map (·.1)).Nodup →
      ((canonicalizeParam sha1 volatile result row).map (·.1)).Nodup := by
    intro result row hresult
    simp only [canonicalizeParam]
    split_ifs
    · exact hresult
    all_goals exact Dict.nodup_keys_set _ _ hresult
  have hrun : ∀ (params result : Dict), (result.map (·.1)).Nodup →
      ((params.foldl (canonicalizeParam sha1 volatile) result).map (·.1)).Nodup := by
    intro params
    induction params with
    | nil => exact fun _ h => h
    | cons row params ih => exact fun result h => ih _ (hstep result row h)
  exact hrun params [] List.nodup_nil

theorem plain_canonicalizeEvent {sha1 : String → String} {volatile : List String} {event : Event}
    (h : (canonicalizeEvent sha1 volatile event).Hashable) :
    (canonicalizeEvent sha1 volatile event).Plain :=
  ⟨nodup_canonicalizeParams sha1 volatile event.paramsAbst, h⟩

/-- A configuration that is read from a schema leaves the usual parameters out. -/
theorem volatileParamKeys_traceCompareConfig (schema : ObservationSchema) :
    schema.traceCompareConfig.volatileParamKeys = volatileParamKeys := by
  have hentries : ∀ (entries : List Val) (config : TraceCompareConfig),
      (entries.foldl addWhitelistEntry config).volatileParamKeys = config.volatileParamKeys := by
    intro entries
    induction entries with
    | nil => exact fun _ => rfl
    | cons entry entries ih =>
      intro config
      rw [List.foldl_cons, ih]
      cases entry <;> rfl
  exact hentries _ _

/-! ## The contract on two accepted traces -/

/-- The operations and targets of two traces with the same normal forms. -/
theorem perm_opTarget (h : (base.map keyForm).Perm (opt.map keyForm)) :
    (base.map fun event => (event.op, event.target)).Perm
      (opt.map fun event => (event.op, event.target)) := by
  have hmap := h.map fun form => (form.op, form.target)
  rwa [List.map_map, List.map_map] at hmap

theorem any_opTarget (h : (base.map keyForm).Perm (opt.map keyForm)) (p : String × String → Bool) :
    (base.any fun event => p (event.op, event.target)) =
      opt.any fun event => p (event.op, event.target) := by
  have hany := (perm_opTarget h).any_eq (f := p)
  rwa [List.any_map, List.any_map] at hany

theorem opCount_eq (h : (base.map keyForm).Perm (opt.map keyForm)) : opCount base = opCount opt := by
  funext op
  have hcount := (perm_opTarget h).countP_eq fun pair => decide (pair.1 = op)
  rwa [List.countP_map, List.countP_map] at hcount

theorem failedRules_eq (h : (base.map keyForm).Perm (opt.map keyForm)) (ops : List String) :
    failedRules base ops = failedRules opt ops := by
  rw [failedRules, failedRules]
  refine List.filter_congr fun op _ => congrArg (!·) ?_
  exact any_opTarget h fun pair => decide (normalizeOpName pair.1 = op)

theorem missingWrites_eq (h : (base.map keyForm).Perm (opt.map keyForm))
    (schema : ObservationSchema) : missingWrites schema base = missingWrites schema opt := by
  rw [missingWrites, missingWrites]
  refine List.filter_congr fun entityId _ => congrArg (!·) ?_
  exact any_opTarget h fun pair => decide (pair.1 = "STATE_WRITE") && decide (pair.2 = entityId)

theorem plain_last_value {events : List Event} (h : ∀ event ∈ events, event.Plain)
    {entityId : String} {v : Val} (hv : (extractLastStateValues events).get? entityId = some v) :
    Plain v := by
  rw [get?_extractLastStateValues] at hv
  obtain ⟨event, hlast, rfl⟩ := Option.map_eq_some_iff.1 hv
  exact plain_writtenValue (h event (List.mem_filter.1 (List.mem_of_getLast? hlast)).1)

/-- With the required entities undisturbed, the one trace meets the final state if the other
does. -/
theorem finalStateMismatches_isEmpty (hb : ∀ event ∈ base, event.Plain)
    (ho : ∀ event ∈ opt, event.Plain) (h : Accepted config base opt) {schema : ObservationSchema}
    (hrequired : ∀ row ∈ schema.requiredFinalState, Undisturbed config row.1 base opt) :
    (finalStateMismatches schema base).isEmpty = (finalStateMismatches schema opt).isEmpty := by
  rw [Bool.eq_iff_iff, List.isEmpty_iff, List.isEmpty_iff, finalStateMismatches,
    finalStateMismatches, List.filterMap_eq_nil_iff, List.filterMap_eq_nil_iff]
  refine forall₂_congr fun row hrow => ?_
  have hlast := last_value_kept hb ho h (hrequired row hrow)
  cases hlb : (extractLastStateValues base).get? row.1 with
  | none =>
    cases hlo : (extractLastStateValues opt).get? row.1 with
    | none => rfl
    | some w => rw [hlb, hlo] at hlast; cases hlast
  | some v =>
    cases hlo : (extractLastStateValues opt).get? row.1 with
    | none => rw [hlb, hlo] at hlast; cases hlast
    | some w =>
      rw [hlb, hlo] at hlast
      have heqv := eqv_congr (x := normalizeExpectedState row.2) (plain_last_value hb hlb)
        (plain_last_value ho hlo) hlast
      simp only [heqv]
      split_ifs <;> simp

/-- The verdict of the contract, from the parts of the check. -/
theorem passed_assertContract (sha1 : String → String) (schema : ObservationSchema)
    (trace : List Event) (baseline : Option (List Event)) :
    let canonical := trace.map (canonicalizeEvent sha1 volatileParamKeys)
    (assertContract sha1 schema trace baseline).map (·.passed) =
      (schema.opCountBounds.mapM (opCountViolations (opCount canonical))).map fun violations =>
        (failedRules canonical schema.semanticOps).isEmpty &&
          (missingWrites schema canonical).isEmpty &&
          (finalStateMismatches schema canonical).isEmpty && violations.flatten.isEmpty &&
          (match baseline with
            | some baseline => schema.opCountFactorUpper.filterMap (opCountFactorViolation
                (opCount (baseline.map (canonicalizeEvent sha1 volatileParamKeys)))
                (opCount canonical))
            | none => []).isEmpty := by
  intro canonical
  unfold assertContract
  rw [volatileParamKeys_traceCompareConfig]
  show Except.map _ (schema.opCountBounds.mapM (opCountViolations (opCount canonical)) >>= _) = _
  cases schema.opCountBounds.mapM (opCountViolations (opCount canonical)) <;> rfl

/-- Two traces that the comparison accepts have the same events.  The last value of an undisturbed
entity is the same in both, and when all the required entities are undisturbed, so is the verdict
of the contract. -/
theorem contract_kept {sha1 : String → String} {traceBase traceOpt : List Event}
    {config : TraceCompareConfig} {diff : DiffResult}
    (hcompare : compareTraces sha1 traceBase traceOpt config = .ok diff)
    (hequal : diff.tolerantEqual = true)
    (hhash : ∀ event ∈ traceBase ++ traceOpt,
      (canonicalizeEvent sha1 config.volatileParamKeys event).Hashable) :
    let base := traceBase.map (canonicalizeEvent sha1 config.volatileParamKeys)
    let opt := traceOpt.map (canonicalizeEvent sha1 config.volatileParamKeys)
    sameCounts (base.map eventKey) (opt.map eventKey) = true ∧
      (∀ entityId, Undisturbed config entityId base opt →
        sameValue ((extractLastStateValues base).get? entityId)
          ((extractLastStateValues opt).get? entityId) = true) ∧
      (config.volatileParamKeys = volatileParamKeys →
        ∀ (schema : ObservationSchema) (baseline : Option (List Event)),
          (∀ row ∈ schema.requiredFinalState, Undisturbed config row.1 base opt) →
          (assertContract sha1 schema traceOpt baseline).map (·.passed) =
            (assertContract sha1 schema traceBase baseline).map (·.passed)) := by
  intro base opt
  have hb : ∀ event ∈ base, event.Plain := by
    intro event hevent
    obtain ⟨raw, hraw, rfl⟩ := List.mem_map.1 hevent
    exact plain_canonicalizeEvent (hhash raw (List.mem_append_left _ hraw))
  have ho : ∀ event ∈ opt, event.Plain := by
    intro event hevent
    obtain ⟨raw, hraw, rfl⟩ := List.mem_map.1 hevent
    exact plain_canonicalizeEvent (hhash raw (List.mem_append_right _ hraw))
  have haccepted : Accepted config base opt := by
    rw [compareTraces] at hcompare
    split_ifs at hcompare with hstrict
    · exact accepted_of_strictEqual hstrict
    · obtain ⟨tolerant, htolerant, hdiff⟩ := bind_eq_ok.1 hcompare
      obtain rfl := pure_eq_ok.1 hdiff
      obtain rfl : tolerant = true := hequal
      exact accepted_of_tolerantEqual htolerant
  have hperm := haccepted.perm (fun event h => (hb event h).hashable)
    fun event h => (ho event h).hashable
  refine ⟨?_, fun entityId hentity => last_value_kept hb ho haccepted hentity, ?_⟩
  · exact (sameCounts_iff (fun event h => (hb event h).hashable)
      fun event h => (ho event h).hashable).2 hperm
  · intro hvolatile schema baseline hrequired
    have hmismatch := finalStateMismatches_isEmpty hb ho haccepted hrequired
    rw [passed_assertContract, passed_assertContract, ← hvolatile]
    show _ = _
    rw [← failedRules_eq hperm, ← missingWrites_eq hperm, ← opCount_eq hperm, hmismatch]

/-- A write of a state to the lamp. -/
def lampWrite (state : String) : Event where
  provider := "HA"
  op := "STATE_WRITE"
  target := "light.lamp"
  paramsAbst := [("state", .str state)]

def lampRefresh : Event where
  provider := "HA"
  op := "COORD_REFRESH"
  target := "coordinator"

/-- The lamp must be off in the end. -/
def lampOff : ObservationSchema where
  semanticOps := ["STATE_WRITE"]
  requiredFinalState := [("light.lamp", .dict [("state", .str "off")])]

/-- A write that changes places with a refresh. -/
theorem contract_kept_lamp :
    sameValue
        ((extractLastStateValues ([lampWrite "off", lampRefresh].map
          (canonicalizeEvent id volatileParamKeys))).get? "light.lamp")
        ((extractLastStateValues ([lampRefresh, lampWrite "off"].map
          (canonicalizeEvent id volatileParamKeys))).get? "light.lamp") = true ∧
      (assertContract id lampOff [lampRefresh, lampWrite "off"] none).map (·.passed) =
        (assertContract id lampOff [lampWrite "off", lampRefresh] none).map (·.passed) := by
  have hentity : Undisturbed {} "light.lamp"
      ([lampWrite "off", lampRefresh].map (canonicalizeEvent id volatileParamKeys))
      ([lampRefresh, lampWrite "off"].map (canonicalizeEvent id volatileParamKeys)) :=
    Or.inl (by unfold OneValue; decide +kernel)
  obtain ⟨-, hlast, hverdict⟩ := @contract_kept id [lampWrite "off", lampRefresh]
    [lampRefresh, lampWrite "off"] {} ⟨false, true, []⟩ (by decide +kernel) rfl
    (by unfold Event.Hashable; decide +kernel)
  refine ⟨hlast "light.lamp" hentity, hverdict rfl lampOff none ?_⟩
  rintro row hrow
  obtain rfl := List.mem_singleton.1 hrow
  exact hentity

/-- Two writes of different states change places, and the lamp stays on.  A configuration that
leaves the state out takes any state for any other. -/
theorem final_state_lost :
    (compareTraces id [lampWrite "on", lampWrite "off"] [lampWrite "off", lampWrite "on"] {}).map
        (·.tolerantEqual) = .ok true ∧
      (assertContract id lampOff [lampWrite "on", lampWrite "off"] none).map (·.passed) =
        .ok true ∧
      (assertContract id lampOff [lampWrite "off", lampWrite "on"] none).map (·.passed) =
        .ok false ∧
      (compareTraces id [lampWrite "off"] [lampWrite "on"]
        { volatileParamKeys := ["state"] }).map (·.tolerantEqual) = .ok true ∧
      (assertContract id lampOff [lampWrite "off"] none).map (·.passed) = .ok true ∧
      (assertContract id lampOff [lampWrite "on"] none).map (·.passed) = .ok false := by
  decide +kernel

end FloWeaver.Trace
