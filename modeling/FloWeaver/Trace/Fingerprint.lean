import FloWeaver.Trace.Equivalence
import Mathlib.Data.List.Lex

/-!
# The fingerprint of a comparison

A certificate records a hash of the comparison that was made.  What is hashed is a normal form of
the configuration, and the comparison reads the configuration itself.

* `compareMeta` — what is hashed.
* `fieldOf`, `eventGroupValue_eq` — what a rule with a group key reads of a canonical event.
* `groupedCommutationOk_iff_keeps` — the rules, one operation and two operations at a time.
* `SameComparison` — the configurations differ in nothing that the comparison reads.
* `verdicts_congr` — then they give the same verdicts.
-/

namespace FloWeaver.Trace

open Py

/-! ## What is hashed -/

structure PayloadRule where
  policy : String
  ops : List String
  groupKey : String
  scope : List String
deriving DecidableEq

structure ComparePayload where
  canonicalizationVersion : String
  commutableOps : List String
  equivalenceRules : List PayloadRule
  parallelActionScopes : List (List String)
deriving DecidableEq

/-- `sorted({str(item).strip() for item in scope if str(item).strip()})`. -/
def normalizedScope (scope : List String) : List String :=
  sortedSet ((scope.map strip).filter (· ≠ ""))

def payloadRule (rule : EquivalenceRule) : PayloadRule where
  policy := if lower (strip rule.policy) = "" then "commute" else lower (strip rule.policy)
  ops := sortedSet (normalizedOps rule.ops)
  groupKey := strip rule.groupKey
  scope := normalizedScope rule.scope

def PayloadRule.sortKey (rule : PayloadRule) : List String :=
  [rule.policy, join "," rule.ops, rule.groupKey, join "," rule.scope]

/-- `_compare_meta`, less the hash of it. -/
def compareMeta (config : TraceCompareConfig) : ComparePayload where
  canonicalizationVersion := config.canonicalizationVersion
  commutableOps := sortedSet (normalizedOps config.commutableOps)
  equivalenceRules := sortedBy PayloadRule.sortKey (config.equivalenceRules.map payloadRule)
  parallelActionScopes := sortedBy (join ",") (config.parallelActionScopes.map normalizedScope)

/-- The verdicts on two traces. -/
def verdicts (sha1 : String → String) (config : TraceCompareConfig)
    (traceBase traceOpt : List Event) : Except PyErr (Bool × Bool) :=
  (compareTraces sha1 traceBase traceOpt config).map fun result =>
    (result.strictEqual, result.tolerantEqual)

/-! ## What a rule reads -/

def bodyKeys : List String := ["payload", "body", "json"]

def fallbackKeys : List String := ["endpoint", "entity_id", "device_id", "characteristic", "host"]

/-- A canonical event may have a parameter of this name. -/
def MayOccur (volatile : List String) (key : String) : Prop :=
  (key ∉ volatile ∧ key ∉ bodyKeys) ∨ ∃ body ∈ bodyKeys, body ∉ volatile ∧ key = body ++ "_hash"

instance (volatile : List String) (key : String) : Decidable (MayOccur volatile key) :=
  inferInstanceAs (Decidable (_ ∨ _))

/-- What a group key reads of an event: the target, a parameter, a parameter with the target in its
place, or nothing. -/
inductive GroupField where
  | target
  | param (key : String)
  | paramOrTarget (key : String)
  | nothing
deriving DecidableEq

def GroupField.value (event : Event) : GroupField → String
  | .target => event.target
  | .param key => ((event.paramsAbst.get? key).map Val.pyStr).getD ""
  | .paramOrTarget key => ((event.paramsAbst.get? key).map Val.pyStr).getD event.target
  | .nothing => ""

/-- What a key reads of canonical events. -/
def fieldOf (volatile : List String) (key : String) : GroupField :=
  if key = "target" then .target
  else if MayOccur volatile key then
    if key ∈ fallbackKeys then .paramOrTarget key else .param key
  else if key ∈ fallbackKeys then .target
  else .nothing

def EquivalenceRule.field (volatile : List String) (rule : EquivalenceRule) : GroupField :=
  fieldOf volatile (lower (strip rule.groupKey))

/-- What canonicalisation makes of an event. -/
structure Canonical (volatile : List String) (event : Event) : Prop where
  op : normalizeOpName event.op = event.op
  params : ∀ key ∈ event.paramsAbst.map (·.1), MayOccur volatile key

section Canonical

variable {sha1 : String → String} {volatile : List String} {event : Event}

theorem mayOccur_canonicalizeParam {result : Dict} (row : String × Val)
    (h : ∀ key ∈ result.map (·.1), MayOccur volatile key) :
    ∀ key ∈ (canonicalizeParam sha1 volatile result row).map (·.1), MayOccur volatile key := by
  obtain ⟨key, value⟩ := row
  have hset : ∀ (name : String) (v : Val), MayOccur volatile name →
      ∀ key ∈ (result.set name v).map (·.1), MayOccur volatile key := by
    intro name v hname key hkey
    rcases Dict.mem_keys_set.1 hkey with hkey | rfl
    · exact h key hkey
    · exact hname
  have hoccurs : ¬ volatile.contains key = true → ¬ bodyKeys.contains key = true →
      MayOccur volatile key := fun hvolatile hbody =>
    Or.inl ⟨fun h => hvolatile (List.contains_iff_mem.2 h),
      fun h => hbody (List.contains_iff_mem.2 h)⟩
  simp only [canonicalizeParam]
  split_ifs with hvolatile hbody hendpoint haddress
  · exact h
  · refine hset _ _ (Or.inr ⟨key, List.contains_iff_mem.1 hbody, fun h => ?_, rfl⟩)
    exact hvolatile (List.contains_iff_mem.2 h)
  · exact hset _ _ (hoccurs hvolatile hbody)
  · exact hset _ _ (hoccurs hvolatile hbody)
  · exact hset _ _ (hoccurs hvolatile hbody)

theorem mayOccur_canonicalizeParams (params : Dict) :
    ∀ key ∈ (canonicalizeParams sha1 volatile params).map (·.1), MayOccur volatile key := by
  have hfold : ∀ (rows result : Dict), (∀ key ∈ result.map (·.1), MayOccur volatile key) →
      ∀ key ∈ (rows.foldl (canonicalizeParam sha1 volatile) result).map (·.1),
        MayOccur volatile key := by
    intro rows
    induction rows with
    | nil => exact fun _ h => h
    | cons row rows ih => exact fun result h => ih _ (mayOccur_canonicalizeParam row h)
  exact hfold params [] fun key hkey => absurd hkey List.not_mem_nil

theorem canonical_canonicalizeEvent :
    Canonical volatile (canonicalizeEvent sha1 volatile event) := by
  constructor
  · simp only [canonicalizeEvent, normalizeOpName_idem]
  · exact mayOccur_canonicalizeParams event.paramsAbst

/-- A parameter that cannot occur is not there. -/
theorem Canonical.get?_eq_none (h : Canonical volatile event) {key : String}
    (hkey : ¬ MayOccur volatile key) : event.paramsAbst.get? key = none := by
  rw [Dict.get?, Option.map_eq_none_iff, List.find?_eq_none]
  intro row hrow heq
  exact hkey (of_decide_eq_true heq ▸ h.params row.1 (List.mem_map_of_mem hrow))

theorem lower_eq_empty_iff {s : String} : lower s = "" ↔ s = "" := by
  rw [← String.toList_inj, ← String.toList_inj, lower, String.toList_ofList, lowerL]
  exact List.map_eq_nil_iff

theorem groups_key_ne_empty {rule : EquivalenceRule} (hgroups : rule.groups = true) :
    lower (strip rule.groupKey) ≠ "" := by
  simp only [EquivalenceRule.groups, Bool.and_eq_true, decide_eq_true_eq] at hgroups
  exact fun h => hgroups.1.2 (lower_eq_empty_iff.1 h)

theorem eventGroupValue_of_key {groupKey key : String} (hkey : lower (strip groupKey) = key)
    (hne : key ≠ "") : eventGroupValue event groupKey =
      if key = "target" then event.target
      else ((event.paramsAbst.get? key).map Val.pyStr).getD
        (if key ∈ fallbackKeys then event.target else "") := by
  rw [eventGroupValue, hkey]
  clear hkey
  by_cases htarget : key = "target"
  · rw [if_neg hne, if_pos htarget, if_pos htarget]
  rw [if_neg hne, if_neg htarget, if_neg htarget]
  cases event.paramsAbst.get? key with
  | none =>
    by_cases hfallback : key ∈ fallbackKeys
    · rw [if_pos hfallback]
      exact if_pos (List.contains_iff_mem.2 hfallback)
    · rw [if_neg hfallback]
      exact if_neg fun h => hfallback (List.contains_iff_mem.1 h)
  | some value => rfl

/-- A group key reads the field of a canonical event. -/
theorem eventGroupValue_eq (h : Canonical volatile event) {rule : EquivalenceRule}
    (hgroups : rule.groups = true) :
    eventGroupValue event (strip rule.groupKey) = (rule.field volatile).value event := by
  have hkey := groups_key_ne_empty hgroups
  rw [EquivalenceRule.field, eventGroupValue_of_key (by rw [strip_strip]) hkey, fieldOf]
  generalize lower (strip rule.groupKey) = key
  split_ifs with htarget hfallback hoccurs hoccurs
  · rfl
  · rfl
  · rw [h.get?_eq_none hoccurs]
    rfl
  · rfl
  · rw [h.get?_eq_none hoccurs]
    rfl

end Canonical

/-! ## The rules, operation by operation -/

/-- What the events of an operation have in a field, in order. -/
def fieldValues (op : String) (field : GroupField) (window : List Event) : List String :=
  (window.filter (·.op = op)).map fun event => field.value event

/-- The order of two operations in a window. -/
def pairOps (op op' : String) (window : List Event) : List String :=
  (window.map (·.op)).filter fun x => x = op ∨ x = op'

section Signature

variable {volatile : List String} {rule : EquivalenceRule} {w v : List Event}

/-- The operations of a rule with what they have in its field. -/
def fieldSignature (rule : EquivalenceRule) (volatile : List String) (window : List Event) :
    List (String × String) :=
  (window.filter fun event => (normalizedOps rule.ops).contains event.op).map fun event =>
    (event.op, (rule.field volatile).value event)

theorem signature_eq_fieldSignature (h : ∀ event ∈ w, Canonical volatile event)
    (hgroups : rule.groups = true) : rule.signature w = fieldSignature rule volatile w := by
  refine List.map_congr_left fun event hevent => ?_
  rw [eventGroupValue_eq (h event (List.mem_filter.1 hevent).1) hgroups]

theorem fieldValues_of_signature {op : String} (hop : op ∈ normalizedOps rule.ops)
    (window : List Event) :
    ((fieldSignature rule volatile window).filter fun x => x.1 = op).map Prod.snd =
      fieldValues op (rule.field volatile) window := by
  rw [fieldSignature, List.filter_map, List.map_map, List.filter_filter, fieldValues]
  have hfilter : (window.filter fun event =>
      ((fun x : String × String => decide (x.1 = op)) ∘ fun event =>
        (event.op, (rule.field volatile).value event)) event &&
        (normalizedOps rule.ops).contains event.op) = window.filter (·.op = op) := by
    refine List.filter_congr fun event _ => ?_
    by_cases hevent : event.op = op
    · simp [hevent, hop]
    · simp [hevent]
  rw [hfilter]
  simp only [Function.comp_def]

theorem pairOps_of_signature {op op' : String} (hop : op ∈ normalizedOps rule.ops)
    (hop' : op' ∈ normalizedOps rule.ops) (window : List Event) :
    (((fieldSignature rule volatile window).map Prod.fst).filter fun x => x = op ∨ x = op') =
      pairOps op op' window := by
  rw [fieldSignature, List.map_map, List.filter_map, List.filter_filter, pairOps, List.filter_map]
  have hfilter : (window.filter fun event =>
      ((fun x : String => decide (x = op ∨ x = op')) ∘ (Prod.fst ∘ fun event : Event =>
        (event.op, (rule.field volatile).value event))) event &&
        (normalizedOps rule.ops).contains event.op) =
      window.filter ((fun x : String => decide (x = op ∨ x = op')) ∘ (·.op)) := by
    refine List.filter_congr fun event _ => ?_
    by_cases hevent : event.op = op ∨ event.op = op'
    · rcases hevent with hevent | hevent <;> simp [hevent, hop, hop']
    · simp [hevent]
  rw [hfilter]
  exact List.map_congr_left fun _ _ => rfl

/-- A rule keeps the order of its operations when it keeps what each of them has in the field in
order, and any two of them. -/
theorem fieldSignature_eq_iff : fieldSignature rule volatile w = fieldSignature rule volatile v ↔
    (∀ op ∈ normalizedOps rule.ops,
      fieldValues op (rule.field volatile) w = fieldValues op (rule.field volatile) v) ∧
    ∀ op ∈ normalizedOps rule.ops, ∀ op' ∈ normalizedOps rule.ops, op ≠ op' →
      pairOps op op' w = pairOps op op' v := by
  constructor
  · intro h
    refine ⟨fun op hop => ?_, fun op hop op' hop' _ => ?_⟩
    · rw [← fieldValues_of_signature hop, ← fieldValues_of_signature hop, h]
    · have hpair := congrArg (fun signature : List (String × String) =>
        (signature.map Prod.fst).filter fun x => x = op ∨ x = op') h
      rwa [pairOps_of_signature hop hop', pairOps_of_signature hop hop'] at hpair
  · rintro ⟨hfields, hpairs⟩
    have hmem : ∀ window, ∀ op ∈ (fieldSignature rule volatile window).map Prod.fst,
        op ∈ normalizedOps rule.ops := by
      intro window op hop
      rw [fieldSignature, List.map_map, List.mem_map] at hop
      obtain ⟨event, hevent, rfl⟩ := hop
      exact List.contains_iff_mem.1 (List.mem_filter.1 hevent).2
    have hcount : ∀ (window : List Event) (op : String), op ∈ normalizedOps rule.ops →
        ((fieldSignature rule volatile window).map Prod.fst).count op =
          (fieldValues op (rule.field volatile) window).length := by
      intro window op hop
      rw [← fieldValues_of_signature hop, List.length_map, List.count, List.countP_map,
        List.countP_eq_length_filter]
      rfl
    have hperm : ((fieldSignature rule volatile w).map Prod.fst).Perm
        ((fieldSignature rule volatile v).map Prod.fst) := by
      rw [List.perm_iff_count]
      intro op
      by_cases hop : op ∈ normalizedOps rule.ops
      · rw [hcount w op hop, hcount v op hop, hfields op hop]
      · rw [List.count_eq_zero.2 fun h => hop (hmem w op h),
          List.count_eq_zero.2 fun h => hop (hmem v op h)]
    refine List.eq_of_map_fst_of_filter ?_ fun op hop => ?_
    · refine List.eq_of_filter_pair hperm fun op hop op' hop' hne => ?_
      rw [pairOps_of_signature (hmem w op hop) (hmem w op' hop'),
        pairOps_of_signature (hmem w op hop) (hmem w op' hop')]
      exact hpairs op (hmem w op hop) op' (hmem w op' hop') hne
    · rw [fieldValues_of_signature (hmem w op hop), fieldValues_of_signature (hmem w op hop)]
      exact hfields op (hmem w op hop)

end Signature

namespace TraceCompareConfig

/-- A rule keeps in order what an operation has in a field. -/
def KeepsField (config : TraceCompareConfig) (op : String) (field : GroupField) : Prop :=
  ∃ rule ∈ config.equivalenceRules, rule.groups = true ∧ op ∈ normalizedOps rule.ops ∧
    rule.field config.volatileParamKeys = field

/-- A rule keeps two operations in order. -/
def KeepsPair (config : TraceCompareConfig) (op op' : String) : Prop :=
  ∃ rule ∈ config.equivalenceRules, rule.groups = true ∧ op ∈ normalizedOps rule.ops ∧
    op' ∈ normalizedOps rule.ops

end TraceCompareConfig

/-- The rules pass two windows that agree in what a rule keeps. -/
theorem groupedCommutationOk_iff_keeps {config : TraceCompareConfig} {w v : List Event}
    (hw : ∀ event ∈ w, Canonical config.volatileParamKeys event)
    (hv : ∀ event ∈ v, Canonical config.volatileParamKeys event) :
    groupedCommutationOk w v config.equivalenceRules = true ↔
      (∀ op field, config.KeepsField op field → fieldValues op field w = fieldValues op field v) ∧
        ∀ op op', op ≠ op' → config.KeepsPair op op' → pairOps op op' w = pairOps op op' v := by
  rw [groupedCommutationOk_iff]
  constructor
  · intro h
    have hrule : ∀ rule ∈ config.equivalenceRules, rule.groups = true →
        fieldSignature rule config.volatileParamKeys w =
          fieldSignature rule config.volatileParamKeys v := by
      intro rule hrule hgroups
      rw [← signature_eq_fieldSignature hw hgroups, ← signature_eq_fieldSignature hv hgroups]
      exact h rule hrule hgroups
    constructor
    · rintro op field ⟨rule, hmem, hgroups, hop, rfl⟩
      exact (fieldSignature_eq_iff.1 (hrule rule hmem hgroups)).1 op hop
    · rintro op op' hne ⟨rule, hmem, hgroups, hop, hop'⟩
      exact (fieldSignature_eq_iff.1 (hrule rule hmem hgroups)).2 op hop op' hop' hne
  · rintro ⟨hfields, hpairs⟩ rule hmem hgroups
    rw [signature_eq_fieldSignature hw hgroups, signature_eq_fieldSignature hv hgroups,
      fieldSignature_eq_iff]
    exact ⟨fun op hop => hfields op _ ⟨rule, hmem, hgroups, hop, rfl⟩,
      fun op hop op' hop' hne => hpairs op op' hne ⟨rule, hmem, hgroups, hop, hop'⟩⟩

/-! ## The same comparison -/

/-- Two configurations that differ in nothing the comparison reads. -/
structure SameComparison (config config' : TraceCompareConfig) : Prop where
  volatile : ∀ key, key ∈ config.volatileParamKeys ↔ key ∈ config'.volatileParamKeys
  commutable : ∀ op, normalizeOpName op = op →
    (op ∈ config.commutableOps ↔ op ∈ config'.commutableOps)
  scopes : "action_id" ∉ config.volatileParamKeys → ∀ actionId,
    (parallelScope config.parallelActionScopes actionId).map List.toFinset =
      (parallelScope config'.parallelActionScopes actionId).map List.toFinset
  fields : ∀ op ∈ config.commutableOps, ∀ field, field ≠ .nothing →
    (config.KeepsField op field ↔ config'.KeepsField op field)
  pairs : ∀ op ∈ config.commutableOps, ∀ op' ∈ config.commutableOps, op ≠ op' →
    (config.KeepsPair op op' ↔ config'.KeepsPair op op')

section Congruence

variable {sha1 : String → String} {config config' : TraceCompareConfig}

theorem contains_congr {l l' : List String} (h : ∀ x, x ∈ l ↔ x ∈ l') (x : String) :
    l.contains x = l'.contains x := by
  rw [Bool.eq_iff_iff, List.contains_iff_mem, List.contains_iff_mem, h]

theorem canonicalizeEvent_congr {volatile volatile' : List String}
    (h : ∀ key, key ∈ volatile ↔ key ∈ volatile') :
    canonicalizeEvent sha1 volatile = canonicalizeEvent sha1 volatile' := by
  have hparam : canonicalizeParam sha1 volatile = canonicalizeParam sha1 volatile' := by
    funext result row
    simp only [canonicalizeParam, contains_congr h]
  funext event
  simp only [canonicalizeEvent, canonicalizeParams, hparam]

theorem mayOccur_congr {volatile volatile' : List String}
    (h : ∀ key, key ∈ volatile ↔ key ∈ volatile') (key : String) :
    MayOccur volatile key ↔ MayOccur volatile' key := by
  simp only [MayOccur, h]

theorem Canonical.congr {volatile volatile' : List String}
    (h : ∀ key, key ∈ volatile ↔ key ∈ volatile') {event : Event}
    (hevent : Canonical volatile event) : Canonical volatile' event :=
  ⟨hevent.op, fun key hkey => (mayOccur_congr h key).1 (hevent.params key hkey)⟩

theorem perm_map_op {w v : List Event} (h : (w.map keyForm).Perm (v.map keyForm)) :
    (w.map (·.op)).Perm (v.map (·.op)) := by
  have hops := h.map KeyForm.op
  rwa [List.map_map, List.map_map] at hops

theorem fieldValues_nothing (op : String) (window : List Event) :
    fieldValues op .nothing window = List.replicate ((window.map (·.op)).count op) "" := by
  rw [fieldValues, List.count, List.countP_map, List.countP_eq_length_filter]
  exact List.map_const'

theorem fieldValues_of_not_mem {op : String} {window : List Event} (field : GroupField)
    (h : ∀ event ∈ window, event.op ≠ op) : fieldValues op field window = [] := by
  rw [fieldValues, List.filter_eq_nil_iff.2 fun event hevent => by simpa using h event hevent]
  rfl

theorem pairOps_comm (op op' : String) (window : List Event) :
    pairOps op op' window = pairOps op' op window :=
  List.filter_congr fun _ _ => decide_eq_decide.2 or_comm

theorem pairOps_of_not_mem {op : String} {window : List Event} (op' : String)
    (h : ∀ event ∈ window, event.op ≠ op) :
    pairOps op op' window = List.replicate ((window.map (·.op)).count op') op' := by
  have hfilter : pairOps op op' window = (window.map (·.op)).filter (· = op') := by
    refine List.filter_congr fun x hx => ?_
    obtain ⟨event, hevent, rfl⟩ := List.mem_map.1 hx
    simp [h event hevent]
  rw [hfilter, List.filter_eq]

/-- On two windows of the same commutable events the rules of both configurations agree. -/
theorem SameComparison.groupedCommutationOk_eq (h : SameComparison config config')
    {w v : List Event} (hw : ∀ event ∈ w, Canonical config.volatileParamKeys event)
    (hv : ∀ event ∈ v, Canonical config.volatileParamKeys event)
    (hwops : ∀ event ∈ w, event.op ∈ config.commutableOps)
    (hvops : ∀ event ∈ v, event.op ∈ config.commutableOps)
    (hperm : (w.map keyForm).Perm (v.map keyForm)) :
    groupedCommutationOk w v config.equivalenceRules =
      groupedCommutationOk w v config'.equivalenceRules := by
  have hcount := (perm_map_op hperm).count_eq
  have houtside : ∀ {op : String} {window : List Event}, op ∉ config.commutableOps →
      (∀ event ∈ window, event.op ∈ config.commutableOps) → ∀ event ∈ window, event.op ≠ op :=
    fun hop hall event hevent heq => hop (heq ▸ hall event hevent)
  have hfields : ∀ op field,
      (config.KeepsField op field → fieldValues op field w = fieldValues op field v) ↔
        (config'.KeepsField op field → fieldValues op field w = fieldValues op field v) := by
    intro op field
    by_cases hop : op ∈ config.commutableOps
    · by_cases hfield : field = .nothing
      · have heq : fieldValues op field w = fieldValues op field v := by
          rw [hfield, fieldValues_nothing, fieldValues_nothing, hcount]
        exact iff_of_true (fun _ => heq) fun _ => heq
      · rw [h.fields op hop field hfield]
    · have heq : fieldValues op field w = fieldValues op field v := by
        rw [fieldValues_of_not_mem field (houtside hop hwops),
          fieldValues_of_not_mem field (houtside hop hvops)]
      exact iff_of_true (fun _ => heq) fun _ => heq
  have hpairs : ∀ op op', op ≠ op' →
      ((config.KeepsPair op op' → pairOps op op' w = pairOps op op' v) ↔
        (config'.KeepsPair op op' → pairOps op op' w = pairOps op op' v)) := by
    intro op op' hne
    by_cases hop : op ∈ config.commutableOps
    · by_cases hop' : op' ∈ config.commutableOps
      · rw [h.pairs op hop op' hop' hne]
      · have heq : pairOps op op' w = pairOps op op' v := by
          rw [pairOps_comm, pairOps_comm op, pairOps_of_not_mem op (houtside hop' hwops),
            pairOps_of_not_mem op (houtside hop' hvops), hcount]
        exact iff_of_true (fun _ => heq) fun _ => heq
    · have heq : pairOps op op' w = pairOps op op' v := by
        rw [pairOps_of_not_mem op' (houtside hop hwops),
          pairOps_of_not_mem op' (houtside hop hvops), hcount]
      exact iff_of_true (fun _ => heq) fun _ => heq
  rw [Bool.eq_iff_iff, groupedCommutationOk_iff_keeps hw hv, groupedCommutationOk_iff_keeps
    (fun event hevent => (hw event hevent).congr h.volatile)
    fun event hevent => (hv event hevent).congr h.volatile]
  refine and_congr (forall₂_congr hfields) (forall₂_congr fun op op' => ?_)
  exact forall_congr' (hpairs op op')

theorem takeWhile_congr {p q : Event → Bool} {l : List Event} (h : ∀ event ∈ l, p event = q event) :
    l.takeWhile p = l.takeWhile q := by
  induction l with
  | nil => rfl
  | cons event l ih =>
    rw [List.takeWhile_cons, List.takeWhile_cons, h event List.mem_cons_self,
      ih fun e he => h e (List.mem_cons_of_mem event he)]

/-- A window from both traces, and the scan after it. -/
def windowStep (config : TraceCompareConfig) (fuel : ℕ) (window : Event → Bool)
    (ok : List Event → List Event → Bool) (base opt : List Event) : Except PyErr Bool := do
  if ← windowsMatch (base.takeWhile window) (opt.takeWhile window) then
    if ok (base.takeWhile window) (opt.takeWhile window) then
      tolerantFrom config fuel
        (base.drop (max (base.takeWhile window).length (opt.takeWhile window).length))
        (opt.drop (max (base.takeWhile window).length (opt.takeWhile window).length))
    else return false
  else return false

theorem tolerantFrom_cons (fuel : ℕ) (b o : Event) (base opt : List Event) :
    tolerantFrom config (fuel + 1) (b :: base) (o :: opt) =
      if (eventKey b).eqv (eventKey o) then tolerantFrom config fuel base opt
      else if config.commutes b && config.commutes o && decide (b.phase = o.phase) then
        windowStep config fuel config.commutes
          (fun baseWindow optWindow =>
            groupedCommutationOk baseWindow optWindow config.equivalenceRules)
          (b :: base) (o :: opt)
      else
        match parallelScopeForEvents b o config.parallelActionScopes with
        | some scope =>
            windowStep config fuel (inScope scope) (fun _ _ => true) (b :: base) (o :: opt)
        | none => .ok false := by
  rw [tolerantFrom]
  rfl

/-- A window is the same for both configurations when its bounds are, and what is asked of windows
that hold the same events. -/
theorem windowStep_congr {fuel : ℕ} {window window' : Event → Bool}
    {ok ok' : List Event → List Event → Bool} {base opt : List Event}
    (hbase : ∀ event ∈ base, window event = window' event)
    (hopt : ∀ event ∈ opt, window event = window' event)
    (hok : ((base.takeWhile window).map keyForm).Perm ((opt.takeWhile window).map keyForm) →
      ok (base.takeWhile window) (opt.takeWhile window) =
        ok' (base.takeWhile window) (opt.takeWhile window))
    (hrest : ∀ n, tolerantFrom config fuel (base.drop n) (opt.drop n) =
      tolerantFrom config' fuel (base.drop n) (opt.drop n)) :
    windowStep config fuel window ok base opt = windowStep config' fuel window' ok' base opt := by
  rw [windowStep, windowStep, ← takeWhile_congr hbase, ← takeWhile_congr hopt]
  cases hmatch : windowsMatch (base.takeWhile window) (opt.takeWhile window) with
  | error e => rfl
  | ok found =>
    cases found with
    | false => rfl
    | true =>
      rw [hrest, hok (windowsMatch_iff.1 hmatch).2]

/-- No scope holds the empty name. -/
theorem parallelScope_empty (scopes : List (List String)) : parallelScope scopes "" = none := by
  cases hscope : parallelScope scopes "" with
  | none => rfl
  | some scope =>
    obtain ⟨hmem, hin⟩ := parallelScope_eq_some hscope
    obtain ⟨raw, -, rfl⟩ := List.mem_map.1 (List.mem_filter.1 hmem).1
    rw [List.mem_dedup, List.mem_filter] at hin
    exact absurd rfl (of_decide_eq_true hin.2)

/-- Without the parameter an event belongs to no action. -/
theorem eventActionId_of_volatile {volatile : List String} (hvolatile : "action_id" ∈ volatile)
    {event : Event} (h : Canonical volatile event) : eventActionId event = "" := by
  have hnone : ∀ body ∈ bodyKeys, "action_id" ≠ body ++ "_hash" := by decide +kernel
  have hget : event.paramsAbst.get? "action_id" = none := by
    refine h.get?_eq_none ?_
    rintro (⟨hnot, -⟩ | ⟨body, hbody, -, heq⟩)
    · exact hnot hvolatile
    · exact hnone body hbody heq
  rw [eventActionId, Dict.getD, hget]
  decide +kernel

theorem SameComparison.lookup_eq (h : SameComparison config config') {event : Event}
    (hevent : Canonical config.volatileParamKeys event) :
    (parallelScope config.parallelActionScopes (eventActionId event)).map List.toFinset =
      (parallelScope config'.parallelActionScopes (eventActionId event)).map List.toFinset := by
  by_cases hvolatile : "action_id" ∈ config.volatileParamKeys
  · rw [eventActionId_of_volatile hvolatile hevent, parallelScope_empty, parallelScope_empty]
  · exact h.scopes hvolatile _

/-- The scope that two events share, as a set. -/
theorem parallelScopeForEvents_toFinset (b o : Event) (scopes : List (List String)) :
    (parallelScopeForEvents b o scopes).map List.toFinset =
      match (parallelScope scopes (eventActionId b)).map List.toFinset,
        (parallelScope scopes (eventActionId o)).map List.toFinset with
      | some baseScope, some optScope => if baseScope = optScope then some baseScope else none
      | _, _ => none := by
  rw [parallelScopeForEvents]
  cases parallelScope scopes (eventActionId b) with
  | none => rfl
  | some baseScope =>
    cases parallelScope scopes (eventActionId o) with
    | none => rfl
    | some optScope =>
      simp only [Option.map_some]
      by_cases hsame : sameSet baseScope optScope = true
      · rw [if_pos hsame, if_pos (sameSet_iff.1 hsame)]
        rfl
      · rw [if_neg hsame, if_neg fun heq => hsame (sameSet_iff.2 heq)]
        rfl

/-- The scan of canonical events is the same. -/
theorem SameComparison.tolerantFrom_eq (h : SameComparison config config') (fuel : ℕ)
    {base opt : List Event} (hb : ∀ event ∈ base, Canonical config.volatileParamKeys event)
    (ho : ∀ event ∈ opt, Canonical config.volatileParamKeys event) :
    tolerantFrom config fuel base opt = tolerantFrom config' fuel base opt := by
  induction fuel generalizing base opt with
  | zero => rw [tolerantFrom, tolerantFrom] <;> simp
  | succ fuel ih =>
    cases base with
    | nil => rw [tolerantFrom, tolerantFrom] <;> simp
    | cons b base =>
      cases opt with
      | nil => rw [tolerantFrom, tolerantFrom] <;> simp
      | cons o opt =>
        have hcommutes : ∀ event, Canonical config.volatileParamKeys event →
            config.commutes event = config'.commutes event := by
          intro event hevent
          rw [TraceCompareConfig.commutes, TraceCompareConfig.commutes, Bool.eq_iff_iff,
            List.contains_iff_mem, List.contains_iff_mem, h.commutable event.op hevent.op]
        have hrest : ∀ n, tolerantFrom config fuel ((b :: base).drop n) ((o :: opt).drop n) =
            tolerantFrom config' fuel ((b :: base).drop n) ((o :: opt).drop n) := fun n =>
          ih (fun event he => hb event (List.mem_of_mem_drop he))
            fun event he => ho event (List.mem_of_mem_drop he)
        rw [tolerantFrom_cons, tolerantFrom_cons, hcommutes b (hb b List.mem_cons_self),
          hcommutes o (ho o List.mem_cons_self)]
        split_ifs with hkey hcond
        · exact ih (fun event he => hb event (List.mem_cons_of_mem b he))
            fun event he => ho event (List.mem_cons_of_mem o he)
        · refine windowStep_congr (fun event he => hcommutes event (hb event he))
            (fun event he => hcommutes event (ho event he)) (fun hperm => ?_) hrest
          have hops : ∀ events : List Event, ∀ event ∈ events.takeWhile config.commutes,
              event.op ∈ config.commutableOps := by
            intro events event he
            have hcommute : config.commutes event = true := List.mem_takeWhile_imp he
            exact List.contains_iff_mem.1 hcommute
          exact h.groupedCommutationOk_eq
            (fun event he => hb event ((List.takeWhile_prefix _).mem he))
            (fun event he => ho event ((List.takeWhile_prefix _).mem he)) (hops _) (hops _) hperm
        · have hscope : (parallelScopeForEvents b o config.parallelActionScopes).map List.toFinset =
              (parallelScopeForEvents b o config'.parallelActionScopes).map List.toFinset := by
            rw [parallelScopeForEvents_toFinset, parallelScopeForEvents_toFinset,
              h.lookup_eq (hb b List.mem_cons_self), h.lookup_eq (ho o List.mem_cons_self)]
          cases hfound : parallelScopeForEvents b o config.parallelActionScopes with
          | none =>
            rw [hfound, Option.map_none, eq_comm, Option.map_eq_none_iff] at hscope
            rw [hscope]
          | some scope =>
            rw [hfound, Option.map_some, eq_comm, Option.map_eq_some_iff] at hscope
            obtain ⟨scope', hfound', hsame⟩ := hscope
            rw [hfound']
            have hin : ∀ event, inScope scope event = inScope scope' event := by
              refine fun event => contains_congr (fun x => ?_) _
              rw [← List.mem_toFinset, ← List.mem_toFinset, hsame]
            exact windowStep_congr (fun event _ => hin event) (fun event _ => hin event)
              (fun _ => rfl) hrest

/-- Configurations that differ in nothing the comparison reads give the same verdicts. -/
theorem verdicts_congr (h : SameComparison config config') (traceBase traceOpt : List Event) :
    verdicts sha1 config traceBase traceOpt = verdicts sha1 config' traceBase traceOpt := by
  have hcanonical : ∀ trace : List Event, ∀ event ∈
      trace.map (canonicalizeEvent sha1 config.volatileParamKeys),
        Canonical config.volatileParamKeys event := by
    intro trace event hevent
    obtain ⟨raw, -, rfl⟩ := List.mem_map.1 hevent
    exact canonical_canonicalizeEvent
  simp only [verdicts, compareTraces, ← canonicalizeEvent_congr h.volatile, tolerantEqual,
    h.tolerantFrom_eq _ (hcanonical traceBase) (hcanonical traceOpt)]

end Congruence

end FloWeaver.Trace
