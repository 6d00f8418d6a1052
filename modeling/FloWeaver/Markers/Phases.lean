import Mathlib.Data.List.Infix
import Mathlib.Data.Set.List
import FloWeaver.Lib.LabelSpread
import FloWeaver.Py.Str

/-!
# Lifecycle phases of functions

Three functions of an integration have a lifecycle phase by name.  The phase of another function is
taken from its callers in the module: sweeps over the functions in the order of their names give a
function the phase that its labelled callers share, and what is left runs at runtime.

* `inferFunctionPhases` — the phases of the functions of a module.
* `inferFunctionPhases_renamed` — a renamed module is the module swept in another order.
* `exists_order_of_names` — every order of the functions is that of some names.
* `inferFunctionPhases_consistent_iff` — when all callers of a function share its phase, whatever the
  names.
-/

namespace FloWeaver.Markers

open Py LabelSpread

/-! ## The module -/

inductive Phase where
  | setup
  | runtime
  | teardown
deriving DecidableEq, Repr

/-- What a call names: `f(…)`, `x.f(…)`, or neither. -/
inductive CallFunc where
  | name (id : String)
  | attr (member : String)
  | other
deriving DecidableEq, Repr

/-- A function and the calls that the walk of its body meets. -/
structure FunctionNode where
  name : String
  calls : List CallFunc
deriving DecidableEq, Repr

/-- The name that a call looks up.  A call of another shape has none, and no function is called `""`. -/
def CallFunc.callee : CallFunc → Option String
  | .name id => some id
  | .attr member => some member
  | .other => none

def localFunctions (functions : List FunctionNode) : List String := functions.map (·.name)

/-- The functions of the module that call one of them. -/
def callersOf (functions : List FunctionNode) (callee : String) : List String :=
  if callee ∈ localFunctions functions then
    (functions.filter fun fn => fn.calls.any (·.callee = some callee)).map (·.name)
  else []

/-! ## The phases -/

/-- The phase that a lifecycle root has by its name. -/
def rootPhase (name : String) : Option Phase :=
  if name = "async_setup_entry" then some .setup
  else if name ∈ ["async_unload_entry", "async_remove_entry"] then some .teardown
  else none

/-- The phases before the first sweep. -/
def initialPhases (functions : List FunctionNode) (name : String) : Option Phase :=
  if name ∈ localFunctions functions then rootPhase name else none

/-- The phases that callers pass on. -/
def spreadPhases : List Phase := [.setup, .teardown]

/-- What has no phase after the sweeps runs at runtime. -/
def withRuntime (functions : List FunctionNode) (phaseByFunction : String → Option Phase)
    (name : String) : Option Phase :=
  if name ∈ localFunctions functions then some ((phaseByFunction name).getD .runtime) else none

/-- The phases of the functions of a module; there is no answer when the sweeps do not end in time. -/
def inferFunctionPhases (functions : List FunctionNode) : Option (String → Option Phase) :=
  (loop spreadPhases (callersOf functions) (sortedSet (localFunctions functions))
    (functions.length + 1) (initialPhases functions)).map (withRuntime functions)

/-- A function that is no root and is labelled with a lifecycle phase has a caller, and all its
callers are labelled so. -/
def CallerConsistent (functions : List FunctionNode) (phases : String → Option Phase) : Prop :=
  ∀ fn ∈ functions, rootPhase fn.name = none → ∀ phase ∈ spreadPhases,
    phases fn.name = some phase →
      callersOf functions fn.name ≠ [] ∧
        ∀ caller ∈ callersOf functions fn.name, phases caller = some phase

/-! ### Other names -/

def CallFunc.rename (r : String → String) : CallFunc → CallFunc
  | .name id => .name (r id)
  | .attr member => .attr (r member)
  | .other => .other

def FunctionNode.rename (r : String → String) (fn : FunctionNode) : FunctionNode :=
  ⟨r fn.name, fn.calls.map (CallFunc.rename r)⟩

/-- Other names for the functions that are no roots. -/
structure Renaming (r : String → String) : Prop where
  injective : Function.Injective r
  root : ∀ name phase, rootPhase name = some phase → r name = name

/-- Under other names the functions have the same phases. -/
def OnlyRenames (functions : List FunctionNode) (phases : String → Option Phase) : Prop :=
  ∀ r, Renaming r → ∃ phases', inferFunctionPhases (functions.map (·.rename r)) = some phases' ∧
    ∀ fn ∈ functions, phases' (r fn.name) = phases fn.name

/-! ## Facts about a module -/

variable {functions : List FunctionNode}

theorem mem_localFunctions_of_caller {callee caller : String}
    (h : caller ∈ callersOf functions callee) : callee ∈ localFunctions functions := by
  by_contra hlocal
  rw [callersOf, if_neg hlocal] at h
  cases h

theorem caller_mem_localFunctions {callee caller : String}
    (h : caller ∈ callersOf functions callee) : caller ∈ localFunctions functions := by
  rw [callersOf, if_pos (mem_localFunctions_of_caller h)] at h
  obtain ⟨fn, hfn, rfl⟩ := List.mem_map.1 h
  exact List.mem_map_of_mem (List.mem_filter.1 hfn).1

theorem rootPhase_mem_spreadPhases {name : String} {phase : Phase}
    (h : rootPhase name = some phase) : phase ∈ spreadPhases := by
  rw [rootPhase] at h
  split_ifs at h <;> cases h <;> decide

theorem initialPhases_eq_some {name : String} {phase : Phase} :
    initialPhases functions name = some phase ↔
      name ∈ localFunctions functions ∧ rootPhase name = some phase := by
  rw [initialPhases]
  split_ifs with hlocal
  · exact (and_iff_right hlocal).symm
  · exact ⟨nofun, fun h => absurd h.1 hlocal⟩

variable (functions) in
theorem initialPhases_mem_spreadPhases (name : String) (phase : Phase)
    (h : initialPhases functions name = some phase) : phase ∈ spreadPhases :=
  rootPhase_mem_spreadPhases (initialPhases_eq_some.1 h).2

/-- Every label of the loop is one that callers pass on. -/
theorem label_mem_spreadPhases {order : List String} {fuel : ℕ} {labels : String → Option Phase}
    (hloop : loop spreadPhases (callersOf functions) order fuel (initialPhases functions) =
      some labels) {name : String} {phase : Phase} (h : labels name = some phase) :
    phase ∈ spreadPhases := by
  rcases (loop_sound hloop).reached name phase h with hroot | hreached
  · exact initialPhases_mem_spreadPhases functions name phase hroot
  · obtain ⟨root, hroot⟩ := hreached.exists_root
    exact initialPhases_mem_spreadPhases functions root phase hroot

variable (functions) in
/-- The loop ends with any list of the functions. -/
theorem exists_labels {order : List String} (h : order.length ≤ functions.length) :
    ∃ labels, loop spreadPhases (callersOf functions) order (functions.length + 1)
      (initialPhases functions) = some labels :=
  loop_ends (Nat.lt_succ_of_le (List.countP_le_length.trans h))

theorem length_sortedSet_le (l : List String) : (sortedSet l).length ≤ l.length := by
  rw [sortedSet, sortedStr, List.length_insertionSort]
  exact (List.dedup_sublist l).length_le

/-- The lifecycle phases of the functions are the labels of the loop. -/
theorem withRuntime_eq_some {labels : String → Option Phase} {name : String}
    (hname : name ∈ localFunctions functions) {phase : Phase} (hphase : phase ∈ spreadPhases) :
    withRuntime functions labels name = some phase ↔ labels name = some phase := by
  rw [withRuntime, if_pos hname]
  cases labels name with
  | some other => exact Iff.rfl
  | none =>
    constructor
    · intro h
      cases h
      exact absurd hphase (by decide)
    · exact nofun

/-- The phases are consistent when the labels are. -/
theorem callerConsistent_iff {labels : String → Option Phase}
    (hsound : Sound (callersOf functions) (initialPhases functions) labels)
    (hspread : ∀ name phase, labels name = some phase → phase ∈ spreadPhases) :
    CallerConsistent functions (withRuntime functions labels) ↔
      Consistent (callersOf functions) (initialPhases functions) labels := by
  constructor
  · intro h name phase hroot hlabel
    have hphase := hspread name phase hlabel
    have hlocal : name ∈ localFunctions functions := by
      rcases hsound.reached name phase hlabel with hinit | hreached
      · exact (initialPhases_eq_some.1 hinit).1
      · obtain ⟨caller, hcaller⟩ := hreached.exists_pred
        exact mem_localFunctions_of_caller hcaller
    obtain ⟨fn, hfn, rfl⟩ := List.mem_map.1 hlocal
    have hnotroot : rootPhase fn.name = none := by
      rwa [initialPhases, if_pos hlocal] at hroot
    obtain ⟨hne, hall⟩ := h fn hfn hnotroot phase hphase ((withRuntime_eq_some hlocal hphase).2 hlabel)
    exact ⟨List.exists_mem_of_ne_nil _ hne, fun caller hcaller =>
      (withRuntime_eq_some (caller_mem_localFunctions hcaller) hphase).1 (hall caller hcaller)⟩
  · intro h fn hfn hnotroot phase hphase hlabel
    have hlocal : fn.name ∈ localFunctions functions := List.mem_map_of_mem hfn
    have hroot : initialPhases functions fn.name = none := by
      rw [initialPhases, if_pos hlocal, hnotroot]
    obtain ⟨⟨caller, hcaller⟩, hall⟩ :=
      h fn.name phase hroot ((withRuntime_eq_some hlocal hphase).1 hlabel)
    exact ⟨List.ne_nil_of_mem hcaller, fun other hother =>
      (withRuntime_eq_some (caller_mem_localFunctions hother) hphase).2 (hall other hother)⟩

/-! ## Renamed modules -/

variable {r : String → String}

theorem Renaming.rootPhase_eq (h : Renaming r) (name : String) :
    rootPhase (r name) = rootPhase name := by
  cases hname : rootPhase name with
  | some phase => rw [h.root name phase hname, hname]
  | none =>
    cases hnew : rootPhase (r name) with
    | none => rfl
    | some phase =>
      -- the name of a root belongs to the root
      have hfix : r name = name := h.injective (h.root (r name) phase hnew)
      rw [hfix, hname] at hnew
      cases hnew

theorem localFunctions_rename :
    localFunctions (functions.map (·.rename r)) = (localFunctions functions).map r := by
  simp only [localFunctions, List.map_map]
  rfl

theorem Renaming.mem_localFunctions (h : Renaming r) (name : String) :
    r name ∈ localFunctions (functions.map (·.rename r)) ↔ name ∈ localFunctions functions := by
  rw [localFunctions_rename]
  exact List.mem_map_of_injective h.injective

theorem Renaming.callee_rename (h : Renaming r) (func : CallFunc) (name : String) :
    (func.rename r).callee = some (r name) ↔ func.callee = some name := by
  cases func with
  | name id => simp only [CallFunc.rename, CallFunc.callee, Option.some.injEq, h.injective.eq_iff]
  | attr member =>
    simp only [CallFunc.rename, CallFunc.callee, Option.some.injEq, h.injective.eq_iff]
  | other => exact ⟨nofun, nofun⟩

variable (functions) in
theorem Renaming.callersOf_rename (h : Renaming r) (name : String) :
    callersOf (functions.map (·.rename r)) (r name) = (callersOf functions name).map r := by
  rw [callersOf, callersOf]
  simp only [h.mem_localFunctions]
  split_ifs with hlocal
  · rw [List.filter_map, List.map_map, List.map_map]
    have hcalls : (fun fn : FunctionNode => fn.calls.any (·.callee = some (r name))) ∘
        (·.rename r) = fun fn : FunctionNode => fn.calls.any (·.callee = some name) := by
      funext fn
      simp only [Function.comp_def, FunctionNode.rename, List.any_map, h.callee_rename]
    rw [hcalls]
    rfl
  · rfl

theorem Renaming.initialPhases_rename (h : Renaming r) :
    initialPhases (functions.map (·.rename r)) ∘ r = initialPhases functions := by
  funext name
  simp only [Function.comp_apply, initialPhases, h.mem_localFunctions, h.rootPhase_eq]

/-- A renamed module is the module, swept in another order. -/
theorem inferFunctionPhases_renamed (h : Renaming r) {order : List String}
    (horder : sortedSet ((localFunctions functions).map r) = order.map r) :
    ∃ labels phases', loop spreadPhases (callersOf functions) order (functions.length + 1)
        (initialPhases functions) = some labels ∧
      inferFunctionPhases (functions.map (·.rename r)) = some phases' ∧
        ∀ name, phases' (r name) = withRuntime functions labels name := by
  have hmap := loop_map spreadPhases h.injective
    (h.callersOf_rename functions) order (functions.length + 1)
    (initialPhases (functions.map (·.rename r)))
  rw [h.initialPhases_rename] at hmap
  have hlength : order.length ≤ functions.length := by
    have hle := length_sortedSet_le ((localFunctions functions).map r)
    rwa [horder, List.length_map, List.length_map, localFunctions, List.length_map] at hle
  obtain ⟨labels, hlabels⟩ := exists_labels functions hlength
  rw [hlabels] at hmap
  obtain ⟨labels', hlabels', hcomp⟩ := Option.map_eq_some_iff.1 hmap
  refine ⟨labels, withRuntime (functions.map (·.rename r)) labels', hlabels, ?_, fun name => ?_⟩
  · rw [inferFunctionPhases, localFunctions_rename, horder, List.length_map, hlabels', Option.map_some]
  · simp only [withRuntime, h.mem_localFunctions, ← hcomp, Function.comp_apply]

/-! ## Every order is that of some names -/

/-- Names in the order of a list: `a`, `aa` and so on, before the names of the roots. -/
def ordered (l : List String) (name : String) : String :=
  if (rootPhase name).isSome then name
  else if name ∈ l then String.ofList (List.replicate (l.idxOf name + 1) 'a')
  else "b" ++ name

theorem eq_of_rootPhase {name : String} {phase : Phase} (h : rootPhase name = some phase) :
    name = "async_setup_entry" ∨ name = "async_unload_entry" ∨ name = "async_remove_entry" := by
  rw [rootPhase] at h
  split_ifs at h with hsetup hteardown
  · exact .inl hsetup
  · exact .inr (by simpa using hteardown)

theorem ordered_root {l : List String} {name : String} {phase : Phase}
    (h : rootPhase name = some phase) : ordered l name = name := by
  rw [ordered, h]
  rfl

theorem ordered_mem {l : List String} {name : String} (hroot : rootPhase name = none)
    (h : name ∈ l) : ordered l name = String.ofList (List.replicate (l.idxOf name + 1) 'a') := by
  rw [ordered, hroot, Option.isSome_none, if_neg Bool.false_ne_true, if_pos h]

theorem ordered_other {l : List String} {name : String} (hroot : rootPhase name = none)
    (h : name ∉ l) : ordered l name = "b" ++ name := by
  rw [ordered, hroot, Option.isSome_none, if_neg Bool.false_ne_true, if_neg h]

/-- The shorter text of `a`s comes first. -/
theorem replicate_lt {m n : ℕ} (h : m < n) :
    String.ofList (List.replicate m 'a') < String.ofList (List.replicate n 'a') := by
  rw [String.lt_iff_toList_lt, String.toList_ofList, String.toList_ofList]
  induction m generalizing n with
  | zero =>
    obtain ⟨n, rfl⟩ := Nat.exists_eq_add_of_lt h
    exact List.nil_lt_cons _ _
  | succ m ih =>
    obtain ⟨n, rfl⟩ := Nat.exists_eq_succ_of_ne_zero (Nat.ne_of_gt (Nat.zero_lt_of_lt h))
    exact List.cons_lt_cons_iff.2 (.inr ⟨rfl, ih (Nat.lt_of_succ_lt_succ h)⟩)

/-- A text of `a`s comes before the roots. -/
theorem replicate_lt_root {name : String} {phase : Phase} (h : rootPhase name = some phase) (n : ℕ) :
    String.ofList (List.replicate (n + 1) 'a') < name := by
  rw [String.lt_iff_toList_lt, String.toList_ofList]
  have hlt : ∀ rest, List.replicate (n + 1) 'a' < 'a' :: 's' :: rest := by
    intro rest
    refine List.cons_lt_cons_iff.2 (.inr ⟨rfl, ?_⟩)
    cases n with
    | zero => exact List.nil_lt_cons _ _
    | succ n => exact List.cons_lt_cons_iff.2 (.inl (by decide))
  rcases eq_of_rootPhase h with rfl | rfl | rfl <;> exact hlt _

theorem head_ordered (l : List String) (name : String) :
    (ordered l name).toList.head? =
      some (if rootPhase name = none ∧ name ∉ l then 'b' else 'a') := by
  cases hroot : rootPhase name with
  | some phase =>
    rw [ordered_root hroot, if_neg (fun h => by cases h.1)]
    rcases eq_of_rootPhase hroot with rfl | rfl | rfl <;> decide
  | none =>
    by_cases hmem : name ∈ l
    · rw [ordered_mem hroot hmem, if_neg (fun h => h.2 hmem), String.toList_ofList]
      rfl
    · rw [ordered_other hroot hmem, if_pos ⟨rfl, hmem⟩, String.toList_append]
      rfl

theorem renaming_ordered (l : List String) : Renaming (ordered l) := by
  refine ⟨fun x y hxy => ?_, fun name phase h => ordered_root h⟩
  have hhead := congrArg (fun name => name.toList.head?) hxy
  simp only [head_ordered, Option.some.injEq] at hhead
  by_cases hx : rootPhase x = none ∧ x ∉ l
  · by_cases hy : rootPhase y = none ∧ y ∉ l
    · rw [ordered_other hx.1 hx.2, ordered_other hy.1 hy.2] at hxy
      exact (String.append_right_inj "b").1 hxy
    · rw [if_pos hx, if_neg hy] at hhead
      exact absurd hhead (by decide)
  · by_cases hy : rootPhase y = none ∧ y ∉ l
    · rw [if_neg hx, if_pos hy] at hhead
      exact absurd hhead (by decide)
    · -- each of them is a root or in the list
      cases hrx : rootPhase x with
      | some phase =>
        cases hry : rootPhase y with
        | some phase' => rwa [ordered_root hrx, ordered_root hry] at hxy
        | none =>
          rw [ordered_root hrx, ordered_mem hry (not_not.1 fun h => hy ⟨hry, h⟩)] at hxy
          exact absurd hxy (replicate_lt_root hrx _).ne'
      | none =>
        have hxl : x ∈ l := not_not.1 fun h => hx ⟨hrx, h⟩
        cases hry : rootPhase y with
        | some phase =>
          rw [ordered_mem hrx hxl, ordered_root hry] at hxy
          exact absurd hxy (replicate_lt_root hry _).ne
        | none =>
          have hyl : y ∈ l := not_not.1 fun h => hy ⟨hry, h⟩
          rw [ordered_mem hrx hxl, ordered_mem hry hyl] at hxy
          have hlength := congrArg (fun name => name.toList.length) hxy
          simp only [String.toList_ofList, List.length_replicate, Nat.add_right_cancel_iff] at hlength
          exact (List.idxOf_inj hxl).1 hlength

/-- A list of other functions, and then roots in order, keeps its order under the names. -/
theorem pairwise_ordered {l roots : List String} (hl : l.Nodup)
    (hroot : ∀ name ∈ l, rootPhase name = none) (hroots : ∀ name ∈ roots, rootPhase name ≠ none)
    (hsorted : roots.Pairwise (· < ·)) : ((l ++ roots).map (ordered l)).Pairwise (· < ·) := by
  rw [List.pairwise_map, List.pairwise_append]
  refine ⟨?_, hsorted.imp_of_mem fun ha hb hab => ?_, fun a ha b hb => ?_⟩
  · refine List.pairwise_iff_getElem.2 fun i j hi hj hij => ?_
    rw [ordered_mem (hroot _ (List.getElem_mem hi)) (List.getElem_mem hi),
      ordered_mem (hroot _ (List.getElem_mem hj)) (List.getElem_mem hj),
      hl.idxOf_getElem, hl.idxOf_getElem]
    exact replicate_lt (Nat.succ_lt_succ hij)
  · obtain ⟨pa, hpa⟩ := Option.ne_none_iff_exists'.1 (hroots _ ha)
    obtain ⟨pb, hpb⟩ := Option.ne_none_iff_exists'.1 (hroots _ hb)
    rwa [ordered_root hpa, ordered_root hpb]
  · obtain ⟨pb, hpb⟩ := Option.ne_none_iff_exists'.1 (hroots _ hb)
    rw [ordered_mem (hroot a ha) ha, ordered_root hpb]
    exact replicate_lt_root hpb _

/-- A strictly rising list is the sorted set of its entries. -/
theorem sortedSet_eq_of_pairwise {l sorted : List String} (h : sorted.Pairwise (· < ·))
    (hmem : ∀ name, name ∈ l ↔ name ∈ sorted) : sortedSet l = sorted := by
  have hnodup : sorted.Nodup := h.imp fun hab => hab.ne
  refine List.Perm.eq_of_pairwise' (r := (· < ·)) (pairwise_lt_sortedStr l.nodup_dedup) h ?_
  refine (List.perm_ext_iff_of_nodup (nodup_sortedSet l) hnodup).2 fun name => ?_
  rw [mem_sortedSet, hmem]

/-- Every order of functions that are no roots is that of some names. -/
theorem exists_order_of_names {l : List String} (hl : l.Nodup)
    (hlocal : ∀ name ∈ l, name ∈ localFunctions functions ∧ rootPhase name = none) :
    ∃ r rest, Renaming r ∧
      sortedSet ((localFunctions functions).map r) = (l ++ rest).map r := by
  set names := localFunctions functions with hnames
  let others := names.dedup.filter fun name => (rootPhase name).isNone && name ∉ l
  let roots := sortedSet (names.filter fun name => (rootPhase name).isSome)
  have hothers : ∀ name, name ∈ others ↔ name ∈ names ∧ rootPhase name = none ∧ name ∉ l := by
    intro name
    simp [others]
  have hroots : ∀ name, name ∈ roots ↔ name ∈ names ∧ rootPhase name ≠ none := by
    intro name
    simp [roots, Option.isSome_iff_ne_none]
  have hnodup : (l ++ others).Nodup := by
    refine List.nodup_append.2 ⟨hl, names.nodup_dedup.filter _, fun a ha b hb heq => ?_⟩
    exact ((hothers b).1 hb).2.2 (heq ▸ ha)
  refine ⟨ordered (l ++ others), others ++ roots, renaming_ordered _, ?_⟩
  rw [← List.append_assoc]
  refine sortedSet_eq_of_pairwise (pairwise_ordered hnodup (fun name hname => ?_)
    (fun name hname => ((hroots name).1 hname).2) (pairwise_lt_sortedStr (List.nodup_dedup _)))
    fun name => ?_
  · rcases List.mem_append.1 hname with hname | hname
    · exact (hlocal name hname).2
    · exact ((hothers name).1 hname).2.1
  · have hsame : ∀ a, a ∈ names ↔ a ∈ l ++ others ++ roots := by
      intro a
      rw [List.mem_append, List.mem_append, hothers, hroots]
      constructor
      · intro ha
        by_cases hroot : rootPhase a = none
        · by_cases hal : a ∈ l
          · exact .inl (.inl hal)
          · exact .inl (.inr ⟨ha, hroot, hal⟩)
        · exact .inr ⟨ha, hroot⟩
      · rintro ((ha | ha) | ha)
        · exact (hlocal a ha).1
        · exact ha.1
        · exact ha.1
    simp only [List.mem_map, hsame]

/-! ## Caller consistency -/

variable (functions) in
/-- The functions of a renamed module, in the order of the new names. -/
theorem Renaming.exists_order (h : Renaming r) : ∃ order : List String,
    sortedSet ((localFunctions functions).map r) = order.map r ∧
      ∀ name, name ∈ localFunctions functions → name ∈ order := by
  have hrange : ∀ name ∈ sortedSet ((localFunctions functions).map r), name ∈ Set.range r := by
    intro name hname
    obtain ⟨fn, -, rfl⟩ := List.mem_map.1 (mem_sortedSet.1 hname)
    exact ⟨fn, rfl⟩
  obtain ⟨order, horder⟩ : sortedSet ((localFunctions functions).map r) ∈ Set.range (List.map r) := by
    rw [Set.range_list_map]
    exact hrange
  refine ⟨order, horder.symm, fun name hname => ?_⟩
  have hmem : r name ∈ order.map r := by
    rw [horder, mem_sortedSet]
    exact List.mem_map_of_mem hname
  exact (List.mem_map_of_injective h.injective).1 hmem

/-- The sweeps end.  A function labelled with a lifecycle phase shares it with all its callers, and other
names only rename the labels, exactly when whatever a root or an owned function calls is owned by that
phase as well, or is called by roots of both phases. -/
theorem inferFunctionPhases_consistent_iff (functions : List FunctionNode) :
    ∃ phases, inferFunctionPhases functions = some phases ∧
      (CallerConsistent functions phases ∧ OnlyRenames functions phases ↔
        Decided (callersOf functions) (initialPhases functions)) := by
  have hlength : (sortedSet (localFunctions functions)).length ≤ functions.length :=
    (length_sortedSet_le _).trans (List.length_map _).le
  obtain ⟨labels, hlabels⟩ := exists_labels functions hlength
  have hspread := fun (name : String) (phase : Phase) (h : labels name = some phase) =>
    label_mem_spreadPhases hlabels h
  have hkinds := initialPhases_mem_spreadPhases functions
  refine ⟨withRuntime functions labels, ?_, ?_⟩
  · rw [inferFunctionPhases, hlabels, Option.map_some]
  rw [callerConsistent_iff (loop_sound hlabels) hspread]
  constructor
  · rintro ⟨hconsistent, hrenames⟩
    by_contra hdecided
    obtain ⟨front, a, hnodup, hfront, hunowned, hlabelled⟩ := exists_order hdecided hkinds
    have hlocal : ∀ name ∈ front ++ [a],
        name ∈ localFunctions functions ∧ rootPhase name = none := by
      intro name hname
      obtain ⟨hroot, caller, hcaller⟩ := hfront name hname
      have hmem := mem_localFunctions_of_caller hcaller
      rw [initialPhases, if_pos hmem] at hroot
      exact ⟨hmem, hroot⟩
    obtain ⟨hmem, -⟩ := hlocal a (List.mem_append_right _ (List.mem_singleton.2 rfl))
    obtain ⟨fn, hfn, rfl⟩ := List.mem_map.1 hmem
    -- under its own names the module leaves the function without a label
    have hnone : labels fn.name = none := by
      cases hlabel : labels fn.name with
      | none => rfl
      | some phase =>
        have hroot := (hfront _ (List.mem_append_right _ (List.mem_singleton.2 rfl))).1
        exact absurd (owned_of_consistent hlabels hconsistent hroot hlabel) (hunowned phase)
    -- under other names it is visited in time
    obtain ⟨r, rest, hr, horder⟩ := exists_order_of_names hnodup hlocal
    obtain ⟨labels', phases', hlabels', hphases', hsame⟩ := inferFunctionPhases_renamed hr horder
    obtain ⟨phases'', hphases'', hrenamed⟩ := hrenames r hr
    cases hphases'.symm.trans hphases''
    rw [List.append_assoc] at hlabels'
    obtain ⟨phase, hphase⟩ := Option.ne_none_iff_exists'.1 (hlabelled _ _ _ hlabels')
    have hnew : withRuntime functions labels fn.name = some phase := by
      rw [← hrenamed fn hfn, hsame]
      exact (withRuntime_eq_some hmem (label_mem_spreadPhases hlabels' hphase)).2 hphase
    have hold := (withRuntime_eq_some hmem (label_mem_spreadPhases hlabels' hphase)).1 hnew
    rw [hnone] at hold
    cases hold
  · intro hdecided
    have hcover : ∀ name caller, caller ∈ callersOf functions name →
        name ∈ sortedSet (localFunctions functions) := fun _ _ hcaller =>
      mem_sortedSet.2 (mem_localFunctions_of_caller hcaller)
    refine ⟨hdecided.consistent hkinds hcover hlabels, fun r hr => ?_⟩
    obtain ⟨order, horder, hmem⟩ := hr.exists_order functions
    obtain ⟨labels', phases', hlabels', hphases', hsame⟩ := inferFunctionPhases_renamed hr horder
    refine ⟨phases', hphases', fun fn hfn => ?_⟩
    have hcover' : ∀ name caller, caller ∈ callersOf functions name → name ∈ order :=
      fun name _ hcaller => hmem name (mem_localFunctions_of_caller hcaller)
    have hlabel : labels' fn.name = labels fn.name := by
      refine Option.ext fun phase => ?_
      rw [hdecided.label_iff hkinds hcover' hlabels', hdecided.label_iff hkinds hcover hlabels]
    rw [hsame, withRuntime, withRuntime, hlabel]

/-- A helper of the set-up that a polling function calls as well is labelled with the set-up. -/
theorem inferFunctionPhases_inconsistent : ¬ ∀ functions : List FunctionNode,
    (localFunctions functions).Nodup → ∃ phases, inferFunctionPhases functions = some phases ∧
      CallerConsistent functions phases ∧ OnlyRenames functions phases := by
  intro h
  let functions : List FunctionNode :=
    [⟨"async_setup_entry", [.name "refresh"]⟩, ⟨"poll", [.name "refresh"]⟩, ⟨"refresh", []⟩]
  obtain ⟨phases, hphases, hconsistent, -⟩ := h functions (by decide)
  have heval : (inferFunctionPhases functions).map (fun p => (p "refresh", p "poll")) =
      some (some .setup, some .runtime) := by decide +kernel
  rw [hphases, Option.map_some, Option.some.injEq, Prod.mk.injEq] at heval
  obtain ⟨hrefresh, hpoll⟩ := heval
  have hcallers := (hconsistent ⟨"refresh", []⟩ (by decide) (by decide) .setup (by decide) hrefresh).2
  have hsetup : phases "poll" = some .setup := hcallers "poll" (by decide +kernel)
  rw [hpoll] at hsetup
  cases hsetup

end FloWeaver.Markers
