import FloWeaver.Trace.Compare
import Mathlib.Data.List.Perm.Basic

/-!
# Keys of events

Two events count as the same when their keys are equal, and Python compares `1`, `1.0` and
`True` as one number.  With hashable parameters a key has a normal form in which this equality
is plain equality, so a `Counter` of keys is a list up to permutation.

* `Scalar`, `keyForm` — the normal form of a parameter and of a key.
* `eventKey_eqv_iff` — equal keys are equal normal forms.
* `sameCounts_iff` — equal counts are a permutation of normal forms.
* `sameValue_of_eventKey` — what equal keys say about a parameter.
-/

namespace FloWeaver.Trace

open Py

/-- A hashable value up to Python's `==`. -/
inductive Scalar where
  | none
  | num (q : ℚ)
  | str (s : String)
deriving DecidableEq

/-- The normal form of a hashable value. -/
def scalar : Val → Scalar
  | .str s => .str s
  | .none | .list _ | .dict _ => .none
  | v => .num v.number

/-- The normal form of the key of an event. -/
structure KeyForm where
  phase : String
  provider : String
  op : String
  target : String
  params : List (String × Scalar)
deriving DecidableEq

def keyForm (event : Event) : KeyForm where
  phase := event.phase
  provider := event.provider
  op := event.op
  target := event.target
  params := (sortedBy (·.1) event.paramsAbst).map fun row => (row.1, scalar row.2)

/-- Every parameter of the event is hashable. -/
def Event.Hashable (event : Event) : Prop := ∀ row ∈ event.paramsAbst, hashable row.2 = true

theorem countable_iff {events : List Event} :
    countable events = true ↔ ∀ event ∈ events, event.Hashable := by
  simp [countable, Event.Hashable]

/-! ## Equal keys -/

/-- `a == b` on what two dictionaries have under a key. -/
def sameValue : Option Val → Option Val → Bool
  | none, none => true
  | some v, some w => v.eqv w
  | _, _ => false

theorem eventKey_parts {b o : Event} (h : (eventKey b).eqv (eventKey o) = true) :
    b.phase = o.phase ∧ b.op = o.op ∧ b.target = o.target ∧
      eqvItems ((sortedBy (·.1) b.paramsAbst).map fun row => .list [.str row.1, row.2])
        ((sortedBy (·.1) o.paramsAbst).map fun row => .list [.str row.1, row.2]) = true := by
  simp only [eventKey, Val.eqv, eqvItems, Bool.and_eq_true, decide_eq_true_iff] at h
  exact ⟨h.1, h.2.2.1, h.2.2.2.1, h.2.2.2.2.1⟩

/-- On hashable values `==` compares normal forms. -/
theorem eqv_eq_scalar {v w : Val} (hv : hashable v = true) (hw : hashable w = true) :
    v.eqv w = decide (scalar v = scalar w) := by
  cases v <;> cases w <;> simp_all [hashable, Val.eqv, scalar, Val.isNumber]

theorem eqvItems_rows {xs ys : Dict} (hx : ∀ row ∈ xs, hashable row.2 = true)
    (hy : ∀ row ∈ ys, hashable row.2 = true) :
    eqvItems (xs.map fun row => .list [.str row.1, row.2])
        (ys.map fun row => .list [.str row.1, row.2]) =
      decide ((xs.map fun row => (row.1, scalar row.2)) =
        ys.map fun row => (row.1, scalar row.2)) := by
  induction xs generalizing ys with
  | nil => cases ys <;> simp [eqvItems]
  | cons x xs ih =>
    cases ys with
    | nil => simp [eqvItems]
    | cons y ys =>
      have hrest := @ih ys (fun row h => hx row (by simp [h]))
        fun row h => hy row (by simp [h])
      have hhead := eqv_eq_scalar (hx x (by simp)) (hy y (by simp))
      simp [eqvItems, Val.eqv, hrest, hhead]

theorem eventKey_eqv {b o : Event} (hb : b.Hashable) (ho : o.Hashable) :
    (eventKey b).eqv (eventKey o) = decide (keyForm b = keyForm o) := by
  have hrows := @eqvItems_rows (sortedBy (·.1) b.paramsAbst) (sortedBy (·.1) o.paramsAbst)
    (fun row h => hb row (mem_sortedBy.1 h)) fun row h => ho row (mem_sortedBy.1 h)
  simp [eventKey, Val.eqv, eqvItems, hrows, keyForm, KeyForm.mk.injEq]

theorem eventKey_eqv_iff {b o : Event} (hb : b.Hashable) (ho : o.Hashable) :
    (eventKey b).eqv (eventKey o) = true ↔ keyForm b = keyForm o := by
  rw [eventKey_eqv hb ho, decide_eq_true_iff]

theorem strictEqual_iff {base opt : List Event} (hb : ∀ event ∈ base, event.Hashable)
    (ho : ∀ event ∈ opt, event.Hashable) :
    strictEqual base opt = true ↔ base.map keyForm = opt.map keyForm := by
  induction base generalizing opt with
  | nil => cases opt <;> simp [strictEqual, eqvItems]
  | cons b base ih =>
    cases opt with
    | nil => simp [strictEqual, eqvItems]
    | cons o opt =>
      have hrest := @ih opt (fun event h => hb event (by simp [h]))
        fun event h => ho event (by simp [h])
      have hhead := eventKey_eqv_iff (hb b (by simp)) (ho o (by simp))
      rw [strictEqual] at hrest
      simp [strictEqual, eqvItems, hrest, hhead]

/-! ## Counters -/

/-- Events that hash count as their normal forms do. -/
theorem countP_eventKey {e : Event} (he : e.Hashable) {events : List Event}
    (h : ∀ event ∈ events, event.Hashable) :
    (events.map eventKey).countP (eventKey e).eqv = (events.map keyForm).count (keyForm e) := by
  rw [List.countP_map, List.count, List.countP_map]
  refine List.countP_congr fun event hevent => ?_
  simp only [Function.comp_apply, eventKey_eqv_iff he (h event hevent), beq_iff_eq]
  exact eq_comm

theorem sameCounts_iff {base opt : List Event} (hb : ∀ event ∈ base, event.Hashable)
    (ho : ∀ event ∈ opt, event.Hashable) :
    sameCounts (base.map eventKey) (opt.map eventKey) = true ↔
      (base.map keyForm).Perm (opt.map keyForm) := by
  have hall : ∀ e ∈ base ++ opt, e.Hashable := fun e he =>
    (List.mem_append.1 he).elim (hb e) (ho e)
  rw [List.perm_iff_count, sameCounts, ← List.map_append, List.all_map, List.all_eq_true]
  constructor
  · intro h form
    by_cases hform : form ∈ (base ++ opt).map keyForm
    · obtain ⟨e, he, rfl⟩ := List.mem_map.1 hform
      have hcount := of_decide_eq_true (h e he)
      rwa [countP_eventKey (hall e he) hb, countP_eventKey (hall e he) ho] at hcount
    · rw [List.map_append, List.mem_append, not_or] at hform
      rw [List.count_eq_zero_of_not_mem hform.1, List.count_eq_zero_of_not_mem hform.2]
  · intro h e he
    refine decide_eq_true ?_
    rw [countP_eventKey (hall e he) hb, countP_eventKey (hall e he) ho]
    exact h (keyForm e)

theorem windowsMatch_iff {base opt : List Event} :
    windowsMatch base opt = .ok true ↔
      (∀ event ∈ base ++ opt, event.Hashable) ∧ (base.map keyForm).Perm (opt.map keyForm) := by
  rw [windowsMatch]
  split_ifs with hcount
  · rw [Bool.and_eq_true, countable_iff, countable_iff] at hcount
    obtain ⟨hb, ho⟩ := hcount
    rw [Except.ok.injEq, sameCounts_iff hb ho]
    exact ⟨fun h => ⟨fun event he => (List.mem_append.1 he).elim (hb event) (ho event), h⟩,
      fun h => h.2⟩
  · rw [Bool.and_eq_true, countable_iff, countable_iff] at hcount
    refine ⟨(fun h => nomatch h), fun h => absurd ⟨?_, ?_⟩ hcount⟩
    · exact fun event he => h.1 event (List.mem_append_left opt he)
    · exact fun event he => h.1 event (List.mem_append_right base he)

/-! ## Parameters of equal keys -/

/-- Sorting by the key keeps what is found under a key. -/
theorem find?_sortedBy (d : Dict) (key : String) :
    (sortedBy (·.1) d).find? (fun row => decide (row.1 = key)) =
      d.find? fun row => decide (row.1 = key) := by
  have hinsert : ∀ (row : String × Val) (l : Dict),
      (l.orderedInsert (fun a b => a.1 ≤ b.1) row).find? (fun row => decide (row.1 = key)) =
        (row :: l).find? fun row => decide (row.1 = key) := by
    intro row l
    induction l with
    | nil => rfl
    | cons first rest ih =>
      rw [List.orderedInsert_cons]
      split_ifs with hle
      · rfl
      · -- the first row keeps its place, and it is not under the same key
        rw [List.find?_cons, ih]
        by_cases hrow : row.1 = key
        · have hfirst : first.1 ≠ key := fun h => hle (by rw [hrow, h])
          simp [hrow, hfirst]
        · by_cases hfirst : first.1 = key <;> simp [hrow, hfirst]
  induction d with
  | nil => rfl
  | cons row rest ih =>
    show ((sortedBy (·.1) rest).orderedInsert _ row).find? _ = _
    rw [hinsert, List.find?_cons, List.find?_cons, ih]

/-- Equal rows have equal values under every key. -/
theorem sameValue_of_eqvItems {xs ys : Dict}
    (h : eqvItems (xs.map fun row => .list [.str row.1, row.2])
      (ys.map fun row => .list [.str row.1, row.2]) = true) (key : String) :
    sameValue (Dict.get? xs key) (Dict.get? ys key) = true := by
  induction xs generalizing ys with
  | nil =>
    cases ys with
    | nil => rfl
    | cons y ys => simp [eqvItems] at h
  | cons x xs ih =>
    cases ys with
    | nil => simp [eqvItems] at h
    | cons y ys =>
      simp only [List.map_cons, eqvItems, Val.eqv, Bool.and_eq_true, decide_eq_true_iff] at h
      obtain ⟨⟨hkey, hvalue, -⟩, hrest⟩ := h
      rw [Dict.get?_cons, Dict.get?_cons, ← hkey]
      split_ifs
      · exact hvalue
      · exact ih hrest

/-- Equal keys have equal parameters. -/
theorem sameValue_of_eventKey {b o : Event} (h : (eventKey b).eqv (eventKey o) = true)
    (key : String) : sameValue (b.paramsAbst.get? key) (o.paramsAbst.get? key) = true := by
  have hsorted := sameValue_of_eqvItems (eventKey_parts h).2.2.2 key
  rwa [Dict.get?, Dict.get?, find?_sortedBy, find?_sortedBy] at hsorted

end FloWeaver.Trace
