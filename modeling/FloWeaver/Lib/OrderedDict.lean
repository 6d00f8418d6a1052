import Mathlib.Data.List.Basic
import Mathlib.Data.List.Dedup
import Mathlib.Data.List.Induction
import Mathlib.Data.List.Nodup

/-!
# Insertion-ordered dictionaries

A finite map that remembers the order in which its keys came in: writing to a key that is
there replaces the value in place, a new key goes to the end.  The keys are distinct by
construction.

* `OrderedDict.set`, `OrderedDict.erase`, `OrderedDict.get?`, `OrderedDict.keys` — the operations.
* `OrderedDict.get?_set`, `OrderedDict.mem_keys_set` — what a write changes.
* `OrderedDict.get?_erase_of_ne` — what a removal leaves.
* `OrderedDict.ofList`, `OrderedDict.get?_ofList` — the rows of a list written one after the other:
  the last row of a key stays.
* `List.contains_map_of_injective`, `List.eraseDups_map_of_injective`, `List.mapM_map_except` — for
  lists.
* `OrderedDict.map`, `OrderedDict.ofList_map` — for dictionaries.
-/

set_option linter.unusedSectionVars false

variable {κ υ : Type*} [DecidableEq κ]

/-- A map with distinct keys in insertion order. -/
structure OrderedDict (κ υ : Type*) where
  rows : List (κ × υ)
  nodup : (rows.map Prod.fst).Nodup

namespace OrderedDict

def empty : OrderedDict κ υ := ⟨[], by simp⟩

def keys (d : OrderedDict κ υ) : List κ := d.rows.map Prod.fst

def values (d : OrderedDict κ υ) : List υ := d.rows.map Prod.snd

/-- The value stored under a key. -/
def get? (d : OrderedDict κ υ) (key : κ) : Option υ :=
  (d.rows.find? (fun row => row.1 = key)).map Prod.snd

/-- The rows after a write. -/
def setRows (rows : List (κ × υ)) (key : κ) (value : υ) : List (κ × υ) :=
  match rows with
  | [] => [(key, value)]
  | row :: rest => if row.1 = key then (key, value) :: rest else row :: setRows rest key value

theorem map_fst_setRows (rows : List (κ × υ)) (key : κ) (value : υ) :
    (setRows rows key value).map Prod.fst =
      if key ∈ rows.map Prod.fst then rows.map Prod.fst else rows.map Prod.fst ++ [key] := by
  induction rows with
  | nil => simp [setRows]
  | cons row rest ih =>
    by_cases h : row.1 = key
    · simp [setRows, h]
    · have h' : key ≠ row.1 := fun e => h e.symm
      simp only [setRows, h, if_false, List.map_cons, ih, List.mem_cons, h', false_or]
      split_ifs <;> simp

/-- A new key comes last. -/
theorem setRows_of_not_mem {rows : List (κ × υ)} {key : κ} {value : υ}
    (h : key ∉ rows.map Prod.fst) : setRows rows key value = rows ++ [(key, value)] := by
  induction rows with
  | nil => rfl
  | cons row rest ih =>
    rw [List.map_cons, List.mem_cons, not_or] at h
    rw [setRows, if_neg (Ne.symm h.1), ih h.2]
    rfl

/-- The key that came last keeps its place. -/
theorem setRows_concat {rows : List (κ × υ)} {key : κ} {old value : υ}
    (h : key ∉ rows.map Prod.fst) :
    setRows (rows ++ [(key, old)]) key value = rows ++ [(key, value)] := by
  induction rows with
  | nil => rw [List.nil_append, setRows, if_pos rfl, List.nil_append]
  | cons row rest ih =>
    rw [List.map_cons, List.mem_cons, not_or] at h
    rw [List.cons_append, setRows, if_neg (Ne.symm h.1), ih h.2, List.cons_append]

/-- Writes a value under a key. -/
def set (d : OrderedDict κ υ) (key : κ) (value : υ) : OrderedDict κ υ where
  rows := setRows d.rows key value
  nodup := by
    rw [map_fst_setRows]
    split_ifs with h
    · exact d.nodup
    · exact List.nodup_append.2 ⟨d.nodup, by simp, fun a ha b hb => by
        rintro rfl
        exact h (List.mem_singleton.1 hb ▸ ha)⟩

/-- Removes a key. -/
def erase (d : OrderedDict κ υ) (key : κ) : OrderedDict κ υ where
  rows := d.rows.filter (·.1 ≠ key)
  nodup := (List.filter_sublist.map Prod.fst).nodup d.nodup

/-- The rows of a list, written one after the other. -/
def ofList (rows : List (κ × υ)) : OrderedDict κ υ :=
  rows.foldl (fun d row => d.set row.1 row.2) empty

/-! ## What a write changes -/

theorem keys_nodup (d : OrderedDict κ υ) : d.keys.Nodup := d.nodup

theorem keys_set (d : OrderedDict κ υ) (key : κ) (value : υ) :
    (d.set key value).keys = if key ∈ d.keys then d.keys else d.keys ++ [key] :=
  map_fst_setRows d.rows key value

@[simp] theorem mem_keys_set {d : OrderedDict κ υ} {key k : κ} {value : υ} :
    k ∈ (d.set key value).keys ↔ k ∈ d.keys ∨ k = key := by
  rw [keys_set]
  split_ifs with h
  · exact ⟨.inl, fun h' => h'.elim id (fun e => e ▸ h)⟩
  · simp

theorem get?_set (d : OrderedDict κ υ) (key k : κ) (value : υ) :
    (d.set key value).get? k = if k = key then some value else d.get? k := by
  show ((setRows d.rows key value).find? (fun row => row.1 = k)).map Prod.snd =
    if k = key then some value else (d.rows.find? (fun row => row.1 = k)).map Prod.snd
  induction d.rows with
  | nil =>
    by_cases h : k = key
    · simp [setRows, h]
    · simp [setRows, h, Ne.symm h]
  | cons row rest ih =>
    by_cases h : row.1 = key
    · by_cases hk : k = key
      · simp [setRows, h, hk]
      · simp [setRows, h, hk, Ne.symm hk]
    · by_cases hr : row.1 = k
      · have : ¬ k = key := fun e => h (hr.trans e)
        simp [setRows, hr, this]
      · simpa [setRows, h, hr] using ih

/-- Removing a key leaves the values of the other keys. -/
theorem get?_erase_of_ne (d : OrderedDict κ υ) {key k : κ} (h : k ≠ key) :
    (d.erase key).get? k = d.get? k := by
  show ((d.rows.filter (·.1 ≠ key)).find? (fun row => row.1 = k)).map Prod.snd =
    (d.rows.find? (fun row => row.1 = k)).map Prod.snd
  rw [List.find?_filter]
  refine congrArg (·.map Prod.snd) (congrFun (congrArg List.find? ?_) d.rows)
  funext row
  by_cases hk : row.1 = k
  · simp [hk, h]
  · simp [hk]

theorem get?_isSome_iff {d : OrderedDict κ υ} {k : κ} : (d.get? k).isSome ↔ k ∈ d.keys := by
  simp [get?, keys]

theorem mem_rows_of_get? {d : OrderedDict κ υ} {k : κ} {v : υ} (h : d.get? k = some v) :
    (k, v) ∈ d.rows := by
  obtain ⟨row, hrow, rfl⟩ := Option.map_eq_some_iff.1 h
  obtain rfl : row.1 = k := by simpa using List.find?_some hrow
  exact List.mem_of_find?_eq_some hrow

theorem get?_of_mem_rows {d : OrderedDict κ υ} {row : κ × υ} (h : row ∈ d.rows) :
    d.get? row.1 = some row.2 := by
  obtain ⟨v, hv⟩ := Option.isSome_iff_exists.1
    (get?_isSome_iff.2 (List.mem_map_of_mem h : row.1 ∈ d.keys))
  have hmem := mem_rows_of_get? hv
  have := List.inj_on_of_nodup_map d.nodup hmem h rfl
  rw [hv, ← this]

theorem lookup_rows (d : OrderedDict κ υ) (k : κ) : d.rows.lookup k = d.get? k := by
  rw [get?]
  induction d.rows with
  | nil => rfl
  | cons row rest ih =>
    rw [List.lookup_cons, List.find?_cons, ih]
    by_cases h : row.1 = k
    · simp [h]
    · rw [beq_false_of_ne (Ne.symm h), decide_eq_false h]

theorem ofList_concat (rows : List (κ × υ)) (row : κ × υ) :
    ofList (rows ++ [row]) = (ofList rows).set row.1 row.2 := by
  rw [ofList, List.foldl_append, List.foldl_cons, List.foldl_nil, ofList]

/-- Rows that are written later add their keys at the end. -/
theorem keys_ofList_append (rows more : List (κ × υ)) :
    (ofList rows).keys <+: (ofList (rows ++ more)).keys := by
  induction more using List.reverseRecOn with
  | nil => simp
  | append_singleton more row ih =>
    rw [← List.append_assoc, ofList_concat, keys_set]
    split_ifs
    · exact ih
    · exact ih.trans (List.prefix_append _ _)

/-- The last row of a key is the one that the dictionary of a list keeps. -/
theorem get?_ofList (rows : List (κ × υ)) (k : κ) :
    (ofList rows).get? k = ((rows.filter fun row => row.1 = k).getLast?).map Prod.snd := by
  induction rows using List.reverseRecOn with
  | nil => rfl
  | append_singleton rows row ih =>
    rw [ofList_concat, get?_set, ih, List.filter_append]
    by_cases hk : k = row.1
    · rw [if_pos hk, List.filter_cons_of_pos (by simpa using hk.symm), List.filter_nil,
        List.getLast?_concat, Option.map_some]
    · rw [if_neg hk, List.filter_cons_of_neg (by simpa using Ne.symm hk), List.filter_nil,
        List.append_nil]

/-- A value of the dictionary of a list comes from a row of the list. -/
theorem mem_of_get?_ofList {rows : List (κ × υ)} {k : κ} {v : υ}
    (h : (ofList rows).get? k = some v) : (k, v) ∈ rows := by
  rw [get?_ofList] at h
  obtain ⟨row, hrow, rfl⟩ := Option.map_eq_some_iff.1 h
  obtain ⟨hmem, hkey⟩ := List.mem_filter.1 (List.mem_of_getLast? hrow)
  rwa [← of_decide_eq_true hkey]

/-- The keys of the dictionary of a list are the keys of its rows. -/
theorem mem_keys_ofList {rows : List (κ × υ)} {k : κ} :
    k ∈ (ofList rows).keys ↔ k ∈ rows.map Prod.fst := by
  rw [← get?_isSome_iff, get?_ofList, Option.isSome_map, List.getLast?_isSome, ne_eq,
    List.filter_eq_nil_iff]
  simp

/-- Rows with different keys are the rows of their dictionary. -/
theorem rows_ofList {rows : List (κ × υ)} (h : (rows.map Prod.fst).Nodup) :
    (ofList rows).rows = rows := by
  induction rows using List.reverseRecOn with
  | nil => rfl
  | append_singleton rows row ih =>
    rw [List.map_append, List.map_singleton, List.nodup_append] at h
    have hnew : row.1 ∉ rows.map Prod.fst := fun hmem =>
      h.2.2 row.1 hmem row.1 List.mem_cons_self rfl
    have hrows : ((ofList rows).set row.1 row.2).rows =
        setRows (ofList rows).rows row.1 row.2 := rfl
    rw [ofList_concat, hrows, ih h.1, setRows_of_not_mem hnew]

/-- The value of a key depends on the rows of this key only. -/
theorem get?_ofList_filter (p : κ → Bool) (rows : List (κ × υ)) {k : κ} (hk : p k = true) :
    (ofList (rows.filter (p ·.1))).get? k = (ofList rows).get? k := by
  have hfilter : (rows.filter fun row => decide (row.1 = k) && p row.1) =
      rows.filter fun row => decide (row.1 = k) := by
    refine List.filter_congr fun row _ => ?_
    by_cases hrow : row.1 = k
    · simp [hrow, hk]
    · simp [hrow]
  rw [get?_ofList, get?_ofList, List.filter_filter, hfilter]

end OrderedDict

/-!
## Lists and dictionaries under an injective map

A function that only compares the elements of a list does the same on their images.
-/

set_option linter.unusedSectionVars false

variable {α β κ κ' υ υ' : Type*}

theorem List.contains_map_of_injective [BEq α] [LawfulBEq α] [BEq β] [LawfulBEq β] {f : α → β}
    (hf : Function.Injective f) (l : List α) (a : α) : (l.map f).contains (f a) = l.contains a := by
  rw [Bool.eq_iff_iff, List.contains_iff_mem, List.contains_iff_mem]
  exact List.mem_map_of_injective hf

theorem List.eraseDups_map_of_injective [BEq α] [LawfulBEq α] [BEq β] [LawfulBEq β] {f : α → β}
    (hf : Function.Injective f) : ∀ l : List α, (l.map f).eraseDups = l.eraseDups.map f
  | [] => rfl
  | a :: l => by
      have hfilter : (l.map f).filter (fun b => !b == f a) =
          (l.filter fun b => !b == a).map f := by
        rw [List.filter_map]
        congr 2
        funext b
        rw [Function.comp_apply, Bool.eq_iff_iff]
        simp [hf.eq_iff]
      rw [List.map_cons, List.eraseDups_cons, List.eraseDups_cons, hfilter,
        List.eraseDups_map_of_injective hf (l.filter fun b => !b == a), List.map_cons]
termination_by l => l.length
decreasing_by exact Nat.lt_succ_of_le (List.length_filter_le _ _)

/-- A computation for every renamed element gives the renamed results. -/
theorem List.mapM_map_except {ε α' β' : Type} {α β : Type} {f : α → α'} {g : β → β'}
    {c : α → Except ε β} {c' : α' → Except ε β'} (h : ∀ a, c' (f a) = (c a).map g) (l : List α) :
    (l.map f).mapM c' = (l.mapM c).map (List.map g) := by
  induction l with
  | nil => rfl
  | cons a l ih =>
    rw [List.map_cons, List.mapM_cons, List.mapM_cons, h, ih]
    cases c a with
    | error e => rfl
    | ok b =>
      cases List.mapM c l with
      | error e => rfl
      | ok bs => rfl

namespace OrderedDict

variable [DecidableEq κ] [DecidableEq κ']

theorem setRows_map {f : κ → κ'} (hf : Function.Injective f) (g : υ → υ') (rows : List (κ × υ))
    (key : κ) (value : υ) :
    setRows (rows.map (Prod.map f g)) (f key) (g value) =
      (setRows rows key value).map (Prod.map f g) := by
  induction rows with
  | nil => rfl
  | cons row rest ih =>
    by_cases h : row.1 = key
    · simp [setRows, h]
    · have h' : ¬ f row.1 = f key := fun e => h (hf e)
      simp [setRows, h, h', ih]

/-- The dictionary with renamed keys and values. -/
def map (f : κ → κ') (hf : Function.Injective f) (g : υ → υ') (d : OrderedDict κ υ) :
    OrderedDict κ' υ' where
  rows := d.rows.map (Prod.map f g)
  nodup := by
    have hkeys : (d.rows.map (Prod.map f g)).map Prod.fst = (d.rows.map Prod.fst).map f := by
      simp
    rw [hkeys]
    exact d.nodup.map hf

@[simp] theorem get?_map {f : κ → κ'} (hf : Function.Injective f) (g : υ → υ')
    (d : OrderedDict κ υ) (k : κ) : (d.map f hf g).get? (f k) = (d.get? k).map g := by
  rw [get?, map, List.find?_map, Option.map_map, get?, Option.map_map]
  congr 2
  funext row
  simp [hf.eq_iff]

@[simp] theorem values_map {f : κ → κ'} (hf : Function.Injective f) (g : υ → υ')
    (d : OrderedDict κ υ) : (d.map f hf g).values = d.values.map g := by
  simp [values, map]

theorem eq_of_rows_eq {d d' : OrderedDict κ υ} (h : d.rows = d'.rows) : d = d' := by
  cases d
  cases d'
  simpa using h

/-- The dictionary of renamed rows is the renamed dictionary of the rows. -/
theorem ofList_map {f : κ → κ'} (hf : Function.Injective f) (g : υ → υ')
    (rows : List (κ × υ)) : ofList (rows.map (Prod.map f g)) = (ofList rows).map f hf g := by
  induction rows using List.reverseRecOn with
  | nil => exact eq_of_rows_eq rfl
  | append_singleton rows row ih =>
    rw [List.map_append, List.map_singleton, ofList_concat, ofList_concat, ih]
    exact eq_of_rows_eq (setRows_map hf g (ofList rows).rows row.1 row.2)

end OrderedDict
