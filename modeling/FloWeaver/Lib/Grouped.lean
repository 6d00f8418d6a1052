import FloWeaver.Lib.OrderedDict
import Mathlib.Algebra.Order.BigOperators.Group.List
import Mathlib.Tactic.SplitIfs

/-!
# Grouping a list under a key

* `OrderedDict.grouped` — the elements of a list, each appended to the row of its key.
* `OrderedDict.getD_grouped` — a row holds the elements of its key in the order of the list.
* `OrderedDict.flatMap_grouped_perm` — the rows hold every element once.
* `OrderedDict.mapValues` — a dictionary with every value replaced.
* `OrderedDict.valueAt` — the amount under a key, zero for a key that was not met.
* `OrderedDict.bump` — adds an amount under a key.
* `OrderedDict.valueAt_foldl_bump`, `OrderedDict.mem_keys_foldl_bump` — what a run of rows leaves.
* `OrderedDict.Within` — one tally is below another, key by key.
* `OrderedDict.within_foldl_bump` — a run with further rows leaves at least as much.
* `OrderedDict.raise`, `OrderedDict.le_valueAt_foldl_raise` — the largest amount instead of the sum.
-/

namespace OrderedDict

variable {α κ υ ω : Type*} [DecidableEq κ]

/-- Appends an element to the row of its key. -/
def append (f : α → κ) (groups : OrderedDict κ (List α)) (a : α) : OrderedDict κ (List α) :=
  groups.set (f a) ((groups.get? (f a)).getD [] ++ [a])

/-- The elements of a list under their keys. -/
def grouped (f : α → κ) (l : List α) : OrderedDict κ (List α) := l.foldl (append f) empty

theorem getD_append (f : α → κ) (groups : OrderedDict κ (List α)) (a : α) (key : κ) :
    ((append f groups a).get? key).getD [] =
      (groups.get? key).getD [] ++ [a].filter fun b => f b = key := by
  rw [append, get?_set]
  by_cases h : key = f a
  · subst h
    simp
  · have h' : ¬ f a = key := fun e => h e.symm
    simp [h, h']

theorem getD_foldl_append (f : α → κ) (l : List α) (groups : OrderedDict κ (List α)) (key : κ) :
    ((l.foldl (append f) groups).get? key).getD [] =
      (groups.get? key).getD [] ++ l.filter fun b => f b = key := by
  induction l generalizing groups with
  | nil => simp
  | cons a rest ih =>
    rw [List.foldl_cons, ih, getD_append, List.append_assoc, ← List.filter_append]
    rfl

theorem getD_grouped (f : α → κ) (l : List α) (key : κ) :
    ((grouped f l).get? key).getD [] = l.filter fun b => f b = key := by
  rw [grouped, getD_foldl_append]
  rfl

theorem mem_keys_grouped {f : α → κ} {l : List α} {key : κ} :
    key ∈ (grouped f l).keys ↔ key ∈ l.map f := by
  have hfold : ∀ (l : List α) (groups : OrderedDict κ (List α)),
      key ∈ (l.foldl (append f) groups).keys ↔ key ∈ groups.keys ∨ key ∈ l.map f := by
    intro l
    induction l with
    | nil => simp
    | cons a rest ih =>
      intro groups
      rw [List.foldl_cons, ih, append, mem_keys_set, List.map_cons, List.mem_cons, or_assoc]
  rw [grouped, hfold]
  simp [keys, empty]

/-- The row of a key. -/
theorem snd_of_mem_grouped {f : α → κ} {l : List α} {row : κ × List α}
    (h : row ∈ (grouped f l).rows) : row.2 = l.filter fun b => f b = row.1 := by
  rw [← getD_grouped, get?_of_mem_rows h, Option.getD_some]

/-- The rows hold every element once. -/
theorem flatMap_grouped_perm (f : α → κ) (l : List α) :
    ((grouped f l).rows.flatMap (·.2)).Perm l := by
  have hkeys : ∀ (keys : List κ) (l : List α), keys.Nodup → (∀ a ∈ l, f a ∈ keys) →
      (keys.flatMap fun key => l.filter fun b => f b = key).Perm l := by
    intro keys
    induction keys with
    | nil =>
      intro l _ hall
      rw [List.eq_nil_iff_forall_not_mem.2 fun a ha => List.not_mem_nil (hall a ha)]
      exact .refl _
    | cons key keys ih =>
      intro l hnodup hall
      rw [List.nodup_cons] at hnodup
      have hrest : (keys.flatMap fun k => l.filter fun b => f b = k) =
          keys.flatMap fun k => (l.filter fun b => ¬ f b = key).filter fun b => f b = k := by
        refine List.flatMap_congr fun k hk => ?_
        rw [List.filter_filter]
        refine List.filter_congr fun b _ => ?_
        by_cases hb : f b = k
        · have hne : ¬ f b = key := fun heq => hnodup.1 (heq ▸ hb ▸ hk)
          simp [hb, hb ▸ hne]
        · simp [hb]
      rw [List.flatMap_cons, hrest]
      refine ((ih (l.filter fun b => ¬ f b = key) hnodup.2 fun a ha => ?_).append_left _).trans ?_
      · obtain ⟨ha, hne⟩ := List.mem_filter.1 ha
        exact (List.mem_cons.1 (hall a ha)).resolve_left (by simpa using hne)
      · simpa using List.filter_append_perm (fun b => decide (f b = key)) l
  have hrows : (grouped f l).rows.flatMap (·.2) =
      (grouped f l).keys.flatMap fun key => l.filter fun b => f b = key := by
    rw [keys, List.flatMap_map]
    exact List.flatMap_congr fun row hrow => snd_of_mem_grouped hrow
  rw [hrows]
  exact hkeys _ l (grouped f l).keys_nodup fun a ha => mem_keys_grouped.2 (List.mem_map_of_mem ha)

/-- The dictionary with a function applied to every value. -/
def mapValues (f : υ → ω) (d : OrderedDict κ υ) : OrderedDict κ ω where
  rows := d.rows.map fun row => (row.1, f row.2)
  nodup := by
    rw [List.map_map]
    exact d.nodup

theorem get?_mapValues (f : υ → ω) (d : OrderedDict κ υ) (key : κ) :
    (d.mapValues f).get? key = (d.get? key).map f := by
  simp [mapValues, get?, List.find?_map, Function.comp_def]

end OrderedDict

/-!
## Tallies

A tally adds amounts up under keys: a key that is met for the first time starts at zero.  What it
holds in the end is a sum for each key, so more rows never take anything away.
-/

namespace OrderedDict

variable {κ M : Type*} [DecidableEq κ]

section Sums

variable [AddCommMonoid M]

/-- The amount under a key. -/
def valueAt (d : OrderedDict κ M) (key : κ) : M := (d.get? key).getD 0

/-- Adds an amount under a key. -/
def bump (d : OrderedDict κ M) (row : κ × M) : OrderedDict κ M :=
  d.set row.1 (d.valueAt row.1 + row.2)

theorem valueAt_bump (d : OrderedDict κ M) (row : κ × M) (key : κ) :
    (d.bump row).valueAt key = d.valueAt key + if row.1 = key then row.2 else 0 := by
  rw [valueAt, bump, get?_set]
  by_cases h : key = row.1
  · subst h
    rw [if_pos rfl, if_pos rfl]
    rfl
  · rw [if_neg h, if_neg (Ne.symm h), add_zero]
    rfl

/-- A run of rows leaves their sum under every key. -/
theorem valueAt_foldl_bump (rows : List (κ × M)) (d : OrderedDict κ M) (key : κ) :
    (rows.foldl bump d).valueAt key =
      d.valueAt key + (rows.map fun row => if row.1 = key then row.2 else 0).sum := by
  induction rows generalizing d with
  | nil => simp
  | cons row rest ih => rw [List.foldl_cons, ih, valueAt_bump, List.map_cons, List.sum_cons, add_assoc]

/-- The rows of a list add up what the elements of the key amount to. -/
theorem sum_map_ite_key {α : Type*} (f : α → κ) (g : α → M) (l : List α) (key : κ) :
    ((l.map fun a => (f a, g a)).map fun row => if row.1 = key then row.2 else 0).sum =
      ((l.filter fun a => f a = key).map g).sum := by
  induction l with
  | nil => rfl
  | cons a rest ih =>
    rw [List.map_cons, List.map_cons, List.sum_cons, ih]
    by_cases h : f a = key
    · simp [h]
    · simp [h]

theorem mem_keys_foldl_bump {rows : List (κ × M)} {d : OrderedDict κ M} {key : κ} :
    key ∈ (rows.foldl bump d).keys ↔ key ∈ d.keys ∨ key ∈ rows.map Prod.fst := by
  induction rows generalizing d with
  | nil => simp
  | cons row rest ih => rw [List.foldl_cons, ih, bump, mem_keys_set, List.map_cons, List.mem_cons,
      or_assoc]

end Sums

section Order

variable [AddCommMonoid M] [PartialOrder M]

/-- One tally is below another: it has no other keys, and no larger amount. -/
structure Within (d e : OrderedDict κ M) : Prop where
  keys : ∀ key ∈ d.keys, key ∈ e.keys
  values : ∀ key, d.valueAt key ≤ e.valueAt key

variable [IsOrderedAddMonoid M]

/-- Further rows, anywhere between the others, take nothing away. -/
theorem within_foldl_bump {rows rows' : List (κ × M)} {d e : OrderedDict κ M} (h : d.Within e)
    (hsub : rows.Sublist rows') (hpos : ∀ row ∈ rows', 0 ≤ row.2) :
    (rows.foldl bump d).Within (rows'.foldl bump e) where
  keys key hkey := by
    rw [mem_keys_foldl_bump] at hkey ⊢
    exact hkey.imp (h.keys key) fun hrow => (hsub.map Prod.fst).mem hrow
  values key := by
    rw [valueAt_foldl_bump, valueAt_foldl_bump]
    refine add_le_add (h.values key) ((hsub.map _).sum_le_sum fun x hx => ?_)
    obtain ⟨row, hrow, rfl⟩ := List.mem_map.1 hx
    split_ifs
    · exact hpos row hrow
    · exact le_rfl

end Order

section Peaks

variable [AddCommMonoid M] [LinearOrder M]

/-- Raises the amount under a key to a value at least. -/
def raise (d : OrderedDict κ M) (row : κ × M) : OrderedDict κ M :=
  d.set row.1 (max (d.valueAt row.1) row.2)

theorem valueAt_raise (d : OrderedDict κ M) (row : κ × M) (key : κ) :
    (d.raise row).valueAt key = if row.1 = key then max (d.valueAt key) row.2 else d.valueAt key := by
  rw [valueAt, raise, get?_set]
  by_cases h : key = row.1
  · subst h
    rw [if_pos rfl, if_pos rfl]
    rfl
  · rw [if_neg h, if_neg (Ne.symm h)]
    rfl

/-- A run of rows leaves the largest amount of every key. -/
theorem le_valueAt_foldl_raise {rows : List (κ × M)} {d : OrderedDict κ M} {key : κ} {m : M} :
    m ≤ (rows.foldl raise d).valueAt key ↔
      m ≤ d.valueAt key ∨ ∃ row ∈ rows, row.1 = key ∧ m ≤ row.2 := by
  induction rows generalizing d with
  | nil => simp
  | cons row rest ih =>
    rw [List.foldl_cons, ih, valueAt_raise]
    by_cases h : row.1 = key
    · simp only [h, if_true, le_max_iff, List.mem_cons, exists_eq_or_imp, true_and, or_assoc]
    · simp only [h, if_false, List.mem_cons, exists_eq_or_imp, false_and, false_or]

theorem mem_keys_foldl_raise {rows : List (κ × M)} {d : OrderedDict κ M} {key : κ} :
    key ∈ (rows.foldl raise d).keys ↔ key ∈ d.keys ∨ key ∈ rows.map Prod.fst := by
  induction rows generalizing d with
  | nil => simp
  | cons row rest ih => rw [List.foldl_cons, ih, raise, mem_keys_set, List.map_cons, List.mem_cons,
      or_assoc]

end Peaks

end OrderedDict
