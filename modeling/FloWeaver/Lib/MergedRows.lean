import Mathlib.Data.Bool.Basic
import Mathlib.Data.List.Induction
import Mathlib.Data.List.Pairwise
import Mathlib.Tactic.SplitIfs

/-!
# Rows merged by a key

Rows come with a key.  A row is merged into the first row before it whose key agrees with its own,
which keeps its key; a row that agrees with none is kept as it is.

* `mergeRows` — the merged rows, in the order of their first members.
* `forall_mem_mergeRows` — what holds of every row and survives merging holds of the merged rows.
* `covers_mergeRows` — what a row covers is covered under the key of its `leader`.
* `mergeRows_mergeRows` — merging once more changes nothing.
-/

namespace MergeByKey

variable {κ ρ α : Type} (same : κ → κ → Bool) (merge : ρ → ρ → ρ)

/-- Merges a row into the first one with its key, or adds it. -/
def insertRow : List (κ × ρ) → κ × ρ → List (κ × ρ)
  | [], row => [row]
  | (key, r) :: rest, row =>
      if same key row.1 then (key, merge r row.2) :: rest
      else (key, r) :: insertRow rest row

def mergeRows (rows : List (κ × ρ)) : List (κ × ρ) := rows.foldl (insertRow same merge) []

/-- The first of some keys that agrees with a key. -/
def leader (keys : List κ) (key : κ) : κ := (keys.find? (same · key)).getD key

variable {same merge} {groups rows : List (κ × ρ)} {row : κ × ρ}

theorem mergeRows_concat (rows : List (κ × ρ)) (row : κ × ρ) :
    mergeRows same merge (rows ++ [row]) = insertRow same merge (mergeRows same merge rows) row :=
  List.foldl_append

/-! ## One row -/

/-- A row adds its key where no key agrees with it. -/
theorem map_fst_insertRow (groups : List (κ × ρ)) (row : κ × ρ) :
    (insertRow same merge groups row).map (·.1) =
      if groups.any (fun g => same g.1 row.1) then groups.map (·.1)
      else groups.map (·.1) ++ [row.1] := by
  induction groups with
  | nil => rfl
  | cons g groups ih =>
    rw [insertRow, List.any_cons]
    by_cases hsame : same g.1 row.1 = true
    · simp [hsame]
    · rw [if_neg hsame, List.map_cons, ih, Bool.eq_false_of_not_eq_true hsame, Bool.false_or]
      split_ifs <;> rfl

theorem forall_mem_insertRow {P : κ → ρ → Prop} (hgroups : ∀ g ∈ groups, P g.1 g.2)
    (hrow : P row.1 row.2)
    (hmerge : ∀ key r, same key row.1 = true → P key r → P key (merge r row.2)) :
    ∀ g ∈ insertRow same merge groups row, P g.1 g.2 := by
  induction groups with
  | nil => simpa [insertRow] using hrow
  | cons g groups ih =>
    obtain ⟨hg, hrest⟩ := List.forall_mem_cons.1 hgroups
    rw [insertRow]
    split_ifs with hsame
    · exact List.forall_mem_cons.2 ⟨hmerge g.1 g.2 hsame hg, hrest⟩
    · exact List.forall_mem_cons.2 ⟨hg, ih hrest⟩

/-- What a row covers is covered under the key that agrees with its own. -/
theorem covers_insertRow {covers : ρ → α → Prop}
    (hmerge : ∀ r s a, covers (merge r s) a ↔ covers r a ∨ covers s a) (groups : List (κ × ρ))
    (row : κ × ρ) (key : κ) (a : α) :
    (∃ g ∈ insertRow same merge groups row, g.1 = key ∧ covers g.2 a) ↔
      (∃ g ∈ groups, g.1 = key ∧ covers g.2 a) ∨
        (leader same (groups.map (·.1)) row.1 = key ∧ covers row.2 a) := by
  induction groups with
  | nil => simp [insertRow, leader]
  | cons g groups ih =>
    rw [insertRow]
    split_ifs with hsame
    · have hleader : leader same ((g :: groups).map (·.1)) row.1 = g.1 := by simp [leader, hsame]
      rw [hleader]
      simp only [List.mem_cons, exists_eq_or_imp, hmerge]
      rw [and_or_left, or_right_comm]
    · have hleader : leader same ((g :: groups).map (·.1)) row.1 =
          leader same (groups.map (·.1)) row.1 := by simp [leader, hsame]
      rw [hleader]
      simp only [List.mem_cons, exists_eq_or_imp, ih]
      rw [or_assoc]

/-! ## All rows -/

theorem forall_mem_mergeRows {P : κ → ρ → Prop} (hrows : ∀ row ∈ rows, P row.1 row.2)
    (hmerge : ∀ key r, P key r → ∀ row ∈ rows, same key row.1 = true → P key (merge r row.2)) :
    ∀ g ∈ mergeRows same merge rows, P g.1 g.2 := by
  induction rows using List.reverseRecOn with
  | nil => simp [mergeRows]
  | append_singleton rows row ih =>
    rw [mergeRows_concat]
    have hrest := ih (fun r hr => hrows r (List.mem_append_left _ hr))
      fun key r hP s hs => hmerge key r hP s (List.mem_append_left _ hs)
    exact forall_mem_insertRow hrest (hrows row (by simp))
      fun key r hsame hP => hmerge key r hP row (by simp) hsame

/-- No two of the merged rows agree. -/
theorem pairwise_mergeRows (rows : List (κ × ρ)) :
    (mergeRows same merge rows).Pairwise fun g g' => same g.1 g'.1 = false := by
  suffices ((mergeRows same merge rows).map (·.1)).Pairwise fun k k' => same k k' = false from
    List.pairwise_map.1 this
  induction rows using List.reverseRecOn with
  | nil => exact .nil
  | append_singleton rows row ih =>
    rw [mergeRows_concat, map_fst_insertRow]
    split_ifs with hany
    · exact ih
    · refine List.pairwise_append.2 ⟨ih, List.pairwise_singleton _ _, fun k hk k' hk' => ?_⟩
      obtain ⟨g, hg, rfl⟩ := List.mem_map.1 hk
      obtain rfl := List.mem_singleton.1 hk'
      exact Bool.eq_false_of_not_eq_true fun hsame => hany (List.any_eq_true.2 ⟨g, hg, hsame⟩)

/-- Rows of which no two agree are not merged. -/
theorem mergeRows_of_pairwise
    (h : rows.Pairwise fun g g' => same g.1 g'.1 = false) : mergeRows same merge rows = rows := by
  induction rows using List.reverseRecOn with
  | nil => rfl
  | append_singleton rows row ih =>
    obtain ⟨hrows, -, hrow⟩ := List.pairwise_append.1 h
    rw [mergeRows_concat, ih hrows]
    have hnone : ∀ g ∈ rows, same g.1 row.1 = false := fun g hg =>
      hrow g hg row (List.mem_singleton_self row)
    clear ih h hrows hrow
    induction rows with
    | nil => rfl
    | cons g rows ih =>
      obtain ⟨hg, hrest⟩ := List.forall_mem_cons.1 hnone
      rw [List.cons_append, insertRow, hg, if_neg Bool.false_ne_true, ih hrest]

/-- Merging once more changes nothing. -/
theorem mergeRows_mergeRows (rows : List (κ × ρ)) :
    mergeRows same merge (mergeRows same merge rows) = mergeRows same merge rows :=
  mergeRows_of_pairwise (pairwise_mergeRows rows)

section Leader

variable (hrefl : ∀ key, same key key = true)
  (htrans : ∀ a b c, same a b = true → same b c = true → same a c = true)

include htrans in
/-- Among the merged rows a key finds the same leader as among all rows. -/
theorem find?_mergeRows (rows : List (κ × ρ)) (key : κ) :
    ((mergeRows same merge rows).map (·.1)).find? (same · key) =
      (rows.map (·.1)).find? (same · key) := by
  induction rows using List.reverseRecOn generalizing key with
  | nil => rfl
  | append_singleton rows row ih =>
    rw [mergeRows_concat, map_fst_insertRow, List.map_append, List.map_singleton,
      List.find?_append, ← ih]
    split_ifs with hany
    · -- the row agrees with an earlier one, which agrees with whatever the row agrees with
      cases hfound : ((mergeRows same merge rows).map (·.1)).find? (same · key) with
      | some k => rfl
      | none =>
        have hrow : same row.1 key = false := by
          obtain ⟨g, hg, hsame⟩ := List.any_eq_true.1 hany
          have hno := List.find?_eq_none.1 hfound g.1 (List.mem_map_of_mem hg)
          exact Bool.eq_false_of_not_eq_true fun hkey => hno (htrans _ _ _ hsame hkey)
        simp [hrow]
    · rw [List.find?_append]

include hrefl in
/-- A later row does not change the leader of a row that is there. -/
theorem leader_append {keys : List κ} {key : κ} (h : key ∈ keys) (more : List κ) :
    leader same (keys ++ more) key = leader same keys key := by
  obtain ⟨k, hk⟩ : ∃ k, keys.find? (same · key) = some k :=
    Option.isSome_iff_exists.1 (List.find?_isSome.2 ⟨key, h, hrefl key⟩)
  rw [leader, leader, List.find?_append, hk]
  rfl

include hrefl in
theorem leader_concat_self (keys : List κ) (key : κ) :
    leader same (keys ++ [key]) key = leader same keys key := by
  rw [leader, leader, List.find?_append]
  cases keys.find? (same · key) with
  | some k => rfl
  | none => simp [hrefl]

include hrefl in
/-- A key agrees with its leader. -/
theorem same_leader (keys : List κ) (key : κ) : same (leader same keys key) key = true := by
  unfold leader
  cases hfound : keys.find? (same · key) with
  | none => exact hrefl key
  | some k =>
    have hk := List.find?_some hfound
    exact hk

include hrefl htrans in
/-- **What a row covers is covered under the key of its leader**, and nothing else is. -/
theorem covers_mergeRows {covers : ρ → α → Prop}
    (hmerge : ∀ r s a, covers (merge r s) a ↔ covers r a ∨ covers s a) (rows : List (κ × ρ))
    (key : κ) (a : α) :
    (∃ g ∈ mergeRows same merge rows, g.1 = key ∧ covers g.2 a) ↔
      ∃ row ∈ rows, leader same (rows.map (·.1)) row.1 = key ∧ covers row.2 a := by
  induction rows using List.reverseRecOn with
  | nil => simp [mergeRows]
  | append_singleton rows row ih =>
    have hlead : leader same ((mergeRows same merge rows).map (·.1)) row.1 =
        leader same (rows.map (·.1)) row.1 := by
      rw [leader, find?_mergeRows htrans, leader]
    rw [mergeRows_concat, covers_insertRow hmerge, ih, hlead]
    simp only [List.map_append, List.map_singleton, List.mem_append, List.mem_singleton, or_and_right,
      exists_or, exists_eq_left, leader_concat_self hrefl]
    refine or_congr_left (exists_congr fun s => and_congr_right fun hs => ?_)
    rw [leader_append hrefl (List.mem_map_of_mem hs)]

end Leader

end MergeByKey
