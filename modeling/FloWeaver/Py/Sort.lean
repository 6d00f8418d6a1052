import Mathlib.Data.List.Sort
import Mathlib.Data.Prod.Lex

/-!
# Sorting by a key

`sorted(xs, key=f)` is stable; so is insertion sort.  Keys are tuples, compared from the left.
-/

namespace FloWeaver.Py

variable {α κ : Type}

/-- `sorted(l, key=key)`. -/
def sortedBy [LinearOrder κ] (key : α → κ) (l : List α) : List α :=
  l.insertionSort fun a b => key a ≤ key b

/-- `sorted(l, key=key, reverse=True)`, which keeps the order of equal keys. -/
def sortedByDesc [LinearOrder κ] (key : α → κ) (l : List α) : List α :=
  l.insertionSort fun a b => key b ≤ key a

/-- `max(l, key=key)`, the first one of several. -/
def firstMaxBy [LinearOrder κ] (key : α → κ) : List α → Option α
  | [] => none
  | x :: xs => some (xs.foldl (fun best a => if key best < key a then a else best) x)

/-- `min(l, key=key)`, the first one of several. -/
def firstMinBy [LinearOrder κ] (key : α → κ) : List α → Option α
  | [] => none
  | x :: xs => some (xs.foldl (fun best a => if key a < key best then a else best) x)

/-- `l[:n]`; a negative bound counts from the end. -/
def sliceTo (n : ℤ) (l : List α) : List α :=
  if 0 ≤ n then l.take n.toNat else l.take (l.length - n.natAbs)

/-- The smallest value of a list, or a default for the empty list. -/
def minOr [Min α] (default : α) : List α → α
  | [] => default
  | x :: xs => xs.foldl min x

theorem nodup_eraseDups [BEq α] [LawfulBEq α] : ∀ l : List α, l.eraseDups.Nodup
  | [] => by simp
  | a :: l => by
      rw [List.eraseDups_cons, List.nodup_cons]
      exact ⟨by simp, nodup_eraseDups _⟩
termination_by l => l.length
decreasing_by exact Nat.lt_succ_of_le (List.length_filter_le _ _)

theorem sortedBy_perm [LinearOrder κ] (key : α → κ) (l : List α) : (sortedBy key l).Perm l :=
  List.perm_insertionSort _ _

@[simp] theorem mem_sortedBy [LinearOrder κ] {key : α → κ} {l : List α} {a : α} :
    a ∈ sortedBy key l ↔ a ∈ l :=
  (sortedBy_perm key l).mem_iff

theorem sortedByDesc_perm [LinearOrder κ] (key : α → κ) (l : List α) :
    (sortedByDesc key l).Perm l :=
  List.perm_insertionSort _ _

@[simp] theorem mem_sortedByDesc [LinearOrder κ] {key : α → κ} {l : List α} {a : α} :
    a ∈ sortedByDesc key l ↔ a ∈ l :=
  (sortedByDesc_perm key l).mem_iff

theorem sliceTo_sublist (n : ℤ) (l : List α) : (sliceTo n l).Sublist l := by
  rw [sliceTo]
  split_ifs
  · exact List.take_sublist _ _
  · exact List.take_sublist _ _

theorem mem_of_foldl_max [LinearOrder κ] (key : α → κ) (xs : List α) (x : α) :
    xs.foldl (fun best a => if key best < key a then a else best) x ∈ x :: xs := by
  induction xs generalizing x with
  | nil => exact List.mem_cons_self
  | cons y ys ih =>
    rw [List.foldl_cons]
    split_ifs
    · exact List.mem_cons_of_mem _ (ih y)
    · rcases List.mem_cons.1 (ih x) with h | h
      · rw [h]
        exact List.mem_cons_self
      · exact List.mem_cons_of_mem _ (List.mem_cons_of_mem _ h)

theorem mem_of_firstMaxBy [LinearOrder κ] {key : α → κ} {l : List α} {a : α}
    (h : firstMaxBy key l = some a) : a ∈ l := by
  cases l with
  | nil => cases h
  | cons x xs =>
    obtain rfl := Option.some.inj h
    exact mem_of_foldl_max key xs x

theorem mem_of_foldl_min [LinearOrder κ] (key : α → κ) (xs : List α) (x : α) :
    xs.foldl (fun best a => if key a < key best then a else best) x ∈ x :: xs := by
  induction xs generalizing x with
  | nil => exact List.mem_cons_self
  | cons y ys ih =>
    rw [List.foldl_cons]
    split_ifs
    · exact List.mem_cons_of_mem _ (ih y)
    · rcases List.mem_cons.1 (ih x) with h | h
      · rw [h]
        exact List.mem_cons_self
      · exact List.mem_cons_of_mem _ (List.mem_cons_of_mem _ h)

theorem mem_of_firstMinBy [LinearOrder κ] {key : α → κ} {l : List α} {a : α}
    (h : firstMinBy key l = some a) : a ∈ l := by
  cases l with
  | nil => cases h
  | cons x xs =>
    obtain rfl := Option.some.inj h
    exact mem_of_foldl_min key xs x

/-- The first least element has the least key. -/
theorem foldl_min_le [LinearOrder κ] (key : α → κ) (xs : List α) (x : α) :
    ∀ a ∈ x :: xs, key (xs.foldl (fun best a => if key a < key best then a else best) x) ≤ key a := by
  induction xs generalizing x with
  | nil =>
    intro a ha
    rw [List.mem_singleton.1 ha]
    rfl
  | cons y ys ih =>
    intro a ha
    rw [List.foldl_cons]
    split_ifs with h
    · rcases List.mem_cons.1 ha with rfl | ha
      · exact (ih y y List.mem_cons_self).trans h.le
      · exact ih y a ha
    · rcases List.mem_cons.1 ha with rfl | ha
      · exact ih a a List.mem_cons_self
      · rcases List.mem_cons.1 ha with rfl | ha
        · exact (ih x x List.mem_cons_self).trans (not_lt.1 h)
        · exact ih x a (List.mem_cons_of_mem _ ha)

theorem firstMinBy_le [LinearOrder κ] {key : α → κ} {l : List α} {a b : α}
    (h : firstMinBy key l = some a) (hb : b ∈ l) : key a ≤ key b := by
  cases l with
  | nil => cases h
  | cons x xs =>
    obtain rfl := Option.some.inj h
    exact foldl_min_le key xs x b hb

/-- A maximum is a minimum in the dual order. -/
theorem le_firstMaxBy [LinearOrder κ] {key : α → κ} {l : List α} {a b : α}
    (h : firstMaxBy key l = some a) (hb : b ∈ l) : key b ≤ key a := by
  have hmin : firstMinBy (fun a => OrderDual.toDual (key a)) l = some a := h
  have hle := firstMinBy_le hmin hb
  exact OrderDual.toDual_le_toDual.1 hle

theorem exists_firstMaxBy [LinearOrder κ] (key : α → κ) {l : List α} (h : l ≠ []) :
    ∃ a, firstMaxBy key l = some a := by
  cases l with
  | nil => exact absurd rfl h
  | cons x xs => exact ⟨_, rfl⟩

theorem exists_firstMinBy [LinearOrder κ] (key : α → κ) {l : List α} (h : l ≠ []) :
    ∃ a, firstMinBy key l = some a := by
  cases l with
  | nil => exact absurd rfl h
  | cons x xs => exact ⟨_, rfl⟩

/-- The first greatest elements of two lists of the same elements have the same key. -/
theorem firstMaxBy_perm [LinearOrder κ] {key : α → κ} {l m : List α} (h : l.Perm m) {a : α}
    (ha : firstMaxBy key l = some a) : ∃ b, firstMaxBy key m = some b ∧ key a = key b := by
  have hm : m ≠ [] := by
    rintro rfl
    rw [h.eq_nil] at ha
    cases ha
  obtain ⟨b, hb⟩ := exists_firstMaxBy key hm
  exact ⟨b, hb, le_antisymm (le_firstMaxBy hb (h.mem_iff.1 (mem_of_firstMaxBy ha)))
    (le_firstMaxBy ha (h.mem_iff.2 (mem_of_firstMaxBy hb)))⟩

theorem foldl_min_map [LinearOrder κ] {β : Type} (g : α → β) (key : β → κ) (xs : List α) (x : α) :
    g (xs.foldl (fun best a => if key (g a) < key (g best) then a else best) x) =
      (xs.map g).foldl (fun best b => if key b < key best then b else best) (g x) := by
  induction xs generalizing x with
  | nil => rfl
  | cons y ys ih =>
    rw [List.foldl_cons, List.map_cons, List.foldl_cons, ih]
    split_ifs <;> rfl

theorem firstMinBy_map [LinearOrder κ] {β : Type} (g : α → β) (key : β → κ) (l : List α) :
    (firstMinBy (fun a => key (g a)) l).map g = firstMinBy key (l.map g) := by
  cases l with
  | nil => rfl
  | cons x xs => exact congrArg some (foldl_min_map g key xs x)

theorem pairwise_sortedBy [LinearOrder κ] (key : α → κ) (l : List α) :
    (sortedBy key l).Pairwise fun a b => key a ≤ key b := by
  have : Std.Total fun a b : α => key a ≤ key b := ⟨fun a b => le_total (key a) (key b)⟩
  have : IsTrans α fun a b => key a ≤ key b := ⟨fun _ _ _ h h' => le_trans h h'⟩
  exact List.pairwise_insertionSort _ l

/-- A list that is sorted already stays as it is. -/
theorem sortedBy_of_pairwise [LinearOrder κ] {key : α → κ} {l : List α}
    (h : l.Pairwise fun a b => key a ≤ key b) : sortedBy key l = l :=
  List.Pairwise.insertionSort_eq h

/-- When no two elements have the same key, the order in which they are listed does not matter. -/
theorem sortedBy_eq_of_perm [LinearOrder κ] {key : α → κ} {l m : List α} (h : l.Perm m)
    (hkey : ∀ a ∈ l, ∀ b ∈ l, key a = key b → a = b) : sortedBy key l = sortedBy key m := by
  refine List.Perm.eq_of_pairwise (fun a b ha hb hab hba => ?_) (pairwise_sortedBy key l)
    (pairwise_sortedBy key m) ((sortedBy_perm key l).trans (h.trans (sortedBy_perm key m).symm))
  exact hkey a (mem_sortedBy.1 ha) b (h.mem_iff.2 (mem_sortedBy.1 hb)) (le_antisymm hab hba)

theorem firstMinBy_eq_of_perm [LinearOrder κ] {key : α → κ} {l m : List α} (h : l.Perm m)
    (hkey : ∀ a ∈ l, ∀ b ∈ l, key a = key b → a = b) : firstMinBy key l = firstMinBy key m := by
  by_cases hl : l = []
  · subst hl
    rw [h.nil_eq]
  · obtain ⟨a, ha⟩ := exists_firstMinBy key hl
    have hm : m ≠ [] := by
      rintro rfl
      exact hl h.eq_nil
    obtain ⟨b, hb⟩ := exists_firstMinBy key hm
    have hbl := h.mem_iff.2 (mem_of_firstMinBy hb)
    have hab := le_antisymm (firstMinBy_le ha hbl)
      (firstMinBy_le hb (h.mem_iff.1 (mem_of_firstMinBy ha)))
    rw [ha, hb, hkey a (mem_of_firstMinBy ha) b hbl hab]

/-- The first element of a sorted list is smaller than all before it, and not larger than any after
it. -/
theorem head?_sortedBy_iff [LinearOrder κ] (key : α → κ) {l : List α} {a : α} :
    (sortedBy key l).head? = some a ↔ ∃ pre post, l = pre ++ a :: post ∧
      (∀ b ∈ pre, key a < key b) ∧ ∀ b ∈ post, key a ≤ key b := by
  induction l generalizing a with
  | nil => simp [sortedBy]
  | cons x xs ih =>
    have hcons : sortedBy key (x :: xs) =
        (sortedBy key xs).orderedInsert (fun a b => key a ≤ key b) x := rfl
    rw [hcons]
    cases hxs : sortedBy key xs with
    | nil =>
      obtain rfl : xs = [] := (sortedBy_perm key xs).symm.trans (by rw [hxs]) |>.eq_nil
      simp only [List.orderedInsert_nil, List.head?_cons, Option.some.injEq]
      constructor
      · rintro rfl
        exact ⟨[], [], rfl, by simp, by simp⟩
      · rintro ⟨pre, post, he, -, -⟩
        cases pre with
        | nil => exact (List.cons.inj he).1
        | cons _ pre => simp at he
    | cons y ys =>
      have hy : (sortedBy key xs).head? = some y := by rw [hxs]; rfl
      obtain ⟨pre, post, hsplit, hpre, hpost⟩ := ih.1 hy
      have hle : ∀ b ∈ xs, key y ≤ key b := by
        intro b hb
        rw [hsplit, List.mem_append, List.mem_cons] at hb
        rcases hb with hb | rfl | hb
        · exact (hpre b hb).le
        · exact le_rfl
        · exact hpost b hb
      have hmem : y ∈ xs := hsplit ▸ List.mem_append_right _ List.mem_cons_self
      rw [List.orderedInsert]
      split_ifs with hxy
      · rw [List.head?_cons, Option.some.injEq]
        constructor
        · rintro rfl
          exact ⟨[], xs, rfl, by simp, fun b hb => le_trans hxy (hle b hb)⟩
        · rintro ⟨pre', post', he, hpre', -⟩
          cases pre' with
          | nil => exact (List.cons.inj he).1
          | cons p pre' =>
            obtain ⟨rfl, rfl⟩ := List.cons.inj he
            exact absurd (hpre' x List.mem_cons_self)
              (not_lt.2 (le_trans hxy (hle a (List.mem_append_right _ List.mem_cons_self))))
      · rw [List.head?_cons, Option.some.injEq]
        constructor
        · rintro rfl
          refine ⟨x :: pre, post, by rw [hsplit]; rfl, fun b hb => ?_, hpost⟩
          rcases List.mem_cons.1 hb with rfl | hb
          · exact not_le.1 hxy
          · exact hpre b hb
        · rintro ⟨pre', post', he, hpre', hpost'⟩
          cases pre' with
          | nil =>
            obtain ⟨rfl, rfl⟩ := List.cons.inj he
            exact absurd (hpost' y hmem) hxy
          | cons p pre' =>
            obtain ⟨rfl, rfl⟩ := List.cons.inj he
            have ha := ih.2 ⟨pre', post', rfl, fun b hb => hpre' b (List.mem_cons_of_mem _ hb),
              hpost'⟩
            exact Option.some.inj (hy.symm.trans ha)

end FloWeaver.Py
