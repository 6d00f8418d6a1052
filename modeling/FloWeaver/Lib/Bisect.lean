import Mathlib.Data.List.Basic
import Mathlib.Order.Lattice

/-!
# Scanning a sorted list of intervals

To find the intervals that meet a window, a list sorted by left ends is cut by bisection, and
the cut is walked back over the intervals that still reach the window.

* `bisectLeft`, `bisectRight` — the insertion points of a value in a sorted list.
* `lt_bisectLeft_iff`, `lt_bisectRight_iff` — the places below them.
* `walkBack` — the walk, which stops at the first interval that does not reach the window.
* `lt_walkBack_iff` — what it leaves behind: everything before an interval that falls short.
-/

section Bisect

variable {κ : Type*} [LinearOrder κ]

/-- The leftmost insertion point of a value in a sorted list. -/
def bisectLeft (xs : List κ) (x : κ) : ℕ := (xs.takeWhile (· < x)).length

/-- The rightmost insertion point of a value in a sorted list. -/
def bisectRight (xs : List κ) (x : κ) : ℕ := (xs.takeWhile (· ≤ x)).length

end Bisect

section Prefix

variable {α : Type*}

/-- A test that holds of everything before an element it holds of cuts the list at a place. -/
theorem lt_length_takeWhile_iff {p : α → Bool} {l : List α}
    (h : l.Pairwise fun a b => p b = true → p a = true) {i : ℕ} (hi : i < l.length) :
    i < (l.takeWhile p).length ↔ p l[i] = true := by
  induction l generalizing i with
  | nil => cases hi
  | cons a rest ih =>
    obtain ⟨hhead, hrest⟩ := List.pairwise_cons.1 h
    by_cases ha : p a = true
    · cases i with
      | zero => simp [ha]
      | succ i =>
        rw [List.takeWhile_cons_of_pos ha]
        simpa using ih hrest (Nat.lt_of_succ_lt_succ hi)
    · have hall : ¬ p (a :: rest)[i] = true := by
        cases i with
        | zero => exact ha
        | succ i => exact fun hp => ha (hhead _ (List.getElem_mem _) hp)
      simp [ha, hall]

theorem length_takeWhile_le (p : α → Bool) (l : List α) : (l.takeWhile p).length ≤ l.length :=
  (List.takeWhile_sublist p).length_le

end Prefix

section Sorted

variable {κ : Type*} [LinearOrder κ] {xs : List κ}

theorem lt_bisectLeft_iff (h : xs.Pairwise (· ≤ ·)) (x : κ) {i : ℕ} (hi : i < xs.length) :
    i < bisectLeft xs x ↔ xs[i] < x := by
  refine (lt_length_takeWhile_iff (h.imp fun {a b} hab => ?_) hi).trans (by simp)
  simpa using lt_of_le_of_lt hab

theorem lt_bisectRight_iff (h : xs.Pairwise (· ≤ ·)) (x : κ) {i : ℕ} (hi : i < xs.length) :
    i < bisectRight xs x ↔ xs[i] ≤ x := by
  refine (lt_length_takeWhile_iff (h.imp fun {a b} hab => ?_) hi).trans (by simp)
  simpa using le_trans hab

theorem bisectLeft_le_length (xs : List κ) (x : κ) : bisectLeft xs x ≤ xs.length :=
  length_takeWhile_le _ xs

end Sorted

/-! ## The walk back -/

section WalkBack

variable {α : Type*}

/-- The walk from a place towards the front, over the elements that reach. -/
def walkBack (l : List α) (reaches : α → Bool) : ℕ → ℕ
  | 0 => 0
  | place + 1 =>
    match l[place]? with
    | some a => if reaches a then walkBack l reaches place else place + 1
    | none => place + 1

/-- A place is left behind when something from it on, before the start, does not reach. -/
theorem lt_walkBack_iff {l : List α} {reaches : α → Bool} {place i : ℕ}
    (hplace : place ≤ l.length) :
    i < walkBack l reaches place ↔
      ∃ j a, i ≤ j ∧ j < place ∧ l[j]? = some a ∧ reaches a = false := by
  induction place with
  | zero => simp [walkBack]
  | succ place ih =>
    have hget : l[place]? = some l[place] := List.getElem?_eq_getElem hplace
    rw [walkBack, hget]
    dsimp only
    split_ifs with hreach
    · rw [ih (Nat.le_of_succ_le hplace)]
      constructor
      · rintro ⟨j, a, hij, hj, ha, hfalse⟩
        exact ⟨j, a, hij, Nat.lt_succ_of_lt hj, ha, hfalse⟩
      · rintro ⟨j, a, hij, hj, ha, hfalse⟩
        rcases Nat.lt_succ_iff_lt_or_eq.1 hj with hj | rfl
        · exact ⟨j, a, hij, hj, ha, hfalse⟩
        · obtain rfl := Option.some.inj (hget.symm.trans ha)
          rw [hreach] at hfalse
          cases hfalse
    · constructor
      · intro hi
        exact ⟨place, _, Nat.lt_succ_iff.1 hi, Nat.lt_succ_self _, hget, by simpa using hreach⟩
      · rintro ⟨j, a, hij, hj, -, -⟩
        exact Nat.lt_of_le_of_lt hij hj

end WalkBack
