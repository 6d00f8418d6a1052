import Mathlib.Data.List.Basic

/-!
# Texts cut into pieces

A cut text is the list of its pieces.  Two cut texts that stand next to each other are one
cut text whose middle piece is made of the last and the first piece; the same holds one level
up, for texts that are cut twice.

* `joinEnds` — joins two lists at their ends, and `joinEnds_assoc`.
* `Filled`, `glueAll_empty` — the empty text is a unit for texts that are cut twice.
* `consHead` — one more element at the front.
* `flatten_chunks` — nothing is lost or repeated.
* `length_chunks_le` — `k` pieces are enough for `k` times `size` elements.
* `length_le_mul_countP` — how many pieces a list needs whose classes are cut for themselves.
-/

namespace ListCut

variable {α β : Type*}

/-- Joins the last entry of a list with the first one of another. -/
def joinEnds (op : β → β → β) : List β → List β → List β
  | [], ys => ys
  | [x], [] => [x]
  | [x], y :: ys => op x y :: ys
  | x :: x' :: xs, ys => x :: joinEnds op (x' :: xs) ys

/-- Two cut texts next to each other. -/
def glue (xs ys : List (List α)) : List (List α) := joinEnds (· ++ ·) xs ys

/-- Two texts next to each other that are cut twice. -/
def glueAll (xs ys : List (List (List α))) : List (List (List α)) := joinEnds glue xs ys

/-- Puts an element in front of the first piece. -/
def consHead (a : α) : List (List α) → List (List α)
  | [] => [[a]]
  | piece :: pieces => (a :: piece) :: pieces

@[simp] theorem joinEnds_nil_left (op : β → β → β) (ys : List β) : joinEnds op [] ys = ys := by
  rw [joinEnds]

@[simp] theorem joinEnds_nil_right (op : β → β → β) (xs : List β) : joinEnds op xs [] = xs := by
  induction xs with
  | nil => rfl
  | cons x xs ih =>
    cases xs with
    | nil => rfl
    | cons x' xs => rw [joinEnds, ih]

theorem joinEnds_cons {op : β → β → β} (x : β) {xs : List β} (hxs : xs ≠ []) (ys : List β) :
    joinEnds op (x :: xs) ys = x :: joinEnds op xs ys := by
  cases xs with
  | nil => exact absurd rfl hxs
  | cons x' xs => rw [joinEnds]

@[simp] theorem joinEnds_singleton (op : β → β → β) (x y : β) (ys : List β) :
    joinEnds op [x] (y :: ys) = op x y :: ys := by
  rw [joinEnds]

theorem joinEnds_ne_nil {op : β → β → β} {xs : List β} (hxs : xs ≠ []) (ys : List β) :
    joinEnds op xs ys ≠ [] := by
  cases xs with
  | nil => exact absurd rfl hxs
  | cons x xs =>
    by_cases h : xs = []
    · subst h
      cases ys <;> simp [joinEnds]
    · rw [joinEnds_cons x h]
      simp

/-- Joining is associative when the entries are. -/
theorem joinEnds_assoc {op : β → β → β} (hop : ∀ a b c, op (op a b) c = op a (op b c))
    (xs ys zs : List β) :
    joinEnds op (joinEnds op xs ys) zs = joinEnds op xs (joinEnds op ys zs) := by
  induction xs with
  | nil => simp
  | cons x xs ih =>
    by_cases h : xs = []
    · subst h
      match ys, zs with
      | [], zs => simp
      | [y], [] => simp
      | [y], z :: zs => simp [hop]
      | y :: y' :: ys, zs =>
        rw [joinEnds_singleton, joinEnds_cons y (List.cons_ne_nil y' ys), joinEnds_singleton,
          joinEnds_cons (op x y) (List.cons_ne_nil y' ys)]
    · rw [joinEnds_cons x h, joinEnds_cons x h, joinEnds_cons x (joinEnds_ne_nil h ys), ih]

/-- An entry that changes nothing is a unit at the end. -/
theorem joinEnds_unit {op : β → β → β} {e : β} {xs : List β} (hxs : xs ≠ [])
    (he : ∀ x ∈ xs, op x e = x) : joinEnds op xs [e] = xs := by
  induction xs with
  | nil => exact absurd rfl hxs
  | cons x xs ih =>
    by_cases h : xs = []
    · subst h
      rw [joinEnds_singleton, he x List.mem_cons_self]
    · rw [joinEnds_cons x h, ih h fun y hy => he y (List.mem_cons_of_mem _ hy)]

theorem mem_joinEnds {op : β → β → β} {xs ys : List β} {z : β} (h : z ∈ joinEnds op xs ys) :
    z ∈ xs ∨ z ∈ ys ∨ ∃ x ∈ xs, ∃ y ∈ ys, z = op x y := by
  induction xs with
  | nil => exact .inr (.inl (by simpa using h))
  | cons x xs ih =>
    by_cases hxs : xs = []
    · subst hxs
      cases ys with
      | nil => exact .inl (by simpa using h)
      | cons y ys =>
        rw [joinEnds_singleton] at h
        rcases List.mem_cons.1 h with h | h
        · exact .inr (.inr ⟨x, List.mem_cons_self, y, List.mem_cons_self, h⟩)
        · exact .inr (.inl (List.mem_cons_of_mem _ h))
    · rw [joinEnds_cons x hxs] at h
      rcases List.mem_cons.1 h with h | h
      · exact .inl (h ▸ List.mem_cons_self)
      · rcases ih h with h | h | ⟨x', hx', h⟩
        · exact .inl (List.mem_cons_of_mem _ h)
        · exact .inr (.inl h)
        · exact .inr (.inr ⟨x', List.mem_cons_of_mem _ hx', h⟩)

theorem glue_assoc (xs ys zs : List (List α)) : glue (glue xs ys) zs = glue xs (glue ys zs) :=
  joinEnds_assoc List.append_assoc xs ys zs

theorem glueAll_assoc (xs ys zs : List (List (List α))) :
    glueAll (glueAll xs ys) zs = glueAll xs (glueAll ys zs) :=
  joinEnds_assoc glue_assoc xs ys zs

/-- A text that is cut twice has a piece everywhere. -/
structure Filled (xs : List (List (List α))) : Prop where
  ne_nil : xs ≠ []
  parts : ∀ x ∈ xs, x ≠ []

theorem Filled.glueAll {xs ys : List (List (List α))} (hx : Filled xs) (hy : Filled ys) :
    Filled (glueAll xs ys) := by
  refine ⟨joinEnds_ne_nil hx.ne_nil ys, fun z hz => ?_⟩
  rcases mem_joinEnds hz with h | h | ⟨x, hxm, y, -, rfl⟩
  · exact hx.parts z h
  · exact hy.parts z h
  · exact joinEnds_ne_nil (hx.parts x hxm) y

/-- The empty text changes nothing at the end. -/
theorem glueAll_empty {xs : List (List (List α))} (h : Filled xs) : ListCut.glueAll xs [[[]]] = xs :=
  joinEnds_unit h.ne_nil fun x hx => joinEnds_unit (h.parts x hx) fun p _ => List.append_nil p

theorem consHead_eq_glue (a : α) (xs : List (List α)) : consHead a xs = glue [[a]] xs := by
  cases xs <;> rfl

end ListCut

/-!
## Cutting a list into chunks

`chunks size l` cuts a list into pieces of `size` elements; the last piece may be shorter.
Joined again the pieces give the list.
-/

namespace ListCut

variable {α : Type*}

theorem flatten_flatMap {β : Type*} (l : List α) (f : α → List (List β)) :
    (l.flatMap f).flatten = l.flatMap fun a => (f a).flatten := by
  induction l with
  | nil => rfl
  | cons a l ih => simp [ih]

/-- The chunks of a list, at most `fuel` of them. -/
def chunksUpTo (size : ℕ) : ℕ → List α → List (List α)
  | 0, _ => []
  | fuel + 1, l => if l.isEmpty then [] else l.take size :: chunksUpTo size fuel (l.drop size)

/-- The chunks of a list; a size of zero counts as one. -/
def chunks (size : ℕ) (l : List α) : List (List α) := chunksUpTo (max 1 size) l.length l

theorem flatten_chunksUpTo {size : ℕ} (hs : 0 < size) :
    ∀ (fuel : ℕ) (l : List α), l.length ≤ fuel → (chunksUpTo size fuel l).flatten = l
  | 0, l, h => by simpa [chunksUpTo, eq_comm] using h
  | fuel + 1, [], _ => by simp [chunksUpTo]
  | fuel + 1, a :: l, h => by
      have hl : ((a :: l).drop size).length ≤ fuel := by
        rw [List.length_drop]
        simp only [List.length_cons] at h ⊢
        omega
      rw [chunksUpTo, if_neg (by simp), List.flatten_cons, flatten_chunksUpTo hs fuel _ hl,
        List.take_append_drop]

/-- Nothing is lost or repeated. -/
theorem flatten_chunks (size : ℕ) (l : List α) : (chunks size l).flatten = l :=
  flatten_chunksUpTo (by omega) _ l (Nat.le_refl _)

/-! ## How many chunks -/

theorem length_chunksUpTo_le {size : ℕ} (hs : 0 < size) :
    ∀ (fuel k : ℕ) (l : List α), l.length ≤ size * k → (chunksUpTo size fuel l).length ≤ k
  | 0, _, _, _ => Nat.zero_le _
  | fuel + 1, k, l, h => by
      rw [chunksUpTo]
      split_ifs with hl
      · exact Nat.zero_le k
      · cases k with
        | zero => simp_all
        | succ k =>
          have hdrop : (l.drop size).length ≤ size * k := by
            rw [List.length_drop]
            rw [Nat.mul_succ] at h
            omega
          have := length_chunksUpTo_le hs fuel k (l.drop size) hdrop
          rw [List.length_cons]
          omega

/-- A list of at most `k` times the size needs at most `k` chunks. -/
theorem length_chunks_le {size k : ℕ} (hs : 0 < size) {l : List α} (h : l.length ≤ size * k) :
    (chunks size l).length ≤ k := by
  rw [chunks, Nat.max_eq_right hs]
  exact length_chunksUpTo_le hs _ k l h

section Classes

variable {κ : Type*} [DecidableEq κ] (cls : α → κ)

/-- The elements of one class, and those of the others. -/
theorem countP_eq_class_add (p : α → Bool) (c : κ) (l : List α) :
    l.countP p = l.countP (fun x => cls x = c && p x) +
      (l.filter (fun x => cls x ≠ c)).countP p := by
  rw [List.countP_filter, List.countP_eq_countP_filter_add l p (fun x => cls x = c),
    List.countP_filter, List.countP_filter]
  congr 1
  · exact List.countP_congr fun x _ => by simp [and_comm]
  · exact List.countP_congr fun x _ => by simp

/-- Without one class the others stay as they are. -/
theorem countP_filter_ne (p : α → Bool) {c c' : κ} (h : c' ≠ c) (l : List α) :
    (l.filter (fun x => cls x ≠ c)).countP (fun x => cls x = c' && p x) =
      l.countP (fun x => cls x = c' && p x) := by
  rw [List.countP_filter]
  refine List.countP_congr fun x _ => ?_
  simp only [Bool.and_eq_true, decide_eq_true_eq]
  exact ⟨fun hx => hx.1, fun hx => ⟨hx, hx.1 ▸ h⟩⟩

theorem countP_filter_ne_self (p : α → Bool) (c : κ) (l : List α) :
    (l.filter (fun x => cls x ≠ c)).countP (fun x => cls x = c && p x) = 0 := by
  refine List.countP_eq_zero.2 fun x hx => ?_
  have hne : cls x ≠ c := by simpa using (List.mem_filter.1 hx).2
  simp [hne]

/-- When the marked elements of every class suffice for the class, at `size` elements each, all
marked elements suffice for the list. -/
theorem length_le_mul_countP (marked : α → Bool) (size : ℕ) (l : List α)
    (h : ∀ c, l.countP (fun a => cls a = c) ≤
      size * l.countP (fun a => cls a = c && marked a)) :
    l.length ≤ size * l.countP marked := by
  induction hn : l.length using Nat.strongRecOn generalizing l with
  | ind n ih =>
    subst hn
    cases l with
    | nil => exact Nat.zero_le _
    | cons a t =>
      -- the class of the first element is counted for itself
      have hless : ((a :: t).filter (fun x => cls x ≠ cls a)).length < (a :: t).length :=
        List.length_filter_lt_length_iff_exists.2 ⟨a, List.mem_cons_self, by simp⟩
      have hrest := ih _ hless ((a :: t).filter (fun x => cls x ≠ cls a)) (fun c => by
        have htrue : ∀ l : List α, l.countP (fun x => cls x = c) =
            l.countP (fun x => cls x = c && true) := fun l => by simp
        by_cases hc : c = cls a
        · subst hc
          rw [htrue, countP_filter_ne_self]
          exact Nat.zero_le _
        · rw [htrue, countP_filter_ne cls _ hc, countP_filter_ne cls _ hc, ← htrue]
          exact h c) rfl
      have hlen := countP_eq_class_add cls (fun _ => true) (cls a) (a :: t)
      have hfirst := h (cls a)
      simp only [Bool.and_true, List.countP_true] at hlen
      rw [countP_eq_class_add cls marked (cls a), Nat.mul_add, hlen]
      exact Nat.add_le_add hfirst hrest

end Classes

end ListCut
