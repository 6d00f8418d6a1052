import Mathlib.Data.List.TakeWhile
import Mathlib.Tactic.SplitIfs

/-!
# The matches of a pattern in a text

A pattern tells how much of a text it matches at the start, and nothing when it does not match; an
empty match is none.  The matches in a text are found from left to right and do not overlap.

* `findall` — the matches.
* `findall_map` — a map of the letters that a pattern does not notice maps the matches.
* `findall_append` — a letter that is in no match separates a text.
* `forall_mem_findall` — what holds of every match of the pattern.
* `runs`, `shape` — two runs around a separator, and a fixed number of letters.
-/

namespace Findall

variable {α : Type*}

/-- The matches after some letters that are skipped. -/
def findall (m : List α → ℕ) : ℕ → List α → List (List α)
  | _, [] => []
  | 0, c :: cs =>
      match m (c :: cs) with
      | 0 => findall m 0 cs
      | n + 1 => (c :: cs).take (n + 1) :: findall m n cs
  | skip + 1, _ :: cs => findall m skip cs

/-! ## Matches -/

section Matches

variable {m : List α → ℕ}

theorem findall_map {f : α → α} (h : ∀ cs, m (cs.map f) = m cs) (cs : List α) (skip : ℕ) :
    findall m skip (cs.map f) = (findall m skip cs).map (List.map f) := by
  induction cs generalizing skip with
  | nil => cases skip <;> rfl
  | cons c cs ih =>
    cases skip with
    | succ skip => exact ih skip
    | zero =>
      have hmatch : m (f c :: cs.map f) = m (c :: cs) := h (c :: cs)
      rw [List.map_cons, findall, findall, hmatch]
      cases m (c :: cs) with
      | zero => exact ih 0
      | succ n =>
        dsimp only
        rw [ih, List.map_cons, List.map_take, List.map_cons]

/-- A letter that ends every match separates the texts before and after it. -/
theorem findall_append {sep : α} (hsep : ∀ a b, m (a ++ sep :: b) = m a)
    (hlength : ∀ cs, m cs ≤ cs.length) (a b : List α) (skip : ℕ) (hskip : skip ≤ a.length) :
    findall m skip (a ++ sep :: b) = findall m skip a ++ findall m 0 b := by
  induction a generalizing skip with
  | nil =>
    obtain rfl : skip = 0 := Nat.le_zero.1 hskip
    have hnone : m (sep :: b) = 0 := Nat.le_zero.1 ((hsep [] b).trans_le (hlength []))
    have hskipped : findall m 0 (sep :: b) = findall m 0 b := by rw [findall, hnone]
    rw [List.nil_append, hskipped]
    rfl
  | cons c a ih =>
    cases skip with
    | succ skip => exact ih skip (Nat.le_of_succ_le_succ hskip)
    | zero =>
      have hmatch : m (c :: (a ++ sep :: b)) = m (c :: a) := hsep (c :: a) b
      have hle := hlength (c :: a)
      rw [List.cons_append, findall, findall, hmatch]
      cases hn : m (c :: a) with
      | zero => exact ih 0 (Nat.zero_le _)
      | succ n =>
        rw [hn] at hle
        have htake : (c :: (a ++ sep :: b)).take (n + 1) = (c :: a).take (n + 1) :=
          List.take_append_of_le_length hle
        dsimp only
        rw [ih n (Nat.le_of_succ_le_succ hle), htake, List.cons_append]

/-- Every match is what the pattern matches somewhere. -/
theorem forall_mem_findall {P : List α → Prop} (h : ∀ cs, m cs ≠ 0 → P (cs.take (m cs)))
    (cs : List α) (skip : ℕ) : ∀ token ∈ findall m skip cs, P token := by
  induction cs generalizing skip with
  | nil => cases skip <;> simp [findall]
  | cons c cs ih =>
    cases skip with
    | succ skip => exact ih skip
    | zero =>
      rw [findall]
      cases hn : m (c :: cs) with
      | zero => exact ih 0
      | succ n =>
        refine List.forall_mem_cons.2 ⟨?_, ih n⟩
        have htoken := h (c :: cs) (by rw [hn]; exact Nat.succ_ne_zero n)
        rwa [hn] at htoken

/-- A match is made of letters of the text. -/
theorem subset_of_mem_findall (cs : List α) (skip : ℕ) : ∀ token ∈ findall m skip cs, token ⊆ cs := by
  induction cs generalizing skip with
  | nil => cases skip <;> simp [findall]
  | cons c cs ih =>
    cases skip with
    | succ skip => exact fun token h => List.Subset.trans (ih skip token h) (List.subset_cons_self _ _)
    | zero =>
      rw [findall]
      cases m (c :: cs) with
      | zero => exact fun token h => List.Subset.trans (ih 0 token h) (List.subset_cons_self _ _)
      | succ n =>
        refine List.forall_mem_cons.2 ⟨List.take_subset _ _, fun token h => ?_⟩
        exact List.Subset.trans (ih n token h) (List.subset_cons_self _ _)

end Matches

/-! ## Two runs around a separator -/

section Runs

variable [DecidableEq α]

/-- A run of letters, a separator that is none of them, and a second run. -/
def runs (p : α → Bool) (sep : α) (q : α → Bool) (cs : List α) : ℕ :=
  match cs.dropWhile p with
  | [] => 0
  | c :: rest =>
      if cs.takeWhile p = [] ∨ c ≠ sep ∨ rest.takeWhile q = [] then 0
      else (cs.takeWhile p).length + 1 + (rest.takeWhile q).length

theorem runs_le_length (p : α → Bool) (sep : α) (q : α → Bool) (cs : List α) :
    runs p sep q cs ≤ cs.length := by
  have hcs := congrArg List.length (List.takeWhile_append_dropWhile (p := p) (l := cs))
  rw [runs]
  cases hdrop : cs.dropWhile p with
  | nil => exact Nat.zero_le _
  | cons c rest =>
    have hrest := (List.takeWhile_prefix q (l := rest)).length_le
    rw [hdrop, List.length_append, List.length_cons] at hcs
    dsimp only
    split_ifs
    · exact Nat.zero_le _
    · omega

/-- A match is made of letters of the runs and the separator. -/
theorem forall_mem_take_runs {P : α → Prop} {p q : α → Bool} {sep : α}
    (hp : ∀ c, p c = true → P c) (hsep : P sep) (hq : ∀ c, q c = true → P c) (cs : List α) :
    ∀ c ∈ cs.take (runs p sep q cs), P c := by
  have hcs := List.takeWhile_append_dropWhile (p := p) (l := cs)
  rw [runs]
  cases hdrop : cs.dropWhile p with
  | nil => simp
  | cons x rest =>
    dsimp only
    split_ifs with hnone
    · simp
    · rw [not_or, not_or, not_not] at hnone
      obtain ⟨-, rfl, -⟩ := hnone
      have hsplit : cs = (cs.takeWhile p ++ x :: rest.takeWhile q) ++ rest.dropWhile q := by
        rw [List.append_assoc, List.cons_append, List.takeWhile_append_dropWhile, ← hdrop, hcs]
      have hlength : (cs.takeWhile p ++ x :: rest.takeWhile q).length =
          (cs.takeWhile p).length + 1 + (rest.takeWhile q).length := by
        rw [List.length_append, List.length_cons]
        omega
      have htake : cs.take ((cs.takeWhile p).length + 1 + (rest.takeWhile q).length) =
          cs.takeWhile p ++ x :: rest.takeWhile q :=
        (congrArg (List.take _) hsplit).trans (List.take_left' hlength)
      rw [htake]
      intro c hc
      rcases List.mem_append.1 hc with hc | hc
      · exact hp c (List.mem_takeWhile_imp hc)
      · rcases List.mem_cons.1 hc with rfl | hc
        · exact hsep
        · exact hq c (List.mem_takeWhile_imp hc)

theorem runs_map {f : α → α} {p q : α → Bool} {sep : α} (hp : ∀ c, p (f c) = p c)
    (hq : ∀ c, q (f c) = q c) (hsep : ∀ c, f c = sep ↔ c = sep) (cs : List α) :
    runs p sep q (cs.map f) = runs p sep q cs := by
  have hp' : p ∘ f = p := funext hp
  have hq' : q ∘ f = q := funext hq
  rw [runs, runs, List.dropWhile_map, List.takeWhile_map, hp']
  cases cs.dropWhile p with
  | nil => rfl
  | cons c rest =>
    simp only [List.map_cons, List.takeWhile_map, hq', List.map_eq_nil_iff, List.length_map,
      ne_eq, hsep]

/-- A letter of neither run ends the match. -/
theorem runs_append {p q : α → Bool} {sep x : α} (hp : p x = false) (hq : q x = false)
    (hx : x ≠ sep) (a b : List α) : runs p sep q (a ++ x :: b) = runs p sep q a := by
  have hstop : ∀ (r : α → Bool), r x = false → ∀ l : List α,
      (l ++ x :: b).takeWhile r = l.takeWhile r ∧
        (l ++ x :: b).dropWhile r = l.dropWhile r ++ x :: b := by
    intro r hr l
    rw [List.takeWhile_append, List.dropWhile_append]
    by_cases hall : (l.takeWhile r).length = l.length
    · have hself : l.takeWhile r = l := (List.takeWhile_prefix r).eq_of_length hall
      have hdrop : l.dropWhile r = [] := by
        have hsplit := List.takeWhile_append_dropWhile (p := r) (l := l)
        rw [hself] at hsplit
        exact List.append_cancel_left (hsplit.trans (List.append_nil l).symm)
      simp [hself, hdrop, hr]
    · have hdrop : l.dropWhile r ≠ [] := by
        intro hnil
        have hsplit := List.takeWhile_append_dropWhile (p := r) (l := l)
        rw [hnil, List.append_nil] at hsplit
        exact hall (congrArg List.length hsplit)
      simp [hall, hdrop]
  obtain ⟨htake, hdrop⟩ := hstop p hp a
  rw [runs, runs, htake, hdrop]
  cases hrest : a.dropWhile p with
  | nil => simp [hx]
  | cons c rest =>
    rw [List.cons_append]
    dsimp only
    rw [(hstop q hq rest).1]

end Runs

/-! ## A fixed number of letters -/

section Shape

/-- The first letters are of the given kinds. -/
def fits : List (α → Bool) → List α → Bool
  | [], _ => true
  | _ :: _, [] => false
  | p :: ps, c :: cs => p c && fits ps cs

/-- A fixed number of letters of given kinds. -/
def shape (ps : List (α → Bool)) (cs : List α) : ℕ := if fits ps cs then ps.length else 0

theorem fits_map {f : α → α} {ps : List (α → Bool)} (h : ∀ p ∈ ps, ∀ c, p (f c) = p c)
    (cs : List α) : fits ps (cs.map f) = fits ps cs := by
  induction ps generalizing cs with
  | nil => rfl
  | cons p ps ih =>
    obtain ⟨hp, hps⟩ := List.forall_mem_cons.1 h
    cases cs with
    | nil => rfl
    | cons c cs => rw [List.map_cons, fits, fits, hp, ih hps]

theorem shape_map {f : α → α} {ps : List (α → Bool)} (h : ∀ p ∈ ps, ∀ c, p (f c) = p c)
    (cs : List α) : shape ps (cs.map f) = shape ps cs := by
  rw [shape, shape, fits_map h]

theorem length_le_of_fits {ps : List (α → Bool)} {cs : List α} (h : fits ps cs = true) :
    ps.length ≤ cs.length := by
  induction ps generalizing cs with
  | nil => exact Nat.zero_le _
  | cons p ps ih =>
    cases cs with
    | nil => cases h
    | cons c cs =>
      rw [fits, Bool.and_eq_true_iff] at h
      exact Nat.succ_le_succ (ih h.2)

theorem shape_le_length (ps : List (α → Bool)) (cs : List α) : shape ps cs ≤ cs.length := by
  rw [shape]
  split_ifs with h
  · exact length_le_of_fits h
  · exact Nat.zero_le _

/-- A letter of none of the kinds ends the match. -/
theorem fits_append {ps : List (α → Bool)} {x : α} (h : ∀ p ∈ ps, p x = false) (a b : List α) :
    fits ps (a ++ x :: b) = fits ps a := by
  induction ps generalizing a with
  | nil => rfl
  | cons p ps ih =>
    obtain ⟨hp, hps⟩ := List.forall_mem_cons.1 h
    cases a with
    | nil => rw [List.nil_append, fits, fits, hp, Bool.false_and]
    | cons c a => rw [List.cons_append, fits, fits, ih hps]

theorem shape_append {ps : List (α → Bool)} {x : α} (h : ∀ p ∈ ps, p x = false) (a b : List α) :
    shape ps (a ++ x :: b) = shape ps a := by
  rw [shape, shape, fits_append h]

/-- A kind that only one letter is of occurs in every match. -/
theorem mem_take_of_shape {ps : List (α → Bool)} {p : α → Bool} {x : α} (hp : p ∈ ps)
    (hx : ∀ c, p c = true → c = x) {cs : List α} (h : shape ps cs ≠ 0) :
    x ∈ cs.take (shape ps cs) := by
  have hfits : fits ps cs = true := by
    by_contra hfits
    rw [shape, if_neg hfits] at h
    exact h rfl
  rw [shape, if_pos hfits]
  clear h
  induction ps generalizing cs with
  | nil => cases hp
  | cons r ps ih =>
    cases cs with
    | nil => cases hfits
    | cons c cs =>
      rw [fits, Bool.and_eq_true_iff] at hfits
      rw [List.length_cons, List.take_succ_cons, List.mem_cons]
      rcases List.mem_cons.1 hp with rfl | hp
      · exact .inl (hx c hfits.1).symm
      · exact .inr (ih hp hfits.2)

end Shape

end Findall
