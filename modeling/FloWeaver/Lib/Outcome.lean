import Mathlib.Data.List.Forall2
import Mathlib.Data.List.Pairwise
import Mathlib.Data.List.Perm.Basic

/-!
# Two runs of a computation that may raise

Two computations have the same outcome up to a relation when both raise, or both return and the
results are related.  Which exception is raised does not count: it may depend on the order in which
the inputs are visited.

* `SameOutcome` — both raise, or both return related results.
* `SameOutcome.bind`, `SameOutcome.foldlM` — one after the other, and in a loop.
* `sameOutcome_mapM`, `sameOutcome_filterM` — on two lists with the same elements the results have
  the same elements.
* `Commutes` — two updates may be swapped, in any state.
* `foldl_swap_blocks` — so may two blocks.
* `foldl_flatten_perm` — and so may a list of blocks.
-/

variable {ε α β γ δ : Type}

/-- Both computations raise, or both return related results. -/
inductive SameOutcome (R : α → β → Prop) : Except ε α → Except ε β → Prop
  | returns {a : α} {b : β} (h : R a b) : SameOutcome R (.ok a) (.ok b)
  | raises (e e' : ε) : SameOutcome R (.error e) (.error e')

namespace SameOutcome

variable {R : α → β → Prop} {S : γ → δ → Prop} {x : Except ε α} {y : Except ε β}

theorem of_eq {x y : Except ε α} (h : x = y) : SameOutcome (· = ·) x y := by
  subst h
  cases x with
  | error e => exact raises e e
  | ok a => exact returns rfl

theorem mono {T : α → β → Prop} (h : SameOutcome R x y) (hRT : ∀ a b, R a b → T a b) :
    SameOutcome T x y := by
  cases h with
  | returns h => exact returns (hRT _ _ h)
  | raises e e' => exact raises e e'

/-- The results are those of the two computations. -/
theorem attach (h : SameOutcome R x y) :
    SameOutcome (fun a b => R a b ∧ x = .ok a ∧ y = .ok b) x y := by
  cases h with
  | returns h => exact returns ⟨h, rfl, rfl⟩
  | raises e e' => exact raises e e'

theorem symm (h : SameOutcome R x y) : SameOutcome (fun b a => R a b) y x := by
  cases h with
  | returns h => exact returns h
  | raises e e' => exact raises e' e

theorem trans {T : β → γ → Prop} {z : Except ε γ} (h : SameOutcome R x y)
    (h' : SameOutcome T y z) : SameOutcome (fun a c => ∃ b, R a b ∧ T b c) x z := by
  cases h with
  | returns h =>
    cases h' with
    | returns h' => exact returns ⟨_, h, h'⟩
  | raises e e' =>
    cases h' with
    | raises _ e'' => exact raises e e''

/-- One computation after the other. -/
theorem bind {f : α → Except ε γ} {g : β → Except ε δ} (h : SameOutcome R x y)
    (hfg : ∀ a b, R a b → SameOutcome S (f a) (g b)) : SameOutcome S (x >>= f) (y >>= g) := by
  cases h with
  | returns h => exact hfg _ _ h
  | raises e e' => exact raises e e'

/-- A loop over the same list. -/
theorem foldlM {step : α → γ → Except ε α} {step' : β → γ → Except ε β} {l : List γ}
    (h : ∀ c ∈ l, ∀ a b, R a b → SameOutcome R (step a c) (step' b c)) {a : α} {b : β}
    (hab : R a b) : SameOutcome R (l.foldlM step a) (l.foldlM step' b) := by
  induction l generalizing a b with
  | nil => exact returns hab
  | cons c l ih =>
    rw [List.foldlM_cons, List.foldlM_cons]
    exact (h c List.mem_cons_self a b hab).bind
      fun a' b' hab' => ih (fun d hd => h d (List.mem_cons_of_mem _ hd)) hab'

end SameOutcome

/-- A list of computations, each with the same outcome as its partner. -/
theorem sameOutcome_mapM_left {R : β → γ → Prop} {f : α → Except ε β} {g : α → Except ε γ}
    {l : List α} (h : ∀ a ∈ l, SameOutcome R (f a) (g a)) :
    SameOutcome (List.Forall₂ R) (l.mapM f) (l.mapM g) := by
  induction l with
  | nil => exact .returns .nil
  | cons a l ih =>
    rw [List.mapM_cons, List.mapM_cons]
    refine (h a List.mem_cons_self).bind fun b c hbc => ?_
    refine (ih fun c hc => h c (List.mem_cons_of_mem _ hc)).bind fun bs cs hall => ?_
    exact .returns (.cons hbc hall)

theorem mapM_perm (f : α → Except ε β) {l m : List α} (h : l.Perm m) :
    SameOutcome List.Perm (l.mapM f) (m.mapM f) := by
  induction h with
  | nil => exact .returns .nil
  | cons a _ ih =>
    rw [List.mapM_cons, List.mapM_cons]
    refine (SameOutcome.of_eq rfl).bind ?_
    rintro b _ rfl
    exact ih.bind fun bs cs hbc => .returns (hbc.cons b)
  | swap a b l =>
    simp only [List.mapM_cons]
    cases f a with
    | error e =>
      cases f b with
      | error e' => exact .raises e' e
      | ok c => exact .raises e e
    | ok c =>
      cases f b with
      | error e' => exact .raises e' e'
      | ok d =>
        cases l.mapM f with
        | error e => exact .raises e e
        | ok cs => exact .returns (.swap c d cs)
  | trans _ _ ih ih' =>
    exact (ih.trans ih').mono fun _ _ ⟨_, h, h'⟩ => h.trans h'

/-- On two lists with the same elements the results are the same, in some order. -/
theorem sameOutcome_mapM {f g : α → Except ε β} {l m : List α} (h : l.Perm m)
    (hfg : ∀ a ∈ l, SameOutcome (· = ·) (f a) (g a)) :
    SameOutcome List.Perm (l.mapM f) (m.mapM g) := by
  refine ((sameOutcome_mapM_left hfg).trans (mapM_perm g h)).mono ?_
  rintro bs cs ⟨_, hsame, hperm⟩
  rw [List.forall₂_eq_eq_eq] at hsame
  exact hsame ▸ hperm

/-- An element with the result of its test. -/
def tested (f : α → Except ε Bool) (a : α) : Except ε (α × Bool) := do return (a, ← f a)

theorem filterAuxM_eq_mapM (f : α → Except ε Bool) (l acc : List α) :
    l.filterAuxM f acc = do
      let rows ← l.mapM (tested f)
      return ((rows.filter (·.2)).map (·.1)).reverse ++ acc := by
  induction l generalizing acc with
  | nil => rfl
  | cons a l ih =>
    rw [List.filterAuxM, List.mapM_cons, tested]
    cases hf : f a with
    | error e => rfl
    | ok keep =>
      show l.filterAuxM f (bif keep then a :: acc else acc) = _
      rw [ih]
      cases l.mapM (tested f) with
      | error e => rfl
      | ok rows => cases keep <;> simp [bind, Except.bind, pure, Except.pure]

/-- A filter tests all elements and keeps those that pass. -/
theorem filterM_eq_mapM (f : α → Except ε Bool) (l : List α) :
    l.filterM f = do
      let rows ← l.mapM (tested f)
      return (rows.filter (·.2)).map (·.1) := by
  rw [List.filterM, filterAuxM_eq_mapM]
  cases l.mapM (tested f) with
  | error e => rfl
  | ok rows => simp [bind, Except.bind, pure, Except.pure]

/-- On two lists with the same elements a filter keeps the same ones. -/
theorem sameOutcome_filterM {f : α → Except ε Bool} {l m : List α} (h : l.Perm m) :
    SameOutcome List.Perm (l.filterM f) (m.filterM f) := by
  rw [filterM_eq_mapM, filterM_eq_mapM]
  exact (mapM_perm _ h).bind fun rows rows' hrows => .returns ((hrows.filter _).map _)

/-!
## Updates that commute

A state is updated by a list of updates, which come in blocks.  When any update of one block
commutes with any update of another, the blocks may be permuted, although the updates within a
block keep their order.
-/

variable {σ υ : Type} {f : σ → υ → σ}

/-- Two updates have the same effect in either order. -/
def Commutes (f : σ → υ → σ) (u v : υ) : Prop := ∀ x, f (f x u) v = f (f x v) u

namespace Commutes

variable {u v : υ}

theorem symm (h : Commutes f u v) : Commutes f v u := fun x => (h x).symm

/-- An update without effect commutes with any other. -/
theorem of_left_eq (h : ∀ x, f x u = x) : Commutes f u v := fun x => by rw [h, h]

theorem of_right_eq (h : ∀ x, f x v = x) : Commutes f u v := fun x => by rw [h, h]

end Commutes

/-- An update commutes with a block whose members it commutes with. -/
theorem foldl_swap_update {u : υ} {b : List υ} (h : ∀ v ∈ b, Commutes f u v) (x : σ) :
    b.foldl f (f x u) = f (b.foldl f x) u := by
  induction b generalizing x with
  | nil => rfl
  | cons v b ih =>
    rw [List.foldl_cons, List.foldl_cons, h v List.mem_cons_self,
      ih fun w hw => h w (List.mem_cons_of_mem v hw)]

/-- Two blocks may be swapped when their members commute. -/
theorem foldl_swap_blocks {b c : List υ} (h : ∀ u ∈ b, ∀ v ∈ c, Commutes f u v) (x : σ) :
    c.foldl f (b.foldl f x) = b.foldl f (c.foldl f x) := by
  induction b generalizing x with
  | nil => rfl
  | cons u b ih =>
    rw [List.foldl_cons, List.foldl_cons, ih fun w hw => h w (List.mem_cons_of_mem u hw),
      foldl_swap_update (h u List.mem_cons_self)]

/-- **Blocks whose members commute may be permuted.** -/
theorem foldl_flatten_perm {bs bs' : List (List υ)} (h : bs.Perm bs')
    (hc : bs.Pairwise fun b c => ∀ u ∈ b, ∀ v ∈ c, Commutes f u v) (x : σ) :
    bs.flatten.foldl f x = bs'.flatten.foldl f x := by
  have : Std.Symm fun b c : List υ => ∀ u ∈ b, ∀ v ∈ c, Commutes f u v :=
    ⟨fun b c hbc u hu v hv => (hbc v hv u hu).symm⟩
  rw [List.foldl_flatten, List.foldl_flatten]
  refine h.foldl_eq' (fun b hb c hc' y => ?_) x
  by_cases hbc : b = c
  · rw [hbc]
  · exact foldl_swap_blocks (hc.forall hb hc' hbc) y
