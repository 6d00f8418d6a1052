import Mathlib.Data.List.Perm.Basic
import Mathlib.Data.List.TakeWhile
import Mathlib.Tactic.SplitIfs

/-!
# Lists that agree run by run

Every element of a list has a kind or none.  Two lists agree run by run when they are cut at the
same places into single elements without a kind, which agree one by one, and longest runs of
elements of one kind, which agree as a whole.

* `eq_of_filter_pair`, `eq_of_map_fst_of_filter` — lists that agree part by part.
* `takeWhile_append_of_head` — a longest run is what `takeWhile` takes.
* `Runwise` — agreement run by run.
* `Runwise.cons` — one more element on both sides.
* `Runwise.trans` — agreement carries over when it does for single elements and for runs.
-/

namespace List

variable {α : Type*} {p : α → Bool} {w rest : List α}

theorem dropWhile_append_of_head (hw : ∀ x ∈ w, p x = true)
    (hrest : ∀ x ∈ rest.head?, p x = false) : (w ++ rest).dropWhile p = rest := by
  rw [dropWhile_append, dropWhile_eq_nil_iff.2 hw]
  cases rest with
  | nil => rfl
  | cons x rest =>
    have hx : ¬ p x = true := by simp [hrest x rfl]
    simp [hx]

theorem takeWhile_append_of_head (hw : ∀ x ∈ w, p x = true)
    (hrest : ∀ x ∈ rest.head?, p x = false) : (w ++ rest).takeWhile p = w := by
  have h := takeWhile_append_dropWhile (p := p) (l := w ++ rest)
  rw [dropWhile_append_of_head hw hrest] at h
  exact append_cancel_right h

theorem head?_dropWhile_eq_false {l : List α} : ∀ x ∈ (l.dropWhile p).head?, p x = false := by
  intro x hx
  have h := head?_dropWhile_not p l
  rw [Option.mem_def.1 hx] at h
  simpa using h

section Letters

variable {β : Type*} [DecidableEq α] {l m : List α}

/-- Two arrangements of the same letters are equal when they arrange any two of them alike. -/
theorem eq_of_filter_pair (hperm : l.Perm m)
    (h : ∀ a ∈ l, ∀ b ∈ l, a ≠ b →
      (l.filter fun x => x = a ∨ x = b) = m.filter fun x => x = a ∨ x = b) : l = m := by
  induction l generalizing m with
  | nil => exact hperm.nil_eq
  | cons a l ih =>
    cases m with
    | nil => exact absurd hperm.length_eq (by simp)
    | cons b m =>
      -- the heads are the first letters of the two of them
      have hhead : a = b := by
        by_contra hne
        have hpair := h a mem_cons_self b (hperm.mem_iff.2 mem_cons_self) hne
        rw [filter_cons_of_pos (by simp), filter_cons_of_pos (by simp)] at hpair
        exact hne (cons.inj hpair).1
      subst hhead
      rw [ih (perm_cons a |>.1 hperm) fun x hx y hy hxy => ?_]
      have hpair := h x (mem_cons_of_mem a hx) y (mem_cons_of_mem a hy) hxy
      rw [filter_cons, filter_cons] at hpair
      split_ifs at hpair
      · exact (cons.inj hpair).2
      · exact hpair

/-- A list of pairs is what it has on the left, and what it has on the right of each left part. -/
theorem eq_of_map_fst_of_filter {l m : List (α × β)} (hfst : l.map Prod.fst = m.map Prod.fst)
    (hsnd : ∀ a ∈ l.map Prod.fst,
      (l.filter fun x => x.1 = a).map Prod.snd = (m.filter fun x => x.1 = a).map Prod.snd) :
    l = m := by
  induction l generalizing m with
  | nil => exact (map_eq_nil_iff.1 hfst.symm).symm
  | cons x l ih =>
    cases m with
    | nil => exact absurd hfst (by simp)
    | cons y m =>
      rw [map_cons, map_cons, cons.injEq] at hfst
      have hhead := hsnd x.1 mem_cons_self
      rw [filter_cons_of_pos (by simp), filter_cons_of_pos (by simp [hfst.1]), map_cons, map_cons,
        cons.injEq] at hhead
      rw [Prod.ext hfst.1 hhead.1, ih hfst.2 fun a ha => ?_]
      have hrest := hsnd a (mem_cons_of_mem x.1 ha)
      rw [filter_cons, filter_cons, ← hfst.1] at hrest
      split_ifs at hrest
      · exact (cons.inj hrest).2
      · exact hrest

end Letters

end List

namespace Runs

variable {α κ : Type*}

/-- Agreement run by run: `single` compares elements without a kind, `block` compares runs. -/
inductive Runwise (kind : α → Option κ) (single : α → α → Prop)
    (block : κ → List α → List α → Prop) : List α → List α → Prop
  | nil : Runwise kind single block [] []
  | single {a b : α} {as bs : List α} (ha : kind a = none) (hb : kind b = none)
      (h : single a b) (rest : Runwise kind single block as bs) :
      Runwise kind single block (a :: as) (b :: bs)
  | run {k : κ} {w v as bs : List α} (hw : w ≠ []) (hv : v ≠ [])
      (hkinds : ∀ x ∈ w ++ v, kind x = some k) (h : block k w v)
      (has : ∀ x ∈ as.head?, kind x ≠ some k) (hbs : ∀ x ∈ bs.head?, kind x ≠ some k)
      (rest : Runwise kind single block as bs) : Runwise kind single block (w ++ as) (v ++ bs)

namespace Runwise

variable {kind : α → Option κ} {single : α → α → Prop} {block : κ → List α → List α → Prop}
  {as bs cs : List α}

/-- The lists end together. -/
theorem eq_nil_iff (h : Runwise kind single block as bs) : as = [] ↔ bs = [] := by
  cases h with
  | nil => simp
  | single => simp
  | run hw hv => simp [hw, hv]

/-- One more element on both sides: it stands alone, starts a run, or makes the first run
longer. -/
theorem cons {a b : α} (hkind : kind a = kind b) (hsingle : kind a = none → single a b)
    (hstart : ∀ k, kind a = some k → block k [a] [b])
    (hlonger : ∀ k w v, kind a = some k → (∀ x ∈ w, x ∈ as) → (∀ x ∈ v, x ∈ bs) →
      block k w v → block k (a :: w) (b :: v))
    (h : Runwise kind single block as bs) : Runwise kind single block (a :: as) (b :: bs) := by
  cases hk : kind a with
  | none => exact .single hk (hkind ▸ hk) (hsingle hk) h
  | some k =>
    have hkb : kind b = some k := hkind ▸ hk
    have halone : (∀ x ∈ as.head?, kind x ≠ some k) → (∀ x ∈ bs.head?, kind x ≠ some k) →
        Runwise kind single block (a :: as) (b :: bs) := fun has hbs =>
      .run (w := [a]) (v := [b]) (by simp) (by simp) (by simp [hk, hkb]) (hstart k hk) has hbs h
    cases h with
    | nil => exact halone (by simp) (by simp)
    | single hka hkb => exact halone (by simp [hka]) (by simp [hkb])
    | @run k' w v as bs hw hv hkinds hblock has hbs rest =>
      by_cases hsame : k' = k
      · -- the first run is of the same kind, so the new element belongs to it
        subst hsame
        refine .run (w := a :: w) (v := b :: v) (by simp) (by simp) ?_ ?_ has hbs rest
        · intro x hx
          rcases List.mem_append.1 hx with hx | hx <;> rcases List.mem_cons.1 hx with rfl | hx
          · exact hk
          · exact hkinds x (List.mem_append_left v hx)
          · exact hkb
          · exact hkinds x (List.mem_append_right w hx)
        · exact hlonger k' w v hk (fun x hx => List.mem_append_left as hx)
            (fun x hx => List.mem_append_left bs hx) hblock
      · have hother : ∀ x ∈ w ++ v, kind x ≠ some k := fun x hx => by
          rw [hkinds x hx, ne_eq, Option.some.injEq]
          exact hsame
        refine halone ?_ ?_
        · obtain ⟨x, w, rfl⟩ := List.exists_cons_of_ne_nil hw
          rintro y ⟨⟩
          exact hother x (by simp)
        · obtain ⟨x, v, rfl⟩ := List.exists_cons_of_ne_nil hv
          rintro y ⟨⟩
          exact hother x (by simp)

/-- A longest run at the head of a list is the same however it is cut off. -/
theorem run_unique [DecidableEq κ] {k : κ} {v v' bs bs' : List α}
    (hv : ∀ x ∈ v, kind x = some k) (hv' : ∀ x ∈ v', kind x = some k)
    (hbs : ∀ x ∈ bs.head?, kind x ≠ some k) (hbs' : ∀ x ∈ bs'.head?, kind x ≠ some k)
    (h : v ++ bs = v' ++ bs') : v = v' ∧ bs = bs' := by
  have htake : ∀ {v bs : List α}, (∀ x ∈ v, kind x = some k) →
      (∀ x ∈ bs.head?, kind x ≠ some k) →
        (v ++ bs).takeWhile (fun x => decide (kind x = some k)) = v := fun hv hbs =>
    List.takeWhile_append_of_head (fun x hx => decide_eq_true (hv x hx))
      fun x hx => decide_eq_false (hbs x hx)
  obtain rfl : v = v' := by rw [← htake hv hbs, h, htake hv' hbs']
  exact ⟨rfl, List.append_cancel_left h⟩

theorem trans [DecidableEq κ] (hsingle : ∀ {a b c}, single a b → single b c → single a c)
    (hblock : ∀ {k w v u}, block k w v → block k v u → block k w u)
    (h : Runwise kind single block as bs) (h' : Runwise kind single block bs cs) :
    Runwise kind single block as cs := by
  induction h generalizing cs with
  | nil =>
    obtain rfl := h'.eq_nil_iff.1 rfl
    exact .nil
  | @single a b as bs hka hkb hab rest ih =>
    generalize hmiddle : b :: bs = middle at h'
    cases h' with
    | nil => cases hmiddle
    | single _ hkc hbc rest' =>
      cases hmiddle
      exact .single hka hkc (hsingle hab hbc) (ih rest')
    | @run k w v _ _ hw _ hkinds =>
      obtain ⟨x, w, rfl⟩ := List.exists_cons_of_ne_nil hw
      cases hmiddle
      rw [hkinds b (by simp)] at hkb
      cases hkb
  | @run k w v as bs hw hv hkinds hwv has hbs rest ih =>
    generalize hmiddle : v ++ bs = middle at h'
    obtain ⟨y, v, rfl⟩ := List.exists_cons_of_ne_nil hv
    have hky : kind y = some k := hkinds y (by simp)
    cases h' with
    | nil => cases hmiddle
    | single hkb =>
      cases hmiddle
      rw [hky] at hkb
      cases hkb
    | @run k' v' u bs' cs hv' hu hkinds' hvu hbs' hcs rest' =>
      obtain ⟨y', v', rfl⟩ := List.exists_cons_of_ne_nil hv'
      obtain ⟨rfl, -⟩ := List.cons.inj hmiddle
      obtain rfl : k = k' :=
        Option.some.inj (hky.symm.trans (hkinds' y (by simp)))
      obtain ⟨hrun, rfl⟩ := run_unique
        (fun x hx => hkinds x (List.mem_append_right w hx))
        (fun x hx => hkinds' x (List.mem_append_left u hx)) hbs hbs' hmiddle
      rw [← hrun] at hvu
      refine .run hw hu ?_ (hblock hwv hvu) has hcs (ih rest')
      intro x hx
      rcases List.mem_append.1 hx with hx | hx
      · exact hkinds x (List.mem_append_left _ hx)
      · exact hkinds' x (List.mem_append_right _ hx)

end Runwise

end Runs
