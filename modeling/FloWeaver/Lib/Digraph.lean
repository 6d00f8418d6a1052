import Mathlib.Algebra.Order.Monoid.Unbundled.Basic
import Mathlib.Data.Finset.Card
import Mathlib.Data.Fintype.Basic
import Mathlib.Data.Set.Finite.Basic
import Mathlib.Logic.Relation
import Mathlib.Order.Bounds.Basic
import Mathlib.Order.RelIso.Set
import Mathlib.Order.WellFounded

/-!
# Directed graphs given by successor lists

The little graph theory the rest of the library rests on.  A graph is a function
from a node to the list of its successors; paths are Mathlib's `Relation.TransGen`
and `Relation.ReflTransGen` over the edge relation.

* `Cyclic` / `Acyclic` — a graph has, or has no, directed cycle.
* `acyclic_of_monotone` — steps that keep an order have no cycle.
* `exists_source_reaching` — in an acyclic graph, walking backwards inside a finite
  set ends in a node without predecessor in the set.
* `PathToEnd` — a path that stops in a node without successors.
* `isGreatest_totals_of_end`, `isGreatest_totals_of_succ` — the heaviest path, one node at a time.
-/

namespace DepGraph

open Relation

variable {α : Type*}

/-- The edge relation of a graph given by successor lists. -/
def Edge (succ : α → List α) (u v : α) : Prop := v ∈ succ u

/-- A relation with a directed cycle. -/
def Cyclic (E : α → α → Prop) : Prop := ∃ v, TransGen E v v

/-- A relation without a directed cycle. -/
def Acyclic (E : α → α → Prop) : Prop := ∀ v, ¬ TransGen E v v

theorem not_cyclic_iff {E : α → α → Prop} : ¬ Cyclic E ↔ Acyclic E := by
  simp [Cyclic, Acyclic]

/-- Dropping edges creates no cycle. -/
theorem Acyclic.mono {E F : α → α → Prop} (h : Acyclic F) (hsub : ∀ u v, E u v → F u v) :
    Acyclic E :=
  fun v hv => h v (TransGen.mono hsub _ _ hv)

/-- A relation has a cycle when its converse has. -/
theorem Acyclic.of_swap {E : α → α → Prop} (h : Acyclic (Function.swap E)) : Acyclic E :=
  fun v hv => h v (transGen_swap.2 hv)

/-- A step upwards is followed by steps upwards when the steps keep the order. -/
theorem lt_of_transGen_of_monotone {α : Type*} [LinearOrder α] {E : α → α → Prop}
    (hmono : ∀ u v u' v', E u v → E u' v' → u ≤ u' → v ≤ v') {a b c : α} (hab : E a b) (hlt : a < b)
    (h : TransGen E a c) : a < c := by
  suffices a < c ∧ ∀ d, E c d → c ≤ d from this.1
  induction h with
  | single hac =>
    have hle : b ≤ _ := hmono _ _ _ _ hab hac le_rfl
    exact ⟨hlt.trans_le hle, fun d hd => hmono _ _ _ _ hac hd (hlt.trans_le hle).le⟩
  | tail _ hcd ih =>
    have hle := ih.2 _ hcd
    exact ⟨ih.1.trans_le hle, fun e he => hmono _ _ _ _ hcd he hle⟩

/-- **Steps that keep the order never return.** -/
theorem acyclic_of_monotone {α : Type*} [LinearOrder α] {E : α → α → Prop}
    (hmono : ∀ u v u' v', E u v → E u' v' → u ≤ u' → v ≤ v') (hirr : ∀ v, ¬ E v v) : Acyclic E := by
  intro v hv
  obtain ⟨w, hvw, -⟩ := TransGen.head'_iff.1 hv
  rcases lt_trichotomy v w with hlt | rfl | hgt
  · exact lt_irrefl v (lt_of_transGen_of_monotone hmono hvw hlt hv)
  · exact hirr v hvw
  · -- downwards the same in the dual order
    exact lt_irrefl v (lt_of_transGen_of_monotone (α := αᵒᵈ)
      (fun u v u' v' h h' hle => hmono u' v' u v h' h hle) hvw hgt hv)

/-- A set that is closed under successors is closed under paths. -/
theorem mem_of_reflTransGen {E : α → α → Prop} {S : α → Prop}
    (hcl : ∀ u v, S u → E u v → S v) {u v : α} (hu : S u) (h : ReflTransGen E u v) : S v := by
  induction h with
  | refl => exact hu
  | tail _ hbc ih => exact hcl _ _ ih hbc

/-- **Backward walks end.**  In an acyclic graph every node of a finite set `S` is
reached from a node of `S` that has no predecessor in `S`. -/
theorem exists_source_reaching {E : α → α → Prop} (hE : Acyclic E) (S : Finset α) {u : α}
    (hu : u ∈ S) : ∃ v ∈ S, ReflTransGen E v u ∧ ∀ p ∈ S, ¬ E p v := by
  let R : {x // x ∈ S} → {x // x ∈ S} → Prop := fun a b => TransGen E a.1 b.1
  have : IsTrans {x // x ∈ S} R := ⟨fun _ _ _ hab hbc => TransGen.trans hab hbc⟩
  have : Std.Irrefl R := ⟨fun a ha => hE a.1 ha⟩
  have hwf : WellFounded R := Finite.wellFounded_of_trans_of_irrefl R
  refine hwf.induction (C := fun a => ∃ v ∈ S, ReflTransGen E v a.1 ∧ ∀ p ∈ S, ¬ E p v) ⟨u, hu⟩ ?_
  rintro ⟨a, ha⟩ ih
  by_cases hp : ∃ p ∈ S, E p a
  · obtain ⟨p, hpS, hpa⟩ := hp
    obtain ⟨v, hvS, hvp, hv⟩ := ih ⟨p, hpS⟩ (TransGen.single hpa)
    exact ⟨v, hvS, hvp.tail hpa, hv⟩
  · exact ⟨a, ha, ReflTransGen.refl, fun p hpS hpa => hp ⟨p, hpS, hpa⟩⟩

/-- A non-empty finite set of nodes of an acyclic graph has a node without predecessor in it. -/
theorem exists_source {E : α → α → Prop} (hE : Acyclic E) (S : Finset α) (hS : S.Nonempty) :
    ∃ v ∈ S, ∀ p ∈ S, ¬ E p v := by
  obtain ⟨u, hu⟩ := hS
  obtain ⟨v, hv, -, hmin⟩ := exists_source_reaching hE S hu
  exact ⟨v, hv, hmin⟩

end DepGraph

/-!
## Heaviest paths

The nodes of a graph have weights, and a path weighs what its nodes weigh together.  The heaviest
path from a node to an end starts with the node and goes on with the heaviest one of a successor.
-/

namespace DepGraph

variable {α M : Type*}

/-- A path from a node to a node without successors. -/
inductive PathToEnd (succ : α → List α) : α → List α → Prop
  | last {v : α} (h : succ v = []) : PathToEnd succ v [v]
  | step {v w : α} {path : List α} (h : w ∈ succ v) (hpath : PathToEnd succ w path) :
      PathToEnd succ v (v :: path)

section Totals

variable [AddMonoid M] {succ : α → List α} {weight : α → M} {v : α}

/-- What the paths from a node to an end weigh. -/
def totals (succ : α → List α) (weight : α → M) (v : α) : Set M :=
  {total | ∃ path, PathToEnd succ v path ∧ (path.map weight).sum = total}

variable [LinearOrder M]

theorem isGreatest_totals_of_end (h : succ v = []) :
    IsGreatest (totals succ weight v) (weight v) := by
  refine ⟨⟨[v], .last h, by simp⟩, ?_⟩
  rintro total ⟨path, hpath, rfl⟩
  cases hpath with
  | last => simp
  | step hw => simp [h] at hw

/-- The heaviest path goes on with the heaviest one of a successor. -/
theorem isGreatest_totals_of_succ [AddLeftMono M] {score : α → M} {m : M}
    (hscore : ∀ w ∈ succ v, IsGreatest (totals succ weight w) (score w))
    (hm : IsGreatest {s | ∃ w ∈ succ v, score w = s} m) :
    IsGreatest (totals succ weight v) (weight v + m) := by
  obtain ⟨⟨w, hw, rfl⟩, hmax⟩ := hm
  constructor
  · obtain ⟨path, hpath, hsum⟩ := (hscore w hw).1
    exact ⟨v :: path, .step hw hpath, by rw [List.map_cons, List.sum_cons, hsum]⟩
  · rintro total ⟨path, hpath, rfl⟩
    cases hpath with
    | last h => simp [h] at hw
    | @step _ x rest hx hrest =>
      rw [List.map_cons, List.sum_cons]
      have hle : (rest.map weight).sum ≤ score x := (hscore x hx).2 ⟨rest, hrest, rfl⟩
      exact add_le_add_right (hle.trans (hmax ⟨x, hx, rfl⟩)) (weight v)

end Totals

end DepGraph
