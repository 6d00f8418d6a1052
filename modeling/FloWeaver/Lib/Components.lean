import FloWeaver.Lib.Tarjan
import Mathlib.Order.Antisymmetrization

/-!
# The collected components are the strongly connected ones

`FloWeaver.Lib.Tarjan` shows which nodes are collected.  Here the components themselves are
characterised: each of them is one class of mutual reachability, and no class is cut in two.

* `IsComponent` / `CarriesCycle` — a class of mutual reachability, and one with an inner edge.
* `Collected` — what the search keeps about the components it has collected.
* `exists_mem_tarjan_iff` — the collected components are the classes that carry a cycle.
* `pairwise_disjoint_tarjan` — every class is collected once.
-/

set_option linter.unusedSectionVars false

namespace DepGraph

open Relation TarjanState

variable {α : Type*}

/-! ## Classes of mutual reachability -/

/-- A strongly connected component: a node and all nodes it reaches and is reached from. -/
def IsComponent (E : α → α → Prop) (C : Set α) : Prop :=
  ∃ v ∈ C, ∀ w, w ∈ C ↔ AntisymmRel (ReflTransGen E) v w

/-- A component of at least two nodes, or of one node with a self loop. -/
def CarriesCycle (E : α → α → Prop) (C : Set α) : Prop :=
  C.Nontrivial ∨ ∃ v ∈ C, E v v

variable {E : α → α → Prop} {C D : Set α} {u v w : α}

/-- Any node of a component stands for it. -/
theorem IsComponent.mem_iff (h : IsComponent E C) (hv : v ∈ C) :
    w ∈ C ↔ AntisymmRel (ReflTransGen E) v w := by
  obtain ⟨u, -, hC⟩ := h
  have huv := (hC v).1 hv
  rw [hC]
  exact ⟨fun huw => huv.symm.trans huw, fun hvw => huv.trans hvw⟩

/-- Components that share a node are equal. -/
theorem IsComponent.eq_of_mem (hC : IsComponent E C) (hD : IsComponent E D) (hvC : v ∈ C)
    (hvD : v ∈ D) : C = D := by
  ext w
  rw [hC.mem_iff hvC, hD.mem_iff hvD]

/-- Every node of a component that carries a cycle lies on a cycle. -/
theorem IsComponent.cycle (h : IsComponent E C) (hcycle : CarriesCycle E C) (hv : v ∈ C) :
    TransGen E v v := by
  rcases hcycle with ⟨a, ha, b, hb, hab⟩ | ⟨a, ha, haa⟩
  · -- one of the two nodes differs from `v`
    obtain ⟨w, hw, hwv⟩ : ∃ w ∈ C, w ≠ v := by
      by_cases hav : a = v
      · exact ⟨b, hb, fun hbv => hab (hav.trans hbv.symm)⟩
      · exact ⟨a, ha, hav⟩
    obtain ⟨hvw, hback⟩ := (h.mem_iff hv).1 hw
    rcases reflTransGen_iff_eq_or_transGen.1 hvw with heq | hpath
    · exact absurd heq hwv
    · exact hpath.trans_left hback
  · obtain ⟨hva, hav⟩ := (h.mem_iff hv).1 ha
    exact (TransGen.trans_right hva (TransGen.single haa)).trans_left hav

/-- A component with a node on a cycle carries a cycle. -/
theorem IsComponent.carriesCycle (h : IsComponent E C) (hv : v ∈ C) (hcycle : TransGen E v v) :
    CarriesCycle E C := by
  obtain ⟨y, hvy, hyv⟩ := TransGen.head'_iff.1 hcycle
  have hy : y ∈ C := (h.mem_iff hv).2 ⟨ReflTransGen.single hvy, hyv⟩
  by_cases hyv' : y = v
  · exact .inr ⟨v, hv, hyv' ▸ hvy⟩
  · exact .inl ⟨y, hy, v, hv, hyv'⟩

/-! ## What the search keeps -/

section Search

variable [DecidableEq α] {succ : α → List α} {nodes : List α} {s s' : TarjanState α} {T : List α}

/-- Every collected component is a class of finished nodes, without repetitions, and no two of
them meet. -/
structure Collected (succ : α → List α) (s : TarjanState α) : Prop where
  popped : ∀ C ∈ s.components, ∀ w ∈ C, Popped s w
  component : ∀ C ∈ s.components, IsComponent (Edge succ) {w | w ∈ C}
  nodup : ∀ C ∈ s.components, C.Nodup
  disjoint : s.components.Pairwise List.Disjoint

theorem collected_empty : Collected succ (empty : TarjanState α) :=
  ⟨nofun, nofun, nofun, List.Pairwise.nil⟩

/-- Updates that collect nothing and keep what is finished. -/
theorem Collected.of_components_eq (h : Collected succ s) (hc : s'.components = s.components)
    (hpop : ∀ w, Popped s w → Popped s' w) : Collected succ s' :=
  ⟨fun C hC w hw => hpop w (h.popped C (hc ▸ hC) w hw), hc ▸ h.component, hc ▸ h.nodup,
    hc ▸ h.disjoint⟩

/-- From the component of a root only finished nodes can be reached besides. -/
theorem LoopInv.popped_or_mem (h : LoopInv succ s v (succ v) s' T) (hpre : VisitPre succ s v)
    (hroot : s'.lowlink v = s'.idx v) (hpath : ReflTransGen (Edge succ) v w) :
    Popped s' w ∨ w ∈ T ++ [v] := by
  refine mem_of_reflTransGen (S := fun x => Popped s' x ∨ x ∈ T ++ [v]) (fun a b ha hab => ?_)
    (.inr (by simp)) hpath
  rcases ha with ha | ha
  · exact .inl (h.inv.closed a ha b hab)
  · exact h.component_closed hpre hroot ha hab

/-- The nodes popped at a root are one class. -/
theorem LoopInv.isComponent (h : LoopInv succ s v (succ v) s' T) (hpre : VisitPre succ s v)
    (hroot : s'.lowlink v = s'.idx v) : IsComponent (Edge succ) {w | w ∈ T ++ [v]} := by
  refine ⟨v, by simp, fun w => ⟨fun hw => ?_, fun ⟨hvw, hwv⟩ => ?_⟩⟩
  · obtain ⟨-, hwv, hvw, -⟩ := h.component hw
    exact ⟨hvw, hwv⟩
  · refine (h.popped_or_mem hpre hroot hvw).resolve_left fun hw => ?_
    -- `v` is still open, so nothing finished reaches it
    have hv : Popped s' v :=
      mem_of_reflTransGen (S := Popped s') (fun a b ha hab => h.inv.closed a ha b hab) hw hwv
    exact hv.2 (h.mem_stack.2 (.inr (.inl rfl)))

theorem LoopInv.nodup_component {seen : List α} (h : LoopInv succ s v seen s' T) :
    (T ++ [v]).Nodup := by
  have hsorted := h.inv.sorted
  rw [h.stack_eq, show T ++ v :: s.stack = (T ++ [v]) ++ s.stack by simp] at hsorted
  refine (List.pairwise_append.1 hsorted).1.imp fun {a b} hab heq => ?_
  rw [heq] at hab
  exact Nat.lt_irrefl _ hab

/-- Popping the component of a root keeps what was collected, and collects one more class. -/
theorem Collected.pop (hs : Collected succ s') (hpre : VisitPre succ s v)
    (h : LoopInv succ s v (succ v) s' T) (hroot : s'.lowlink v = s'.idx v) :
    Collected succ (popState succ v s' (T ++ [v]) s.stack) := by
  have hpost := h.popState hpre hroot
  have hstack : (popState succ v s' (T ++ [v]) s.stack).stack = s.stack := rfl
  have hkeep : ∀ w, Popped s' w → Popped (popState succ v s' (T ++ [v]) s.stack) w :=
    fun w hw => ⟨hw.1, fun hmem => hw.2 (h.mem_stack.2 (.inr (.inr hmem)))⟩
  have hnew : ∀ w ∈ T ++ [v], Popped (popState succ v s' (T ++ [v]) s.stack) w :=
    fun w hw => ⟨(h.component hw).1, h.nodup.2 w hw⟩
  by_cases hc : 1 < (T ++ [v]).length ∨ v ∈ succ v
  · have hcomponents : (popState succ v s' (T ++ [v]) s.stack).components =
        s'.components ++ [T ++ [v]] := if_pos hc
    refine ⟨fun C hC => ?_, fun C hC => ?_, fun C hC => ?_, ?_⟩
    · rcases List.mem_append.1 (hcomponents ▸ hC) with hC | hC
      · exact fun w hw => hkeep w (hs.popped C hC w hw)
      · rw [List.mem_singleton.1 hC]
        exact hnew
    · rcases List.mem_append.1 (hcomponents ▸ hC) with hC | hC
      · exact hs.component C hC
      · rw [List.mem_singleton.1 hC]
        exact h.isComponent hpre hroot
    · rcases List.mem_append.1 (hcomponents ▸ hC) with hC | hC
      · exact hs.nodup C hC
      · rw [List.mem_singleton.1 hC]
        exact h.nodup_component
    · rw [hcomponents, List.pairwise_append]
      refine ⟨hs.disjoint, List.pairwise_singleton _ _, fun C hC D hD w hwC hwD => ?_⟩
      rw [List.mem_singleton.1 hD] at hwD
      refine (hs.popped C hC w hwC).2 (h.mem_stack.2 ?_)
      rcases List.mem_append.1 hwD with hw | hw
      · exact .inl hw
      · exact .inr (.inl (List.mem_singleton.1 hw))
  · exact hs.of_components_eq (if_neg hc) hkeep

theorem preserved_collected : Preserved succ (Collected succ) where
  enter _ _ hpre hs := hs.of_components_eq rfl (loopInv_enter hpre).ext.popped
  lower _ _ _ hs := hs.of_components_eq rfl fun _ hw => hw
  pop _ _ _ _ hpre h hroot hs := hs.pop hpre h hroot

/-! ## The result -/

theorem collected_tarjan (hcl : ∀ u ∈ nodes, ∀ w ∈ succ u, w ∈ nodes) :
    (∀ C ∈ tarjan succ nodes, C.Nodup ∧ IsComponent (Edge succ) {w | w ∈ C}) ∧
      (tarjan succ nodes).Pairwise List.Disjoint := by
  obtain ⟨s, hs, ⟨-, hcollected⟩, -⟩ := tarjan_preserved hcl preserved_collected collected_empty
  rw [hs]
  exact ⟨fun C hC => ⟨hcollected.nodup C hC, hcollected.component C hC⟩, hcollected.disjoint⟩

theorem nodup_of_mem_tarjan (hcl : ∀ u ∈ nodes, ∀ w ∈ succ u, w ∈ nodes) {C : List α}
    (hC : C ∈ tarjan succ nodes) : C.Nodup :=
  ((collected_tarjan hcl).1 C hC).1

/-- Every class is collected once. -/
theorem pairwise_disjoint_tarjan (hcl : ∀ u ∈ nodes, ∀ w ∈ succ u, w ∈ nodes) :
    (tarjan succ nodes).Pairwise List.Disjoint :=
  (collected_tarjan hcl).2

/-- **The collected components are the strongly connected components that carry a cycle.** -/
theorem exists_mem_tarjan_iff (hcl : ∀ u ∈ nodes, ∀ w ∈ succ u, w ∈ nodes)
    (hsrc : ∀ u w, w ∈ succ u → u ∈ nodes) {S : Set α} :
    (∃ C ∈ tarjan succ nodes, {w | w ∈ C} = S) ↔
      IsComponent (Edge succ) S ∧ CarriesCycle (Edge succ) S := by
  constructor
  · rintro ⟨C, hC, rfl⟩
    have hcomponent := ((collected_tarjan hcl).1 C hC).2
    obtain ⟨v, hv, -⟩ := id hcomponent
    exact ⟨hcomponent, hcomponent.carriesCycle hv (cycle_of_mem_component hcl hC hv)⟩
  · rintro ⟨hcomponent, hcycle⟩
    obtain ⟨v, hv, -⟩ := id hcomponent
    have hvv := hcomponent.cycle hcycle hv
    obtain ⟨y, hvy, -⟩ := TransGen.head'_iff.1 hvv
    obtain ⟨C, hC, hvC⟩ := exists_component_of_cycle hcl (hsrc v y hvy) hvv
    exact ⟨C, hC, ((collected_tarjan hcl).1 C hC).2.eq_of_mem hcomponent hvC hv⟩

end Search

end DepGraph
