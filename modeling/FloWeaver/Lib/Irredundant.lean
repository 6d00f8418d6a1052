import FloWeaver.Lib.Counted
import Mathlib.Algebra.Order.BigOperators.Group.List
import Mathlib.Algebra.Order.Group.Nat

/-!
# The transitive reduction leaves no redundant edge

`FloWeaver.Lib.Counted` shows that the reduction keeps paths.  Here the search is shown to find
every path, so what it keeps is needed.

* `reachLoop_complete` — a negative answer of the search is the absence of a path.
* `reachableWithout_iff` — the search decides whether another path replaces an edge.
* `irredundant_reduce` — no edge of the reduced graph is replaced by another path.
-/

namespace DepGraph

open Relation

variable {α : Type*} [LinearOrder α]

namespace CountedGraph

/-! ## The search finds every path -/

/-- What is left to do: the stack, and the edges out of the nodes not expanded yet. -/
def pending {α : Type*} [DecidableEq α] (nodes : List α) (out : α → List α)
    (stack seen : List α) : ℕ :=
  stack.length + ((nodes.filter (· ∉ seen)).map fun v => (out v).length).sum

/-- Expanding a node uses up its edges. -/
theorem sum_filter_not_mem_cons (out : α → List α) {nodes seen : List α} {node : α}
    (hnodup : nodes.Nodup) (hnode : node ∈ nodes) (hseen : node ∉ seen) :
    ((nodes.filter (· ∉ node :: seen)).map fun v => (out v).length).sum + (out node).length =
      ((nodes.filter (· ∉ seen)).map fun v => (out v).length).sum := by
  induction nodes with
  | nil => simp at hnode
  | cons x nodes ih =>
    obtain ⟨hx, hnodup⟩ := List.nodup_cons.1 hnodup
    rcases List.mem_cons.1 hnode with rfl | hnode
    · have hrest : nodes.filter (· ∉ node :: seen) = nodes.filter (· ∉ seen) :=
        List.filter_congr fun y hy => by
          have hne : y ≠ node := fun e => hx (e ▸ hy)
          simp [hne]
      rw [List.filter_cons_of_neg (by simp), List.filter_cons_of_pos (by simpa using hseen), hrest,
        List.map_cons, List.sum_cons, Nat.add_comm]
    · have hne : x ≠ node := fun e => hx (e ▸ hnode)
      have hrec := ih hnodup hnode
      by_cases hxs : x ∈ seen
      · rw [List.filter_cons_of_neg (by simp [hxs]), List.filter_cons_of_neg (by simp [hxs])]
        exact hrec
      · rw [List.filter_cons_of_pos (by simp [hxs, hne]), List.filter_cons_of_pos (by simp [hxs]),
          List.map_cons, List.map_cons, List.sum_cons, List.sum_cons, Nat.add_assoc, hrec]

/-- **A negative answer is the absence of a path.**  The expanded nodes are closed under the edges
that are not skipped, up to the stack, and the fuel covers what is left to do. -/
theorem reachLoop_complete {nodes : List α} {out : α → List α} {skip : α × α} {dst : α}
    (hnodup : nodes.Nodup) (hsrc : ∀ v w, w ∈ out v → v ∈ nodes) :
    ∀ (fuel : ℕ) (stack seen : List α), pending nodes out stack seen ≤ fuel → dst ∉ seen →
      (∀ u ∈ seen, ∀ v ∈ out u, (u, v) ≠ skip → v ∈ seen ∨ v ∈ stack) →
      reachLoop out skip dst fuel stack seen = false →
      ∀ x ∈ stack ++ seen, ¬ ReflTransGen (fun u v => v ∈ out u ∧ (u, v) ≠ skip) x dst := by
  have hdone : ∀ seen : List α, dst ∉ seen →
      (∀ u ∈ seen, ∀ v ∈ out u, (u, v) ≠ skip → v ∈ seen ∨ v ∈ []) →
      ∀ x ∈ [] ++ seen, ¬ ReflTransGen (fun u v => v ∈ out u ∧ (u, v) ≠ skip) x dst := by
    intro seen hdst hclosed x hx hpath
    refine hdst (mem_of_reflTransGen (S := (· ∈ seen)) (fun u v hu huv => ?_)
      (by simpa using hx) hpath)
    exact (hclosed u hu v huv.1 huv.2).resolve_right List.not_mem_nil
  intro fuel
  induction fuel with
  | zero =>
    intro stack seen hfuel hdst hclosed _
    obtain rfl : stack = [] := List.eq_nil_of_length_eq_zero (by rw [pending] at hfuel; omega)
    exact hdone seen hdst hclosed
  | succ fuel ih =>
    intro stack seen hfuel hdst hclosed hfalse
    cases stack with
    | nil => exact hdone seen hdst hclosed
    | cons node stack =>
      rw [reachLoop] at hfalse
      split_ifs at hfalse with heq hmem
      · -- the node was expanded before
        have hrest := ih stack seen (by simp only [pending, List.length_cons] at hfuel ⊢; omega) hdst
          (fun u hu v hv hne => (hclosed u hu v hv hne).elim .inl fun h =>
            (List.mem_cons.1 h).elim (fun e => .inl (e ▸ hmem)) .inr) hfalse
        intro x hx
        rcases List.mem_cons.1 hx with rfl | hx
        · exact hrest x (List.mem_append_right _ hmem)
        · exact hrest x hx
      · -- the node is expanded: its edges go on the stack
        set next := (((out node).insertionSort (· ≤ ·)).filter
          (fun nxt => (node, nxt) ≠ skip)).reverse with hnext
        have hlength : next.length ≤ (out node).length := by
          rw [hnext, List.length_reverse]
          exact (List.length_filter_le _ _).trans (List.length_insertionSort _ _).le
        have hpending : pending nodes out (next ++ stack) (node :: seen) ≤ fuel := by
          simp only [pending, List.length_append, List.length_cons] at hfuel ⊢
          by_cases hnode : node ∈ nodes
          · have := sum_filter_not_mem_cons out hnodup hnode hmem
            omega
          · have hempty : out node = [] :=
              List.eq_nil_iff_forall_not_mem.2 fun w hw => hnode (hsrc node w hw)
            rw [hempty, List.length_nil] at hlength
            have hsame : nodes.filter (· ∉ node :: seen) = nodes.filter (· ∉ seen) :=
              List.filter_congr fun y hy => by
                have hne : y ≠ node := fun e => hnode (e ▸ hy)
                simp [hne]
            rw [hsame]
            omega
        have hrest := ih (next ++ stack) (node :: seen) hpending
          (fun h => (List.mem_cons.1 h).elim (fun e => heq e.symm) hdst)
          (fun u hu v hv hne => ?_) hfalse
        · intro x hx
          refine hrest x ?_
          simp only [List.mem_append, List.mem_cons] at hx ⊢
          tauto
        · rcases List.mem_cons.1 hu with rfl | hu
          · refine .inr (List.mem_append_left _ (List.mem_reverse.2 (List.mem_filter.2 ⟨?_, ?_⟩)))
            · exact (List.mem_insertionSort _).2 hv
            · exact decide_eq_true hne
          · rcases hclosed u hu v hv hne with h | h
            · exact .inl (List.mem_cons_of_mem _ h)
            · rcases List.mem_cons.1 h with rfl | h
              · exact .inl List.mem_cons_self
              · exact .inr (List.mem_append_right _ h)

/-- The search decides whether another path replaces an edge. -/
theorem reachableWithout_iff {g : CountedGraph α} {src dst : α} :
    g.reachableWithout src dst = true ↔ TransGen (g.removeEdge src dst).E src dst := by
  refine ⟨transGen_of_reachableWithout, fun hpath => ?_⟩
  by_contra hfalse
  rw [Bool.not_eq_true, reachableWithout] at hfalse
  have hrel : (g.removeEdge src dst).E = fun u v => v ∈ g.out u ∧ (u, v) ≠ (src, dst) := by
    funext u v
    rw [removeEdge_E, ne_eq, Prod.mk.injEq]
    rfl
  rw [hrel] at hpath
  obtain ⟨y, ⟨hy, hne⟩, hyd⟩ := TransGen.head'_iff.1 hpath
  have hdegree : (g.out src).length ≤ g.edgeCount :=
    List.single_le_sum (fun _ _ => Nat.zero_le _) _
      (List.mem_map_of_mem (f := fun v => (g.out v).length) (g.src_mem src y hy))
  refine reachLoop_complete g.nodup_nodes g.src_mem (2 * g.edgeCount + 1) _ [] ?_ List.not_mem_nil
    (fun u hu => absurd hu List.not_mem_nil) hfalse y ?_ hyd
  · have hlength : ((((g.out src).insertionSort (· ≤ ·)).filter
        (fun nxt => (src, nxt) ≠ (src, dst))).reverse).length ≤ (g.out src).length := by
      rw [List.length_reverse]
      exact (List.length_filter_le _ _).trans (List.length_insertionSort _ _).le
    have hall : ((g.nodes.filter (· ∉ [])).map fun v => (g.out v).length).sum = g.edgeCount := by
      rw [List.filter_eq_self.2 (by simp)]
      rfl
    rw [pending, hall]
    omega
  · rw [List.append_nil, List.mem_reverse, List.mem_filter]
    exact ⟨(List.mem_insertionSort _).2 hy, decide_eq_true hne⟩

/-! ## Edges that are needed -/

/-- No other path replaces the edge. -/
def Needed (g : CountedGraph α) (src dst : α) : Prop :=
  ¬ TransGen (g.removeEdge src dst).E src dst

/-- No edge is replaced by another path. -/
def Irredundant (g : CountedGraph α) : Prop := ∀ u v, g.E u v → g.Needed u v

variable {g g' : CountedGraph α} {src dst : α}

/-- What is needed stays needed when other edges go. -/
theorem Needed.mono (h : g.Needed src dst) (hsub : ∀ u v, g'.E u v → g.E u v) :
    g'.Needed src dst := by
  refine fun hpath => h (TransGen.mono (fun u v huv => ?_) _ _ hpath)
  rw [removeEdge_E] at huv ⊢
  exact ⟨hsub u v huv.1, huv.2⟩

/-- An edge that was looked at is gone or needed. -/
theorem needed_reduceEdge (h : (g.reduceEdge src dst).E src dst) :
    (g.reduceEdge src dst).Needed src dst := by
  unfold reduceEdge at h ⊢
  split_ifs at h ⊢ with hc
  · exact absurd ⟨rfl, rfl⟩ ((removeEdge_E g src dst src dst).1 h).2
  · exact fun hpath => hc ⟨h, reachableWithout_iff.2 hpath⟩

/-- What one step of a loop that drops edges settles stays settled to its end. -/
theorem foldl_settles {β : Type*} {f : CountedGraph α → β → CountedGraph α}
    (hf : ∀ g b, Reduces g (f g b)) {Q : β → CountedGraph α → Prop} (hQ : ∀ g b, Q b (f g b))
    (hmono : ∀ b g g', Reduces g g' → Q b g → Q b g') (l : List β) (g : CountedGraph α) {b : β}
    (hb : b ∈ l) : Q b (l.foldl f g) := by
  induction l generalizing g with
  | nil => exact absurd hb List.not_mem_nil
  | cons a l ih =>
    rcases List.mem_cons.1 hb with rfl | hb
    · exact hmono b _ _ (reduces_foldl hf l (f g b)) (hQ g b)
    · exact ih (f g a) hb

theorem reduces_reduceNode (g : CountedGraph α) (src : α) : Reduces g (g.reduceNode src) :=
  reduces_foldl (reduces_reduceEdge src) _ g

/-- The edges that start in a node are needed once the node was looked at. -/
theorem needed_reduceNode (h : (g.reduceNode src).E src dst) :
    (g.reduceNode src).Needed src dst := by
  have hdst : dst ∈ (g.out src).insertionSort (· ≤ ·) :=
    (List.mem_insertionSort _).2 ((reduces_reduceNode g src).sub src dst h)
  exact foldl_settles (reduces_reduceEdge src)
    (Q := fun dst g => g.E src dst → g.Needed src dst) (fun g dst => needed_reduceEdge)
    (fun dst g g' hred hq he => (hq (hred.sub src dst he)).mono hred.sub) _ g hdst h

/-- **No edge of the reduced graph is replaced by another path.** -/
theorem irredundant_reduce (g : CountedGraph α) : g.reduce.Irredundant := by
  intro u v huv
  have hu : u ∈ g.nodes.insertionSort (· ≤ ·) :=
    (List.mem_insertionSort _).2 (E_src ((reduces_reduce g).sub u v huv))
  exact foldl_settles reduces_reduceNode
    (Q := fun u g => ∀ v, g.E u v → g.Needed u v) (fun g u v => needed_reduceNode)
    (fun u g g' hred hq v he => (hq v (hred.sub u v he)).mono hred.sub) _ g hu v huv

end CountedGraph

end DepGraph
