import FloWeaver.Lib.Digraph
import Mathlib.Algebra.GroupWithZero.Nat
import Mathlib.Data.List.Nodup
import Mathlib.Data.List.Sort
import Mathlib.Tactic.SplitIfs
import Mathlib.Tactic.Push

/-!
# Graphs with in-degree counters, and their transitive reduction

A worklist over a dependency graph needs, next to the successor lists, the number of
predecessors of every node.  `CountedGraph` carries both together with the proof that
they agree, so a graph with a wrong counter cannot be built.

* `CountedGraph.addEdge` / `removeEdge` — the two updates, with what they do to the edges.
* `CountedGraph.reduceEdge` / `reduce` — drops the edges that another path replaces;
  `reduces_reduce` says that paths are kept.
-/

set_option linter.unusedSectionVars false

namespace DepGraph

open Relation

variable {α : Type*}

/-- A finite graph with successor lists and in-degree counters. -/
structure CountedGraph (α : Type*) [DecidableEq α] where
  nodes : List α
  out : α → List α
  indegree : α → ℕ
  nodup_nodes : nodes.Nodup
  nodup_out : ∀ v, (out v).Nodup
  src_mem : ∀ v w, w ∈ out v → v ∈ nodes
  dst_mem : ∀ v w, w ∈ out v → w ∈ nodes
  indegree_eq : ∀ w, indegree w = nodes.countP (fun v => decide (w ∈ out v))

namespace CountedGraph

/-! ## Updates -/

section Updates

variable [DecidableEq α]

/-- The graph without edges. -/
def empty (nodes : List α) (h : nodes.Nodup) : CountedGraph α where
  nodes := nodes
  out := fun _ => []
  indegree := fun _ => 0
  nodup_nodes := h
  nodup_out := by simp
  src_mem := by simp
  dst_mem := by simp
  indegree_eq := by simp

/-- The edge relation. -/
def E (g : CountedGraph α) : α → α → Prop := Edge g.out

/-- Changing one answer of a predicate from no to yes counts one more. -/
theorem countP_update {l : List α} (hl : l.Nodup) {a : α} (ha : a ∈ l) {p q : α → Bool}
    (hne : ∀ x ∈ l, x ≠ a → q x = p x) (hp : p a = false) (hq : q a = true) :
    l.countP q = l.countP p + 1 := by
  induction l with
  | nil => simp at ha
  | cons x l ih =>
    obtain ⟨hx, hl⟩ := List.nodup_cons.1 hl
    rcases List.mem_cons.1 ha with rfl | ha
    · have : l.countP q = l.countP p :=
        List.countP_congr fun y hy => by
          rw [hne y (by simp [hy]) (fun e => hx (e ▸ hy))]
      simp [hp, hq, this]
    · have hxa : x ≠ a := fun e => hx (e ▸ ha)
      rw [List.countP_cons, List.countP_cons, hne x (by simp) hxa,
        ih hl ha (fun y hy => hne y (by simp [hy]))]
      omega

/-- Adds an edge between two different nodes, once. -/
def addEdge (g : CountedGraph α) (src dst : α) : CountedGraph α :=
  if h : src ∈ g.nodes ∧ dst ∈ g.nodes ∧ src ≠ dst ∧ dst ∉ g.out src then
    { nodes := g.nodes
      out := Function.update g.out src (g.out src ++ [dst])
      indegree := Function.update g.indegree dst (g.indegree dst + 1)
      nodup_nodes := g.nodup_nodes
      nodup_out := by
        intro v
        by_cases hv : v = src
        · subst hv
          simpa [List.nodup_append, g.nodup_out v] using fun x hx (e : x = dst) => h.2.2.2 (e ▸ hx)
        · rw [Function.update_of_ne hv]; exact g.nodup_out v
      src_mem := by
        intro v w hw
        by_cases hv : v = src
        · exact hv ▸ h.1
        · rw [Function.update_of_ne hv] at hw; exact g.src_mem v w hw
      dst_mem := by
        intro v w hw
        by_cases hv : v = src
        · subst hv
          rw [Function.update_self, List.mem_append, List.mem_singleton] at hw
          exact hw.elim (g.dst_mem v w) (fun e => e ▸ h.2.1)
        · rw [Function.update_of_ne hv] at hw; exact g.dst_mem v w hw
      indegree_eq := by
        intro w
        by_cases hw : w = dst
        · subst hw
          rw [Function.update_self, g.indegree_eq]
          refine (countP_update g.nodup_nodes h.1 (fun x _ hx => ?_) ?_ ?_).symm
          · rw [Function.update_of_ne hx]
          · simpa using h.2.2.2
          · simp
        · rw [Function.update_of_ne hw, g.indegree_eq]
          refine List.countP_congr fun x _ => ?_
          by_cases hx : x = src
          · subst hx; simp [hw]
          · rw [Function.update_of_ne hx] }
  else g

@[simp] theorem addEdge_nodes (g : CountedGraph α) (src dst : α) :
    (g.addEdge src dst).nodes = g.nodes := by
  unfold addEdge; split_ifs <;> rfl

/-- The edges after `addEdge`. -/
theorem addEdge_E (g : CountedGraph α) (src dst u v : α) :
    (g.addEdge src dst).E u v ↔
      g.E u v ∨ (u = src ∧ v = dst ∧ src ≠ dst ∧ src ∈ g.nodes ∧ dst ∈ g.nodes) := by
  unfold addEdge E Edge
  split_ifs with h
  · by_cases hu : u = src
    · subst hu
      simp only [Function.update_self, List.mem_append, List.mem_singleton]
      exact or_congr_right ⟨fun e => ⟨trivial, e, h.2.2.1, h.1, h.2.1⟩, fun e => e.2.1⟩
    · simp only [Function.update_of_ne hu]
      exact ⟨.inl, fun h' => h'.resolve_right fun e => hu e.1⟩
  · refine ⟨.inl, fun h' => h'.elim id ?_⟩
    rintro ⟨rfl, rfl, hne, hs, hd⟩
    by_contra hc
    exact h ⟨hs, hd, hne, hc⟩

/-- Removes an edge. -/
def removeEdge (g : CountedGraph α) (src dst : α) : CountedGraph α :=
  if h : dst ∈ g.out src then
    { nodes := g.nodes
      out := Function.update g.out src ((g.out src).erase dst)
      indegree := Function.update g.indegree dst (g.indegree dst - 1)
      nodup_nodes := g.nodup_nodes
      nodup_out := by
        intro v
        by_cases hv : v = src
        · subst hv; rw [Function.update_self]; exact (g.nodup_out v).erase dst
        · rw [Function.update_of_ne hv]; exact g.nodup_out v
      src_mem := by
        intro v w hw
        by_cases hv : v = src
        · exact hv ▸ g.src_mem src dst h
        · rw [Function.update_of_ne hv] at hw; exact g.src_mem v w hw
      dst_mem := by
        intro v w hw
        by_cases hv : v = src
        · subst hv
          rw [Function.update_self] at hw
          exact g.dst_mem v w (List.mem_of_mem_erase hw)
        · rw [Function.update_of_ne hv] at hw; exact g.dst_mem v w hw
      indegree_eq := by
        intro w
        by_cases hw : w = dst
        · subst hw
          rw [Function.update_self, g.indegree_eq]
          have := countP_update g.nodup_nodes (g.src_mem src w h)
            (p := fun v => decide (w ∈ Function.update g.out src ((g.out src).erase w) v))
            (q := fun v => decide (w ∈ g.out v))
            (fun x _ hx => by rw [Function.update_of_ne hx])
            (by simpa using fun hc => (g.nodup_out src).not_mem_erase hc) (by simpa using h)
          omega
        · rw [Function.update_of_ne hw, g.indegree_eq]
          refine List.countP_congr fun x _ => ?_
          by_cases hx : x = src
          · subst hx; simp [List.mem_erase_of_ne hw]
          · rw [Function.update_of_ne hx] }
  else g

@[simp] theorem removeEdge_nodes (g : CountedGraph α) (src dst : α) :
    (g.removeEdge src dst).nodes = g.nodes := by
  unfold removeEdge; split_ifs <;> rfl

/-- The edges after `removeEdge`. -/
theorem removeEdge_E (g : CountedGraph α) (src dst u v : α) :
    (g.removeEdge src dst).E u v ↔ g.E u v ∧ ¬ (u = src ∧ v = dst) := by
  unfold removeEdge E Edge
  split_ifs with h
  · by_cases hu : u = src
    · subst hu
      simp only [Function.update_self, (g.nodup_out u).mem_erase_iff, true_and]
      exact and_comm
    · simp [hu]
  · refine ⟨fun h' => ⟨h', ?_⟩, fun h' => h'.1⟩
    rintro ⟨rfl, rfl⟩
    exact h h'

theorem E_src {g : CountedGraph α} {u v : α} (h : g.E u v) : u ∈ g.nodes := g.src_mem u v h

theorem E_dst {g : CountedGraph α} {u v : α} (h : g.E u v) : v ∈ g.nodes := g.dst_mem u v h

end Updates

/-! ## Transitive reduction -/

section Reduction

variable [LinearOrder α]

/-- The worklist of `reachableWithout`; the head of the list is the top of the stack. -/
def reachLoop (out : α → List α) (skip : α × α) (dst : α) : ℕ → List α → List α → Bool
  | 0, _, _ => false
  | _ + 1, [], _ => false
  | fuel + 1, node :: stack, seen =>
      if node = dst then true
      else if node ∈ seen then reachLoop out skip dst fuel stack seen
      else
        reachLoop out skip dst fuel
          ((((out node).insertionSort (· ≤ ·)).filter (fun nxt => (node, nxt) ≠ skip)).reverse
            ++ stack) (node :: seen)

/-- The number of edges. -/
def edgeCount (g : CountedGraph α) : ℕ := (g.nodes.map (fun v => (g.out v).length)).sum

/-- Is there a path from `src` to `dst` that does not use the edge `src → dst`?  Every node
is expanded once, so twice the number of edges bounds the pushes. -/
def reachableWithout (g : CountedGraph α) (src dst : α) : Bool :=
  reachLoop g.out (src, dst) dst (2 * g.edgeCount + 1)
    (((g.out src).insertionSort (· ≤ ·)).filter (fun nxt => (src, nxt) ≠ (src, dst))).reverse []

/-- Drops the edge `src → dst` when another path replaces it. -/
def reduceEdge (src : α) (g : CountedGraph α) (dst : α) : CountedGraph α :=
  if dst ∈ g.out src ∧ g.reachableWithout src dst = true then g.removeEdge src dst else g

/-- Drops the replaceable edges that start in `src`, in order. -/
def reduceNode (g : CountedGraph α) (src : α) : CountedGraph α :=
  ((g.out src).insertionSort (· ≤ ·)).foldl (reduceEdge src) g

/-- Transitive reduction, node by node in order. -/
def reduce (g : CountedGraph α) : CountedGraph α :=
  (g.nodes.insertionSort (· ≤ ·)).foldl reduceNode g

/-- A positive answer of the search is a path that avoids the skipped edge. -/
theorem reachLoop_sound {out : α → List α} {src dst : α} {E : α → α → Prop}
    (hE : ∀ u v, v ∈ out u → (u, v) ≠ (src, dst) → E u v) :
    ∀ (fuel : ℕ) (stack seen : List α), (∀ x ∈ stack, TransGen E src x) →
      reachLoop out (src, dst) dst fuel stack seen = true → TransGen E src dst := by
  intro fuel
  induction fuel with
  | zero => intro stack seen _ h; simp [reachLoop] at h
  | succ fuel ih =>
    intro stack seen hst h
    cases stack with
    | nil => simp [reachLoop] at h
    | cons node stack =>
      have hnode := hst node (by simp)
      rw [reachLoop] at h
      split_ifs at h with h1 h2
      · exact h1 ▸ hnode
      · exact ih stack seen (fun x hx => hst x (by simp [hx])) h
      · refine ih _ _ (fun x hx => ?_) h
        rcases List.mem_append.1 hx with hx | hx
        · obtain ⟨hx, hne⟩ := List.mem_filter.1 (List.mem_reverse.1 hx)
          exact hnode.tail (hE node x ((List.mem_insertionSort _).1 hx) (of_decide_eq_true hne))
        · exact hst x (by simp [hx])

theorem transGen_of_reachableWithout {g : CountedGraph α} {src dst : α}
    (h : g.reachableWithout src dst = true) : TransGen (g.removeEdge src dst).E src dst := by
  have hE : ∀ u v, v ∈ g.out u → (u, v) ≠ (src, dst) → (g.removeEdge src dst).E u v :=
    fun u v huv hne => (removeEdge_E g src dst u v).2 ⟨huv, fun e => hne (Prod.ext e.1 e.2)⟩
  refine reachLoop_sound hE _ _ _ (fun x hx => ?_) h
  · obtain ⟨hx, hne⟩ := List.mem_filter.1 (List.mem_reverse.1 hx)
    refine TransGen.single ((removeEdge_E g src dst src x).2
      ⟨(List.mem_insertionSort _).1 hx, fun e => ?_⟩)
    simp [e.2] at hne

/-- `g'` is a graph on the nodes of `g` with fewer edges and the same paths. -/
structure Reduces (g g' : CountedGraph α) : Prop where
  nodes_eq : g'.nodes = g.nodes
  sub : ∀ u v, g'.E u v → g.E u v
  path : ∀ u v, g.E u v → TransGen g'.E u v

theorem Reduces.refl (g : CountedGraph α) : Reduces g g :=
  ⟨rfl, fun _ _ h => h, fun _ _ h => TransGen.single h⟩

theorem Reduces.transGen {g g' : CountedGraph α} (h : Reduces g g') {u v : α}
    (huv : TransGen g.E u v) : TransGen g'.E u v := by
  induction huv with
  | single hb => exact h.path _ _ hb
  | tail _ hbc ih => exact ih.trans (h.path _ _ hbc)

theorem Reduces.trans {g g' g'' : CountedGraph α} (h : Reduces g g') (h' : Reduces g' g'') :
    Reduces g g'' :=
  ⟨h'.nodes_eq.trans h.nodes_eq, fun u v huv => h.sub u v (h'.sub u v huv),
    fun u v huv => h'.transGen (h.path u v huv)⟩

theorem reduces_reduceEdge (src : α) (g : CountedGraph α) (dst : α) :
    Reduces g (g.reduceEdge src dst) := by
  unfold reduceEdge
  split_ifs with h
  · refine ⟨removeEdge_nodes g src dst, fun u v huv => ((removeEdge_E g src dst u v).1 huv).1,
      fun u v huv => ?_⟩
    by_cases he : u = src ∧ v = dst
    · obtain ⟨rfl, rfl⟩ := he
      exact transGen_of_reachableWithout h.2
    · exact TransGen.single ((removeEdge_E g src dst u v).2 ⟨huv, he⟩)
  · exact Reduces.refl g

theorem reduces_foldl {β : Type*} {f : CountedGraph α → β → CountedGraph α}
    (hf : ∀ g b, Reduces g (f g b)) (l : List β) (g : CountedGraph α) : Reduces g (l.foldl f g) := by
  induction l generalizing g with
  | nil => exact Reduces.refl g
  | cons b l ih => exact (hf g b).trans (ih (f g b))

/-- **Transitive reduction keeps paths.** -/
theorem reduces_reduce (g : CountedGraph α) : Reduces g g.reduce :=
  reduces_foldl (fun g src => reduces_foldl (reduces_reduceEdge src) _ g) _ g

end Reduction

end CountedGraph

end DepGraph
