import Mathlib.Algebra.BigOperators.Group.List.Basic
import Mathlib.Data.List.Flatten
import Mathlib.Data.List.Lex
import Mathlib.Data.List.Pairwise
import Mathlib.Algebra.Order.Ring.Nat

/-!
# Breadth-first walks of trees

A walk takes nodes from the front of a queue and puts their children at its end.  With the way down to
a node as its path, the walk of a tree is the list of all its nodes, the less deep ones first and those
of one depth from left to right.

* `BreadthFirst.walk`, `BreadthFirst.nodeAt` — the walk, and the node at a path.
* `BreadthFirst.mem_walk_located` — the walk meets every node.
* `BreadthFirst.pairwise_walk` — in the order of depth.
* `BreadthFirst.walk_eq_append`, `BreadthFirst.exists_of_walk_eq_append` — what it meets before a node.
* `BreadthFirst.foldl_iff` — what a pass over the nodes brings about.
-/

namespace BreadthFirst

variable {α : Type*}

/-! ## Paths -/

/-- The walk meets the first path before the second. -/
def Earlier (p q : List ℕ) : Prop := p.length < q.length ∨ p.length = q.length ∧ p < q

instance (p q : List ℕ) : Decidable (Earlier p q) := inferInstanceAs (Decidable (_ ∨ _ ∧ _))

/-- The first path is left of the second, and not above it. -/
def Precedes (p q : List ℕ) : Prop := p < q ∧ ¬ p <+: q

theorem Earlier.irrefl (p : List ℕ) : ¬ Earlier p p := by
  rintro (h | ⟨-, h⟩)
  · exact Nat.lt_irrefl _ h
  · exact lt_irrefl p h

theorem Earlier.asymm {p q : List ℕ} (h : Earlier p q) : ¬ Earlier q p := by
  rintro (h' | ⟨hlen, h'⟩) <;> rcases h with h | ⟨hlen', h⟩
  · omega
  · omega
  · omega
  · exact lt_asymm h h'

/-- Paths of one length keep their order when more is put behind them. -/
theorem append_lt_append {a b c d : List ℕ} (hlen : a.length = b.length) (h : a < b) :
    a ++ c < b ++ d := by
  induction a generalizing b with
  | nil =>
    rw [List.length_nil, eq_comm, List.length_eq_zero_iff] at hlen
    exact absurd (hlen ▸ h) (lt_irrefl _)
  | cons x a ih =>
    cases b with
    | nil => cases hlen
    | cons y b =>
      rw [List.cons_append, List.cons_append, List.cons_lt_cons_iff]
      exact (List.cons_lt_cons_iff.1 h).imp_right
        fun ⟨hxy, hab⟩ => ⟨hxy, ih (Nat.succ.inj hlen) hab⟩

theorem append_singleton_lt (p : List ℕ) {i j : ℕ} (h : i < j) : p ++ [i] < p ++ [j] := by
  induction p with
  | nil => exact List.cons_lt_cons_iff.2 (.inl h)
  | cons x p ih => exact List.cons_lt_cons_iff.2 (.inr ⟨rfl, ih⟩)

/-! ## Walks -/

variable (children : α → List α)

/-- The nodes in the order in which they come out of the queue. -/
def walk : ℕ → List α → List α
  | 0, _ => []
  | _ + 1, [] => []
  | fuel + 1, a :: queue => a :: walk fuel (queue ++ children a)

/-- The node at a path: which child to go down to, at each step. -/
def nodeAt : List ℕ → α → Option α
  | [], a => some a
  | i :: path, a => ((children a)[i]?).bind (nodeAt path)

/-- The children of a node with their paths. -/
def located (x : List ℕ × α) : List (List ℕ × α) :=
  (children x.2).zipIdx.map fun child => (x.1 ++ [child.2], child.1)

/-- What the walk of a tree meets before a path. -/
def nodesBefore (fuel : ℕ) (a : α) (q : List ℕ) : List α :=
  ((walk (located children) fuel [([], a)]).filter (Earlier ·.1 q)).map Prod.snd

variable {children}

theorem mem_located {x y : List ℕ × α} :
    y ∈ located children x ↔ ∃ i, (children x.2)[i]? = some y.2 ∧ y.1 = x.1 ++ [i] := by
  rw [located, List.mem_map]
  constructor
  · rintro ⟨⟨c, i⟩, hchild, rfl⟩
    exact ⟨i, List.mem_zipIdx_iff_getElem?.1 hchild, rfl⟩
  · rintro ⟨i, hchild, hpath⟩
    exact ⟨(y.2, i), List.mem_zipIdx_iff_getElem?.2 hchild, Prod.ext hpath.symm rfl⟩

theorem map_snd_located (x : List ℕ × α) : (located children x).map Prod.snd = children x.2 := by
  rw [located, List.map_map]
  exact List.zipIdx_map_fst 0 _

variable (children) in
/-- The walk with the paths is the walk. -/
theorem map_snd_walk (fuel : ℕ) (queue : List (List ℕ × α)) :
    (walk (located children) fuel queue).map Prod.snd = walk children fuel (queue.map Prod.snd) := by
  induction fuel generalizing queue with
  | zero => rfl
  | succ fuel ih =>
    cases queue with
    | nil => rfl
    | cons x queue =>
      rw [walk, List.map_cons, List.map_cons, walk, ih, List.map_append, map_snd_located]

variable (children) in
/-- The first nodes of a queue come out first, and then their children are at its end. -/
theorem walk_append (fuel : ℕ) (xs ys : List α) :
    walk children (fuel + xs.length) (xs ++ ys) = xs ++ walk children fuel (ys ++ xs.flatMap children) := by
  induction xs generalizing ys with
  | nil => simp
  | cons x xs ih =>
    rw [List.length_cons, ← Nat.add_assoc, List.cons_append, walk, List.append_assoc, ih,
      List.flatMap_cons, List.append_assoc, List.cons_append]

/-! ### Enough fuel -/

section Enough

variable {size : α → ℕ} (hsize : ∀ a, ((children a).map size).sum < size a)

include hsize

/-- The next level is smaller, by a node for each one that came out. -/
theorem sum_flatMap_add_length_le (queue : List α) :
    ((queue.flatMap children).map size).sum + queue.length ≤ (queue.map size).sum := by
  induction queue with
  | nil => exact Nat.le_refl _
  | cons a queue ih =>
    have ha := hsize a
    rw [List.flatMap_cons, List.map_append, List.sum_append, List.length_cons, List.map_cons,
      List.sum_cons]
    omega

omit hsize in
theorem sum_located (x : List ℕ × α) :
    ((located children x).map (size ∘ Prod.snd)).sum = ((children x.2).map size).sum := by
  rw [← List.map_map, map_snd_located]

/-- The walk meets what can be reached from the queue. -/
theorem mem_walk_located {fuel : ℕ} {queue : List (List ℕ × α)}
    (hfuel : (queue.map (size ∘ Prod.snd)).sum ≤ fuel) {y : List ℕ × α} :
    y ∈ walk (located children) fuel queue ↔
      ∃ x ∈ queue, ∃ r, y.1 = x.1 ++ r ∧ nodeAt children r x.2 = some y.2 := by
  induction fuel generalizing queue with
  | zero =>
    cases queue with
    | nil => exact ⟨nofun, nofun⟩
    | cons x queue =>
      have hx := hsize x.2
      rw [List.map_cons, List.sum_cons, Function.comp_apply] at hfuel
      omega
  | succ fuel ih =>
    cases queue with
    | nil => exact ⟨nofun, nofun⟩
    | cons x queue =>
      have hrest : ((queue ++ located children x).map (size ∘ Prod.snd)).sum ≤ fuel := by
        have hx := hsize x.2
        rw [List.map_append, List.sum_append, sum_located]
        rw [List.map_cons, List.sum_cons, Function.comp_apply] at hfuel
        omega
      rw [walk, List.mem_cons, ih hrest]
      constructor
      · rintro (rfl | ⟨z, hz, r, hpath, hnode⟩)
        · exact ⟨y, List.mem_cons_self, [], (List.append_nil _).symm, rfl⟩
        · rcases List.mem_append.1 hz with hz | hz
          · exact ⟨z, List.mem_cons_of_mem _ hz, r, hpath, hnode⟩
          · obtain ⟨i, hchild, hz⟩ := mem_located.1 hz
            refine ⟨x, List.mem_cons_self, i :: r, ?_, ?_⟩
            · rw [hpath, hz, List.append_assoc, List.singleton_append]
            · rw [nodeAt, hchild]
              exact hnode
      · rintro ⟨z, hz, r, hpath, hnode⟩
        rcases List.mem_cons.1 hz with rfl | hz
        · cases r with
          | nil =>
            rw [nodeAt, Option.some.injEq] at hnode
            exact .inl (Prod.ext (hpath.trans (List.append_nil _)) hnode.symm)
          | cons i r =>
            rw [nodeAt] at hnode
            obtain ⟨c, hchild, hnode⟩ := Option.bind_eq_some_iff.1 hnode
            refine .inr ⟨(z.1 ++ [i], c), List.mem_append_right _ (mem_located.2 ⟨i, hchild, rfl⟩), r,
              ?_, hnode⟩
            rw [hpath, List.append_assoc, List.singleton_append]
        · exact .inr ⟨z, List.mem_append_left _ hz, r, hpath, hnode⟩

/-- From a queue of nodes of one depth, in order, the walk goes down level by level. -/
theorem pairwise_walk_of_level {fuel n : ℕ} {queue : List (List ℕ × α)}
    (hfuel : (queue.map (size ∘ Prod.snd)).sum ≤ fuel) (hlevel : ∀ x ∈ queue, x.1.length = n)
    (hqueue : queue.Pairwise (·.1 < ·.1)) :
    (walk (located children) fuel queue).Pairwise (Earlier ·.1 ·.1) ∧
      ∀ x ∈ walk (located children) fuel queue, n ≤ x.1.length := by
  induction fuel using Nat.strong_induction_on generalizing queue n with
  | _ fuel ih =>
    cases hq : queue with
    | nil => cases fuel <;> exact ⟨.nil, nofun⟩
    | cons a rest =>
      rw [← hq]
      have hpos : 0 < queue.length := hq ▸ Nat.succ_pos _
      -- the level is worked off, and the next one is in the queue
      have hnext : ((queue.flatMap (located children)).map (size ∘ Prod.snd)).sum + queue.length ≤
          (queue.map (size ∘ Prod.snd)).sum :=
        sum_flatMap_add_length_le (fun x => by rw [sum_located]; exact hsize x.2) queue
      have hsplit : walk (located children) fuel queue = queue ++
          walk (located children) (fuel - queue.length) (queue.flatMap (located children)) := by
        have happend := walk_append (located children) (fuel - queue.length) queue []
        rwa [Nat.sub_add_cancel (by omega), List.append_nil, List.nil_append] at happend
      have hlevel' : ∀ y ∈ queue.flatMap (located children), y.1.length = n + 1 := by
        intro y hy
        obtain ⟨x, hx, hyx⟩ := List.mem_flatMap.1 hy
        obtain ⟨i, -, hpath⟩ := mem_located.1 hyx
        rw [hpath, List.length_append, hlevel x hx, List.length_singleton]
      have hqueue' : (queue.flatMap (located children)).Pairwise (·.1 < ·.1) := by
        refine List.pairwise_flatMap.2 ⟨fun x _ => ?_, hqueue.imp_of_mem fun {x y} hx hy hxy => ?_⟩
        · rw [located, List.pairwise_map]
          refine List.pairwise_iff_getElem.2 fun i j hi hj hij => ?_
          rw [List.getElem_zipIdx, List.getElem_zipIdx]
          exact append_singleton_lt x.1 (by omega)
        · intro u hu v hv
          obtain ⟨i, -, hu⟩ := mem_located.1 hu
          obtain ⟨j, -, hv⟩ := mem_located.1 hv
          rw [hu, hv]
          exact append_lt_append ((hlevel x hx).trans (hlevel y hy).symm) hxy
      obtain ⟨hpairwise, hdeep⟩ := ih (fuel - queue.length) (by omega) (by omega) hlevel' hqueue'
      rw [hsplit]
      constructor
      · refine List.pairwise_append.2 ⟨?_, hpairwise, fun x hx y hy => .inl ?_⟩
        · exact hqueue.imp_of_mem fun hx hy hxy =>
            .inr ⟨(hlevel _ hx).trans (hlevel _ hy).symm, hxy⟩
        · have hy := hdeep y hy
          rw [hlevel x hx]
          omega
      · intro x hx
        rcases List.mem_append.1 hx with hx | hx
        · exact (hlevel x hx).ge
        · exact (Nat.le_succ n).trans (hdeep x hx)

variable {fuel : ℕ} {a : α} (hfuel : size a ≤ fuel)

include hfuel

/-- The walk of a tree meets the earlier paths first. -/
theorem pairwise_walk : (walk (located children) fuel [([], a)]).Pairwise (Earlier ·.1 ·.1) :=
  (pairwise_walk_of_level hsize (n := 0) (by simpa using hfuel) (by simp)
    (List.pairwise_singleton _ _)).1

theorem mem_walk_tree {q : List ℕ} {b : α} :
    (q, b) ∈ walk (located children) fuel [([], a)] ↔ nodeAt children q a = some b := by
  rw [mem_walk_located hsize (by simpa using hfuel)]
  simp

theorem mem_nodesBefore {q : List ℕ} {b : α} :
    b ∈ nodesBefore children fuel a q ↔ ∃ p, nodeAt children p a = some b ∧ Earlier p q := by
  rw [nodesBefore, List.mem_map]
  constructor
  · rintro ⟨⟨p, c⟩, hc, rfl⟩
    obtain ⟨hc, hpq⟩ := List.mem_filter.1 hc
    exact ⟨p, (mem_walk_tree hsize hfuel).1 hc, of_decide_eq_true hpq⟩
  · rintro ⟨p, hp, hpq⟩
    exact ⟨(p, b), List.mem_filter.2 ⟨(mem_walk_tree hsize hfuel).2 hp, decide_eq_true hpq⟩, rfl⟩

/-- What stands before a node of the walk is what is met before it. -/
theorem nodesBefore_eq {before after : List (List ℕ × α)} {x : List ℕ × α}
    (h : walk (located children) fuel [([], a)] = before ++ x :: after) :
    nodesBefore children fuel a x.1 = before.map Prod.snd := by
  have hsorted := pairwise_walk hsize hfuel
  rw [h, List.pairwise_append, List.pairwise_cons] at hsorted
  obtain ⟨-, ⟨hafter, -⟩, hbefore⟩ := hsorted
  rw [nodesBefore, h, List.filter_append, List.filter_cons_of_neg
    (by simpa using Earlier.irrefl x.1)]
  rw [List.filter_eq_self.2 fun y hy => decide_eq_true (hbefore y hy x List.mem_cons_self),
    List.filter_eq_nil_iff.2 fun y hy => by simpa using (hafter y hy).asymm, List.append_nil]

/-- The walk meets the node at a path after what is met before the path. -/
theorem walk_eq_append {q : List ℕ} {b : α} (h : nodeAt children q a = some b) :
    ∃ after, walk children fuel [a] = nodesBefore children fuel a q ++ b :: after := by
  obtain ⟨before, after, hsplit⟩ := List.append_of_mem ((mem_walk_tree hsize hfuel).2 h)
  have hmap := map_snd_walk children fuel [([], a)]
  rw [hsplit, List.map_append, List.map_cons] at hmap
  rw [nodesBefore_eq hsize hfuel hsplit]
  exact ⟨after.map Prod.snd, hmap.symm⟩

/-- Every node that the walk meets is at a path. -/
theorem exists_of_walk_eq_append {before after : List α} {b : α}
    (h : walk children fuel [a] = before ++ b :: after) :
    ∃ q, nodeAt children q a = some b ∧ before = nodesBefore children fuel a q := by
  have hmap := map_snd_walk children fuel [([], a)]
  rw [List.map_singleton, h] at hmap
  obtain ⟨before', rest, hsplit, rfl, hrest⟩ := List.map_eq_append_iff.1 hmap
  obtain ⟨x, after', rfl, rfl, rfl⟩ := List.map_eq_cons_iff.1 hrest
  refine ⟨x.1, (mem_walk_tree hsize hfuel).1 ?_, (nodesBefore_eq hsize hfuel hsplit).symm⟩
  rw [hsplit]
  exact List.mem_append_right _ List.mem_cons_self

end Enough

/-! ## Passes -/

/-- What holds after a pass held at its start, or a turn brought it about. -/
theorem foldl_iff {σ : Type*} {step : σ → α → σ} {P : σ → Prop} {A : σ → α → Prop}
    (h : ∀ s a, P (step s a) ↔ P s ∨ A s a) (l : List α) (s : σ) :
    P (l.foldl step s) ↔
      P s ∨ ∃ before a after, l = before ++ a :: after ∧ A (before.foldl step s) a := by
  induction l generalizing s with
  | nil =>
    refine ⟨.inl, fun hP => hP.resolve_right ?_⟩
    rintro ⟨before, a, after, hl, -⟩
    cases before <;> cases hl
  | cons b l ih =>
    rw [List.foldl_cons, ih, h, or_assoc]
    refine or_congr_right ?_
    constructor
    · rintro (hb | ⟨before, a, after, rfl, ha⟩)
      · exact ⟨[], b, l, rfl, hb⟩
      · exact ⟨b :: before, a, after, rfl, ha⟩
    · rintro ⟨before, a, after, hl, ha⟩
      cases before with
      | nil =>
        cases hl
        exact .inl ha
      | cons c before =>
        cases hl
        exact .inr ⟨before, a, after, rfl, ha⟩

/-- When a turn does not depend on the state, its place in the pass does not matter. -/
theorem foldl_iff_exists_mem {σ : Type*} {step : σ → α → σ} {P : σ → Prop} {A : α → Prop}
    (h : ∀ s a, P (step s a) ↔ P s ∨ A a) (l : List α) (s : σ) :
    P (l.foldl step s) ↔ P s ∨ ∃ a ∈ l, A a := by
  refine (foldl_iff (A := fun _ => A) h l s).trans (or_congr_right ?_)
  constructor
  · rintro ⟨before, a, after, rfl, ha⟩
    exact ⟨a, List.mem_append_right _ List.mem_cons_self, ha⟩
  · rintro ⟨a, hmem, ha⟩
    obtain ⟨before, after, rfl⟩ := List.append_of_mem hmem
    exact ⟨before, a, after, rfl, ha⟩

end BreadthFirst
