import FloWeaver.Lib.Digraph
import Mathlib.Tactic.Linarith

/-!
# Strongly connected components by depth-first search

Tarjan's algorithm as it is usually programmed: a discovery index, a low link, a
stack of open nodes and a list of finished components.  Only the components that
carry a cycle (two or more nodes, or one node with a self loop) are collected.

* `tarjan` — the program; the recursion is bounded by the number of nodes.
* `Inv` — what holds between two visits: the stack is ordered by discovery, the
  nodes already popped are closed under successors and each of them is either in a
  collected component or on no cycle.
* `exists_component_of_cycle` / `cycle_of_mem_component` — a node of the graph is in
  a collected component exactly when it lies on a cycle.
-/

set_option linter.unusedSectionVars false

namespace DepGraph

open Relation

variable {α : Type*} [DecidableEq α]

/-- The state of the search. -/
structure TarjanState (α : Type*) where
  /-- The next discovery index. -/
  index : ℕ
  /-- The open nodes, the last one found first. -/
  stack : List α
  /-- The discovery index of every node already found. -/
  indices : α → Option ℕ
  lowlink : α → ℕ
  /-- The components collected so far. -/
  components : List (List α)

namespace TarjanState

/-- The state before the first visit. -/
def empty : TarjanState α :=
  { index := 0, stack := [], indices := fun _ => none, lowlink := fun _ => 0, components := [] }

/-- The discovery index of a node (`0` for a node not found yet). -/
def idx (s : TarjanState α) (v : α) : ℕ := (s.indices v).getD 0

/-- Opens a node: it gets the next index and goes on the stack. -/
def enter (s : TarjanState α) (v : α) : TarjanState α :=
  { s with
    index := s.index + 1
    stack := v :: s.stack
    indices := Function.update s.indices v (some s.index)
    lowlink := Function.update s.lowlink v s.index }

/-- Lowers the low link of a node. -/
def lower (s : TarjanState α) (v : α) (k : ℕ) : TarjanState α :=
  { s with lowlink := Function.update s.lowlink v (min (s.lowlink v) k) }

end TarjanState

open TarjanState

/-- Pops a stack down to a node: the popped nodes, and what is left. -/
def popUntil (v : α) : List α → List α × List α
  | [] => ([], [])
  | w :: ws => if w = v then ([w], ws) else (w :: (popUntil v ws).1, (popUntil v ws).2)

/-- Looks at one successor `w` of `v`; `visit` is the recursive call. -/
def visitSuccessor (visit : α → TarjanState α → TarjanState α) (v : α) (s : TarjanState α)
    (w : α) : TarjanState α :=
  match s.indices w with
  | none => (visit w s).lower v ((visit w s).lowlink w)
  | some i => if w ∈ s.stack then s.lower v i else s

/-- Finishes `v`: when its low link is its own index, the nodes above it on the stack
form a component, collected if it carries a cycle. -/
def closeComponent (succ : α → List α) (v : α) (s : TarjanState α) : TarjanState α :=
  if s.lowlink v ≠ s.idx v then s
  else
    let c := (popUntil v s.stack).1
    { s with
      stack := (popUntil v s.stack).2
      components := if 1 < c.length ∨ v ∈ succ v then s.components ++ [c] else s.components }

/-- The recursive visit of a node. -/
def strongconnect (succ : α → List α) : ℕ → α → TarjanState α → TarjanState α
  | 0, _, s => s
  | fuel + 1, v, s =>
      closeComponent succ v
        ((succ v).foldl (visitSuccessor (strongconnect succ fuel) v) (s.enter v))

/-- One round of the outer loop: visit `v` unless it was found before. -/
def visitRoot (succ : α → List α) (fuel : ℕ) (s : TarjanState α) (v : α) : TarjanState α :=
  match s.indices v with
  | none => strongconnect succ fuel v s
  | some _ => s

/-- The components with a cycle of the graph on `nodes`. -/
def tarjan (succ : α → List α) (nodes : List α) : List (List α) :=
  (nodes.foldl (visitRoot succ nodes.length) empty).components

/-! ## Popping -/

theorem popUntil_append {v : α} {T rest : List α} (hv : v ∉ T) :
    popUntil v (T ++ v :: rest) = (T ++ [v], rest) := by
  induction T with
  | nil => simp [popUntil]
  | cons t T ih =>
    have ht : t ≠ v := fun h => hv (by simp [h])
    rw [List.cons_append, popUntil, if_neg ht, ih (fun h => hv (List.mem_cons_of_mem _ h))]
    rfl

/-! ## What holds between two visits -/

/-- Found before. -/
def Visited (s : TarjanState α) (v : α) : Prop := s.indices v ≠ none

/-- Found and no longer open. -/
def Popped (s : TarjanState α) (v : α) : Prop := Visited s v ∧ v ∉ s.stack

/-- The invariant of the search. -/
structure Inv (succ : α → List α) (s : TarjanState α) : Prop where
  visited_of_mem : ∀ w ∈ s.stack, Visited s w
  sorted : s.stack.Pairwise (fun a b => s.idx b < s.idx a)
  idx_lt : ∀ w, Visited s w → s.idx w < s.index
  closed : ∀ w, Popped s w → ∀ x ∈ succ w, Popped s x
  covered : ∀ w, Popped s w → (∃ C ∈ s.components, w ∈ C) ∨ ¬ TransGen (Edge succ) w w
  sound : ∀ C ∈ s.components, ∀ w ∈ C, TransGen (Edge succ) w w
  nonempty : ∀ C ∈ s.components, C ≠ []

/-- What a visit leaves alone. -/
structure Extends (s s' : TarjanState α) : Prop where
  indices_eq : ∀ w, Visited s w → s'.indices w = s.indices w
  lowlink_eq : ∀ w, Visited s w → s'.lowlink w = s.lowlink w
  popped : ∀ w, Popped s w → Popped s' w
  index_le : s.index ≤ s'.index

theorem Extends.refl (s : TarjanState α) : Extends s s :=
  ⟨fun _ _ => rfl, fun _ _ => rfl, fun _ h => h, Nat.le_refl _⟩

theorem Extends.visited {s s' : TarjanState α} (h : Extends s s') {w : α} (hw : Visited s w) :
    Visited s' w := by
  rw [Visited, h.indices_eq w hw]
  exact hw

theorem Extends.idx_eq {s s' : TarjanState α} (h : Extends s s') {w : α} (hw : Visited s w) :
    s'.idx w = s.idx w := by
  rw [TarjanState.idx, TarjanState.idx, h.indices_eq w hw]

theorem Extends.trans {s s' s'' : TarjanState α} (h : Extends s s') (h' : Extends s' s'') :
    Extends s s'' where
  indices_eq w hw := (h'.indices_eq w (h.visited hw)).trans (h.indices_eq w hw)
  lowlink_eq w hw := (h'.lowlink_eq w (h.visited hw)).trans (h.lowlink_eq w hw)
  popped w hw := h'.popped w (h.popped w hw)
  index_le := h.index_le.trans h'.index_le

/-- The invariant does not look at low links. -/
theorem Inv.lower {succ : α → List α} {s : TarjanState α} (h : Inv succ s) (v : α) (k : ℕ) :
    Inv succ (s.lower v k) :=
  ⟨h.visited_of_mem, h.sorted, h.idx_lt, h.closed, h.covered, h.sound, h.nonempty⟩

theorem inv_empty (succ : α → List α) : Inv succ (empty : TarjanState α) where
  visited_of_mem w hw := absurd hw (by simp [empty])
  sorted := by simp [empty]
  idx_lt w hw := absurd rfl hw
  closed w hw := absurd rfl hw.1
  covered w hw := absurd rfl hw.1
  sound C hC := absurd hC (by simp [empty])
  nonempty C hC := absurd hC (by simp [empty])

/-- Where a successor of an open node may be: finished, in the part `T` of the stack
above the node's own base, or below it at an index the low link `k` has seen. -/
def Settled (s : TarjanState α) (T base : List α) (k : ℕ) (y : α) : Prop :=
  Popped s y ∨ y ∈ T ∨ (y ∈ base ∧ k ≤ s.idx y)

/-- What a visit of `v` from `s` achieves.  `T` is what it leaves on the stack. -/
structure VisitPost (succ : α → List α) (s : TarjanState α) (v : α) (s' : TarjanState α)
    (T : List α) : Prop where
  inv : Inv succ s'
  ext : Extends s s'
  indices_v : s'.indices v = some s.index
  stack_eq : s'.stack = T ++ s.stack
  fresh : ∀ x ∈ T, ¬ Visited s x
  reach : ∀ x ∈ T, ReflTransGen (Edge succ) x v ∧ ReflTransGen (Edge succ) v x
  settled : ∀ x ∈ T, ∀ y ∈ succ x, Settled s' T s.stack (s'.lowlink v) y
  low : (T = [] ∧ s'.lowlink v = s.index) ∨
    (v ∈ T ∧ ∃ y ∈ s.stack, s'.idx y = s'.lowlink v ∧ ReflTransGen (Edge succ) v y)

/-- The invariant of the loop over the successors of `v`; `seen` are the successors
already looked at and `T` is the part of the stack above `v`. -/
structure LoopInv (succ : α → List α) (s : TarjanState α) (v : α) (seen : List α)
    (s' : TarjanState α) (T : List α) : Prop where
  inv : Inv succ s'
  ext : Extends s s'
  indices_v : s'.indices v = some s.index
  stack_eq : s'.stack = T ++ v :: s.stack
  fresh : ∀ x ∈ T, ¬ Visited s x
  reach : ∀ x ∈ T, ReflTransGen (Edge succ) x v ∧ ReflTransGen (Edge succ) v x
  settled : ∀ x ∈ T, ∀ y ∈ succ x, Settled s' (T ++ [v]) s.stack (s'.lowlink v) y
  seen_settled : ∀ y ∈ seen, Settled s' (T ++ [v]) s.stack (s'.lowlink v) y
  low_le : s'.lowlink v ≤ s.index
  low : s'.lowlink v = s.index ∨
    ∃ y ∈ s.stack, s'.idx y = s'.lowlink v ∧ ReflTransGen (Edge succ) v y

/-- What a visit may assume. -/
structure VisitPre (succ : α → List α) (s : TarjanState α) (v : α) : Prop where
  inv : Inv succ s
  unvisited : ¬ Visited s v
  reach : ∀ y ∈ s.stack, ReflTransGen (Edge succ) y v

section Visit

variable {succ : α → List α} {s s' : TarjanState α} {v w y : α} {T base : List α} {k k' : ℕ}

/-- A node that stays settled when the search goes on: finished nodes stay finished, `T` may
grow and the low link may fall. -/
theorem Settled.mono {T' : List α} (h : Settled s T base k y) (he : Extends s s')
    (hT : ∀ x ∈ T, x ∈ T') (hbase : ∀ x ∈ base, Visited s x) (hk : k' ≤ k) :
    Settled s' T' base k' y := by
  rcases h with h | h | ⟨hb, hi⟩
  · exact .inl (he.popped y h)
  · exact .inr (.inl (hT y h))
  · exact .inr (.inr ⟨hb, by rw [he.idx_eq (hbase y hb)]; omega⟩)

theorem settled_lower : Settled (s.lower v k) T base k' y ↔ Settled s T base k' y := Iff.rfl

@[simp] theorem lower_lowlink : (s.lower v k).lowlink v = min (s.lowlink v) k := by
  simp [TarjanState.lower]

/-- Opening `v` starts the loop over its successors. -/
theorem loopInv_enter (h : VisitPre succ s v) : LoopInv succ s v [] (s.enter v) [] := by
  obtain ⟨hinv, hun, -⟩ := h
  have hidx : ∀ w, Visited s w → (s.enter v).idx w = s.idx w := by
    intro w hw
    have hne : w ≠ v := fun e => hun (e ▸ hw)
    simp [TarjanState.idx, TarjanState.enter, Function.update_of_ne hne]
  have hv : (s.enter v).idx v = s.index := by simp [TarjanState.idx, TarjanState.enter]
  have hpop : ∀ w, Popped (s.enter v) w ↔ Popped s w := by
    intro w
    by_cases hwv : w = v
    · subst hwv
      exact ⟨fun h => absurd (by simp [TarjanState.enter]) h.2, fun h => absurd h.1 hun⟩
    · simp [Popped, Visited, TarjanState.enter, hwv]
  refine ⟨⟨?_, ?_, ?_, ?_, ?_, hinv.sound, hinv.nonempty⟩, ⟨?_, ?_, fun w => (hpop w).2, Nat.le_succ _⟩,
    by simp [TarjanState.enter], rfl, by simp, by simp, by simp, by simp,
    by simp [TarjanState.enter], .inl (by simp [TarjanState.enter])⟩
  · intro w hw
    rcases List.mem_cons.1 hw with rfl | hw
    · simp [Visited, TarjanState.enter]
    · have hne : w ≠ v := fun e => hun (e ▸ hinv.visited_of_mem w hw)
      simpa [Visited, TarjanState.enter, Function.update_of_ne hne] using hinv.visited_of_mem w hw
  · refine List.pairwise_cons.2 ⟨fun w hw => ?_, ?_⟩
    · rw [hv, hidx w (hinv.visited_of_mem w hw)]
      exact hinv.idx_lt w (hinv.visited_of_mem w hw)
    · refine hinv.sorted.imp_of_mem fun {a b} ha hb hab => ?_
      rw [hidx a (hinv.visited_of_mem a ha), hidx b (hinv.visited_of_mem b hb)]
      exact hab
  · intro w hw
    by_cases hwv : w = v
    · subst hwv; rw [hv]; exact Nat.lt_succ_self _
    · have hw' : Visited s w := by
        simpa [Visited, TarjanState.enter, Function.update_of_ne hwv] using hw
      rw [hidx w hw']
      exact Nat.lt_succ_of_lt (hinv.idx_lt w hw')
  · intro w hw x hx
    exact (hpop x).2 (hinv.closed w ((hpop w).1 hw) x hx)
  · intro w hw
    exact hinv.covered w ((hpop w).1 hw)
  · intro w hw
    have hne : w ≠ v := fun e => hun (e ▸ hw)
    simp [TarjanState.enter, Function.update_of_ne hne]
  · intro w hw
    have hne : w ≠ v := fun e => hun (e ▸ hw)
    simp [TarjanState.enter, Function.update_of_ne hne]

/-- The stack of the loop state splits into the nodes above `v`, `v` and the base. -/
theorem LoopInv.mem_stack {seen : List α} (h : LoopInv succ s v seen s' T) :
    y ∈ s'.stack ↔ y ∈ T ∨ y = v ∨ y ∈ s.stack := by
  rw [h.stack_eq]; simp

theorem LoopInv.idx_v {seen : List α} (h : LoopInv succ s v seen s' T) : s'.idx v = s.index := by
  rw [TarjanState.idx, h.indices_v]; rfl

/-- The nodes above `v`, and `v`, have an index the low link of `v` never reaches. -/
theorem LoopInv.index_le {seen : List α} (h : LoopInv succ s v seen s' T) (hy : y ∈ T ∨ y = v) :
    s.index ≤ s'.idx y := by
  rcases hy with hy | rfl
  · have hs := h.inv.sorted
    rw [h.stack_eq, List.pairwise_append] at hs
    have := hs.2.2 y hy v (by simp)
    rw [h.idx_v] at this
    exact this.le
  · exact h.idx_v.ge

/-- Everything on the stack reaches `v`. -/
theorem LoopInv.reach_v {seen : List α} (h : LoopInv succ s v seen s' T)
    (hpre : VisitPre succ s v) (hy : y ∈ s'.stack) : ReflTransGen (Edge succ) y v := by
  rcases h.mem_stack.1 hy with hy | rfl | hy
  · exact (h.reach y hy).1
  · exact .refl
  · exact hpre.reach y hy

/-- Lowering the low link of `v` by the index of a node on the stack that `v` reaches. -/
theorem LoopInv.lower {seen : List α} (h : LoopInv succ s v seen s' T) (hpre : VisitPre succ s v)
    (hy : y ∈ s'.stack) (hr : ReflTransGen (Edge succ) v y) :
    LoopInv succ s v seen (s'.lower v (s'.idx y)) T := by
  have hbase : ∀ x ∈ s.stack, Visited s' x := fun x hx =>
    h.ext.visited (hpre.inv.visited_of_mem x hx)
  have hle : (s'.lower v (s'.idx y)).lowlink v ≤ s'.lowlink v := by
    rw [lower_lowlink]; exact Nat.min_le_left ..
  refine ⟨h.inv.lower v _, ⟨h.ext.indices_eq, fun w hw => ?_, h.ext.popped, h.ext.index_le⟩,
    h.indices_v, h.stack_eq, h.fresh, h.reach, fun x hx z hz => ?_, fun z hz => ?_,
    hle.trans h.low_le, ?_⟩
  · have hne : w ≠ v := fun e => hpre.unvisited (e ▸ hw)
    simpa [TarjanState.lower, Function.update_of_ne hne] using h.ext.lowlink_eq w hw
  · exact settled_lower.2
      ((h.settled x hx z hz).mono (Extends.refl s') (fun _ hx => hx) hbase hle)
  · exact settled_lower.2
      ((h.seen_settled z hz).mono (Extends.refl s') (fun _ hx => hx) hbase hle)
  · rw [lower_lowlink]
    rcases h.mem_stack.1 hy with hy' | hy' | hy'
    · rw [Nat.min_eq_left (h.low_le.trans (h.index_le (.inl hy')))]; exact h.low
    · rw [Nat.min_eq_left (h.low_le.trans (h.index_le (.inr hy')))]; exact h.low
    · rcases Nat.le_total (s'.lowlink v) (s'.idx y) with hm | hm
      · rw [Nat.min_eq_left hm]; exact h.low
      · rw [Nat.min_eq_right hm]
        exact .inr ⟨y, hy', rfl, hr⟩

/-- Recording one more successor as looked at. -/
theorem LoopInv.see {seen : List α} (h : LoopInv succ s v seen s' T)
    (hw : Settled s' (T ++ [v]) s.stack (s'.lowlink v) w) :
    LoopInv succ s v (seen ++ [w]) s' T :=
  { h with
    seen_settled := fun y hy => by
      rcases List.mem_append.1 hy with hy | hy
      · exact h.seen_settled y hy
      · rw [List.mem_singleton.1 hy]; exact hw }

/-- Where a node that a nested visit of `w` has settled stands for the loop over the successors
of `v`. -/
theorem LoopInv.settled_nested {seen : List α} {s'' : TarjanState α} {T' : List α}
    (h : LoopInv succ s v seen s' T) (hw : Settled s'' T' s'.stack k y) (hk : k' ≤ k) :
    Settled s'' ((T' ++ T) ++ [v]) s.stack k' y := by
  rcases hw with hy | hy | ⟨hy, hi⟩
  · exact .inl hy
  · exact .inr (.inl (by simp [hy]))
  · rcases h.mem_stack.1 hy with hy | rfl | hy
    · exact .inr (.inl (by simp [hy]))
    · exact .inr (.inl (by simp))
    · exact .inr (.inr ⟨hy, hk.trans hi⟩)

/-- The low link of `v` after a nested visit of `w`: it is still a discovery index `v` reaches. -/
theorem LoopInv.low_nested {seen : List α} {s'' : TarjanState α} {T' : List α}
    (h : LoopInv succ s v seen s' T) (hw : w ∈ succ v) (hp : VisitPost succ s' w s'' T') :
    min (s''.lowlink v) (s''.lowlink w) = s.index ∨
      ∃ y ∈ s.stack, s''.idx y = min (s''.lowlink v) (s''.lowlink w) ∧
        ReflTransGen (Edge succ) v y := by
  have hvis : Visited s' v := by rw [Visited, h.indices_v]; simp
  have hlow : s''.lowlink v = s'.lowlink v := hp.ext.lowlink_eq v hvis
  have hidx : ∀ y ∈ s'.stack, s''.idx y = s'.idx y := fun y hy =>
    hp.ext.idx_eq (h.inv.visited_of_mem y hy)
  have hold : s''.lowlink v = s.index ∨
      ∃ y ∈ s.stack, s''.idx y = s''.lowlink v ∧ ReflTransGen (Edge succ) v y := by
    rw [hlow]
    refine h.low.imp_right ?_
    rintro ⟨y, hy, hi, hr⟩
    exact ⟨y, hy, by rw [hidx y (h.mem_stack.2 (.inr (.inr hy))), hi], hr⟩
  rcases Nat.le_total (s''.lowlink v) (s''.lowlink w) with hm | hm
  · rw [Nat.min_eq_left hm]; exact hold
  · rw [Nat.min_eq_right hm]
    rcases hp.low with ⟨-, hlw⟩ | ⟨-, y, hy, hi, hr⟩
    · -- `w` was popped at once: its low link is an index above that of `v`
      have h1 := h.low_le
      have h2 : s.index < s'.index := by
        have := h.inv.idx_lt v hvis
        rwa [h.idx_v] at this
      exact absurd hm (by omega)
    · rcases h.mem_stack.1 hy with hy' | hy' | hy'
      · have h1 := h.index_le (.inl hy')
        have h2 := h.low_le
        have h3 := hidx y hy
        exact .inl (by omega)
      · have h1 := h.index_le (.inr hy')
        have h2 := h.low_le
        have h3 := hidx y hy
        exact .inl (by omega)
      · exact .inr ⟨y, hy', hi, (ReflTransGen.single hw).trans hr⟩

/-- The loop goes on with the state a nested visit leaves. -/
theorem LoopInv.visit {seen : List α} {s'' : TarjanState α} {T' : List α}
    (h : LoopInv succ s v seen s' T) (hpre : VisitPre succ s v) (hw : w ∈ succ v)
    (hun : ¬ Visited s' w) (hp : VisitPost succ s' w s'' T') :
    LoopInv succ s v (seen ++ [w]) (s''.lower v (s''.lowlink w)) (T' ++ T) := by
  have hvis : Visited s' v := by rw [Visited, h.indices_v]; simp
  have hlow : s''.lowlink v = s'.lowlink v := hp.ext.lowlink_eq v hvis
  have hbase : ∀ x ∈ s.stack, Visited s' x := fun x hx =>
    h.ext.visited (hpre.inv.visited_of_mem x hx)
  have hmin : (s''.lower v (s''.lowlink w)).lowlink v = min (s''.lowlink v) (s''.lowlink w) :=
    lower_lowlink
  have hmono : ∀ z, Settled s' (T ++ [v]) s.stack (s'.lowlink v) z →
      Settled s'' ((T' ++ T) ++ [v]) s.stack (min (s''.lowlink v) (s''.lowlink w)) z :=
    fun z hz => hz.mono hp.ext
      (fun x hx => by rcases List.mem_append.1 hx with hx | hx <;> simp [hx]) hbase
      ((Nat.min_le_left ..).trans hlow.le)
  have hwv : ReflTransGen (Edge succ) w v ∨ T' = [] := by
    rcases hp.low with ⟨hT, -⟩ | ⟨-, y, hy, -, hr⟩
    · exact .inr hT
    · exact .inl (hr.trans (h.reach_v hpre hy))
  refine ⟨hp.inv.lower v _, ?_, (hp.ext.indices_eq v hvis).trans h.indices_v, ?_, ?_, ?_, ?_, ?_,
    ?_, ?_⟩
  · have he := h.ext.trans hp.ext
    refine ⟨he.indices_eq, fun z hz => ?_, he.popped, he.index_le⟩
    have hne : z ≠ v := fun e => hpre.unvisited (e ▸ hz)
    simpa [TarjanState.lower, Function.update_of_ne hne] using he.lowlink_eq z hz
  · show s''.stack = _
    rw [hp.stack_eq, h.stack_eq, List.append_assoc]
  · intro x hx
    rcases List.mem_append.1 hx with hx | hx
    · exact fun hc => hp.fresh x hx (h.ext.visited hc)
    · exact h.fresh x hx
  · intro x hx
    rcases List.mem_append.1 hx with hx | hx
    · obtain ⟨h1, h2⟩ := hp.reach x hx
      rcases hwv with hwv | hT
      · exact ⟨h1.trans hwv, (ReflTransGen.single hw).trans h2⟩
      · rw [hT] at hx; exact absurd hx (by simp)
    · exact h.reach x hx
  · intro x hx y hy
    rw [hmin]
    rcases List.mem_append.1 hx with hx | hx
    · exact settled_lower.2 (h.settled_nested (hp.settled x hx y hy) (Nat.min_le_right ..))
    · exact settled_lower.2 (hmono y (h.settled x hx y hy))
  · intro y hy
    rw [hmin]
    refine settled_lower.2 ?_
    rcases List.mem_append.1 hy with hy | hy
    · exact hmono y (h.seen_settled y hy)
    · rw [List.mem_singleton.1 hy]
      rcases hp.low with ⟨hT, -⟩ | ⟨hwT, -⟩
      · refine .inl ⟨by rw [Visited, hp.indices_v]; simp, fun hc => ?_⟩
        rw [hp.stack_eq, hT, List.nil_append] at hc
        exact hun (h.inv.visited_of_mem w hc)
      · exact .inr (.inl (by simp [hwT]))
  · rw [hmin]
    exact (Nat.min_le_left ..).trans (hlow.le.trans h.low_le)
  · rw [hmin]
    exact h.low_nested hw hp

/-- The state in which the component `c` was popped and `rest` is left on the stack. -/
def popState (succ : α → List α) (v : α) (s : TarjanState α) (c rest : List α) : TarjanState α :=
  { s with
    stack := rest
    components := if 1 < c.length ∨ v ∈ succ v then s.components ++ [c] else s.components }

theorem closeComponent_root (h : s.lowlink v = s.idx v) {c rest : List α}
    (hpop : popUntil v s.stack = (c, rest)) :
    closeComponent succ v s = popState succ v s c rest := by
  rw [closeComponent, if_neg (not_not_intro h)]
  simp only [hpop, popState]

/-- The nodes above `v`, and `v`, when all successors of `v` were looked at. -/
theorem LoopInv.component (h : LoopInv succ s v (succ v) s' T) {x : α} (hx : x ∈ T ++ [v]) :
    Visited s' x ∧ ReflTransGen (Edge succ) x v ∧ ReflTransGen (Edge succ) v x ∧
      ∀ y ∈ succ x, Settled s' (T ++ [v]) s.stack (s'.lowlink v) y := by
  rcases List.mem_append.1 hx with hx | hx
  · exact ⟨h.inv.visited_of_mem x (h.mem_stack.2 (.inl hx)), (h.reach x hx).1, (h.reach x hx).2,
      h.settled x hx⟩
  · rw [List.mem_singleton.1 hx]
    exact ⟨by rw [Visited, h.indices_v]; simp, .refl, .refl, h.seen_settled⟩

/-- The nodes above `v` are not in the base, and `v` occurs once. -/
theorem LoopInv.nodup {seen : List α} (h : LoopInv succ s v seen s' T) :
    v ∉ T ∧ ∀ x ∈ T ++ [v], x ∉ s.stack := by
  have hs := h.inv.sorted
  rw [h.stack_eq] at hs
  refine ⟨fun hc => ?_, fun x hx hc => ?_⟩
  · exact absurd ((List.pairwise_append.1 hs).2.2 v hc v (by simp)) (Nat.lt_irrefl _)
  · rw [show T ++ v :: s.stack = (T ++ [v]) ++ s.stack by simp] at hs
    exact absurd ((List.pairwise_append.1 hs).2.2 x hx x hc) (Nat.lt_irrefl _)

/-- When `v` is a root, every successor of its component is finished or in the component: an
open node below would have pulled the low link under the index of `v`. -/
theorem LoopInv.component_closed (h : LoopInv succ s v (succ v) s' T) (hpre : VisitPre succ s v)
    (hroot : s'.lowlink v = s'.idx v) {x : α} (hx : x ∈ T ++ [v]) (hy : y ∈ succ x) :
    Popped s' y ∨ y ∈ T ++ [v] := by
  rcases (h.component hx).2.2.2 y hy with hy | hy | ⟨hy, hi⟩
  · exact .inl hy
  · exact .inr hy
  · have hlt := hpre.inv.idx_lt y (hpre.inv.visited_of_mem y hy)
    rw [h.ext.idx_eq (hpre.inv.visited_of_mem y hy), hroot, h.idx_v] at hi
    exact absurd hi (by omega)

/-- A component that is collected lies on a cycle. -/
theorem LoopInv.component_cycle (h : LoopInv succ s v (succ v) s' T)
    (hc : 1 < (T ++ [v]).length ∨ v ∈ succ v) (hw : w ∈ T ++ [v]) :
    TransGen (Edge succ) w w := by
  obtain ⟨-, hwv, hvw, -⟩ := h.component hw
  have hvv : TransGen (Edge succ) v v := by
    rcases hc with hc | hc
    · obtain ⟨x, hx⟩ : ∃ x, x ∈ T := List.exists_mem_of_ne_nil T (by rintro rfl; simp at hc)
      obtain ⟨hxv, hvx⟩ := h.reach x hx
      rcases reflTransGen_iff_eq_or_transGen.1 hvx with he | ht
      · exact absurd (he ▸ hx) h.nodup.1
      · exact ht.trans_left hxv
    · exact TransGen.single hc
  exact (TransGen.trans_right hwv hvv).trans_left hvw

/-- A root that is popped alone and has no self loop is on no cycle. -/
theorem LoopInv.root_alone (h : LoopInv succ s v (succ v) s' T) (hpre : VisitPre succ s v)
    (hroot : s'.lowlink v = s'.idx v) (hc : ¬ (1 < (T ++ [v]).length ∨ v ∈ succ v)) :
    T = [] ∧ ¬ TransGen (Edge succ) v v := by
  obtain ⟨hlen, hself⟩ := not_or.1 hc
  have hT : T = [] := by
    cases T with
    | nil => rfl
    | cons t T => simp at hlen
  refine ⟨hT, fun hcyc => ?_⟩
  obtain ⟨y, hvy, hyv⟩ := TransGen.head'_iff.1 hcyc
  have hy : Popped s' y := by
    rcases h.component_closed hpre hroot (x := v) (by simp) hvy with hy | hy
    · exact hy
    · rw [hT, List.nil_append, List.mem_singleton] at hy
      exact absurd (hy ▸ hvy) hself
  have hv : Popped s' v :=
    mem_of_reflTransGen (S := Popped s') (fun a b ha hab => h.inv.closed a ha b hab) hy hyv
  exact hv.2 (h.mem_stack.2 (.inr (.inl rfl)))

/-- Popping the component of a root `v`. -/
theorem LoopInv.popState (h : LoopInv succ s v (succ v) s' T) (hpre : VisitPre succ s v)
    (hroot : s'.lowlink v = s'.idx v) :
    VisitPost succ s v (DepGraph.popState succ v s' (T ++ [v]) s.stack) [] := by
  have hpop : ∀ w, Popped (DepGraph.popState succ v s' (T ++ [v]) s.stack) w ↔
      Popped s' w ∨ w ∈ T ++ [v] := by
    intro w
    constructor
    · rintro ⟨hw, hns⟩
      by_cases hmem : w ∈ s'.stack
      · rcases h.mem_stack.1 hmem with hw' | hw' | hw'
        · exact .inr (by simp [hw'])
        · exact .inr (by simp [hw'])
        · exact absurd hw' hns
      · exact .inl ⟨hw, hmem⟩
    · rintro (hw | hw)
      · exact ⟨hw.1, fun hc => hw.2 (h.mem_stack.2 (.inr (.inr hc)))⟩
      · exact ⟨(h.component hw).1, h.nodup.2 w hw⟩
  refine ⟨⟨?_, ?_, h.inv.idx_lt, ?_, ?_, ?_, ?_⟩,
    ⟨h.ext.indices_eq, h.ext.lowlink_eq, fun w hw => (hpop w).2 (.inl (h.ext.popped w hw)),
      h.ext.index_le⟩,
    h.indices_v, rfl, by simp, by simp, by simp, .inl ⟨rfl, hroot.trans h.idx_v⟩⟩
  · exact fun w hw => h.inv.visited_of_mem w (h.mem_stack.2 (.inr (.inr hw)))
  · have hs := h.inv.sorted
    rw [h.stack_eq] at hs
    exact (List.pairwise_cons.1 (List.pairwise_append.1 hs).2.1).2
  · intro w hw x hx
    refine (hpop x).2 ?_
    rcases (hpop w).1 hw with hw | hw
    · exact .inl (h.inv.closed w hw x hx)
    · exact h.component_closed hpre hroot hw hx
  · intro w hw
    simp only [DepGraph.popState]
    rcases (hpop w).1 hw with hw | hw
    · refine (h.inv.covered w hw).imp_left ?_
      rintro ⟨C, hC, hwC⟩
      refine ⟨C, ?_, hwC⟩
      split_ifs
      · exact List.mem_append_left _ hC
      · exact hC
    · by_cases hc : 1 < (T ++ [v]).length ∨ v ∈ succ v
      · rw [if_pos hc]
        exact .inl ⟨T ++ [v], by simp, hw⟩
      · obtain ⟨hT, hcyc⟩ := h.root_alone hpre hroot hc
        rw [hT, List.nil_append, List.mem_singleton] at hw
        exact .inr (hw ▸ hcyc)
  · intro C hC w hw
    simp only [DepGraph.popState] at hC
    split_ifs at hC with hc
    · rcases List.mem_append.1 hC with hC | hC
      · exact h.inv.sound C hC w hw
      · rw [List.mem_singleton.1 hC] at hw
        exact h.component_cycle hc hw
    · exact h.inv.sound C hC w hw
  · intro C hC
    simp only [DepGraph.popState] at hC
    split_ifs at hC
    · rcases List.mem_append.1 hC with hC | hC
      · exact h.inv.nonempty C hC
      · rw [List.mem_singleton.1 hC]; simp
    · exact h.inv.nonempty C hC

/-- Closing `v` after all its successors were looked at. -/
theorem LoopInv.close (h : LoopInv succ s v (succ v) s' T) (hpre : VisitPre succ s v) :
    ∃ T', VisitPost succ s v (closeComponent succ v s') T' := by
  by_cases hroot : s'.lowlink v = s'.idx v
  · refine ⟨[], ?_⟩
    have hpop : popUntil v s'.stack = (T ++ [v], s.stack) := by
      rw [h.stack_eq]; exact popUntil_append h.nodup.1
    rw [closeComponent_root hroot hpop]
    exact h.popState hpre hroot
  · have hlow : ∃ y ∈ s.stack, s'.idx y = s'.lowlink v ∧ ReflTransGen (Edge succ) v y :=
      h.low.resolve_left fun hl => hroot (hl.trans h.idx_v.symm)
    refine ⟨T ++ [v], ?_⟩
    rw [closeComponent, if_pos hroot]
    refine ⟨h.inv, h.ext, h.indices_v, by rw [h.stack_eq]; simp, ?_,
      fun x hx => ⟨(h.component hx).2.1, (h.component hx).2.2.1⟩,
      fun x hx => (h.component hx).2.2.2, .inr ⟨by simp, hlow⟩⟩
    intro x hx
    rcases List.mem_append.1 hx with hx | hx
    · exact h.fresh x hx
    · rw [List.mem_singleton.1 hx]; exact hpre.unvisited

/-- A property of the state that every update of the search keeps: opening a node, lowering a low
link, and popping the component of a root. -/
structure Preserved (succ : α → List α) (P : TarjanState α → Prop) : Prop where
  enter : ∀ s v, VisitPre succ s v → P s → P (s.enter v)
  lower : ∀ s v k, P s → P (s.lower v k)
  pop : ∀ s v s' T, VisitPre succ s v → LoopInv succ s v (succ v) s' T →
    s'.lowlink v = s'.idx v → P s' → P (DepGraph.popState succ v s' (T ++ [v]) s.stack)

theorem preserved_true : Preserved succ fun _ => True :=
  ⟨fun _ _ _ _ => trivial, fun _ _ _ _ => trivial, fun _ _ _ _ _ _ _ _ => trivial⟩

theorem Preserved.close {P : TarjanState α → Prop} (hP : Preserved succ P)
    (h : LoopInv succ s v (succ v) s' T) (hpre : VisitPre succ s v) (hs : P s') :
    P (closeComponent succ v s') := by
  by_cases hroot : s'.lowlink v = s'.idx v
  · have hpop : popUntil v s'.stack = (T ++ [v], s.stack) := by
      rw [h.stack_eq]
      exact popUntil_append h.nodup.1
    rw [closeComponent_root hroot hpop]
    exact hP.pop s v s' T hpre h hroot hs
  · rw [closeComponent, if_pos hroot]
    exact hs

end Visit

/-! ## The recursion -/

section Recursion

variable {succ : α → List α} {nodes : List α} {P : TarjanState α → Prop}

/-- The nodes not found yet. -/
def unvisited (nodes : List α) (s : TarjanState α) : Finset α :=
  nodes.toFinset.filter (fun w => s.indices w = none)

theorem mem_unvisited {s : TarjanState α} {w : α} :
    w ∈ unvisited nodes s ↔ w ∈ nodes ∧ ¬ Visited s w := by
  simp [unvisited, Visited]

/-- **The visit of a node.**  With fuel for every node not found yet, a visit keeps the
invariant, finds its node and settles what it leaves on the stack; a property that the updates
keep is kept. -/
theorem strongconnect_spec (hcl : ∀ u ∈ nodes, ∀ w ∈ succ u, w ∈ nodes) (hP : Preserved succ P) :
    ∀ (fuel : ℕ) (v : α) (s : TarjanState α), v ∈ nodes → VisitPre succ s v → P s →
      (unvisited nodes s).card ≤ fuel →
      (∃ T, VisitPost succ s v (strongconnect succ fuel v s) T) ∧
        P (strongconnect succ fuel v s) := by
  intro fuel
  induction fuel with
  | zero =>
    intro v s hv hpre hPs hcard
    have hmem : v ∈ unvisited nodes s := mem_unvisited.2 ⟨hv, hpre.unvisited⟩
    rw [Finset.card_eq_zero.1 (Nat.le_zero.1 hcard)] at hmem
    exact absurd hmem (by simp)
  | succ fuel ih =>
    intro v s hv hpre hPs hcard
    -- the loop over the successors, from any prefix already looked at
    have loop : ∀ (todo seen : List α) (s' : TarjanState α) (T : List α),
        seen ++ todo = succ v → LoopInv succ s v seen s' T → P s' →
        (∃ T', LoopInv succ s v (succ v)
          (todo.foldl (visitSuccessor (strongconnect succ fuel) v) s') T') ∧
          P (todo.foldl (visitSuccessor (strongconnect succ fuel) v) s') := by
      intro todo
      induction todo with
      | nil =>
        intro seen s' T hsplit h hPs'
        rw [List.append_nil] at hsplit
        exact ⟨⟨T, hsplit ▸ h⟩, hPs'⟩
      | cons w todo ihl =>
        intro seen s' T hsplit h hPs'
        have hw : w ∈ succ v := hsplit ▸ by simp
        rw [List.foldl_cons]
        have hstep : (∃ T', LoopInv succ s v (seen ++ [w])
            (visitSuccessor (strongconnect succ fuel) v s' w) T') ∧
            P (visitSuccessor (strongconnect succ fuel) v s' w) := by
          unfold visitSuccessor
          cases hi : s'.indices w with
          | none =>
            have hun : ¬ Visited s' w := fun hc => hc hi
            have hpre' : VisitPre succ s' w :=
              ⟨h.inv, hun, fun y hy => (h.reach_v hpre hy).tail hw⟩
            have hlt : (unvisited nodes s').card < (unvisited nodes s).card := by
              refine Finset.card_lt_card ⟨fun x hx => ?_, fun hsub => ?_⟩
              · obtain ⟨hx, hxs⟩ := mem_unvisited.1 hx
                exact mem_unvisited.2 ⟨hx, fun hc => hxs (h.ext.visited hc)⟩
              · have := hsub (mem_unvisited.2 ⟨hv, hpre.unvisited⟩)
                exact (mem_unvisited.1 this).2 (by rw [Visited, h.indices_v]; simp)
            obtain ⟨⟨T', hp⟩, hPw⟩ := ih w s' (hcl v hv w hw) hpre' hPs' (by omega)
            exact ⟨⟨T' ++ T, h.visit hpre hw hun hp⟩, hP.lower _ _ _ hPw⟩
          | some i =>
            have hvis : Visited s' w := by rw [Visited, hi]; simp
            have hidx : s'.idx w = i := by rw [TarjanState.idx, hi]; rfl
            by_cases hmem : w ∈ s'.stack
            · simp only [if_pos hmem]
              rw [← hidx]
              refine ⟨⟨T, (h.lower hpre hmem (ReflTransGen.single hw)).see ?_⟩,
                hP.lower _ _ _ hPs'⟩
              rcases h.mem_stack.1 hmem with hw' | hw' | hw'
              · exact .inr (.inl (by simp [hw']))
              · exact .inr (.inl (by simp [hw']))
              · refine .inr (.inr ⟨hw', ?_⟩)
                rw [lower_lowlink]
                exact Nat.min_le_right ..
            · simp only [if_neg hmem]
              exact ⟨⟨T, h.see (.inl ⟨hvis, hmem⟩)⟩, hPs'⟩
        obtain ⟨⟨T', h'⟩, hPw⟩ := hstep
        exact ihl (seen ++ [w]) _ T' (by simpa using hsplit) h' hPw
    obtain ⟨⟨T, hT⟩, hPv⟩ := loop (succ v) [] (s.enter v) [] rfl (loopInv_enter hpre)
      (hP.enter s v hpre hPs)
    exact ⟨hT.close hpre, hP.close hT hpre hPv⟩

/-- One round of the outer loop, from an empty stack to an empty stack. -/
theorem visitRoot_spec (hcl : ∀ u ∈ nodes, ∀ w ∈ succ u, w ∈ nodes) (hP : Preserved succ P)
    {s : TarjanState α} {v : α} (hv : v ∈ nodes) (hinv : Inv succ s ∧ P s) (hst : s.stack = []) :
    (Inv succ (visitRoot succ nodes.length s v) ∧ P (visitRoot succ nodes.length s v)) ∧
      (visitRoot succ nodes.length s v).stack = [] ∧
      Extends s (visitRoot succ nodes.length s v) ∧
      Visited (visitRoot succ nodes.length s v) v := by
  unfold visitRoot
  cases hi : s.indices v with
  | none =>
    have hpre : VisitPre succ s v := ⟨hinv.1, fun hc => hc hi, by simp [hst]⟩
    have hcard : (unvisited nodes s).card ≤ nodes.length :=
      (Finset.card_filter_le _ _).trans (List.toFinset_card_le nodes)
    obtain ⟨⟨T, hp⟩, hPv⟩ := strongconnect_spec hcl hP nodes.length v s hv hpre hinv.2 hcard
    have hT : T = [] := by
      rcases hp.low with ⟨hT, -⟩ | ⟨-, y, hy, -⟩
      · exact hT
      · rw [hst] at hy; exact absurd hy (by simp)
    exact ⟨⟨hp.inv, hPv⟩, by rw [hp.stack_eq, hT, hst]; rfl, hp.ext,
      by rw [Visited, hp.indices_v]; simp⟩
  | some i => exact ⟨hinv, hst, Extends.refl s, by rw [Visited, hi]; simp⟩

/-- The end of the search: every node is popped, the invariant holds, and so does a property that
the updates keep. -/
theorem tarjan_preserved (hcl : ∀ u ∈ nodes, ∀ w ∈ succ u, w ∈ nodes) (hP : Preserved succ P)
    (hempty : P (empty : TarjanState α)) :
    ∃ s, tarjan succ nodes = s.components ∧ (Inv succ s ∧ P s) ∧ ∀ v ∈ nodes, Popped s v := by
  have loop : ∀ (todo : List α) (s : TarjanState α), (∀ v ∈ todo, v ∈ nodes) →
      Inv succ s ∧ P s → s.stack = [] →
      (Inv succ (todo.foldl (visitRoot succ nodes.length) s) ∧
        P (todo.foldl (visitRoot succ nodes.length) s)) ∧
        (todo.foldl (visitRoot succ nodes.length) s).stack = [] ∧
        Extends s (todo.foldl (visitRoot succ nodes.length) s) ∧
        ∀ v ∈ todo, Visited (todo.foldl (visitRoot succ nodes.length) s) v := by
    intro todo
    induction todo with
    | nil => intro s _ hinv hst; exact ⟨hinv, hst, Extends.refl s, by simp⟩
    | cons w todo ih =>
      intro s hsub hinv hst
      obtain ⟨h1, h2, h3, h4⟩ := visitRoot_spec hcl hP (hsub w (by simp)) hinv hst
      obtain ⟨h5, h6, h7, h8⟩ := ih _ (fun v hv => hsub v (by simp [hv])) h1 h2
      refine ⟨h5, h6, h3.trans h7, fun v hv => ?_⟩
      rcases List.mem_cons.1 hv with rfl | hv
      · exact h7.visited h4
      · exact h8 v hv
  obtain ⟨h1, h2, -, h4⟩ := loop nodes empty (fun _ hv => hv) ⟨inv_empty succ, hempty⟩ rfl
  exact ⟨_, rfl, h1, fun v hv => ⟨h4 v hv, by rw [h2]; simp⟩⟩

theorem tarjan_final (hcl : ∀ u ∈ nodes, ∀ w ∈ succ u, w ∈ nodes) :
    ∃ s, tarjan succ nodes = s.components ∧ Inv succ s ∧ ∀ v ∈ nodes, Popped s v := by
  obtain ⟨s, hs, ⟨hinv, -⟩, hpop⟩ := tarjan_preserved hcl preserved_true trivial
  exact ⟨s, hs, hinv, hpop⟩

/-- Every node on a cycle is in a collected component. -/
theorem exists_component_of_cycle (hcl : ∀ u ∈ nodes, ∀ w ∈ succ u, w ∈ nodes) {v : α}
    (hv : v ∈ nodes) (hcyc : TransGen (Edge succ) v v) : ∃ C ∈ tarjan succ nodes, v ∈ C := by
  obtain ⟨s, hs, hinv, hpop⟩ := tarjan_final hcl
  rw [hs]
  exact (hinv.covered v (hpop v hv)).resolve_right (not_not_intro hcyc)

/-- Every node of a collected component is on a cycle. -/
theorem cycle_of_mem_component (hcl : ∀ u ∈ nodes, ∀ w ∈ succ u, w ∈ nodes) {C : List α} {v : α}
    (hC : C ∈ tarjan succ nodes) (hv : v ∈ C) : TransGen (Edge succ) v v := by
  obtain ⟨s, hs, hinv, -⟩ := tarjan_final hcl
  exact hinv.sound C (hs ▸ hC) v hv

/-- **The search decides acyclicity.** -/
theorem tarjan_eq_nil_iff (hcl : ∀ u ∈ nodes, ∀ w ∈ succ u, w ∈ nodes)
    (hsrc : ∀ u w, w ∈ succ u → u ∈ nodes) : tarjan succ nodes = [] ↔ Acyclic (Edge succ) := by
  constructor
  · intro hnil v hcyc
    obtain ⟨y, hy, -⟩ := TransGen.head'_iff.1 hcyc
    obtain ⟨C, hC, -⟩ := exists_component_of_cycle hcl (hsrc v y hy) hcyc
    rw [hnil] at hC
    exact absurd hC (by simp)
  · intro hac
    refine List.eq_nil_iff_forall_not_mem.2 fun C hC => ?_
    obtain ⟨s, hs, hinv, -⟩ := tarjan_final hcl
    obtain ⟨w, hw⟩ := List.exists_mem_of_ne_nil C (hinv.nonempty C (hs ▸ hC))
    exact hac w (cycle_of_mem_component hcl hC hw)

end Recursion

end DepGraph
