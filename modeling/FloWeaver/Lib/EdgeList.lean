import FloWeaver.Lib.Kahn

/-!
# Kahn's algorithm on a list of edges

The edges of a graph as a list in which several edges may join the same nodes.  A queue of the
nodes without predecessors is worked off; every edge that leaves a visited node counts its end
down, and an end that reaches zero is queued.

* `kahnOrder` — the nodes in the order in which they are visited.
* `QueueInv` — what holds between two visits.
* `kahnOrder_length_iff` — all nodes are visited exactly when the edges have no cycle.
-/

namespace DepGraph

open Relation

variable {α : Type*} [DecidableEq α]

/-- The edge relation of a list of edges. -/
def Joined (edges : List (α × α)) (u v : α) : Prop := (u, v) ∈ edges

/-- The ends of the edges that leave a node, with repetitions. -/
def outOf (edges : List (α × α)) (v : α) : List α := (edges.filter (·.1 = v)).map (·.2)

/-- Counts one end down, and queues it when its counter reaches zero. -/
def countDown (acc : List α × (α → ℤ)) (nxt : α) : List α × (α → ℤ) :=
  let left := acc.2 nxt - 1
  (if left = 0 then acc.1 ++ [nxt] else acc.1, Function.update acc.2 nxt left)

/-- The nodes visited from a queue. -/
def visitQueue (edges : List (α × α)) : ℕ → List α → (α → ℤ) → List α
  | 0, _, _ => []
  | _ + 1, [], _ => []
  | fuel + 1, node :: queue, indegree =>
      let next := (outOf edges node).foldl countDown (queue, indegree)
      node :: visitQueue edges fuel next.1 next.2

/-- The number of edges that end in a node. -/
def indegreeOf (edges : List (α × α)) (v : α) : ℤ := edges.countP (·.2 = v)

/-- The nodes in the order in which they are visited; a node is queued at the start or for an edge
that ends in it. -/
def kahnOrder (nodes : List α) (edges : List (α × α)) : List α :=
  visitQueue edges (nodes.length + edges.length) (nodes.filter (indegreeOf edges · = 0))
    (indegreeOf edges)

variable {nodes : List α} {edges : List (α × α)}

/-! ## One visit -/

theorem foldl_countDown_indegree (l queue : List α) (indegree : α → ℤ) (w : α) :
    (l.foldl countDown (queue, indegree)).2 w = indegree w - l.count w := by
  induction l generalizing queue indegree with
  | nil => simp
  | cons a l ih =>
    refine (ih _ (Function.update indegree a (indegree a - 1))).trans ?_
    rw [Function.update_apply]
    split_ifs with hwa
    · rw [hwa, List.count_cons_self]
      push_cast
      omega
    · rw [List.count_cons_of_ne (Ne.symm hwa)]

/-- A node is queued when the last edge that ends in it is counted down. -/
theorem foldl_countDown {l : List α} (queue : List α) {indegree : α → ℤ}
    (h : ∀ w ∈ l, (l.count w : ℤ) ≤ indegree w) :
    ∃ added : List α, (l.foldl countDown (queue, indegree)).1 = queue ++ added ∧ added.Nodup ∧
      ∀ w, w ∈ added ↔ w ∈ l ∧ indegree w = l.count w := by
  induction l generalizing queue indegree with
  | nil => exact ⟨[], by simp, List.nodup_nil, by simp⟩
  | cons a l ih =>
    have hcount : ∀ w, w ≠ a → (a :: l).count w = l.count w := fun w hw => by
      rw [List.count_cons_of_ne (Ne.symm hw)]
    have ha := h a List.mem_cons_self
    rw [List.count_cons_self] at ha
    push_cast at ha
    have htail : ∀ w ∈ l, (l.count w : ℤ) ≤
        Function.update indegree a (indegree a - 1) w := by
      intro w hw
      rw [Function.update_apply]
      split_ifs with hwa
      · rw [hwa]
        omega
      · rw [← hcount w hwa]
        exact h w (List.mem_cons_of_mem _ hw)
    obtain ⟨added, hqueue, hnodup, hadded⟩ :=
      ih (if indegree a - 1 = 0 then queue ++ [a] else queue) htail
    have hfirst : ((a :: l).foldl countDown (queue, indegree)).1 =
        (if indegree a - 1 = 0 then queue ++ [a] else queue) ++ added := hqueue
    by_cases hzero : indegree a - 1 = 0
    · -- the last edge to `a`: nothing of the rest ends in it
      have hal : a ∉ l := fun hmem => by
        have hpos : 0 < l.count a := List.count_pos_iff.2 hmem
        omega
      rw [if_pos hzero, List.append_assoc, List.singleton_append] at hfirst
      refine ⟨a :: added, hfirst,
        List.nodup_cons.2 ⟨fun hmem => hal ((hadded a).1 hmem).1, hnodup⟩, fun w => ?_⟩
      rw [List.mem_cons, hadded, List.mem_cons, Function.update_apply]
      by_cases hwa : w = a
      · subst hwa
        rw [List.count_cons_self, List.count_eq_zero_of_not_mem hal]
        simp only [true_or, true_and, true_iff]
        push_cast
        omega
      · simp only [hwa, false_or, if_false, hcount w hwa]
    · rw [if_neg hzero] at hfirst
      refine ⟨added, hfirst, hnodup, fun w => ?_⟩
      rw [hadded, List.mem_cons, Function.update_apply]
      by_cases hwa : w = a
      · subst hwa
        rw [List.count_cons_self]
        simp only [if_true, true_or, true_and]
        push_cast
        constructor
        · rintro ⟨-, heq⟩
          omega
        · intro heq
          refine ⟨List.count_pos_iff.1 ?_, by omega⟩
          omega
      · simp only [hwa, false_or, if_false, hcount w hwa]

/-- The edges from nodes outside `done` that end in a node. -/
def openEdges (edges : List (α × α)) (done : List α) (w : α) : ℕ :=
  edges.countP fun e => e.2 = w ∧ e.1 ∉ done

theorem openEdges_append {done : List α} {v : α} (hv : v ∉ done) (w : α) :
    openEdges edges (done ++ [v]) w + (outOf edges v).count w = openEdges edges done w := by
  rw [openEdges, openEdges, outOf]
  induction edges with
  | nil => rfl
  | cons e edges ih =>
    rw [List.countP_cons, List.countP_cons, List.filter_cons, ← ih]
    by_cases hev : e.1 = v
    · have hopen : e.1 ∉ done := hev ▸ hv
      by_cases hew : e.2 = w
      · simp [hev, hew, hv]
        omega
      · simp [hev, hew]
    · by_cases hew : e.2 = w ∧ e.1 ∉ done
      · simp [hev, hew]
        omega
      · simp [hev, hew]

/-! ## The invariant -/

/-- What holds between two visits: the counters are the numbers of edges from unvisited nodes, a
node is visited or queued exactly when its counter is zero, and a path to a visited node starts in
a node that was visited before. -/
structure QueueInv (nodes : List α) (edges : List (α × α)) (done queue : List α)
    (indegree : α → ℤ) : Prop where
  nodup : (done ++ queue).Nodup
  counts : ∀ w, indegree w = openEdges edges done w
  found : ∀ w, w ∈ done ++ queue ↔ w ∈ nodes ∧ indegree w = 0
  path : ∀ u w, TransGen (Joined edges) u w → w ∈ done → [u, w].Sublist done

theorem queueInv_start (hnodes : nodes.Nodup) :
    QueueInv nodes edges [] (nodes.filter (indegreeOf edges · = 0)) (indegreeOf edges) where
  nodup := hnodes.filter _
  counts w := by simp [openEdges, indegreeOf]
  found w := by simp
  path _ _ _ hw := nomatch hw

/-- The predecessors of a visited or queued node are visited. -/
theorem QueueInv.pred_done {done queue : List α} {indegree : α → ℤ}
    (h : QueueInv nodes edges done queue indegree) {u w : α} (huw : Joined edges u w)
    (hw : w ∈ done ++ queue) : u ∈ done := by
  by_contra hu
  have hzero := ((h.found w).1 hw).2
  rw [h.counts, Int.natCast_eq_zero, openEdges, List.countP_eq_zero] at hzero
  exact hzero (u, w) huw (by simpa using hu)

theorem QueueInv.visit {done queue : List α} {indegree : α → ℤ} {v : α}
    (h : QueueInv nodes edges done (v :: queue) indegree)
    (hends : ∀ e ∈ edges, e.2 ∈ nodes) :
    QueueInv nodes edges (done ++ [v]) ((outOf edges v).foldl countDown (queue, indegree)).1
      ((outOf edges v).foldl countDown (queue, indegree)).2 := by
  have hsplit : (done ++ [v] ++ queue).Nodup := by simpa using h.nodup
  have hvdone : v ∉ done := fun hv =>
    (List.nodup_append.1 h.nodup).2.2 v hv v List.mem_cons_self rfl
  have hopen : ∀ w, (openEdges edges (done ++ [v]) w : ℤ) =
      indegree w - (outOf edges v).count w := fun w => by
    rw [h.counts, ← openEdges_append hvdone w]
    push_cast
    omega
  have hle : ∀ w ∈ outOf edges v, ((outOf edges v).count w : ℤ) ≤ indegree w := fun w _ => by
    have hnonneg : (0 : ℤ) ≤ openEdges edges (done ++ [v]) w := Int.natCast_nonneg _
    rw [hopen] at hnonneg
    omega
  obtain ⟨added, hqueue, hnodup, hadded⟩ := foldl_countDown queue hle
  have hpos : ∀ w ∈ outOf edges v, 0 < indegree w := fun w hw => by
    have hcount : 0 < (outOf edges v).count w := List.count_pos_iff.2 hw
    have := hle w hw
    omega
  rw [hqueue]
  refine ⟨?_, fun w => by rw [foldl_countDown_indegree, hopen], fun w => ?_,
    fun u w huw hw => ?_⟩
  · rw [← List.append_assoc, List.nodup_append]
    refine ⟨hsplit, hnodup, fun a ha b hb hab => ?_⟩
    subst hab
    have hfound : a ∈ done ++ v :: queue := by simpa using ha
    have := hpos a ((hadded a).1 hb).1
    have := ((h.found a).1 hfound).2
    omega
  · have hold := h.found w
    rw [foldl_countDown_indegree, ← List.append_assoc, List.mem_append, hadded]
    have hmem : w ∈ done ++ [v] ++ queue ↔ w ∈ done ++ v :: queue := by simp
    rw [hmem, hold]
    constructor
    · rintro (⟨hw, hzero⟩ | ⟨hw, hzero⟩)
      · refine ⟨hw, ?_⟩
        have hnot : w ∉ outOf edges v := fun hmem => by
          have := hpos w hmem
          omega
        rw [List.count_eq_zero_of_not_mem hnot, hzero]
        rfl
      · obtain ⟨e, he, rfl⟩ := List.mem_map.1 hw
        exact ⟨hends e (List.mem_of_mem_filter he), by omega⟩
    · rintro ⟨hw, hzero⟩
      by_cases hmem : w ∈ outOf edges v
      · exact .inr ⟨hmem, by omega⟩
      · rw [List.count_eq_zero_of_not_mem hmem] at hzero
        exact .inl ⟨hw, by simpa using hzero⟩
  · rcases List.mem_append.1 hw with hw | hw
    · exact (h.path u w huw hw).trans (List.sublist_append_left _ _)
    · -- the last edge of the path starts in a node that is visited
      rw [List.mem_singleton.1 hw] at huw ⊢
      refine sublist_append_singleton ?_ v
      obtain ⟨x, hux, hxv⟩ := TransGen.tail'_iff.1 huw
      have hx : x ∈ done := h.pred_done hxv (List.mem_append_right _ List.mem_cons_self)
      rcases reflTransGen_iff_eq_or_transGen.1 hux with rfl | hux
      · exact hx
      · exact (h.path u x hux hx).subset List.mem_cons_self

/-- With enough fuel the queue is worked off. -/
theorem exists_queueInv_of_visitQueue (hends : ∀ e ∈ edges, e.2 ∈ nodes) {fuel : ℕ}
    {done queue : List α} {indegree : α → ℤ} (h : QueueInv nodes edges done queue indegree)
    (hfuel : nodes.length ≤ done.length + fuel) :
    ∃ indegree', QueueInv nodes edges (done ++ visitQueue edges fuel queue indegree) []
      indegree' := by
  induction fuel generalizing done queue indegree with
  | zero =>
    have hsub : done ++ queue ⊆ nodes := fun w hw => ((h.found w).1 hw).1
    have hlength := (List.subperm_of_subset h.nodup hsub).length_le
    have hqueue : queue = [] := by
      rw [List.length_append] at hlength
      exact List.eq_nil_of_length_eq_zero (by omega)
    subst hqueue
    exact ⟨indegree, by simpa [visitQueue] using h⟩
  | succ fuel ih =>
    cases queue with
    | nil => exact ⟨indegree, by simpa [visitQueue] using h⟩
    | cons v queue =>
      obtain ⟨indegree', h'⟩ := ih (h.visit hends) (by simp; omega)
      exact ⟨indegree', by simpa [visitQueue] using h'⟩

/-! ## The result -/

theorem kahnOrder_inv (hnodes : nodes.Nodup) (hends : ∀ e ∈ edges, e.2 ∈ nodes) :
    ∃ indegree, QueueInv nodes edges (kahnOrder nodes edges) [] indegree := by
  obtain ⟨indegree, h⟩ := exists_queueInv_of_visitQueue hends (queueInv_start hnodes)
    (show nodes.length ≤ ([] : List α).length + (nodes.length + edges.length) by simp)
  exact ⟨indegree, h⟩

/-- All nodes are visited exactly when the edges have no cycle. -/
theorem kahnOrder_length_iff (hnodes : nodes.Nodup)
    (hends : ∀ e ∈ edges, e.1 ∈ nodes ∧ e.2 ∈ nodes) :
    (kahnOrder nodes edges).length = nodes.length ↔ Acyclic (Joined edges) := by
  obtain ⟨indegree, h⟩ := kahnOrder_inv hnodes fun e he => (hends e he).2
  have hnodup : (kahnOrder nodes edges).Nodup := by simpa using h.nodup
  have hsub : kahnOrder nodes edges ⊆ nodes := fun w hw => ((h.found w).1 (by simpa using hw)).1
  constructor
  · intro hlength v hcycle
    have hperm := (List.subperm_of_subset hnodup hsub).perm_of_length_le hlength.ge
    obtain ⟨x, -, hxv⟩ := TransGen.tail'_iff.1 hcycle
    have hv : v ∈ kahnOrder nodes edges := hperm.mem_iff.2 (hends _ hxv).2
    have htwice := h.path v v hcycle hv
    exact not_sublist_swap hnodup htwice htwice
  · intro hacyclic
    refine List.Perm.length_eq ((List.perm_ext_iff_of_nodup hnodup hnodes).2 fun w => ?_)
    refine ⟨fun hw => hsub hw, fun hw => ?_⟩
    by_contra hnot
    -- among the nodes that are not visited one has no predecessor
    obtain ⟨s, hs, hsource⟩ := exists_source hacyclic
      (nodes.toFinset.filter (· ∉ kahnOrder nodes edges)) ⟨w, by simpa using ⟨hw, hnot⟩⟩
    obtain ⟨hsnode, hsnot⟩ : s ∈ nodes ∧ s ∉ kahnOrder nodes edges := by simpa using hs
    have hzero : indegree s = 0 := by
      rw [h.counts, Int.natCast_eq_zero, openEdges, List.countP_eq_zero]
      intro e he hopen
      obtain ⟨rfl, hstart⟩ : e.2 = s ∧ e.1 ∉ kahnOrder nodes edges := by simpa using hopen
      exact hsource e.1 (by simpa using ⟨(hends e he).1, hstart⟩) he
    exact hsnot (by simpa using (h.found s).2 ⟨hsnode, hzero⟩)

end DepGraph
