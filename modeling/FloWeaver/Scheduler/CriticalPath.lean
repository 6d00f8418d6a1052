import FloWeaver.Lib.Digraph
import FloWeaver.Lib.Kahn
import FloWeaver.Scheduler.HardGraph

/-!
# The critical path

The scheduler lists the actions of the hard graph with predecessors first and scores them from the
back: an action weighs what it weighs itself and the largest score of a successor.

* `topologicalOrder_eq` — the queue of the scheduler is the worklist with one rank for all.
* `topologicalOrder_perm`, `sublist_topologicalOrder` — every action once, predecessors first.
* `isGreatest_scoreFrom` — what is scored already weighs what its heaviest path weighs.
* `criticalPathScore_isGreatest` — so do all actions in the end.
-/

namespace FloWeaver.Scheduler

open DepGraph Frontier

/-! ## The order -/

section Order

/-- All actions have one rank. -/
def level (_ : String) : ℕ := 0

@[simp] theorem byRank_level (l : List String) : byRank level l = l :=
  List.Pairwise.insertionSort_eq (List.pairwise_of_forall fun _ _ => le_rfl)

/-- Takes one edge away: an action is queued when its last one is gone. -/
def takeEdge (acc : List String × (String → ℕ)) (nxt : String) : List String × (String → ℕ) :=
  let left := acc.2 nxt - 1
  (if left = 0 then acc.1 ++ [nxt] else acc.1, Function.update acc.2 nxt left)

theorem topologicalLoop_cons (out : String → List String) (fuel : ℕ) (node : String)
    (queue : List String) (indegree : String → ℕ) :
    topologicalLoop out (fuel + 1) (node :: queue) indegree =
      node :: topologicalLoop out fuel ((out node).foldl takeEdge (queue, indegree)).1
        ((out node).foldl takeEdge (queue, indegree)).2 := rfl

/-- Successors that are neither visited nor queued are released one by one. -/
theorem foldl_takeEdge {l : List String} (hl : l.Nodup) (f : Frontier String)
    (hdone : ∀ w ∈ l, w ∉ f.done) (hready : ∀ w ∈ l, w ∉ f.ready) :
    l.foldl takeEdge (f.ready, f.indegree) =
      ((l.foldl releaseLast f).ready, (l.foldl releaseLast f).indegree) := by
  induction l generalizing f with
  | nil => rfl
  | cons a l ih =>
    obtain ⟨ha, hl⟩ := List.nodup_cons.1 hl
    obtain ⟨hadone, hdone⟩ := List.forall_mem_cons.1 hdone
    obtain ⟨haready, hready⟩ := List.forall_mem_cons.1 hready
    have hstep : takeEdge (f.ready, f.indegree) a =
        ((f.releaseLast a).ready, (f.releaseLast a).indegree) := by
      simp only [takeEdge, releaseLast, hadone, haready, not_false_eq_true, and_true]
    rw [List.foldl_cons, List.foldl_cons, hstep]
    refine ih hl (f.releaseLast a) hdone fun w hw => ?_
    have hne : w ≠ a := fun h => ha (h ▸ hw)
    simp only [releaseLast]
    split_ifs
    · simpa [hne] using hready w hw
    · exact hready w hw

variable {g : CountedGraph String} {f : Frontier String}

theorem topologicalLoop_eq (n : ℕ) (h : Listed g level f) :
    f.done ++ topologicalLoop g.out n f.ready f.indegree = (popAll g level n f).done := by
  induction n generalizing f with
  | zero => simp [topologicalLoop, popAll]
  | succ n ih =>
    cases hready : f.ready with
    | nil => rw [popAll_of_ready_nil _ hready, topologicalLoop, List.append_nil]
    | cons v rest =>
      have hv : v ∈ f.ready := by simp [hready]
      have hrest := (List.nodup_cons.1 (hready ▸ h.inv.ready_nodup)).2
      -- a successor of a queued action still waits for it
      have hdone : ∀ w ∈ g.out v, w ∉ f.done ++ [v] := by
        intro w hw hmem
        rcases List.mem_append.1 hmem with hmem | hmem
        · exact h.inv.ready_not_done hv (h.inv.done_closed v w hw hmem)
        · rw [List.mem_singleton.1 hmem] at hw
          exact h.inv.ready_not_done hv (h.inv.pred_done hv hw)
      have hwait : ∀ w ∈ g.out v, w ∉ rest := fun w hw hmem =>
        h.inv.ready_not_done hv
          (h.inv.pred_done (hready ▸ List.mem_cons_of_mem v hmem : w ∈ f.ready) hw)
      have hpop := foldl_takeEdge (g.nodup_out v)
        { f with done := f.done ++ [v], ready := rest } hdone hwait
      have hnext := ih h.popFirst
      rw [popAll, ← hnext, (h.inv.popFirst level hready).2.1, topologicalLoop_cons, hpop,
        List.append_assoc, List.singleton_append]
      simp only [popFirst, hready, byRank_level]

/-- The queue of the scheduler is a worklist. -/
theorem topologicalOrder_eq (g : CountedGraph String) :
    topologicalOrder g = (popAll g level g.nodes.length (startBy g level)).done := by
  rw [← topologicalLoop_eq g.nodes.length (listed_startBy g level)]
  simp only [startBy, start, byRank_level, List.nil_append]
  rfl

/-- Without a cycle every action is visited once. -/
theorem topologicalOrder_perm (h : Acyclic g.E) : (topologicalOrder g).Perm g.nodes := by
  rw [topologicalOrder_eq]
  refine (List.perm_ext_iff_of_nodup (nodup_popAll g level _) g.nodup_nodes).2 fun w => ?_
  rw [mem_popAll_iff]
  exact and_iff_left fun ⟨c, hcycle, _⟩ => h c hcycle

/-- Predecessors come first. -/
theorem sublist_topologicalOrder (h : Acyclic g.E) {u v : String} (huv : g.E u v) :
    [u, v].Sublist (topologicalOrder g) := by
  have hv : v ∈ topologicalOrder g := (topologicalOrder_perm h).mem_iff.2 (CountedGraph.E_dst huv)
  rw [topologicalOrder_eq] at hv ⊢
  exact path_sublist_popAll g level _ (.single huv) hv

/-- Behind an action stand all its successors. -/
theorem mem_of_topologicalOrder (h : Acyclic g.E) {pre post : List String} {u v : String}
    (hsplit : topologicalOrder g = pre ++ u :: post) (huv : g.E u v) : v ∈ post := by
  have hnodup : (topologicalOrder g).Nodup := (topologicalOrder_perm h).nodup_iff.2 g.nodup_nodes
  have hsub := sublist_topologicalOrder h huv
  have hv : v ∈ pre ++ u :: post := hsplit ▸ hsub.subset (by simp)
  rcases List.mem_append.1 hv with hpre | hpost
  · refine absurd hsub (not_sublist_swap hnodup ?_)
    rw [hsplit]
    exact (List.singleton_sublist.2 hpre).append (List.singleton_sublist.2 List.mem_cons_self)
  · refine (List.mem_cons.1 hpost).resolve_left ?_
    rintro rfl
    exact h v (.single huv)

end Order

/-! ## The scores -/

section Scores

variable {g : CountedGraph String} {weight : String → ℚ}

/-- Scores one action from its successors. -/
def scoreNode (g : CountedGraph String) (weight : String → ℚ) (node : String)
    (score : String → ℚ) : String → ℚ :=
  if (g.out node).isEmpty then score
  else Function.update score node (weight node + maxScore score (g.out node))

theorem isGreatest_maxScore (score : String → ℚ) {l : List String} (h : l ≠ []) :
    IsGreatest {s | ∃ w ∈ l, score w = s} (maxScore score l) := by
  induction l with
  | nil => exact absurd rfl h
  | cons a l ih =>
    cases l with
    | nil =>
      refine ⟨⟨a, List.mem_singleton_self a, rfl⟩, ?_⟩
      rintro s ⟨w, hw, rfl⟩
      rw [List.mem_singleton.1 hw]
      exact le_rfl
    | cons b rest =>
      obtain ⟨⟨w, hw, hmax⟩, hbound⟩ := ih (List.cons_ne_nil b rest)
      constructor
      · rcases le_total (score a) (maxScore score (b :: rest)) with hle | hle
        · exact ⟨w, List.mem_cons_of_mem a hw, by rw [maxScore, max_eq_right hle, hmax]⟩
        · exact ⟨a, List.mem_cons_self, by rw [maxScore, max_eq_left hle]⟩
      · rintro s ⟨x, hx, rfl⟩
        rw [maxScore]
        rcases List.mem_cons.1 hx with rfl | hx
        · exact le_max_left _ _
        · exact le_max_of_le_right (hbound ⟨x, hx, rfl⟩)

/-- Scoring an action whose successors are scored. -/
theorem isGreatest_scoreNode {score : String → ℚ} {node : String}
    (hself : score node = weight node)
    (hsucc : ∀ w ∈ g.out node, IsGreatest (totals g.out weight w) (score w)) :
    IsGreatest (totals g.out weight node) (scoreNode g weight node score node) := by
  rw [scoreNode]
  split_ifs with hend
  · rw [hself]
    exact isGreatest_totals_of_end (List.isEmpty_iff.1 hend)
  · rw [Function.update_self]
    exact isGreatest_totals_of_succ hsucc
      (isGreatest_maxScore score fun h => hend (List.isEmpty_iff.2 h))

theorem scoreNode_of_ne {score : String → ℚ} {node w : String} (h : w ≠ node) :
    scoreNode g weight node score w = score w := by
  rw [scoreNode]
  split_ifs
  · rfl
  · rw [Function.update_of_ne h]

/-- Scored from the back, every action of the list weighs what its heaviest path weighs, and the
others weigh what they weigh themselves. -/
theorem isGreatest_scoreFrom {order : List String} (hnodup : order.Nodup)
    (hbehind : ∀ pre u post, order = pre ++ u :: post → ∀ v ∈ g.out u, v ∈ post) :
    (∀ v ∈ order, IsGreatest (totals g.out weight v)
        (order.foldr (scoreNode g weight) weight v)) ∧
      ∀ v, v ∉ order → order.foldr (scoreNode g weight) weight v = weight v := by
  induction order with
  | nil => exact ⟨fun v hv => absurd hv List.not_mem_nil, fun _ _ => rfl⟩
  | cons u post ih =>
    obtain ⟨hu, hnodup⟩ := List.nodup_cons.1 hnodup
    obtain ⟨hscored, hothers⟩ := ih hnodup fun pre x rest hsplit =>
      hbehind (u :: pre) x rest (by rw [hsplit, List.cons_append])
    rw [List.foldr_cons]
    refine ⟨fun v hv => ?_, fun v hv => ?_⟩
    · rcases List.mem_cons.1 hv with rfl | hv
      · exact isGreatest_scoreNode (hothers v hu) fun w hw => hscored w (hbehind [] v post rfl w hw)
      · have hne : v ≠ u := fun heq => hu (heq ▸ hv)
        rw [scoreNode_of_ne hne]
        exact hscored v hv
    · rw [List.mem_cons, not_or] at hv
      rw [scoreNode_of_ne hv.1, hothers v hv.2]

end Scores

/-- **Critical paths.**  Without a cycle the order lists every action once, predecessors first, and
the score of an action is the weight of its heaviest path to an action without successors. -/
theorem criticalPathScore_isGreatest (g : CountedGraph String) (h : Acyclic g.E)
    (weights : OrderedDict String ℚ) :
    (topologicalOrder g).Perm g.nodes ∧
      (∀ u v, g.E u v → [u, v].Sublist (topologicalOrder g)) ∧
      ∀ a ∈ g.nodes, IsGreatest {total | ∃ path, PathToEnd g.out a path ∧
          (path.map fun node => (weights.get? node).getD 1).sum = total}
        (criticalPathScore g (fun node => (weights.get? node).getD 1) a) := by
  have hperm := topologicalOrder_perm h
  refine ⟨hperm, fun u v => sublist_topologicalOrder h, fun a ha => ?_⟩
  exact (isGreatest_scoreFrom (hperm.nodup_iff.2 g.nodup_nodes)
    fun pre u post hsplit v huv => mem_of_topologicalOrder h hsplit huv).1 a (hperm.mem_iff.2 ha)

/-- A device is polled, then read and reported, and what was read is written. -/
def pollGraph : CountedGraph String :=
  (((CountedGraph.empty ["poll", "write", "report", "read"] (by decide)).addEdge "poll" "read").addEdge
    "poll" "report").addEdge "read" "write"

theorem criticalPathScore_isGreatest_poll :
    (topologicalOrder pollGraph).Perm pollGraph.nodes ∧
      (∀ u v, pollGraph.E u v → [u, v].Sublist (topologicalOrder pollGraph)) ∧
      ∀ a ∈ pollGraph.nodes, IsGreatest {total | ∃ path, PathToEnd pollGraph.out a path ∧
          (path.map fun node => (((OrderedDict.empty.set "report" 5).get? node).getD 1 : ℚ)).sum =
            total}
        (criticalPathScore pollGraph
          (fun node => (((OrderedDict.empty.set "report" 5).get? node).getD 1 : ℚ)) a) := by
  refine criticalPathScore_isGreatest pollGraph (fun v hv => ?_) (OrderedDict.empty.set "report" 5)
  -- all edges lead forwards in the alphabet
  have hlt : ∀ u w, pollGraph.E u w → u < w := by
    intro u w huw
    simp only [pollGraph, CountedGraph.addEdge_E] at huw
    rcases huw with ((h | ⟨rfl, rfl, -⟩) | ⟨rfl, rfl, -⟩) | ⟨rfl, rfl, -⟩
    · exact absurd h List.not_mem_nil
    all_goals decide
  have hself := Relation.TransGen.mono hlt _ _ hv
  rw [Relation.transGen_eq_self] at hself
  exact lt_irrefl v hself

end FloWeaver.Scheduler
