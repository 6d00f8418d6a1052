import FloWeaver.Lib.Counted

/-!
# Working through a dependency graph in batches

A worklist over a `CountedGraph`: the nodes already done, the nodes that are ready, and
the number of undone predecessors of every node.  Completing a ready node counts its
successors down and makes those that reach zero ready.

* `Frontier.complete` / `Frontier.completeAll` — one node, one batch.
* `Frontier.Inv` — the counters are the numbers of undone predecessors, and a node is ready
  exactly when it is not done and its counter is zero.
* `Frontier.exists_ready_reaching` — while something is undone in an acyclic graph, a ready
  node reaches it.
* `BatchRun` — a run of batches of ready nodes.  A complete run lists every node once
  (`BatchRun.perm`), an edge always leads to a later batch (`BatchRun.edge_lt`), and only an
  acyclic graph has a complete run (`BatchRun.acyclic`).
-/

set_option linter.unusedSectionVars false

namespace DepGraph

open Relation

variable {α : Type*} [DecidableEq α]

/-- The state of the worklist. -/
structure Frontier (α : Type*) where
  done : List α
  ready : List α
  indegree : α → ℕ

namespace Frontier

/-- The worklist before anything is done. -/
def start (g : CountedGraph α) : Frontier α where
  done := []
  ready := g.nodes.filter (fun v => g.indegree v = 0)
  indegree := g.indegree

/-- Counts one successor down; it becomes ready when its counter reaches zero. -/
def release (f : Frontier α) (nxt : α) : Frontier α :=
  { f with
    indegree := Function.update f.indegree nxt (f.indegree nxt - 1)
    ready := if f.indegree nxt - 1 = 0 then f.ready.insert nxt else f.ready }

/-- Completes one node. -/
def complete (g : CountedGraph α) (f : Frontier α) (v : α) : Frontier α :=
  (g.out v).foldl release { f with ready := f.ready.erase v, done := f.done.insert v }

/-- Completes the nodes of a batch, in order. -/
def completeAll (g : CountedGraph α) (f : Frontier α) (batch : List α) : Frontier α :=
  batch.foldl (complete g) f

/-! ## One step -/

theorem foldl_release {l : List α} (hl : l.Nodup) (f : Frontier α) :
    (l.foldl release f).done = f.done ∧
    (∀ w, (l.foldl release f).indegree w =
      if w ∈ l then f.indegree w - 1 else f.indegree w) ∧
    (∀ w, w ∈ (l.foldl release f).ready ↔
      w ∈ f.ready ∨ (w ∈ l ∧ f.indegree w - 1 = 0)) ∧
    (f.ready.Nodup → (l.foldl release f).ready.Nodup) := by
  induction l generalizing f with
  | nil => simp
  | cons a l ih =>
    obtain ⟨ha, hl⟩ := List.nodup_cons.1 hl
    obtain ⟨h1, h2, h3, h4⟩ := ih hl (f.release a)
    have hne : ∀ w, w ∈ l → w ≠ a := fun w hw e => ha (e ▸ hw)
    rw [List.foldl_cons]
    refine ⟨h1, fun w => ?_, fun w => ?_, fun hr => h4 ?_⟩
    · rw [h2]
      by_cases hwa : w = a
      · subst hwa; simp [release, ha]
      · simp [release, hwa]
    · rw [h3]
      by_cases hwa : w = a
      · subst hwa
        simp only [ha, false_and, or_false, List.mem_cons, true_and, release]
        split_ifs with h0
        · simp [h0]
        · simp [h0]
      · have : (f.release a).indegree w = f.indegree w := by simp [release, hwa]
        rw [this]
        have hr : w ∈ (f.release a).ready ↔ w ∈ f.ready := by
          simp only [release]
          split_ifs
          · simp [hwa]
          · rfl
        simp [hr, hwa]
    · simp only [release]
      split_ifs
      · exact hr.insert
      · exact hr

/-- The invariant of the worklist. -/
structure Inv (g : CountedGraph α) (f : Frontier α) : Prop where
  done_sub : ∀ v ∈ f.done, v ∈ g.nodes
  done_nodup : f.done.Nodup
  done_closed : ∀ u w, g.E u w → w ∈ f.done → u ∈ f.done
  ready_nodup : f.ready.Nodup
  counts : ∀ w, f.indegree w = g.nodes.countP (fun v => decide (v ∉ f.done ∧ w ∈ g.out v))
  ready_iff : ∀ w, w ∈ f.ready ↔ w ∈ g.nodes ∧ w ∉ f.done ∧ f.indegree w = 0

theorem inv_start (g : CountedGraph α) : Inv g (start g) where
  done_sub := by simp [start]
  done_nodup := by simp [start]
  done_closed := by simp [start]
  ready_nodup := g.nodup_nodes.filter _
  counts := by simp [start, g.indegree_eq]
  ready_iff := by simp [start]

variable {g : CountedGraph α} {f : Frontier α} {v w : α}

/-- A ready node has all its predecessors done. -/
theorem Inv.pred_done (h : Inv g f) (hw : w ∈ f.ready) (hvw : g.E v w) : v ∈ f.done := by
  have h0 := ((h.ready_iff w).1 hw).2.2
  rw [h.counts, List.countP_eq_zero] at h0
  by_contra hv
  exact h0 v (CountedGraph.E_src hvw) (by simpa using ⟨hv, hvw⟩)

/-- A node whose predecessors are all done is ready or done. -/
theorem Inv.ready_of_pred_done (h : Inv g f) (hw : w ∈ g.nodes) (hd : w ∉ f.done)
    (hp : ∀ v, g.E v w → v ∈ f.done) : w ∈ f.ready := by
  refine (h.ready_iff w).2 ⟨hw, hd, ?_⟩
  rw [h.counts, List.countP_eq_zero]
  intro v _ hv
  obtain ⟨h1, h2⟩ := of_decide_eq_true hv
  exact h1 (hp v h2)

theorem Inv.ready_mem_nodes (h : Inv g f) (hw : w ∈ f.ready) : w ∈ g.nodes :=
  ((h.ready_iff w).1 hw).1

theorem Inv.ready_not_done (h : Inv g f) (hw : w ∈ f.ready) : w ∉ f.done :=
  ((h.ready_iff w).1 hw).2.1

/-- What completing a ready node does to the three parts. -/
theorem complete_spec (h : Inv g f) (v : α) :
    (∀ w, w ∈ (complete g f v).done ↔ w = v ∨ w ∈ f.done) ∧
    (∀ w, (complete g f v).indegree w =
      if w ∈ g.out v then f.indegree w - 1 else f.indegree w) ∧
    (∀ w, w ∈ (complete g f v).ready ↔
      (w ≠ v ∧ w ∈ f.ready) ∨ (w ∈ g.out v ∧ f.indegree w - 1 = 0)) := by
  obtain ⟨h1, h2, h3, -⟩ :=
    foldl_release (g.nodup_out v) { f with ready := f.ready.erase v, done := f.done.insert v }
  refine ⟨fun w => ?_, h2, fun w => ?_⟩
  · rw [complete, h1]; simp
  · rw [complete, h3]
    simp [h.ready_nodup.mem_erase_iff]

/-- Completing a ready node keeps the invariant. -/
theorem Inv.complete (h : Inv g f) (hv : v ∈ f.ready) : Inv g (complete g f v) := by
  obtain ⟨hd, hi, hr⟩ := complete_spec h v
  have hvd := h.ready_not_done hv
  have hvn := h.ready_mem_nodes hv
  have hcounts : ∀ w, (Frontier.complete g f v).indegree w =
      g.nodes.countP (fun u => decide (u ∉ (Frontier.complete g f v).done ∧ w ∈ g.out u)) := by
    intro w
    rw [hi]
    by_cases hw : w ∈ g.out v
    · rw [if_pos hw, h.counts]
      have := CountedGraph.countP_update g.nodup_nodes hvn
        (p := fun u => decide (u ∉ (Frontier.complete g f v).done ∧ w ∈ g.out u))
        (q := fun u => decide (u ∉ f.done ∧ w ∈ g.out u))
        (fun x _ hx => by simp [hd, hx]) (by simp [hd]) (by simpa using ⟨hvd, hw⟩)
      omega
    · rw [if_neg hw, h.counts]
      refine List.countP_congr fun u _ => ?_
      by_cases huv : u = v
      · subst huv; simp [hw]
      · simp [hd, huv]
  refine ⟨fun w hw => ?_, ?_, fun u w huw hw => ?_, ?_, hcounts, fun w => ?_⟩
  · rcases (hd w).1 hw with rfl | hw
    · exact hvn
    · exact h.done_sub w hw
  · rw [Frontier.complete, (foldl_release (g.nodup_out v) _).1]
    exact h.done_nodup.insert
  · rcases (hd w).1 hw with rfl | hw
    · exact (hd u).2 (.inr (h.pred_done hv huw))
    · exact (hd u).2 (.inr (h.done_closed u w huw hw))
  · exact (foldl_release (g.nodup_out v) _).2.2.2 (h.ready_nodup.erase v)
  · rw [hr, hd, not_or]
    constructor
    · rintro (⟨hwv, hw⟩ | ⟨hw, h0⟩)
      · obtain ⟨h1, h2, h3⟩ := (h.ready_iff w).1 hw
        exact ⟨h1, ⟨hwv, h2⟩, by rw [hi]; split_ifs <;> omega⟩
      · -- a successor was not done before, or `v` would have been done already
        have hwd : w ∉ f.done := fun hwd => hvd (h.done_closed v w hw hwd)
        have hne : w ≠ v := by
          rintro rfl
          exact hvd (h.pred_done hv hw)
        exact ⟨g.dst_mem v w hw, ⟨hne, hwd⟩, by rw [hi, if_pos hw]; exact h0⟩
    · rintro ⟨h1, ⟨hwv, h2⟩, h3⟩
      rw [hi] at h3
      by_cases hw : w ∈ g.out v
      · rw [if_pos hw] at h3
        exact .inr ⟨hw, h3⟩
      · rw [if_neg hw] at h3
        exact .inl ⟨hwv, (h.ready_iff w).2 ⟨h1, h2, h3⟩⟩

/-! ## One batch -/

/-- Ready nodes other than the completed one stay ready. -/
theorem mem_ready_complete (h : Inv g f) (hw : w ∈ f.ready) (hwv : w ≠ v) :
    w ∈ (complete g f v).ready :=
  ((complete_spec h v).2.2 w).2 (.inl ⟨hwv, hw⟩)

/-- Completing a batch of distinct ready nodes keeps the invariant and adds exactly the
batch to the nodes done. -/
theorem Inv.completeAll (h : Inv g f) {batch : List α} (hnd : batch.Nodup)
    (hsub : ∀ v ∈ batch, v ∈ f.ready) :
    Inv g (completeAll g f batch) ∧
      ∀ w, w ∈ (completeAll g f batch).done ↔ w ∈ batch ∨ w ∈ f.done := by
  induction batch generalizing f with
  | nil => exact ⟨h, by simp [Frontier.completeAll]⟩
  | cons v batch ih =>
    obtain ⟨hvb, hnd⟩ := List.nodup_cons.1 hnd
    have hv : v ∈ f.ready := hsub v (by simp)
    have hrest : ∀ w ∈ batch, w ∈ (Frontier.complete g f v).ready := fun w hw =>
      mem_ready_complete h (hsub w (by simp [hw])) (fun e => hvb (e ▸ hw))
    obtain ⟨h1, h2⟩ := ih (h.complete hv) hnd hrest
    refine ⟨h1, fun w => ?_⟩
    have := (complete_spec h v).1 w
    rw [Frontier.completeAll, List.foldl_cons]
    rw [Frontier.completeAll] at h2
    rw [h2, this, List.mem_cons]
    tauto

/-- While a node of an acyclic graph is undone, some ready node reaches it. -/
theorem Inv.exists_ready_reaching (h : Inv g f) (hac : Acyclic g.E) {u : α}
    (hu : u ∈ g.nodes) (hud : u ∉ f.done) :
    ∃ v ∈ f.ready, ReflTransGen g.E v u := by
  -- a source among the undone nodes: everything before it is done
  obtain ⟨v, hv, hvu, hsrc⟩ := exists_source_reaching hac
    (g.nodes.toFinset.filter (fun a => a ∉ f.done)) (by simpa using ⟨hu, hud⟩)
  obtain ⟨hvn, hvd⟩ : v ∈ g.nodes ∧ v ∉ f.done := by simpa using hv
  refine ⟨v, h.ready_of_pred_done hvn hvd fun a hav => ?_, hvu⟩
  by_contra had
  exact hsrc a (by simpa using ⟨CountedGraph.E_src hav, had⟩) hav

end Frontier

/-! ## A run of batches -/

/-- A run of the worklist: each batch holds distinct nodes that were ready when it began. -/
inductive BatchRun (g : CountedGraph α) : Frontier α → List (List α) → Frontier α → Prop
  | nil (f) : BatchRun g f [] f
  | cons {f f' batch rest} (hnd : batch.Nodup) (hsub : ∀ v ∈ batch, v ∈ f.ready)
      (hrun : BatchRun g (f.completeAll g batch) rest f') : BatchRun g f (batch :: rest) f'

/-- In a list of lists without repetition an entry is in one list only. -/
theorem index_unique {bs : List (List α)} (hnd : bs.flatten.Nodup) {i j : ℕ} {a b : List α}
    (hi : bs[i]? = some a) (hj : bs[j]? = some b) {x : α} (hxa : x ∈ a) (hxb : x ∈ b) : i = j := by
  have hdisj := (List.nodup_flatten.1 hnd).2
  rw [List.pairwise_iff_getElem] at hdisj
  obtain ⟨hi', rfl⟩ := List.getElem?_eq_some_iff.1 hi
  obtain ⟨hj', rfl⟩ := List.getElem?_eq_some_iff.1 hj
  rcases Nat.lt_trichotomy i j with hlt | rfl | hlt
  · exact absurd hxb (hdisj i j hi' hj' hlt hxa)
  · rfl
  · exact absurd hxa (hdisj j i hj' hi' hlt hxb)

namespace BatchRun

variable {g : CountedGraph α} {f f' : Frontier α} {bs : List (List α)}

theorem inv (hr : BatchRun g f bs f') (h : f.Inv g) : f'.Inv g := by
  induction hr with
  | nil => exact h
  | cons hnd hsub _ ih => exact ih (h.completeAll hnd hsub).1

/-- The nodes done after a run are those of its batches and those done before, no node is in
two batches, and none was done before. -/
theorem done (hr : BatchRun g f bs f') (h : f.Inv g) :
    (∀ w, w ∈ f'.done ↔ w ∈ bs.flatten ∨ w ∈ f.done) ∧ bs.flatten.Nodup ∧
      ∀ w ∈ bs.flatten, w ∉ f.done := by
  induction hr with
  | nil => simp
  | @cons f f' batch rest hnd hsub hrun ih =>
    obtain ⟨h1, h2⟩ := h.completeAll hnd hsub
    obtain ⟨ih1, ih2, ih3⟩ := ih h1
    refine ⟨fun w => ?_, ?_, fun w hw => ?_⟩
    · rw [ih1, h2, List.flatten_cons, List.mem_append]
      tauto
    · rw [List.flatten_cons, List.nodup_append]
      refine ⟨hnd, ih2, fun a ha b hb => ?_⟩
      rintro rfl
      exact ih3 a hb ((h2 a).2 (.inl ha))
    · rw [List.flatten_cons, List.mem_append] at hw
      rcases hw with hw | hw
      · exact h.ready_not_done (hsub w hw)
      · exact fun hd => ih3 w hw ((h2 w).2 (.inr hd))

/-- A run from the start that does every node lists every node exactly once. -/
theorem perm (hr : BatchRun g (Frontier.start g) bs f')
    (hall : ∀ v ∈ g.nodes, v ∈ f'.done) : bs.flatten.Perm g.nodes := by
  obtain ⟨h1, h2, -⟩ := hr.done (Frontier.inv_start g)
  refine (List.perm_ext_iff_of_nodup h2 g.nodup_nodes).2 fun w => ⟨fun hw => ?_, fun hw => ?_⟩
  · exact (hr.inv (Frontier.inv_start g)).done_sub w ((h1 w).2 (.inl hw))
  · rcases (h1 w).1 (hall w hw) with hw | hw
    · exact hw
    · simp [Frontier.start] at hw

/-- The source of an edge into a batch was done, or is in an earlier batch. -/
theorem edge_lt (hr : BatchRun g f bs f') (h : f.Inv g) {u w : α} (huw : g.E u w)
    {j : ℕ} {b : List α} (hj : bs[j]? = some b) (hw : w ∈ b) :
    u ∈ f.done ∨ ∃ i, i < j ∧ ∃ a, bs[i]? = some a ∧ u ∈ a := by
  induction hr generalizing j with
  | nil => simp at hj
  | @cons f f' batch rest hnd hsub hrun ih =>
    cases j with
    | zero =>
      obtain rfl : batch = b := by simpa using hj
      exact .inl (h.pred_done (hsub w hw) huw)
    | succ j =>
      obtain ⟨h1, h2⟩ := h.completeAll hnd hsub
      rcases ih h1 (by simpa using hj) with hd | ⟨i, hij, a, ha, hu⟩
      · rcases (h2 u).1 hd with hb | hd
        · exact .inr ⟨0, by omega, batch, by simp, hb⟩
        · exact .inl hd
      · exact .inr ⟨i + 1, by omega, a, by simpa using ha, hu⟩

/-- The source of an edge into a batch of a run from the start is in an earlier batch. -/
theorem edge_lt_start (hr : BatchRun g (Frontier.start g) bs f') {u w : α} (huw : g.E u w)
    {j : ℕ} {b : List α} (hj : bs[j]? = some b) (hw : w ∈ b) :
    ∃ i, i < j ∧ ∃ a, bs[i]? = some a ∧ u ∈ a := by
  rcases hr.edge_lt (Frontier.inv_start g) huw hj hw with hd | h
  · simp [Frontier.start] at hd
  · exact h

/-- A path leads to a later batch. -/
theorem path_lt_start (hr : BatchRun g (Frontier.start g) bs f') {u w : α}
    (huw : TransGen g.E u w) : ∀ {j : ℕ} {b : List α}, bs[j]? = some b → w ∈ b →
      ∃ i, i < j ∧ ∃ a, bs[i]? = some a ∧ u ∈ a := by
  induction huw with
  | single he => exact fun hj hw => hr.edge_lt_start he hj hw
  | tail _ he ih =>
    intro j b hj hw
    obtain ⟨i, hij, a, ha, hu⟩ := hr.edge_lt_start he hj hw
    obtain ⟨k, hki, c, hc, hu⟩ := ih ha hu
    exact ⟨k, hki.trans hij, c, hc, hu⟩

/-- An edge leads to a later batch, wherever its two ends stand. -/
theorem edge_index_lt (hr : BatchRun g (Frontier.start g) bs f') {u w : α} (huw : g.E u w)
    {i j : ℕ} {a b : List α} (hi : bs[i]? = some a) (hj : bs[j]? = some b) (hu : u ∈ a)
    (hw : w ∈ b) : i < j := by
  obtain ⟨k, hkj, c, hc, huc⟩ := hr.edge_lt_start huw hj hw
  obtain rfl := index_unique (hr.done (Frontier.inv_start g)).2.1 hi hc hu huc
  exact hkj

/-- Only an acyclic graph has a complete run. -/
theorem acyclic (hr : BatchRun g (Frontier.start g) bs f') (hall : ∀ v ∈ g.nodes, v ∈ f'.done) :
    Acyclic g.E := by
  intro v hv
  have hmem : v ∈ g.nodes := by
    obtain ⟨w, -, hwv⟩ := TransGen.tail'_iff.1 hv
    exact CountedGraph.E_dst hwv
  obtain ⟨b, hb, hvb⟩ := List.mem_flatten.1 ((hr.perm hall).mem_iff.2 hmem)
  obtain ⟨j, hj⟩ := List.mem_iff_getElem?.1 hb
  obtain ⟨i, hij, a, ha, hva⟩ := hr.path_lt_start hv hj hvb
  have := index_unique (hr.done (Frontier.inv_start g)).2.1 hj ha hvb hva
  omega

end BatchRun

end DepGraph
