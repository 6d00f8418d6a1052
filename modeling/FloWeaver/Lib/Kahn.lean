import FloWeaver.Lib.Frontier
import Mathlib.Data.List.Sort

/-!
# Kahn's algorithm with ranks

A worklist that always takes the ready node of the least rank.  It lists the nodes that no cycle
leads to, each after its predecessors; what lies behind a cycle is never ready.

* `Frontier.popFirst`, `Frontier.popAll` — one node, and all of them.
* `Blocked` — a cycle leads to the node.
* `mem_popAll_iff` — the nodes that are listed.
* `path_sublist_popAll` — a path leads to a later node.
* `sublist_popAll_of_rank` — a node of a higher rank comes later, unless a path leads from it.
-/

set_option linter.unusedSectionVars false

namespace DepGraph

open Relation

variable {α : Type*}

/-! ## Orders as sublists -/

/-- In a list without repetition two nodes have one order only. -/
theorem not_sublist_swap {l : List α} (hl : l.Nodup) {u v : α} (h : [u, v].Sublist l) :
    ¬ [v, u].Sublist l := by
  induction l with
  | nil => cases h
  | cons x l ih =>
    obtain ⟨hx, hl⟩ := List.nodup_cons.1 hl
    intro h'
    cases h with
    | cons _ h =>
      cases h' with
      | cons _ h' => exact ih hl h h'
      | cons_cons _ h' => exact hx (h.subset (by simp))
    | cons_cons _ h =>
      cases h' with
      | cons _ h' => exact hx (h'.subset (by simp))
      | cons_cons _ h' => exact hx (h.subset (by simp))

theorem sublist_append_singleton {l : List α} {u : α} (hu : u ∈ l) (v : α) :
    [u, v].Sublist (l ++ [v]) :=
  (List.singleton_sublist.2 hu).append (List.Sublist.refl [v])

/-- A cycle leads to the node. -/
def Blocked (E : α → α → Prop) (v : α) : Prop := ∃ c, TransGen E c c ∧ ReflTransGen E c v

/-- A node that no cycle leads to is reached from a node without predecessor in the set. -/
theorem exists_source_of_not_blocked {E : α → α → Prop} {v : α} (hv : ¬ Blocked E v)
    (S : Finset α) (hmem : v ∈ S) : ∃ s ∈ S, ReflTransGen E s v ∧ ∀ p ∈ S, ¬ E p s := by
  -- the edges between nodes that lead to `v` have no cycle
  let F : α → α → Prop := fun a b => E a b ∧ ReflTransGen E b v
  have hFE : ∀ {a b}, TransGen F a b → TransGen E a b := fun h => TransGen.mono (fun _ _ h => h.1) _ _ h
  have hacyclic : Acyclic F := by
    intro c hc
    obtain ⟨b, -, hbc⟩ := TransGen.tail'_iff.1 hc
    exact hv ⟨c, hFE hc, hbc.2⟩
  obtain ⟨s, hs, hsv, hsource⟩ := exists_source_reaching hacyclic S hmem
  have hreach : ReflTransGen E s v := ReflTransGen.mono (fun _ _ h => h.1) _ _ hsv
  exact ⟨s, hs, hreach, fun p hp hps => hsource p hp ⟨hps, hreach⟩⟩

variable [DecidableEq α]

namespace Frontier

/-- Counts one successor down; it goes to the end of the ready nodes when its counter reaches
zero. -/
def releaseLast (f : Frontier α) (nxt : α) : Frontier α :=
  let left := f.indegree nxt - 1
  { f with
    indegree := Function.update f.indegree nxt left
    ready := if left = 0 ∧ nxt ∉ f.done ∧ nxt ∉ f.ready then f.ready ++ [nxt] else f.ready }

/-- Sorts by rank; what has one rank stays in order. -/
def byRank (rank : α → ℕ) (l : List α) : List α := l.insertionSort fun a b => rank a ≤ rank b

/-- Completes the first ready node and sorts the ready nodes again. -/
def popFirst (g : CountedGraph α) (rank : α → ℕ) (f : Frontier α) : Frontier α :=
  match f.ready with
  | [] => f
  | v :: ready =>
      let f := (byRank rank (g.out v)).foldl releaseLast { f with done := f.done ++ [v], ready }
      { f with ready := byRank rank f.ready }

/-- Completes ready nodes until none is left; every node is completed at most once. -/
def popAll (g : CountedGraph α) (rank : α → ℕ) : ℕ → Frontier α → Frontier α
  | 0, f => f
  | n + 1, f => popAll g rank n (popFirst g rank f)

/-- The worklist before anything is done, with the ready nodes in order. -/
def startBy (g : CountedGraph α) (rank : α → ℕ) : Frontier α :=
  { start g with ready := byRank rank (start g).ready }

variable {g : CountedGraph α} {rank : α → ℕ} {f : Frontier α} {v w : α}

@[simp] theorem mem_byRank {l : List α} : w ∈ byRank rank l ↔ w ∈ l := List.mem_insertionSort _

theorem byRank_perm (l : List α) : (byRank rank l).Perm l := List.perm_insertionSort _ _

theorem pairwise_byRank (l : List α) : (byRank rank l).Pairwise fun a b => rank a ≤ rank b := by
  have : Std.Total fun a b : α => rank a ≤ rank b := ⟨fun a b => le_total (rank a) (rank b)⟩
  have : IsTrans α fun a b => rank a ≤ rank b := ⟨fun _ _ _ h h' => le_trans h h'⟩
  exact List.pairwise_insertionSort _ l

theorem foldl_releaseLast {l : List α} (hl : l.Nodup) (f : Frontier α)
    (hdone : ∀ w ∈ l, w ∉ f.done) :
    (l.foldl releaseLast f).done = f.done ∧
    (∀ w, (l.foldl releaseLast f).indegree w =
      if w ∈ l then f.indegree w - 1 else f.indegree w) ∧
    (∀ w, w ∈ (l.foldl releaseLast f).ready ↔
      w ∈ f.ready ∨ (w ∈ l ∧ f.indegree w - 1 = 0)) ∧
    (f.ready.Nodup → (l.foldl releaseLast f).ready.Nodup) := by
  induction l generalizing f with
  | nil => simp
  | cons a l ih =>
    obtain ⟨ha, hl⟩ := List.nodup_cons.1 hl
    obtain ⟨hadone, hdone⟩ := List.forall_mem_cons.1 hdone
    obtain ⟨h1, h2, h3, h4⟩ := ih hl (f.releaseLast a) hdone
    rw [List.foldl_cons]
    refine ⟨h1, fun w => ?_, fun w => ?_, fun hr => h4 ?_⟩
    · rw [h2]
      by_cases hwa : w = a
      · subst hwa
        simp [releaseLast, ha]
      · simp [releaseLast, hwa]
    · rw [h3]
      by_cases hwa : w = a
      · subst hwa
        by_cases hmem : w ∈ f.ready <;> by_cases hzero : f.indegree w - 1 = 0 <;>
          simp [releaseLast, ha, hadone, hmem, hzero]
      · have hindegree : (f.releaseLast a).indegree w = f.indegree w := by
          simp [releaseLast, hwa]
        have hready : w ∈ (f.releaseLast a).ready ↔ w ∈ f.ready := by
          simp only [releaseLast]
          split_ifs
          · simp [hwa]
          · rfl
        rw [hindegree, hready]
        simp [hwa]
    · simp only [releaseLast]
      split_ifs with hnew
      · exact List.nodup_append.2 ⟨hr, List.nodup_singleton a, fun x hx y hy => by
          rw [List.mem_singleton.1 hy]
          rintro rfl
          exact hnew.2.2 hx⟩
      · exact hr

/-- The invariant is about the nodes that are done and ready, not about their order. -/
theorem Inv.congr {f' : Frontier α} (h : Inv g f) (hdone : ∀ w, w ∈ f'.done ↔ w ∈ f.done)
    (hready : ∀ w, w ∈ f'.ready ↔ w ∈ f.ready) (hindegree : f'.indegree = f.indegree)
    (hdoneNodup : f'.done.Nodup) (hreadyNodup : f'.ready.Nodup) : Inv g f' where
  done_sub v hv := h.done_sub v ((hdone v).1 hv)
  done_nodup := hdoneNodup
  done_closed u w huw hw := (hdone u).2 (h.done_closed u w huw ((hdone w).1 hw))
  ready_nodup := hreadyNodup
  counts w := by
    rw [hindegree, h.counts]
    refine List.countP_congr fun v _ => ?_
    simp [hdone]
  ready_iff w := by rw [hready, h.ready_iff, hdone, hindegree]

/-- Completing the first ready node. -/
theorem Inv.popFirst (h : Inv g f) (rank : α → ℕ) {rest : List α}
    (hready : f.ready = v :: rest) :
    Inv g (popFirst g rank f) ∧ (Frontier.popFirst g rank f).done = f.done ++ [v] ∧
      (Frontier.popFirst g rank f).ready.Pairwise fun a b => rank a ≤ rank b := by
  have hv : v ∈ f.ready := by simp [hready]
  have hvd := h.ready_not_done hv
  have hrest : (v :: rest).Nodup := hready ▸ h.ready_nodup
  obtain ⟨hvrest, hrestNodup⟩ := List.nodup_cons.1 hrest
  -- no successor is done, or `v` would be done
  have hout : ∀ w ∈ byRank rank (g.out v), w ∉ f.done ++ [v] := by
    intro w hw hmem
    rw [mem_byRank] at hw
    rcases List.mem_append.1 hmem with hmem | hmem
    · exact hvd (h.done_closed v w hw hmem)
    · rw [List.mem_singleton.1 hmem] at hw
      exact hvd (h.pred_done hv hw)
  obtain ⟨hdone, hindegree, hmem, hnodup⟩ := foldl_releaseLast
    ((byRank_perm (g.out v)).nodup_iff.2 (g.nodup_out v))
    { f with done := f.done ++ [v], ready := rest } hout
  obtain ⟨hcdone, hcindegree, hcready⟩ := complete_spec h v
  have hpop : Frontier.popFirst g rank f =
      { (byRank rank (g.out v)).foldl releaseLast { f with done := f.done ++ [v], ready := rest }
        with ready := byRank rank ((byRank rank (g.out v)).foldl releaseLast
          { f with done := f.done ++ [v], ready := rest }).ready } := by
    rw [Frontier.popFirst, hready]
  rw [hpop]
  refine ⟨(h.complete hv).congr (fun w => ?_) (fun w => ?_) (funext fun w => ?_) ?_ ?_, hdone,
    pairwise_byRank _⟩
  · rw [hdone, hcdone, List.mem_append, List.mem_singleton]
    tauto
  · rw [mem_byRank, hmem, hcready, mem_byRank, hready, List.mem_cons]
    have hne : w ∈ rest → w ≠ v := fun hw hsame => hvrest (hsame ▸ hw)
    tauto
  · rw [hindegree, hcindegree]
    simp only [mem_byRank]
  · rw [hdone]
    exact List.nodup_append.2 ⟨h.done_nodup, List.nodup_singleton v, fun x hx y hy => by
      rw [List.mem_singleton.1 hy]
      rintro rfl
      exact hvd hx⟩
  · exact (byRank_perm _).nodup_iff.2 (hnodup hrestNodup)

/-! ## The whole run -/

/-- The state of the worklist after some steps: what is done stands behind its predecessors. -/
structure Listed (g : CountedGraph α) (rank : α → ℕ) (f : Frontier α) : Prop where
  inv : Inv g f
  sorted : f.ready.Pairwise fun a b => rank a ≤ rank b
  path : ∀ u w, TransGen g.E u w → w ∈ f.done → [u, w].Sublist f.done

theorem listed_startBy (g : CountedGraph α) (rank : α → ℕ) : Listed g rank (startBy g rank) where
  inv := (inv_start g).congr (fun _ => Iff.rfl) (fun _ => mem_byRank) rfl List.nodup_nil
    ((byRank_perm _).nodup_iff.2 (inv_start g).ready_nodup)
  sorted := pairwise_byRank _
  path _ _ _ hw := nomatch hw

theorem Listed.popFirst (h : Listed g rank f) : Listed g rank (popFirst g rank f) := by
  cases hready : f.ready with
  | nil =>
    rw [Frontier.popFirst, hready]
    exact h
  | cons v rest =>
    have hv : v ∈ f.ready := by simp [hready]
    obtain ⟨hinv, hdone, hsorted⟩ := h.inv.popFirst rank hready
    refine ⟨hinv, hsorted, fun u w huw hw => ?_⟩
    rw [hdone] at hw ⊢
    rcases List.mem_append.1 hw with hw | hw
    · exact (h.path u w huw hw).trans (List.sublist_append_left _ _)
    · -- the last edge of the path starts in a node that is done
      rw [List.mem_singleton.1 hw] at huw ⊢
      refine sublist_append_singleton ?_ v
      obtain ⟨x, hux, hxv⟩ := TransGen.tail'_iff.1 huw
      have hx : x ∈ f.done := h.inv.pred_done hv hxv
      rcases reflTransGen_iff_eq_or_transGen.1 hux with rfl | hux
      · exact hx
      · exact (h.path u x hux hx).subset (by simp)

/-- What every step keeps, the run keeps. -/
theorem popAll_induction {motive : Frontier α → Prop}
    (hstep : ∀ f, Listed g rank f → motive f → motive (Frontier.popFirst g rank f)) (n : ℕ)
    (h : Listed g rank f) (hm : motive f) :
    Listed g rank (popAll g rank n f) ∧ motive (popAll g rank n f) := by
  induction n generalizing f with
  | zero => exact ⟨h, hm⟩
  | succ n ih => exact ih h.popFirst (hstep f h hm)

/-- Without a ready node the run is over. -/
theorem popAll_of_ready_nil (n : ℕ) (hready : f.ready = []) : popAll g rank n f = f := by
  induction n with
  | zero => rfl
  | succ n ih =>
    have hpop : Frontier.popFirst g rank f = f := by rw [Frontier.popFirst, hready]
    rw [popAll, hpop, ih]

/-- After enough steps no node is ready. -/
theorem ready_popAll (n : ℕ) (h : Listed g rank f) (hn : g.nodes.length ≤ f.done.length + n) :
    (popAll g rank n f).ready = [] := by
  induction n generalizing f with
  | zero =>
    rw [popAll, List.eq_nil_iff_forall_not_mem]
    intro w hw
    have hnodes : f.done ⊆ g.nodes := h.inv.done_sub
    have hperm := (List.subperm_of_subset h.inv.done_nodup hnodes).perm_of_length_le hn
    exact h.inv.ready_not_done hw (hperm.mem_iff.2 (h.inv.ready_mem_nodes hw))
  | succ n ih =>
    cases hready : f.ready with
    | nil => rw [popAll_of_ready_nil _ hready, hready]
    | cons v rest =>
      rw [popAll]
      refine ih h.popFirst ?_
      rw [(h.inv.popFirst rank hready).2.1, List.length_append, List.length_singleton]
      omega

/-- While a node that no cycle leads to is undone, some ready node leads to it. -/
theorem Inv.exists_ready_of_not_blocked (h : Inv g f) (hnode : v ∈ g.nodes)
    (hfree : ¬ Blocked g.E v) (hv : v ∉ f.done) : ∃ s ∈ f.ready, ReflTransGen g.E s v := by
  obtain ⟨s, hs, hsv, hsource⟩ := exists_source_of_not_blocked hfree
    (g.nodes.toFinset.filter (fun w => w ∉ f.done)) (by simpa using ⟨hnode, hv⟩)
  obtain ⟨hsnode, hsdone⟩ : s ∈ g.nodes ∧ s ∉ f.done := by simpa using hs
  refine ⟨s, h.ready_of_pred_done hsnode hsdone fun p hp => ?_, hsv⟩
  by_contra hpdone
  exact hsource p (by simpa using ⟨CountedGraph.E_src hp, hpdone⟩) hp

/-- The nodes that are listed are those that no cycle leads to. -/
theorem mem_popAll_iff (g : CountedGraph α) (rank : α → ℕ) :
    w ∈ (popAll g rank g.nodes.length (startBy g rank)).done ↔
      w ∈ g.nodes ∧ ¬ Blocked g.E w := by
  have hstart := listed_startBy g rank
  have hlisted := (popAll_induction (motive := fun _ => True) (fun _ _ _ => trivial)
    g.nodes.length hstart trivial).1
  have hready := ready_popAll g.nodes.length hstart (Nat.le_add_left _ _)
  generalize popAll g rank g.nodes.length (startBy g rank) = f at hlisted hready
  constructor
  · refine fun hw => ⟨hlisted.inv.done_sub w hw, ?_⟩
    rintro ⟨c, hcycle, hreach⟩
    -- the nodes on the cycle would be listed, each before itself
    have hc : c ∈ f.done := by
      rcases reflTransGen_iff_eq_or_transGen.1 hreach with rfl | hreach
      · exact hw
      · exact (hlisted.path c w hreach hw).subset (by simp)
    have htwice := hlisted.path c c hcycle hc
    exact not_sublist_swap hlisted.inv.done_nodup htwice htwice
  · rintro ⟨hnode, hfree⟩
    by_contra hw
    obtain ⟨s, hs, -⟩ := hlisted.inv.exists_ready_of_not_blocked hnode hfree hw
    rw [hready] at hs
    cases hs

theorem path_sublist_popAll (g : CountedGraph α) (rank : α → ℕ) (n : ℕ) {u : α}
    (huw : TransGen g.E u w) (hw : w ∈ (popAll g rank n (startBy g rank)).done) :
    [u, w].Sublist (popAll g rank n (startBy g rank)).done :=
  (popAll_induction (motive := fun _ => True) (fun _ _ _ => trivial) n
    (listed_startBy g rank) trivial).1.path u w huw hw

theorem nodup_popAll (g : CountedGraph α) (rank : α → ℕ) (n : ℕ) :
    (popAll g rank n (startBy g rank)).done.Nodup :=
  (popAll_induction (motive := fun _ => True) (fun _ _ _ => trivial) n
    (listed_startBy g rank) trivial).1.inv.done_nodup

/-- A node that outranks everything that leads to `v` comes after `v`, when it does not lead to
`v` itself. -/
theorem sublist_popAll_of_rank {u : α} (hnode : v ∈ g.nodes) (hfree : ¬ Blocked g.E v)
    (hpath : ¬ ReflTransGen g.E u v)
    (hrank : ∀ x, ReflTransGen g.E x v → rank x < rank u) (n : ℕ)
    (hu : u ∈ (popAll g rank n (startBy g rank)).done) :
    [v, u].Sublist (popAll g rank n (startBy g rank)).done := by
  refine (popAll_induction (motive := fun f => u ∈ f.done → [v, u].Sublist f.done) ?_ n
    (listed_startBy g rank) (fun hmem => nomatch hmem)).2 hu
  intro f hlisted hmotive hmem
  cases hready : f.ready with
  | nil =>
    rw [Frontier.popFirst, hready] at hmem ⊢
    exact hmotive hmem
  | cons x rest =>
    rw [(hlisted.inv.popFirst rank hready).2.1] at hmem ⊢
    rcases List.mem_append.1 hmem with hmem | hmem
    · exact (hmotive hmem).trans (List.sublist_append_left _ _)
    · obtain rfl := List.mem_singleton.1 hmem
      refine sublist_append_singleton ?_ u
      by_contra hv
      -- a ready node leads to `v`, and it has a lower rank than the node that is taken
      obtain ⟨s, hsready, hsv⟩ := hlisted.inv.exists_ready_of_not_blocked hnode hfree hv
      have hsorted := hlisted.sorted
      rw [hready] at hsready hsorted
      rcases List.mem_cons.1 hsready with rfl | hsrest
      · exact hpath hsv
      · exact absurd (hrank s hsv) (not_lt.2 ((List.pairwise_cons.1 hsorted).1 s hsrest))

end Frontier

end DepGraph
