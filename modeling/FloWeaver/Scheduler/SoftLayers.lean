import FloWeaver.Scheduler.GroupingFacts
import FloWeaver.Lib.Digraph

/-!
# The soft order inside a batch

Outside conservative mode a batch is cut into layers by the soft order, and every layer is
grouped for itself.  A layer holds the remaining actions without a remaining predecessor, so in
an acyclic order no pair runs against the layers; groups stay inside their layer.

* `layerLoop_of_le` — the loop ends: more rounds than actions change nothing.
* `Waiting` — the counters count the pairs that start in a remaining action.
* `layerLoop_layered` — no pair joins a layer to itself or to an earlier one.
* `buildParallelGroups_softOrder` — the groups of the first end come before the groups of the
  second end.
-/

namespace FloWeaver.Scheduler

open Py DepGraph

variable {ctx : Ctx} {selected : List String} {edges : List (String × String)}

/-! ## The loop ends -/

/-- The next layer of some remaining actions. -/
def nextLayer (a : String) (rest : List String) (indegree : String → ℕ) : List String :=
  if ((a :: rest).filter fun x => indegree x = 0).isEmpty then [a]
  else (a :: rest).filter fun x => indegree x = 0

theorem nextLayer_sublist (a : String) (rest : List String) (indegree : String → ℕ) :
    (nextLayer a rest indegree).Sublist (a :: rest) := by
  unfold nextLayer
  split_ifs
  · exact (List.nil_sublist rest).cons_cons a
  · exact List.filter_sublist

theorem nextLayer_ne_nil (a : String) (rest : List String) (indegree : String → ℕ) :
    nextLayer a rest indegree ≠ [] := by
  unfold nextLayer
  split_ifs with h
  · exact List.cons_ne_nil _ _
  · exact fun he => h (by rw [he]; rfl)

/-- A layer takes something away. -/
theorem length_remaining_lt (a : String) (rest : List String) (indegree : String → ℕ) :
    ((a :: rest).filter fun x => !(nextLayer a rest indegree).contains x).length <
      (a :: rest).length := by
  obtain ⟨x, hx⟩ := List.exists_mem_of_ne_nil _ (nextLayer_ne_nil a rest indegree)
  refine List.length_filter_lt_length_iff_exists.2
    ⟨x, (nextLayer_sublist a rest indegree).subset hx, ?_⟩
  simp [hx]

/-- The counters after a layer. -/
def countLayer (edges : List (String × String)) (layer : List String) (indegree : String → ℕ)
    (x : String) : ℕ :=
  indegree x - (edges.filter fun e => layer.contains e.1 && e.2 = x).length

theorem layerLoop_cons (fuel : ℕ) (a : String) (rest : List String) (indegree : String → ℕ) :
    layerLoop edges (fuel + 1) (a :: rest) indegree =
      nextLayer a rest indegree :: layerLoop edges fuel
        ((a :: rest).filter fun x => !(nextLayer a rest indegree).contains x)
        (countLayer edges (nextLayer a rest indegree) indegree) := rfl

/-- Rounds beyond the number of remaining actions change nothing, cyclic or not. -/
theorem layerLoop_of_le : ∀ {n m : ℕ} {remaining : List String} {indegree : String → ℕ},
    remaining.length ≤ n → n ≤ m →
    layerLoop edges m remaining indegree = layerLoop edges n remaining indegree
  | n, m, [], indegree, _, _ => by
    cases n <;> cases m <;> rfl
  | 0, _, _ :: _, _, h, _ => absurd h (by simp)
  | n + 1, 0, _ :: _, _, _, h => absurd h (by simp)
  | n + 1, m + 1, a :: rest, indegree, h, hnm => by
    have hlt := length_remaining_lt a rest indegree
    rw [layerLoop_cons, layerLoop_cons]
    refine congrArg _ (layerLoop_of_le ?_ (Nat.le_of_succ_le_succ hnm))
    simp only [List.length_cons] at h hlt
    omega

/-! ## The layers -/

/-- No pair leads from the second part back to the first one. -/
def MayPrecede (edges : List (String × String)) (l m : List String) : Prop :=
  ∀ a ∈ m, ∀ b ∈ l, (a, b) ∉ edges

/-- No pair joins a part to itself or to an earlier one. -/
def Layered (edges : List (String × String)) (parts : List (List String)) : Prop :=
  parts.Pairwise (MayPrecede edges) ∧ ∀ part ∈ parts, MayPrecede edges part part

/-- The counters of the remaining actions count the pairs that start in a remaining action. -/
def Waiting (edges : List (String × String)) (remaining : List String) (indegree : String → ℕ) :
    Prop :=
  ∀ x ∈ remaining, indegree x =
    (edges.filter fun e => remaining.contains e.1 && e.2 = x).length

/-- A layer takes its pairs off the counters. -/
theorem Waiting.next {remaining layer : List String} {indegree : String → ℕ}
    (h : Waiting edges remaining indegree) (hsub : layer ⊆ remaining) :
    Waiting edges (remaining.filter fun x => !layer.contains x)
      (countLayer edges layer indegree) := by
  intro x hx
  obtain ⟨hmem, -⟩ := List.mem_filter.1 hx
  -- the pairs that end in `x` start in the layer or in what remains after it
  have hsplit := List.length_eq_length_filter_add
    (l := edges.filter fun e => remaining.contains e.1 && e.2 = x) fun e => layer.contains e.1
  have hleft : (edges.filter fun e => remaining.contains e.1 && e.2 = x).filter
      (fun e => layer.contains e.1) =
      edges.filter fun e => layer.contains e.1 && e.2 = x := by
    rw [List.filter_filter]
    refine List.filter_congr fun e _ => ?_
    by_cases he : e.1 ∈ layer
    · simp [he, hsub he]
    · simp [he]
  have hright : (edges.filter fun e => remaining.contains e.1 && e.2 = x).filter
      (fun e => !layer.contains e.1) =
      edges.filter fun e =>
        (remaining.filter fun x => !layer.contains x).contains e.1 && e.2 = x := by
    rw [List.filter_filter]
    refine List.filter_congr fun e _ => ?_
    by_cases he : e.1 ∈ layer
    · simp [he]
    · simp [he]
  rw [countLayer, h x hmem, hsplit, hleft, hright]
  omega

/-- In an acyclic order some remaining action has no remaining predecessor. -/
theorem exists_free (hacyclic : Acyclic fun a b => (a, b) ∈ edges) {remaining : List String}
    {indegree : String → ℕ} (h : Waiting edges remaining indegree) (hne : remaining ≠ []) :
    (remaining.filter fun x => indegree x = 0) ≠ [] := by
  obtain ⟨y, hy⟩ := List.exists_mem_of_ne_nil _ hne
  obtain ⟨v, hv, hsource⟩ := exists_source hacyclic remaining.toFinset ⟨y, by simpa using hy⟩
  have hmem : v ∈ remaining := by simpa using hv
  refine List.ne_nil_of_mem (List.mem_filter.2 ⟨hmem, decide_eq_true ?_⟩)
  rw [h v hmem, List.length_eq_zero_iff, List.filter_eq_nil_iff]
  rintro ⟨p, q⟩ he hc
  simp only [Bool.and_eq_true, List.contains_iff_mem, decide_eq_true_eq] at hc
  exact hsource p (by simpa using hc.1) (hc.2 ▸ he)

/-- A free action has no remaining predecessor. -/
theorem mayPrecede_free {remaining : List String} {indegree : String → ℕ}
    (h : Waiting edges remaining indegree) {m : List String} (hm : m ⊆ remaining) :
    MayPrecede edges (remaining.filter fun x => indegree x = 0) m := by
  intro a ha b hb he
  obtain ⟨hmem, hzero⟩ := List.mem_filter.1 hb
  have hnil := h b hmem
  rw [of_decide_eq_true hzero, eq_comm, List.length_eq_zero_iff, List.filter_eq_nil_iff] at hnil
  exact hnil (a, b) he (by simpa using hm ha)

/-- **The layers follow the order**, when it is acyclic. -/
theorem layerLoop_layered (hacyclic : Acyclic fun a b => (a, b) ∈ edges) :
    ∀ {fuel : ℕ} {remaining : List String} {indegree : String → ℕ},
      Waiting edges remaining indegree →
      Layered edges (layerLoop edges fuel remaining indegree) ∧
        ∀ layer ∈ layerLoop edges fuel remaining indegree, layer ⊆ remaining
  | 0, _, _, _ => ⟨⟨List.Pairwise.nil, nofun⟩, nofun⟩
  | _ + 1, [], _, _ => ⟨⟨List.Pairwise.nil, nofun⟩, nofun⟩
  | fuel + 1, a :: rest, indegree, h => by
    have hsub := (nextLayer_sublist a rest indegree).subset
    obtain ⟨⟨hpairs, hown⟩, hrest⟩ := @layerLoop_layered hacyclic fuel _ _ (h.next hsub)
    have hfree : nextLayer a rest indegree = (a :: rest).filter fun x => indegree x = 0 := by
      rw [nextLayer, if_neg]
      rw [List.isEmpty_iff]
      exact exists_free hacyclic h (List.cons_ne_nil _ _)
    have hlater : ∀ layer ∈ layerLoop edges fuel
        ((a :: rest).filter fun x => !(nextLayer a rest indegree).contains x)
        (countLayer edges (nextLayer a rest indegree) indegree), layer ⊆ a :: rest :=
      fun layer hl x hx => (List.mem_filter.1 (hrest layer hl hx)).1
    rw [layerLoop_cons]
    refine ⟨⟨List.pairwise_cons.2 ⟨fun layer hl => ?_, hpairs⟩, fun layer hl => ?_⟩,
      fun layer hl => ?_⟩
    · rw [hfree]
      exact mayPrecede_free h (hlater layer hl)
    · rcases List.mem_cons.1 hl with rfl | hl
      · rw [hfree]
        exact mayPrecede_free h (hfree ▸ hsub)
      · exact hown layer hl
    · rcases List.mem_cons.1 hl with rfl | hl
      · exact hsub
      · exact hlater layer hl

theorem waiting_start (selected : List String) :
    Waiting (softEdges ctx selected) selected
      fun x => ((softEdges ctx selected).filter fun e => e.2 = x).length := by
  intro x _
  refine congrArg List.length (List.filter_congr fun e he => ?_)
  have hmem : e.1 ∈ selected := by
    have hkeep := (List.mem_filter.1 (List.mem_dedup.1 he)).2
    simp only [Bool.and_eq_true, List.contains_iff_mem] at hkeep
    exact hkeep.1.1
  simp [hmem]

/-! ## The groups -/

/-- Parts stay layered when every part is cut up. -/
theorem Layered.flatMap {parts : List (List String)} (h : Layered edges parts)
    {f : List String → List (List String)} (hf : ∀ part, ∀ group ∈ f part, group ⊆ part) :
    Layered edges (parts.flatMap f) := by
  have hcut : ∀ {l m g k : List String}, MayPrecede edges l m → g ∈ f l → k ∈ f m →
      MayPrecede edges g k :=
    fun hlm hg hk a ha b hb => hlm a (hf _ _ hk ha) b (hf _ _ hg hb)
  refine ⟨List.pairwise_flatMap.2 ⟨fun part hpart => ?_, ?_⟩, fun group hgroup => ?_⟩
  · exact List.pairwise_of_forall_mem_list fun g hg k hk => hcut (h.2 part hpart) hg hk
  · exact h.1.imp fun hlm g hg k hk => hcut hlm hg hk
  · obtain ⟨part, hpart, hg⟩ := List.mem_flatMap.1 hgroup
    exact hcut (h.2 part hpart) hg hg

/-- In layered parts the first end of a pair stands before the second one. -/
theorem Layered.lt {parts : List (List String)} (h : Layered edges parts) {a b : String}
    (he : (a, b) ∈ edges) {i j : ℕ} {p q : List String} (hi : parts[i]? = some p)
    (hj : parts[j]? = some q) (ha : a ∈ p) (hb : b ∈ q) : i < j := by
  obtain ⟨hilt, rfl⟩ := List.getElem?_eq_some_iff.1 hi
  obtain ⟨hjlt, rfl⟩ := List.getElem?_eq_some_iff.1 hj
  rcases Nat.lt_trichotomy i j with hij | rfl | hji
  · exact hij
  · exact absurd he (h.2 _ (List.getElem_mem hilt) a ha b hb)
  · exact absurd he (List.pairwise_iff_getElem.1 h.1 j i hjlt hilt hji a ha b hb)

theorem group_subset_layer {layer group : List String}
    (h : group ∈ (groupSelectedActions ctx layer).1) : group ⊆ layer :=
  fun _ ha => mem_groupSelectedActions.1 (List.mem_flatten.2 ⟨group, h, ha⟩)

theorem layered_groupingLayers (hmode : ctx.conservativeGrouping = false)
    (hacyclic : Acyclic fun a b => (a, b) ∈ softEdges ctx selected) :
    Layered (softEdges ctx selected) (groupingLayers ctx selected) := by
  unfold groupingLayers
  split_ifs with h
  · have hnil : softEdges ctx selected = [] := by simpa [hmode] using h
    rw [hnil]
    exact ⟨List.pairwise_singleton _ _, fun _ _ _ _ _ _ => List.not_mem_nil⟩
  · exact (layerLoop_layered hacyclic (waiting_start selected)).1

/-- **The soft order inside a batch.**  Outside conservative mode the layers are complete after as
many rounds as there are actions, and no round beyond changes them, also when the order is cyclic;
the groups hold the actions of the batch.  When the order is acyclic on the batch, every group of
the first end of a pair comes before every group of the second end. -/
theorem buildParallelGroups_softOrder (hmode : ctx.conservativeGrouping = false)
    (hnodup : selected.Nodup) :
    (∀ rounds, selected.length ≤ rounds →
      layerLoop (softEdges ctx selected) rounds selected
        (fun x => ((softEdges ctx selected).filter fun e => e.2 = x).length) =
          softOrderLayers ctx selected) ∧
      (∀ a, a ∈ (buildParallelGroups ctx selected).1.flatten ↔ a ∈ selected) ∧
      ((Acyclic fun a b => (a, b) ∈ ctx.derived.softOrderPairs ∧ a ∈ selected ∧ b ∈ selected) →
        ∀ a b, (a, b) ∈ ctx.derived.softOrderPairs → a ∈ selected → b ∈ selected →
          ∀ (i j : ℕ) (p q : List String), (buildParallelGroups ctx selected).1[i]? = some p →
            (buildParallelGroups ctx selected).1[j]? = some q → a ∈ p → b ∈ q → i < j) := by
  refine ⟨fun rounds h => layerLoop_of_le (Nat.le_refl _) h, fun a => mem_buildParallelGroups hnodup,
    fun hacyclic a b hab ha hb i j p q hi hj hap hbq => ?_⟩
  have hmem : ∀ {a b}, (a, b) ∈ softEdges ctx selected ↔
      ((a, b) ∈ ctx.derived.softOrderPairs ∧ a ∈ selected ∧ b ∈ selected) ∧ a ≠ b := by
    intro a b
    simp [softEdges, and_assoc]
  have hne : a ≠ b := by
    rintro rfl
    exact hacyclic a (Relation.TransGen.single ⟨hab, ha, hb⟩)
  have hgroups : (buildParallelGroups ctx selected).1 =
      (groupingLayers ctx selected).flatMap fun layer => (groupSelectedActions ctx layer).1 := by
    rw [buildParallelGroups, if_neg (by simpa using List.ne_nil_of_mem ha), hmode, if_neg (by simp)]
    dsimp only
    rw [List.flatMap_map]
  rw [hgroups] at hi hj
  have hlayered := layered_groupingLayers hmode (hacyclic.mono fun u v huv => (hmem.1 huv).1)
  exact (hlayered.flatMap fun _ _ => group_subset_layer).lt (hmem.2 ⟨⟨hab, ha, hb⟩, hne⟩) hi hj
    hap hbq

/-- Two local actions declared `a` and `b`, with a soft order from `b` to `a`. -/
def softOrderCtx : Ctx where
  index := actionIndex {
    vdevActions := [[("action_id", .str "a"), ("protocol", .str "LOCAL")],
      [("action_id", .str "b"), ("protocol", .str "LOCAL")]] }
  dag := {}
  derived := { totalLimit := 4, bleLimit := 1, cloudLimit := 1, localLimit := 4, unknownLimit := 1
               maxQps := 5, rateLimitBurst := 1, rateLimitWindowMs := 1000, latencyBudgetMs := 0
               softOrderPairs := [("b", "a")] }
  hard := ⟨CountedGraph.empty ["a", "b"] (by decide), .empty⟩
  conservativeGrouping := false
  baselineTraceHints := []
  criticalScore := fun _ => 0
  phases := []

theorem buildParallelGroups_softOrder_pair :
    ["a", "b"].Nodup ∧ ∀ (i j : ℕ) (p q : List String),
      (buildParallelGroups softOrderCtx ["a", "b"]).1[i]? = some p →
        (buildParallelGroups softOrderCtx ["a", "b"]).1[j]? = some q →
          "b" ∈ p → "a" ∈ q → i < j := by
  refine ⟨by decide, (buildParallelGroups_softOrder rfl (by decide)).2.2 (fun v hv => ?_) "b" "a"
    (by decide) (by decide) (by decide)⟩
  -- a cycle would leave `b` and end in `a`
  have hpair : ∀ {x y : String}, (x, y) ∈ softOrderCtx.derived.softOrderPairs → x = "b" ∧ y = "a" :=
    fun h => Prod.mk.inj (List.mem_singleton.1 h)
  obtain ⟨x, hvx, -⟩ := Relation.TransGen.head'_iff.1 hv
  obtain ⟨y, -, hyv⟩ := Relation.TransGen.tail'_iff.1 hv
  have hclash : "b" = "a" := (hpair hvx.1).1.symm.trans (hpair hyv.1).2
  exact absurd hclash (by decide)

end FloWeaver.Scheduler
