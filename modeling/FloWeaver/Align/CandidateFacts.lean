import FloWeaver.Align.Compatibility
import FloWeaver.Align.Rules
import Mathlib.Data.List.Chain
import Mathlib.Data.List.ReduceOption

/-!
# What the candidates are

A pair is made of a node of each version, with the report on the two; a block takes consecutive
nodes of each version.  The rules add blocks of the same kind and drop pairs.

* `FitsPair`, `FitsBlock` — the pairs and blocks that are generated.
* `generateAlignmentCandidates_fits` — the candidates of two versions.
* `applyRealignmentRules_fits` — the candidates after the rules.
-/

namespace FloWeaver.Align

open Py Ir

variable {baselineIr optimizedIr : IRProgram} {schema : CounterexampleObservationSchema}
variable {model : ResourceModel} {config : AlignmentConfig}

/-- A pair of two nodes, with the report on their observations. -/
structure FitsPair (baselineIr optimizedIr : IRProgram) (schema : CounterexampleObservationSchema)
    (model : ResourceModel) (config : AlignmentConfig) (p : CandidatePair) : Prop where
  made : candidatePair baselineIr optimizedIr schema model config p.baselineNodeId
    p.optimizedNodeId = .ok (some p)
  relation : p.relation = "EXACT"
  baseline : p.baselineNodeId ∈ baselineIr.order
  optimized : p.optimizedNodeId ∈ optimizedIr.order
  report : ∃ bNode oNode, baselineIr.nodes.get? p.baselineNodeId = some bNode ∧
    optimizedIr.nodes.get? p.optimizedNodeId = some oNode ∧
    p.observationCompatibility = observationCompatibility bNode oNode

def blockRelations : List String := ["SERIAL_EQ", "REORDER_EQ", "STUTTER", "REUSE_EQ", "BATCH_EQ"]

/-- A block of consecutive nodes; only a stutter leaves the baseline out. -/
structure FitsBlock (baselineIr optimizedIr : IRProgram) (b : CandidateBlock) : Prop where
  relation : b.relation ∈ blockRelations
  baseline : b.baselineNodeIds <:+: baselineIr.order
  optimized : b.optimizedNodeIds <:+: optimizedIr.order
  baseline_eq_nil : b.baselineNodeIds = [] ↔ b.relation = "STUTTER"
  optimized_ne_nil : b.optimizedNodeIds ≠ []

/-! ## Pairs -/

theorem candidatePair_fits {bId oId : String} {p : CandidatePair} (hb : bId ∈ baselineIr.order)
    (ho : oId ∈ optimizedIr.order)
    (hmade : candidatePair baselineIr optimizedIr schema model config bId oId = .ok (some p)) :
    FitsPair baselineIr optimizedIr schema model config p := by
  obtain ⟨bNode, hbNode, h⟩ := bind_eq_ok.1 hmade
  obtain ⟨oNode, hoNode, h⟩ := bind_eq_ok.1 h
  obtain ⟨semantic, -, h⟩ := bind_eq_ok.1 h
  obtain ⟨resource, -, h⟩ := bind_eq_ok.1 h
  split_ifs at h
  · cases h
  · obtain ⟨score, -, h⟩ := bind_eq_ok.1 h
    split_ifs at h
    · cases h
    · obtain rfl := Option.some.inj (pure_eq_ok.1 h)
      exact ⟨hmade, rfl, hb, ho, bNode, oNode, IRProgram.node_eq_ok.1 hbNode,
        IRProgram.node_eq_ok.1 hoNode, rfl⟩

theorem candidatesOf_fits {bId : String} {found : List CandidatePair}
    (hb : bId ∈ baselineIr.order)
    (h : candidatesOf baselineIr optimizedIr schema model config bId = .ok found) :
    ∀ p ∈ found, FitsPair baselineIr optimizedIr schema model config p := by
  obtain ⟨rows, hrows, h⟩ := bind_eq_ok.1 h
  obtain rfl := pure_eq_ok.1 h
  intro p hp
  have hp := mem_sortedByDesc.1 ((sliceTo_sublist _ _).subset hp)
  obtain ⟨oId, ho, hpair⟩ := mem_of_mapM_ok hrows (some p) (List.reduceOption_mem_iff.1 hp)
  exact candidatePair_fits hb ho hpair

/-! ## Runs of pairs -/

/-- Every pair of a run follows the one before it. -/
def IsRun (baselineIr optimizedIr : IRProgram) (run : List CandidatePair) : Prop :=
  run.IsChain fun prev candidate => followsPair baselineIr optimizedIr prev candidate = true

/-- Nodes at consecutive positions are an infix of the order. -/
theorem isInfix_of_positions {order : List String} {n : String} {ns : List String}
    (hmem : ∀ m ∈ n :: ns, m ∈ order)
    (h : (n :: ns).IsChain fun a b => order.idxOf b = order.idxOf a + 1) :
    (n :: ns) <+: order.drop (order.idxOf n) := by
  induction ns generalizing n with
  | nil =>
    have hlt := List.idxOf_lt_length_of_mem (hmem n List.mem_cons_self)
    rw [List.drop_eq_getElem_cons hlt, List.getElem_idxOf]
    exact List.prefix_append [n] _
  | cons m ms ih =>
    have hlt := List.idxOf_lt_length_of_mem (hmem n List.mem_cons_self)
    obtain ⟨hnext, hrest⟩ := List.isChain_cons_cons.1 h
    rw [List.drop_eq_getElem_cons hlt, List.getElem_idxOf, List.prefix_cons_inj, ← hnext]
    exact ih (fun x hx => hmem x (List.mem_cons_of_mem _ hx)) hrest

theorem isInfix_of_isChain {order : List String} {ns : List String} (hmem : ∀ m ∈ ns, m ∈ order)
    (h : ns.IsChain fun a b => order.idxOf b = order.idxOf a + 1) : ns <:+: order := by
  cases ns with
  | nil => exact List.nil_infix
  | cons n ns => exact (isInfix_of_positions hmem h).isInfix.trans (List.drop_suffix _ _).isInfix

theorem singleton_isInfix {order : List String} {n : String} (h : n ∈ order) : [n] <:+: order := by
  obtain ⟨s, t, rfl⟩ := List.append_of_mem h
  exact ⟨s, t, by simp⟩

/-- The block of a run. -/
theorem serialBlock_fits {run : List CandidatePair} {b : CandidateBlock}
    (hrun : IsRun baselineIr optimizedIr run)
    (hfits : ∀ p ∈ run, FitsPair baselineIr optimizedIr schema model config p) (hb : b ∈ serialBlock run) :
    FitsBlock baselineIr optimizedIr b := by
  rw [serialBlock] at hb
  split_ifs at hb with hlength
  · obtain rfl := List.mem_singleton.1 hb
    have hne : run ≠ [] := by
      rintro rfl
      exact absurd hlength (by decide)
    refine ⟨List.mem_cons_self, ?_, ?_, ?_, by simpa using hne⟩
    · refine isInfix_of_isChain ?_ ?_
      · intro m hm
        obtain ⟨p, hp, rfl⟩ := List.mem_map.1 hm
        exact (hfits p hp).baseline
      · refine (List.isChain_map _).2 (hrun.imp fun prev candidate hfollows => ?_)
        simp only [followsPair, Bool.and_eq_true, decide_eq_true_eq] at hfollows
        exact hfollows.1
    · refine isInfix_of_isChain ?_ ?_
      · intro m hm
        obtain ⟨p, hp, rfl⟩ := List.mem_map.1 hm
        exact (hfits p hp).optimized
      · refine (List.isChain_map _).2 (hrun.imp fun prev candidate hfollows => ?_)
        simp only [followsPair, Bool.and_eq_true, decide_eq_true_eq] at hfollows
        exact hfollows.2
    · simp [hne]
  · cases hb

theorem serialBlocksFrom_fits {run rest : List CandidatePair} {b : CandidateBlock}
    (hrun : IsRun baselineIr optimizedIr run)
    (hfits : ∀ p ∈ run, FitsPair baselineIr optimizedIr schema model config p)
    (hrest : ∀ p ∈ rest, FitsPair baselineIr optimizedIr schema model config p)
    (hb : b ∈ serialBlocksFrom baselineIr optimizedIr run rest) :
    FitsBlock baselineIr optimizedIr b := by
  induction rest generalizing run with
  | nil => exact serialBlock_fits hrun hfits hb
  | cons candidate rest ih =>
    obtain ⟨hcandidate, hrest⟩ := List.forall_mem_cons.1 hrest
    have hsingle : IsRun baselineIr optimizedIr [candidate] := List.isChain_singleton _
    have hfitsSingle : ∀ p ∈ [candidate], FitsPair baselineIr optimizedIr schema model config p := fun p hp =>
      List.mem_singleton.1 hp ▸ hcandidate
    rw [serialBlocksFrom] at hb
    split at hb
    · exact ih hsingle hfitsSingle hrest hb
    · rename_i prev hprev
      split_ifs at hb with hfollows
      · refine ih (List.isChain_append.2 ⟨hrun, hsingle, ?_⟩) ?_ hrest hb
        · intro x hx y hy
          obtain rfl : prev = x := Option.some.inj (hprev.symm.trans hx)
          obtain rfl : candidate = y := Option.some.inj hy
          exact hfollows
        · intro p hp
          rcases List.mem_append.1 hp with hp | hp
          · exact hfits p hp
          · exact hfitsSingle p hp
      · rcases List.mem_append.1 hb with hb | hb
        · exact serialBlock_fits hrun hfits hb
        · exact ih hsingle hfitsSingle hrest hb

/-- The candidates that are generated. -/
theorem generateAlignmentCandidates_fits {pairs : List CandidatePair}
    {blocks : List CandidateBlock}
    (h : generateAlignmentCandidates baselineIr optimizedIr schema model config =
      .ok (pairs, blocks)) :
    (∀ p ∈ pairs, FitsPair baselineIr optimizedIr schema model config p) ∧
      ∀ b ∈ blocks, FitsBlock baselineIr optimizedIr b := by
  obtain ⟨found, hfound, h⟩ := bind_eq_ok.1 h
  obtain ⟨rfl, rfl⟩ := Prod.mk.inj (pure_eq_ok.1 h)
  have hpairs : ∀ p ∈ sliceTo config.maxCandidatePairs
      (sortedByDesc (fun item => toLex (item.score, item.confidence)) found.flatten),
      FitsPair baselineIr optimizedIr schema model config p := by
    intro p hp
    have hp := mem_sortedByDesc.1 ((sliceTo_sublist _ _).subset hp)
    obtain ⟨row, hrow, hp⟩ := List.mem_flatten.1 hp
    obtain ⟨bId, hbId, hrow⟩ := mem_of_mapM_ok hfound row hrow
    exact candidatesOf_fits hbId hrow p hp
  refine ⟨hpairs, fun b hb => ?_⟩
  have hnone : ∀ p ∈ [], FitsPair baselineIr optimizedIr schema model config p :=
    List.forall_mem_nil _
  refine serialBlocksFrom_fits .nil hnone (fun p hp => ?_) hb
  exact hpairs p (List.mem_filter.1 (mem_sortedBy.1 hp)).1

/-! ## The rules -/

theorem mem_collect {limit : ℕ} {find : ℕ → Except PyErr (Option CandidateBlock)} {js : List ℕ}
    {found found' : Found} (h : collect limit find js found = .ok found') {b : CandidateBlock}
    (hb : b ∈ found'.1) : b ∈ found.1 ∨ ∃ j, find j = .ok (some b) := by
  induction js generalizing found with
  | nil =>
    obtain rfl := Except.ok.inj h
    exact .inl hb
  | cons j js ih =>
    obtain ⟨result, hresult, h⟩ := bind_eq_ok.1 h
    cases result with
    | none => exact ih h
    | some block =>
      -- the block is added, and then the search ends or goes on
      have hadded : b ∈ found.1 ++ [block] → b ∈ found.1 ∨ ∃ j, find j = .ok (some b) := by
        intro hb
        rcases List.mem_append.1 hb with hb | hb
        · exact .inl hb
        · exact .inr ⟨j, List.mem_singleton.1 hb ▸ hresult⟩
      simp only at h
      split_ifs at h
      · obtain rfl := pure_eq_ok.1 h
        exact hadded hb
      · exact (ih h).elim hadded .inr

theorem mem_collectRows {limit : ℕ}
    {row : ℕ → Except PyErr (Option (ℕ → Except PyErr (Option CandidateBlock)))} {js is : List ℕ}
    {found found' : Found} (h : collectRows limit row js is found = .ok found') {b : CandidateBlock}
    (hb : b ∈ found'.1) :
    b ∈ found.1 ∨ ∃ i find j, row i = .ok (some find) ∧ find j = .ok (some b) := by
  induction is generalizing found with
  | nil =>
    obtain rfl := Except.ok.inj h
    exact .inl hb
  | cons i is ih =>
    obtain ⟨result, hresult, h⟩ := bind_eq_ok.1 h
    cases result with
    | none => exact ih h
    | some find =>
      obtain ⟨next, hnext, h⟩ := bind_eq_ok.1 h
      have hcollect : b ∈ next.1 → b ∈ found.1 ∨ ∃ i find j, row i = .ok (some find) ∧
          find j = .ok (some b) := fun hb =>
        (mem_collect hnext hb).imp_right fun ⟨j, hj⟩ => ⟨i, find, j, hresult, hj⟩
      split_ifs at h
      · obtain rfl := pure_eq_ok.1 h
        exact hcollect hb
      · exact (ih h).elim hcollect .inr

theorem window_isInfix (program : IRProgram) (i n : ℕ) : window program i n <:+: program.order :=
  (List.take_prefix _ _).isInfix.trans (List.drop_suffix _ _).isInfix

variable {pairLookup : OrderedDict (String × String) CandidatePair}

theorem independentActSwap_fits {i j : ℕ} {b : CandidateBlock}
    (h : independentActSwap baselineIr optimizedIr pairLookup (window baselineIr i 2) j =
      .ok (some b)) : FitsBlock baselineIr optimizedIr b := by
  have hb := window_isInfix baselineIr i 2
  have ho := window_isInfix optimizedIr j 2
  obtain ⟨ofKind, -, h⟩ := bind_eq_ok.1 h
  split_ifs at h
  · cases h
  · split at h
    · rename_i b1 b2 o1 o2 hbWindow hoWindow
      split at h
      · obtain ⟨leftSig, -, h⟩ := bind_eq_ok.1 h
        obtain ⟨rightSig, -, h⟩ := bind_eq_ok.1 h
        split_ifs at h
        · cases h
        · obtain rfl := Option.some.inj (pure_eq_ok.1 h)
          exact ⟨by simp [blockRelations], hb, ho, by simp [hbWindow], by simp [hoWindow]⟩
      · cases h
    · cases h

theorem independentActRow_fits {i j : ℕ} {find : ℕ → Except PyErr (Option CandidateBlock)}
    {b : CandidateBlock} (hrow : independentActRow baselineIr optimizedIr pairLookup i =
      .ok (some find)) (h : find j = .ok (some b)) : FitsBlock baselineIr optimizedIr b := by
  obtain ⟨ofKind, -, hrow⟩ := bind_eq_ok.1 hrow
  split_ifs at hrow
  · cases hrow
  · split at hrow
    · obtain ⟨node1, -, hrow⟩ := bind_eq_ok.1 hrow
      obtain ⟨node2, -, hrow⟩ := bind_eq_ok.1 hrow
      obtain ⟨conflict, -, hrow⟩ := bind_eq_ok.1 hrow
      split_ifs at hrow
      · cases hrow
      · obtain rfl := Option.some.inj (pure_eq_ok.1 hrow)
        exact independentActSwap_fits h
    · cases hrow

theorem sharedContextReuseBlock_fits {i j : ℕ} {b : CandidateBlock}
    (h : sharedContextReuseBlock baselineIr optimizedIr pairLookup i j = .ok (some b)) :
    FitsBlock baselineIr optimizedIr b := by
  have hb := window_isInfix baselineIr i 4
  have ho := window_isInfix optimizedIr j 4
  rw [sharedContextReuseBlock] at h
  split at h
  · rename_i b0 b1 b2 b3 o0 o1 o2 o3 hbWindow hoWindow
    rw [hbWindow] at hb
    rw [hoWindow] at ho
    obtain ⟨bKinds, -, h⟩ := bind_eq_ok.1 h
    obtain ⟨oKinds, -, h⟩ := bind_eq_ok.1 h
    split_ifs at h
    · cases h
    · cases h
    · cases h
    · obtain ⟨bNode, -, h⟩ := bind_eq_ok.1 h
      obtain ⟨leftResource, -, h⟩ := bind_eq_ok.1 h
      obtain ⟨oNode, -, h⟩ := bind_eq_ok.1 h
      obtain ⟨rightResource, -, h⟩ := bind_eq_ok.1 h
      split_ifs at h
      · cases h
      · obtain rfl := Option.some.inj (pure_eq_ok.1 h)
        exact ⟨by simp [blockRelations], hb, ho, by simp, by simp⟩
  · cases h

theorem setupPrefixStutters_fits {blocks : List CandidateBlock}
    (h : setupPrefixStutters optimizedIr = .ok blocks) :
    ∀ b ∈ blocks, FitsBlock baselineIr optimizedIr b := by
  obtain ⟨nodeIds, hnodeIds, h⟩ := bind_eq_ok.1 h
  obtain rfl := pure_eq_ok.1 h
  intro b hb
  obtain ⟨n, hn, rfl⟩ := List.mem_map.1 hb
  rw [IRProgram.nodesWith_spec hnodeIds] at hn
  exact ⟨by simp [blockRelations], List.nil_infix,
    singleton_isInfix (List.mem_filter.1 hn).1, by simp, by simp⟩

theorem listenerPreservingRow_fits {i : ℕ} {blocks : List CandidateBlock}
    (hi : i ∈ List.range (baselineIr.order.length - 1))
    (h : listenerPreservingRow baselineIr optimizedIr i = .ok blocks) :
    ∀ b ∈ blocks, FitsBlock baselineIr optimizedIr b := by
  obtain ⟨ofKind, -, h⟩ := bind_eq_ok.1 h
  split_ifs at h
  · obtain rfl := pure_eq_ok.1 h
    simp
  · obtain ⟨rows, hrows, h⟩ := bind_eq_ok.1 h
    obtain rfl := pure_eq_ok.1 h
    intro b hb
    obtain ⟨j, hj, hbatch⟩ := mem_of_mapM_ok hrows (some b) (List.reduceOption_mem_iff.1 hb)
    rw [List.mem_range] at hi hj
    obtain ⟨ofKind, -, hbatch⟩ := bind_eq_ok.1 hbatch
    split_ifs at hbatch
    · cases hbatch
    · obtain ⟨leftSig, -, hbatch⟩ := bind_eq_ok.1 hbatch
      obtain ⟨rightSig, -, hbatch⟩ := bind_eq_ok.1 hbatch
      split_ifs at hbatch
      · cases hbatch
      · obtain rfl := Option.some.inj (pure_eq_ok.1 hbatch)
        have hbWindow : window baselineIr i 2 ≠ [] := by
          rw [← List.length_pos_iff, window, List.length_take, List.length_drop]
          omega
        have hoWindow : window optimizedIr j 2 ≠ [] := by
          rw [← List.length_pos_iff, window, List.length_take, List.length_drop]
          omega
        exact ⟨by simp [blockRelations], window_isInfix _ _ _, window_isInfix _ _ _,
          by simp [hbWindow], hoWindow⟩

theorem mem_dedupBlocks {blocks : List CandidateBlock} {b : CandidateBlock}
    (h : b ∈ dedupBlocks blocks) : b ∈ blocks := by
  have hkept : ∀ kept : List CandidateBlock, b ∈ blocks.foldl (fun kept block =>
      if (kept.map blockKey).contains (blockKey block) then kept else kept ++ [block]) kept →
        b ∈ kept ∨ b ∈ blocks := by
    clear h
    induction blocks with
    | nil => exact fun kept hb => .inl hb
    | cons block blocks ih =>
      intro kept hb
      rw [List.foldl_cons] at hb
      rcases ih _ hb with hb | hb
      · split_ifs at hb
        · exact .inl hb
        · rcases List.mem_append.1 hb with hb | hb
          · exact .inl hb
          · exact .inr (List.mem_singleton.1 hb ▸ List.mem_cons_self)
      · exact .inr (List.mem_cons_of_mem _ hb)
  exact (hkept [] h).resolve_left List.not_mem_nil

theorem ifOn_eq_ok {α : Type} {rules : List String} {rule : String} {run : Except PyErr α}
    {otherwise a : α} (h : ifOn rules rule run otherwise = .ok a) : run = .ok a ∨ otherwise = a := by
  rw [ifOn] at h
  split_ifs at h
  · exact .inl h
  · exact .inr (Except.ok.inj h)

/-- The blocks differ in their keys. -/
theorem nodup_dedupBlocks (blocks : List CandidateBlock) :
    ((dedupBlocks blocks).map blockKey).Nodup := by
  have hkept : ∀ kept : List CandidateBlock, (kept.map blockKey).Nodup →
      ((blocks.foldl (fun kept block =>
        if (kept.map blockKey).contains (blockKey block) then kept else kept ++ [block])
        kept).map blockKey).Nodup := by
    induction blocks with
    | nil => exact fun kept hkept => hkept
    | cons block blocks ih =>
      intro kept hkept
      rw [List.foldl_cons]
      refine ih _ ?_
      split_ifs with hmem
      · exact hkept
      · rw [List.map_append, List.map_singleton]
        exact List.concat_eq_append ▸ (List.nodup_concat _ _).2
          ⟨fun h => hmem (List.contains_iff_mem.2 h), hkept⟩
  exact hkept [] .nil

/-- The candidates after the rules. -/
theorem applyRealignmentRules_fits {pairs pairs' : List CandidatePair}
    {blocks blocks' : List CandidateBlock} {rules : List String} {maxRuleApplications : ℤ}
    (hpairs : ∀ p ∈ pairs, FitsPair baselineIr optimizedIr schema model config p)
    (hblocks : ∀ b ∈ blocks, FitsBlock baselineIr optimizedIr b)
    (h : applyRealignmentRules baselineIr optimizedIr pairs blocks rules maxRuleApplications =
      .ok (pairs', blocks')) :
    (∀ p ∈ pairs', FitsPair baselineIr optimizedIr schema model config p) ∧
      (∀ b ∈ blocks', FitsBlock baselineIr optimizedIr b) ∧ (blocks'.map blockKey).Nodup := by
  obtain ⟨swapped, hswapped, h⟩ := bind_eq_ok.1 h
  obtain ⟨stutters, hstutters, h⟩ := bind_eq_ok.1 h
  obtain ⟨reused, hreused, h⟩ := bind_eq_ok.1 h
  obtain ⟨batches, hbatches, h⟩ := bind_eq_ok.1 h
  obtain ⟨kept, hkept, h⟩ := bind_eq_ok.1 h
  obtain ⟨rfl, rfl⟩ := Prod.mk.inj (pure_eq_ok.1 h)
  have hswap : ∀ b ∈ swapped.1, FitsBlock baselineIr optimizedIr b := by
    intro b hb
    rcases ifOn_eq_ok hswapped with hswapped | rfl
    · rcases mem_collectRows hswapped hb with hb | ⟨i, find, j, hrow, hfind⟩
      · exact hblocks b hb
      · exact independentActRow_fits hrow hfind
    · exact hblocks b hb
  have hstutter : ∀ b ∈ stutters, FitsBlock baselineIr optimizedIr b := by
    rcases ifOn_eq_ok hstutters with hstutters | rfl
    · exact setupPrefixStutters_fits hstutters
    · simp
  have hbefore : ∀ b ∈ swapped.1 ++ stutters, FitsBlock baselineIr optimizedIr b := fun b hb =>
    (List.mem_append.1 hb).elim (hswap b) (hstutter b)
  have hreuse : ∀ b ∈ reused.1, FitsBlock baselineIr optimizedIr b := by
    intro b hb
    rcases ifOn_eq_ok hreused with hreused | rfl
    · rcases mem_collectRows hreused hb with hb | ⟨i, find, j, hrow, hfind⟩
      · exact hbefore b hb
      · obtain rfl := Option.some.inj (Except.ok.inj hrow)
        exact sharedContextReuseBlock_fits hfind
    · exact hbefore b hb
  have hbatch : ∀ b ∈ batches.flatten, FitsBlock baselineIr optimizedIr b := by
    intro b hb
    obtain ⟨row, hrow, hb⟩ := List.mem_flatten.1 hb
    rcases ifOn_eq_ok hbatches with hbatches | rfl
    · obtain ⟨i, hi, hfound⟩ := mem_of_mapM_ok hbatches row hrow
      exact listenerPreservingRow_fits hi hfound b hb
    · cases hrow
  refine ⟨fun p hp => ?_, fun b hb => ?_, nodup_dedupBlocks _⟩
  · rcases ifOn_eq_ok hkept with hkept | rfl
    · exact hpairs p (mem_of_filterM_ok hkept hp)
    · exact hpairs p hp
  · exact (List.mem_append.1 (mem_dedupBlocks hb)).elim (hreuse b) (hbatch b)

end FloWeaver.Align
