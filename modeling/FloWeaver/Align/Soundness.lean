import FloWeaver.Align.Graph
import FloWeaver.Align.Search

/-!
# The search is sound

An alignment is a selection of candidates that share no node.  When the id of a candidate tells
which candidate it is, no selected candidate is excluded, and no two of them cross.

* `Contiguous` — the interval of some nodes.
* `Contiguous.span` — the span that is computed.
* `sameOrder_of_not_crosses` — the test for crossing candidates misses none.
* `IdsTellApart` — two candidates with one id are the same candidate.
* `IsSound` — what an alignment promises.
* `searchAlignment_sound` — the search keeps the promise.
* `sharedId_selects_crossing` — two crossing candidates that share their id.
-/

/-!
## Spans that cross

A candidate whose nodes are consecutive in both versions spans an interval of each.  Two candidates
without a common node that do not cross are in the same order in both versions.
-/

namespace FloWeaver.Align

open Py Ir

/-- The nodes are known, and their positions are those from `lo` to `hi`. -/
structure Contiguous (program : IRProgram) (nodeIds : List String) (lo hi : ℕ) : Prop where
  known : ∀ n ∈ nodeIds, n ∈ program.nodes.keys
  ordered : ∀ n ∈ nodeIds, n ∈ program.order
  le : lo ≤ hi
  positions : ∀ k, (∃ n ∈ nodeIds, program.order.idxOf n = k) ↔ lo ≤ k ∧ k ≤ hi

variable {program : IRProgram} {nodeIds : List String} {lo hi : ℕ}

theorem foldl_min_eq {x : ℕ} {xs : List ℕ} {m : ℕ} (hmem : m ∈ x :: xs)
    (hle : ∀ y ∈ x :: xs, m ≤ y) : xs.foldl min x = m := by
  have h : (x :: xs).min? = some m := List.min?_eq_some_iff.2 ⟨hmem, hle⟩
  rw [List.min?_cons'] at h
  exact Option.some.inj h

theorem foldl_max_eq {x : ℕ} {xs : List ℕ} {m : ℕ} (hmem : m ∈ x :: xs)
    (hle : ∀ y ∈ x :: xs, y ≤ m) : xs.foldl max x = m := by
  have h : (x :: xs).max? = some m := List.max?_eq_some_iff.2 ⟨hmem, hle⟩
  rw [List.max?_cons'] at h
  exact Option.some.inj h

/-- The positions of nodes that the order lists. -/
theorem mapM_index (h : ∀ n ∈ nodeIds, n ∈ program.order) :
    nodeIds.mapM program.index = .ok (nodeIds.map fun n => program.order.idxOf n) := by
  induction nodeIds with
  | nil => rfl
  | cons n ns ih =>
    rw [List.mapM_cons, ih fun m hm => h m (List.mem_cons_of_mem _ hm), IRProgram.index,
      if_pos (h n List.mem_cons_self)]
    rfl

/-- The span of consecutive nodes is their interval. -/
theorem Contiguous.span (h : Contiguous program nodeIds lo hi) :
    span program nodeIds = .ok (some (lo, hi)) := by
  have hfilter : (nodeIds.filter fun n => program.nodes.keys.contains n) = nodeIds :=
    List.filter_eq_self.2 fun n hn => List.contains_iff_mem.2 (h.known n hn)
  have hmem : ∀ k, k ∈ nodeIds.map (fun n => program.order.idxOf n) ↔ lo ≤ k ∧ k ≤ hi :=
    fun k => List.mem_map.trans (h.positions k)
  rw [Align.span, hfilter, mapM_index h.ordered]
  cases hpositions : nodeIds.map fun n => program.order.idxOf n with
  | nil =>
    have hlo := (hmem lo).2 ⟨le_rfl, h.le⟩
    rw [hpositions] at hlo
    cases hlo
  | cons x xs =>
    rw [hpositions] at hmem
    have hmin : xs.foldl min x = lo :=
      foldl_min_eq ((hmem lo).2 ⟨le_rfl, h.le⟩) fun y hy => ((hmem y).1 hy).1
    have hmax : xs.foldl max x = hi :=
      foldl_max_eq ((hmem hi).2 ⟨h.le, le_rfl⟩) fun y hy => ((hmem y).1 hy).2
    show Except.ok (some (xs.foldl min x, xs.foldl max x)) = _
    rw [hmin, hmax]

/-- Of two intervals without a common node one comes first. -/
theorem Contiguous.lt_or_lt {otherIds : List String} {lo' hi' : ℕ}
    (h : Contiguous program nodeIds lo hi) (h' : Contiguous program otherIds lo' hi')
    (hdisjoint : List.Disjoint nodeIds otherIds) : hi < lo' ∨ hi' < lo := by
  by_contra hnot
  rw [not_or, not_lt, not_lt] at hnot
  have hle := h.le
  have hle' := h'.le
  -- the greater of the two starts lies in both intervals
  obtain ⟨n, hn, hpos⟩ := (h.positions (max lo lo')).2 ⟨le_max_left _ _, max_le hle hnot.1⟩
  obtain ⟨m, hm, hpos'⟩ := (h'.positions (max lo lo')).2 ⟨le_max_right _ _, max_le hnot.2 hle'⟩
  have hsame : n = m := (List.idxOf_inj (h.ordered n hn)).1 (hpos.trans hpos'.symm)
  exact hdisjoint hn (hsame ▸ hm)

/-- Two candidates are in the same order in both versions. -/
def SameOrder (left right leftO rightO : ℕ × ℕ) : Prop :=
  (left.2 < right.1 ∧ leftO.2 < rightO.1) ∨ (right.2 < left.1 ∧ rightO.2 < leftO.1)

/-- Candidates without a common node that do not cross are in the same order. -/
theorem sameOrder_of_not_crosses {baselineIr optimizedIr : IRProgram} {left right : Candidate}
    {lb rb lo ro : ℕ × ℕ} (hlb : Contiguous baselineIr left.baselineIds lb.1 lb.2)
    (hrb : Contiguous baselineIr right.baselineIds rb.1 rb.2)
    (hlo : Contiguous optimizedIr left.optimizedIds lo.1 lo.2)
    (hro : Contiguous optimizedIr right.optimizedIds ro.1 ro.2)
    (hbaseline : List.Disjoint left.baselineIds right.baselineIds)
    (hoptimized : List.Disjoint left.optimizedIds right.optimizedIds)
    (hcross : crosses baselineIr optimizedIr left right = .ok false) :
    SameOrder lb rb lo ro := by
  have hspans : spans baselineIr optimizedIr left right = .ok (some (lb, rb, lo, ro)) := by
    rw [spans, hlb.span, hrb.span, hlo.span, hro.span]
    rfl
  rw [crosses, hspans] at hcross
  have hcross : ((rb.2 < lb.1 && lo.1 < ro.1) || (lb.2 < rb.1 && ro.2 < lo.2)) = false :=
    Except.ok.inj hcross
  simp only [Bool.or_eq_false_iff, Bool.and_eq_false_iff, decide_eq_false_iff_not] at hcross
  have hle := hlo.le
  have hle' := hro.le
  rcases hlb.lt_or_lt hrb hbaseline with hb | hb
  · rcases hlo.lt_or_lt hro hoptimized with ho | ho
    · exact .inl ⟨hb, ho⟩
    · omega
  · rcases hlo.lt_or_lt hro hoptimized with ho | ho
    · omega
    · exact .inr ⟨hb, ho⟩

theorem SameOrder.symm {left right leftO rightO : ℕ × ℕ} (h : SameOrder left right leftO rightO) :
    SameOrder right left rightO leftO := Or.symm h

end FloWeaver.Align

namespace FloWeaver.Align

open Py Ir

variable {baselineIr optimizedIr : IRProgram} {schema : CounterexampleObservationSchema}
variable {model : ResourceModel} {candidatePairs : List CandidatePair}
variable {candidateBlocks : List CandidateBlock} {graph : AlignmentGraph}
variable {config : AlignmentConfig}

/-! ## The edges of the graph -/

theorem mem_edgesOf {kind : CandidateRelation} {edges : List (String × String × CandidateRelation)}
    {k l : String} (h : (k, l, kind) ∈ edges) :
    (k, l) ∈ edgesOf kind edges ∧ (l, k) ∈ edgesOf kind edges := by
  have hedge : (k, l, kind) ∈ edges.filter (·.2.2 = kind) := by simp [h]
  constructor
  · exact List.mem_flatMap.2 ⟨_, hedge, List.mem_cons_self⟩
  · exact List.mem_flatMap.2 ⟨_, hedge, List.mem_cons_of_mem _ List.mem_cons_self⟩

/-- What the graph knows about some candidates. -/
structure IsGraphOf (baselineIr optimizedIr : IRProgram) (schema : CounterexampleObservationSchema)
    (model : ResourceModel) (candidatePairs : List CandidatePair)
    (candidateBlocks : List CandidateBlock) (graph : AlignmentGraph) : Prop where
  ofBaseline : graph.baselineIr = baselineIr
  ofOptimized : graph.optimizedIr = optimizedIr
  ofPairs : graph.candidatePairs = candidatePairs
  ofBlocks : graph.candidateBlocks = candidateBlocks
  alone : ∀ row ∈ (candidatesById (allCandidates candidatePairs candidateBlocks)).rows,
    ∃ test, selfIncompatible baselineIr optimizedIr schema model row.2 = .ok test ∧
      (test = true → (row.1, row.1) ∈ graph.incompatibilityEdges)
  apart : ∀ left ∈ (candidatesById (allCandidates candidatePairs candidateBlocks)).rows,
    ∀ right ∈ (candidatesById (allCandidates candidatePairs candidateBlocks)).rows,
      left.1 < right.1 → ∃ relation,
        relateCandidates baselineIr optimizedIr left.2 right.2 = .ok relation ∧
        (relation = .incompatible → (left.1, right.1) ∈ graph.incompatibilityEdges ∧
          (right.1, left.1) ∈ graph.incompatibilityEdges)

theorem buildAlignmentGraph_spec (h : buildAlignmentGraph baselineIr optimizedIr schema model
    candidatePairs candidateBlocks = .ok graph) :
    IsGraphOf baselineIr optimizedIr schema model candidatePairs candidateBlocks graph := by
  obtain ⟨edges, hedges, h⟩ := bind_eq_ok.1 h
  obtain rfl := pure_eq_ok.1 h
  -- the edges that one candidate adds
  have hrow : ∀ left ∈ (candidatesById (allCandidates candidatePairs candidateBlocks)).rows,
      ∃ itself others, selfIncompatible baselineIr optimizedIr schema model left.2 = .ok itself ∧
        (((candidatesById (allCandidates candidatePairs candidateBlocks)).rows.filter
          fun right => left.1 < right.1).mapM fun right => do
            return (left.1, right.1, ← relateCandidates baselineIr optimizedIr left.2 right.2)) =
          .ok others ∧
        (if itself then [(left.1, left.1, .incompatible)] else []) ++ others ⊆ edges.flatten := by
    intro left hleft
    obtain ⟨row, hrow, hadded⟩ := mem_mapM_of_ok hedges hleft
    obtain ⟨itself, hitself, hadded⟩ := bind_eq_ok.1 hadded
    obtain ⟨others, hothers, hadded⟩ := bind_eq_ok.1 hadded
    obtain rfl := pure_eq_ok.1 hadded
    exact ⟨itself, others, hitself, hothers, fun edge hedge =>
      List.mem_flatten.2 ⟨_, hrow, hedge⟩⟩
  refine ⟨rfl, rfl, rfl, rfl, fun left hleft => ?_, fun left hleft right hright hlt => ?_⟩
  · obtain ⟨itself, others, hitself, -, hsub⟩ := hrow left hleft
    refine ⟨itself, hitself, fun htest => ?_⟩
    rw [if_pos htest] at hsub
    exact (mem_edgesOf (hsub (List.mem_append_left _ List.mem_cons_self))).1
  · obtain ⟨itself, others, -, hothers, hsub⟩ := hrow left hleft
    obtain ⟨edge, hedge, hrelate⟩ := mem_mapM_of_ok hothers
      (List.mem_filter.2 ⟨hright, decide_eq_true hlt⟩)
    obtain ⟨relation, hrelation, hrelate⟩ := bind_eq_ok.1 hrelate
    obtain rfl := pure_eq_ok.1 hrelate
    refine ⟨relation, hrelation, fun hincompatible => ?_⟩
    rw [hincompatible] at hedge
    exact mem_edgesOf (hsub (List.mem_append_right _ hedge))

/-! ## Candidates and their ids -/

/-- Two candidates with one id are the same candidate. -/
def IdsTellApart (candidates : List Candidate) : Prop :=
  ∀ c ∈ candidates, ∀ d ∈ candidates, candidateId c = candidateId d → c = d

theorem idsTellApart_of_nodup {candidates : List Candidate}
    (h : (candidates.map candidateId).Nodup) : IdsTellApart candidates :=
  fun _ hc _ hd hid => List.inj_on_of_nodup_map h hc hd hid

/-- The graph then has every candidate under its id. -/
theorem mem_rows_of_idsTellApart {candidates : List Candidate} (h : IdsTellApart candidates)
    {c : Candidate} (hc : c ∈ candidates) :
    (candidateId c, c) ∈ (candidatesById candidates).rows := by
  have hkey : candidateId c ∈ (candidatesById candidates).keys :=
    OrderedDict.mem_keys_ofList.2
      (List.mem_map.2 ⟨(candidateId c, c), List.mem_map_of_mem hc, rfl⟩)
  obtain ⟨d, hd⟩ := Option.isSome_iff_exists.1 (OrderedDict.get?_isSome_iff.2 hkey)
  obtain ⟨e, he, heq⟩ := List.mem_map.1 (OrderedDict.mem_of_get?_ofList hd)
  obtain ⟨hid, rfl⟩ := Prod.mk.inj heq
  obtain rfl : e = c := h e he c hc hid
  exact OrderedDict.mem_rows_of_get? hd

/-- Candidates that the graph does not exclude do not cross. -/
theorem not_crosses_of_relate {left right : Candidate} {relation : CandidateRelation}
    (h : relateCandidates baselineIr optimizedIr left right = .ok relation)
    (hne : relation ≠ .incompatible) :
    crosses baselineIr optimizedIr left right = .ok false := by
  rw [relateCandidates] at h
  split_ifs at h
  · exact absurd (pure_eq_ok.1 h).symm hne
  · exact absurd (pure_eq_ok.1 h).symm hne
  · obtain ⟨crossing, hcrossing, h⟩ := bind_eq_ok.1 h
    cases crossing with
    | false => exact hcrossing
    | true => exact absurd (pure_eq_ok.1 h).symm hne

/-! ## Alignments -/

/-- Consecutive candidates are in the same order in both versions. -/
def Uncrossed (baselineIr optimizedIr : IRProgram) (left right : Candidate) : Prop :=
  ∀ lb rb lo ro : ℕ × ℕ, Contiguous baselineIr left.baselineIds lb.1 lb.2 →
    Contiguous baselineIr right.baselineIds rb.1 rb.2 →
    Contiguous optimizedIr left.optimizedIds lo.1 lo.2 →
    Contiguous optimizedIr right.optimizedIds ro.1 ro.2 → SameOrder lb rb lo ro

theorem Uncrossed.symm {left right : Candidate} (h : Uncrossed baselineIr optimizedIr left right) :
    Uncrossed baselineIr optimizedIr right left :=
  fun rb lb ro lo hrb hlb hro hlo => (h lb rb lo ro hlb hrb hlo hro).symm

/-- The pairs and blocks of an alignment are selected candidates.  They share no node; none is
excluded and no two cross; what they leave is unmatched. -/
structure IsSound (baselineIr optimizedIr : IRProgram) (schema : CounterexampleObservationSchema)
    (model : ResourceModel) (candidates : List Candidate) (alignment : ProvisionalAlignment)
    (selected : List Candidate) : Prop where
  mem : ∀ c ∈ selected, c ∈ candidates
  pairs : alignment.alignedPairs = pairsOf selected
  blocks : alignment.alignedBlocks = blocksOf selected
  baseline_apart : selected.Pairwise fun c d => List.Disjoint c.baselineIds d.baselineIds
  optimized_apart : selected.Pairwise fun c d => List.Disjoint c.optimizedIds d.optimizedIds
  baseline_once : (∀ c ∈ candidates, c.baselineIds.Nodup) →
    (selected.flatMap Candidate.baselineIds).Nodup
  optimized_once : (∀ c ∈ candidates, c.optimizedIds.Nodup) →
    (selected.flatMap Candidate.optimizedIds).Nodup
  alone : ∀ c ∈ selected, selfIncompatible baselineIr optimizedIr schema model c = .ok false
  uncrossed : selected.Pairwise (Uncrossed baselineIr optimizedIr)
  unmatchedBaseline : alignment.unmatchedBaselineNodes =
    baselineIr.order.filter fun n => !(selected.flatMap Candidate.baselineIds).contains n
  unmatchedOptimized : alignment.unmatchedOptimizedNodes =
    optimizedIr.order.filter fun n => !(selected.flatMap Candidate.optimizedIds).contains n

/-- Selected candidates whose ids tell them apart do not cross. -/
theorem uncrossed_of_apart {c d : Candidate}
    (hgraph : IsGraphOf baselineIr optimizedIr schema model candidatePairs candidateBlocks graph)
    (hids : IdsTellApart (allCandidates candidatePairs candidateBlocks))
    (hc : c ∈ allCandidates candidatePairs candidateBlocks)
    (hd : d ∈ allCandidates candidatePairs candidateBlocks) (h : Apart graph c d) :
    Uncrossed baselineIr optimizedIr c d := by
  intro lb rb lo ro hlb hrb hlo hro
  have hrowC := mem_rows_of_idsTellApart hids hc
  have hrowD := mem_rows_of_idsTellApart hids hd
  rcases lt_trichotomy (candidateId c) (candidateId d) with hlt | heq | hlt
  · obtain ⟨relation, hrelation, hedge⟩ := hgraph.apart _ hrowC _ hrowD hlt
    exact sameOrder_of_not_crosses hlb hrb hlo hro h.baseline h.optimized
      (not_crosses_of_relate hrelation fun hrel => h.edge (hedge hrel).2)
  · -- one candidate shares its nodes with itself
    obtain rfl := hids c hc d hd heq
    obtain ⟨n, hn, -⟩ := (hlb.positions lb.1).2 ⟨le_rfl, hlb.le⟩
    exact absurd hn (h.baseline hn)
  · obtain ⟨relation, hrelation, hedge⟩ := hgraph.apart _ hrowD _ hrowC hlt
    exact (sameOrder_of_not_crosses hrb hlb hro hlo h.baseline.symm h.optimized.symm
      (not_crosses_of_relate hrelation fun hrel => h.edge (hedge hrel).1)).symm

theorem filter_unmatched {order used : List String} {selected : List String}
    (h : ∀ n, n ∈ used ↔ n ∈ selected) :
    (order.filter fun n => !used.contains n) = order.filter fun n => !selected.contains n := by
  refine List.filter_congr fun n _ => ?_
  rw [Bool.eq_iff_iff, Bool.not_eq_true', Bool.not_eq_true', ← Bool.not_eq_true, ← Bool.not_eq_true,
    List.contains_iff_mem, List.contains_iff_mem, h]

/-- The alignment that the search returns is sound, when the ids tell the candidates apart. -/
theorem searchAlignment_sound {alignment : ProvisionalAlignment}
    (hgraph : buildAlignmentGraph baselineIr optimizedIr schema model candidatePairs
      candidateBlocks = .ok graph)
    (hsearch : searchAlignment graph config = .ok alignment)
    (hids : IdsTellApart (allCandidates candidatePairs candidateBlocks)) :
    ∃ selected, IsSound baselineIr optimizedIr schema model
      (allCandidates candidatePairs candidateBlocks) alignment selected := by
  have hgraph := buildAlignmentGraph_spec hgraph
  obtain ⟨best, hbest, hsearch⟩ := bind_eq_ok.1 hsearch
  obtain ⟨coverage, -, hsearch⟩ := bind_eq_ok.1 hsearch
  obtain rfl := pure_eq_ok.1 hsearch
  obtain ⟨selected, h⟩ := bestState_selects hbest
  have hmem : ∀ c ∈ selected, c ∈ allCandidates candidatePairs candidateBlocks := by
    rw [← hgraph.ofPairs, ← hgraph.ofBlocks]
    exact h.mem
  have hbaseline := h.apart.imp fun hcd => hcd.baseline
  have hoptimized := h.apart.imp fun hcd => hcd.optimized
  refine ⟨selected, hmem, h.pairs, h.blocks, hbaseline, hoptimized,
    fun honce => List.nodup_flatMap.2 ⟨fun c hc => honce c (hmem c hc), hbaseline⟩,
    fun honce => List.nodup_flatMap.2 ⟨fun c hc => honce c (hmem c hc), hoptimized⟩,
    fun c hc => ?_, ?_, ?_, ?_⟩
  · obtain ⟨test, htest, hedge⟩ := hgraph.alone _ (mem_rows_of_idsTellApart hids (hmem c hc))
    cases test with
    | false => exact htest
    | true => exact absurd (hedge rfl) (h.alone c hc)
  · exact h.apart.imp_of_mem fun hc hd hcd =>
      uncrossed_of_apart hgraph hids (hmem _ hc) (hmem _ hd) hcd
  · rw [← hgraph.ofBaseline]
    exact filter_unmatched h.baseline
  · rw [← hgraph.ofOptimized]
    exact filter_unmatched h.optimized

/-- A program of nodes that are not observed. -/
def plainProgram (nodeIds : List String) : IRProgram where
  programId := "plain"
  nodes := .ofList (nodeIds.map fun nodeId => (nodeId,
    { nodeId := nodeId
      summary := { provider := "HA", op := "COORD_REFRESH", target := nodeId, phase := "RUNTIME" } }))
  entryNode := nodeIds.head?
  exitNode := nodeIds.getLast?
  order := nodeIds

/-- A pair of nodes that fit. -/
def plainPair (baselineNodeId optimizedNodeId : String) : CandidatePair where
  baselineNodeId := baselineNodeId
  optimizedNodeId := optimizedNodeId
  relation := "EXACT"
  score := 1
  confidence := 1

theorem searchAlignment_sound_swap : ∃ alignment selected, IsSound (plainProgram ["a", "b"])
    (plainProgram ["c", "d"]) {} {} (allCandidates [plainPair "a" "d", plainPair "b" "c"] [])
    alignment selected := by
  have hrun : (do
      let graph ← buildAlignmentGraph (plainProgram ["a", "b"]) (plainProgram ["c", "d"]) {} {}
        [plainPair "a" "d", plainPair "b" "c"] []
      searchAlignment graph {}).toOption.isSome = true := by decide +kernel
  cases hgraph : buildAlignmentGraph (plainProgram ["a", "b"]) (plainProgram ["c", "d"]) {} {}
      [plainPair "a" "d", plainPair "b" "c"] [] with
  | error e => simp [hgraph, Except.toOption, bind, Except.bind] at hrun
  | ok graph =>
    cases hsearch : searchAlignment graph {} with
    | error e => simp [hgraph, hsearch, Except.toOption, bind, Except.bind] at hrun
    | ok alignment =>
      exact ⟨alignment, searchAlignment_sound hgraph hsearch
        (idsTellApart_of_nodup (by decide +kernel))⟩

/-- The nodes of an aligned pair. -/
def pairNodes (p : AlignedPair) : String × String := (p.baselineNodeId, p.optimizedNodeId)

/-- Two pairs that cross, both under the id `pair:x->y->z:EXACT`, are both selected. -/
theorem sharedId_selects_crossing : ¬ ∀ (baselineIr optimizedIr : IRProgram)
    (schema : CounterexampleObservationSchema) (model : ResourceModel)
    (candidatePairs : List CandidatePair) (candidateBlocks : List CandidateBlock)
    (graph : AlignmentGraph) (config : AlignmentConfig) (alignment : ProvisionalAlignment),
    buildAlignmentGraph baselineIr optimizedIr schema model candidatePairs candidateBlocks =
      .ok graph →
    searchAlignment graph config = .ok alignment →
    ∀ p ∈ alignment.alignedPairs, ∀ q ∈ alignment.alignedPairs,
      baselineIr.order.idxOf p.baselineNodeId < baselineIr.order.idxOf q.baselineNodeId →
      optimizedIr.order.idxOf p.optimizedNodeId < optimizedIr.order.idxOf q.optimizedNodeId := by
  intro h
  have hrun : (do
      let graph ← buildAlignmentGraph (plainProgram ["x", "x->y"]) (plainProgram ["z", "y->z"])
        {} {} [plainPair "x->y" "z", plainPair "x" "y->z"] []
      searchAlignment graph {}).toOption.map (fun alignment : ProvisionalAlignment =>
        alignment.alignedPairs.map pairNodes) =
      some [("x->y", "z"), ("x", "y->z")] := by decide +kernel
  cases hgraph : buildAlignmentGraph (plainProgram ["x", "x->y"]) (plainProgram ["z", "y->z"])
      {} {} [plainPair "x->y" "z", plainPair "x" "y->z"] [] with
  | error e => simp [hgraph, Except.toOption, bind, Except.bind] at hrun
  | ok graph =>
    cases hsearch : searchAlignment graph {} with
    | error e => simp [hgraph, hsearch, Except.toOption, bind, Except.bind] at hrun
    | ok alignment =>
      have hpairs : alignment.alignedPairs.map pairNodes =
          [("x->y", "z"), ("x", "y->z")] := by
        simpa [hgraph, hsearch, Except.toOption, bind, Except.bind] using hrun
      have hmem : ∀ row ∈ [("x->y", "z"), ("x", "y->z")], ∃ p ∈ alignment.alignedPairs,
          pairNodes p = row := by
        rw [← hpairs]
        exact fun row hrow => List.mem_map.1 hrow
      obtain ⟨q, hq, hqrow⟩ := hmem ("x->y", "z") (by simp)
      obtain ⟨p, hp, hprow⟩ := hmem ("x", "y->z") (by simp)
      obtain ⟨hqb, hqo⟩ := Prod.mk.inj hqrow
      obtain ⟨hpb, hpo⟩ := Prod.mk.inj hprow
      have hcross := h _ _ _ _ _ _ graph {} alignment hgraph hsearch p hp q hq
      rw [hpb, hpo, hqb, hqo] at hcross
      exact absurd (hcross (by decide)) (by decide)

end FloWeaver.Align
