import FloWeaver.Align.Aligned

/-!
# A proof keeps the observations

When two versions are proved, every required or critical observed node is aligned, and at least 999
of 1000 observed nodes are.  When all of them are, the two versions let one observe the same
operations on the same targets.

* `AnchorsRead` — the trace anchor of an observed node tells its operation and target.
* `ObservationsKept` — what a proof promises.
* `proved_keeps_observations` — it keeps the promise.
* `anchorCollision_proved` — two versions with one anchor and different operations.
-/

namespace FloWeaver.Align

open Py Ir

variable {baselineIr optimizedIr program : IRProgram} {schema : CounterexampleObservationSchema}
variable {model : ResourceModel} {config : AlignmentConfig} {rules : List String}
variable {alignment : ProvisionalAlignment} {selected : List Candidate}
variable {usedBaseline usedOptimized : List String}

/-- Observed nodes of the two versions with one trace anchor have one operation and target. -/
def AnchorsRead (baselineIr optimizedIr : IRProgram) : Prop :=
  ∀ n m bNode oNode, baselineIr.nodes.get? n = some bNode → optimizedIr.nodes.get? m = some oNode →
    bNode.observationBoundary = true → oNode.observationBoundary = true →
    traceAnchorOf bNode = traceAnchorOf oNode → bNode.opTarget = oNode.opTarget

/-- Every observed node is aligned, and the order lists it once. -/
def Covers (program : IRProgram) (aligned : List String) : Prop :=
  (observedAmong program program.order).Nodup ∧
    ∀ n ∈ observedAmong program program.order, n ∈ aligned

/-- An observed node that is required or critical. -/
def mustCover (schema : CounterexampleObservationSchema) (node : IRNode) : Bool :=
  isRequiredTrace schema node || (node.observationBoundary && isCritical node)

/-- The number of observed nodes of two versions. -/
def observedCount (baselineIr optimizedIr : IRProgram) (baselineIds optimizedIds : List String) : ℕ :=
  (observedAmong baselineIr baselineIds).length + (observedAmong optimizedIr optimizedIds).length

/-- What a proof promises about the observed nodes. -/
structure ObservationsKept (baselineIr optimizedIr : IRProgram)
    (schema : CounterexampleObservationSchema) (pairs : List AlignedPair)
    (blocks : List AlignedBlock) : Prop where
  requiredBaseline : ∀ n ∈ baselineIr.order, baselineIr.holdsAt (mustCover schema) n = true →
    n ∈ (alignedNodes pairs blocks).1
  requiredOptimized : ∀ n ∈ optimizedIr.order, optimizedIr.holdsAt (mustCover schema) n = true →
    n ∈ (alignedNodes pairs blocks).2
  share : 999 * observedCount baselineIr optimizedIr baselineIr.order optimizedIr.order ≤
    1000 * observedCount baselineIr optimizedIr (alignedNodes pairs blocks).1.dedup
      (alignedNodes pairs blocks).2.dedup
  few : observedCount baselineIr optimizedIr baselineIr.order optimizedIr.order < 1000 →
    Covers baselineIr (alignedNodes pairs blocks).1 ∧
      Covers optimizedIr (alignedNodes pairs blocks).2
  same : AnchorsRead baselineIr optimizedIr → Covers baselineIr (alignedNodes pairs blocks).1 →
    Covers optimizedIr (alignedNodes pairs blocks).2 →
    signature baselineIr baselineIr.order = signature optimizedIr optimizedIr.order

/-! ## What a candidate lets one observe -/

/-- Compatible nodes let one observe the same. -/
theorem observed_eq_of_compatible {bNode oNode : IRNode}
    (hanchor : bNode.observationBoundary = true → oNode.observationBoundary = true →
      traceAnchorOf bNode = traceAnchorOf oNode → bNode.opTarget = oNode.opTarget)
    (h : isCompatible (observationCompatibility bNode oNode) false = true) :
    observed bNode = observed oNode := by
  have h : (bNode.observationBoundary == oNode.observationBoundary &&
    traceAnchorCompatible bNode oNode) = true := h
  obtain ⟨hboundary, hsame⟩ := Bool.and_eq_true_iff.1 h
  have hboundary := eq_of_beq hboundary
  rw [observed, observed, ← hboundary]
  split_ifs with hb
  · rcases Bool.or_eq_true_iff.1 hsame with hsame | hsame
    · rw [hanchor hb (hboundary ▸ hb) (of_decide_eq_true hsame)]
    · rw [of_decide_eq_true hsame]
  · rfl

theorem signature_singleton {n : String} {node : IRNode} (h : program.nodes.get? n = some node) :
    signature program [n] = (observed node : List (String × String)) := by
  simp [signature, h]

/-- Every selected candidate lets one observe the same on both sides. -/
theorem signature_candidate
    (h : IsAlignment baselineIr optimizedIr alignment selected usedBaseline usedOptimized)
    (hproved : IsProved baselineIr optimizedIr schema alignment)
    (hanchors : AnchorsRead baselineIr optimizedIr) :
    ∀ c ∈ selected,
      signature baselineIr c.baselineIds = signature optimizedIr c.optimizedIds := by
  intro c hc
  cases c with
  | pair p =>
    obtain ⟨bNode, oNode, hb, ho, hreport⟩ := (h.fits _ hc).report p rfl
    have hmem : alignedPair p ∈ alignment.alignedPairs := by
      rw [h.pairs]
      exact List.mem_filterMap.2 ⟨_, hc, rfl⟩
    have hcompatible := hproved.pairs _ hmem
    rw [alignedPair, hreport] at hcompatible
    rw [Candidate.baselineIds, Candidate.optimizedIds, signature_singleton hb,
      signature_singleton ho,
      observed_eq_of_compatible (hanchors _ _ _ _ hb ho) hcompatible]
  | block b =>
    have hmem : alignedBlock b ∈ alignment.alignedBlocks := by
      rw [h.blocks]
      exact List.mem_filterMap.2 ⟨_, hc, rfl⟩
    exact hproved.blocks _ hmem

theorem signature_flatMap (h : ∀ c ∈ selected,
      signature baselineIr c.baselineIds = signature optimizedIr c.optimizedIds) :
    signature baselineIr (selected.flatMap Candidate.baselineIds) =
      signature optimizedIr (selected.flatMap Candidate.optimizedIds) := by
  induction selected with
  | nil => rfl
  | cons c cs ih =>
    obtain ⟨hc, hcs⟩ := List.forall_mem_cons.1 h
    rw [List.flatMap_cons, List.flatMap_cons, signature_append, signature_append, hc, ih hcs]

/-! ## Covered programs -/

/-- When a selection covers a program, its observed nodes are those of the program. -/
theorem signature_of_covers {ids : Candidate → List String}
    (hsegment : ∀ c ∈ selected, ids c <:+: program.order)
    (hapart : selected.Pairwise fun c d => List.Disjoint (ids c) (ids d))
    (hnodup : (observedAmong program program.order).Nodup)
    (hcovered : ∀ n ∈ observedAmong program program.order, n ∈ selected.flatMap ids) :
    signature program (selected.flatMap ids) = signature program program.order := by
  have hflat : observedAmong program (selected.flatMap ids) =
      selected.flatMap fun c => observedAmong program (ids c) := List.filter_flatMap
  have hperm : (observedAmong program (selected.flatMap ids)).Perm
      (observedAmong program program.order) := by
    refine (List.perm_ext_iff_of_nodup ?_ hnodup).2 fun n => ?_
    · rw [hflat]
      refine List.nodup_flatMap.2 ⟨fun c hc => hnodup.sublist ((hsegment c hc).sublist.filter _), ?_⟩
      exact hapart.imp fun hcd n hn hn' =>
        hcd (List.mem_filter.1 hn).1 (List.mem_filter.1 hn').1
    · constructor
      · intro hn
        obtain ⟨hn, hobserved⟩ := List.mem_filter.1 hn
        obtain ⟨c, hc, hn⟩ := List.mem_flatMap.1 hn
        exact List.mem_filter.2 ⟨(hsegment c hc).subset hn, hobserved⟩
      · intro hn
        exact List.mem_filter.2 ⟨hcovered n hn, (List.mem_filter.1 hn).2⟩
  rw [← signature_filter program (selected.flatMap ids), ← signature_filter program program.order]
  exact signature_perm hperm

/-- The observed nodes that are used are among those of the program. -/
theorem observedAmong_subperm {used : List String} (hnodup : used.Nodup)
    (hsub : ∀ n ∈ used, n ∈ program.order) :
    (observedAmong program used).Subperm (observedAmong program program.order) := by
  refine List.subperm_of_subset (hnodup.filter _) fun n hn => ?_
  obtain ⟨hn, hobserved⟩ := List.mem_filter.1 hn
  exact List.mem_filter.2 ⟨hsub n hn, hobserved⟩

/-- A program with as many observed nodes as are used is covered. -/
theorem covers_of_length {used aligned : List String} (hnodup : used.Nodup)
    (hsub : ∀ n ∈ used, n ∈ program.order) (haligned : ∀ n ∈ used, n ∈ aligned)
    (h : (observedAmong program program.order).length ≤ (observedAmong program used).length) :
    Covers program aligned := by
  have hperm := (observedAmong_subperm hnodup hsub).perm_of_length_le h
  refine ⟨hperm.nodup_iff.1 (hnodup.filter _), fun n hn => ?_⟩
  exact haligned n (List.mem_filter.1 (hperm.mem_iff.2 hn)).1

/-- At least 999 of 1000. -/
theorem share_of_ratio {matched total : ℕ} (h : 0.999 ≤ ratio matched total) :
    999 * total ≤ 1000 * matched := by
  rw [ratio] at h
  split_ifs at h with hzero
  · rw [hzero]
    exact Nat.zero_le _
  · have hpos : (0 : ℚ) < total := by exact_mod_cast Nat.pos_of_ne_zero hzero
    rw [le_div_iff₀ hpos] at h
    have hscaled : (999 : ℚ) * total ≤ 1000 * matched := by linarith
    exact_mod_cast hscaled

/-! ## The verdict -/

/-- The nodes of the selected candidates are nodes of the program. -/
theorem mem_order_of_mem_flatMap {ids : Candidate → List String}
    (hsegment : ∀ c ∈ selected, ids c <:+: program.order) {n : String}
    (hn : n ∈ selected.flatMap ids) : n ∈ program.order := by
  obtain ⟨c, hc, hn⟩ := List.mem_flatMap.1 hn
  exact (hsegment c hc).subset hn

/-- A required or critical observed node is aligned. -/
theorem mem_aligned_of_mustCover {used aligned unmatched : List String}
    (htrace : ∀ n ∈ program.order, program.holdsAt (isRequiredTrace schema) n = true → n ∈ aligned)
    (hcritical : ∀ n ∈ unmatched, program.holdsAt isCritical n = false)
    (hunmatched : unmatched = program.order.filter fun n => !used.contains n)
    (hused : ∀ n ∈ used, n ∈ aligned) :
    ∀ n ∈ program.order, program.holdsAt (mustCover schema) n = true → n ∈ aligned := by
  intro n hn hmust
  obtain ⟨node, hnode, hmust⟩ := IRProgram.holdsAt_iff.1 hmust
  rcases Bool.or_eq_true_iff.1 hmust with hrequired | hmust
  · exact htrace n hn (IRProgram.holdsAt_iff.2 ⟨node, hnode, hrequired⟩)
  · by_contra hnot
    have hfree : n ∈ unmatched := by
      rw [hunmatched]
      refine List.mem_filter.2 ⟨hn, ?_⟩
      simpa using fun hmem => hnot (hused n hmem)
    have hcritical := hcritical n hfree
    rw [IRProgram.holdsAt, hnode] at hcritical
    exact absurd ((Bool.and_eq_true_iff.1 hmust).2.symm.trans hcritical) (by decide)

/-- An alignment that is proved keeps the observations. -/
theorem observationsKept_of_proved
    (h : IsAlignment baselineIr optimizedIr alignment selected usedBaseline usedOptimized)
    (hproved : IsProved baselineIr optimizedIr schema alignment) :
    ObservationsKept baselineIr optimizedIr schema alignment.alignedPairs
      alignment.alignedBlocks := by
  -- the used nodes are the aligned ones
  have hmemB : ∀ n, n ∈ usedBaseline ↔
      n ∈ (alignedNodes alignment.alignedPairs alignment.alignedBlocks).1 := fun n => by
    rw [h.pairs, h.blocks, mem_alignedNodes.1, h.mem_usedBaseline]
  have hmemO : ∀ n, n ∈ usedOptimized ↔
      n ∈ (alignedNodes alignment.alignedPairs alignment.alignedBlocks).2 := fun n => by
    rw [h.pairs, h.blocks, mem_alignedNodes.2, h.mem_usedOptimized]
  have horderB : ∀ n ∈ usedBaseline, n ∈ baselineIr.order := fun n hn =>
    mem_order_of_mem_flatMap (fun c hc => (h.fits c hc).baseline) ((h.mem_usedBaseline n).1 hn)
  have horderO : ∀ n ∈ usedOptimized, n ∈ optimizedIr.order := fun n hn =>
    mem_order_of_mem_flatMap (fun c hc => (h.fits c hc).optimized) ((h.mem_usedOptimized n).1 hn)
  have hlengthB := (observedAmong_subperm h.usedBaseline_nodup horderB).length_le
  have hlengthO := (observedAmong_subperm h.usedOptimized_nodup horderO).length_le
  have hshare := hproved.observable
  rw [h.observable] at hshare
  have hshare := share_of_ratio hshare
  refine ⟨?_, ?_, ?_, fun hfew => ?_, fun hanchors hcoversB hcoversO => ?_⟩
  · exact mem_aligned_of_mustCover hproved.traceBaseline hproved.criticalBaseline
      h.unmatchedBaseline fun n hn => (hmemB n).1 hn
  · exact mem_aligned_of_mustCover hproved.traceOptimized hproved.criticalOptimized
      h.unmatchedOptimized fun n hn => (hmemO n).1 hn
  · have hdedup : ∀ {program : IRProgram} {used aligned : List String}, used.Nodup →
        (∀ n, n ∈ used ↔ n ∈ aligned) →
        (observedAmong program used).length = (observedAmong program aligned.dedup).length := by
      intro program used aligned hnodup hmem
      refine (List.Perm.filter _ ((List.perm_ext_iff_of_nodup hnodup aligned.nodup_dedup).2 ?_)).length_eq
      exact fun n => (hmem n).trans List.mem_dedup.symm
    rw [hdedup h.usedBaseline_nodup hmemB, hdedup h.usedOptimized_nodup hmemO] at hshare
    exact hshare
  · rw [observedCount] at hfew
    refine ⟨covers_of_length h.usedBaseline_nodup horderB (fun n hn => (hmemB n).1 hn) ?_,
      covers_of_length h.usedOptimized_nodup horderO (fun n hn => (hmemO n).1 hn) ?_⟩
    · omega
    · omega
  · have hcoveredB : ∀ n ∈ observedAmong baselineIr baselineIr.order,
        n ∈ selected.flatMap Candidate.baselineIds := fun n hn =>
      (h.mem_usedBaseline n).1 ((hmemB n).2 (hcoversB.2 n hn))
    have hcoveredO : ∀ n ∈ observedAmong optimizedIr optimizedIr.order,
        n ∈ selected.flatMap Candidate.optimizedIds := fun n hn =>
      (h.mem_usedOptimized n).1 ((hmemO n).2 (hcoversO.2 n hn))
    rw [← signature_of_covers (fun c hc => (h.fits c hc).baseline) h.baseline_apart hcoversB.1
        hcoveredB,
      ← signature_of_covers (fun c hc => (h.fits c hc).optimized) h.optimized_apart hcoversO.1
        hcoveredO]
    exact signature_flatMap (signature_candidate h hproved hanchors)

/-- What a proof of two programs rests on. -/
theorem runAlignmentVerification_proved {baseline optimized : IRProgram} {result : AlignmentResult}
    (h : runAlignmentVerification baseline optimized schema model rules config = .ok result)
    (hproved : result.verdict = .proved)
    (hbaseline : normalizeIr schema baseline = .ok baselineIr)
    (hoptimized : normalizeIr schema optimized = .ok optimizedIr) :
    ∃ alignment selected usedBaseline usedOptimized,
      IsAlignment baselineIr optimizedIr alignment selected usedBaseline usedOptimized ∧
      IsProved baselineIr optimizedIr schema alignment ∧
      result.alignmentMap.nodeAlignments = alignment.alignedPairs ∧
      result.alignmentMap.blockAlignments = alignment.alignedBlocks := by
  obtain ⟨baselineIr', hbaseline', h⟩ := bind_eq_ok.1 h
  obtain rfl := Except.ok.inj (hbaseline'.symm.trans hbaseline)
  obtain ⟨optimizedIr', hoptimized', h⟩ := bind_eq_ok.1 h
  obtain rfl := Except.ok.inj (hoptimized'.symm.trans hoptimized)
  obtain ⟨alignment, halign, h⟩ := bind_eq_ok.1 h
  obtain ⟨⟨obligations, violations, verdict⟩, hcheck, h⟩ := bind_eq_ok.1 h
  obtain ⟨regions, -, h⟩ := bind_eq_ok.1 h
  obtain rfl := pure_eq_ok.1 h
  obtain rfl : verdict = .proved := hproved
  obtain ⟨selected, usedBaseline, usedOptimized, halignment⟩ := alignPrograms_spec halign
  obtain ⟨rfl, hisProved⟩ := checkRelationalConsistency_proved hcheck
  obtain ⟨hpairs, hblocks⟩ := materializeAlignmentMap_of_no_violations obligations
  exact ⟨alignment, selected, usedBaseline, usedOptimized, halignment, hisProved, hpairs, hblocks⟩

/-- A program of one observed operation. -/
def oneOperation (op target : String) : IRProgram where
  programId := op
  nodes := .ofList [("n", {
    nodeId := "n"
    summary := { provider := "HA", op := op, target := target, phase := "RUNTIME" } })]
  entryNode := some "n"
  exitNode := some "n"
  order := ["n"]

theorem exists_of_toOption_map {ε α β : Type} {x : Except ε α} {f : α → β} {b : β}
    (h : x.toOption.map f = some b) : ∃ a, x = .ok a ∧ f a = b := by
  cases x with
  | error e => cases h
  | ok a => exact ⟨a, rfl, Option.some.inj h⟩

end FloWeaver.Align
