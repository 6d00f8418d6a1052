import FloWeaver.Align.Observations
import FloWeaver.Ir.Writes

/-!
# A proof and the final state

A proof aligns every node that writes, and aligned pairs and blocks do not cross.  The check
compares no written values.  When every aligned pair and every aligned block writes the same by
itself, the last writers of the two programs are in one block, and the programs end in the same
state.

* `WritesLocally` — every pair and block writes the same by itself.
* `FinalStateKept` — what a proof promises.
* `proved_keeps_finalState` — it keeps the promise.
* `unequalWrites_proved` — two versions that write different values.
-/

namespace FloWeaver.Align

open Py Ir LastWriter

variable {baselineIr optimizedIr program : IRProgram} {schema : CounterexampleObservationSchema}
variable {model : ResourceModel} {config : AlignmentConfig} {rules : List String}
variable {alignment : ProvisionalAlignment} {selected : List Candidate}
variable {usedBaseline usedOptimized : List String}

/-! ## Normalised programs -/

theorem materializeSuccessors_summary (nodes : OrderedDict String IRNode) (order : List String)
    (n : String) : ((materializeSuccessors nodes order).get? n).map (·.summary) =
      (nodes.get? n).map (·.summary) := by
  rw [materializeSuccessors]
  induction order.zip (order.tail.map (fun nodeId => [nodeId]) ++ [[]]) generalizing nodes with
  | nil => rfl
  | cons row rows ih =>
    rw [List.foldl_cons, ih]
    cases hnode : nodes.get? row.1 with
    | none => rfl
    | some node =>
      show (OrderedDict.get? (nodes.set row.1 _) n).map _ = _
      rw [OrderedDict.get?_set]
      split_ifs with hrow
      · rw [hrow, hnode]
        rfl
      · rfl

/-- What normalisation does to the nodes: trivial wrappers are left out, the updates stay. -/
structure IsNormalOf (keep : String → Bool) (raw normal : IRProgram) : Prop where
  order : normal.order = raw.order.filter keep
  known : ∀ n ∈ raw.order, ∃ node, raw.nodes.get? n = some node
  dropped : ∀ n node, raw.nodes.get? n = some node → keep n = false →
    node.summary.semanticUpdates = []
  kept : ∀ n ∈ normal.order, ∃ rawNode node, raw.nodes.get? n = some rawNode ∧
    normal.nodes.get? n = some node ∧
    node.summary.semanticUpdates = rawNode.summary.semanticUpdates

/-- The nodes that normalisation keeps. -/
def isKept (schema : CounterexampleObservationSchema) (raw : IRProgram) (nodeId : String) : Bool :=
  raw.holdsAt (fun node => !isTrivialWrapper (normalizeNode schema node).summary) nodeId

theorem normalizeIr_spec {raw normal : IRProgram} (h : normalizeIr schema raw = .ok normal) :
    IsNormalOf (isKept schema raw) raw normal := by
  obtain ⟨rows, hrows, h⟩ := bind_eq_ok.1 h
  obtain rfl := pure_eq_ok.1 h
  obtain ⟨all, hall, hrows⟩ := bind_eq_ok.1 hrows
  obtain rfl := pure_eq_ok.1 hrows
  have hrow : ∀ row ∈ all, ∃ node, raw.nodes.get? row.1 = some node ∧
      row.2 = normalizeNode schema node := by
    intro row hrow
    obtain ⟨n, -, hn⟩ := mem_of_mapM_ok hall row hrow
    obtain ⟨node, hnode, hn⟩ := bind_eq_ok.1 hn
    obtain rfl := pure_eq_ok.1 hn
    exact ⟨node, IRProgram.node_eq_ok.1 hnode, rfl⟩
  have hkeys : all.map (·.1) = raw.order := by
    refine map_eq_of_mapM_ok (fun n row hn => ?_) hall
    obtain ⟨node, -, hn⟩ := bind_eq_ok.1 hn
    obtain rfl := pure_eq_ok.1 hn
    rfl
  refine ⟨?_, fun n hn => ?_, fun n node hnode hkeep => ?_, fun n hn => ?_⟩
  · rw [← hkeys, List.filter_map]
    refine congrArg _ (List.filter_congr fun row hmem => ?_)
    obtain ⟨node, hnode, hnormal⟩ := hrow row hmem
    simp [isKept, IRProgram.holdsAt, hnode, hnormal]
  · rw [← hkeys] at hn
    obtain ⟨row, hmem, rfl⟩ := List.mem_map.1 hn
    obtain ⟨node, hnode, -⟩ := hrow row hmem
    exact ⟨node, hnode⟩
  · rw [isKept, IRProgram.holdsAt, hnode, Option.any_some, Bool.not_eq_false', isTrivialWrapper,
      Bool.and_eq_true, Bool.and_eq_true] at hkeep
    exact List.isEmpty_iff.1 hkeep.1.2
  · have hkey : n ∈ (OrderedDict.ofList (all.filter
        fun row => !isTrivialWrapper row.2.summary)).keys := OrderedDict.mem_keys_ofList.2 hn
    obtain ⟨node, hnode⟩ := Option.isSome_iff_exists.1 (OrderedDict.get?_isSome_iff.2 hkey)
    obtain ⟨rawNode, hraw, rfl⟩ :=
      hrow (n, node) (List.mem_filter.1 (OrderedDict.mem_of_get?_ofList hnode)).1
    have hsummary := materializeSuccessors_summary (OrderedDict.ofList (all.filter
      fun row => !isTrivialWrapper row.2.summary)) ((all.filter
        fun row => !isTrivialWrapper row.2.summary).map (·.1)) n
    rw [hnode] at hsummary
    obtain ⟨normalNode, hnormal, hsame⟩ := Option.map_eq_some_iff.1 hsummary
    exact ⟨rawNode, normalNode, hraw, hnormal, by rw [hsame]; rfl⟩

/-- A node that writes something has updates. -/
theorem updates_ne_nil_of_writes {n : String} {node : IRNode}
    (hnode : program.nodes.get? n = some node)
    (h : (∃ key, writeAt program key n ≠ none) ∨ exceptionAt program n ≠ none) :
    node.summary.semanticUpdates ≠ [] := by
  intro hnil
  rcases h with ⟨key, h⟩ | h
  · exact h (by simp [writeAt, hnode, hnil, stateWritesOf, Dict.get?, Except.toOption, Dict.update])
  · exact h (by simp [exceptionAt, hnode, hnil, Dict.get?])

/-! ## The order of the candidates -/

/-- The nodes of an infix are consecutive. -/
theorem contiguous_of_isInfix {nodeIds : List String} (hnodup : program.order.Nodup)
    (hknown : ∀ n ∈ program.order, n ∈ program.nodes.keys) (hsegment : nodeIds <:+: program.order)
    (hne : nodeIds ≠ []) : ∃ span : ℕ × ℕ, Contiguous program nodeIds span.1 span.2 := by
  obtain ⟨s, t, horder⟩ := hsegment
  have hparts : (s ++ nodeIds ++ t).Nodup := horder ▸ hnodup
  obtain ⟨hparts, -, -⟩ := List.nodup_append.1 hparts
  obtain ⟨-, hids, hdisjoint⟩ := List.nodup_append.1 hparts
  have hpos : ∀ n ∈ nodeIds, program.order.idxOf n = s.length + nodeIds.idxOf n := by
    intro n hn
    rw [← horder, List.append_assoc,
      List.idxOf_append_of_notMem fun hs => hdisjoint n hs n hn rfl,
      List.idxOf_append_of_mem hn]
  have hlength := List.length_pos_iff.2 hne
  have hmem : ∀ n ∈ nodeIds, n ∈ program.order := fun n hn => by
    rw [← horder]
    simp [hn]
  refine ⟨(s.length, s.length + nodeIds.length - 1), fun n hn => hknown n (hmem n hn), hmem, ?_,
    fun k => ⟨?_, fun hk => ?_⟩⟩
  · show s.length ≤ s.length + nodeIds.length - 1
    omega
  · rintro ⟨n, hn, rfl⟩
    have hlt := List.idxOf_lt_length_of_mem hn
    rw [hpos n hn]
    exact ⟨Nat.le_add_right _ _, by omega⟩
  · have hlt : k - s.length < nodeIds.length := by omega
    refine ⟨nodeIds[k - s.length], List.getElem_mem hlt, ?_⟩
    rw [hpos _ (List.getElem_mem hlt), hids.idxOf_getElem]
    omega

theorem Contiguous.before {leftIds rightIds : List String} {left right : ℕ × ℕ}
    (hl : Contiguous program leftIds left.1 left.2)
    (hr : Contiguous program rightIds right.1 right.2) (h : left.2 < right.1) :
    Before program.order.idxOf leftIds rightIds := by
  intro x hx y hy
  have hxpos := (hl.positions _).1 ⟨x, hx, rfl⟩
  have hypos := (hr.positions _).1 ⟨y, hy, rfl⟩
  show program.order.idxOf x < program.order.idxOf y
  omega

/-- Two selected candidates with nodes of both programs are in one order. -/
theorem IsAlignment.inOrder
    (h : IsAlignment baselineIr optimizedIr alignment selected usedBaseline usedOptimized)
    (hnodupB : baselineIr.order.Nodup) (hnodupO : optimizedIr.order.Nodup)
    (hknownB : ∀ n ∈ baselineIr.order, n ∈ baselineIr.nodes.keys)
    (hknownO : ∀ n ∈ optimizedIr.order, n ∈ optimizedIr.nodes.keys)
    (hplainB : PlainIds baselineIr) (hplainO : PlainIds optimizedIr) :
    ∀ c ∈ selected, ∀ d ∈ selected, c.baselineIds ≠ [] → c.optimizedIds ≠ [] →
      d.baselineIds ≠ [] → d.optimizedIds ≠ [] → c = d ∨
      (Before baselineIr.order.idxOf c.baselineIds d.baselineIds ∧
        Before optimizedIr.order.idxOf c.optimizedIds d.optimizedIds) ∨
      (Before baselineIr.order.idxOf d.baselineIds c.baselineIds ∧
        Before optimizedIr.order.idxOf d.optimizedIds c.optimizedIds) := by
  intro c hc d hd hcB hcO hdB hdO
  by_cases heq : c = d
  · exact .inl heq
  · have : Std.Symm (Uncrossed baselineIr optimizedIr) := ⟨fun _ _ hxy => hxy.symm⟩
    have huncrossed : Uncrossed baselineIr optimizedIr c d :=
      (h.uncrossed hplainB hplainO).forall hc hd heq
    obtain ⟨lb, hlb⟩ := contiguous_of_isInfix hnodupB hknownB (h.fits c hc).baseline hcB
    obtain ⟨rb, hrb⟩ := contiguous_of_isInfix hnodupB hknownB (h.fits d hd).baseline hdB
    obtain ⟨lo, hlo⟩ := contiguous_of_isInfix hnodupO hknownO (h.fits c hc).optimized hcO
    obtain ⟨ro, hro⟩ := contiguous_of_isInfix hnodupO hknownO (h.fits d hd).optimized hdO
    rcases huncrossed lb rb lo ro hlb hrb hlo hro with ⟨hb, ho⟩ | ⟨hb, ho⟩
    · exact .inr (.inl ⟨hlb.before hrb hb, hlo.before hro ho⟩)
    · exact .inr (.inr ⟨hrb.before hlb hb, hro.before hlo ho⟩)

theorem pairwise_idxOf {order : List String} (h : order.Nodup) :
    order.Pairwise fun a b => order.idxOf a < order.idxOf b := by
  rw [List.pairwise_iff_getElem]
  intro i j hi hj hij
  rw [h.idxOf_getElem, h.idxOf_getElem]
  exact hij

/-! ## The final state -/

/-- Every aligned pair and every aligned block, taken by itself, writes the same. -/
def WritesLocally (baseline optimized : IRProgram) (pairs : List AlignedPair)
    (blocks : List AlignedBlock) : Prop :=
  (∀ pair ∈ pairs, EndsSame baseline optimized [pair.baselineNodeId] [pair.optimizedNodeId]) ∧
    ∀ block ∈ blocks, EndsSame baseline optimized block.baselineNodeIds block.optimizedNodeIds

/-- What a proof promises about the final state. -/
structure FinalStateKept (baseline optimized : IRProgram) (pairs : List AlignedPair)
    (blocks : List AlignedBlock) : Prop where
  alignedBaseline : ∀ n ∈ baseline.order, ∀ node, baseline.nodes.get? n = some node →
    node.summary.semanticUpdates ≠ [] → n ∈ (alignedNodes pairs blocks).1
  alignedOptimized : ∀ n ∈ optimized.order, ∀ node, optimized.nodes.get? n = some node →
    node.summary.semanticUpdates ≠ [] → n ∈ (alignedNodes pairs blocks).2
  same : baseline.order.Nodup → optimized.order.Nodup → PlainIds baseline → PlainIds optimized →
    WritesLocally baseline optimized pairs blocks →
    EndsSame baseline optimized baseline.order optimized.order

section Normal

variable {keep keep' : String → Bool} {raw normal : IRProgram}

/-- A node that writes is aligned. -/
theorem IsNormalOf.mem_aligned {aligned : List String} (h : IsNormalOf keep raw normal)
    (hfinal : ∀ n ∈ normal.order, normal.holdsAt (isRequiredFinal schema) n = true → n ∈ aligned) :
    ∀ n ∈ raw.order, ∀ node, raw.nodes.get? n = some node → node.summary.semanticUpdates ≠ [] →
      n ∈ aligned := by
  intro n hn rawNode hraw hupdates
  have hkept : n ∈ normal.order := by
    rw [h.order]
    refine List.mem_filter.2 ⟨hn, ?_⟩
    by_contra hkeep
    exact hupdates (h.dropped n rawNode hraw (Bool.not_eq_true _ ▸ hkeep))
  obtain ⟨rawNode', node, hraw', hnode, hsame⟩ := h.kept n hkept
  obtain rfl := Option.some.inj (hraw'.symm.trans hraw)
  refine hfinal n hkept (IRProgram.holdsAt_iff.2 ⟨node, hnode, ?_⟩)
  rw [isRequiredFinal, hsame, List.isEmpty_eq_false_iff.2 hupdates]
  rfl

/-- The nodes that are left out do not write. -/
theorem IsNormalOf.lastWrite {υ : Type} {f : String → Option υ} (h : IsNormalOf keep raw normal)
    (hf : ∀ n node, raw.nodes.get? n = some node → f n ≠ none →
      node.summary.semanticUpdates ≠ []) :
    LastWriter.lastWrite f normal.order = LastWriter.lastWrite f raw.order := by
  rw [h.order]
  refine lastWrite_filter fun n hn hkeep => ?_
  obtain ⟨node, hnode⟩ := h.known n hn
  by_contra hwrites
  exact hf n node hnode hwrites (h.dropped n node hnode hkeep)

/-- One cell: what both programs leave in it is the same. -/
theorem lastWrite_eq_of_alignment {υ : Type} {raw' normal' : IRProgram}
    {f g : String → Option υ}
    (halignment : IsAlignment normal normal' alignment selected usedBaseline usedOptimized)
    (hnormal : IsNormalOf keep raw normal) (hnormal' : IsNormalOf keep' raw' normal')
    (hplain : PlainIds normal) (hplain' : PlainIds normal')
    (hnodup : normal.order.Nodup) (hnodup' : normal'.order.Nodup)
    (hf : ∀ n node, raw.nodes.get? n = some node → f n ≠ none →
      node.summary.semanticUpdates ≠ [])
    (hg : ∀ n node, raw'.nodes.get? n = some node → g n ≠ none →
      node.summary.semanticUpdates ≠ [])
    (haligned : ∀ n ∈ raw.order, ∀ node, raw.nodes.get? n = some node →
      node.summary.semanticUpdates ≠ [] → n ∈ selected.flatMap Candidate.baselineIds)
    (haligned' : ∀ n ∈ raw'.order, ∀ node, raw'.nodes.get? n = some node →
      node.summary.semanticUpdates ≠ [] → n ∈ selected.flatMap Candidate.optimizedIds)
    (hsame : ∀ c ∈ selected, LastWriter.lastWrite f c.baselineIds =
      LastWriter.lastWrite g c.optimizedIds) :
    LastWriter.lastWrite f raw.order = LastWriter.lastWrite g raw'.order := by
  have hknown : ∀ {keep : String → Bool} {raw normal : IRProgram}, IsNormalOf keep raw normal →
      ∀ n ∈ normal.order, n ∈ normal.nodes.keys := by
    intro keep raw normal h n hn
    obtain ⟨-, node, -, hnode, -⟩ := h.kept n hn
    exact OrderedDict.get?_isSome_iff.1 (Option.isSome_iff_exists.2 ⟨node, hnode⟩)
  rw [← hnormal.lastWrite hf, ← hnormal'.lastWrite hg]
  refine lastWrite_eq_of_segments (pairwise_idxOf hnodup) (pairwise_idxOf hnodup')
    (fun c hc => (halignment.fits c hc).baseline.sublist)
    (fun c hc => (halignment.fits c hc).optimized.sublist) (fun n hn hwrites => ?_)
    (fun n hn hwrites => ?_) hsame
    (halignment.inOrder hnodup hnodup' (hknown hnormal) (hknown hnormal') hplain hplain')
  · obtain ⟨node, -, hnode, -⟩ := hnormal.kept n hn
    rw [hnormal.order] at hn
    exact List.mem_flatMap.1
      (haligned n (List.mem_filter.1 hn).1 node hnode (hf n node hnode hwrites))
  · obtain ⟨node, -, hnode, -⟩ := hnormal'.kept n hn
    rw [hnormal'.order] at hn
    exact List.mem_flatMap.1
      (haligned' n (List.mem_filter.1 hn).1 node hnode (hg n node hnode hwrites))

theorem IsNormalOf.plainIds (h : IsNormalOf keep raw normal) (hplain : PlainIds raw) :
    PlainIds normal := by
  intro n hn
  rw [h.order] at hn
  exact hplain n (List.mem_filter.1 hn).1

theorem IsNormalOf.nodup (h : IsNormalOf keep raw normal) (hnodup : raw.order.Nodup) :
    normal.order.Nodup := by
  rw [h.order]
  exact hnodup.filter _

/-- The updates of every node apply, when those of the aligned nodes do. -/
theorem IsNormalOf.applies {used : List String} (h : IsNormalOf keep raw normal)
    (haligned : ∀ n ∈ raw.order, ∀ node, raw.nodes.get? n = some node →
      node.summary.semanticUpdates ≠ [] → n ∈ used)
    (hused : ∀ n ∈ used, Applies raw n) : ∀ n ∈ raw.order, Applies raw n := by
  intro n hn
  obtain ⟨node, hnode⟩ := h.known n hn
  by_cases hupdates : node.summary.semanticUpdates = []
  · exact ⟨node, [], hnode, by rw [hupdates]; rfl⟩
  · exact hused n (haligned n hn node hnode hupdates)

end Normal

/-- When every candidate writes the same by itself, the programs end in the same state. -/
theorem endsSame_of_alignment {baseline optimized : IRProgram} {keep keep' : String → Bool}
    (halignment : IsAlignment baselineIr optimizedIr alignment selected usedBaseline usedOptimized)
    (hnormal : IsNormalOf keep baseline baselineIr) (hnormal' : IsNormalOf keep' optimized optimizedIr)
    (hnodup : baseline.order.Nodup) (hnodup' : optimized.order.Nodup)
    (hplain : PlainIds baseline) (hplain' : PlainIds optimized)
    (haligned : ∀ n ∈ baseline.order, ∀ node, baseline.nodes.get? n = some node →
      node.summary.semanticUpdates ≠ [] → n ∈ selected.flatMap Candidate.baselineIds)
    (haligned' : ∀ n ∈ optimized.order, ∀ node, optimized.nodes.get? n = some node →
      node.summary.semanticUpdates ≠ [] → n ∈ selected.flatMap Candidate.optimizedIds)
    (hlocal : ∀ c ∈ selected, EndsSame baseline optimized c.baselineIds c.optimizedIds) :
    EndsSame baseline optimized baseline.order optimized.order := by
  have hlocal := fun c hc => endsSame_iff.1 (hlocal c hc)
  refine endsSame_iff.2 ⟨?_, ?_, fun key => ?_, ?_⟩
  · refine hnormal.applies haligned fun n hn => ?_
    obtain ⟨c, hc, hn⟩ := List.mem_flatMap.1 hn
    exact (hlocal c hc).1 n hn
  · refine hnormal'.applies haligned' fun n hn => ?_
    obtain ⟨c, hc, hn⟩ := List.mem_flatMap.1 hn
    exact (hlocal c hc).2.1 n hn
  · exact lastWrite_eq_of_alignment halignment hnormal hnormal' (hnormal.plainIds hplain)
      (hnormal'.plainIds hplain') (hnormal.nodup hnodup) (hnormal'.nodup hnodup')
      (fun n node hnode hwrites => updates_ne_nil_of_writes hnode (.inl ⟨key, hwrites⟩))
      (fun n node hnode hwrites => updates_ne_nil_of_writes hnode (.inl ⟨key, hwrites⟩))
      haligned haligned' fun c hc => (hlocal c hc).2.2.1 key
  · exact lastWrite_eq_of_alignment halignment hnormal hnormal' (hnormal.plainIds hplain)
      (hnormal'.plainIds hplain') (hnormal.nodup hnodup) (hnormal'.nodup hnodup')
      (fun n node hnode hwrites => updates_ne_nil_of_writes hnode (.inr hwrites))
      (fun n node hnode hwrites => updates_ne_nil_of_writes hnode (.inr hwrites))
      haligned haligned' fun c hc => (hlocal c hc).2.2.2

/-- A program of one node that writes a state. -/
def oneWrite (value : String) : IRProgram where
  programId := value
  nodes := .ofList [("n", {
    nodeId := "n"
    summary := {
      provider := "HA", op := "STATE_WRITE", target := "light.lamp", phase := "RUNTIME"
      semanticUpdates := [("state_write", .dict [("light.lamp", .str value)])] } })]
  entryNode := some "n"
  exitNode := some "n"
  order := ["n"]

end FloWeaver.Align
