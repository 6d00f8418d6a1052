import FloWeaver.Counterexample.Useg
import FloWeaver.Lib.Progress

/-!
# When the unified graph covers both programs

Every step of the loop takes the next nodes of the two programs.  It rests when nothing is taken,
and the programs are covered exactly when it never rests before their end.

* `Stuck` — both programs stand at an aligned node, and nothing fits.
* `move_eq_self_iff` — the loop rests at the end, and where it is stuck.
* `buildUseg_covers_iff` — the graph covers both programs if and only if the loop is never stuck.
-/

namespace FloWeaver.Counterexample

open Py Ir Align

/-! ## One step -/

/-- The place after one step of the loop. -/
def move (map : AlignmentMap) (position : Position) : Position :=
  position.after (advance map position).taken

/-- The end of both programs. -/
def ended : Position := ⟨[], []⟩

/-- How many nodes are still to come. -/
def Position.remaining (position : Position) : ℕ :=
  position.baseline.length + position.optimized.length

/-- A place where neither a block nor a pair fits, and no program stands at a node outside the
alignment. -/
structure Stuck (map : AlignmentMap) (position : Position) : Prop where
  unfinished : position ≠ ended
  noBlock : ∀ block ∈ map.blockAlignments, fits position block = false
  noPair : currentPair map position = none
  baseline : ∀ nodeId ∈ position.baseline.head?, isAlignedBaseline map nodeId = true
  optimized : ∀ nodeId ∈ position.optimized.head?, isAlignedOptimized map nodeId = true

section Move

variable {map : AlignmentMap} {position : Position}

theorem prefix_of_isNext {nodeIds order : List String} (h : isNext nodeIds order = true) :
    nodeIds <+: order := by
  rw [isNext, Bool.or_eq_true, decide_eq_true_eq, List.isEmpty_iff] at h
  rcases h with rfl | h
  · exact List.nil_prefix
  · exact List.prefix_iff_eq_take.2 h.symm

theorem currentPair_eq_some {item : AlignedPair} (h : currentPair map position = some item) :
    ∃ baseline optimized, position = ⟨item.baselineNodeId :: baseline,
      item.optimizedNodeId :: optimized⟩ ∧ item ∈ map.nodeAlignments := by
  obtain ⟨baseline, optimized⟩ := position
  cases baseline with
  | nil => cases h
  | cons b bs =>
    cases optimized with
    | nil => cases h
    | cons o os =>
      obtain ⟨item', hmem, he⟩ := List.mem_map.1 (OrderedDict.mem_of_get?_ofList h)
      simp only [Prod.mk.injEq] at he
      obtain ⟨⟨rfl, rfl⟩, rfl⟩ := he
      exact ⟨bs, os, rfl, hmem⟩

/-- What is taken are the next nodes of both programs. -/
theorem taken_next : (advance map position).taken.baseline <+: position.baseline ∧
    (advance map position).taken.optimized <+: position.optimized := by
  rw [advance]
  cases hblock : map.blockAlignments.find? (fits position) with
  | some block =>
    have hfits := List.find?_some hblock
    rw [fits, Bool.and_eq_true, Bool.and_eq_true] at hfits
    exact ⟨prefix_of_isNext hfits.1.1, prefix_of_isNext hfits.1.2⟩
  | none =>
    cases hpair : currentPair map position with
    | some item =>
      obtain ⟨baseline, optimized, rfl, -⟩ := currentPair_eq_some hpair
      exact ⟨⟨baseline, rfl⟩, optimized, rfl⟩
    | none => exact ⟨List.takeWhile_prefix _, List.takeWhile_prefix _⟩

theorem taken_append_move (map : AlignmentMap) (position : Position) :
    (advance map position).taken.baseline ++ (move map position).baseline = position.baseline ∧
      (advance map position).taken.optimized ++ (move map position).optimized =
        position.optimized :=
  ⟨List.prefix_iff_eq_append.1 taken_next.1, List.prefix_iff_eq_append.1 taken_next.2⟩

theorem remaining_move (map : AlignmentMap) (position : Position) : position.remaining =
    (advance map position).taken.remaining + (move map position).remaining := by
  have hb := congrArg List.length (taken_append_move map position).1
  have ho := congrArg List.length (taken_append_move map position).2
  rw [List.length_append] at hb ho
  simp only [Position.remaining]
  omega

theorem eq_ended_of_remaining (h : position.remaining = 0) : position = ended := by
  obtain ⟨baseline, optimized⟩ := position
  rw [Position.remaining, Nat.add_eq_zero_iff, List.length_eq_zero_iff,
    List.length_eq_zero_iff] at h
  obtain ⟨rfl, rfl⟩ := h
  rfl

/-- A step rests exactly when nothing is taken. -/
theorem move_eq_self_iff_taken :
    move map position = position ↔ (advance map position).taken = ended := by
  constructor
  · intro h
    have hsize := remaining_move map position
    rw [h] at hsize
    exact eq_ended_of_remaining (by omega)
  · intro h
    rw [move, h]
    rfl

theorem move_decreases (map : AlignmentMap) :
    Progress.Decreases (move map) Position.remaining := by
  intro position hmove
  have hsize := remaining_move map position
  have htaken : (advance map position).taken.remaining ≠ 0 := fun h =>
    hmove (move_eq_self_iff_taken.2 (eq_ended_of_remaining h))
  omega

theorem move_ended (map : AlignmentMap) : move map ended = ended := by
  have h := remaining_move map ended
  have hzero : ended.remaining = 0 := rfl
  exact eq_ended_of_remaining (by omega)

theorem takeWhile_eq_nil_iff_head {p : String → Bool} {l : List String} :
    (l.takeWhile fun a => !p a) = [] ↔ ∀ a ∈ l.head?, p a = true := by
  cases l with
  | nil => simp
  | cons a rest => cases h : p a <;> simp [h]

/-- The loop rests at the end, and where it is stuck. -/
theorem move_eq_self_iff :
    move map position = position ↔ position = ended ∨ Stuck map position := by
  rw [move_eq_self_iff_taken]
  constructor
  · intro h
    by_cases hend : position = ended
    · exact .inl hend
    refine .inr ?_
    rw [advance] at h
    cases hblock : map.blockAlignments.find? (fits position) with
    | some block =>
      have hfits := List.find?_some hblock
      simp only [hblock, Advance.taken, ended, Position.mk.injEq] at h
      simp [fits, h] at hfits
    | none =>
      cases hpair : currentPair map position with
      | some item => simp [hblock, hpair, Advance.taken, ended] at h
      | none =>
        simp only [hblock, hpair, Advance.taken, ended, Position.mk.injEq,
          takeWhile_eq_nil_iff_head] at h
        exact {
          unfinished := hend
          noBlock := fun block hb => by simpa using List.find?_eq_none.1 hblock block hb
          noPair := hpair
          baseline := h.1
          optimized := h.2 }
  · rintro (rfl | h)
    · exact move_eq_self_iff_taken.1 (move_ended map)
    · have hblock : map.blockAlignments.find? (fits position) = none :=
        List.find?_eq_none.2 fun block hb => by simp [h.noBlock block hb]
      simp only [advance, hblock, h.noPair, Advance.taken, ended, Position.mk.injEq,
        takeWhile_eq_nil_iff_head]
      exact ⟨h.baseline, h.optimized⟩

/-- The loop gets to the end if and only if it is never stuck. -/
theorem exists_ended_iff (map : AlignmentMap) (position : Position) :
    (∃ n, (move map)^[n] position = ended) ↔ ∀ n, ¬ Stuck map ((move map)^[n] position) := by
  have hfinal : ∀ s, s = ended → move map s = s := fun s hs => hs ▸ move_ended map
  rw [(move_decreases map).exists_final_iff hfinal position]
  constructor
  · intro h n hstuck
    exact hstuck.unfinished (h n (move_eq_self_iff.2 (.inr hstuck)))
  · intro h n hrest
    exact (move_eq_self_iff.1 hrest).resolve_right (h n)

end Move

/-! ## The nodes of the graph -/

section Nodes

variable {baselineIr optimizedIr : IRProgram} {schema : CounterexampleObservationSchema}
variable {lookup : OrderedDict (List String) RegionPayload}

theorem exists_anyM_ok {α : Type} {f : α → Except PyErr Bool} {l : List α}
    (h : ∀ a ∈ l, ∃ b, f a = .ok b) : ∃ b, l.anyM f = .ok b := by
  induction l with
  | nil => exact ⟨false, rfl⟩
  | cons a rest ih =>
    obtain ⟨b, hb⟩ := h a List.mem_cons_self
    rw [List.anyM_cons, hb]
    cases b with
    | true => exact ⟨true, rfl⟩
    | false => exact ih fun a' ha' => h a' (List.mem_cons_of_mem _ ha')

theorem exists_node_ok {program : IRProgram} {nodeId : String} (h : nodeId ∈ program.nodes.keys) :
    ∃ node, program.node nodeId = .ok node := by
  obtain ⟨node, hnode⟩ := Option.isSome_iff_exists.1 (OrderedDict.get?_isSome_iff.2 h)
  exact ⟨node, IRProgram.node_eq_ok.2 hnode⟩

theorem exists_crossesObservationBoundary_ok (schema : CounterexampleObservationSchema)
    {program : IRProgram} {nodeIds : List String}
    (h : ∀ nodeId ∈ nodeIds, nodeId ∈ program.nodes.keys) :
    ∃ b, crossesObservationBoundary program nodeIds schema = .ok b :=
  exists_anyM_ok fun nodeId hmem => by
    obtain ⟨node, hnode⟩ := exists_node_ok (h nodeId hmem)
    exact ⟨_, by rw [hnode]; rfl⟩

theorem exists_crossesEither_ok (schema : CounterexampleObservationSchema)
    {baselineNodeIds optimizedNodeIds : List String}
    (hb : ∀ nodeId ∈ baselineNodeIds, nodeId ∈ baselineIr.nodes.keys)
    (ho : ∀ nodeId ∈ optimizedNodeIds, nodeId ∈ optimizedIr.nodes.keys) :
    ∃ b, crossesEither baselineIr optimizedIr schema baselineNodeIds optimizedNodeIds = .ok b := by
  obtain ⟨b, hb⟩ := exists_crossesObservationBoundary_ok schema hb
  obtain ⟨o, ho⟩ := exists_crossesObservationBoundary_ok schema ho
  rw [crossesEither, hb, ho]
  cases b with
  | true => exact ⟨true, rfl⟩
  | false => exact ⟨o, rfl⟩

theorem exists_pairCompatible_ok {item : AlignedPair}
    (hb : item.baselineNodeId ∈ baselineIr.nodes.keys)
    (ho : item.optimizedNodeId ∈ optimizedIr.nodes.keys) :
    ∃ b, pairCompatible baselineIr optimizedIr item = .ok b := by
  obtain ⟨baseline, hb⟩ := exists_node_ok hb
  obtain ⟨optimized, ho⟩ := exists_node_ok ho
  rw [pairCompatible, hb, ho]
  split_ifs
  · exact ⟨false, rfl⟩
  · exact ⟨false, rfl⟩
  · exact ⟨_, rfl⟩

/-- The graph node of a choice holds what is taken. -/
theorem nodeOf_ids {splitOpen : Bool} {index : ℕ} {choice : Advance} {node : USEGNode}
    (h : nodeOf baselineIr optimizedIr schema lookup splitOpen index choice = .ok node) :
    node.baselineNodeIds = choice.taken.baseline ∧
      node.optimizedNodeIds = choice.taken.optimized := by
  cases choice with
  | block aligned =>
    rw [nodeOf, alignedNode, bind_eq_ok] at h
    obtain ⟨_, _, h⟩ := h
    rw [← pure_eq_ok.1 h]
    exact ⟨rfl, rfl⟩
  | pair item =>
    rw [nodeOf, bind_eq_ok] at h
    obtain ⟨_, _, h⟩ := h
    rw [alignedNode, bind_eq_ok] at h
    obtain ⟨_, _, h⟩ := h
    rw [← pure_eq_ok.1 h]
    exact ⟨rfl, rfl⟩
  | scan baselineSegment optimizedSegment =>
    rw [nodeOf, splitNode, bind_eq_ok] at h
    obtain ⟨_, _, h⟩ := h
    rw [← pure_eq_ok.1 h]
    exact ⟨rfl, rfl⟩

theorem exists_nodeOf_ok (schema : CounterexampleObservationSchema)
    (lookup : OrderedDict (List String) RegionPayload) (splitOpen : Bool) (index : ℕ)
    {choice : Advance}
    (hb : ∀ nodeId ∈ choice.taken.baseline, nodeId ∈ baselineIr.nodes.keys)
    (ho : ∀ nodeId ∈ choice.taken.optimized, nodeId ∈ optimizedIr.nodes.keys) :
    ∃ node, nodeOf baselineIr optimizedIr schema lookup splitOpen index choice = .ok node := by
  obtain ⟨crosses, hcrosses⟩ := exists_crossesEither_ok schema hb ho
  cases choice with
  | block aligned =>
    exact ⟨_, bind_eq_ok.2 ⟨crosses, hcrosses, rfl⟩⟩
  | pair item =>
    obtain ⟨compatible, hcompatible⟩ := exists_pairCompatible_ok
      (hb item.baselineNodeId List.mem_cons_self) (ho item.optimizedNodeId List.mem_cons_self)
    exact ⟨_, bind_eq_ok.2 ⟨compatible, hcompatible, bind_eq_ok.2 ⟨crosses, hcrosses, rfl⟩⟩⟩
  | scan baselineSegment optimizedSegment =>
    exact ⟨_, bind_eq_ok.2 ⟨crosses, hcrosses, rfl⟩⟩

end Nodes

/-! ## The loop -/

section Loop

variable {baselineIr optimizedIr : IRProgram} {map : AlignmentMap}
variable {schema : CounterexampleObservationSchema}
variable {lookup : OrderedDict (List String) RegionPayload}

theorem buildFrom_ended (fuel : ℕ) (splitOpen : Bool) (nodes : List USEGNode) :
    buildFrom baselineIr optimizedIr map schema lookup fuel ended splitOpen nodes =
      .ok (some nodes) := by
  cases fuel <;> rfl

theorem buildFrom_zero {position : Position} (h : position ≠ ended) (splitOpen : Bool)
    (nodes : List USEGNode) :
    buildFrom baselineIr optimizedIr map schema lookup 0 position splitOpen nodes = .ok none := by
  rw [buildFrom]
  exact h

theorem buildFrom_succ {position : Position} (h : position ≠ ended) (fuel : ℕ) (splitOpen : Bool)
    (nodes : List USEGNode) :
    buildFrom baselineIr optimizedIr map schema lookup (fuel + 1) position splitOpen nodes =
      nodeOf baselineIr optimizedIr schema lookup splitOpen nodes.length (advance map position) >>=
        fun node => buildFrom baselineIr optimizedIr map schema lookup fuel (move map position)
          (node.kind = "SPLIT") (nodes ++ [node]) := by
  rw [buildFrom]
  · rfl
  · exact h

/-- A graph that is built holds all nodes in order, and the loop has come to the end. -/
theorem buildFrom_covers {fuel : ℕ} {position : Position} {splitOpen : Bool}
    {nodes out : List USEGNode}
    (h : buildFrom baselineIr optimizedIr map schema lookup fuel position splitOpen nodes =
      .ok (some out)) :
    out.flatMap (·.baselineNodeIds) =
        nodes.flatMap (·.baselineNodeIds) ++ position.baseline ∧
      out.flatMap (·.optimizedNodeIds) =
        nodes.flatMap (·.optimizedNodeIds) ++ position.optimized ∧
      ∃ n, (move map)^[n] position = ended := by
  induction fuel generalizing position splitOpen nodes with
  | zero =>
    by_cases hend : position = ended
    · subst hend
      rw [buildFrom_ended] at h
      obtain rfl := Option.some.inj (Except.ok.inj h)
      exact ⟨(List.append_nil _).symm, (List.append_nil _).symm, 0, rfl⟩
    · rw [buildFrom_zero hend] at h
      cases h
  | succ fuel ih =>
    by_cases hend : position = ended
    · subst hend
      rw [buildFrom_ended] at h
      obtain rfl := Option.some.inj (Except.ok.inj h)
      exact ⟨(List.append_nil _).symm, (List.append_nil _).symm, 0, rfl⟩
    · rw [buildFrom_succ hend, bind_eq_ok] at h
      obtain ⟨node, hnode, h⟩ := h
      obtain ⟨hb, ho, n, hn⟩ := ih h
      obtain ⟨hidsB, hidsO⟩ := nodeOf_ids hnode
      have htaken := taken_append_move map position
      refine ⟨?_, ?_, n + 1, hn⟩
      · rw [hb, List.flatMap_append, List.flatMap_singleton, hidsB, List.append_assoc, htaken.1]
      · rw [ho, List.flatMap_append, List.flatMap_singleton, hidsO, List.append_assoc, htaken.2]

/-- A loop that comes to the end builds a graph. -/
theorem exists_buildFrom_ok (schema : CounterexampleObservationSchema)
    (lookup : OrderedDict (List String) RegionPayload) {position : Position} {n : ℕ}
    (splitOpen : Bool) (nodes : List USEGNode)
    (hb : ∀ nodeId ∈ position.baseline, nodeId ∈ baselineIr.nodes.keys)
    (ho : ∀ nodeId ∈ position.optimized, nodeId ∈ optimizedIr.nodes.keys)
    (hn : (move map)^[n] position = ended) :
    ∃ out, buildFrom baselineIr optimizedIr map schema lookup n position splitOpen nodes =
      .ok (some out) := by
  induction n generalizing position splitOpen nodes with
  | zero =>
    obtain rfl : position = ended := hn
    exact ⟨nodes, buildFrom_ended 0 splitOpen nodes⟩
  | succ n ih =>
    by_cases hend : position = ended
    · subst hend
      exact ⟨nodes, buildFrom_ended _ splitOpen nodes⟩
    · have htaken := taken_append_move map position
      obtain ⟨node, hnode⟩ := exists_nodeOf_ok schema lookup splitOpen nodes.length
        (fun nodeId hmem => hb nodeId (taken_next.1.subset hmem))
        (fun nodeId hmem => ho nodeId (taken_next.2.subset hmem))
      obtain ⟨out, hout⟩ := ih (node.kind = "SPLIT") (nodes ++ [node])
        (fun nodeId hmem => hb nodeId (htaken.1 ▸ List.mem_append_right _ hmem))
        (fun nodeId hmem => ho nodeId (htaken.2 ▸ List.mem_append_right _ hmem)) hn
      exact ⟨out, (buildFrom_succ hend n splitOpen nodes).trans (bind_eq_ok.2 ⟨node, hnode, hout⟩)⟩

end Loop

/-! ## Maps without blocks -/

/-- Some pair aligns two nodes. -/
def Paired (map : AlignmentMap) (baselineNodeId optimizedNodeId : String) : Prop :=
  ∃ item ∈ map.nodeAlignments,
    item.baselineNodeId = baselineNodeId ∧ item.optimizedNodeId = optimizedNodeId

/-- The aligned nodes of both programs are paired one by one, in order. -/
def PairedInOrder (map : AlignmentMap) (position : Position) : Prop :=
  List.Forall₂ (Paired map) (position.baseline.filter (isAlignedBaseline map))
    (position.optimized.filter (isAlignedOptimized map))

section Pairs

variable {map : AlignmentMap} {position : Position}

theorem filter_dropWhile_not {p : String → Bool} (l : List String) :
    (l.dropWhile fun a => !p a).filter p = l.filter p := by
  induction l with
  | nil => rfl
  | cons a rest ih =>
    cases h : p a with
    | true => rw [List.dropWhile_cons_of_neg (by simp [h])]
    | false =>
      rw [List.dropWhile_cons_of_pos (by simp [h]), ih, List.filter_cons_of_neg (by simp [h])]

theorem drop_length_takeWhile (p : String → Bool) (l : List String) :
    l.drop (l.takeWhile p).length = l.dropWhile p :=
  calc l.drop (l.takeWhile p).length
      = (l.takeWhile p ++ l.dropWhile p).drop (l.takeWhile p).length := by
        rw [List.takeWhile_append_dropWhile]
    _ = l.dropWhile p := List.drop_left

theorem isAligned_of_mem {item : AlignedPair} (h : item ∈ map.nodeAlignments) :
    isAlignedBaseline map item.baselineNodeId = true ∧
      isAlignedOptimized map item.optimizedNodeId = true := by
  constructor
  · rw [isAlignedBaseline, Bool.or_eq_true]
    exact .inr (List.any_eq_true.2 ⟨item, h, decide_eq_true rfl⟩)
  · rw [isAlignedOptimized, Bool.or_eq_true]
    exact .inr (List.any_eq_true.2 ⟨item, h, decide_eq_true rfl⟩)

theorem currentPair_isSome_of_paired {baselineNodeId optimizedNodeId : String}
    {baseline optimized : List String} (h : Paired map baselineNodeId optimizedNodeId) :
    currentPair map ⟨baselineNodeId :: baseline, optimizedNodeId :: optimized⟩ ≠ none := by
  obtain ⟨item, hitem, rfl, rfl⟩ := h
  have hkey : (item.baselineNodeId, item.optimizedNodeId) ∈ (nodePairs map).keys :=
    OrderedDict.mem_keys_ofList.2 (List.mem_map.2 ⟨_, List.mem_map.2 ⟨item, hitem, rfl⟩, rfl⟩)
  exact Option.isSome_iff_ne_none.1 (OrderedDict.get?_isSome_iff.2 hkey)

/-- Without blocks, no step changes whether the rest is paired in order. -/
theorem pairedInOrder_move (hblocks : map.blockAlignments = []) :
    PairedInOrder map (move map position) ↔ PairedInOrder map position := by
  have hblock : map.blockAlignments.find? (fits position) = none := by rw [hblocks]; rfl
  rw [move, advance, hblock]
  cases hpair : currentPair map position with
  | some item =>
    obtain ⟨baseline, optimized, rfl, hitem⟩ := currentPair_eq_some hpair
    obtain ⟨hb, ho⟩ := isAligned_of_mem hitem
    rw [PairedInOrder, PairedInOrder, List.filter_cons_of_pos hb, List.filter_cons_of_pos ho,
      List.forall₂_cons]
    exact ⟨fun h => ⟨⟨item, hitem, rfl, rfl⟩, h⟩, fun h => h.2⟩
  | none =>
    simp only [PairedInOrder, Position.after, Advance.taken, drop_length_takeWhile,
      filter_dropWhile_not]

theorem not_stuck_of_pairedInOrder (h : PairedInOrder map position) : ¬ Stuck map position := by
  intro hstuck
  obtain ⟨baseline, optimized⟩ := position
  cases baseline with
  | nil =>
    cases optimized with
    | nil => exact hstuck.unfinished rfl
    | cons o os =>
      rw [PairedInOrder, List.filter_cons_of_pos (hstuck.optimized o rfl)] at h
      cases h
  | cons b bs =>
    cases optimized with
    | nil =>
      rw [PairedInOrder, List.filter_cons_of_pos (hstuck.baseline b rfl)] at h
      cases h
    | cons o os =>
      rw [PairedInOrder, List.filter_cons_of_pos (hstuck.baseline b rfl),
        List.filter_cons_of_pos (hstuck.optimized o rfl), List.forall₂_cons] at h
      exact currentPair_isSome_of_paired h.1 hstuck.noPair

/-- Without blocks the loop is never stuck exactly when the aligned nodes are paired in order. -/
theorem never_stuck_iff_pairedInOrder (hblocks : map.blockAlignments = []) :
    (∀ n, ¬ Stuck map ((move map)^[n] position)) ↔ PairedInOrder map position := by
  have hrun : ∀ n, PairedInOrder map ((move map)^[n] position) ↔ PairedInOrder map position := by
    intro n
    induction n with
    | zero => rfl
    | succ n ih => rw [Function.iterate_succ_apply', pairedInOrder_move hblocks, ih]
  constructor
  · intro h
    obtain ⟨n, hn⟩ := (exists_ended_iff map position).2 h
    refine (hrun n).1 ?_
    rw [hn]
    exact List.Forall₂.nil
  · intro h n
    exact not_stuck_of_pairedInOrder ((hrun n).2 h)

end Pairs

/-! ## The whole graph -/

/-- The loop ends, and the nodes of the graph hold both programs in order. -/
def Covers (baselineIr optimizedIr : IRProgram) (map : AlignmentMap)
    (schema : CounterexampleObservationSchema) (suspiciousRegions : List RegionPayload) : Prop :=
  ∃ fuel useg, buildUseg baselineIr optimizedIr map schema suspiciousRegions fuel =
      .ok (some useg) ∧
    useg.nodes.flatMap (·.baselineNodeIds) = baselineIr.order ∧
    useg.nodes.flatMap (·.optimizedNodeIds) = optimizedIr.order

section Build

variable {baselineIr optimizedIr : IRProgram} {map : AlignmentMap}
variable {schema : CounterexampleObservationSchema} {suspiciousRegions : List RegionPayload}

theorem exists_ended_of_covers
    (h : Covers baselineIr optimizedIr map schema suspiciousRegions) :
    ∃ n, (move map)^[n] ⟨baselineIr.order, optimizedIr.order⟩ = ended := by
  obtain ⟨fuel, useg, huseg, -⟩ := h
  rw [buildUseg, bind_eq_ok] at huseg
  obtain ⟨nodes, hnodes, huseg⟩ := huseg
  obtain ⟨out, rfl, -⟩ := Option.map_eq_some_iff.1 (pure_eq_ok.1 huseg)
  exact (buildFrom_covers hnodes).2.2

theorem covers_of_ended {n : ℕ} (hb : ∀ nodeId ∈ baselineIr.order, nodeId ∈ baselineIr.nodes.keys)
    (ho : ∀ nodeId ∈ optimizedIr.order, nodeId ∈ optimizedIr.nodes.keys)
    (h : (move map)^[n] ⟨baselineIr.order, optimizedIr.order⟩ = ended) :
    Covers baselineIr optimizedIr map schema suspiciousRegions := by
  let regions := if suspiciousRegions.isEmpty then map.suspiciousRegions.map regionPayload
    else suspiciousRegions
  obtain ⟨out, hout⟩ := exists_buildFrom_ok schema (regionLookup regions) false [] hb ho h
  obtain ⟨hidsB, hidsO, -⟩ := buildFrom_covers hout
  refine ⟨n, ⟨out⟩, ?_, hidsB, hidsO⟩
  exact bind_eq_ok.2 ⟨some out, hout, rfl⟩

/-- **The unified graph covers both programs if and only if the loop is never stuck**: at no place
that its steps lead to do both programs stand at an aligned node, or at the end, with neither a
block nor a pair that fits.  Without blocks this says that the aligned nodes of the two programs
are paired one by one, in order. -/
theorem buildUseg_covers_iff
    (hb : ∀ nodeId ∈ baselineIr.order, nodeId ∈ baselineIr.nodes.keys)
    (ho : ∀ nodeId ∈ optimizedIr.order, nodeId ∈ optimizedIr.nodes.keys) :
    (Covers baselineIr optimizedIr map schema suspiciousRegions ↔
      ∀ n, ¬ Stuck map ((move map)^[n] ⟨baselineIr.order, optimizedIr.order⟩)) ∧
    (map.blockAlignments = [] →
      (Covers baselineIr optimizedIr map schema suspiciousRegions ↔
        PairedInOrder map ⟨baselineIr.order, optimizedIr.order⟩)) := by
  have hcovers : Covers baselineIr optimizedIr map schema suspiciousRegions ↔
      ∀ n, ¬ Stuck map ((move map)^[n] ⟨baselineIr.order, optimizedIr.order⟩) := by
    rw [← exists_ended_iff]
    exact ⟨exists_ended_of_covers, fun ⟨_, hn⟩ => covers_of_ended hb ho hn⟩
  refine ⟨hcovers, fun hblocks => ?_⟩
  rw [hcovers, never_stuck_iff_pairedInOrder hblocks]

end Build

/-! ## Two nodes on each side -/

/-- A program of nodes that all read the same target. -/
def readsOf (nodeIds : List String) : IRProgram where
  programId := "reads"
  nodes := .ofList (nodeIds.map fun nodeId => (nodeId, {
    nodeId := nodeId
    summary := { provider := "ble", op := "READ", target := "sensor", phase := "RUN" } }))
  entryNode := nodeIds.head?
  exitNode := nodeIds.getLast?
  order := nodeIds

/-- A map of exact pairs. -/
def exactPairs (pairs : List (String × String)) : AlignmentMap where
  nodeAlignments := pairs.map fun p =>
    { baselineNodeId := p.1, optimizedNodeId := p.2, relation := "EXACT", confidence := 1 }
  blockAlignments := []
  unmatchedBaselineNodes := []
  unmatchedOptimizedNodes := []

/-- Pairs in order: both programs are covered. -/
theorem buildUseg_covers_pairs :
    Covers (readsOf ["a", "b"]) (readsOf ["x", "y"])
      (exactPairs [("a", "x"), ("b", "y")]) {} [] := by
  let map := exactPairs [("a", "x"), ("b", "y")]
  have hb : ["a", "b"].filter (isAlignedBaseline map) = ["a", "b"] := by decide +kernel
  have ho : ["x", "y"].filter (isAlignedOptimized map) = ["x", "y"] := by decide +kernel
  have hpaired : List.Forall₂ (Paired map) ["a", "b"] ["x", "y"] :=
    .cons ⟨_, List.mem_cons_self, rfl, rfl⟩
      (.cons ⟨_, List.mem_cons_of_mem _ List.mem_cons_self, rfl, rfl⟩ .nil)
  refine ((buildUseg_covers_iff (by decide +kernel) (by decide +kernel)).2 rfl).2 ?_
  exact hb.symm ▸ ho.symm ▸ hpaired

/-- Pairs that cross: the loop adds empty nodes and never ends. -/
theorem crossingPairs_not_covered :
    ¬ Covers (readsOf ["a", "b"]) (readsOf ["x", "y"])
      (exactPairs [("a", "y"), ("b", "x")]) {} [] := by
  intro h
  obtain ⟨n, hn⟩ := exists_ended_of_covers h
  have hrest : move (exactPairs [("a", "y"), ("b", "x")]) ⟨["a", "b"], ["x", "y"]⟩ =
      ⟨["a", "b"], ["x", "y"]⟩ := by decide +kernel
  have hstay := (Function.iterate_fixed hrest n).symm.trans hn
  cases hstay

end FloWeaver.Counterexample
