import FloWeaver.Ir.Program
import FloWeaver.Lib.LastWriter

/-!
# The state after some nodes

What a key holds after some nodes is what the last of them that writes it has written; the same
holds of the exception category.

* `writeAt`, `exceptionAt` — what a node writes.
* `stateAfter_spec` — the state after some nodes.
* `EndsSame` — two runs with the same state.
-/

namespace FloWeaver.Py

/-- An update overrides what was there. -/
theorem Dict.get?_update (d rows : Dict) (key : String) :
    (d.update rows).get? key = ((Dict.update [] rows).get? key).or (d.get? key) := by
  induction rows using List.reverseRecOn with
  | nil => rfl
  | append_singleton rows row ih =>
    rw [Dict.update, Dict.update, List.foldl_append, List.foldl_append]
    show (Dict.set (d.update rows) row.1 row.2).get? key =
      ((Dict.set (Dict.update [] rows) row.1 row.2).get? key).or (d.get? key)
    rw [Dict.get?_set, Dict.get?_set, ih]
    split_ifs
    · rfl
    · rfl

end FloWeaver.Py

namespace FloWeaver.Ir

open Py LastWriter

variable {program : IRProgram} {nodeIds : List String}

/-- What a node writes under a key. -/
def writeAt (program : IRProgram) (key nodeId : String) : Option Val :=
  (program.nodes.get? nodeId).bind fun node =>
    (stateWritesOf node.summary.semanticUpdates).toOption.bind fun writes =>
      Dict.get? (Dict.update [] writes) key

/-- The exception category that a node sets. -/
def exceptionAt (program : IRProgram) (nodeId : String) : Option String :=
  (program.nodes.get? nodeId).bind fun node =>
    (node.summary.semanticUpdates.get? "exception").map Val.pyStr

/-- The updates of a node can be applied. -/
def Applies (program : IRProgram) (nodeId : String) : Prop :=
  ∃ node writes, program.nodes.get? nodeId = some node ∧
    stateWritesOf node.summary.semanticUpdates = .ok writes

/-- The last writer of a key, and the last exception. -/
def EndsIn (program : IRProgram) (nodeIds : List String) (state : SemanticState) : Prop :=
  (∀ key, state.stateWrites.get? key = lastWrite (writeAt program key) nodeIds) ∧
    state.exceptionCategory = lastWrite (exceptionAt program) nodeIds

theorem stateAfter_append_singleton (n : String) :
    stateAfter program (nodeIds ++ [n]) = (do
      let state ← stateAfter program nodeIds
      applySemanticUpdates state (← program.node n)) := by
  rw [stateAfter, List.foldlM_append]
  simp only [List.foldlM_cons, List.foldlM_nil, bind_pure]
  rfl

/-- One more node. -/
theorem EndsIn.applySemanticUpdates {state : SemanticState} {n : String} {node : IRNode}
    {writes : Dict} (h : EndsIn program nodeIds state) (hnode : program.nodes.get? n = some node)
    (hwrites : stateWritesOf node.summary.semanticUpdates = .ok writes) :
    ∃ state', applySemanticUpdates state node = .ok state' ∧
      EndsIn program (nodeIds ++ [n]) state' := by
  refine ⟨_, bind_eq_ok.2 ⟨writes, hwrites, rfl⟩, fun key => ?_, ?_⟩
  · have hwrite : writeAt program key n = Dict.get? (Dict.update [] writes) key := by
      simp [writeAt, hnode, hwrites, Except.toOption]
    rw [lastWrite_append, lastWrite_singleton, ← h.1, hwrite]
    exact Dict.get?_update _ _ _
  · have hexception : exceptionAt program n =
        (node.summary.semanticUpdates.get? "exception").map Val.pyStr := by
      simp [exceptionAt, hnode]
    rw [lastWrite_append, lastWrite_singleton, ← h.2, hexception]

/-- The state after some nodes is that of the last writers. -/
theorem stateAfter_spec {state : SemanticState} (h : stateAfter program nodeIds = .ok state) :
    (∀ n ∈ nodeIds, Applies program n) ∧ EndsIn program nodeIds state := by
  induction nodeIds using List.reverseRecOn generalizing state with
  | nil =>
    obtain rfl := pure_eq_ok.1 h
    exact ⟨List.forall_mem_nil _, fun _ => rfl, rfl⟩
  | append_singleton ns n ih =>
    rw [stateAfter_append_singleton] at h
    obtain ⟨before, hbefore, h⟩ := bind_eq_ok.1 h
    obtain ⟨node, hnode, happly⟩ := bind_eq_ok.1 h
    obtain ⟨writes, hwrites, -⟩ := bind_eq_ok.1 happly
    obtain ⟨happlies, hends⟩ := ih hbefore
    have hnode := IRProgram.node_eq_ok.1 hnode
    obtain ⟨state', hstate', hends'⟩ := hends.applySemanticUpdates hnode hwrites
    obtain rfl := Except.ok.inj (happly.symm.trans hstate')
    refine ⟨fun m hm => ?_, hends'⟩
    rcases List.mem_append.1 hm with hm | hm
    · exact happlies m hm
    · exact List.mem_singleton.1 hm ▸ ⟨node, writes, hnode, hwrites⟩

/-- Updates that can be applied are applied. -/
theorem exists_stateAfter (h : ∀ n ∈ nodeIds, Applies program n) :
    ∃ state, stateAfter program nodeIds = .ok state := by
  induction nodeIds using List.reverseRecOn with
  | nil => exact ⟨{}, rfl⟩
  | append_singleton ns n ih =>
    obtain ⟨state, hstate⟩ := ih fun m hm => h m (List.mem_append_left _ hm)
    obtain ⟨node, writes, hnode, hwrites⟩ := h n (by simp)
    obtain ⟨state', hstate', -⟩ :=
      (stateAfter_spec hstate).2.applySemanticUpdates hnode hwrites
    refine ⟨state', ?_⟩
    rw [stateAfter_append_singleton, hstate, IRProgram.node_eq_ok.2 hnode]
    exact hstate'

/-! ## Runs with the same state -/

/-- The same writes, and the same exception category. -/
def SemanticState.Same (s t : SemanticState) : Prop :=
  (∀ key, s.stateWrites.get? key = t.stateWrites.get? key) ∧
    s.exceptionCategory = t.exceptionCategory

/-- The nodes of two programs, folded in order, end in the same state. -/
def EndsSame (left right : IRProgram) (leftIds rightIds : List String) : Prop :=
  ∃ s t, stateAfter left leftIds = .ok s ∧ stateAfter right rightIds = .ok t ∧ s.Same t

theorem endsSame_iff {left right : IRProgram} {leftIds rightIds : List String} :
    EndsSame left right leftIds rightIds ↔
      (∀ n ∈ leftIds, Applies left n) ∧ (∀ n ∈ rightIds, Applies right n) ∧
      (∀ key, lastWrite (writeAt left key) leftIds = lastWrite (writeAt right key) rightIds) ∧
      lastWrite (exceptionAt left) leftIds = lastWrite (exceptionAt right) rightIds := by
  constructor
  · rintro ⟨s, t, hs, ht, hwrites, hexception⟩
    obtain ⟨hleft, hleftWrites, hleftException⟩ := stateAfter_spec hs
    obtain ⟨hright, hrightWrites, hrightException⟩ := stateAfter_spec ht
    refine ⟨hleft, hright, fun key => ?_, ?_⟩
    · rw [← hleftWrites, ← hrightWrites, hwrites]
    · rw [← hleftException, ← hrightException, hexception]
  · rintro ⟨hleft, hright, hwrites, hexception⟩
    obtain ⟨s, hs⟩ := exists_stateAfter hleft
    obtain ⟨t, ht⟩ := exists_stateAfter hright
    obtain ⟨-, hleftWrites, hleftException⟩ := stateAfter_spec hs
    obtain ⟨-, hrightWrites, hrightException⟩ := stateAfter_spec ht
    refine ⟨s, t, hs, ht, fun key => ?_, ?_⟩
    · rw [hleftWrites, hrightWrites, hwrites]
    · rw [hleftException, hrightException, hexception]

end FloWeaver.Ir
