import FloWeaver.Counterexample.State
import Mathlib.Data.List.Nodup

/-!
# Running the program of a trace

* `nodup_traceNodes` — the nodes of a program have different names.
* `applyNodes_trace` — the program of a trace runs to its end, shows the events of the trace and
  acts on the resources as its operations do, one after the other.
-/

namespace FloWeaver.Counterexample

open Py Ir Trace

/-! ## Names of nodes -/

theorem nodeIdText_toList (pre : String) (index : ℕ) :
    (nodeIdText pre index).toList = pre.toList ++ '_' ::
      (List.replicate (4 - (toString index).length) '0' ++ Nat.toDigits 10 index) := by
  simp [nodeIdText, String.toList_append]

theorem nodeIdText_inj {pre : String} {i j : ℕ} (h : nodeIdText pre i = nodeIdText pre j) :
    i = j := by
  have h := congrArg String.toList h
  rw [nodeIdText_toList, nodeIdText_toList, List.append_cancel_left_eq, List.cons.injEq] at h
  have hvalue : ∀ k n, Nat.ofDigitChars 10 (List.replicate n '0' ++ Nat.toDigits 10 k) 0 = k := by
    intro k n
    rw [Nat.ofDigitChars_append, Nat.ofDigitChars_replicate_zero, Nat.mul_zero,
      Nat.ofDigitChars_ten_toDigits]
  rw [← hvalue i (4 - (toString i).length), h.2, hvalue]

theorem map_withSuccessors {α : Type} (f : IRNode → α)
    (hf : ∀ node successors, f { node with successors := successors } = f node) :
    ∀ nodes : List IRNode, (withSuccessors nodes).map f = nodes.map f
  | [] => rfl
  | [_] => rfl
  | node :: next :: rest => by
      rw [withSuccessors, List.map_cons, map_withSuccessors f hf (next :: rest), hf]
      rfl

variable (sha1 : String → String) (config : TraceCompareConfig) (programId : String)
  (trace : List Event)

/-- What the nodes of a trace show, as long as it does not tell their numbers. -/
theorem map_traceNodes {α : Type} (f : IRNode → α) (g : Event → α)
    (hf : ∀ event index, f (eventToIrNode (canonicalizeEvent sha1 config.volatileParamKeys event)
      index programId) = g event) :
    (traceNodes sha1 config programId trace).map f = trace.map g := by
  refine List.ext_getElem (by simp [traceNodes]) fun index _ _ => ?_
  simp [traceNodes, hf]

theorem nodup_traceNodes :
    ((traceNodes sha1 config programId trace).map (·.nodeId)).Nodup := by
  refine List.pairwise_iff_getElem.2 fun i j _ _ hij heq => hij.ne ?_
  simp only [traceNodes, List.getElem_map, List.getElem_mapIdx, eventToIrNode] at heq
  exact nodeIdText_inj heq

/-! ## The run -/

/-- The nodes of the program of a trace, with their successors. -/
theorem nodup_withSuccessors :
    ((withSuccessors (traceNodes sha1 config programId trace)).map (·.nodeId)).Nodup := by
  rw [map_withSuccessors (·.nodeId) fun _ _ => rfl]
  exact nodup_traceNodes sha1 config programId trace

variable {sha1 config programId trace}

theorem get?_traceToIrProgram {node : IRNode}
    (h : node ∈ withSuccessors (traceNodes sha1 config programId trace)) :
    (traceToIrProgram sha1 config trace programId).nodes.get? node.nodeId = some node := by
  have hkey : node.nodeId ∈ (traceToIrProgram sha1 config trace programId).nodes.keys := by
    refine OrderedDict.mem_keys_ofList.2 ?_
    rw [List.map_map]
    exact List.mem_map_of_mem h
  obtain ⟨found, hfound⟩ := Option.isSome_iff_exists.1 (OrderedDict.get?_isSome_iff.2 hkey)
  obtain ⟨other, hother, hrow⟩ := List.mem_map.1 (OrderedDict.mem_of_get?_ofList hfound)
  obtain ⟨hid, rfl⟩ := Prod.ext_iff.1 hrow
  rw [hfound, List.inj_on_of_nodup_map (nodup_withSuccessors sha1 config programId trace) hother h
    hid]

/-- The effects of a node, read. -/
def effectsOf (node : IRNode) : List (String × String × String) :=
  node.summary.resourceEffects.map (readEffect node.summary.target)

theorem payloadOf_applyResourceEffects (state : ResourceState) (node : IRNode)
    (resourceKind key : String) :
    payloadOf (applyResourceEffects state node) resourceKind key =
      (actionsOn (effectsOf node) resourceKind key).foldl ResourcePayload.act
        (payloadOf state resourceKind key) := by
  rw [applyResourceEffects, effectsOf]
  induction node.summary.resourceEffects generalizing state with
  | nil => rfl
  | cons effect rest ih =>
    rw [List.foldl_cons, ih, payloadOf_applyResourceEffect, List.map_cons, ← List.foldl_append]
    congr 1
    simp only [actionsOn, ← List.map_append, ← List.filter_append]
    rfl

/-- Nodes looked up by their names. -/
theorem foldlM_nodeIds {program : IRProgram} {nodes : List IRNode} {side : Side}
    (h : ∀ node ∈ nodes, program.node node.nodeId = .ok node) :
    (nodes.map (·.nodeId)).foldlM
        (fun side nodeId => do applyNode side (← program.node nodeId)) side =
      nodes.foldlM applyNode side := by
  induction nodes generalizing side with
  | nil => rfl
  | cons node rest ih =>
    rw [List.map_cons, List.foldlM_cons, List.foldlM_cons, h node List.mem_cons_self]
    show applyNode side node >>= _ = _
    congr 1
    funext next
    exact ih fun n hn => h n (List.mem_cons_of_mem _ hn)

/-- A run of nodes whose writes can be read. -/
theorem foldlM_applyNode (nodes : List IRNode)
    (hwrites : ∀ node ∈ nodes, ∃ writes, stateWritesOf node.summary.semanticUpdates = .ok writes)
    (side : Side) :
    ∃ side', nodes.foldlM applyNode side = .ok side' ∧
      side'.trace = side.trace ++ (nodes.filter observed).map eventFromNode ∧
      ∀ resourceKind key, payloadOf side'.resourceState resourceKind key =
        (actionsOn (nodes.map effectsOf).flatten resourceKind key).foldl ResourcePayload.act
          (payloadOf side.resourceState resourceKind key) := by
  induction nodes generalizing side with
  | nil => exact ⟨side, rfl, by simp, fun _ _ => rfl⟩
  | cons node rest ih =>
    obtain ⟨writes, hnode⟩ := hwrites node List.mem_cons_self
    obtain ⟨next, hnext⟩ : ∃ next, applyNode side node = .ok next ∧
        next.trace = (if observed node then side.trace ++ [eventFromNode node] else side.trace) ∧
        next.resourceState = applyResourceEffects side.resourceState node := by
      refine ⟨_, bind_eq_ok.2 ⟨_, bind_eq_ok.2 ⟨writes, hnode, rfl⟩, rfl⟩, rfl, rfl⟩
    obtain ⟨side', hrun, htrace, hstate⟩ := ih (fun n hn => hwrites n (List.mem_cons_of_mem _ hn)) next
    refine ⟨side', ?_, ?_, fun resourceKind key => ?_⟩
    · rw [List.foldlM_cons, hnext.1]
      exact hrun
    · rw [htrace, hnext.2.1]
      by_cases hobs : observed node = true <;> simp [hobs]
    · rw [hstate, hnext.2.2, payloadOf_applyResourceEffects, ← List.foldl_append]
      simp [actionsOn, List.filter_append]

theorem stateWritesOf_semanticUpdates (event : Event) :
    ∃ writes, stateWritesOf (semanticUpdates event) = .ok writes := by
  rw [semanticUpdates]
  split_ifs
  · exact ⟨_, rfl⟩
  · exact ⟨_, rfl⟩
  · exact ⟨_, rfl⟩

/-- The actions of an event on a resource. -/
def eventActions (resourceKind key : String) (event : Event) : List String :=
  actionsOn ((resourceEffects event).map (readEffect event.target)) resourceKind key

theorem resourceEffects_canonicalizeEvent (event : Event) :
    resourceEffects (canonicalizeEvent sha1 config.volatileParamKeys event) =
      resourceEffects event := by
  simp only [resourceEffects, canonicalizeEvent, normalizeOpName_idem]

/-- What the nodes of the program show, as long as it tells neither numbers nor successors. -/
theorem map_programNodes {α : Type} (sha1 : String → String) (config : TraceCompareConfig)
    (programId : String) (trace : List Event) (f : IRNode → α) (g : Event → α)
    (hf : ∀ node successors, f { node with successors := successors } = f node)
    (hg : ∀ event index, f (eventToIrNode (canonicalizeEvent sha1 config.volatileParamKeys event)
      index programId) = g event) :
    (withSuccessors (traceNodes sha1 config programId trace)).map f = trace.map g :=
  (map_withSuccessors f hf _).trans (map_traceNodes sha1 config programId trace f g hg)

theorem writes_programNodes (sha1 : String → String) (config : TraceCompareConfig)
    (programId : String) (trace : List Event) :
    ∀ node ∈ withSuccessors (traceNodes sha1 config programId trace),
      ∃ writes, stateWritesOf node.summary.semanticUpdates = .ok writes := by
  intro node hnode
  have hmem : node.summary.semanticUpdates ∈
      (withSuccessors (traceNodes sha1 config programId trace)).map
        fun node => node.summary.semanticUpdates := List.mem_map_of_mem hnode
  rw [map_programNodes sha1 config programId trace _
    (fun event => semanticUpdates (canonicalizeEvent sha1 config.volatileParamKeys event))
    (fun _ _ => rfl) fun event index => by dsimp only [eventToIrNode]] at hmem
  obtain ⟨event, -, heq⟩ := List.mem_map.1 hmem
  rw [← heq]
  exact stateWritesOf_semanticUpdates _

theorem observed_programNodes (sha1 : String → String) (config : TraceCompareConfig)
    (programId : String) (trace : List Event) :
    (withSuccessors (traceNodes sha1 config programId trace)).filter observed =
      withSuccessors (traceNodes sha1 config programId trace) := by
  have hmap := map_programNodes sha1 config programId trace observed (fun _ => true)
    (fun _ _ => rfl) fun _ _ => rfl
  refine List.filter_eq_self.2 fun node hnode => ?_
  have hmem : observed node ∈ (withSuccessors
      (traceNodes sha1 config programId trace)).map observed := List.mem_map_of_mem hnode
  rw [hmap] at hmem
  obtain ⟨-, -, heq⟩ := List.mem_map.1 hmem
  exact heq.symm

theorem events_programNodes (sha1 : String → String) (config : TraceCompareConfig)
    (programId : String) (trace : List Event) :
    (withSuccessors (traceNodes sha1 config programId trace)).map eventFromNode =
      trace.map (canonicalizeEvent sha1 config.volatileParamKeys) := by
  refine map_programNodes sha1 config programId trace _ _ (fun _ _ => rfl) fun event index => ?_
  simp only [eventFromNode, eventToIrNode, canonicalizeEvent, normalizeOpName_idem]

theorem effects_programNodes (sha1 : String → String) (config : TraceCompareConfig)
    (programId : String) (trace : List Event) :
    (withSuccessors (traceNodes sha1 config programId trace)).map effectsOf =
      trace.map fun event => (resourceEffects event).map (readEffect event.target) := by
  refine map_programNodes sha1 config programId trace _ _ (fun _ _ => rfl) fun event index => ?_
  simp only [effectsOf, eventToIrNode, resourceEffects_canonicalizeEvent]
  simp only [canonicalizeEvent]

/-- The program of a trace runs to its end: it shows the canonical events, and acts on every
resource as the events do one after the other. -/
theorem applyNodes_trace (sha1 : String → String) (config : TraceCompareConfig)
    (programId : String) (trace : List Event) :
    ∃ side, applyNodes (traceToIrProgram sha1 config trace programId)
        (traceToIrProgram sha1 config trace programId).order {} = .ok side ∧
      side.trace = trace.map (canonicalizeEvent sha1 config.volatileParamKeys) ∧
      ∀ resourceKind key, payloadOf side.resourceState resourceKind key =
        (trace.flatMap (eventActions resourceKind key)).foldl ResourcePayload.act {} := by
  obtain ⟨side, hrun, htrace, hstate⟩ := foldlM_applyNode
    (withSuccessors (traceNodes sha1 config programId trace))
    (writes_programNodes sha1 config programId trace) {}
  refine ⟨{ side with resourceKeys := resourceKeys side.resourceState }, ?_, ?_, fun kind key => ?_⟩
  · refine bind_eq_ok.2 ⟨side, (foldlM_nodeIds fun node hnode => ?_).trans hrun, rfl⟩
    exact IRProgram.node_eq_ok.2 (get?_traceToIrProgram hnode)
  · show side.trace = _
    rw [htrace, observed_programNodes, events_programNodes]
    rfl
  · have hactions : actionsOn (trace.map fun event =>
        (resourceEffects event).map (readEffect event.target)).flatten kind key =
          trace.flatMap (eventActions kind key) := by
      rw [actionsOn, List.filter_flatten, List.map_flatten, List.map_map, List.map_map,
        List.flatMap_def]
      refine congrArg List.flatten (List.map_congr_left fun event _ => ?_)
      rw [Function.comp_apply, Function.comp_apply, eventActions, actionsOn]
    have hempty : payloadOf OrderedDict.empty kind key = {} := rfl
    show payloadOf side.resourceState kind key = _
    rw [hstate, effects_programNodes, hactions, hempty]

end FloWeaver.Counterexample
