import FloWeaver.Lib.Bisect
import FloWeaver.Lib.Grouped
import FloWeaver.Mssu.Records
import FloWeaver.Py.Sort

/-!
# Attaching markers to statements

A marker is attached to the statements of its function whose lines meet its own.  They are
found by bisection over the statements sorted by first line, and by a walk back over the ones
that still reach the marker.

* `indexFnNodes`, `attachedNodes`, `attachMarkerRefs` — the code.
* `mem_scannedNodes_iff` — what the scan sees: the statements that meet the marker, but for those
  before a statement that ends above it.
* `HidesNode` — a statement that meets the marker stands before one that ends above it.
* `attaches_iff` — a marker gets exactly the statements it meets, or else the nearest one, if and
  only if its function has a statement and none is hidden.
-/

namespace FloWeaver.Reduction

open Py

/-! ## The code -/

/-- `_index_fn_nodes`: the statements of every function by first line, then by last line. -/
def indexFnNodes (graph : ReducedGraph) : OrderedDict (String × String) (List GraphNode) :=
  (OrderedDict.grouped GraphNode.function graph.nodes.values).mapValues
    (sortedBy fun node => toLex (node.lineStart, node.lineEnd))

/-- Whether the lines of a statement and of a marker meet. -/
def lineOverlap (marker : Marker) (node : GraphNode) : Bool :=
  ! (decide (node.lineEnd < marker.lineStart) || decide (marker.lineEnd < node.lineStart))

/-- Where the scan for a marker starts. -/
def scanLo (candidates : List GraphNode) (marker : Marker) : ℕ :=
  walkBack candidates (fun node => decide (marker.lineStart ≤ node.lineEnd))
    (bisectLeft (candidates.map (·.lineStart)) marker.lineStart)

/-- The statements the scan finds. -/
def scannedNodes (candidates : List GraphNode) (marker : Marker) : List GraphNode :=
  ((candidates.take (bisectRight (candidates.map (·.lineStart)) marker.lineEnd)).drop
    (scanLo candidates marker)).filter (lineOverlap marker)

/-- How far the first line of a statement is from the marker. -/
def lineDistance (marker : Marker) (node : GraphNode) : ℤ := |node.lineStart - marker.lineStart|

/-- The statements a marker is attached to: those found, or else the nearest. -/
def attachedNodes (index : OrderedDict (String × String) (List GraphNode)) (marker : Marker) :
    List GraphNode :=
  let candidates := (index.get? marker.function).getD []
  let attached := scannedNodes candidates marker
  if attached.isEmpty then (firstMinBy (lineDistance marker) candidates).toList else attached

/-- `node.marker_refs.append(marker_id)`. -/
def noteMarker (markerId : String) (graph : ReducedGraph) (nodeId : String) : ReducedGraph where
  nodes := graph.nodes.mapValues fun node =>
    if node.nodeId = nodeId then { node with markerRefs := node.markerRefs ++ [markerId] } else node
  edges := graph.edges
  keyed := by
    intro row hrow
    obtain ⟨old, hold, rfl⟩ := List.mem_map.1 hrow
    rw [← graph.keyed old hold]
    dsimp only
    split_ifs <;> rfl

/-- The pass over one marker. -/
def attachMarker (index : OrderedDict (String × String) (List GraphNode))
    (state : OrderedDict String (List String) × ReducedGraph) (marker : Marker) :
    OrderedDict String (List String) × ReducedGraph :=
  let attached := (attachedNodes index marker).map GraphNode.nodeId
  (state.1.set marker.markerId attached, attached.foldl (noteMarker marker.markerId) state.2)

/-- `_attach_marker_refs`: the statements of every marker, and the graph with the markers
written into its statements. -/
def attachMarkerRefs (graph : ReducedGraph) (markers : List Marker) :
    OrderedDict String (List String) × ReducedGraph :=
  markers.foldl (attachMarker (indexFnNodes graph)) (.empty, graph)

/-! ## The plain interval test -/

/-- The statements of the marker's file and function. -/
def fnNodes (graph : ReducedGraph) (marker : Marker) : List GraphNode :=
  graph.nodes.values.filter fun node => node.function = marker.function

/-- The line intervals of a statement and a marker have a line in common. -/
def Meets (marker : Marker) (node : GraphNode) : Prop :=
  node.lineStart ≤ marker.lineEnd ∧ marker.lineStart ≤ node.lineEnd

/-- The ids are those of the statements that meet the marker, or of one nearest statement when
none does. -/
def AttachesByInterval (graph : ReducedGraph) (marker : Marker) (ids : List String) : Prop :=
  ((∃ node ∈ fnNodes graph marker, Meets marker node) → ids.Nodup ∧
    ∀ id, id ∈ ids ↔ ∃ node ∈ fnNodes graph marker, Meets marker node ∧ node.nodeId = id) ∧
  ((¬ ∃ node ∈ fnNodes graph marker, Meets marker node) → ∃ node ∈ fnNodes graph marker,
    (∀ other ∈ fnNodes graph marker, lineDistance marker node ≤ lineDistance marker other) ∧
      ids = [node.nodeId])

/-- Of two statements that start above the marker, the one that starts first reaches it and the
other ends before it: the walk back stops at the second and never sees the first. -/
def HidesNode (graph : ReducedGraph) (marker : Marker) : Prop :=
  ∃ outer ∈ fnNodes graph marker, ∃ inner ∈ fnNodes graph marker,
    outer.lineStart < inner.lineStart ∧ inner.lineStart < marker.lineStart ∧
      inner.lineEnd < marker.lineStart ∧ marker.lineStart ≤ outer.lineEnd

theorem lineOverlap_eq_true {marker : Marker} {node : GraphNode} :
    lineOverlap marker node = true ↔ Meets marker node := by
  rw [lineOverlap, Meets, Bool.not_eq_true', Bool.or_eq_false_iff, decide_eq_false_iff_not,
    decide_eq_false_iff_not, not_lt, not_lt]
  exact And.comm

/-! ## The rows of a function -/

/-- The row of a function in the index. -/
def fnRow (graph : ReducedGraph) (marker : Marker) : List GraphNode :=
  sortedBy (fun node => toLex (node.lineStart, node.lineEnd)) (fnNodes graph marker)

theorem getD_indexFnNodes (graph : ReducedGraph) (marker : Marker) :
    ((indexFnNodes graph).get? marker.function).getD [] = fnRow graph marker := by
  have hgroup := OrderedDict.getD_grouped GraphNode.function graph.nodes.values marker.function
  rw [indexFnNodes, OrderedDict.get?_mapValues, fnRow, fnNodes, ← hgroup]
  cases (OrderedDict.grouped GraphNode.function graph.nodes.values).get? marker.function <;> rfl

theorem mem_fnRow {graph : ReducedGraph} {marker : Marker} {node : GraphNode} :
    node ∈ fnRow graph marker ↔ node ∈ fnNodes graph marker :=
  mem_sortedBy

theorem nodup_fnRow (graph : ReducedGraph) (marker : Marker) :
    ((fnRow graph marker).map GraphNode.nodeId).Nodup := by
  have hperm := (sortedBy_perm (fun node : GraphNode => toLex (node.lineStart, node.lineEnd))
    (fnNodes graph marker)).map GraphNode.nodeId
  refine hperm.nodup_iff.2 (graph.nodup_nodeIds.sublist ?_)
  exact List.Sublist.map _ List.filter_sublist

theorem sorted_fnRow (graph : ReducedGraph) (marker : Marker) :
    (fnRow graph marker).Pairwise fun a b =>
      a.lineStart < b.lineStart ∨ (a.lineStart = b.lineStart ∧ a.lineEnd ≤ b.lineEnd) :=
  (pairwise_sortedBy (fun node : GraphNode => toLex (node.lineStart, node.lineEnd))
    (fnNodes graph marker)).imp fun h => Prod.Lex.toLex_le_toLex.1 h

theorem sorted_lineStart (graph : ReducedGraph) (marker : Marker) :
    ((fnRow graph marker).map (·.lineStart)).Pairwise (· ≤ ·) := by
  refine List.pairwise_map.2 ((sorted_fnRow graph marker).imp fun h => ?_)
  omega

/-! ## What the scan sees -/

theorem lt_scanLo_iff (graph : ReducedGraph) (marker : Marker) {i : ℕ} :
    i < scanLo (fnRow graph marker) marker ↔
      ∃ j node, i ≤ j ∧ (fnRow graph marker)[j]? = some node ∧
        node.lineStart < marker.lineStart ∧ node.lineEnd < marker.lineStart := by
  have hlen := bisectLeft_le_length ((fnRow graph marker).map (·.lineStart)) marker.lineStart
  rw [List.length_map] at hlen
  have hcut : ∀ {j : ℕ} {node : GraphNode}, (fnRow graph marker)[j]? = some node →
      (j < bisectLeft ((fnRow graph marker).map (·.lineStart)) marker.lineStart ↔
        node.lineStart < marker.lineStart) := by
    intro j node hnode
    obtain ⟨hj, rfl⟩ := List.getElem?_eq_some_iff.1 hnode
    rw [lt_bisectLeft_iff (sorted_lineStart graph marker) _ (by simpa using hj), List.getElem_map]
  rw [scanLo, lt_walkBack_iff hlen]
  constructor
  · rintro ⟨j, node, hij, hj, hnode, hends⟩
    exact ⟨j, node, hij, hnode, (hcut hnode).1 hj, by simpa using hends⟩
  · rintro ⟨j, node, hij, hnode, hstart, hends⟩
    exact ⟨j, node, hij, (hcut hnode).2 hstart, hnode, by simpa using hends⟩

/-- The scan finds the statements that meet the marker, from the place where it starts. -/
theorem mem_scannedNodes_iff (graph : ReducedGraph) (marker : Marker) {node : GraphNode} :
    node ∈ scannedNodes (fnRow graph marker) marker ↔
      Meets marker node ∧
        ∃ i, (fnRow graph marker)[i]? = some node ∧ ¬ i < scanLo (fnRow graph marker) marker := by
  rw [scannedNodes, List.mem_filter, lineOverlap_eq_true, and_comm]
  refine and_congr_right fun hmeets => ?_
  rw [List.mem_iff_getElem?]
  constructor
  · rintro ⟨i, hi⟩
    rw [List.getElem?_drop, List.getElem?_take] at hi
    split_ifs at hi
    exact ⟨_, hi, Nat.not_lt.2 (Nat.le_add_right _ _)⟩
  · rintro ⟨i, hi, hlo⟩
    obtain ⟨hlen, hget⟩ := List.getElem?_eq_some_iff.1 hi
    have hhi : i < bisectRight ((fnRow graph marker).map (·.lineStart)) marker.lineEnd := by
      rw [lt_bisectRight_iff (sorted_lineStart graph marker) _ (by simpa using hlen),
        List.getElem_map, hget]
      exact hmeets.1
    refine ⟨i - scanLo (fnRow graph marker) marker, ?_⟩
    rw [List.getElem?_drop, List.getElem?_take, Nat.add_sub_cancel' (Nat.not_lt.1 hlo), if_pos hhi]
    exact hi

theorem scannedNodes_sublist (candidates : List GraphNode) (marker : Marker) :
    (scannedNodes candidates marker).Sublist candidates :=
  List.filter_sublist.trans ((List.drop_sublist _ _).trans (List.take_sublist _ _))

/-- A statement that meets the marker is missed only behind one that ends above it. -/
theorem hidesNode_of_missed {graph : ReducedGraph} {marker : Marker} {node : GraphNode} {i : ℕ}
    (hnode : (fnRow graph marker)[i]? = some node) (hmeets : Meets marker node)
    (hmissed : i < scanLo (fnRow graph marker) marker) : HidesNode graph marker := by
  obtain ⟨j, inner, hij, hinner, hstart, hends⟩ := (lt_scanLo_iff graph marker).1 hmissed
  have hne : i ≠ j := by
    rintro rfl
    obtain rfl := Option.some.inj (hnode.symm.trans hinner)
    exact absurd hmeets.2 (not_le.2 hends)
  obtain ⟨hi, hgeti⟩ := List.getElem?_eq_some_iff.1 hnode
  obtain ⟨hj, hgetj⟩ := List.getElem?_eq_some_iff.1 hinner
  have horder := List.pairwise_iff_getElem.1 (sorted_fnRow graph marker) i j hi hj
    (lt_of_le_of_ne hij hne)
  rw [hgeti, hgetj] at horder
  have hreach := hmeets.2
  refine ⟨node, mem_fnRow.1 (List.mem_of_getElem? hnode), inner,
    mem_fnRow.1 (List.mem_of_getElem? hinner), ?_, hstart, hends, hreach⟩
  omega

/-- A hidden statement is not found. -/
theorem not_mem_scannedNodes {graph : ReducedGraph} {marker : Marker} {outer inner : GraphNode}
    (hinner : inner ∈ fnNodes graph marker) (hbefore : outer.lineStart < inner.lineStart)
    (hstart : inner.lineStart < marker.lineStart) (hends : inner.lineEnd < marker.lineStart) :
    outer ∉ scannedNodes (fnRow graph marker) marker := by
  intro hmem
  obtain ⟨-, i, hi, hseen⟩ := (mem_scannedNodes_iff graph marker).1 hmem
  obtain ⟨j, hj⟩ := List.mem_iff_getElem?.1 (mem_fnRow.2 hinner)
  refine hseen ((lt_scanLo_iff graph marker).2 ⟨j, inner, ?_, hj, hstart, hends⟩)
  by_contra hji
  obtain ⟨hi', hgeti⟩ := List.getElem?_eq_some_iff.1 hi
  obtain ⟨hj', hgetj⟩ := List.getElem?_eq_some_iff.1 hj
  have horder := List.pairwise_iff_getElem.1 (sorted_fnRow graph marker) j i hj' hi'
    (Nat.not_le.1 hji)
  rw [hgeti, hgetj] at horder
  omega

/-! ## When a marker gets the statements it meets -/

theorem attachedNodes_indexFnNodes (graph : ReducedGraph) (marker : Marker) :
    attachedNodes (indexFnNodes graph) marker =
      if (scannedNodes (fnRow graph marker) marker).isEmpty then
        (firstMinBy (lineDistance marker) (fnRow graph marker)).toList
      else scannedNodes (fnRow graph marker) marker := by
  rw [attachedNodes, getD_indexFnNodes]

/-- Nothing hidden: the scan finds every statement that meets the marker. -/
theorem attaches_of_not_hides {graph : ReducedGraph} {marker : Marker}
    (hsome : ∃ node, node ∈ fnNodes graph marker) (hclear : ¬ HidesNode graph marker) :
    AttachesByInterval graph marker
      ((attachedNodes (indexFnNodes graph) marker).map GraphNode.nodeId) := by
  have hfound : ∀ node, node ∈ scannedNodes (fnRow graph marker) marker ↔
      node ∈ fnNodes graph marker ∧ Meets marker node := by
    intro node
    rw [mem_scannedNodes_iff]
    constructor
    · rintro ⟨hmeets, i, hi, -⟩
      exact ⟨mem_fnRow.1 (List.mem_of_getElem? hi), hmeets⟩
    · rintro ⟨hmem, hmeets⟩
      obtain ⟨i, hi⟩ := List.mem_iff_getElem?.1 (mem_fnRow.2 hmem)
      exact ⟨hmeets, i, hi, fun hmissed => hclear (hidesNode_of_missed hi hmeets hmissed)⟩
  rw [attachedNodes_indexFnNodes]
  constructor
  · rintro ⟨node, hmem, hmeets⟩
    have hne : ¬ (scannedNodes (fnRow graph marker) marker).isEmpty = true := by
      rw [List.isEmpty_iff]
      exact List.ne_nil_of_mem ((hfound node).2 ⟨hmem, hmeets⟩)
    rw [if_neg hne]
    refine ⟨(nodup_fnRow graph marker).sublist ((scannedNodes_sublist _ _).map _), fun id => ?_⟩
    rw [List.mem_map]
    constructor
    · rintro ⟨found, hfoundMem, rfl⟩
      exact ⟨found, ((hfound found).1 hfoundMem).1, ((hfound found).1 hfoundMem).2, rfl⟩
    · rintro ⟨found, hin, hmeet, rfl⟩
      exact ⟨found, (hfound found).2 ⟨hin, hmeet⟩, rfl⟩
  · intro hnone
    have hempty : (scannedNodes (fnRow graph marker) marker).isEmpty = true := by
      rw [List.isEmpty_iff, List.eq_nil_iff_forall_not_mem]
      exact fun node hnode => hnone ⟨node, ((hfound node).1 hnode).1, ((hfound node).1 hnode).2⟩
    obtain ⟨some, hsomeMem⟩ := hsome
    obtain ⟨nearest, hnearest⟩ := exists_firstMinBy (lineDistance marker)
      (List.ne_nil_of_mem (mem_fnRow.2 hsomeMem))
    rw [if_pos hempty, hnearest]
    exact ⟨nearest, mem_fnRow.1 (mem_of_firstMinBy hnearest),
      fun other hother => firstMinBy_le hnearest (mem_fnRow.2 hother), rfl⟩

/-- A hidden statement meets the marker and is not attached: it is not found, and it is not the
nearest either, since the statement that hides it is nearer. -/
theorem not_attaches_of_hides {graph : ReducedGraph} {marker : Marker}
    (hlines : marker.lineStart ≤ marker.lineEnd) (h : HidesNode graph marker) :
    ¬ AttachesByInterval graph marker
      ((attachedNodes (indexFnNodes graph) marker).map GraphNode.nodeId) := by
  obtain ⟨outer, houter, inner, hinner, hbefore, hstart, hends, hreach⟩ := h
  intro hattach
  have hmeets : Meets marker outer := ⟨by omega, hreach⟩
  have hmem := ((hattach.1 ⟨outer, houter, hmeets⟩).2 outer.nodeId).2 ⟨outer, houter, hmeets, rfl⟩
  obtain ⟨node, hnode, hid⟩ := List.mem_map.1 hmem
  rw [attachedNodes_indexFnNodes] at hnode
  have hvalues : ∀ {n : GraphNode}, n ∈ fnNodes graph marker → n ∈ graph.nodes.values :=
    fun hn => (List.mem_filter.1 hn).1
  split_ifs at hnode with hempty
  · have hnearest := Option.mem_toList.1 hnode
    obtain rfl : node = outer := ReducedGraph.eq_of_nodeId
      (hvalues (mem_fnRow.1 (mem_of_firstMinBy hnearest))) (hvalues houter) hid
    have hle := firstMinBy_le hnearest (mem_fnRow.2 hinner)
    rw [lineDistance, lineDistance, abs_of_neg (by omega), abs_of_neg (by omega)] at hle
    omega
  · obtain rfl : node = outer := ReducedGraph.eq_of_nodeId
      (hvalues (mem_fnRow.1 ((scannedNodes_sublist _ _).subset hnode))) (hvalues houter) hid
    exact not_mem_scannedNodes hinner hbefore hstart hends hnode

theorem get?_attachMarkerRefs (graph : ReducedGraph) (earlier later : List Marker)
    (marker : Marker) (hlast : ∀ m ∈ later, m.markerId ≠ marker.markerId) :
    (attachMarkerRefs graph (earlier ++ marker :: later)).1.get? marker.markerId =
      some ((attachedNodes (indexFnNodes graph) marker).map GraphNode.nodeId) := by
  rw [attachMarkerRefs, List.foldl_append, List.foldl_cons]
  generalize earlier.foldl (attachMarker (indexFnNodes graph)) (.empty, graph) = state
  -- later markers write under other ids
  suffices hkeep : ∀ state' : OrderedDict String (List String) × ReducedGraph,
      (later.foldl (attachMarker (indexFnNodes graph)) state').1.get? marker.markerId =
        state'.1.get? marker.markerId by
    rw [hkeep, attachMarker, OrderedDict.get?_set, if_pos rfl]
  induction later with
  | nil => exact fun _ => rfl
  | cons m rest ih =>
    intro state'
    have hne : marker.markerId ≠ m.markerId := (hlast m List.mem_cons_self).symm
    rw [List.foldl_cons, ih fun m' hm' => hlast m' (List.mem_cons_of_mem _ hm'), attachMarker,
      OrderedDict.get?_set, if_neg hne]

/-- Whatever other markers are attached, a marker gets the statements of its function that its
lines meet, or else one nearest statement, if and only if the function has a statement and no
statement that meets the marker is hidden behind one that ends above it. -/
theorem attachMarkerRefs_interval_iff (graph : ReducedGraph) (earlier later : List Marker)
    (marker : Marker) (hlast : ∀ m ∈ later, m.markerId ≠ marker.markerId)
    (hlines : marker.lineStart ≤ marker.lineEnd) :
    (∃ ids, (attachMarkerRefs graph (earlier ++ marker :: later)).1.get? marker.markerId =
        some ids ∧ AttachesByInterval graph marker ids) ↔
      (∃ node, node ∈ fnNodes graph marker) ∧ ¬ HidesNode graph marker := by
  rw [get?_attachMarkerRefs graph earlier later marker hlast]
  constructor
  · rintro ⟨ids, hids, hattach⟩
    obtain rfl := Option.some.inj hids
    refine ⟨?_, fun hhides => not_attaches_of_hides hlines hhides hattach⟩
    by_cases hmeets : ∃ node ∈ fnNodes graph marker, Meets marker node
    · exact hmeets.imp fun _ h => h.1
    · exact (hattach.2 hmeets).imp fun _ h => h.1
  · rintro ⟨hsome, hclear⟩
    exact ⟨_, rfl, attaches_of_not_hides hsome hclear⟩

/-- A compound statement. -/
def outerNode : GraphNode where
  nodeId := "f:0"
  filePath := "a.py"
  functionName := "f"
  lineStart := 1
  lineEnd := 100

/-- A statement within it. -/
def innerNode : GraphNode := { outerNode with nodeId := "f:0.0", lineStart := 2, lineEnd := 3 }

/-- A function of two statements, the second within the first. -/
def nestedGraph : ReducedGraph where
  nodes := ⟨[("f:0", outerNode), ("f:0.0", innerNode)], by decide⟩
  keyed := by decide

/-- A marker in the middle of the first statement. -/
def nestedMarker : Marker where
  markerId := "m1"
  markerType := "BLE_OP"
  filePath := "a.py"
  functionName := "f"
  lineStart := 50
  lineEnd := 50

/-- A marker on the first line of the first statement, above the second. -/
def topMarker : Marker := { nestedMarker with lineStart := 1, lineEnd := 1 }

theorem attachMarkerRefs_interval_iff_topMarker :
    (∃ ids, (attachMarkerRefs nestedGraph ([] ++ [topMarker])).1.get? topMarker.markerId =
        some ids ∧ AttachesByInterval nestedGraph topMarker ids) ↔
      (∃ node, node ∈ fnNodes nestedGraph topMarker) ∧ ¬ HidesNode nestedGraph topMarker :=
  attachMarkerRefs_interval_iff nestedGraph [] [] topMarker (fun _ h => nomatch h) (by decide)

/-- The marker within the outer statement is attached to the inner one, which ends above it. -/
theorem nestedMarker_not_attached :
    ¬ ∀ (graph : ReducedGraph) (marker : Marker), marker.lineStart ≤ marker.lineEnd →
      ∃ ids, (attachMarkerRefs graph [marker]).1.get? marker.markerId = some ids ∧
        AttachesByInterval graph marker ids := by
  intro h
  obtain ⟨ids, hids, hattach⟩ := h nestedGraph nestedMarker (by decide)
  have hget := get?_attachMarkerRefs nestedGraph [] [] nestedMarker (fun _ h => nomatch h)
  obtain rfl := Option.some.inj (hids.symm.trans hget)
  refine not_attaches_of_hides (by decide) ?_ hattach
  exact ⟨outerNode, List.mem_cons_self, innerNode, List.mem_cons_of_mem _ List.mem_cons_self,
    by decide, by decide, by decide, by decide⟩

end FloWeaver.Reduction
