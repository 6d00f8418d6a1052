import FloWeaver.Mssu.Records
import FloWeaver.Py.Sort
import Mathlib.Data.List.Perm.Basic
import Mathlib.Data.List.Perm.Subperm

/-!
# The order of the visits does not show

As long as no budget of control flow edges runs short, every order of the visits sees the same
statements level by level.

* `Visits` — the order in which every level and the edges of every statement are visited.
* `visitEdge`, `visitNode`, `searchLevels`, `spatialKeepWithPolicy` — the code.
* `Within` — the statements reached by a number of levels, as a set.
* `BudgetSuffices` — the control flow edges that can be charged to a function fit its budget.
* `mem_keepForMarker_iff` — the statements kept for a marker are those within its depth.
* `spatialKeep_order` — the kept set is the same for every order, and with no control flow it is
  the set of the statements a seed depends on within the depth.
* `spatialKeep_depends_on_order` — a budget that runs short makes the order visible.
-/

/-!
## The spatial closure of the markers

From the statements of a marker the reducer walks dependences backwards, level by level, down to
a depth.  Control flow is followed near the markers only, and a budget caps how many of its edges
are followed for each function.  The levels are sets: nothing says in which order their
statements are visited.
-/

namespace FloWeaver.Reduction

open Mssu (GraphEdge)

/-- An order in which the sets of the search are run through: the statements of a level, and the
edges that end at a statement. -/
structure Visits where
  level : String → ℕ → List String → List String
  incoming : String → ℕ → String → List GraphEdge → List GraphEdge
  level_perm : ∀ markerId depth nodes, (level markerId depth nodes).Perm nodes
  incoming_perm : ∀ markerId depth node edges, (incoming markerId depth node edges).Perm edges

/-- The edges followed at every level. -/
def dependenceTypes : List String := ["DATA_DEP", "CONTROL_DEP", "EXCEPTION_DEP", "LIFECYCLE_DEP"]

def cfgNext : String := "CFG_NEXT"

/-- What the search knows of a marker. -/
structure SpatialPolicy where
  markerId : String
  allowedEdgeTypes : List String
  depth : ℤ
  cfgLimit : ℕ
  cfgBackDepth : ℤ

/-- The entries of a marker in the tables, with their defaults. -/
def spatialPolicy (allowedEdgeTypesByMarker : OrderedDict String (List String))
    (depthByMarker cfgLimitByMarker : OrderedDict String ℤ) (cfgBackDepth : ℤ)
    (markerId : String) : SpatialPolicy where
  markerId := markerId
  allowedEdgeTypes :=
    let allowed := (allowedEdgeTypesByMarker.get? markerId).getD
      ["DATA_DEP", "CONTROL_DEP", "EXCEPTION_DEP", "CFG_NEXT"]
    if 0 < cfgBackDepth then allowed ++ [cfgNext] else allowed
  depth := (depthByMarker.get? markerId).getD 0
  cfgLimit := ((cfgLimitByMarker.get? markerId).getD 2).toNat
  cfgBackDepth := cfgBackDepth

/-- The function of a statement, the empty text for a statement that is not in the graph. -/
def functionNameOf (graph : ReducedGraph) (nodeId : String) : String :=
  match graph.nodes.get? nodeId with
  | some node => node.functionName
  | none => ""

/-- The sets of a search: what was seen, the next level, the control flow charged so far. -/
structure Search where
  seen : List String
  next : List String := []
  cfgChainCounts : OrderedDict (String × String) ℕ := .empty

namespace Search

/-- A statement that was not seen goes to the next level. -/
def reach (search : Search) (nodeId : String) : Search :=
  if nodeId ∈ search.seen then search
  else { search with seen := search.seen ++ [nodeId], next := search.next ++ [nodeId] }

/-- What was charged under a key. -/
def count (search : Search) (key : String × String) : ℕ :=
  (search.cfgChainCounts.get? key).getD 0

/-- One more edge charged under a key. -/
def charge (search : Search) (key : String × String) : Search :=
  { search with cfgChainCounts := search.cfgChainCounts.set key (search.count key + 1) }

end Search

variable (graph : ReducedGraph) (policy : SpatialPolicy)

/-- A control flow edge, charged to the function it comes from. -/
def followCfg (search : Search) (edge : GraphEdge) : Search :=
  let fnName := functionNameOf graph edge.src
  if fnName = "" then search.reach edge.src
  else if policy.cfgLimit ≤ search.count (policy.markerId, fnName) then search
  else (search.charge (policy.markerId, fnName)).reach edge.src

/-- One edge that ends at a statement of the level. -/
def visitEdge (curDepth : ℕ) (search : Search) (edge : GraphEdge) : Search :=
  if edge.edgeType ∉ policy.allowedEdgeTypes then search
  else if edge.edgeType ∈ dependenceTypes then search.reach edge.src
  else if edge.edgeType = cfgNext then
    if policy.cfgBackDepth ≤ curDepth then search else followCfg graph policy search edge
  else search

variable (visits : Visits)

/-- The edges that end at a statement, in the order of the visit. -/
def incomingEdges (curDepth : ℕ) (nodeId : String) : List GraphEdge :=
  visits.incoming policy.markerId curDepth nodeId (graph.edges.filter (·.dst = nodeId))

/-- One statement of the level. -/
def visitNode (curDepth : ℕ) (state : List String × Search) (nodeId : String) :
    List String × Search :=
  (state.1 ++ [nodeId],
    (incomingEdges graph policy visits curDepth nodeId).foldl (visitEdge graph policy curDepth)
      state.2)

/-- The levels that are left, from the current one on; the statements that are kept. -/
def searchLevels : ℕ → ℕ → List String → List String → Search → List String
  | 0, _, _, keep, _ => keep
  | levels + 1, curDepth, frontier, keep, search =>
    if frontier = [] then keep
    else
      let state := (visits.level policy.markerId curDepth frontier).foldl
        (visitNode graph policy visits curDepth) (keep, { search with next := [] })
      searchLevels levels (curDepth + 1) state.2.next state.1 state.2

/-- The statements kept for one marker. -/
def keepForMarker (seedNodes : List String) : List String :=
  if policy.depth ≤ 0 then seedNodes
  else
    searchLevels graph policy visits (policy.depth.toNat + 1) 0 seedNodes.eraseDups []
      { seen := seedNodes.eraseDups }

/-- `_spatial_keep_with_policy`: the statements kept for the markers, as a set. -/
def spatialKeepWithPolicy (markerToNodes : OrderedDict String (List String))
    (allowedEdgeTypesByMarker : OrderedDict String (List String))
    (depthByMarker cfgLimitByMarker : OrderedDict String ℤ) (cfgBackDepth : ℤ) : List String :=
  markerToNodes.rows.flatMap fun row =>
    keepForMarker graph (spatialPolicy allowedEdgeTypesByMarker depthByMarker cfgLimitByMarker
      cfgBackDepth row.1) visits row.2

end FloWeaver.Reduction

namespace FloWeaver.Reduction

open Mssu (GraphEdge)

section Marker

variable (graph : ReducedGraph) (policy : SpatialPolicy)

/-! ## Levels as sets -/

/-- An edge that the search follows from a statement of a level. -/
def Usable (level : ℕ) (edge : GraphEdge) : Prop :=
  edge.edgeType ∈ policy.allowedEdgeTypes ∧
    (edge.edgeType ∈ dependenceTypes ∨
      (edge.edgeType = cfgNext ∧ (level : ℤ) < policy.cfgBackDepth ∧
        (functionNameOf graph edge.src = "" ∨ 0 < policy.cfgLimit)))

instance (level : ℕ) (edge : GraphEdge) : Decidable (Usable graph policy level edge) :=
  inferInstanceAs (Decidable (_ ∧ _))

/-- The statements reached from the seeds by a number of levels. -/
def Within (seeds : List String) : ℕ → String → Prop
  | 0, nodeId => nodeId ∈ seeds
  | level + 1, nodeId => Within seeds level nodeId ∨
      ∃ edge ∈ graph.edges, edge.src = nodeId ∧ Usable graph policy level edge ∧
        Within seeds level edge.dst

instance decidableWithin (seeds : List String) :
    ∀ (level : ℕ) (nodeId : String), Decidable (Within graph policy seeds level nodeId)
  | 0, nodeId => inferInstanceAs (Decidable (nodeId ∈ seeds))
  | level + 1, _ =>
    have := decidableWithin seeds level
    inferInstanceAs (Decidable (_ ∨ ∃ edge ∈ graph.edges, _))

/-- A control flow edge that the search can charge to a function. -/
def Charged (seeds : List String) (fnName : String) (edge : GraphEdge) : Prop :=
  (edge.edgeType ∈ policy.allowedEdgeTypes ∧ edge.edgeType = cfgNext ∧
      functionNameOf graph edge.src = fnName) ∧
    0 < policy.depth ∧ 0 < policy.cfgBackDepth ∧
      Within graph policy seeds (min (policy.cfgBackDepth - 1).toNat policy.depth.toNat) edge.dst

instance (seeds : List String) (fnName : String) (edge : GraphEdge) :
    Decidable (Charged graph policy seeds fnName edge) :=
  inferInstanceAs (Decidable (_ ∧ _))

/-- No budget runs short: a function has none, or one for all its edges. -/
def BudgetSuffices (seeds : List String) : Prop :=
  ∀ fnName, fnName ≠ "" → policy.cfgLimit = 0 ∨
    graph.edges.countP (fun edge => Charged graph policy seeds fnName edge) ≤ policy.cfgLimit

variable {graph policy} {seeds : List String}

theorem Usable.of_le {level level' : ℕ} {edge : GraphEdge} (h : Usable graph policy level' edge)
    (hle : level ≤ level') : Usable graph policy level edge := by
  refine ⟨h.1, h.2.imp id fun hcfg => ⟨hcfg.1, ?_, hcfg.2.2⟩⟩
  have := hcfg.2.1
  omega

theorem Within.of_le {level level' : ℕ} {nodeId : String}
    (h : Within graph policy seeds level nodeId) (hle : level ≤ level') :
    Within graph policy seeds level' nodeId := by
  induction hle with
  | refl => exact h
  | step _ ih => exact Or.inl ih

/-! ## One edge -/

/-- The edges after which a search has grown. -/
structure SearchGrows (search search' : Search) (fresh : List String) : Prop where
  seen : search'.seen = search.seen ++ fresh
  next : search'.next = search.next ++ fresh
  nodup : search.seen.Nodup → search'.seen.Nodup

theorem SearchGrows.refl (search : Search) : SearchGrows search search [] :=
  ⟨by simp, by simp, id⟩

theorem SearchGrows.trans {s s' s'' : Search} {fresh fresh' : List String}
    (h : SearchGrows s s' fresh) (h' : SearchGrows s' s'' fresh') :
    SearchGrows s s'' (fresh ++ fresh') where
  seen := by rw [h'.seen, h.seen, List.append_assoc]
  next := by rw [h'.next, h.next, List.append_assoc]
  nodup hnodup := h'.nodup (h.nodup hnodup)

theorem searchGrows_reach (search : Search) (nodeId : String) :
    ∃ fresh, SearchGrows search (search.reach nodeId) fresh := by
  rw [Search.reach]
  split_ifs with h
  · exact ⟨[], .refl search⟩
  · refine ⟨[nodeId], rfl, rfl, fun hnodup => ?_⟩
    exact List.nodup_append.2 ⟨hnodup, List.nodup_singleton _, fun a ha b hb e => by
      rw [List.mem_singleton.1 hb] at e
      exact h (e ▸ ha)⟩

@[simp] theorem Search.mem_seen_reach {search : Search} {nodeId id : String} :
    id ∈ (search.reach nodeId).seen ↔ id ∈ search.seen ∨ id = nodeId := by
  rw [Search.reach]
  split_ifs with h
  · exact ⟨.inl, fun h' => h'.elim (fun hseen => hseen) fun e => e ▸ h⟩
  · simp

@[simp] theorem Search.count_reach (search : Search) (nodeId : String) (key : String × String) :
    (search.reach nodeId).count key = search.count key := by
  rw [Search.reach]
  split_ifs <;> rfl

theorem Search.count_charge (search : Search) (key k : String × String) :
    (search.charge key).count k = if k = key then search.count key + 1 else search.count k := by
  rw [Search.count, Search.charge, OrderedDict.get?_set]
  split_ifs <;> rfl

theorem searchGrows_visitEdge (graph : ReducedGraph) (policy : SpatialPolicy) (level : ℕ)
    (search : Search) (edge : GraphEdge) :
    ∃ fresh, SearchGrows search (visitEdge graph policy level search edge) fresh := by
  rw [visitEdge]
  split_ifs
  · exact searchGrows_reach search edge.src
  · exact ⟨[], .refl search⟩
  · rw [followCfg]
    split_ifs
    · exact searchGrows_reach search edge.src
    · exact ⟨[], .refl search⟩
    · obtain ⟨fresh, h⟩ := searchGrows_reach
        (search.charge (policy.markerId, functionNameOf graph edge.src)) edge.src
      exact ⟨fresh, h.seen, h.next, h.nodup⟩
  · exact ⟨[], .refl search⟩
  · exact ⟨[], .refl search⟩

/-- An edge that has room in its budget is followed exactly when it is usable. -/
theorem mem_seen_visitEdge {level : ℕ} {search : Search} {edge : GraphEdge}
    (hroom : edge.edgeType ∈ policy.allowedEdgeTypes → edge.edgeType = cfgNext →
      (level : ℤ) < policy.cfgBackDepth → functionNameOf graph edge.src ≠ "" →
        policy.cfgLimit = 0 ∨
          search.count (policy.markerId, functionNameOf graph edge.src) < policy.cfgLimit)
    {id : String} :
    id ∈ (visitEdge graph policy level search edge).seen ↔
      id ∈ search.seen ∨ (Usable graph policy level edge ∧ edge.src = id) := by
  have hreach : Usable graph policy level edge → (id ∈ (search.reach edge.src).seen ↔
      id ∈ search.seen ∨ (Usable graph policy level edge ∧ edge.src = id)) := by
    intro husable
    simp [husable, eq_comm]
  have hskip : ¬ Usable graph policy level edge → (id ∈ search.seen ↔
      id ∈ search.seen ∨ (Usable graph policy level edge ∧ edge.src = id)) := by
    intro hnot
    simp [hnot]
  rw [visitEdge]
  split_ifs with hallowed hdep hcfg hback
  · exact hreach ⟨hallowed, .inl hdep⟩
  · refine hskip fun h => h.2.elim hdep fun h' => ?_
    have := h'.2.1
    omega
  · have hlevel : (level : ℤ) < policy.cfgBackDepth := not_le.1 hback
    rw [followCfg]
    split_ifs with hname hfull
    · exact hreach ⟨hallowed, .inr ⟨hcfg, hlevel, .inl hname⟩⟩
    · -- refused: the budget is empty from the start
      refine hskip fun h => h.2.elim hdep fun h' => ?_
      rcases hroom (hallowed) hcfg hlevel hname with hzero | hlt
      · exact h'.2.2.elim hname fun hpos => absurd hpos (by omega)
      · omega
    · have hpos : 0 < policy.cfgLimit := by omega
      have husable : Usable graph policy level edge :=
        ⟨hallowed, .inr ⟨hcfg, hlevel, .inr hpos⟩⟩
      rw [Search.mem_seen_reach]
      simp [husable, eq_comm, Search.charge]
  · exact hskip fun h => h.2.elim hdep fun h' => hcfg h'.1
  · exact hskip fun h => hallowed h.1

/-- What an edge charges to a function. -/
theorem count_visitEdge_le {level : ℕ} {search : Search} {edge : GraphEdge} {fnName : String}
    (hdepth : 0 < policy.depth) (hlevel : level ≤ policy.depth.toNat)
    (hdst : Within graph policy seeds level edge.dst) :
    (visitEdge graph policy level search edge).count (policy.markerId, fnName) ≤
      search.count (policy.markerId, fnName) +
        [edge].countP fun edge => Charged graph policy seeds fnName edge := by
  rw [visitEdge]
  split_ifs with hallowed hdep hcfg hback
  · rw [Search.count_reach]
    exact Nat.le_add_right _ _
  · exact Nat.le_add_right _ _
  · rw [followCfg]
    split_ifs with hname hfull
    · rw [Search.count_reach]
      exact Nat.le_add_right _ _
    · exact Nat.le_add_right _ _
    · rw [Search.count_reach, Search.count_charge]
      split_ifs with hkey
      · obtain rfl : fnName = functionNameOf graph edge.src := (Prod.ext_iff.1 hkey).2
        have hcharged : Charged graph policy seeds (functionNameOf graph edge.src) edge :=
          ⟨⟨hallowed, hcfg, rfl⟩, hdepth, by omega, hdst.of_le (by omega)⟩
        simp [hcharged]
      · exact Nat.le_add_right _ _
  · exact Nat.le_add_right _ _
  · exact Nat.le_add_right _ _

/-! ## The edges of a level -/

theorem searchGrows_foldl_visitEdge (graph : ReducedGraph) (policy : SpatialPolicy) (level : ℕ)
    (edges : List GraphEdge) (search : Search) :
    ∃ fresh, SearchGrows search (edges.foldl (visitEdge graph policy level) search) fresh := by
  induction edges generalizing search with
  | nil => exact ⟨[], .refl search⟩
  | cons edge rest ih =>
    obtain ⟨fresh, h⟩ := searchGrows_visitEdge graph policy level search edge
    obtain ⟨fresh', h'⟩ := ih (visitEdge graph policy level search edge)
    exact ⟨fresh ++ fresh', h.trans h'⟩

theorem subperm_left_of_append {α : Type*} {l l' l'' : List α} (h : (l ++ l').Subperm l'') :
    l.Subperm l'' :=
  (List.sublist_append_left l l').subperm.trans h

/-- The charges stay below what the edges visited so far can charge. -/
def CountsBelow (graph : ReducedGraph) (policy : SpatialPolicy) (seeds : List String)
    (search : Search) (visited : List GraphEdge) : Prop :=
  ∀ fnName, search.count (policy.markerId, fnName) ≤
    visited.countP fun edge => Charged graph policy seeds fnName edge

/-- Edges into statements of a level, none of them visited before: all that are usable are
followed, whatever their order. -/
theorem mem_seen_foldl_visitEdge {level : ℕ} (hfits : BudgetSuffices graph policy seeds)
    (hdepth : 0 < policy.depth) (hlevel : level ≤ policy.depth.toNat)
    (edges visited : List GraphEdge) (search : Search)
    (hsub : (visited ++ edges).Subperm graph.edges)
    (hdst : ∀ edge ∈ edges, Within graph policy seeds level edge.dst)
    (hcounts : CountsBelow graph policy seeds search visited) :
    (∀ id, id ∈ (edges.foldl (visitEdge graph policy level) search).seen ↔ id ∈ search.seen ∨
        ∃ edge ∈ edges, Usable graph policy level edge ∧ edge.src = id) ∧
      CountsBelow graph policy seeds (edges.foldl (visitEdge graph policy level) search)
        (visited ++ edges) := by
  induction edges generalizing visited search with
  | nil =>
    rw [List.append_nil]
    exact ⟨fun id => by simp, hcounts⟩
  | cons edge rest ih =>
    have hhere := hdst edge List.mem_cons_self
    rw [List.append_cons] at hsub
    have hroom : edge.edgeType ∈ policy.allowedEdgeTypes → edge.edgeType = cfgNext →
        (level : ℤ) < policy.cfgBackDepth → functionNameOf graph edge.src ≠ "" →
          policy.cfgLimit = 0 ∨
            search.count (policy.markerId, functionNameOf graph edge.src) < policy.cfgLimit := by
      intro hallowed hcfg hback hname
      refine (hfits _ hname).imp id fun hlimit => ?_
      have hcharged : Charged graph policy seeds (functionNameOf graph edge.src) edge :=
        ⟨⟨hallowed, hcfg, rfl⟩, hdepth, by omega, hhere.of_le (by omega)⟩
      -- the edge itself is among those the budget has room for
      have hle := (subperm_left_of_append hsub).countP_le
        fun e => decide (Charged graph policy seeds (functionNameOf graph edge.src) e)
      have hbelow := hcounts (functionNameOf graph edge.src)
      rw [List.countP_append, List.countP_singleton, if_pos (by simpa using hcharged)] at hle
      omega
    have hnext : CountsBelow graph policy seeds (visitEdge graph policy level search edge)
        (visited ++ [edge]) := by
      intro fnName
      rw [List.countP_append]
      exact (count_visitEdge_le hdepth hlevel hhere).trans (Nat.add_le_add_right (hcounts fnName) _)
    obtain ⟨hseen, hbelow⟩ := ih (visited ++ [edge]) (visitEdge graph policy level search edge)
      hsub (fun e he => hdst e (List.mem_cons_of_mem _ he)) hnext
    rw [List.append_cons]
    refine ⟨fun id => ?_, hbelow⟩
    rw [List.foldl_cons, hseen, mem_seen_visitEdge hroom, or_assoc]
    simp only [List.mem_cons, exists_eq_or_imp]

/-! ## The levels -/

/-- The elements that pass one of two tests that exclude each other. -/
theorem filter_append_filter_perm {α : Type*} (p q : α → Bool) (l : List α)
    (h : ∀ a, p a = true → q a = false) :
    (l.filter p ++ l.filter q).Perm (l.filter fun a => p a || q a) := by
  induction l with
  | nil => exact .nil
  | cons a rest ih =>
    by_cases hp : p a = true
    · simpa [hp, h a hp] using ih
    · by_cases hq : q a = true
      · simpa [hp, hq] using List.perm_middle.trans (ih.cons a)
      · simpa [hp, hq] using ih

variable (visits : Visits)

theorem incomingEdges_perm (level : ℕ) (nodeId : String) :
    (incomingEdges graph policy visits level nodeId).Perm
      (graph.edges.filter (·.dst = nodeId)) :=
  visits.incoming_perm _ _ _ _

/-- The edges into the statements of a level. -/
def levelEdges (graph : ReducedGraph) (policy : SpatialPolicy) (visits : Visits) (level : ℕ)
    (nodes : List String) : List GraphEdge :=
  nodes.flatMap (incomingEdges graph policy visits level)

theorem foldl_visitNode (level : ℕ) (nodes : List String) (state : List String × Search) :
    nodes.foldl (visitNode graph policy visits level) state =
      (state.1 ++ nodes,
        (levelEdges graph policy visits level nodes).foldl (visitEdge graph policy level)
          state.2) := by
  induction nodes generalizing state with
  | nil => simp [levelEdges]
  | cons node rest ih => simp [ih, visitNode, levelEdges, List.foldl_append]

theorem mem_levelEdges {level : ℕ} {nodes : List String} {edge : GraphEdge} :
    edge ∈ levelEdges graph policy visits level nodes ↔
      edge ∈ graph.edges ∧ edge.dst ∈ nodes := by
  rw [levelEdges, List.mem_flatMap]
  constructor
  · rintro ⟨node, hnode, hedge⟩
    have h := (incomingEdges_perm visits level node).mem_iff.1 hedge
    rw [List.mem_filter, decide_eq_true_eq] at h
    exact ⟨h.1, h.2 ▸ hnode⟩
  · rintro ⟨hedge, hdst⟩
    exact ⟨edge.dst, hdst, (incomingEdges_perm visits level edge.dst).mem_iff.2
      (List.mem_filter.2 ⟨hedge, by simp⟩)⟩

theorem levelEdges_perm (level : ℕ) {nodes : List String} (hnodup : nodes.Nodup) :
    (levelEdges graph policy visits level nodes).Perm
      (graph.edges.filter fun edge => decide (edge.dst ∈ nodes)) := by
  induction nodes with
  | nil => simp [levelEdges]
  | cons node rest ih =>
    obtain ⟨hnode, hrest⟩ := List.nodup_cons.1 hnodup
    have hsplit := filter_append_filter_perm (fun edge : GraphEdge => decide (edge.dst = node))
      (fun edge => decide (edge.dst ∈ rest)) graph.edges fun edge h => by
        rw [decide_eq_true_eq] at h
        rw [decide_eq_false_iff_not, h]
        exact hnode
    have hfilter : (graph.edges.filter fun edge => decide (edge.dst ∈ node :: rest)) =
        graph.edges.filter fun edge => decide (edge.dst = node) || decide (edge.dst ∈ rest) := by
      simp only [List.mem_cons, Bool.decide_or]
    rw [hfilter, levelEdges, List.flatMap_cons]
    exact ((incomingEdges_perm visits level node).append (ih hrest)).trans hsplit

/-- The state of the search before a level: `keep` are the statements of the levels before,
`done` the edges that end at them. -/
structure LevelInv (graph : ReducedGraph) (policy : SpatialPolicy) (seeds : List String)
    (level : ℕ) (keep frontier : List String) (search : Search) (done : List GraphEdge) :
    Prop where
  split : search.seen.Perm (keep ++ frontier)
  nodup : search.seen.Nodup
  mem_seen : ∀ id, id ∈ search.seen ↔ Within graph policy seeds level id
  closed : ∀ edge ∈ graph.edges, edge.dst ∈ keep → Usable graph policy level edge →
    edge.src ∈ search.seen
  visited : done.Perm (graph.edges.filter fun edge => decide (edge.dst ∈ keep))
  counts : CountsBelow graph policy seeds search done

theorem levelInv_start (seeds : List String) :
    LevelInv graph policy seeds 0 [] seeds.eraseDups { seen := seeds.eraseDups } [] where
  split := .refl _
  nodup := Py.nodup_eraseDups seeds
  mem_seen _ := List.mem_eraseDups
  closed _ _ h := nomatch h
  visited := by simp
  counts _ := Nat.zero_le _

variable {visits}

/-- A level keeps the invariant: it adds what usable edges lead to. -/
theorem LevelInv.step {level : ℕ} {keep frontier order : List String} {search : Search}
    {done : List GraphEdge} (hfits : BudgetSuffices graph policy seeds)
    (hdepth : 0 < policy.depth) (hlevel : level ≤ policy.depth.toNat)
    (horder : order.Perm frontier)
    (inv : LevelInv graph policy seeds level keep frontier search done) :
    let state := order.foldl (visitNode graph policy visits level)
      (keep, { search with next := [] })
    LevelInv graph policy seeds (level + 1) state.1 state.2.next state.2
      (done ++ levelEdges graph policy visits level order) := by
  have hsplit : search.seen.Perm (keep ++ order) := inv.split.trans (horder.symm.append_left keep)
  have hnodup : (keep ++ order).Nodup := hsplit.nodup_iff.1 inv.nodup
  obtain ⟨-, horderNodup, hdisjoint⟩ := List.nodup_append.1 hnodup
  have hvisited : (done ++ levelEdges graph policy visits level order).Perm
      (graph.edges.filter fun edge => decide (edge.dst ∈ keep ++ order)) := by
    have hor := filter_append_filter_perm (fun edge : GraphEdge => decide (edge.dst ∈ keep))
      (fun edge => decide (edge.dst ∈ order)) graph.edges fun edge h => by
        rw [decide_eq_true_eq] at h
        rw [decide_eq_false_iff_not]
        exact fun h' => hdisjoint _ h _ h' rfl
    simp only [List.mem_append, Bool.decide_or]
    exact (inv.visited.append (levelEdges_perm visits level horderNodup)).trans hor
  have hseen := mem_seen_foldl_visitEdge hfits hdepth hlevel
    (levelEdges graph policy visits level order) done { search with next := [] }
    (hvisited.subperm.trans List.filter_sublist.subperm)
    (fun edge hedge => (inv.mem_seen _).1 (hsplit.mem_iff.2
      (List.mem_append_right _ ((mem_levelEdges visits).1 hedge).2))) inv.counts
  obtain ⟨fresh, hgrows⟩ := searchGrows_foldl_visitEdge graph policy level
    (levelEdges graph policy visits level order) { search with next := [] }
  have hfresh : (List.foldl (visitEdge graph policy level) { search with next := [] }
      (levelEdges graph policy visits level order)).next = fresh := hgrows.next
  dsimp only
  rw [foldl_visitNode]
  refine ⟨?_, hgrows.nodup inv.nodup, fun id => ?_, fun edge hedge hdst husable => ?_, hvisited,
    hseen.2⟩
  · rw [hfresh, hgrows.seen]
    exact hsplit.append_right fresh
  · rw [hseen.1 id]
    constructor
    · rintro (hold | ⟨edge, hedge, husable, hsrc⟩)
      · exact .inl ((inv.mem_seen id).1 hold)
      · obtain ⟨hmem, hdst⟩ := (mem_levelEdges visits).1 hedge
        exact .inr ⟨edge, hmem, hsrc, husable,
          (inv.mem_seen _).1 (hsplit.mem_iff.2 (List.mem_append_right _ hdst))⟩
    · rintro (hold | ⟨edge, hmem, rfl, husable, hwithin⟩)
      · exact .inl ((inv.mem_seen id).2 hold)
      · rcases List.mem_append.1 (hsplit.mem_iff.1 ((inv.mem_seen _).2 hwithin)) with hkeep | hhere
        · exact .inl (inv.closed edge hmem hkeep husable)
        · exact .inr ⟨edge, (mem_levelEdges visits).2 ⟨hmem, hhere⟩, husable, rfl⟩
  · rw [hseen.1]
    have husable' := husable.of_le (Nat.le_succ level)
    rcases List.mem_append.1 hdst with hkeep | hhere
    · exact .inl (inv.closed edge hedge hkeep husable')
    · exact .inr ⟨edge, (mem_levelEdges visits).2 ⟨hedge, hhere⟩, husable', rfl⟩

/-- Before an empty level nothing more is in reach. -/
theorem LevelInv.within_of_nil {level : ℕ} {keep : List String} {search : Search}
    {done : List GraphEdge} (inv : LevelInv graph policy seeds level keep [] search done)
    (more : ℕ) {id : String} (h : Within graph policy seeds (level + more) id) : id ∈ keep := by
  have hkeep : ∀ {x : String}, x ∈ search.seen → x ∈ keep := fun hx => by
    simpa using inv.split.mem_iff.1 hx
  induction more generalizing id with
  | zero => exact hkeep ((inv.mem_seen id).2 h)
  | succ more ih =>
    rcases h with hold | ⟨edge, hedge, rfl, husable, hwithin⟩
    · exact ih hold
    · exact hkeep (inv.closed edge hedge (ih hwithin) (husable.of_le (Nat.le_add_right _ _)))

/-- The run of the levels that are left keeps what is within the depth. -/
theorem mem_searchLevels_iff (hfits : BudgetSuffices graph policy seeds)
    (hdepth : 0 < policy.depth) (levels level : ℕ) (hleft : level + levels = policy.depth.toNat)
    (keep frontier : List String) (search : Search) (done : List GraphEdge)
    (inv : LevelInv graph policy seeds level keep frontier search done) {id : String} :
    id ∈ searchLevels graph policy visits (levels + 1) level frontier keep search ↔
      Within graph policy seeds policy.depth.toNat id := by
  induction levels generalizing level keep frontier search done with
  | zero =>
    obtain rfl : level = policy.depth.toNat := hleft
    rw [searchLevels]
    split_ifs with hempty
    · subst hempty
      rw [← inv.mem_seen id, inv.split.mem_iff, List.append_nil]
    · rw [searchLevels, foldl_visitNode, ← inv.mem_seen id, inv.split.mem_iff]
      exact ((visits.level_perm _ _ frontier).append_left keep).mem_iff
  | succ levels ih =>
    rw [searchLevels]
    split_ifs with hempty
    · subst hempty
      rw [← hleft]
      constructor
      · intro hkeep
        have hseen : id ∈ search.seen := inv.split.mem_iff.2 (by simpa using hkeep)
        exact ((inv.mem_seen id).1 hseen).of_le (Nat.le_add_right _ _)
      · exact inv.within_of_nil (levels + 1)
    · exact ih (level + 1) (by omega) _ _ _ _
        (inv.step hfits hdepth (by omega) (visits.level_perm _ _ frontier))

/-- The statements kept for a marker are those within its depth, whatever the order. -/
theorem mem_keepForMarker_iff (visits : Visits) (hfits : BudgetSuffices graph policy seeds)
    {id : String} :
    id ∈ keepForMarker graph policy visits seeds ↔
      Within graph policy seeds policy.depth.toNat id := by
  rw [keepForMarker]
  split_ifs with hdepth
  · rw [Int.toNat_eq_zero.2 hdepth]
    rfl
  · exact mem_searchLevels_iff hfits (not_le.1 hdepth) _ 0 (Nat.zero_add _) _ _ _ _
      (levelInv_start seeds)

/-! ## Without control flow -/

/-- A way along dependences of the allowed types. -/
inductive DependsOn (graph : ReducedGraph) (allowed : List String) : ℕ → String → String → Prop
  | refl (nodeId : String) : DependsOn graph allowed 0 nodeId nodeId
  | step {length : ℕ} {nodeId : String} (edge : GraphEdge) : edge ∈ graph.edges →
      edge.edgeType ∈ allowed → edge.edgeType ∈ dependenceTypes →
      DependsOn graph allowed length edge.dst nodeId →
      DependsOn graph allowed (length + 1) edge.src nodeId

/-- With no control flow a level more is a dependence more. -/
theorem within_iff_dependsOn (hback : policy.cfgBackDepth ≤ 0) {level : ℕ} {id : String} :
    Within graph policy seeds level id ↔
      ∃ length ≤ level, ∃ seed ∈ seeds,
        DependsOn graph policy.allowedEdgeTypes length id seed := by
  have husable : ∀ (level : ℕ) (edge : GraphEdge), Usable graph policy level edge ↔
      edge.edgeType ∈ policy.allowedEdgeTypes ∧ edge.edgeType ∈ dependenceTypes := by
    intro level edge
    refine and_congr_right fun _ => or_iff_left fun hcfg => ?_
    have := hcfg.2.1
    omega
  induction level generalizing id with
  | zero =>
    constructor
    · exact fun h => ⟨0, le_rfl, id, h, .refl id⟩
    · rintro ⟨length, hlength, seed, hseed, hway⟩
      obtain rfl := Nat.le_zero.1 hlength
      cases hway
      exact hseed
  | succ level ih =>
    constructor
    · rintro (hold | ⟨edge, hedge, rfl, huse, hwithin⟩)
      · obtain ⟨length, hlength, h⟩ := ih.1 hold
        exact ⟨length, Nat.le_succ_of_le hlength, h⟩
      · obtain ⟨length, hlength, seed, hseed, hway⟩ := ih.1 hwithin
        exact ⟨length + 1, Nat.succ_le_succ hlength, seed, hseed,
          .step edge hedge ((husable _ _).1 huse).1 ((husable _ _).1 huse).2 hway⟩
    · rintro ⟨length, hlength, seed, hseed, hway⟩
      cases hway with
      | refl => exact .inl (ih.2 ⟨0, Nat.zero_le _, id, hseed, .refl id⟩)
      | step edge hedge hallowed hdep hway =>
        exact .inr ⟨edge, hedge, rfl, (husable _ _).2 ⟨hallowed, hdep⟩,
          ih.2 ⟨_, Nat.le_of_succ_le_succ hlength, seed, hseed, hway⟩⟩

theorem budgetSuffices_of_nonpos (hback : policy.cfgBackDepth ≤ 0) :
    BudgetSuffices graph policy seeds := by
  intro fnName _
  right
  have hnone : graph.edges.countP (fun edge => Charged graph policy seeds fnName edge) = 0 := by
    rw [List.countP_eq_zero]
    intro edge _ hcharged
    have := (of_decide_eq_true hcharged).2.2.1
    omega
  omega

end Marker

/-! ## All markers -/

section Markers

variable (graph : ReducedGraph) (markerToNodes allowedEdgeTypesByMarker : OrderedDict String (List String))
  (depthByMarker cfgLimitByMarker : OrderedDict String ℤ) (cfgBackDepth : ℤ)

/-- No budget of any marker runs short. -/
def BudgetsSuffice : Prop :=
  ∀ row ∈ markerToNodes.rows, BudgetSuffices graph (spatialPolicy allowedEdgeTypesByMarker
    depthByMarker cfgLimitByMarker cfgBackDepth row.1) row.2

/-- The statements a seed of some marker depends on, along at most the marker's depth of edges of
its allowed types; a depth below zero counts as zero. -/
def DependsWithin (id : String) : Prop :=
  ∃ row ∈ markerToNodes.rows, ∃ seed ∈ row.2, ∃ length : ℕ,
    length ≤ ((depthByMarker.get? row.1).getD 0).toNat ∧
      DependsOn graph ((allowedEdgeTypesByMarker.get? row.1).getD
        ["DATA_DEP", "CONTROL_DEP", "EXCEPTION_DEP", "CFG_NEXT"]) length id seed

variable {graph markerToNodes allowedEdgeTypesByMarker depthByMarker cfgLimitByMarker cfgBackDepth}

theorem mem_spatialKeep_iff (visits : Visits)
    (hfits : BudgetsSuffice graph markerToNodes allowedEdgeTypesByMarker depthByMarker
      cfgLimitByMarker cfgBackDepth) {id : String} :
    id ∈ spatialKeepWithPolicy graph visits markerToNodes allowedEdgeTypesByMarker depthByMarker
        cfgLimitByMarker cfgBackDepth ↔
      ∃ row ∈ markerToNodes.rows, Within graph (spatialPolicy allowedEdgeTypesByMarker
        depthByMarker cfgLimitByMarker cfgBackDepth row.1) row.2
          ((depthByMarker.get? row.1).getD 0).toNat id := by
  rw [spatialKeepWithPolicy, List.mem_flatMap]
  refine exists_congr fun row => and_congr_right fun hrow => ?_
  exact mem_keepForMarker_iff visits (hfits row hrow)

variable (graph markerToNodes allowedEdgeTypesByMarker depthByMarker cfgLimitByMarker cfgBackDepth)

/-- While no budget of control flow edges runs short, every order of the visits keeps the same
statements; and when no control flow is followed, they are exactly those a seed of some marker
depends on within the marker's depth. -/
theorem spatialKeep_order :
    (BudgetsSuffice graph markerToNodes allowedEdgeTypesByMarker depthByMarker cfgLimitByMarker
        cfgBackDepth → ∀ (visits visits' : Visits) (id : String),
      id ∈ spatialKeepWithPolicy graph visits markerToNodes allowedEdgeTypesByMarker
          depthByMarker cfgLimitByMarker cfgBackDepth ↔
        id ∈ spatialKeepWithPolicy graph visits' markerToNodes allowedEdgeTypesByMarker
          depthByMarker cfgLimitByMarker cfgBackDepth) ∧
    (cfgBackDepth ≤ 0 → ∀ (visits : Visits) (id : String),
      id ∈ spatialKeepWithPolicy graph visits markerToNodes allowedEdgeTypesByMarker
          depthByMarker cfgLimitByMarker cfgBackDepth ↔
        DependsWithin graph markerToNodes allowedEdgeTypesByMarker depthByMarker id) := by
  refine ⟨fun hfits visits visits' id => ?_, fun hback visits id => ?_⟩
  · rw [mem_spatialKeep_iff visits hfits, mem_spatialKeep_iff visits' hfits]
  · rw [mem_spatialKeep_iff visits fun row _ => budgetSuffices_of_nonpos hback]
    refine exists_congr fun row => and_congr_right fun _ => ?_
    rw [within_iff_dependsOn (by exact hback)]
    have hallowed : (spatialPolicy allowedEdgeTypesByMarker depthByMarker cfgLimitByMarker
        cfgBackDepth row.1).allowedEdgeTypes = (allowedEdgeTypesByMarker.get? row.1).getD
          ["DATA_DEP", "CONTROL_DEP", "EXCEPTION_DEP", "CFG_NEXT"] :=
      if_neg (not_lt.2 hback)
    rw [hallowed]
    constructor
    · rintro ⟨length, hlength, seed, hseed, hway⟩
      exact ⟨seed, hseed, length, hlength, hway⟩
    · rintro ⟨seed, hseed, length, hlength, hway⟩
      exact ⟨length, hlength, seed, hseed, hway⟩

end Markers

/-! ## A budget that runs short -/

/-- Every set is run through as it is listed. -/
def listedVisits : Visits where
  level _ _ nodes := nodes
  incoming _ _ _ edges := edges
  level_perm _ _ _ := .refl _
  incoming_perm _ _ _ _ := .refl _

/-- Every set is run through backwards. -/
def reversedVisits : Visits where
  level _ _ nodes := nodes.reverse
  incoming _ _ _ edges := edges.reverse
  level_perm _ _ _ := List.reverse_perm _
  incoming_perm _ _ _ _ := List.reverse_perm _

/-- A statement of the function `f`. -/
def statementOf (nodeId : String) : GraphNode := { nodeId := nodeId, functionName := "f" }

/-- Two statements of one function, each with a predecessor in the control flow. -/
def twoChains : ReducedGraph where
  nodes := ⟨["n2", "n3", "n6", "n7"].map fun id => (id, statementOf id), by decide⟩
  edges := [⟨"n2", "n3", cfgNext⟩, ⟨"n6", "n7", cfgNext⟩]
  keyed := by decide

/-- One marker on the two statements. -/
def twoSeeds : OrderedDict String (List String) := ⟨[("m1", ["n3", "n7"])], by decide⟩

/-- One number for the marker. -/
def forMarker (n : ℤ) : OrderedDict String ℤ := ⟨[("m1", n)], List.nodup_singleton _⟩

theorem budgetsSuffice_twoChains :
    BudgetsSuffice twoChains twoSeeds .empty (forMarker 1) (forMarker 2) 1 := by
  intro row hrow fnName _
  obtain rfl := List.mem_singleton.1 hrow
  exact .inr List.countP_le_length

theorem spatialKeep_order_twoChains :
    (∀ (visits visits' : Visits) (id : String),
      id ∈ spatialKeepWithPolicy twoChains visits twoSeeds .empty (forMarker 1) (forMarker 2) 1 ↔
        id ∈ spatialKeepWithPolicy twoChains visits' twoSeeds .empty (forMarker 1)
          (forMarker 2) 1) ∧
    ∀ (visits : Visits) (id : String),
      id ∈ spatialKeepWithPolicy twoChains visits twoSeeds .empty (forMarker 1) (forMarker 2) 0 ↔
        DependsWithin twoChains twoSeeds .empty (forMarker 1) id :=
  ⟨(spatialKeep_order twoChains twoSeeds .empty (forMarker 1) (forMarker 2) 1).1
      budgetsSuffice_twoChains,
    (spatialKeep_order twoChains twoSeeds .empty (forMarker 1) (forMarker 2) 0).2 le_rfl⟩

/-- With room for one edge of the function, the statement visited first takes it; and a depth
below zero keeps the seeds, which are no statements within it. -/
theorem spatialKeep_depends_on_order :
    (¬ ∀ (visits visits' : Visits) (id : String),
      id ∈ spatialKeepWithPolicy twoChains visits twoSeeds .empty (forMarker 1) (forMarker 1) 1 ↔
        id ∈ spatialKeepWithPolicy twoChains visits' twoSeeds .empty (forMarker 1)
          (forMarker 1) 1) ∧
    ¬ ∀ (visits : Visits) (id : String),
      id ∈ spatialKeepWithPolicy twoChains visits twoSeeds .empty (forMarker (-1))
          (forMarker 1) 0 ↔
        ∃ row ∈ twoSeeds.rows, ∃ seed ∈ row.2, ∃ length : ℕ,
          (length : ℤ) ≤ ((forMarker (-1)).get? row.1).getD 0 ∧
            DependsOn twoChains ["DATA_DEP", "CONTROL_DEP", "EXCEPTION_DEP", "CFG_NEXT"]
              length id seed := by
  constructor
  · intro h
    have hlisted : "n2" ∈ spatialKeepWithPolicy twoChains listedVisits twoSeeds .empty
        (forMarker 1) (forMarker 1) 1 := by decide
    have hreversed : "n2" ∉ spatialKeepWithPolicy twoChains reversedVisits twoSeeds .empty
        (forMarker 1) (forMarker 1) 1 := by decide
    exact hreversed ((h listedVisits reversedVisits "n2").1 hlisted)
  · intro h
    obtain ⟨row, hrow, seed, -, length, hlength, -⟩ := (h listedVisits "n3").1 (by decide)
    obtain rfl := List.mem_singleton.1 hrow
    have hdepth : ((forMarker (-1)).get? "m1").getD 0 = -1 := by decide
    rw [hdepth] at hlength
    omega

end FloWeaver.Reduction
