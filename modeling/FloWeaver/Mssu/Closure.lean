import FloWeaver.Mssu.Records
import FloWeaver.Py.Sort

/-!
# The nodes of an MSSU

An MSSU starts from the nodes of its marker.  Around them the builder collects the context that
they depend on, a few steps along the edges, less what earlier MSSUs have claimed, and cuts the
result down to a limit.

* `expandClosure` — the context of the seed nodes.
* `claimNodes`, `borrowOverlapContext` — what is left by the earlier MSSUs, and what is borrowed.
* `pruneToCap` — the nodes that are kept under the limit.
* `deriveIO` — what the nodes read, write and do.
-/

namespace FloWeaver.Mssu

open Py

/-- The limits of the builder. -/
structure Builder where
  closureDepth : ℤ := 2
  maxNodesPerMssu : ℤ := 48

/-! ## Limits -/

/-- How far the context of overlapping nodes is borrowed. -/
def overlapBorrowDepth (marker : Marker) : ℕ :=
  if ["UNSUBSCRIBE", "ENTRY_UNLOAD", "ENTRY_REMOVE", "BLE_DISCONNECT", "DISCONNECT"].contains
      marker.type then 2
  else if upper (strip marker.phase) = Phase.teardown then 2
  else 1

def closureDepthForMarker (builder : Builder) (marker : Marker) : ℕ :=
  let depth := (max 1 builder.closureDepth).toNat
  if ["CLOUD_HTTP_CALL", "CLOUD_OP", "STATE_WRITE"].contains marker.type then 1
  else if ["BLE_CONNECT", "BLE_GATT_OP", "BLE_DISCONNECT"].contains marker.type then min depth 2
  else if ["ENTRY_SETUP", "ENTRY_UNLOAD", "ENTRY_REMOVE"].contains marker.type then min depth 2
  else depth

/-- The kinds of edges that are followed backwards and forwards. -/
def closureEdgeTypes (marker : Marker) : List String × List String :=
  if ["CLOUD_HTTP_CALL", "CLOUD_OP"].contains marker.type then
    (["DATA_DEP", "EXCEPTION_DEP"], ["EXCEPTION_DEP"])
  else if marker.type = "STATE_WRITE" then (["DATA_DEP", "EXCEPTION_DEP"], ["EXCEPTION_DEP"])
  else
    (["DATA_DEP", "CONTROL_DEP", "LIFECYCLE_DEP", "EXCEPTION_DEP"],
      ["LIFECYCLE_DEP", "EXCEPTION_DEP"])

def maxNodesForMarker (builder : Builder) (marker : Marker) : ℕ :=
  let defaultCap := (max 8 builder.maxNodesPerMssu).toNat
  if ["CLOUD_HTTP_CALL", "CLOUD_OP"].contains marker.type then min defaultCap 12
  else if marker.type = "STATE_WRITE" then min defaultCap 8
  else if marker.type = "BLE_GATT_OP" then min defaultCap 16
  else if ["ENTRY_SETUP", "ENTRY_UNLOAD", "ENTRY_REMOVE"].contains marker.type then
    min defaultCap 24
  else defaultCap

/-! ## Closure -/

section Closure

variable (graph : ReducedGraph)

/-- The nodes one step away from the frontier, less those that are kept already. -/
def nextFrontier (edgeTypes : List String × List String) (keep frontier : List String) :
    List String :=
  ((frontier.flatMap fun nodeId =>
    ((graph.backward nodeId).filter fun edge => edgeTypes.1.contains edge.edgeType).map (·.src) ++
      ((graph.forward nodeId).filter fun edge => edgeTypes.2.contains edge.edgeType).map
        (·.dst)).filter (!keep.contains ·)).eraseDups

/-- The kept nodes after a number of steps; the steps end when nothing is new or too much is
kept. -/
def expandSteps (edgeTypes : List String × List String) (maxExpansion : ℕ) :
    ℕ → List String → List String → List String
  | 0, keep, _ => keep
  | depth + 1, keep, frontier =>
      if frontier.isEmpty ∨ maxExpansion ≤ keep.length then keep
      else
        let next := nextFrontier graph edgeTypes keep frontier
        expandSteps edgeTypes maxExpansion depth (keep ++ next) next

def expandClosure (builder : Builder) (marker : Marker) (seedNodes : List String) : List String :=
  let depthLimit := closureDepthForMarker builder marker
  let depthLimit := if marker.strength = "MEDIUM" then max 1 (depthLimit - 1) else depthLimit
  expandSteps graph (closureEdgeTypes marker) (maxNodesForMarker builder marker * 2) depthLimit
    seedNodes seedNodes

/-- The nodes that are not assigned yet, and the seeds. -/
def claimNodes (closedNodes seedNodes assignedNodes : List String) : List String :=
  closedNodes.filter fun nodeId => !assignedNodes.contains nodeId || seedNodes.contains nodeId

/-- The unassigned sources of data and exceptions, some steps backwards. -/
def borrowSteps (assignedNodes : List String) : ℕ → List String → List String → List String
  | 0, seen, _ => seen
  | depth + 1, seen, frontier =>
      if frontier.isEmpty then seen
      else
        let next := ((frontier.flatMap fun nodeId =>
          ((graph.backward nodeId).filter fun edge =>
            ["DATA_DEP", "EXCEPTION_DEP"].contains edge.edgeType).map (·.src)).filter fun nodeId =>
              !assignedNodes.contains nodeId && !seen.contains nodeId).eraseDups
        borrowSteps assignedNodes depth (seen ++ next) next

def borrowOverlapContext (marker : Marker) (closedNodes overlapSeedNodes assignedNodes :
    List String) : List String :=
  if overlapSeedNodes.isEmpty then closedNodes
  else if ["CLOUD_HTTP_CALL", "CLOUD_OP", "STATE_WRITE"].contains marker.type then closedNodes
  else
    let seen := borrowSteps graph assignedNodes (overlapBorrowDepth marker) overlapSeedNodes
      overlapSeedNodes
    (closedNodes ++ seen.drop overlapSeedNodes.length).eraseDups

/-- The kinds of the edges into an overlapping node. -/
def overlapDepKinds (nodeId : String) : List String :=
  let kinds := ((graph.backward nodeId).map (·.edgeType)).filter fun kind =>
    ["DATA_DEP", "LIFECYCLE_DEP", "EXCEPTION_DEP"].contains kind
  if kinds.isEmpty then ["CONTROL_DEP"] else kinds.eraseDups

/-! ## The limit -/

/-- The distances from the seeds inside a set of nodes, level by level. -/
def distanceLevels (nodeIds : List String) : ℕ → ℕ → List String → List (String × ℕ) →
    List (String × ℕ)
  | 0, _, _, distance => distance
  | fuel + 1, level, frontier, distance =>
      let next := ((frontier.flatMap fun nodeId =>
        (graph.backward nodeId).map (·.src) ++ (graph.forward nodeId).map (·.dst)).filter
          fun nodeId => nodeIds.contains nodeId && (distance.lookup nodeId).isNone).eraseDups
      if next.isEmpty then distance
      else
        distanceLevels nodeIds fuel (level + 1) next
          (distance ++ next.map fun nodeId => (nodeId, level + 1))

/-- The nodes that are kept before all others: the seeds, those that do something, and the
conditions that they depend on. -/
def requiredNodes (nodeIds seedNodes extraRequired : List String) :
    Except PyErr (List String) := do
  let rows ← nodeIds.mapM fun nodeId => do
    let node ← graph.node nodeId
    let controls := ((graph.backward nodeId).filter fun edge =>
      edge.edgeType = "CONTROL_DEP" && nodeIds.contains edge.src).map (·.src)
    return (if node.effects.isEmpty && node.markerRefs.isEmpty then [] else [nodeId]) ++ controls
  return seedNodes ++ extraRequired.filter (nodeIds.contains ·) ++ rows.flatten

/-- The nodes of an MSSU under the limit of its marker. -/
def pruneToCap (builder : Builder) (marker : Marker) (nodeIds seedNodes extraRequired :
    List String) : Except PyErr (List String) :=
  let capLimit := maxNodesForMarker builder marker
  if nodeIds.length ≤ capLimit then .ok nodeIds
  else do
    let required ← requiredNodes graph nodeIds seedNodes extraRequired
    let distance := distanceLevels graph nodeIds nodeIds.length 0 seedNodes
      (seedNodes.map fun nodeId => (nodeId, 0))
    let rows ← nodeIds.mapM fun nodeId => do
      let node ← graph.node nodeId
      return (nodeId, node.lineStart)
    let ranked := sortedBy (fun row : String × ℤ =>
      (toLex ((if required.contains row.1 then 0 else 1),
        toLex ((distance.lookup row.1).getD 10000, toLex (row.2, row.1))) :
        ℕ ×ₗ ℕ ×ₗ ℤ ×ₗ String)) rows
    return ((ranked.take capLimit).map (·.1) ++ seedNodes).eraseDups

/-! ## Inputs, outputs and effects -/

/-- The exceptions that the text of a statement names. -/
def exceptionLabels (nodeRawRepr stmtKind : String) : List String :=
  let text := lower nodeRawRepr
  let labels :=
    (if contains text "configentryauthfailed" || contains text "authfailed" then ["AuthFailed"]
      else []) ++
    (if contains text "updatefailed" then ["UpdateFailed"] else []) ++
    (if contains text "timeout" then ["TimeoutError"] else []) ++
    (if contains text "ratelimit" || contains text "toomanyrequests" then ["RateLimitError"]
      else [])
  if stmtKind = "Try" ∧ labels.isEmpty ∧
      ["raise(", "excepthandler(", "return(", "retry", "backoff", "sleep"].any (contains text ·)
  then ["Exception"]
  else labels

/-- What an MSSU reads and writes, what it does, and the exceptions it raises. -/
structure NodeIO where
  inputs : List String
  outputs : List String
  effects : List String
  exceptions : List String

/-- The sets of names are sorted, so that equal sets are equal lists. -/
def deriveIO (nodeIds : List String) : Except PyErr NodeIO := do
  let nodes ← nodeIds.mapM fun nodeId => do
    let node ← graph.node nodeId
    return (nodeId, node)
  let defsIn := nodes.flatMap (·.2.defs)
  let escapes (nodeId : String) :=
    (graph.forward nodeId).any fun edge =>
      !nodeIds.contains edge.dst && ["DATA_DEP", "LIFECYCLE_DEP"].contains edge.edgeType
  return { inputs := sortedSet ((nodes.flatMap (·.2.uses)).filter (!defsIn.contains ·))
           outputs := sortedSet ((nodes.filter fun row => escapes row.1).flatMap (·.2.defs))
           effects := sortedSet (nodes.flatMap (·.2.effects))
           exceptions :=
             sortedSet (nodes.flatMap fun row => exceptionLabels row.2.rawRepr row.2.stmtKind) }

end Closure

end FloWeaver.Mssu
