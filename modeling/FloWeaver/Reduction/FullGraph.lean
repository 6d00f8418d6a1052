import FloWeaver.Lib.Grouped
import FloWeaver.Reduction.Statements

/-!
# The graph of a file

The statements of the functions of a file, with control flow from each statement to the next one,
data dependences from the last definition of a name to its uses, control dependences from a
compound statement to the statements below it, and exception dependences from a `try` to the
statements in its handlers.  What lies where is read off the ordinals.

* `isExceptionBranchDescendant` — the walk from a statement up to a `try`.
* `flowEdges`, `controlEdges`, `exceptionEdges` — the dependences of a function.
* `buildFullGraph` — the graph of a file; the check of the debug mode is left out.
* `mem_edges_iff` — an edge is in the graph when some function asks for it.
-/

namespace FloWeaver.Reduction

open Py
open Mssu (GraphEdge)

/-! ## Ordinals -/

/-- `s.rsplit(".", 1)[0]` of a text with a dot. -/
def beforeLastDot (s : String) : String :=
  String.ofList ((s.toList.reverse.dropWhile (· ≠ '.')).drop 1).reverse

def nodeOrdinal (nodeId : String) : String :=
  let parts := splitByL (· ≠ ':') nodeId.toList
  if parts.length < 4 then "" else String.ofList (parts.getD (parts.length - 2) [])

def recordOrdinal (row : StatementRecord) : String :=
  if row.ordinal ≠ "" then row.ordinal else nodeOrdinal row.nodeId

/-- Does an ordinal lie below another one? -/
def isBelow (ordinal above : String) : Bool := startsWith ordinal (above ++ ".")

/-- The last record of each ordinal. -/
def byOrdinal (records : List StatementRecord) : OrderedDict String StatementRecord :=
  .ofList ((records.filter (·.ordinal ≠ "")).map fun row => (row.ordinal, row))

/-- The walk up from an ordinal, for a number of steps. -/
def exceptionBranchWalk (tryOrdinal : String) (byOrdinal : OrderedDict String StatementRecord) :
    ℕ → String → Bool
  | 0, _ => false
  | steps + 1, cur =>
      if cur = "" then false
      else match byOrdinal.get? cur with
        | none =>
            if contains cur "." then exceptionBranchWalk tryOrdinal byOrdinal steps
              (beforeLastDot cur)
            else false
        | some row =>
            if row.parentOrdinal = tryOrdinal then isExceptionBlock row.parentBlock
            else if row.parentOrdinal = "" then false
            else exceptionBranchWalk tryOrdinal byOrdinal steps row.parentOrdinal

/-- The ordinals on the way up get shorter, so that their length bounds the walk. -/
def isExceptionBranchDescendant (candidateOrdinal tryOrdinal : String)
    (byOrdinal : OrderedDict String StatementRecord) : Bool :=
  exceptionBranchWalk tryOrdinal byOrdinal candidateOrdinal.toList.length candidateOrdinal

/-! ## The dependences of a function -/

/-- Control flow and data dependences, with the last statement and the last definitions so far. -/
def flowEdges : Option String → OrderedDict String String → List StatementRecord → List GraphEdge
  | _, _, [] => []
  | previous, lastDef, row :: rest =>
      (previous.toList.map fun src => ⟨src, row.nodeId, "CFG_NEXT"⟩) ++
        (row.uses.filterMap fun name =>
          (lastDef.get? name).map fun src => ⟨src, row.nodeId, "DATA_DEP"⟩) ++
        flowEdges (some row.nodeId) (row.defs.foldl (fun d name => d.set name row.nodeId) lastDef)
          rest

def controlKinds : List String := ["If", "Try", "For", "While", "With", "AsyncWith", "Match"]

/-- The records below a record, from top to bottom. -/
def descendantsOf (records : List StatementRecord) (row : StatementRecord) :
    List StatementRecord :=
  sortedBy (fun child => toLex (child.lineStart, child.lineEnd))
    (records.filter fun child => isBelow (recordOrdinal child) (recordOrdinal row))

/-- A compound statement controls the statements below it, or else the next one. -/
def controlEdges (records : List StatementRecord) : List StatementRecord → List GraphEdge
  | [] => []
  | row :: rest =>
      (if controlKinds.contains row.stmtKind then
        let controlled := match descendantsOf records row with
          | [] => rest.take 1
          | below => below
        controlled.map fun child => ⟨row.nodeId, child.nodeId, "CONTROL_DEP"⟩
      else []) ++ controlEdges records rest

/-- Does a `try` ask for an edge to a record? -/
def asksException (records : List StatementRecord) (row candidate : StatementRecord) : Bool :=
  let tryOrdinal := recordOrdinal row
  let candOrdinal := recordOrdinal candidate
  row.stmtKind = "Try" && tryOrdinal ≠ "" && candOrdinal ≠ "" && isBelow candOrdinal tryOrdinal &&
    isExceptionBranchDescendant candOrdinal tryOrdinal (byOrdinal records)

def exceptionDep (src dst : String) : GraphEdge := ⟨src, dst, "EXCEPTION_DEP"⟩

def exceptionEdges (records : List StatementRecord) : List GraphEdge :=
  records.flatMap fun row =>
    (records.filter (asksException records row)).map fun candidate =>
      exceptionDep row.nodeId candidate.nodeId

def functionEdges (records : List StatementRecord) : List GraphEdge :=
  flowEdges none .empty records ++ controlEdges records records ++ exceptionEdges records

/-! ## The graph -/

/-- No edge from a statement to itself, and none twice. -/
def addEdge (edges : List GraphEdge) (edge : GraphEdge) : List GraphEdge :=
  if edge.src = edge.dst ∨ edge ∈ edges then edges else edges ++ [edge]

/-- The records under the names of their functions, from top to bottom. -/
def byFunction (source : SourceFile) : OrderedDict String (List StatementRecord) :=
  (OrderedDict.grouped StatementRecord.functionName (extractStatementRecords source)).mapValues
    (sortedBy StatementRecord.lineStart)

def StatementRecord.toNode (row : StatementRecord) : GraphNode where
  nodeId := row.nodeId
  filePath := row.filePath
  functionName := row.functionName
  lineStart := row.lineStart
  lineEnd := row.lineEnd
  stmtKind := row.stmtKind
  rawRepr := row.rawRepr
  effects := row.effects
  defs := row.defs
  uses := row.uses

theorem keyed_nodes (records : List StatementRecord) :
    ∀ row ∈ (OrderedDict.ofList (records.map fun row => (row.nodeId, row.toNode))).rows,
      row.2.nodeId = row.1 := by
  intro row hrow
  have hmem := OrderedDict.mem_of_get?_ofList (OrderedDict.get?_of_mem_rows hrow)
  obtain ⟨record, -, heq⟩ := List.mem_map.1 hmem
  obtain ⟨hid, hnode⟩ := Prod.mk.inj heq
  rw [← hid, ← hnode]
  rfl

/-- `_build_full_graph`. -/
def buildFullGraph (source : SourceFile) : ReducedGraph where
  nodes := .ofList ((byFunction source).values.flatten.map fun row => (row.nodeId, row.toNode))
  edges := ((byFunction source).values.flatMap functionEdges).foldl addEdge []
  keyed := keyed_nodes _

/-- What is asked for and has two ends is there. -/
theorem mem_foldl_addEdge {asked edges : List GraphEdge} {edge : GraphEdge} :
    edge ∈ asked.foldl addEdge edges ↔ edge ∈ edges ∨ edge ∈ asked ∧ edge.src ≠ edge.dst := by
  induction asked generalizing edges with
  | nil => simp
  | cons e asked ih =>
    rw [List.foldl_cons, ih, addEdge]
    split_ifs with h
    · constructor
      · rintro (hmem | ⟨hmem, hne⟩)
        · exact .inl hmem
        · exact .inr ⟨List.mem_cons_of_mem _ hmem, hne⟩
      · rintro (hmem | ⟨hmem, hne⟩)
        · exact .inl hmem
        · rcases List.mem_cons.1 hmem with rfl | hmem
          · exact .inl (h.resolve_left hne)
          · exact .inr ⟨hmem, hne⟩
    · rw [not_or] at h
      rw [List.mem_append, List.mem_singleton, List.mem_cons]
      constructor
      · rintro ((hmem | rfl) | ⟨hmem, hne⟩)
        · exact .inl hmem
        · exact .inr ⟨.inl rfl, h.1⟩
        · exact .inr ⟨.inr hmem, hne⟩
      · rintro (hmem | ⟨rfl | hmem, hne⟩)
        · exact .inl (.inl hmem)
        · exact .inl (.inr rfl)
        · exact .inr ⟨hmem, hne⟩

/-- An edge is in the graph when some function asks for it. -/
theorem mem_edges_iff {source : SourceFile} {edge : GraphEdge} :
    edge ∈ (buildFullGraph source).edges ↔
      (∃ records ∈ (byFunction source).values, edge ∈ functionEdges records) ∧
        edge.src ≠ edge.dst := by
  rw [buildFullGraph, mem_foldl_addEdge, List.mem_flatMap]
  simp

end FloWeaver.Reduction
