import FloWeaver.Lib.Dotted
import FloWeaver.Mssu.Records
import FloWeaver.Py.Sort

/-!
# Statements and their ordinals

The reducer works on the statements of the functions of a file.  A statement has an ordinal, the
dotted path of its places in the blocks that it lies in; the places are counted in each block from
zero, and the ordinal does not tell which block of a compound statement was meant.

* `Stmt`, `childStatementBlocks` — a statement and its blocks.
* `iterNestedStatements` — the statements of a body with their ordinals.
* `extractStatementRecords` — the records of a file.
* `nesting_iterNestedStatements` — ordinals are texts of paths, and every path that leads to a
  statement passes statements only.
-/

namespace FloWeaver.Reduction

/-- What a statement shows of itself. -/
structure StmtInfo where
  kind : String
  lineStart : ℕ
  lineEnd : ℕ
  rawRepr : String := ""
  defs : List String := []
  uses : List String := []
  effects : List String := []

/-- A statement with the bodies that it may have. -/
inductive Stmt where
  | mk (info : StmtInfo) (body orelse finalbody : List Stmt) (handlers cases : List (List Stmt))

inductive BlockLabel where
  | body
  | orelse
  | finalbody
  | except
  | matchCase
deriving DecidableEq

def Stmt.info : Stmt → StmtInfo
  | .mk info _ _ _ _ _ => info

/-- The blocks of a statement, those without a statement left out. -/
def childStatementBlocks : Stmt → List (BlockLabel × List Stmt)
  | .mk _ body orelse finalbody handlers cases =>
      ([(BlockLabel.body, body), (.orelse, orelse), (.finalbody, finalbody)] ++
        handlers.map (BlockLabel.except, ·) ++ cases.map (BlockLabel.matchCase, ·)).filter
          fun block => !block.2.isEmpty

theorem ne_nil_of_mem_childStatementBlocks {stmt : Stmt} {block : BlockLabel × List Stmt}
    (h : block ∈ childStatementBlocks stmt) : block.2 ≠ [] := by
  obtain ⟨info, body, orelse, finalbody, handlers, cases⟩ := stmt
  simpa using (List.mem_filter.1 h).2

/-- Definitions are not entered; their bodies are functions of their own. -/
def isDefinition (info : StmtInfo) : Bool :=
  ["FunctionDef", "AsyncFunctionDef", "ClassDef"].contains info.kind

/-- A statement and its place. -/
structure NestedStmt where
  stmt : Stmt
  ordinal : String
  parentOrdinal : String
  parentBlock : BlockLabel

/-! ## The statements of a body -/

mutual

/-- The statements in the blocks of a statement. -/
def Stmt.nested (ordinal : String) : Stmt → List NestedStmt
  | .mk info body orelse finalbody handlers cases =>
      if isDefinition info then []
      else nestedBlock ordinal .body 0 body ++ nestedBlock ordinal .orelse 0 orelse ++
        nestedBlock ordinal .finalbody 0 finalbody ++ nestedBlocks ordinal .except handlers ++
        nestedBlocks ordinal .matchCase cases

/-- The statements of a block from a place on, each followed by those in its own blocks. -/
def nestedBlock (parent : String) (label : BlockLabel) : ℕ → List Stmt → List NestedStmt
  | _, [] => []
  | idx, stmt :: rest =>
      ⟨stmt, nextDotted parent idx, parent, label⟩ ::
        (stmt.nested (nextDotted parent idx) ++ nestedBlock parent label (idx + 1) rest)

def nestedBlocks (parent : String) (label : BlockLabel) : List (List Stmt) → List NestedStmt
  | [] => []
  | block :: rest => nestedBlock parent label 0 block ++ nestedBlocks parent label rest

end

/-- `_iter_nested_statements` from the body of a function. -/
def iterNestedStatements (stmts : List Stmt) : List NestedStmt := nestedBlock "" .body 0 stmts

theorem nestedBlocks_eq (parent : String) (label : BlockLabel) (blocks : List (List Stmt)) :
    nestedBlocks parent label blocks = blocks.flatMap (nestedBlock parent label 0) := by
  induction blocks with
  | nil => rfl
  | cons block blocks ih => rw [nestedBlocks, ih, List.flatMap_cons]

/-- The blocks are gone through one by one. -/
theorem Stmt.nested_eq (stmt : Stmt) (ordinal : String) :
    stmt.nested ordinal = if isDefinition stmt.info then [] else
      (childStatementBlocks stmt).flatMap fun block => nestedBlock ordinal block.1 0 block.2 := by
  obtain ⟨info, body, orelse, finalbody, handlers, cases⟩ := stmt
  have hfilter : ∀ blocks : List (BlockLabel × List Stmt),
      ((blocks.filter fun block => !block.2.isEmpty).flatMap fun block =>
        nestedBlock ordinal block.1 0 block.2) =
      blocks.flatMap fun block => nestedBlock ordinal block.1 0 block.2 := by
    intro blocks
    induction blocks with
    | nil => rfl
    | cons block blocks ih =>
      rw [List.filter_cons, List.flatMap_cons]
      obtain ⟨label, stmts⟩ := block
      cases stmts with
      | nil => simpa [nestedBlock] using ih
      | cons stmt stmts => simpa using ih
  rw [Stmt.nested, childStatementBlocks, hfilter, List.flatMap_append, List.flatMap_append,
    List.flatMap_map, List.flatMap_map, nestedBlocks_eq, nestedBlocks_eq]
  simp [Stmt.info]

/-! ## Places -/

/-- The statements below a path: their ordinals are texts of paths, each lies directly below the
path or below another one of them, and with a statement come those in its blocks. -/
structure Nesting (path : List ℕ) (rows : List NestedStmt) : Prop where
  placed : ∀ row ∈ rows, ∃ p i, row.ordinal = dotted (p ++ [i]) ∧ row.parentOrdinal = dotted p ∧
    (p = path ∨ ∃ above ∈ rows, above.ordinal = dotted p)
  closed : ∀ row ∈ rows, row.stmt.nested row.ordinal ⊆ rows

namespace Nesting

variable {path : List ℕ} {rows more : List NestedStmt}

theorem nil : Nesting path [] := ⟨by simp, by simp⟩

theorem append (h : Nesting path rows) (h' : Nesting path more) : Nesting path (rows ++ more) where
  placed row hrow := by
    rcases List.mem_append.1 hrow with hrow | hrow
    · obtain ⟨p, i, hordinal, hparent, habove⟩ := h.placed row hrow
      refine ⟨p, i, hordinal, hparent, habove.imp_right ?_⟩
      exact fun ⟨above, hmem, habove⟩ => ⟨above, List.mem_append_left _ hmem, habove⟩
    · obtain ⟨p, i, hordinal, hparent, habove⟩ := h'.placed row hrow
      refine ⟨p, i, hordinal, hparent, habove.imp_right ?_⟩
      exact fun ⟨above, hmem, habove⟩ => ⟨above, List.mem_append_right _ hmem, habove⟩
  closed row hrow := by
    rcases List.mem_append.1 hrow with hrow | hrow
    · exact List.Subset.trans (h.closed row hrow) (List.subset_append_left _ _)
    · exact List.Subset.trans (h'.closed row hrow) (List.subset_append_right _ _)

/-- A statement in front of those in its blocks. -/
theorem cons {idx : ℕ} {stmt : Stmt} {label : BlockLabel}
    (h : Nesting (path ++ [idx]) (stmt.nested (dotted (path ++ [idx])))) :
    Nesting path (⟨stmt, dotted (path ++ [idx]), dotted path, label⟩ ::
      stmt.nested (dotted (path ++ [idx]))) where
  placed row hrow := by
    rcases List.mem_cons.1 hrow with rfl | hrow
    · exact ⟨path, idx, rfl, rfl, .inl rfl⟩
    · obtain ⟨p, i, hordinal, hparent, rfl | ⟨above, hmem, habove⟩⟩ := h.placed row hrow
      · exact ⟨_, i, hordinal, hparent, .inr ⟨_, List.mem_cons_self, rfl⟩⟩
      · exact ⟨p, i, hordinal, hparent, .inr ⟨above, List.mem_cons_of_mem _ hmem, habove⟩⟩
  closed row hrow := by
    rcases List.mem_cons.1 hrow with rfl | hrow
    · exact List.subset_cons_self _ _
    · exact List.Subset.trans (h.closed row hrow) (List.subset_cons_self _ _)

end Nesting

mutual

theorem Stmt.nesting : ∀ (stmt : Stmt) (path : List ℕ), Nesting path (stmt.nested (dotted path))
  | .mk info body orelse finalbody handlers cases, path => by
      rw [Stmt.nested]
      split_ifs
      · exact .nil
      · exact ((((nesting_nestedBlock body .body 0 path).append
          (nesting_nestedBlock orelse .orelse 0 path)).append
          (nesting_nestedBlock finalbody .finalbody 0 path)).append
          (nesting_nestedBlocks handlers .except path)).append
          (nesting_nestedBlocks cases .matchCase path)

theorem nesting_nestedBlock : ∀ (stmts : List Stmt) (label : BlockLabel) (idx : ℕ)
    (path : List ℕ), Nesting path (nestedBlock (dotted path) label idx stmts)
  | [], _, _, _ => .nil
  | stmt :: rest, label, idx, path => by
      rw [nestedBlock, ← dotted_concat, ← List.cons_append]
      exact (Nesting.cons (stmt.nesting (path ++ [idx]))).append
        (nesting_nestedBlock rest label (idx + 1) path)

theorem nesting_nestedBlocks : ∀ (blocks : List (List Stmt)) (label : BlockLabel)
    (path : List ℕ), Nesting path (nestedBlocks (dotted path) label blocks)
  | [], _, _ => .nil
  | block :: rest, label, path =>
      (nesting_nestedBlock block label 0 path).append (nesting_nestedBlocks rest label path)

end

theorem nesting_iterNestedStatements (stmts : List Stmt) :
    Nesting [] (iterNestedStatements stmts) := nesting_nestedBlock stmts .body 0 []

/-! ## Records -/

/-- Handlers and the final block are entered after an exception. -/
def isExceptionBlock (label : BlockLabel) : Bool := label = .except || label = .finalbody

/-- A `try` has a body, and a handler or a final block. -/
structure CompleteTry (stmt : Stmt) : Prop where
  body : ∃ block ∈ childStatementBlocks stmt, block.1 = .body
  handled : ∃ block ∈ childStatementBlocks stmt, isExceptionBlock block.1 = true

/-- A function as it is parsed: the name is an identifier, and no `try` is without a handler. -/
structure FunctionNode where
  name : String
  body : List Stmt
  named : ':' ∉ name.toList
  complete : ∀ row ∈ iterNestedStatements body, row.stmt.info.kind = "Try" → CompleteTry row.stmt

/-- A file: its path, the digits of the hash of the path, and the functions found in it. -/
structure SourceFile where
  filePath : String
  fileSig : String
  functions : List FunctionNode

structure StatementRecord where
  nodeId : String
  filePath : String
  functionName : String
  lineStart : ℤ
  lineEnd : ℤ
  stmtKind : String
  rawRepr : String
  defs : List String
  uses : List String
  effects : List String
  ordinal : String
  parentOrdinal : String
  parentBlock : BlockLabel

def nodeIdOf (fileSig functionName ordinal : String) (line : ℕ) : String :=
  fileSig ++ ":" ++ functionName ++ ":" ++ ordinal ++ ":" ++ toString line

def statementRecord (source : SourceFile) (fn : FunctionNode) (row : NestedStmt) :
    StatementRecord where
  nodeId := nodeIdOf source.fileSig fn.name row.ordinal row.stmt.info.lineStart
  filePath := source.filePath
  functionName := fn.name
  lineStart := row.stmt.info.lineStart
  lineEnd := row.stmt.info.lineEnd
  stmtKind := row.stmt.info.kind
  rawRepr := row.stmt.info.rawRepr
  defs := row.stmt.info.defs
  uses := row.stmt.info.uses
  effects := row.stmt.info.effects
  ordinal := row.ordinal
  parentOrdinal := row.parentOrdinal
  parentBlock := row.parentBlock

def extractStatementRecords (source : SourceFile) : List StatementRecord :=
  source.functions.flatMap fun fn =>
    (iterNestedStatements fn.body).map (statementRecord source fn)

end FloWeaver.Reduction
