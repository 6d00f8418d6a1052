import FloWeaver.Lib.LastWriter
import FloWeaver.Reduction.FullGraph

/-!
# Which exception dependences a file has

An exception dependence goes from a `try` to a statement below it whose branch, found on the way up,
is a handler or the final block.  The way up is found in a table by ordinals, and the blocks of a
`try` count their statements from zero: the first statement of its body and the first one of a
handler have one ordinal, and the table keeps only one of them.

* `exceptionDep_iff` — a `try` has an edge to a statement below it when the last statement under the
  ordinal of the branch lies in a handler or in the final block.
* `ExceptionDepsExact` — the edges lead to what is in the handlers and the final block.
* `exceptionDepsExact_iff` — that is so for the functions without a `try` only.
* `handledCall_not_exact` — a call in a `try` and one in its handler.
-/

namespace FloWeaver.Reduction

open Py LastWriter

/-! ## Records of a function -/

section Records

variable {source : SourceFile} {row candidate : StatementRecord} {name : String}

/-- The records of the functions with a name. -/
def functionRecords (source : SourceFile) (name : String) : List StatementRecord :=
  sortedBy StatementRecord.lineStart
    ((extractStatementRecords source).filter (·.functionName = name))

theorem mem_functionRecords : row ∈ functionRecords source name ↔
    row ∈ extractStatementRecords source ∧ row.functionName = name := by
  simp [functionRecords]

theorem get?_byFunction (h : row ∈ extractStatementRecords source) :
    (byFunction source).get? row.functionName =
      some (functionRecords source row.functionName) := by
  have hrows := OrderedDict.getD_grouped StatementRecord.functionName
    (extractStatementRecords source) row.functionName
  rw [byFunction, OrderedDict.get?_mapValues, functionRecords]
  cases hget : (OrderedDict.grouped StatementRecord.functionName
      (extractStatementRecords source)).get? row.functionName with
  | some rows =>
    rw [hget] at hrows
    exact congrArg (fun l => some (sortedBy StatementRecord.lineStart l)) hrows
  | none =>
    rw [hget] at hrows
    have hmem : row ∈ (extractStatementRecords source).filter
        (·.functionName = row.functionName) := by simpa using h
    rw [← hrows] at hmem
    exact absurd hmem List.not_mem_nil

/-- The rows of the table by functions. -/
theorem eq_of_mem_values {records : List StatementRecord}
    (h : records ∈ (byFunction source).values) : ∃ name, records = functionRecords source name := by
  obtain ⟨⟨name, records⟩, hrow, rfl⟩ := List.mem_map.1 h
  have hget := OrderedDict.get?_of_mem_rows hrow
  rw [byFunction, OrderedDict.get?_mapValues] at hget
  obtain ⟨rows, hrows, rfl⟩ := Option.map_eq_some_iff.1 hget
  have hgroup := OrderedDict.getD_grouped StatementRecord.functionName
    (extractStatementRecords source) name
  rw [hrows, Option.getD_some] at hgroup
  exact ⟨name, by rw [functionRecords, hgroup]⟩

theorem exists_of_mem_extract (h : row ∈ extractStatementRecords source) :
    ∃ fn ∈ source.functions, ∃ nested ∈ iterNestedStatements fn.body,
      row = statementRecord source fn nested := by
  obtain ⟨fn, hfn, hrow⟩ := List.mem_flatMap.1 h
  obtain ⟨nested, hnested, rfl⟩ := List.mem_map.1 hrow
  exact ⟨fn, hfn, nested, hnested, rfl⟩

/-- A record lies at a path, and what is above it has a record too. -/
theorem placed_of_mem (h : row ∈ functionRecords source name) :
    ∃ p i, row.ordinal = dotted (p ++ [i]) ∧ row.parentOrdinal = dotted p ∧
      (p = [] ∨ ∃ above ∈ functionRecords source name, above.ordinal = dotted p) := by
  obtain ⟨hrow, rfl⟩ := mem_functionRecords.1 h
  obtain ⟨fn, hfn, nested, hnested, rfl⟩ := exists_of_mem_extract hrow
  obtain ⟨p, i, hordinal, hparent, habove⟩ :=
    (nesting_iterNestedStatements fn.body).placed nested hnested
  refine ⟨p, i, hordinal, hparent, habove.imp_right ?_⟩
  rintro ⟨above, hmem, habove⟩
  refine ⟨statementRecord source fn above, mem_functionRecords.2 ⟨?_, rfl⟩, habove⟩
  exact List.mem_flatMap.2 ⟨fn, hfn, List.mem_map_of_mem hmem⟩

theorem recordOrdinal_of_mem (h : row ∈ functionRecords source name) :
    recordOrdinal row = row.ordinal := by
  obtain ⟨p, i, hordinal, -⟩ := placed_of_mem h
  rw [recordOrdinal, if_pos]
  rw [hordinal, ne_eq, dotted_eq_empty_iff]
  exact List.append_ne_nil_of_right_ne_nil _ (List.cons_ne_nil _ _)

theorem toList_nodeIdOf (fileSig functionName ordinal : String) (line : ℕ) :
    (nodeIdOf fileSig functionName ordinal line).toList = fileSig.toList ++ ':' ::
      (functionName.toList ++ ':' :: (ordinal.toList ++ ':' :: (toString line).toList)) := by
  simp [nodeIdOf]

/-- The id of a record tells its function and its ordinal. -/
theorem eq_of_nodeId_eq (hrow : row ∈ extractStatementRecords source)
    (hcandidate : candidate ∈ extractStatementRecords source)
    (h : row.nodeId = candidate.nodeId) :
    row.functionName = candidate.functionName ∧ row.ordinal = candidate.ordinal := by
  have hplaced := placed_of_mem (mem_functionRecords.2 ⟨hrow, rfl⟩)
  have hplaced' := placed_of_mem (mem_functionRecords.2 ⟨hcandidate, rfl⟩)
  obtain ⟨fn, -, nested, -, rfl⟩ := exists_of_mem_extract hrow
  obtain ⟨fn', -, nested', -, rfl⟩ := exists_of_mem_extract hcandidate
  have h := congrArg String.toList h
  simp only [statementRecord, toList_nodeIdOf, List.append_cancel_left_eq, List.cons.injEq,
    true_and] at h
  obtain ⟨hname, h⟩ := eq_of_cut fn.named fn'.named h
  obtain ⟨p, i, hordinal, -⟩ := hplaced
  obtain ⟨q, j, hordinal', -⟩ := hplaced'
  have hcolon (path : List ℕ) : ':' ∉ (dotted path).toList := not_mem_dotted (by decide) rfl
  have hleft : ':' ∉ nested.ordinal.toList := by
    rw [show nested.ordinal = dotted (p ++ [i]) from hordinal]
    exact hcolon _
  have hright : ':' ∉ nested'.ordinal.toList := by
    rw [show nested'.ordinal = dotted (q ++ [j]) from hordinal']
    exact hcolon _
  obtain ⟨hsame, -⟩ := eq_of_cut hleft hright h
  exact ⟨String.toList_injective hname, String.toList_injective hsame⟩

end Records

/-! ## The way up -/

section Walk

variable {source : SourceFile} {name : String} {t : List ℕ} {i : ℕ}

theorem get?_byOrdinal (source : SourceFile) (name ordinal : String) :
    (byOrdinal (functionRecords source name)).get? ordinal =
      lastOf StatementRecord.ordinal (functionRecords source name) ordinal := by
  have hall : (functionRecords source name).filter (·.ordinal ≠ "") =
      functionRecords source name := by
    refine List.filter_eq_self.2 fun row hrow => decide_eq_true ?_
    obtain ⟨p, i, hordinal, -⟩ := placed_of_mem hrow
    rw [hordinal, ne_eq, dotted_eq_empty_iff]
    exact List.append_ne_nil_of_right_ne_nil _ (List.cons_ne_nil _ _)
  rw [byOrdinal, hall, OrderedDict.get?_keyed]

/-- The last record under an ordinal. -/
theorem exists_get?_byOrdinal {path : List ℕ} {j : ℕ}
    (h : ∃ row ∈ functionRecords source name, row.ordinal = dotted (path ++ [j])) :
    ∃ row, (byOrdinal (functionRecords source name)).get? (dotted (path ++ [j])) = some row ∧
      row.parentOrdinal = dotted path ∧
      (path = [] ∨ ∃ above ∈ functionRecords source name, above.ordinal = dotted path) := by
  obtain ⟨row, hrow, hordinal⟩ := h
  obtain ⟨last, hlast⟩ : ∃ last, lastOf StatementRecord.ordinal (functionRecords source name)
      row.ordinal = some last := exists_lastOf hrow
  obtain ⟨hmem, hsame⟩ := mem_of_lastOf hlast
  obtain ⟨p, k, hplaced, hparent, habove⟩ := placed_of_mem hmem
  have hpath : p ++ [k] = path ++ [j] := by
    refine dotted_injective ?_
    rw [← hplaced, hsame, hordinal]
  obtain ⟨rfl, -⟩ := List.append_inj' hpath rfl
  exact ⟨last, by rw [get?_byOrdinal, ← hordinal, hlast], hparent, habove⟩

/-- The way up from a statement below a path ends at the branch it came through. -/
theorem exceptionBranchWalk_eq (rest : List ℕ) (steps : ℕ)
    (hsteps : rest.length < steps)
    (h : ∃ row ∈ functionRecords source name, row.ordinal = dotted (t ++ i :: rest)) :
    exceptionBranchWalk (dotted t) (byOrdinal (functionRecords source name)) steps
        (dotted (t ++ i :: rest)) =
      ((byOrdinal (functionRecords source name)).get? (dotted (t ++ [i]))).any
        fun row => isExceptionBlock row.parentBlock := by
  induction rest using List.reverseRecOn generalizing steps with
  | nil =>
    obtain ⟨steps, rfl⟩ := Nat.exists_eq_add_one_of_ne_zero (Nat.ne_zero_of_lt hsteps)
    obtain ⟨row, hget, hparent, -⟩ := exists_get?_byOrdinal h
    have hne : dotted (t ++ [i]) ≠ "" := by simp [dotted_eq_empty_iff]
    rw [exceptionBranchWalk, if_neg hne, hget]
    dsimp only
    rw [if_pos hparent]
    rfl
  | append_singleton rest j ih =>
    obtain ⟨steps, rfl⟩ := Nat.exists_eq_add_one_of_ne_zero (Nat.ne_zero_of_lt hsteps)
    have hpath : t ++ i :: (rest ++ [j]) = (t ++ i :: rest) ++ [j] := by simp
    rw [hpath] at h ⊢
    obtain ⟨row, hget, hparent, habove⟩ := exists_get?_byOrdinal h
    have hne : dotted (t ++ i :: rest ++ [j]) ≠ "" := by simp [dotted_eq_empty_iff]
    have hother : row.parentOrdinal ≠ dotted t := by
      rw [hparent]
      exact fun heq => by simpa using dotted_injective heq
    have hempty : row.parentOrdinal ≠ "" := by
      rw [hparent, ne_eq, dotted_eq_empty_iff]
      simp
    rw [exceptionBranchWalk, if_neg hne, hget]
    dsimp only
    rw [if_neg hother, if_neg hempty, hparent]
    refine ih steps ?_ (habove.resolve_left (by simp))
    rw [List.length_append, List.length_singleton] at hsteps
    exact Nat.lt_of_succ_lt_succ hsteps

theorem isBelow_iff {t p : List ℕ} (ht : t ≠ []) :
    isBelow (dotted p) (dotted t) = true ↔ ∃ i rest, p = t ++ i :: rest := by
  rw [isBelow, startsWith, List.isPrefixOf_iff_prefix, String.toList_append]
  exact isPrefix_dotted_iff ht

end Walk

/-! ## The edges -/

section Edges

variable {source : SourceFile} {row candidate : StatementRecord}

/-- Flow and control ask for other edges. -/
theorem exceptionDep_mem_functionEdges {records : List StatementRecord} {src dst : String} :
    exceptionDep src dst ∈ functionEdges records ↔ ∃ row ∈ records, ∃ candidate ∈ records,
      asksException records row candidate = true ∧ row.nodeId = src ∧ candidate.nodeId = dst := by
  have hflow : ∀ (rows : List StatementRecord) previous lastDef,
      exceptionDep src dst ∉ flowEdges previous lastDef rows := by
    intro rows
    induction rows with
    | nil => simp [flowEdges]
    | cons row rows ih =>
      intro previous lastDef
      rw [flowEdges, List.mem_append, List.mem_append, not_or, not_or]
      exact ⟨⟨by simp [exceptionDep], by simp [exceptionDep]⟩, ih _ _⟩
  have hcontrol : ∀ rows : List StatementRecord,
      exceptionDep src dst ∉ controlEdges records rows := by
    intro rows
    induction rows with
    | nil => simp [controlEdges]
    | cons row rows ih =>
      rw [controlEdges, List.mem_append, not_or]
      refine ⟨?_, ih⟩
      split_ifs
      · simp [exceptionDep]
      · exact List.not_mem_nil
  rw [functionEdges, List.mem_append, List.mem_append,
    or_iff_right (not_or.2 ⟨hflow _ _ _, hcontrol _⟩), exceptionEdges, List.mem_flatMap]
  refine exists_congr fun row => and_congr_right fun _ => ?_
  simp only [List.mem_map, List.mem_filter, exceptionDep, Mssu.GraphEdge.mk.injEq, and_true,
    and_assoc]

/-- An edge is there when the `try` asks for it among the records of the function. -/
theorem exceptionDep_mem_iff (hrow : row ∈ extractStatementRecords source)
    (hcandidate : candidate ∈ extractStatementRecords source)
    (hname : candidate.functionName = row.functionName) (htry : row.stmtKind = "Try") :
    exceptionDep row.nodeId candidate.nodeId ∈ (buildFullGraph source).edges ↔
      isBelow candidate.ordinal row.ordinal = true ∧
        isExceptionBranchDescendant candidate.ordinal row.ordinal
          (byOrdinal (functionRecords source row.functionName)) = true := by
  have hasks {row candidate : StatementRecord} {name : String}
      (hrow : row ∈ functionRecords source name) (hcand : candidate ∈ functionRecords source name)
      (htry : row.stmtKind = "Try") :
      asksException (functionRecords source name) row candidate = true ↔
        isBelow candidate.ordinal row.ordinal = true ∧
          isExceptionBranchDescendant candidate.ordinal row.ordinal
            (byOrdinal (functionRecords source name)) = true := by
    have hne {row : StatementRecord} (h : row ∈ functionRecords source name) :
        row.ordinal ≠ "" := by
      obtain ⟨p, i, hordinal, -⟩ := placed_of_mem h
      simp [hordinal, dotted_eq_empty_iff]
    simp [asksException, recordOrdinal_of_mem hrow, recordOrdinal_of_mem hcand, htry, hne hrow,
      hne hcand]
  have hmem := mem_functionRecords.2 ⟨hrow, rfl⟩
  have hmem' := mem_functionRecords.2 ⟨hcandidate, hname⟩
  rw [mem_edges_iff]
  constructor
  · rintro ⟨⟨records, hrecords, hedge⟩, -⟩
    obtain ⟨row', hrow', cand', hcand', hask, hid, hid'⟩ :=
      exceptionDep_mem_functionEdges.1 hedge
    obtain ⟨name, rfl⟩ := eq_of_mem_values hrecords
    obtain ⟨hsource, rfl⟩ := mem_functionRecords.1 hrow'
    obtain ⟨hfn, hordinal⟩ := eq_of_nodeId_eq hsource hrow hid
    obtain ⟨-, hordinal'⟩ := eq_of_nodeId_eq (mem_functionRecords.1 hcand').1 hcandidate hid'
    have htry' : row'.stmtKind = "Try" := by
      simp only [asksException, Bool.and_eq_true, decide_eq_true_eq] at hask
      exact hask.1.1.1.1
    have hask' := (hasks hrow' hcand' htry').1 hask
    rwa [hordinal, hordinal', hfn] at hask'
  · intro hask
    have hvalues : functionRecords source row.functionName ∈ (byFunction source).values :=
      List.mem_map_of_mem (OrderedDict.mem_rows_of_get? (get?_byFunction hrow))
    refine ⟨⟨_, hvalues, exceptionDep_mem_functionEdges.2
      ⟨row, hmem, candidate, hmem', (hasks hmem hmem' htry).2 hask, rfl, rfl⟩⟩, fun hid => ?_⟩
    obtain ⟨-, hordinal⟩ := eq_of_nodeId_eq hrow hcandidate hid
    obtain ⟨p, i, hplaced, -⟩ := placed_of_mem hmem
    have hbelow := hask.1
    rw [← hordinal, hplaced, isBelow_iff (by simp)] at hbelow
    obtain ⟨j, rest, hsame⟩ := hbelow
    simp at hsame

/-- **What an exception dependence says**: the last statement under the ordinal of the branch lies
in a handler or in the final block, whichever statement that is. -/
theorem exceptionDep_iff (hrow : row ∈ extractStatementRecords source)
    (hcandidate : candidate ∈ extractStatementRecords source)
    (hname : candidate.functionName = row.functionName) (htry : row.stmtKind = "Try")
    {t : List ℕ} (ht : row.ordinal = dotted t) :
    exceptionDep row.nodeId candidate.nodeId ∈ (buildFullGraph source).edges ↔
      ∃ i rest, candidate.ordinal = dotted (t ++ i :: rest) ∧
        ∃ last, lastOf StatementRecord.ordinal (functionRecords source row.functionName)
          (dotted (t ++ [i])) = some last ∧ isExceptionBlock last.parentBlock = true := by
  have hmem' := mem_functionRecords.2 ⟨hcandidate, hname⟩
  have hne : t ≠ [] := by
    obtain ⟨p, i, hplaced, -⟩ := placed_of_mem (mem_functionRecords.2 ⟨hrow, rfl⟩)
    rw [dotted_injective (ht.symm.trans hplaced)]
    simp
  obtain ⟨p, k, hplaced, -⟩ := placed_of_mem hmem'
  have hwalk (i : ℕ) (rest : List ℕ) (h : candidate.ordinal = dotted (t ++ i :: rest)) :
      isExceptionBranchDescendant candidate.ordinal row.ordinal
        (byOrdinal (functionRecords source row.functionName)) = true ↔
      ∃ last, lastOf StatementRecord.ordinal (functionRecords source row.functionName)
        (dotted (t ++ [i])) = some last ∧ isExceptionBlock last.parentBlock = true := by
    have hlength : rest.length < (dotted (t ++ i :: rest)).toList.length := by
      refine Nat.lt_of_lt_of_le ?_ (length_le_length_dotted _)
      rw [List.length_append, List.length_cons]
      omega
    rw [isExceptionBranchDescendant, h, ht, exceptionBranchWalk_eq rest _ hlength
      ⟨candidate, hmem', h⟩, get?_byOrdinal, Option.any_eq_true]
  rw [exceptionDep_mem_iff hrow hcandidate hname htry]
  constructor
  · rintro ⟨hbelow, hdescendant⟩
    rw [ht, hplaced, isBelow_iff hne] at hbelow
    obtain ⟨i, rest, hpath⟩ := hbelow
    have hordinal : candidate.ordinal = dotted (t ++ i :: rest) := by rw [hplaced, hpath]
    exact ⟨i, rest, hordinal, (hwalk i rest hordinal).1 hdescendant⟩
  · rintro ⟨i, rest, hordinal, hlast⟩
    refine ⟨?_, (hwalk i rest hordinal).2 hlast⟩
    rw [ht, hordinal, isBelow_iff hne]
    exact ⟨i, rest, rfl⟩

end Edges

/-! ## Exactness -/

section Exact

variable {source : SourceFile} {fn : FunctionNode}

/-- The statements in the blocks with some labels, at any depth. -/
def statementsIn (labels : BlockLabel → Bool) (row : NestedStmt) : List NestedStmt :=
  ((childStatementBlocks row.stmt).filter fun block => labels block.1).flatMap fun block =>
    nestedBlock row.ordinal block.1 0 block.2

/-- An exception dependence between two statements of a function. -/
def HasExceptionDep (source : SourceFile) (fn : FunctionNode) (row candidate : NestedStmt) : Prop :=
  exceptionDep (statementRecord source fn row).nodeId (statementRecord source fn candidate).nodeId ∈
    (buildFullGraph source).edges

/-- **Exception dependences are exact**: a `try` has one to each statement in its handlers and its
final block, to no other statement of the function, and so to none in its body or its `else`. -/
structure ExceptionDepsExact (source : SourceFile) (fn : FunctionNode) : Prop where
  handled : ∀ row ∈ iterNestedStatements fn.body, row.stmt.info.kind = "Try" →
    ∀ candidate ∈ statementsIn isExceptionBlock row, HasExceptionDep source fn row candidate
  only : ∀ row ∈ iterNestedStatements fn.body, row.stmt.info.kind = "Try" →
    ∀ candidate ∈ iterNestedStatements fn.body, HasExceptionDep source fn row candidate →
      candidate ∈ statementsIn isExceptionBlock row
  unhandled : ∀ row ∈ iterNestedStatements fn.body, row.stmt.info.kind = "Try" →
    ∀ candidate ∈ statementsIn (fun label => label = .body || label = .orelse) row,
      ¬ HasExceptionDep source fn row candidate

/-- The statements of a block of a `try` are statements of the function. -/
theorem nestedBlock_subset {row : NestedStmt} (hrow : row ∈ iterNestedStatements fn.body)
    (htry : row.stmt.info.kind = "Try") {block : BlockLabel × List Stmt}
    (hblock : block ∈ childStatementBlocks row.stmt) :
    nestedBlock row.ordinal block.1 0 block.2 ⊆ iterNestedStatements fn.body := by
  have hclosed := (nesting_iterNestedStatements fn.body).closed row hrow
  have hdefinition : isDefinition row.stmt.info = false := by
    rw [isDefinition, htry]
    rfl
  rw [Stmt.nested_eq, hdefinition, if_neg Bool.false_ne_true] at hclosed
  exact fun candidate hcandidate => hclosed (List.mem_flatMap.2 ⟨block, hblock, hcandidate⟩)

/-- A block has a first statement, whose ordinal does not tell the block. -/
theorem exists_first {row : NestedStmt} {block : BlockLabel × List Stmt}
    (hblock : block ∈ childStatementBlocks row.stmt) :
    ∃ candidate ∈ nestedBlock row.ordinal block.1 0 block.2,
      candidate.ordinal = nextDotted row.ordinal 0 := by
  have hne := ne_nil_of_mem_childStatementBlocks hblock
  obtain ⟨label, stmts⟩ := block
  cases stmts with
  | nil => exact absurd rfl hne
  | cons stmt rest => exact ⟨_, List.mem_cons_self, rfl⟩

theorem mem_statementsIn {labels : BlockLabel → Bool} {row candidate : NestedStmt}
    {block : BlockLabel × List Stmt} (hblock : block ∈ childStatementBlocks row.stmt)
    (hlabel : labels block.1 = true)
    (hcandidate : candidate ∈ nestedBlock row.ordinal block.1 0 block.2) :
    candidate ∈ statementsIn labels row :=
  List.mem_flatMap.2 ⟨block, List.mem_filter.2 ⟨hblock, hlabel⟩, hcandidate⟩

/-- Statements with one ordinal have the same exception dependences. -/
theorem hasExceptionDep_congr (hfn : fn ∈ source.functions) {row a b : NestedStmt}
    (hrow : row ∈ iterNestedStatements fn.body) (htry : row.stmt.info.kind = "Try")
    (ha : a ∈ iterNestedStatements fn.body) (hb : b ∈ iterNestedStatements fn.body)
    (hsame : a.ordinal = b.ordinal) :
    HasExceptionDep source fn row a ↔ HasExceptionDep source fn row b := by
  have hextract {row : NestedStmt} (h : row ∈ iterNestedStatements fn.body) :
      statementRecord source fn row ∈ extractStatementRecords source :=
    List.mem_flatMap.2 ⟨fn, hfn, List.mem_map_of_mem h⟩
  obtain ⟨p, i, hordinal, -⟩ := placed_of_mem (mem_functionRecords.2 ⟨hextract hrow, rfl⟩)
  have hsame' : (statementRecord source fn a).ordinal = (statementRecord source fn b).ordinal :=
    hsame
  rw [HasExceptionDep, HasExceptionDep, exceptionDep_iff (hextract hrow) (hextract ha) rfl htry
    hordinal, exceptionDep_iff (hextract hrow) (hextract hb) rfl htry hordinal, hsame']

/-- **Exact for the functions without a `try`, and for no other**: the first statement of the body
and the first one of a handler have one ordinal. -/
theorem exceptionDepsExact_iff (hfn : fn ∈ source.functions) :
    ExceptionDepsExact source fn ↔
      ∀ row ∈ iterNestedStatements fn.body, row.stmt.info.kind ≠ "Try" := by
  constructor
  · intro hexact row hrow htry
    obtain ⟨⟨block, hblock, hbody⟩, ⟨handler, hhandler, hlabel⟩⟩ := fn.complete row hrow htry
    obtain ⟨a, ha, hordinal⟩ := exists_first hblock
    obtain ⟨b, hb, hordinal'⟩ := exists_first hhandler
    have hdep := hexact.handled row hrow htry b (mem_statementsIn hhandler hlabel hb)
    refine hexact.unhandled row hrow htry a
      (mem_statementsIn hblock (by rw [hbody]; rfl) ha) ?_
    exact (hasExceptionDep_congr hfn hrow htry (nestedBlock_subset hrow htry hhandler hb)
      (nestedBlock_subset hrow htry hblock ha) (hordinal'.trans hordinal.symm)).1 hdep
  · intro hnone
    exact
      { handled := fun row hrow htry => absurd htry (hnone row hrow)
        only := fun row hrow htry => absurd htry (hnone row hrow)
        unhandled := fun row hrow htry => absurd htry (hnone row hrow) }

end Exact

/-! ## A call and its handler -/

/-- A statement without blocks. -/
def simpleStmt (line : ℕ) : Stmt :=
  .mk { kind := "Expr", lineStart := line, lineEnd := line } [] [] [] [] []

/-- A call in a `try`, and another one in its handler. -/
def handledTry : Stmt :=
  .mk { kind := "Try", lineStart := 2, lineEnd := 5 } [simpleStmt 3] [] [] [[simpleStmt 5]] []

def tryPlace : NestedStmt := ⟨handledTry, "0", "", .body⟩

def bodyPlace : NestedStmt := ⟨simpleStmt 3, "0.0", "0", .body⟩

def handlerPlace : NestedStmt := ⟨simpleStmt 5, "0.0", "0", .except⟩

theorem iterNestedStatements_handledTry :
    iterNestedStatements [handledTry] = [tryPlace, bodyPlace, handlerPlace] := by
  have hzero : nextDotted "" 0 = "0" := by decide +kernel
  have hbelow : nextDotted "0" 0 = "0.0" := by decide +kernel
  simp [iterNestedStatements, nestedBlock, nestedBlocks, handledTry, simpleStmt, Stmt.nested,
    isDefinition, tryPlace, bodyPlace, handlerPlace, hzero, hbelow]

theorem childStatementBlocks_handledTry : childStatementBlocks handledTry =
    [(.body, [simpleStmt 3]), (.except, [simpleStmt 5])] := rfl

theorem completeTry_handledTry : CompleteTry handledTry where
  body := ⟨(.body, [simpleStmt 3]), by simp [childStatementBlocks_handledTry], rfl⟩
  handled := ⟨(.except, [simpleStmt 5]), by simp [childStatementBlocks_handledTry], rfl⟩

def handledCall : FunctionNode where
  name := "update"
  body := [handledTry]
  named := by decide
  complete row hrow htry := by
    rw [iterNestedStatements_handledTry] at hrow
    simp only [List.mem_cons, List.not_mem_nil, or_false] at hrow
    rcases hrow with rfl | rfl | rfl
    · exact completeTry_handledTry
    · exact absurd htry (by decide)
    · exact absurd htry (by decide)

def handledFile : SourceFile := ⟨"update.py", "0a1b2c3d", [handledCall]⟩

theorem exceptionDepsExact_iff_handledCall : handledCall ∈ handledFile.functions ∧
    (ExceptionDepsExact handledFile handledCall ↔
      ∀ row ∈ iterNestedStatements handledCall.body, row.stmt.info.kind ≠ "Try") :=
  ⟨List.mem_cons_self, exceptionDepsExact_iff List.mem_cons_self⟩

/-- The `try` has an exception dependence to the call in its body. -/
theorem handledCall_not_exact : handledCall ∈ handledFile.functions ∧
    ¬ ExceptionDepsExact handledFile handledCall := by
  refine ⟨List.mem_cons_self, fun hexact => ?_⟩
  have hplaces : iterNestedStatements handledCall.body = _ := iterNestedStatements_handledTry
  have htry : tryPlace ∈ iterNestedStatements handledCall.body := by
    rw [hplaces]
    exact List.mem_cons_self
  have hblock : (BlockLabel.body, [simpleStmt 3]) ∈ childStatementBlocks tryPlace.stmt :=
    List.mem_cons_self
  have hfirst : bodyPlace ∈ nestedBlock tryPlace.ordinal .body 0 [simpleStmt 3] := by
    have hbelow : nextDotted "0" 0 = "0.0" := by decide +kernel
    simp [nestedBlock, tryPlace, bodyPlace, hbelow]
  have hbody : bodyPlace ∈ statementsIn (fun label => label = .body || label = .orelse) tryPlace :=
    mem_statementsIn hblock rfl hfirst
  have hdep : HasExceptionDep handledFile handledCall tryPlace bodyPlace := by
    unfold HasExceptionDep
    decide +kernel
  exact hexact.unhandled tryPlace htry rfl bodyPlace hbody hdep

end FloWeaver.Reduction
