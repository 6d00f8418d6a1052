import FloWeaver.Guard.SchedulerReading
import FloWeaver.Runner.Guard

/-!
# How the runner reads a guard text

The runner follows the depth of the parentheses.  On the text of an expression it finds the
operators of the outermost level, and it drops exactly the parentheses around the whole text.

* `GuardExpr.splitOr`, `Conj.splitAnd` — the operands of the outermost operator.
* `stripParens_paren`, `GuardExpr.stripParens_chars` — the parentheses around a text.
-/

namespace FloWeaver.Guard

open Py ListCut Runner

/-! ## Scanning -/

/-- The pieces of a text between the occurrences of a word outside parentheses. -/
def cutTop (op : Op) (depth : ℕ) (cs : List Char) : List (List Char) :=
  splitTop (padded op) (cs.length + 1) depth cs

/-- More rounds than characters change nothing. -/
theorem splitTop_fuel {token : List Char} (htoken : token ≠ []) : ∀ (n m depth : ℕ)
    (cs : List Char), cs.length < n → cs.length < m →
    splitTop token n depth cs = splitTop token m depth cs
  | 0, _, _, _, h, _ => absurd h (Nat.not_lt_zero _)
  | _, 0, _, _, _, h => absurd h (Nat.not_lt_zero _)
  | n + 1, m + 1, _, [], _, _ => rfl
  | n + 1, m + 1, depth, c :: cs, hn, hm => by
      simp only [List.length_cons] at hn hm
      have hdrop : ((c :: cs).drop token.length).length ≤ cs.length := by
        have := List.length_pos_iff.2 htoken
        simp only [List.length_drop, List.length_cons]
        omega
      have ih := fun d => splitTop_fuel htoken n m d cs (by omega) (by omega)
      have ih' := splitTop_fuel htoken n m 0 ((c :: cs).drop token.length) (by omega) (by omega)
      rw [splitTop, splitTop, ih, ih, ih, ih']

theorem consHead_ne_nil (c : Char) (pieces : List (List Char)) : consHead c pieces ≠ [] := by
  cases pieces <;> exact List.cons_ne_nil _ _

theorem splitTop_ne_nil (token : List Char) (n depth : ℕ) (cs : List Char) :
    splitTop token n depth cs ≠ [] := by
  cases n with
  | zero => exact List.cons_ne_nil _ _
  | succ n =>
    cases cs with
    | nil => exact List.cons_ne_nil _ _
    | cons c cs =>
      rw [splitTop]
      split_ifs
      · exact consHead_ne_nil _ _
      · exact consHead_ne_nil _ _
      · exact List.cons_ne_nil _ _
      · exact consHead_ne_nil _ _

variable (op : Op) (depth : ℕ)

@[simp] theorem cutTop_nil : cutTop op depth [] = [[]] := rfl

theorem cutTop_open (cs : List Char) :
    cutTop op depth ('(' :: cs) = consHead '(' (cutTop op (depth + 1) cs) := by
  rw [cutTop, List.length_cons, splitTop, if_pos rfl, cutTop]

theorem cutTop_close (cs : List Char) :
    cutTop op depth (')' :: cs) = consHead ')' (cutTop op (depth - 1) cs) := by
  rw [cutTop, List.length_cons, splitTop, if_neg (by decide), if_pos rfl, cutTop]

variable {op depth}

/-- A character at which no operator is found goes to the first piece. -/
theorem cutTop_char {c : Char} {cs : List Char} (h1 : c ≠ '(') (h2 : c ≠ ')')
    (h : depth ≠ 0 ∨ (padded op).isPrefixOf (upperL (c :: cs)) = false) :
    cutTop op depth (c :: cs) = consHead c (cutTop op depth cs) := by
  have hno : ¬(decide (depth = 0) && (padded op).isPrefixOf (upperL (c :: cs))) = true := by
    rcases h with h | h <;> simp [h]
  rw [cutTop, List.length_cons, splitTop, if_neg h1, if_neg h2, if_neg hno, cutTop]

/-- The word of an operator between two spaces, outside parentheses, is found. -/
theorem cutTop_word (kw : Keyword op) (cs : List Char) :
    cutTop op 0 (' ' :: (kw.chars ++ ' ' :: cs)) = [] :: cutTop op 0 cs := by
  have hupper : upperL (' ' :: (kw.chars ++ ' ' :: cs)) = padded op ++ upperL cs := by
    have h1 : upperL (kw.chars ++ ' ' :: cs) = op.word ++ ' ' :: upperL cs := by
      rw [upperL_append, kw.spelled]
      rfl
    show (' ' : Char).toUpper :: upperL (kw.chars ++ ' ' :: cs) = _
    rw [h1, padded]
    simp
  have hyes : (decide (0 = 0) && (padded op).isPrefixOf (upperL (' ' :: (kw.chars ++ ' ' :: cs))))
      = true := by
    rw [hupper]
    simp [List.isPrefixOf_iff_prefix]
  have hlen : (padded op).length = kw.chars.length + 2 := by
    rw [padded, ← kw.spelled]
    simp [upperL]
  have hdrop : (' ' :: (kw.chars ++ ' ' :: cs)).drop (padded op).length = cs := by
    rw [hlen]
    simp [List.drop_append]
  rw [cutTop, List.length_cons, splitTop, if_neg (by decide), if_neg (by decide), if_pos hyes,
    hdrop, cutTop, splitTop_fuel (padded_ne_nil op) _ (cs.length + 1)]
  · simp
    omega
  · omega

/-- Text in which no operator is found goes to the first piece. -/
theorem cutTop_append {front rest : List Char}
    (h : ∀ c more, (∃ before, front = before ++ c :: more) → c ≠ '(' ∧ c ≠ ')' ∧
      (depth ≠ 0 ∨ (padded op).isPrefixOf (upperL (c :: (more ++ rest))) = false)) :
    cutTop op depth (front ++ rest) = glue [front] (cutTop op depth rest) := by
  induction front with
  | nil =>
    obtain ⟨p, ps, hcut⟩ := List.exists_cons_of_ne_nil (splitTop_ne_nil (padded op) _ depth rest)
    rw [List.nil_append, cutTop, hcut]
    rfl
  | cons c front ih =>
    obtain ⟨h1, h2, h3⟩ := h c front ⟨[], rfl⟩
    rw [List.cons_append, cutTop_char h1 h2 h3, ih, consHead_eq_glue, ← glue_assoc]
    · rfl
    · rintro d more ⟨before, rfl⟩
      exact h d more ⟨c :: before, rfl⟩

/-- No operator begins at a character of a word or at a parenthesis. -/
theorem not_prefix_of_ne_space {c : Char} (h : c ≠ ' ') (cs : List Char) :
    (padded op).isPrefixOf (upperL (c :: cs)) = false := by
  by_contra hpre
  rw [Bool.not_eq_false, List.isPrefixOf_iff_prefix] at hpre
  obtain ⟨more, hmore⟩ := hpre
  exact h (eq_space_of_toUpper (List.cons.inj hmore).1.symm)

theorem cutTop_chars {w : List Char} (hw : ∀ c ∈ w, isWordChar c = true) (rest : List Char) :
    cutTop op depth (w ++ rest) = glue [w] (cutTop op depth rest) := by
  refine cutTop_append ?_
  rintro c more ⟨before, rfl⟩
  have hc := hw c (by simp)
  have hspace : c ≠ ' ' := by
    rintro rfl
    exact absurd hc (by decide)
  simp only [isWordChar, Bool.and_eq_true, decide_eq_true_eq] at hc
  exact ⟨hc.1.2, hc.2, .inr (not_prefix_of_ne_space hspace _)⟩

/-- Spaces inside parentheses. -/
theorem cutTop_spaces_deep (n : ℕ) (rest : List Char) :
    cutTop op (depth + 1) (spaces n ++ rest) = glue [spaces n] (cutTop op (depth + 1) rest) := by
  refine cutTop_append ?_
  rintro c more ⟨before, hsplit⟩
  obtain ⟨rfl, -⟩ := spaces_split hsplit
  exact ⟨by decide, by decide, .inl (Nat.succ_ne_zero _)⟩

/-- Spaces before a text that does not begin with the word. -/
theorem cutTop_spaces (n : ℕ) {rest : List Char} (hhead : ∀ c ∈ rest.head?, isSpace c = false)
    (hword : upperL (wordOf rest) ≠ op.word) :
    cutTop op 0 (spaces n ++ rest) = glue [spaces n] (cutTop op 0 rest) := by
  refine cutTop_append ?_
  rintro c more ⟨before, hsplit⟩
  obtain ⟨rfl, hmore⟩ := spaces_split hsplit
  refine ⟨by decide, by decide, .inr ?_⟩
  by_contra hpre
  rw [Bool.not_eq_false, List.isPrefixOf_iff_prefix] at hpre
  obtain ⟨tail, htail⟩ := hpre
  obtain ⟨rest', hrest'⟩ := exists_matchSep_of_padded htail.symm
  rw [hmore, matchSep_spaces hhead hword] at hrest'
  exact absurd hrest' (by simp)

/-- Spaces before a further space. -/
theorem cutTop_spaces_space (n : ℕ) (rest : List Char) :
    cutTop op 0 (spaces n ++ ' ' :: rest) = glue [spaces n] (cutTop op 0 (' ' :: rest)) := by
  refine cutTop_append ?_
  rintro c more ⟨before, hsplit⟩
  obtain ⟨rfl, hmore⟩ := spaces_split hsplit
  refine ⟨by decide, by decide, .inr ?_⟩
  obtain ⟨ds, hds⟩ : ∃ ds, more ++ ' ' :: rest = ' ' :: ds := by
    rw [hmore]
    cases more with
    | nil => exact ⟨rest, rfl⟩
    | cons d more => exact ⟨spaces more.length ++ ' ' :: rest, rfl⟩
  rw [hds]
  cases op <;> rfl

theorem cutTop_spaces_free {op : Op} (hop : op ≠ .not) (n : ℕ) {cs rest : List Char}
    (hcs : cs ≠ [] ∧ Trimmed cs) (hfree : StartsFree (cs ++ rest)) :
    cutTop op 0 (spaces n ++ (cs ++ rest)) = glue [spaces n] (cutTop op 0 (cs ++ rest)) :=
  cutTop_spaces n (head_chars_append hcs rest) (hfree op hop)

/-! ## Operands are not cut -/

theorem glue_one (a b : List Char) (xs : List (List Char)) :
    glue [a] (glue [b] xs) = glue [a ++ b] xs := by
  rw [← glue_assoc]
  rfl

theorem cutTop_infix_deep {op op' : Op} (left : ℕ) (kw : Keyword op') (right : ℕ)
    (rest : List Char) : cutTop op (depth + 1) (infixText left kw right ++ rest) =
      glue [infixText left kw right] (cutTop op (depth + 1) rest) := by
  rw [infixText, List.append_assoc, List.append_assoc, cutTop_spaces_deep,
    cutTop_chars kw.isWord, cutTop_spaces_deep, glue_one, glue_one, List.append_assoc]

mutual

theorem Operand.cutTop_deep (op : Op) : ∀ (u : Operand) (depth : ℕ) (rest : List Char),
    cutTop op (depth + 1) (u.chars ++ rest) = glue [u.chars] (cutTop op (depth + 1) rest)
  | .token t, depth, rest => cutTop_chars t.isWord rest
  | .paren left e right, depth, rest => by
      have htext : (Operand.paren left e right).chars ++ rest =
          '(' :: (spaces left ++ (e.chars ++ (spaces right ++ ')' :: rest))) := by
        simp [Operand.chars]
      rw [htext, cutTop_open, cutTop_spaces_deep, GuardExpr.cutTop_deep op e, cutTop_spaces_deep,
        cutTop_close, consHead_eq_glue, consHead_eq_glue, glue_one, glue_one, glue_one, glue_one]
      simp [Operand.chars]
  | .not kw gap u, depth, rest => by
      have htext : (Operand.not kw gap u).chars ++ rest =
          kw.chars ++ (spaces (gap + 1) ++ (u.chars ++ rest)) := by
        simp [Operand.chars]
      rw [htext, cutTop_chars kw.isWord, cutTop_spaces_deep, Operand.cutTop_deep op u, glue_one,
        glue_one]
      simp [Operand.chars]

theorem Conj.cutTop_deep (op : Op) : ∀ (c : Conj) (depth : ℕ) (rest : List Char),
    cutTop op (depth + 1) (c.chars ++ rest) = glue [c.chars] (cutTop op (depth + 1) rest)
  | .one u, depth, rest => Operand.cutTop_deep op u depth rest
  | .and u left kw right c, depth, rest => by
      rw [Conj.chars, List.append_assoc, List.append_assoc, Operand.cutTop_deep op u,
        cutTop_infix_deep, Conj.cutTop_deep op c, glue_one, glue_one, List.append_assoc]

/-- Inside parentheses an expression is not cut. -/
theorem GuardExpr.cutTop_deep (op : Op) : ∀ (e : GuardExpr) (depth : ℕ) (rest : List Char),
    cutTop op (depth + 1) (e.chars ++ rest) = glue [e.chars] (cutTop op (depth + 1) rest)
  | .one c, depth, rest => Conj.cutTop_deep op c depth rest
  | .or c left kw right e, depth, rest => by
      rw [GuardExpr.chars, List.append_assoc, List.append_assoc, Conj.cutTop_deep op c,
        cutTop_infix_deep, GuardExpr.cutTop_deep op e, glue_one, glue_one, List.append_assoc]

end

/-- An operand is not cut. -/
theorem Operand.cutTop_chars {op : Op} (hop : op ≠ .not) (u : Operand) {rest : List Char}
    (h : Follows rest) : cutTop op 0 (u.chars ++ rest) = glue [u.chars] (cutTop op 0 rest) := by
  cases u with
  | token t => exact Guard.cutTop_chars t.isWord rest
  | paren left e right =>
    have htext : (Operand.paren left e right).chars ++ rest =
        '(' :: (spaces left ++ (e.chars ++ (spaces right ++ ')' :: rest))) := by
      simp [Operand.chars]
    rw [htext, cutTop_open, cutTop_spaces_deep, GuardExpr.cutTop_deep op e, cutTop_spaces_deep,
      cutTop_close, consHead_eq_glue, consHead_eq_glue, glue_one, glue_one, glue_one, glue_one]
    simp [Operand.chars]
  | not kw gap u =>
    have htext : (Operand.not kw gap u).chars ++ rest =
        kw.chars ++ (spaces (gap + 1) ++ (u.chars ++ rest)) := by
      simp [Operand.chars]
    rw [htext, Guard.cutTop_chars kw.isWord,
      cutTop_spaces_free hop _ u.trimmed_chars (u.startsFree h),
      Operand.cutTop_chars hop u h, glue_one, glue_one]
    simp [Operand.chars]

/-- A conjunction is not cut at `OR`. -/
theorem Conj.cutTop_chars (c : Conj) {rest : List Char} (h : Follows rest) :
    cutTop .or 0 (c.chars ++ rest) = glue [c.chars] (cutTop .or 0 rest) := by
  cases c with
  | one u => exact Operand.cutTop_chars (by decide) u h
  | and u left kw right c =>
    have hafter : Follows (spaces (right + 1) ++ (c.chars ++ rest)) :=
      follows_cons (by decide) _
    have hword : upperL (wordOf (kw.chars ++ (spaces (right + 1) ++ (c.chars ++ rest)))) ≠
        Op.or.word := by
      rw [wordOf_append kw.isWord hafter, kw.spelled]
      decide
    have hinfix : cutTop .or 0 (infixText left kw right ++ (c.chars ++ rest)) =
        glue [infixText left kw right] (cutTop .or 0 (c.chars ++ rest)) := by
      rw [infixText, List.append_assoc, List.append_assoc,
        cutTop_spaces _ (head_chars_append ⟨kw.ne_nil, trimmed_word kw.isWord⟩ _) hword,
        Guard.cutTop_chars kw.isWord,
        cutTop_spaces_free (by decide) _ c.trimmed_chars (c.startsFree h), glue_one, glue_one,
        List.append_assoc]
    rw [Conj.chars, List.append_assoc, List.append_assoc,
      Operand.cutTop_chars (by decide) u (follows_isInfix left kw right _), hinfix,
      Conj.cutTop_chars c h, glue_one, glue_one, List.append_assoc]

/-! ## Operators are found -/

/-- The operands of the outermost `AND`. -/
def Conj.operands : Conj → List Operand
  | .one u => [u]
  | .and u _ _ _ c => u :: c.operands

/-- The operands of the outermost `OR`. -/
def GuardExpr.alternatives : GuardExpr → List Conj
  | .one c => [c]
  | .or c _ _ _ e => c :: e.alternatives

/-- An operator ends a piece. -/
theorem cutTop_infix {op : Op} (left : ℕ) (kw : Keyword op) (right : ℕ) (rest : List Char) :
    cutTop op 0 (infixText left kw right ++ rest) =
      glue [spaces left] ([] :: cutTop op 0 (spaces right ++ rest)) := by
  have htext : infixText left kw right ++ rest =
      spaces left ++ ' ' :: (kw.chars ++ ' ' :: (spaces right ++ rest)) := by
    have hleft : spaces (left + 1) = spaces left ++ [' '] := List.replicate_succ'
    have hright : spaces (right + 1) = ' ' :: spaces right := rfl
    simp [infixText, hleft, hright]
  rw [htext, cutTop_spaces_space, cutTop_word]

theorem strip_piece (n m : ℕ) {cs : List Char} (hcs : cs ≠ [] ∧ Trimmed cs) :
    stripL (spaces n ++ cs ++ spaces m) = cs := by
  rw [List.append_assoc, stripL_spaces n m hcs.1 hcs.2]

theorem strip_front (n : ℕ) {cs : List Char} (hcs : cs ≠ [] ∧ Trimmed cs) :
    stripL (spaces n ++ cs) = cs := by
  have := strip_piece n 0 hcs
  rwa [show spaces 0 = [] from rfl, List.append_nil] at this

theorem Conj.cutTop_and : ∀ (c : Conj) (n : ℕ),
    (cutTop .and 0 (spaces n ++ c.chars)).map stripL = c.operands.map Operand.chars
  | .one u, n => by
      have hfree : StartsFree (u.chars ++ []) := u.startsFree follows_nil
      have h1 := cutTop_spaces_free (show Op.and ≠ .not by decide) n u.trimmed_chars hfree
      have h2 := Operand.cutTop_chars (show Op.and ≠ .not by decide) u follows_nil
      rw [List.append_nil] at h1 h2
      rw [Conj.chars, h1, h2, glue_one, cutTop_nil]
      show [stripL (spaces n ++ u.chars ++ [])] = [u.chars]
      rw [List.append_nil, strip_front n u.trimmed_chars]
  | .and u left kw right c, n => by
      have hfollow := follows_isInfix left kw right c.chars
      have ih := Conj.cutTop_and c right
      rw [Conj.chars, List.append_assoc,
        cutTop_spaces_free (by decide) n u.trimmed_chars (u.startsFree hfollow),
        Operand.cutTop_chars (by decide) u hfollow, cutTop_infix, glue_one, glue_one]
      show stripL (spaces n ++ u.chars ++ spaces left ++ []) ::
        (cutTop .and 0 (spaces right ++ c.chars)).map stripL = _
      rw [List.append_nil, strip_piece n left u.trimmed_chars, ih]
      rfl

theorem GuardExpr.cutTop_or : ∀ (e : GuardExpr) (n : ℕ),
    (cutTop .or 0 (spaces n ++ e.chars)).map stripL = e.alternatives.map Conj.chars
  | .one c, n => by
      have hfree : StartsFree (c.chars ++ []) := c.startsFree follows_nil
      have h1 := cutTop_spaces_free (show Op.or ≠ .not by decide) n c.trimmed_chars hfree
      have h2 := Conj.cutTop_chars c follows_nil
      rw [List.append_nil] at h1 h2
      rw [GuardExpr.chars, h1, h2, glue_one, cutTop_nil]
      show [stripL (spaces n ++ c.chars ++ [])] = [c.chars]
      rw [List.append_nil, strip_front n c.trimmed_chars]
  | .or c left kw right e, n => by
      have hfollow := follows_isInfix left kw right e.chars
      have ih := GuardExpr.cutTop_or e right
      rw [GuardExpr.chars, List.append_assoc,
        cutTop_spaces_free (by decide) n c.trimmed_chars (c.startsFree hfollow),
        Conj.cutTop_chars c hfollow, cutTop_infix, glue_one, glue_one]
      show stripL (spaces n ++ c.chars ++ spaces left ++ []) ::
        (cutTop .or 0 (spaces right ++ e.chars)).map stripL = _
      rw [List.append_nil, strip_piece n left c.trimmed_chars, ih]
      rfl

theorem splitBoolExpr_eq {op : Op} {cs : List Char} {parts : List (List Char)}
    (h : (cutTop op 0 cs).map stripL = parts) (hparts : ∀ p ∈ parts, p ≠ []) :
    splitBoolExpr cs op.word = parts := by
  have hfilter : parts.filter (fun part => !part.isEmpty) = parts :=
    List.filter_eq_self.2 fun p hp => by simpa using hparts p hp
  have heq : splitBoolExpr cs op.word =
      if parts.length = 1 then parts else parts.filter fun part => !part.isEmpty := by
    rw [← h]
    rfl
  rw [heq, hfilter, ite_self]

/-- The alternatives of an expression. -/
theorem GuardExpr.splitOr (e : GuardExpr) :
    splitBoolExpr e.chars Op.or.word = e.alternatives.map Conj.chars := by
  refine splitBoolExpr_eq (e.cutTop_or 0) ?_
  rintro p hp
  obtain ⟨c, -, rfl⟩ := List.mem_map.1 hp
  exact c.trimmed_chars.1

/-- The operands of a conjunction. -/
theorem Conj.splitAnd (c : Conj) :
    splitBoolExpr c.chars Op.and.word = c.operands.map Operand.chars := by
  refine splitBoolExpr_eq (c.cutTop_and 0) ?_
  rintro p hp
  obtain ⟨u, -, rfl⟩ := List.mem_map.1 hp
  exact u.trimmed_chars.1

/-! ## Parentheses around a text -/

theorem closesAtEnd_open (depth : ℕ) (cs : List Char) :
    closesAtEnd depth ('(' :: cs) = closesAtEnd (depth + 1) cs := by
  rw [closesAtEnd, if_pos rfl]

theorem closesAtEnd_close (depth : ℕ) (cs : List Char) : closesAtEnd depth (')' :: cs) =
    if depth - 1 = 0 && !cs.isEmpty then false else closesAtEnd (depth - 1) cs := by
  rw [closesAtEnd, if_neg (by decide), if_pos rfl]

theorem closesAtEnd_chars {w : List Char} (hw : ∀ c ∈ w, c ≠ '(' ∧ c ≠ ')') (depth : ℕ)
    (rest : List Char) : closesAtEnd depth (w ++ rest) = closesAtEnd depth rest := by
  induction w with
  | nil => rfl
  | cons c w ih =>
    obtain ⟨h1, h2⟩ := hw c List.mem_cons_self
    rw [List.cons_append, closesAtEnd, if_neg h1, if_neg h2,
      ih fun d hd => hw d (List.mem_cons_of_mem _ hd)]

theorem no_paren_of_isWord {w : List Char} (hw : ∀ c ∈ w, isWordChar c = true) :
    ∀ c ∈ w, c ≠ '(' ∧ c ≠ ')' := by
  intro c hc
  have := hw c hc
  simp only [isWordChar, Bool.and_eq_true, decide_eq_true_eq] at this
  exact ⟨this.1.2, this.2⟩

theorem no_paren_spaces (n : ℕ) : ∀ c ∈ spaces n, c ≠ '(' ∧ c ≠ ')' := by
  intro c hc
  rw [List.eq_of_mem_replicate hc]
  decide

theorem closesAtEnd_infix {op : Op} (left : ℕ) (kw : Keyword op) (right depth : ℕ)
    (rest : List Char) :
    closesAtEnd depth (infixText left kw right ++ rest) = closesAtEnd depth rest := by
  rw [infixText, List.append_assoc, List.append_assoc, closesAtEnd_chars (no_paren_spaces _),
    closesAtEnd_chars (no_paren_of_isWord kw.isWord), closesAtEnd_chars (no_paren_spaces _)]

mutual

theorem Operand.closesAtEnd_deep : ∀ (u : Operand) (depth : ℕ) (rest : List Char),
    closesAtEnd (depth + 1) (u.chars ++ rest) = closesAtEnd (depth + 1) rest
  | .token t, depth, rest => closesAtEnd_chars (no_paren_of_isWord t.isWord) _ rest
  | .paren left e right, depth, rest => by
      have htext : (Operand.paren left e right).chars ++ rest =
          '(' :: (spaces left ++ (e.chars ++ (spaces right ++ ')' :: rest))) := by
        simp [Operand.chars]
      rw [htext, closesAtEnd_open, closesAtEnd_chars (no_paren_spaces _),
        GuardExpr.closesAtEnd_deep e, closesAtEnd_chars (no_paren_spaces _), closesAtEnd_close]
      simp
  | .not kw gap u, depth, rest => by
      have htext : (Operand.not kw gap u).chars ++ rest =
          kw.chars ++ (spaces (gap + 1) ++ (u.chars ++ rest)) := by
        simp [Operand.chars]
      rw [htext, closesAtEnd_chars (no_paren_of_isWord kw.isWord),
        closesAtEnd_chars (no_paren_spaces _), Operand.closesAtEnd_deep u]

theorem Conj.closesAtEnd_deep : ∀ (c : Conj) (depth : ℕ) (rest : List Char),
    closesAtEnd (depth + 1) (c.chars ++ rest) = closesAtEnd (depth + 1) rest
  | .one u, depth, rest => Operand.closesAtEnd_deep u depth rest
  | .and u left kw right c, depth, rest => by
      rw [Conj.chars, List.append_assoc, List.append_assoc, Operand.closesAtEnd_deep u,
        closesAtEnd_infix, Conj.closesAtEnd_deep c]

/-- An expression closes the parentheses that it opens. -/
theorem GuardExpr.closesAtEnd_deep : ∀ (e : GuardExpr) (depth : ℕ) (rest : List Char),
    closesAtEnd (depth + 1) (e.chars ++ rest) = closesAtEnd (depth + 1) rest
  | .one c, depth, rest => Conj.closesAtEnd_deep c depth rest
  | .or c left kw right e, depth, rest => by
      rw [GuardExpr.chars, List.append_assoc, List.append_assoc, Conj.closesAtEnd_deep c,
        closesAtEnd_infix, GuardExpr.closesAtEnd_deep e]

end

/-- The first parenthesis closes with its operand. -/
theorem closesAtEnd_paren (left : ℕ) (e : GuardExpr) (right : ℕ) (rest : List Char) :
    closesAtEnd 0 ((Operand.paren left e right).chars ++ rest) = rest.isEmpty := by
  have htext : (Operand.paren left e right).chars ++ rest =
      '(' :: (spaces left ++ (e.chars ++ (spaces right ++ ')' :: rest))) := by
    simp [Operand.chars]
  rw [htext, closesAtEnd_open, closesAtEnd_chars (no_paren_spaces _),
    GuardExpr.closesAtEnd_deep e, closesAtEnd_chars (no_paren_spaces _), closesAtEnd_close]
  cases rest <;> simp [closesAtEnd]

/-- Does the runner drop parentheses around the text? -/
def Enclosed (text : List Char) : Prop :=
  (text.head? = some '(' && text.getLast? = some ')' && closesAtEnd 0 text) = true

theorem stripParensLoop_enclosed {text : List Char} (h : Enclosed text) (fuel : ℕ) :
    stripParensLoop (fuel + 1) text = stripParensLoop fuel (stripL (text.drop 1).dropLast) := by
  rw [stripParensLoop]
  exact if_pos h

theorem stripParensLoop_other {text : List Char} (h : ¬Enclosed text) (fuel : ℕ) :
    stripParensLoop fuel text = text := by
  cases fuel with
  | zero => rfl
  | succ fuel =>
    rw [stripParensLoop]
    exact if_neg h

theorem length_stripL_le (cs : List Char) : (stripL cs).length ≤ cs.length := by
  rw [stripL, List.length_reverse]
  refine (List.dropWhile_sublist _).length_le.trans ?_
  rw [List.length_reverse]
  exact (List.dropWhile_sublist _).length_le

/-- More rounds than characters change nothing. -/
theorem stripParensLoop_fuel : ∀ (n m : ℕ) (text : List Char), text.length ≤ n →
    text.length ≤ m → stripParensLoop n text = stripParensLoop m text := by
  intro n
  induction n with
  | zero =>
    intro m text hn _
    obtain rfl : text = [] := List.length_eq_zero_iff.1 (Nat.le_zero.1 hn)
    rw [stripParensLoop_other (by simp [Enclosed]), stripParensLoop_other (by simp [Enclosed])]
  | succ n ih =>
    intro m text hn hm
    by_cases h : Enclosed text
    · cases m with
      | zero =>
        obtain rfl : text = [] := List.length_eq_zero_iff.1 (Nat.le_zero.1 hm)
        exact absurd h (by simp [Enclosed])
      | succ m =>
        have hlen := length_stripL_le (text.drop 1).dropLast
        simp only [List.length_dropLast, List.length_drop] at hlen
        rw [stripParensLoop_enclosed h, stripParensLoop_enclosed h, ih m _ (by omega) (by omega)]
    · rw [stripParensLoop_other h, stripParensLoop_other h]

theorem stripParens_paren (left : ℕ) (e : GuardExpr) (right : ℕ) :
    stripParens (Operand.paren left e right).chars = stripParens e.chars := by
  have hcloses := closesAtEnd_paren left e right []
  rw [List.append_nil] at hcloses
  have htext : (Operand.paren left e right).chars =
      '(' :: (spaces left ++ (e.chars ++ spaces right) ++ [')']) := by
    simp [Operand.chars]
  have hinner : ((Operand.paren left e right).chars.drop 1).dropLast =
      spaces left ++ (e.chars ++ spaces right) := by
    rw [htext]
    simp only [List.drop_succ_cons, List.drop_zero, List.dropLast_concat]
  have hlast : (Operand.paren left e right).chars.getLast? = some ')' := by
    rw [htext, ← List.cons_append]
    exact List.getLast?_concat
  have henclosed : Enclosed (Operand.paren left e right).chars := by
    rw [Enclosed, hcloses, hlast, htext]
    simp
  obtain ⟨hne, htrim⟩ := e.trimmed_chars
  have hlen : (Operand.paren left e right).chars.length =
      (left + e.chars.length + right + 1) + 1 := by
    rw [htext]
    simp [spaces]
    omega
  rw [stripParens, stripParens, stripL_eq_self (Operand.trimmed_chars _).2, stripL_eq_self htrim,
    hlen, stripParensLoop_enclosed henclosed, hinner, stripL_spaces left right hne htrim]
  exact stripParensLoop_fuel _ _ _ (by omega) le_rfl

theorem Operand.not_enclosed (u : Operand) {rest : List Char} (hrest : rest ≠ []) :
    ¬Enclosed (u.chars ++ rest) := by
  intro h
  simp only [Enclosed, Bool.and_eq_true, decide_eq_true_eq] at h
  obtain ⟨⟨hhead, -⟩, hcloses⟩ := h
  have hword : ∀ {w : List Char}, w ≠ [] → (∀ c ∈ w, isWordChar c = true) → ∀ more : List Char,
      (w ++ more).head? ≠ some '(' := by
    intro w hne hw more heq
    rw [List.head?_append_of_ne_nil _ hne] at heq
    exact absurd (hw _ (List.mem_of_mem_head? heq)) (by decide)
  cases u with
  | token t => exact hword t.ne_nil t.isWord rest hhead
  | paren left e right =>
    rw [closesAtEnd_paren] at hcloses
    exact hrest (List.isEmpty_iff.1 hcloses)
  | not kw gap u =>
    rw [Operand.chars, List.append_assoc, List.append_assoc] at hhead
    exact hword kw.ne_nil kw.isWord _ hhead

theorem Operand.not_enclosed_self {u : Operand} (hu : ∀ left e right, u ≠ .paren left e right) :
    ¬Enclosed u.chars := by
  intro h
  simp only [Enclosed, Bool.and_eq_true, decide_eq_true_eq] at h
  obtain ⟨⟨hhead, -⟩, -⟩ := h
  cases u with
  | token t => exact absurd (t.isWord _ (List.mem_of_mem_head? hhead)) (by decide)
  | paren left e right => exact hu left e right rfl
  | not kw gap u =>
    rw [Operand.chars, List.append_assoc, List.head?_append_of_ne_nil _ kw.ne_nil] at hhead
    exact absurd (kw.isWord _ (List.mem_of_mem_head? hhead)) (by decide)

theorem Conj.not_enclosed (c : Conj) {rest : List Char} (hrest : rest ≠ []) :
    ¬Enclosed (c.chars ++ rest) := by
  cases c with
  | one u => exact u.not_enclosed hrest
  | and u left kw right c =>
    rw [Conj.chars, List.append_assoc, List.append_assoc]
    exact u.not_enclosed (by simp [infixText, spaces, List.replicate_succ])

theorem stripParens_of_not_enclosed {cs : List Char} (ht : Trimmed cs) (h : ¬Enclosed cs) :
    stripParens cs = cs := by
  rw [stripParens, stripL_eq_self ht, stripParensLoop_other h]

/-- Without parentheses around it the text of an expression stays as it is. -/
theorem GuardExpr.stripParens_chars {e : GuardExpr}
    (he : ∀ left e' right, e ≠ .one (.one (.paren left e' right))) :
    stripParens e.chars = e.chars := by
  refine stripParens_of_not_enclosed e.trimmed_chars.2 ?_
  cases e with
  | or c left kw right e =>
    rw [GuardExpr.chars, List.append_assoc]
    exact c.not_enclosed (by simp [infixText, spaces, List.replicate_succ])
  | one c =>
    cases c with
    | one u => exact Operand.not_enclosed_self fun left e right hu => he left e right (by rw [hu])
    | and u left kw right c =>
      rw [GuardExpr.chars, Conj.chars, List.append_assoc]
      exact u.not_enclosed (by simp [infixText, spaces, List.replicate_succ])

end FloWeaver.Guard
