import FloWeaver.Guard.Expr

/-!
# Words and spaces in a guard text

* `isWordChar_toUpper` — capital letters keep the words of a text.
* `wordOf`, `upper_wordOf_of_isPrefix` — the first word of a text in which an operator is found.
* `wordOf_chars_ne` — an expression does not begin with the word `AND` or `OR`.
* `stripL_eq_self`, `trimmed_chars` — the text of an expression is trimmed.
-/

namespace FloWeaver.Guard

open Py

/-! ## Characters -/

/-- A character that is no letter is its own capital. -/
theorem toUpper_eq_self {c : Char} (h : isWordChar c = false) : c.toUpper = c := by
  refine Char.ext_iff.2 (UInt32.toNat_inj.1 ?_)
  have hn := toNat_toUpper c
  rw [if_neg] at hn
  · exact hn
  · rintro ⟨h1, h2⟩
    simp only [isWordChar, Bool.and_eq_false_iff, Bool.not_eq_false', isSpace,
      Bool.or_eq_true, Bool.and_eq_true, decide_eq_true_eq, decide_eq_false_iff_not,
      Decidable.not_not] at h
    rcases h with (h | rfl) | rfl
    · omega
    · simp at h1
    · simp at h1

/-- Capital letters keep the words. -/
theorem isWordChar_toUpper (c : Char) : isWordChar c.toUpper = isWordChar c := by
  by_cases h : isWordChar c = false
  · rw [toUpper_eq_self h]
  · have hn := toNat_toUpper c
    by_cases hl : 97 ≤ c.toNat ∧ c.toNat ≤ 122
    · rw [if_pos hl] at hn
      rw [Bool.not_eq_false] at h
      rw [h]
      have hp : c.toUpper ≠ '(' ∧ c.toUpper ≠ ')' := by
        constructor <;> rintro hc <;> rw [hc] at hn <;> simp at hn <;> omega
      simp only [isWordChar, isSpace, hn, Bool.and_eq_true, Bool.not_eq_true', decide_eq_true_eq,
        Bool.or_eq_false_iff, Bool.and_eq_false_iff, decide_eq_false_iff_not]
      exact ⟨⟨by omega, hp.1⟩, hp.2⟩
    · rw [if_neg hl] at hn
      rw [Char.ext_iff.2 (UInt32.toNat_inj.1 hn)]

theorem eq_space_of_toUpper {c : Char} (h : c.toUpper = ' ') : c = ' ' := by
  have hword : isWordChar c = false := by
    rw [← isWordChar_toUpper, h]
    decide
  rw [← h, toUpper_eq_self hword]

theorem isWordChar_of_isSpace {c : Char} (h : isSpace c = true) : isWordChar c = false := by
  simp [isWordChar, h]

theorem isSpace_of_isWordChar {c : Char} (h : isWordChar c = true) : isSpace c = false := by
  simp only [isWordChar, Bool.and_eq_true, Bool.not_eq_true'] at h
  exact h.1.1

/-- The letters of an operator. -/
theorem isWordChar_of_mem_word {op : Op} {c : Char} (h : c ∈ op.word) : isWordChar c = true := by
  have hall : op.word.all isWordChar = true := by cases op <;> decide
  exact List.all_eq_true.1 hall c h

theorem word_ne_nil (op : Op) : op.word ≠ [] := by
  cases op <;> decide

theorem word_inj {op op' : Op} (h : op.word = op'.word) : op = op' := by
  cases op <;> cases op' <;> first | rfl | exact absurd h (by decide)

theorem Keyword.isWord {op : Op} (kw : Keyword op) : ∀ c ∈ kw.chars, isWordChar c = true := by
  intro c hc
  have hmem : c.toUpper ∈ upperL kw.chars := List.mem_map_of_mem hc
  rw [kw.spelled] at hmem
  rw [← isWordChar_toUpper]
  exact isWordChar_of_mem_word hmem

theorem Keyword.ne_nil {op : Op} (kw : Keyword op) : kw.chars ≠ [] := by
  intro h
  exact word_ne_nil op (by rw [← kw.spelled, h]; rfl)

/-! ## The first word -/

/-- The word at the front of a text. -/
def wordOf (cs : List Char) : List Char := cs.takeWhile isWordChar

theorem wordOf_append {w rest : List Char} (hw : ∀ c ∈ w, isWordChar c = true)
    (hrest : ∀ c ∈ rest.head?, isWordChar c = false) : wordOf (w ++ rest) = w := by
  rw [wordOf, List.takeWhile_append_of_pos hw]
  cases rest with
  | nil => simp
  | cons c cs => simp [hrest c rfl]

theorem upperL_append (a b : List Char) : upperL (a ++ b) = upperL a ++ upperL b :=
  List.map_append

/-- Where the word of an operator is followed by white space, it is the first word. -/
theorem upper_wordOf_of_isPrefix {op : Op} {cs : List Char}
    (hpre : op.word.isPrefixOf (upperL cs) = true)
    (hnext : ∀ c ∈ (cs.drop op.word.length).head?, isWordChar c = false) :
    upperL (wordOf cs) = op.word := by
  obtain ⟨tail, htail⟩ := List.isPrefixOf_iff_prefix.1 hpre
  have htake : upperL (cs.take op.word.length) = op.word := by
    have := congrArg (List.take op.word.length) htail
    rw [List.take_left] at this
    rw [upperL, List.map_take]
    exact this.symm
  have hword : ∀ c ∈ cs.take op.word.length, isWordChar c = true := by
    intro c hc
    have hmem : c.toUpper ∈ upperL (cs.take op.word.length) := List.mem_map_of_mem hc
    rw [htake] at hmem
    rw [← isWordChar_toUpper]
    exact isWordChar_of_mem_word hmem
  rw [← List.take_append_drop op.word.length cs, wordOf_append hword hnext, htake]

/-! ## Trimmed texts -/

/-- No white space on either side. -/
structure Trimmed (cs : List Char) : Prop where
  head : ∀ c ∈ cs.head?, isSpace c = false
  last : ∀ c ∈ cs.getLast?, isSpace c = false

theorem dropWhile_eq_self {cs : List Char} (h : ∀ c ∈ cs.head?, isSpace c = false) :
    cs.dropWhile isSpace = cs := by
  cases cs with
  | nil => rfl
  | cons c cs => simp [h c rfl]

theorem stripL_eq_self {cs : List Char} (h : Trimmed cs) : stripL cs = cs := by
  rw [stripL, dropWhile_eq_self h.head, dropWhile_eq_self, List.reverse_reverse]
  rw [List.head?_reverse]
  exact h.last

theorem dropWhile_spaces (n : ℕ) {cs : List Char} (h : ∀ c ∈ cs.head?, isSpace c = false) :
    (spaces n ++ cs).dropWhile isSpace = cs := by
  induction n with
  | zero => exact dropWhile_eq_self h
  | succ n ih => simpa [spaces, List.replicate_succ, isSpace] using ih

/-- Trimming drops the spaces around a trimmed text. -/
theorem stripL_spaces (m n : ℕ) {cs : List Char} (hne : cs ≠ []) (h : Trimmed cs) :
    stripL (spaces m ++ (cs ++ spaces n)) = cs := by
  have hhead : ∀ c ∈ (cs ++ spaces n).head?, isSpace c = false := by
    rw [List.head?_append_of_ne_nil _ hne]
    exact h.head
  have hrev : (cs ++ spaces n).reverse = spaces n ++ cs.reverse := by
    simp [spaces, List.reverse_replicate]
  rw [stripL, dropWhile_spaces m hhead, hrev, dropWhile_spaces, List.reverse_reverse]
  rw [List.head?_reverse]
  exact h.last

theorem Trimmed.append {a b : List Char} (ha : a ≠ []) (hb : b ≠ []) (hta : Trimmed a)
    (htb : Trimmed b) (mid : List Char) : Trimmed (a ++ mid ++ b) := by
  constructor
  · rw [List.append_assoc, List.head?_append_of_ne_nil _ ha]
    exact hta.head
  · rw [List.getLast?_append_of_ne_nil _ hb]
    exact htb.last

theorem trimmed_word {w : List Char} (hw : ∀ c ∈ w, isWordChar c = true) : Trimmed w :=
  ⟨fun c hc => isSpace_of_isWordChar (hw c (List.mem_of_mem_head? hc)),
    fun c hc => isSpace_of_isWordChar (hw c (List.mem_of_mem_getLast? hc))⟩

theorem head_chars_append {cs : List Char} (h : cs ≠ [] ∧ Trimmed cs) (rest : List Char) :
    ∀ c ∈ (cs ++ rest).head?, isSpace c = false := by
  rw [List.head?_append_of_ne_nil _ h.1]
  exact h.2.head

mutual

theorem Operand.trimmed_chars : ∀ u : Operand, u.chars ≠ [] ∧ Trimmed u.chars
  | .token t => ⟨t.ne_nil, trimmed_word t.isWord⟩
  | .paren left e right => by
      refine ⟨by simp [Operand.chars], ?_, ?_⟩
      · simp [Operand.chars, isSpace]
      · intro c hc
        rw [Operand.chars, List.getLast?_concat] at hc
        rw [← Option.some.inj hc]
        decide
  | .not kw gap u => by
      obtain ⟨hne, ht⟩ := Operand.trimmed_chars u
      exact ⟨by simp [Operand.chars, hne], (trimmed_word kw.isWord).append kw.ne_nil hne ht _⟩

theorem Conj.trimmed_chars : ∀ c : Conj, c.chars ≠ [] ∧ Trimmed c.chars
  | .one u => Operand.trimmed_chars u
  | .and u left kw right c => by
      obtain ⟨h1, h2⟩ := Operand.trimmed_chars u
      obtain ⟨h3, h4⟩ := Conj.trimmed_chars c
      exact ⟨by simp [Conj.chars, h1], h2.append h1 h3 h4 _⟩

/-- The text of an expression is not empty, and trimmed. -/
theorem GuardExpr.trimmed_chars : ∀ e : GuardExpr, e.chars ≠ [] ∧ Trimmed e.chars
  | .one c => Conj.trimmed_chars c
  | .or c left kw right e => by
      obtain ⟨h1, h2⟩ := Conj.trimmed_chars c
      obtain ⟨h3, h4⟩ := GuardExpr.trimmed_chars e
      exact ⟨by simp [GuardExpr.chars, h1], h2.append h1 h3 h4 _⟩

end

/-! ## The first word of an expression -/

/-- The text begins neither with the word `AND` nor with the word `OR`. -/
def StartsFree (cs : List Char) : Prop := ∀ op : Op, op ≠ .not → upperL (wordOf cs) ≠ op.word

/-- What may follow an expression: nothing, a space or a closing parenthesis. -/
def Follows (rest : List Char) : Prop := ∀ c ∈ rest.head?, isWordChar c = false

theorem follows_nil : Follows [] := by simp [Follows]

theorem follows_cons {c : Char} (h : isWordChar c = false) (cs : List Char) : Follows (c :: cs) := by
  simpa [Follows] using h

theorem follows_spaces (n : ℕ) {rest : List Char} (h : Follows rest) :
    Follows (spaces n ++ rest) := by
  cases n with
  | zero => exact h
  | succ n => exact follows_cons (by decide) _

theorem follows_isInfix {op : Op} (left : ℕ) (kw : Keyword op) (right : ℕ) (rest : List Char) :
    Follows (infixText left kw right ++ rest) := by
  rw [infixText, List.append_assoc, List.append_assoc]
  exact follows_cons (by decide) _

mutual

theorem Operand.startsFree : ∀ (u : Operand) {rest : List Char}, Follows rest →
    StartsFree (u.chars ++ rest)
  | .token t, rest, h => by
      intro op _
      rw [Operand.chars, wordOf_append t.isWord h]
      exact t.not_op op
  | .paren left e right, rest, _ => by
      intro op _
      have : wordOf ((Operand.paren left e right).chars ++ rest) = [] := by
        simp [Operand.chars, wordOf, isWordChar]
      rw [this]
      exact (word_ne_nil op).symm
  | .not kw gap u, rest, _ => by
      intro op hop
      have hrest : ∀ c ∈ (spaces (gap + 1) ++ u.chars ++ rest).head?, isWordChar c = false :=
        follows_cons (by decide) _
      rw [Operand.chars, List.append_assoc, List.append_assoc, ← List.append_assoc (spaces _),
        wordOf_append kw.isWord hrest, kw.spelled]
      exact fun h => hop (word_inj h).symm

theorem Conj.startsFree : ∀ (c : Conj) {rest : List Char}, Follows rest →
    StartsFree (c.chars ++ rest)
  | .one u, _, h => Operand.startsFree u h
  | .and u left kw right c, rest, _ => by
      rw [Conj.chars, List.append_assoc, List.append_assoc]
      exact Operand.startsFree u (follows_isInfix left kw right _)

/-- An expression begins neither with the word `AND` nor with the word `OR`. -/
theorem GuardExpr.startsFree : ∀ (e : GuardExpr) {rest : List Char}, Follows rest →
    StartsFree (e.chars ++ rest)
  | .one c, _, h => Conj.startsFree c h
  | .or c left kw right e, rest, _ => by
      rw [GuardExpr.chars, List.append_assoc, List.append_assoc]
      exact Conj.startsFree c (follows_isInfix left kw right _)

end

end FloWeaver.Guard
