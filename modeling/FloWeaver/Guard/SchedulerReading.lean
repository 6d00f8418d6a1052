import FloWeaver.Guard.Words
import FloWeaver.Scheduler.Guard

/-!
# How the scheduler reads a guard text

The scheduler cuts a text at every `OR` and then at every `AND`, whatever the parentheses say.
On the text of an expression that gives its flat reading.

* `cut_induct` — the induction principle of `splitWord`.
* `GuardExpr.cutAll_chars` — the pieces of a text are those of the flat reading.
-/

namespace FloWeaver.Guard

open Py ListCut Scheduler

/-! ## Separators -/

theorem matchSep_of_not_space (word : List Char) {c : Char} (h : isSpace c = false)
    (cs : List Char) : matchSep word (c :: cs) = none := by
  simp [matchSep, h]

/-- White space before white space makes no difference. -/
theorem matchSep_space_space (word : List Char) {c d : Char} (hc : isSpace c = true)
    (hd : isSpace d = true) (cs : List Char) :
    matchSep word (c :: d :: cs) = matchSep word (d :: cs) := by
  simp [matchSep, hc, hd]

/-- What a separator is. -/
theorem matchSep_eq_some {word cs rest : List Char} (h : matchSep word cs = some rest) :
    ∃ c tail d ds, cs = c :: tail ∧ isSpace c = true ∧
      word.isPrefixOf (upperL (tail.dropWhile isSpace)) = true ∧
      (tail.dropWhile isSpace).drop word.length = d :: ds ∧ isSpace d = true ∧
      rest = (d :: ds).dropWhile isSpace := by
  unfold matchSep at h
  split at h
  · simp at h
  · rename_i c tail
    dsimp only at h
    split_ifs at h with hif
    obtain ⟨hc, hpre⟩ := Bool.and_eq_true_iff.1 hif
    rw [List.dropWhile_cons_of_pos hc] at hpre h
    split at h
    · rename_i d ds hdrop
      split_ifs at h with hd
      exact ⟨c, tail, d, ds, rfl, hc, hpre, hdrop, hd, (Option.some.inj h).symm⟩
    · simp at h

theorem matchSep_of_parts (word : List Char) {c d : Char} (tail ds : List Char)
    (hc : isSpace c = true) (hpre : word.isPrefixOf (upperL (tail.dropWhile isSpace)) = true)
    (hdrop : (tail.dropWhile isSpace).drop word.length = d :: ds) (hd : isSpace d = true) :
    matchSep word (c :: tail) = some ((d :: ds).dropWhile isSpace) := by
  simp only [matchSep, List.dropWhile_cons_of_pos hc, hc, hpre, Bool.and_self, if_true, hdrop, hd]

theorem length_of_matchSep {word rest cs : List Char} {c : Char}
    (h : matchSep word (c :: cs) = some rest) : rest.length ≤ cs.length := by
  obtain ⟨c', tail, d, ds, hcs, -, -, hdrop, -, rfl⟩ := matchSep_eq_some h
  obtain ⟨rfl, rfl⟩ := List.cons.inj hcs
  calc ((d :: ds).dropWhile isSpace).length ≤ (d :: ds).length := (List.dropWhile_sublist _).length_le
    _ = ((cs.dropWhile isSpace).drop word.length).length := by rw [hdrop]
    _ ≤ (cs.dropWhile isSpace).length := by simp
    _ ≤ cs.length := (List.dropWhile_sublist _).length_le

/-- A separator of a text is one of every longer text. -/
theorem matchSep_append {word cs rest : List Char} (h : matchSep word cs = some rest)
    (more : List Char) : ∃ rest', matchSep word (cs ++ more) = some rest' := by
  obtain ⟨c, tail, d, ds, rfl, hc, hpre, hdrop, hd, -⟩ := matchSep_eq_some h
  have hne : tail.dropWhile isSpace ≠ [] := by
    intro hnil
    simp [hnil] at hdrop
  have hlen : word.length ≤ (tail.dropWhile isSpace).length := by
    have := congrArg List.length hdrop
    simp at this
    omega
  have hmore : (tail ++ more).dropWhile isSpace = tail.dropWhile isSpace ++ more := by
    rw [List.dropWhile_append, if_neg (by simpa using hne)]
  have hpre' : word.isPrefixOf (upperL ((tail ++ more).dropWhile isSpace)) = true := by
    obtain ⟨t, ht⟩ := List.isPrefixOf_iff_prefix.1 hpre
    rw [hmore, upperL_append, ← ht]
    exact List.isPrefixOf_iff_prefix.2 ⟨t ++ upperL more, by rw [List.append_assoc]⟩
  have hdrop' : ((tail ++ more).dropWhile isSpace).drop word.length = d :: (ds ++ more) := by
    rw [hmore, List.drop_append_of_le_length hlen, hdrop, List.cons_append]
  exact ⟨_, matchSep_of_parts _ (tail ++ more) (ds ++ more) hc hpre' hdrop' hd⟩

/-- Spaces before a text that does not begin with the word are no separator. -/
theorem matchSep_spaces {op : Op} {cs : List Char} (hhead : ∀ c ∈ cs.head?, isSpace c = false)
    (hword : upperL (wordOf cs) ≠ op.word) (n : ℕ) :
    matchSep op.word (' ' :: (spaces n ++ cs)) = none := by
  by_contra hsome
  obtain ⟨rest, hrest⟩ := Option.ne_none_iff_exists'.1 hsome
  obtain ⟨c, tail, d, ds, hcs, -, hpre, hdrop, hd, -⟩ := matchSep_eq_some hrest
  obtain ⟨rfl, rfl⟩ := List.cons.inj hcs
  rw [dropWhile_spaces n hhead] at hpre hdrop
  refine hword (upper_wordOf_of_isPrefix hpre fun x hx => ?_)
  rw [hdrop] at hx
  exact isWordChar_of_isSpace ((Option.some.inj hx) ▸ hd)

/-- The word of an operator between spaces is a separator. -/
theorem matchSep_isInfix {op : Op} (left : ℕ) (kw : Keyword op) (right : ℕ) {cs : List Char}
    (hhead : ∀ c ∈ cs.head?, isSpace c = false) :
    matchSep op.word (infixText left kw right ++ cs) = some cs := by
  have hkw : ∀ c ∈ (kw.chars ++ (spaces (right + 1) ++ cs)).head?, isSpace c = false := by
    rw [List.head?_append_of_ne_nil _ kw.ne_nil]
    exact fun c hc => isSpace_of_isWordChar (kw.isWord c (List.mem_of_mem_head? hc))
  have htail : (spaces left ++ (kw.chars ++ (spaces (right + 1) ++ cs))).dropWhile isSpace =
      kw.chars ++ (spaces (right + 1) ++ cs) := dropWhile_spaces left hkw
  have hlen : op.word.length = kw.chars.length := by
    rw [← kw.spelled, upperL, List.length_map]
  have hpre : op.word.isPrefixOf (upperL ((spaces left ++
      (kw.chars ++ (spaces (right + 1) ++ cs))).dropWhile isSpace)) = true := by
    rw [htail, upperL_append, kw.spelled]
    exact List.isPrefixOf_iff_prefix.2 ⟨_, rfl⟩
  have hnext : ((spaces left ++ (kw.chars ++ (spaces (right + 1) ++ cs))).dropWhile
      isSpace).drop op.word.length = ' ' :: (spaces right ++ cs) := by
    rw [htail, hlen, List.drop_left]
    rfl
  have hsep := matchSep_of_parts _ _ (spaces right ++ cs) (show isSpace ' ' = true by decide) hpre
    hnext (by decide)
  have hdrop : (' ' :: (spaces right ++ cs)).dropWhile isSpace = cs :=
    dropWhile_spaces (right + 1) hhead
  rw [hdrop] at hsep
  rw [← hsep, infixText, List.append_assoc, List.append_assoc]
  rfl

/-- The word of an operator between two spaces. -/
def padded (op : Op) : List Char := ' ' :: (op.word ++ [' '])

theorem padded_ne_nil (op : Op) : padded op ≠ [] := List.cons_ne_nil _ _

/-- Where the padded word begins there is a separator. -/
theorem exists_matchSep_of_padded {op : Op} {cs more : List Char}
    (h : upperL cs = padded op ++ more) : ∃ rest, matchSep op.word cs = some rest := by
  rw [padded, List.cons_append, List.append_assoc] at h
  obtain ⟨c, tail, rfl, hc, htail⟩ := List.map_eq_cons_iff.1 h
  obtain ⟨word, after, rfl, hword, hafter⟩ := List.map_eq_append_iff.1 htail
  obtain ⟨d, ds, rfl, hd, -⟩ := List.map_eq_cons_iff.1 hafter
  obtain rfl := eq_space_of_toUpper hc
  obtain rfl := eq_space_of_toUpper hd
  let kw : Keyword op := ⟨word, hword⟩
  have hstart : (word ++ ' ' :: ds).dropWhile isSpace = word ++ ' ' :: ds :=
    dropWhile_eq_self (head_chars_append ⟨kw.ne_nil, trimmed_word kw.isWord⟩ _)
  have hlen : op.word.length = word.length := by rw [← hword, List.length_map]
  exact ⟨_, matchSep_of_parts op.word (word ++ ' ' :: ds) ds
    (show isSpace ' ' = true by decide)
    (by rw [hstart, upperL_append, upperL, hword]; exact List.isPrefixOf_iff_prefix.2 ⟨_, rfl⟩)
    (by rw [hstart, hlen, List.drop_left]) (show isSpace ' ' = true by decide)⟩

/-! ## Cutting -/

/-- The pieces of a text between the occurrences of a word. -/
def cut (word cs : List Char) : List (List Char) := splitWord word (cs.length + 1) cs

theorem splitWord_cons (word : List Char) (c : Char) (cs : List Char) (fuel : ℕ) :
    splitWord word (fuel + 1) (c :: cs) =
      match matchSep word (c :: cs) with
      | some rest => [] :: splitWord word fuel rest
      | none => consHead c (splitWord word fuel cs) := by
  exact rfl

theorem splitWord_none {word : List Char} {c : Char} {cs : List Char}
    (h : matchSep word (c :: cs) = none) (fuel : ℕ) :
    splitWord word (fuel + 1) (c :: cs) = consHead c (splitWord word fuel cs) := by
  rw [splitWord_cons, h]

theorem splitWord_some {word : List Char} {c : Char} {cs rest : List Char}
    (h : matchSep word (c :: cs) = some rest) (fuel : ℕ) :
    splitWord word (fuel + 1) (c :: cs) = [] :: splitWord word fuel rest := by
  rw [splitWord_cons, h]

/-- More rounds than characters change nothing. -/
theorem splitWord_fuel (word : List Char) : ∀ (n m : ℕ) (cs : List Char), cs.length < n →
    cs.length < m → splitWord word n cs = splitWord word m cs
  | 0, _, _, h, _ => absurd h (Nat.not_lt_zero _)
  | _, 0, _, _, h => absurd h (Nat.not_lt_zero _)
  | n + 1, m + 1, [], _, _ => rfl
  | n + 1, m + 1, c :: cs, hn, hm => by
      simp only [List.length_cons] at hn hm
      cases hsep : matchSep word (c :: cs) with
      | none =>
        rw [splitWord_none hsep, splitWord_none hsep,
          splitWord_fuel word n m cs (by omega) (by omega)]
      | some rest =>
        have := length_of_matchSep hsep
        rw [splitWord_some hsep, splitWord_some hsep,
          splitWord_fuel word n m rest (by omega) (by omega)]

@[simp] theorem cut_nil (word : List Char) : cut word [] = [[]] := rfl

theorem cut_cons_none {word : List Char} {c : Char} {cs : List Char}
    (h : matchSep word (c :: cs) = none) : cut word (c :: cs) = consHead c (cut word cs) := by
  rw [cut, List.length_cons, splitWord_none h, cut]

theorem cut_cons_some {word : List Char} {c : Char} {cs rest : List Char}
    (h : matchSep word (c :: cs) = some rest) : cut word (c :: cs) = [] :: cut word rest := by
  have := length_of_matchSep h
  rw [cut, List.length_cons, splitWord_some h, cut,
    splitWord_fuel word _ (rest.length + 1) rest (by omega) (by omega)]

/-- Induction along the cuts of a text. -/
theorem cut_induct (word : List Char) {P : List Char → Prop} (hnil : P [])
    (hnone : ∀ c cs, matchSep word (c :: cs) = none → P cs → P (c :: cs))
    (hsome : ∀ c cs rest, matchSep word (c :: cs) = some rest → P rest → P (c :: cs)) :
    ∀ cs, P cs := by
  intro cs
  induction hn : cs.length using Nat.strong_induction_on generalizing cs with
  | _ n ih =>
    cases cs with
    | nil => exact hnil
    | cons c cs =>
      simp only [List.length_cons] at hn
      cases hsep : matchSep word (c :: cs) with
      | none => exact hnone c cs hsep (ih cs.length (by omega) cs rfl)
      | some rest =>
        have := length_of_matchSep hsep
        exact hsome c cs rest hsep (ih rest.length (by omega) rest rfl)

/-- There is a first piece, and the text begins with it. -/
theorem exists_cut (word cs : List Char) :
    ∃ piece pieces more, cut word cs = piece :: pieces ∧ cs = piece ++ more := by
  induction cs using cut_induct word with
  | hnil => exact ⟨[], [], [], rfl, rfl⟩
  | hnone c cs h ih =>
    obtain ⟨piece, pieces, more, hcut, hcs⟩ := ih
    exact ⟨c :: piece, pieces, more, by rw [cut_cons_none h, hcut]; rfl, by rw [hcs]; rfl⟩
  | hsome c cs rest h _ => exact ⟨[], cut word rest, c :: cs, cut_cons_some h, rfl⟩

/-! ## Cutting twice -/

/-- The pieces between the operators, alternative by alternative. -/
def cutAll (cs : List Char) : List (List (List Char)) := (cut Op.or.word cs).map (cut Op.and.word)

theorem exists_cutAll (cs : List Char) :
    ∃ piece pieces alternatives, cutAll cs = (piece :: pieces) :: alternatives := by
  obtain ⟨p, ps, -, hcut, -⟩ := exists_cut Op.or.word cs
  obtain ⟨q, qs, -, hcut', -⟩ := exists_cut Op.and.word p
  exact ⟨q, qs, ps.map (cut Op.and.word), by rw [cutAll, hcut, List.map_cons, hcut']⟩

/-- A character that begins no separator goes to the first piece. -/
theorem cutAll_cons {c : Char} {cs : List Char} (hor : matchSep Op.or.word (c :: cs) = none)
    (hand : matchSep Op.and.word (c :: cs) = none) :
    cutAll (c :: cs) = glueAll [[[c]]] (cutAll cs) := by
  obtain ⟨p, ps, more, hcut, hcs⟩ := exists_cut Op.or.word cs
  have hand' : matchSep Op.and.word (c :: p) = none := by
    by_contra hsome
    obtain ⟨rest, hrest⟩ := Option.ne_none_iff_exists'.1 hsome
    obtain ⟨rest', hrest'⟩ := matchSep_append hrest more
    rw [List.cons_append, ← hcs, hand] at hrest'
    exact absurd hrest' (by simp)
  rw [cutAll, cutAll, cut_cons_none hor, hcut]
  show (cut Op.and.word (c :: p)) :: ps.map (cut Op.and.word) =
    glueAll [[[c]]] (cut Op.and.word p :: ps.map (cut Op.and.word))
  rw [cut_cons_none hand', consHead_eq_glue]
  rfl

theorem glueAll_nil_left (cs : List Char) : glueAll [[[]]] (cutAll cs) = cutAll cs := by
  obtain ⟨p, ps, as, h⟩ := exists_cutAll cs
  rw [h]
  rfl

/-- A text without separators goes to the first piece. -/
theorem cutAll_append {front rest : List Char}
    (h : ∀ c more, (∃ before, front = before ++ c :: more) → ∀ op : Op, op ≠ .not →
      matchSep op.word (c :: (more ++ rest)) = none) :
    cutAll (front ++ rest) = glueAll [[front]] (cutAll rest) := by
  induction front with
  | nil => rw [List.nil_append, glueAll_nil_left]
  | cons c front ih =>
    have hhead := h c front ⟨[], rfl⟩
    rw [List.cons_append, cutAll_cons (hhead .or (by simp)) (hhead .and (by simp)), ih, ← glueAll_assoc]
    · rfl
    · rintro d more ⟨before, rfl⟩
      exact h d more ⟨c :: before, rfl⟩

theorem spaces_split {n : ℕ} {before more : List Char} {c : Char}
    (h : spaces n = before ++ c :: more) : c = ' ' ∧ more = spaces more.length := by
  have hall : ∀ x ∈ before ++ c :: more, x = ' ' := by
    rw [← h]
    exact fun x hx => List.eq_of_mem_replicate hx
  exact ⟨hall c (by simp), List.eq_replicate_iff.2 ⟨rfl, fun x hx => hall x (by simp [hx])⟩⟩

/-- Words and parentheses go to the first piece. -/
theorem cutAll_word {front : List Char} (h : ∀ c ∈ front, isSpace c = false) (rest : List Char) :
    cutAll (front ++ rest) = glueAll [[front]] (cutAll rest) := by
  refine cutAll_append ?_
  rintro c more ⟨before, rfl⟩ op _
  exact matchSep_of_not_space _ (h c (by simp)) _

/-- Spaces before a text that does not begin with an operator go to the first piece. -/
theorem cutAll_spaces (n : ℕ) {rest : List Char} (hhead : ∀ c ∈ rest.head?, isSpace c = false)
    (hfree : StartsFree rest) :
    cutAll (spaces n ++ rest) = glueAll [[spaces n]] (cutAll rest) := by
  refine cutAll_append ?_
  rintro c more ⟨before, hsplit⟩ op hop
  obtain ⟨rfl, hmore⟩ := spaces_split hsplit
  rw [hmore]
  exact matchSep_spaces hhead (hfree op hop) _

/-- `OR` begins a new alternative. -/
theorem cutAll_or (left : ℕ) (kw : Keyword .or) (right : ℕ) {rest : List Char}
    (hhead : ∀ c ∈ rest.head?, isSpace c = false) :
    cutAll (infixText left kw right ++ rest) = glueAll [[[]], [[]]] (cutAll rest) := by
  have hsep := matchSep_isInfix left kw right hhead
  have hcut : cut Op.or.word (infixText left kw right ++ rest) = [] :: cut Op.or.word rest :=
    cut_cons_some hsep
  obtain ⟨p, ps, as, h⟩ := exists_cutAll rest
  rw [cutAll, hcut, List.map_cons]
  show [[]] :: cutAll rest = glueAll [[[]], [[]]] (cutAll rest)
  rw [h]
  rfl

/-- Text without `OR` goes to the first piece between the `OR`s. -/
theorem cut_append {word front rest : List Char}
    (h : ∀ c more, (∃ before, front = before ++ c :: more) →
      matchSep word (c :: (more ++ rest)) = none) :
    cut word (front ++ rest) = glue [front] (cut word rest) := by
  obtain ⟨p, ps, more, hcut, -⟩ := exists_cut word rest
  induction front with
  | nil => rw [List.nil_append, hcut]; rfl
  | cons c front ih =>
    rw [List.cons_append, cut_cons_none (h c front ⟨[], rfl⟩), ih, hcut]
    · rfl
    · rintro d more ⟨before, rfl⟩
      exact h d more ⟨c :: before, rfl⟩

theorem cut_word {front : List Char} (word : List Char) (h : ∀ c ∈ front, isSpace c = false)
    (rest : List Char) : cut word (front ++ rest) = glue [front] (cut word rest) := by
  refine cut_append ?_
  rintro c more ⟨before, rfl⟩
  exact matchSep_of_not_space _ (h c (by simp)) _

theorem cut_spaces {op : Op} (n : ℕ) {rest : List Char}
    (hhead : ∀ c ∈ rest.head?, isSpace c = false) (hword : upperL (wordOf rest) ≠ op.word) :
    cut op.word (spaces n ++ rest) = glue [spaces n] (cut op.word rest) := by
  refine cut_append ?_
  rintro c more ⟨before, hsplit⟩
  obtain ⟨rfl, hmore⟩ := spaces_split hsplit
  rw [hmore]
  exact matchSep_spaces hhead hword _

/-- `AND` begins a new piece. -/
theorem cutAll_and (left : ℕ) (kw : Keyword .and) (right : ℕ) {rest : List Char}
    (hhead : ∀ c ∈ rest.head?, isSpace c = false) (hfree : StartsFree rest) :
    cutAll (infixText left kw right ++ rest) = glueAll [[[], []]] (cutAll rest) := by
  obtain ⟨p, ps, more, hcut, hrest⟩ := exists_cut Op.or.word rest
  have hor : cut Op.or.word (infixText left kw right ++ rest) =
      (infixText left kw right ++ p) :: ps := by
    have hafter : ∀ c ∈ (spaces (right + 1) ++ rest).head?, isWordChar c = false :=
      follows_cons (by decide) _
    have hword : upperL (wordOf (kw.chars ++ (spaces (right + 1) ++ rest))) ≠ Op.or.word := by
      rw [wordOf_append kw.isWord hafter, kw.spelled]
      decide
    have hkw : ∀ c ∈ (kw.chars ++ (spaces (right + 1) ++ rest)).head?, isSpace c = false :=
      head_chars_append ⟨kw.ne_nil, trimmed_word kw.isWord⟩ _
    rw [infixText, List.append_assoc, List.append_assoc, cut_spaces _ hkw hword,
      cut_word _ (fun c hc => isSpace_of_isWordChar (kw.isWord c hc)),
      cut_spaces _ hhead (hfree .or (by decide)), hcut, List.append_assoc, List.append_assoc]
    rfl
  have hp : ∀ c ∈ p.head?, isSpace c = false := by
    intro c hc
    refine hhead c ?_
    cases p with
    | nil => simp at hc
    | cons x p => rw [hrest]; exact hc
  have hand : cut Op.and.word (infixText left kw right ++ p) = [] :: cut Op.and.word p :=
    cut_cons_some (matchSep_isInfix left kw right hp)
  obtain ⟨q, qs, -, hq, -⟩ := exists_cut Op.and.word p
  rw [cutAll, cutAll, hor, hcut, List.map_cons, List.map_cons, hand, hq]
  rfl

/-! ## The text of an expression -/

theorem startsFree_close (rest : List Char) : StartsFree ([')'] ++ rest) := by
  intro op _
  have : wordOf ([')'] ++ rest) = [] := by simp [wordOf, isWordChar]
  rw [this]
  exact (word_ne_nil op).symm

mutual

theorem Operand.cutAll_chars : ∀ (u : Operand) {rest : List Char}, Follows rest →
    cutAll (u.chars ++ rest) = glueAll u.flat (cutAll rest)
  | .token t, rest, _ => cutAll_word (fun c hc => isSpace_of_isWordChar (t.isWord c hc)) rest
  | .paren left e right, rest, _ => by
      have hclose : cutAll (spaces right ++ ([')'] ++ rest)) =
          glueAll [[spaces right ++ [')']]] (cutAll rest) := by
        rw [cutAll_spaces right (by simp [isSpace]) (startsFree_close rest),
          cutAll_word (by simp [isSpace]), ← glueAll_assoc]
        rfl
      have htext : (Operand.paren left e right).chars ++ rest =
          ['('] ++ (spaces left ++ (e.chars ++ (spaces right ++ ([')'] ++ rest)))) := by
        simp [Operand.chars]
      have hfollow : Follows (spaces right ++ ([')'] ++ rest)) :=
        follows_spaces right (follows_cons (by decide) rest)
      rw [htext, cutAll_word (by simp [isSpace]),
        cutAll_spaces left (head_chars_append e.trimmed_chars _) (e.startsFree hfollow),
        GuardExpr.cutAll_chars e hfollow, hclose, Operand.flat]
      simp only [← glueAll_assoc]
      rfl
  | .not kw gap u, rest, h => by
      have htext : (Operand.not kw gap u).chars ++ rest =
          kw.chars ++ (spaces (gap + 1) ++ (u.chars ++ rest)) := by
        simp [Operand.chars]
      rw [htext, cutAll_word (fun c hc => isSpace_of_isWordChar (kw.isWord c hc)),
        cutAll_spaces _ (head_chars_append u.trimmed_chars _) (u.startsFree h),
        Operand.cutAll_chars u h, Operand.flat]
      simp only [← glueAll_assoc]
      rfl

theorem Conj.cutAll_chars : ∀ (c : Conj) {rest : List Char}, Follows rest →
    cutAll (c.chars ++ rest) = glueAll c.flat (cutAll rest)
  | .one u, _, h => Operand.cutAll_chars u h
  | .and u left kw right c, rest, h => by
      rw [Conj.chars, List.append_assoc, List.append_assoc,
        Operand.cutAll_chars u (follows_isInfix left kw right _),
        cutAll_and left kw right (head_chars_append c.trimmed_chars _) (c.startsFree h),
        Conj.cutAll_chars c h, Conj.flat, glueAll_assoc, glueAll_assoc]

/-- The pieces of the text of an expression are those of its flat reading. -/
theorem GuardExpr.cutAll_chars : ∀ (e : GuardExpr) {rest : List Char}, Follows rest →
    cutAll (e.chars ++ rest) = glueAll e.flat (cutAll rest)
  | .one c, _, h => Conj.cutAll_chars c h
  | .or c left kw right e, rest, h => by
      rw [GuardExpr.chars, List.append_assoc, List.append_assoc,
        Conj.cutAll_chars c (follows_isInfix left kw right _),
        cutAll_or left kw right (head_chars_append e.trimmed_chars _),
        GuardExpr.cutAll_chars e h, GuardExpr.flat, glueAll_assoc, glueAll_assoc]

end

end FloWeaver.Guard
