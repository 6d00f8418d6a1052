import FloWeaver.Guard.SchedulerReading

/-!
# What the scheduler computes for a guard text

* `noSep_of_mem_cut`, `trimmed_of_mem_cut` — the pieces of a cut are trimmed and hold no
  further separator.
* `guardActiveL_text` — the scheduler cuts at `OR`, then at `AND`, and looks the pieces up.
* `guardActive_text` — on the text of an expression that is the value of its flat reading.
-/

namespace FloWeaver.Guard

open Py ListCut Scheduler

/-! ## Pieces hold no separator -/

/-- No separator begins at any position. -/
def NoSep (word : List Char) : List Char → Prop
  | [] => True
  | c :: cs => matchSep word (c :: cs) = none ∧ NoSep word cs

theorem cut_of_noSep {word cs : List Char} (h : NoSep word cs) : cut word cs = [cs] := by
  induction cs with
  | nil => rfl
  | cons c cs ih =>
    rw [cut_cons_none h.1, ih h.2]
    rfl

/-- A separator of a part is one of the whole. -/
theorem NoSep.left {word a b : List Char} (h : NoSep word (a ++ b)) : NoSep word a := by
  induction a with
  | nil => trivial
  | cons c a ih =>
    refine ⟨?_, ih h.2⟩
    by_contra hsome
    obtain ⟨rest, hrest⟩ := Option.ne_none_iff_exists'.1 hsome
    obtain ⟨rest', hrest'⟩ := matchSep_append hrest b
    have hnone : matchSep word (c :: (a ++ b)) = none := h.1
    rw [List.cons_append, hnone] at hrest'
    exact absurd hrest' (by simp)

theorem NoSep.right {word a b : List Char} (h : NoSep word (a ++ b)) : NoSep word b := by
  induction a with
  | nil => exact h
  | cons c a ih => exact ih h.2

theorem noSep_of_mem_cut {word cs p : List Char} (h : p ∈ cut word cs) : NoSep word p := by
  induction cs using cut_induct word generalizing p with
  | hnil =>
    rw [cut_nil, List.mem_singleton] at h
    rw [h]
    trivial
  | hnone c cs hsep ih =>
    obtain ⟨piece, pieces, more, hcut, hcs⟩ := exists_cut word cs
    rw [cut_cons_none hsep, hcut] at h
    rw [hcut] at ih
    rcases List.mem_cons.1 h with rfl | h
    · have hall : NoSep word (c :: piece) := by
        refine ⟨?_, ih (List.mem_cons_self)⟩
        by_contra hsome
        obtain ⟨rest, hrest⟩ := Option.ne_none_iff_exists'.1 hsome
        obtain ⟨rest', hrest'⟩ := matchSep_append hrest more
        rw [List.cons_append, ← hcs, hsep] at hrest'
        exact absurd hrest' (by simp)
      exact hall
    · exact ih (List.mem_cons_of_mem _ h)
  | hsome c cs rest hsep ih =>
    rw [cut_cons_some hsep] at h
    rcases List.mem_cons.1 h with rfl | h
    · trivial
    · exact ih h

/-- What stands behind a separator. -/
theorem rest_suffix {word cs rest : List Char} (h : matchSep word cs = some rest) :
    rest <:+ cs ∧ ∀ c ∈ rest.head?, isSpace c = false := by
  obtain ⟨c, tail, d, ds, rfl, -, -, hdrop, -, rfl⟩ := matchSep_eq_some h
  constructor
  · have h1 := List.dropWhile_suffix isSpace (l := tail)
    have h2 := List.drop_suffix word.length (tail.dropWhile isSpace)
    rw [hdrop] at h2
    exact ((List.dropWhile_suffix _).trans h2).trans (h1.trans (List.suffix_cons c tail))
  · intro x hx
    by_contra hspace
    rw [Bool.not_eq_false] at hspace
    have := List.head?_dropWhile_not isSpace (d :: ds)
    rw [Option.mem_def] at hx
    rw [hx] at this
    simp [hspace] at this

/-- Every piece stands in the text. -/
theorem exists_of_mem_cut {word cs p : List Char} (h : p ∈ cut word cs) :
    ∃ a b, cs = a ++ (p ++ b) := by
  induction cs using cut_induct word generalizing p with
  | hnil =>
    rw [cut_nil, List.mem_singleton] at h
    exact ⟨[], [], by simp [h]⟩
  | hnone c cs hsep ih =>
    obtain ⟨piece, pieces, more, hcut, hcs⟩ := exists_cut word cs
    rw [cut_cons_none hsep, hcut] at h
    rw [hcut] at ih
    rcases List.mem_cons.1 h with rfl | h
    · exact ⟨[], more, by rw [hcs]; rfl⟩
    · obtain ⟨a, b, rfl⟩ := ih (List.mem_cons_of_mem _ h)
      exact ⟨c :: a, b, rfl⟩
  | hsome c cs rest hsep ih =>
    rw [cut_cons_some hsep] at h
    rcases List.mem_cons.1 h with rfl | h
    · exact ⟨[], c :: cs, rfl⟩
    · obtain ⟨a, b, hrest⟩ := ih h
      obtain ⟨front, hfront⟩ := (rest_suffix hsep).1
      exact ⟨front ++ a, b, by rw [← hfront, hrest, List.append_assoc]⟩

/-! ## Pieces are trimmed -/

theorem last_of_suffix {a b : List Char} (h : a <:+ b) (hb : ∀ c ∈ b.getLast?, isSpace c = false) :
    ∀ c ∈ a.getLast?, isSpace c = false := by
  obtain ⟨front, rfl⟩ := h
  intro c hc
  refine hb c ?_
  have hne : a ≠ [] := by
    rintro rfl
    simp at hc
  rw [List.getLast?_append_of_ne_nil _ hne]
  exact hc

/-- No piece ends in white space. -/
theorem last_of_mem_cut (word : List Char) {cs : List Char}
    (hcs : ∀ c ∈ cs.getLast?, isSpace c = false) :
    ∀ p ∈ cut word cs, ∀ c ∈ p.getLast?, isSpace c = false := by
  induction cs using cut_induct word with
  | hnil =>
    intro p hp
    rw [cut_nil, List.mem_singleton] at hp
    simp [hp]
  | hnone c cs hsep ih =>
    have ih := ih (last_of_suffix (List.suffix_cons c cs) hcs)
    obtain ⟨piece, pieces, more, hcut, hmore⟩ := exists_cut word cs
    rw [hcut] at ih
    rw [cut_cons_none hsep, hcut]
    intro p hp
    rcases List.mem_cons.1 hp with rfl | hp
    · cases piece with
      | cons d piece => simpa using ih (d :: piece) List.mem_cons_self
      | nil =>
        intro x hx
        obtain rfl : c = x := by simpa using hx
        cases cs with
        | nil => exact hcs c rfl
        | cons d ds =>
          by_contra hspace
          rw [Bool.not_eq_false] at hspace
          -- the piece before `d` is empty, so that a separator begins at `d`
          cases hd : matchSep word (d :: ds) with
          | none =>
            obtain ⟨q, qs, -, hq, -⟩ := exists_cut word ds
            rw [cut_cons_none hd, hq] at hcut
            exact absurd (List.cons.inj hcut).1 (List.cons_ne_nil d q)
          | some rest =>
            have hdspace : isSpace d = true := by
              obtain ⟨d', tail, _, _, hdt, hd', _⟩ := matchSep_eq_some hd
              obtain ⟨rfl, -⟩ := List.cons.inj hdt
              exact hd'
            rw [matchSep_space_space word hspace hdspace, hd] at hsep
            exact absurd hsep (by simp)
    · exact ih p (List.mem_cons_of_mem _ hp)
  | hsome c cs rest hsep ih =>
    rw [cut_cons_some hsep]
    intro p hp
    rcases List.mem_cons.1 hp with rfl | hp
    · simp
    · exact ih (last_of_suffix (rest_suffix hsep).1 hcs) p hp

/-- No piece begins with white space. -/
theorem head_of_mem_cut (word : List Char) {cs : List Char}
    (hcs : ∀ c ∈ cs.head?, isSpace c = false) :
    ∀ p ∈ cut word cs, ∀ c ∈ p.head?, isSpace c = false := by
  have hfirst : ∀ {cs piece : List Char} {pieces : List (List Char)},
      (∀ c ∈ cs.head?, isSpace c = false) → cut word cs = piece :: pieces →
      ∀ c ∈ piece.head?, isSpace c = false := by
    intro cs piece pieces hcs hcut c hc
    obtain ⟨piece', pieces', more, hcut', hmore⟩ := exists_cut word cs
    rw [hcut] at hcut'
    obtain ⟨rfl, -⟩ := List.cons.inj hcut'
    refine hcs c ?_
    cases piece with
    | nil => simp at hc
    | cons x piece => rw [hmore]; exact hc
  have htail : ∀ p ∈ (cut word cs).tail, ∀ c ∈ p.head?, isSpace c = false := by
    clear hcs
    induction cs using cut_induct word with
    | hnil => simp
    | hnone c cs hsep ih =>
      obtain ⟨piece, pieces, -, hcut, -⟩ := exists_cut word cs
      rw [hcut] at ih
      rw [cut_cons_none hsep, hcut]
      exact ih
    | hsome c cs rest hsep ih =>
      rw [cut_cons_some hsep]
      obtain ⟨piece, pieces, -, hcut, -⟩ := exists_cut word rest
      rw [hcut] at ih
      intro p hp
      rw [List.tail_cons, hcut] at hp
      rcases List.mem_cons.1 hp with rfl | hp
      · exact hfirst (rest_suffix hsep).2 hcut
      · exact ih p hp
  obtain ⟨piece, pieces, -, hcut, -⟩ := exists_cut word cs
  rw [hcut] at htail ⊢
  intro p hp
  rcases List.mem_cons.1 hp with rfl | hp
  · exact hfirst hcs hcut
  · exact htail p hp

theorem trimmed_of_mem_cut {word cs p : List Char} (hcs : Trimmed cs) (h : p ∈ cut word cs) :
    Trimmed p :=
  ⟨head_of_mem_cut word hcs.head p h, last_of_mem_cut word hcs.last p h⟩

/-! ## Separators and the test for them -/

/-- All white space is the space character. -/
def OnlySpaces (cs : List Char) : Prop := ∀ c ∈ cs, isSpace c = true → c = ' '

/-- Where the word stands between spaces there is a separator. -/
theorem not_noSep_of_contains {op : Op} {cs : List Char}
    (h : containsL (padded op) (upperL cs) = true) : ¬NoSep op.word cs := by
  intro hno
  obtain ⟨a, b, hab⟩ := containsL_iff_isInfix.1 h
  rw [List.append_assoc] at hab
  obtain ⟨front, back, rfl, -, hback⟩ := List.map_eq_append_iff.1 hab.symm
  obtain ⟨rest, hrest⟩ := exists_matchSep_of_padded hback
  cases back with
  | nil => exact absurd hrest (by simp [matchSep])
  | cons c back =>
    have hnone : matchSep op.word (c :: back) = none := hno.right.1
    rw [hnone] at hrest
    exact absurd hrest (by simp)

theorem exists_of_not_noSep {word cs : List Char} (h : ¬NoSep word cs) :
    ∃ a b rest, cs = a ++ b ∧ matchSep word b = some rest := by
  induction cs with
  | nil => exact absurd trivial h
  | cons c cs ih =>
    cases hsep : matchSep word (c :: cs) with
    | some rest => exact ⟨[], c :: cs, rest, rfl, hsep⟩
    | none =>
      obtain ⟨a, b, rest, hcs, hb⟩ := ih fun hno => h ⟨hsep, hno⟩
      exact ⟨c :: a, b, rest, by rw [hcs]; rfl, hb⟩

/-- In a text whose white space is the space character the test finds every separator. -/
theorem contains_of_not_noSep {op : Op} {cs : List Char} (hcs : OnlySpaces cs)
    (h : ¬NoSep op.word cs) : containsL (padded op) (upperL cs) = true := by
  obtain ⟨a, b, rest, rfl, hsep⟩ := exists_of_not_noSep h
  obtain ⟨c, tail, d, ds, rfl, hc, hpre, hdrop, hd, -⟩ := matchSep_eq_some hsep
  obtain ⟨more, hmore⟩ := List.isPrefixOf_iff_prefix.1 hpre
  have htail : tail = tail.takeWhile isSpace ++ tail.dropWhile isSpace :=
    List.takeWhile_append_dropWhile.symm
  -- the white space before the word ends in a space
  obtain ⟨front, hfront⟩ : ∃ front, c :: tail.takeWhile isSpace = front ++ [' '] := by
    have hne : c :: tail.takeWhile isSpace ≠ [] := List.cons_ne_nil _ _
    refine ⟨(c :: tail.takeWhile isSpace).dropLast, ?_⟩
    have hlast : (c :: tail.takeWhile isSpace).getLast hne = ' ' := by
      have hmem := List.getLast_mem hne
      refine hcs _ ?_ ?_
      · have hsub := List.cons_subset_cons c (List.takeWhile_subset isSpace (l := tail)) hmem
        exact List.mem_append_right a hsub
      · rcases List.mem_cons.1 hmem with heq | hmem
        · rw [heq, hc]
        · exact List.all_eq_true.1 (List.all_takeWhile) _ hmem
    rw [← hlast, List.dropLast_append_getLast]
  have hdspace : d = ' ' := by
    refine hcs d ?_ hd
    have hmem : d ∈ (tail.dropWhile isSpace).drop op.word.length := by
      rw [hdrop]
      exact List.mem_cons_self
    have := List.dropWhile_subset _ (List.mem_of_mem_drop hmem)
    simp [this]
  have hword : upperL (tail.dropWhile isSpace) = op.word ++ ' ' :: upperL ds := by
    have hmap : (upperL (tail.dropWhile isSpace)).drop op.word.length = ' ' :: upperL ds := by
      rw [upperL, ← List.map_drop, hdrop, hdspace]
      rfl
    rw [← hmore, List.drop_left] at hmap
    rw [← hmore, hmap]
  refine containsL_iff_isInfix.2 ⟨upperL a ++ upperL front, upperL ds, Eq.symm ?_⟩
  have hsplit : a ++ c :: tail = a ++ (front ++ ([' '] ++ tail.dropWhile isSpace)) := by
    rw [← List.append_assoc front, ← hfront, List.cons_append, ← htail]
  rw [hsplit, upperL_append, upperL_append, upperL_append, hword]
  simp [padded, upperL]

theorem contains_padded (op : Op) {cs : List Char} (hcs : OnlySpaces cs) :
    containsL (padded op) (upperL cs) = true ↔ ¬NoSep op.word cs :=
  ⟨not_noSep_of_contains, contains_of_not_noSep hcs⟩

/-! ## Values -/

theorem OnlySpaces.of_mem_cut {word cs p : List Char} (hcs : OnlySpaces cs)
    (h : p ∈ cut word cs) : OnlySpaces p := by
  obtain ⟨a, b, rfl⟩ := exists_of_mem_cut h
  exact fun c hc => hcs c (by simp [hc])

theorem NoSep.of_mem_cut {word word' cs p : List Char} (hcs : NoSep word cs)
    (h : p ∈ cut word' cs) : NoSep word p := by
  obtain ⟨a, b, rfl⟩ := exists_of_mem_cut h
  exact (hcs.right).left

section

variable (metrics : Dict)

/-- The value of a piece is that of a token. -/
abbrev pieceFlag (p : List Char) : Except PyErr Bool := guardFlag (String.ofList p) metrics

variable {metrics} {p : List Char}

theorem guardActiveL_piece (ht : Trimmed p) (hs : OnlySpaces p) (hor : NoSep Op.or.word p)
    (hand : NoSep Op.and.word p) (fuel : ℕ) :
    guardActiveL metrics (fuel + 1) p = pieceFlag metrics p := by
  rw [guardActiveL]
  cases p with
  | nil => rfl
  | cons c p =>
    have h1 : containsL " OR ".toList (upperL (c :: p)) ≠ true :=
      fun h => (contains_padded Op.or hs).1 h hor
    have h2 : containsL " AND ".toList (upperL (c :: p)) ≠ true :=
      fun h => (contains_padded Op.and hs).1 h hand
    simp only [List.isEmpty_cons, Bool.false_eq_true, if_false, stripL_eq_self ht]
    rw [if_neg h1, if_neg h2]

theorem guardActiveL_conj (ht : Trimmed p) (hs : OnlySpaces p) (hor : NoSep Op.or.word p)
    (fuel : ℕ) : guardActiveL metrics (fuel + 2) p =
      (cut Op.and.word p).allM (pieceFlag metrics) := by
  by_cases hand : NoSep Op.and.word p
  · rw [guardActiveL_piece ht hs hor hand, cut_of_noSep hand, allM_singleton]
  · have hpieces : ∀ q ∈ cut Op.and.word p, guardActiveL metrics (fuel + 1) q = pieceFlag metrics q :=
      fun q hq => guardActiveL_piece (trimmed_of_mem_cut ht hq) (hs.of_mem_cut hq)
        (hor.of_mem_cut hq) (noSep_of_mem_cut hq) fuel
    rw [← allM_congr hpieces, guardActiveL]
    cases p with
    | nil => exact absurd trivial hand
    | cons c p =>
      have h1 : containsL " OR ".toList (upperL (c :: p)) ≠ true :=
        fun h => (contains_padded Op.or hs).1 h hor
      have h2 : containsL " AND ".toList (upperL (c :: p)) = true :=
        (contains_padded Op.and hs).2 hand
      simp only [List.isEmpty_cons, Bool.false_eq_true, if_false, stripL_eq_self ht]
      rw [if_neg h1, if_pos h2]
      rfl

/-- The scheduler cuts at `OR`, then at `AND`, and looks the pieces up. -/
theorem guardActiveL_text (ht : Trimmed p) (hs : OnlySpaces p) (fuel : ℕ) :
    guardActiveL metrics (fuel + 3) p = alternativesValue (pieceFlag metrics) (cutAll p) := by
  have hconjs : ∀ q ∈ cut Op.or.word p, (cut Op.and.word q).allM (pieceFlag metrics) =
      guardActiveL metrics (fuel + 2) q :=
    fun q hq => (guardActiveL_conj (trimmed_of_mem_cut ht hq) (hs.of_mem_cut hq)
      (noSep_of_mem_cut hq) fuel).symm
  rw [alternativesValue, cutAll, anyM_map_congr hconjs]
  by_cases hor : NoSep Op.or.word p
  · rw [cut_of_noSep hor, anyM_singleton, guardActiveL_conj ht hs hor (fuel + 1),
      guardActiveL_conj ht hs hor fuel]
  · rw [guardActiveL]
    cases p with
    | nil => exact absurd trivial hor
    | cons c p =>
      have h1 : containsL " OR ".toList (upperL (c :: p)) = true :=
        (contains_padded Op.or hs).2 hor
      simp only [List.isEmpty_cons, Bool.false_eq_true, if_false, stripL_eq_self ht]
      rw [if_pos h1]
      rfl

end

/-! ## The text of an expression -/

theorem OnlySpaces.append {a b : List Char} (ha : OnlySpaces a) (hb : OnlySpaces b) :
    OnlySpaces (a ++ b) := by
  intro c hc
  rcases List.mem_append.1 hc with hc | hc
  · exact ha c hc
  · exact hb c hc

theorem onlySpaces_spaces (n : ℕ) : OnlySpaces (spaces n) :=
  fun _ hc _ => List.eq_of_mem_replicate hc

theorem onlySpaces_word {w : List Char} (hw : ∀ c ∈ w, isWordChar c = true) : OnlySpaces w := by
  intro c hc hspace
  rw [isSpace_of_isWordChar (hw c hc)] at hspace
  exact absurd hspace (by simp)

theorem onlySpaces_isInfix {op : Op} (left : ℕ) (kw : Keyword op) (right : ℕ) :
    OnlySpaces (infixText left kw right) :=
  ((onlySpaces_spaces _).append (onlySpaces_word kw.isWord)).append (onlySpaces_spaces _)

mutual

theorem Operand.onlySpaces : ∀ u : Operand, OnlySpaces u.chars
  | .token t => onlySpaces_word t.isWord
  | .paren left e right => by
      have hopen : OnlySpaces ('(' :: spaces left) :=
        OnlySpaces.append (a := ['(']) (by simp [OnlySpaces, isSpace]) (onlySpaces_spaces left)
      have hclose : OnlySpaces [')'] := by simp [OnlySpaces, isSpace]
      exact ((hopen.append (GuardExpr.onlySpaces e)).append (onlySpaces_spaces right)).append hclose
  | .not kw gap u =>
      ((onlySpaces_word kw.isWord).append (onlySpaces_spaces _)).append (Operand.onlySpaces u)

theorem Conj.onlySpaces : ∀ c : Conj, OnlySpaces c.chars
  | .one u => Operand.onlySpaces u
  | .and u left kw right c =>
      ((Operand.onlySpaces u).append (onlySpaces_isInfix left kw right)).append (Conj.onlySpaces c)

theorem GuardExpr.onlySpaces : ∀ e : GuardExpr, OnlySpaces e.chars
  | .one c => Conj.onlySpaces c
  | .or c left kw right e =>
      ((Conj.onlySpaces c).append (onlySpaces_isInfix left kw right)).append (GuardExpr.onlySpaces e)

end

mutual

theorem Operand.filled_flat : ∀ u : Operand, Filled u.flat
  | .token _ => ⟨by simp [Operand.flat], by simp [Operand.flat]⟩
  | .paren _ e _ => by
      refine Filled.glueAll ⟨?_, ?_⟩ ((GuardExpr.filled_flat e).glueAll ⟨?_, ?_⟩) <;> simp
  | .not _ _ u => by
      refine Filled.glueAll ⟨?_, ?_⟩ (Operand.filled_flat u) <;> simp

theorem Conj.filled_flat : ∀ c : Conj, Filled c.flat
  | .one u => Operand.filled_flat u
  | .and u _ _ _ c => by
      refine (Operand.filled_flat u).glueAll (Filled.glueAll ⟨?_, ?_⟩ (Conj.filled_flat c)) <;> simp

theorem GuardExpr.filled_flat : ∀ e : GuardExpr, Filled e.flat
  | .one c => Conj.filled_flat c
  | .or c _ _ _ e => by
      refine (Conj.filled_flat c).glueAll (Filled.glueAll ⟨?_, ?_⟩ (GuardExpr.filled_flat e)) <;> simp

end

/-- The scheduler computes the value of the flat reading. -/
theorem guardActive_text (e : GuardExpr) (metrics : Dict) :
    guardActive e.text metrics = e.flatValue (pieceFlag metrics) := by
  have hcut : cutAll e.chars = e.flat := by
    have h := e.cutAll_chars follows_nil
    rw [List.append_nil] at h
    rw [h]
    exact glueAll_empty e.filled_flat
  have htext : e.text.toList = e.chars := String.toList_ofList
  rw [guardActive, htext, guardActiveL_text e.trimmed_chars.2 e.onlySpaces, hcut]
  rfl

end FloWeaver.Guard
