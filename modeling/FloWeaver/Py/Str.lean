import Mathlib.Data.String.Basic
import Mathlib.Data.List.Sort
import Mathlib.Data.List.Dedup
import Mathlib.Data.List.DropRight
import Mathlib.Tactic.SplitIfs

/-!
# Python string methods

The string methods the program uses, on lists of characters and then on `String`.
Letter case is that of ASCII: `lower` and `upper` leave every other character alone.

* `strip`, `lower`, `upper`, `startsWith`, `contains` — the methods of `str`.
* `splitBy` — cuts a text at the characters that are not kept (`re.split` with a negated class).
* `sortedStr`, `sortedSet` — `sorted` on a list and on a set of strings.
-/

namespace FloWeaver.Py

/-! ## Characters -/

/-- `str.isspace` for one character. -/
def isSpace (c : Char) : Bool :=
  let n := c.toNat
  (9 ≤ n && n ≤ 13) || (28 ≤ n && n ≤ 32) || n = 0x85 || n = 0xa0 || n = 0x1680 ||
    (0x2000 ≤ n && n ≤ 0x200a) || n = 0x2028 || n = 0x2029 || n = 0x202f || n = 0x205f ||
    n = 0x3000

/-! ## Lists of characters -/

/-- Drops the white space on both sides. -/
def stripL (cs : List Char) : List Char :=
  ((cs.dropWhile isSpace).reverse.dropWhile isSpace).reverse

def lowerL (cs : List Char) : List Char := cs.map Char.toLower

def upperL (cs : List Char) : List Char := cs.map Char.toUpper

/-- Does `pat` occur in the text? -/
def containsL (pat : List Char) : List Char → Bool
  | [] => pat.isEmpty
  | c :: cs => pat.isPrefixOf (c :: cs) || containsL pat cs

/-- The text before and after the first occurrence of `pat`. -/
def splitOnceL (pat : List Char) : List Char → Option (List Char × List Char)
  | [] => if pat.isEmpty then some ([], []) else none
  | c :: cs =>
      if pat.isPrefixOf (c :: cs) then some ([], (c :: cs).drop pat.length)
      else (splitOnceL pat cs).map (fun (a, b) => (c :: a, b))

/-- The pieces between the first `n` occurrences of `pat`, and what is left. -/
def splitMaxL (pat : List Char) : ℕ → List Char → List (List Char)
  | 0, cs => [cs]
  | n + 1, cs =>
      match splitOnceL pat cs with
      | some (a, b) => a :: splitMaxL pat n b
      | none => [cs]

/-- The maximal runs of kept characters, with the empty ones between two cuts. -/
def splitByL (keep : Char → Bool) : List Char → List (List Char)
  | [] => [[]]
  | c :: cs =>
      match splitByL keep cs with
      | [] => [[]]
      | part :: parts => if keep c then (c :: part) :: parts else [] :: part :: parts

/-! ## Strings -/

def strip (s : String) : String := String.ofList (stripL s.toList)

def lower (s : String) : String := String.ofList (lowerL s.toList)

def upper (s : String) : String := String.ofList (upperL s.toList)

def startsWith (s pat : String) : Bool := pat.toList.isPrefixOf s.toList

def endsWith (s pat : String) : Bool := pat.toList.isSuffixOf s.toList

/-- `pat in s`. -/
def contains (s pat : String) : Bool := containsL pat.toList s.toList

/-- `s.replace(old, new)` for single characters. -/
def replaceChar (s : String) (old new : Char) : String :=
  String.ofList (s.toList.map (fun c => if c = old then new else c))

/-- `s.rstrip("/")`. -/
def rstripSlash (s : String) : String :=
  String.ofList ((s.toList.reverse.dropWhile (· = '/')).reverse)

/-- `s.split(pat, 1)[0]`. -/
def beforeFirst (s pat : String) : String :=
  match splitOnceL pat.toList s.toList with
  | some (a, _) => String.ofList a
  | none => s

/-- `s.split(pat, 1)[-1]`. -/
def afterFirst (s pat : String) : String :=
  match splitOnceL pat.toList s.toList with
  | some (_, b) => String.ofList b
  | none => s

/-- `s.split(pat, n)`. -/
def splitMax (s pat : String) (n : ℕ) : List String :=
  (splitMaxL pat.toList n s.toList).map String.ofList

/-- `re.split(r"[^…]+", s)`, less the empty pieces. -/
def splitBy (keep : Char → Bool) (s : String) : List String :=
  ((splitByL keep s.toList).map String.ofList).filter (· ≠ "")

/-- `sep.join(parts)`. -/
def join (sep : String) : List String → String
  | [] => ""
  | [p] => p
  | p :: q :: ps => p ++ sep ++ join sep (q :: ps)

/-! ## Letters -/

/-- A capital letter becomes a letter beyond the capital ones. -/
theorem lt_toLower_val {c : Char} (h : c.val ≥ 'A'.val ∧ c.val ≤ 'Z'.val) :
    'Z'.val < c.toLower.val := by
  have hval : c.toLower.val = c.val + 32 := congrArg Char.val (dif_pos h)
  have hA : ('A'.val).toNat = 65 := rfl
  have hZ : ('Z'.val).toNat = 90 := rfl
  have h32 : (32 : UInt32).toNat = 32 := rfl
  rw [hval]
  simp only [ge_iff_le, UInt32.le_iff_toNat_le, UInt32.lt_iff_toNat_lt, UInt32.toNat_add, hA, hZ,
    h32] at h ⊢
  omega

theorem toLower_of_not {c : Char} (h : ¬ (c.val ≥ 'A'.val ∧ c.val ≤ 'Z'.val)) : c.toLower = c :=
  dif_neg h

theorem toLower_toLower (c : Char) : c.toLower.toLower = c.toLower := by
  by_cases h : c.val ≥ 'A'.val ∧ c.val ≤ 'Z'.val
  · exact toLower_of_not fun h' => absurd h'.2 (UInt32.not_le.2 (lt_toLower_val h))
  · rw [toLower_of_not h, toLower_of_not h]

/-- No letter becomes a digit or a mark. -/
theorem toLower_eq_iff {x : Char} (hx : x.val < 'A'.val) (c : Char) : c.toLower = x ↔ c = x := by
  have hsame : x.toLower = x := toLower_of_not fun h => absurd h.1 (UInt32.not_le.2 hx)
  by_cases h : c.val ≥ 'A'.val ∧ c.val ≤ 'Z'.val
  · constructor
    · rintro rfl
      have hZ : c.toLower.val < 'Z'.val := UInt32.lt_trans hx (by decide)
      exact absurd (lt_toLower_val h) (UInt32.not_lt.2 (UInt32.le_of_lt hZ))
    · rintro rfl
      exact absurd h.1 (UInt32.not_le.2 hx)
  · rw [toLower_of_not h]

theorem lowerL_lowerL (cs : List Char) : lowerL (lowerL cs) = lowerL cs := by
  rw [lowerL, lowerL, List.map_map]
  exact List.map_congr_left fun c _ => toLower_toLower c

theorem toNat_toUpper (c : Char) : c.toUpper.toNat =
    if 97 ≤ c.toNat ∧ c.toNat ≤ 122 then c.toNat - 32 else c.toNat := by
  unfold Char.toUpper
  by_cases h : 'a'.val ≤ c.val ∧ c.val ≤ 'z'.val
  · have h1 : 97 ≤ c.val.toNat := by simpa [UInt32.le_iff_toNat_le] using h.1
    have h2 : c.val.toNat ≤ 122 := by simpa [UInt32.le_iff_toNat_le] using h.2
    have hsub : ('A'.val - 'a'.val).toNat = 2 ^ 32 - 32 := by decide
    rw [dif_pos h, if_pos ⟨h1, h2⟩]
    show (c.val + ('A'.val - 'a'.val)).toNat = c.val.toNat - 32
    rw [UInt32.toNat_add, hsub]
    omega
  · rw [dif_neg h, if_neg (by simpa [UInt32.le_iff_toNat_le] using h)]

theorem toUpper_toUpper (c : Char) : c.toUpper.toUpper = c.toUpper := by
  refine Char.ext_iff.2 (UInt32.toNat_inj.1 ?_)
  have h := toNat_toUpper c
  have h' := toNat_toUpper c.toUpper
  rw [if_neg] at h'
  · exact h'
  · split_ifs at h <;> omega

theorem upperL_upperL (cs : List Char) : upperL (upperL cs) = upperL cs := by
  rw [upperL, upperL, List.map_map]
  exact List.map_congr_left fun c _ => toUpper_toUpper c

/-- Neither a letter nor its capital is white space. -/
theorem isSpace_toUpper (c : Char) : isSpace c.toUpper = isSpace c := by
  have hn := toNat_toUpper c
  split_ifs at hn with h
  · have hsmall : isSpace c = false := by
      simp only [isSpace, Bool.or_eq_false_iff, Bool.and_eq_false_iff, decide_eq_false_iff_not]
      omega
    have hcapital : isSpace c.toUpper = false := by
      simp only [isSpace, hn, Bool.or_eq_false_iff, Bool.and_eq_false_iff, decide_eq_false_iff_not]
      omega
    rw [hsmall, hcapital]
  · rw [isSpace, isSpace, hn]

/-! ## Trimming -/

/-- A trimmed text stays as it is. -/
theorem stripL_stripL (cs : List Char) : stripL (stripL cs) = stripL cs := by
  show ((stripL cs).dropWhile isSpace).rdropWhile isSpace = _
  have hleft : (stripL cs).dropWhile isSpace = stripL cs := by
    rw [List.dropWhile_eq_self_iff]
    intro hl hspace
    -- the first character is also the first one of the text that is trimmed on the left
    obtain ⟨rest, hrest⟩ : stripL cs <+: cs.dropWhile isSpace :=
      List.rdropWhile_prefix _ _
    have hpos : 0 < (cs.dropWhile isSpace).length := by
      rw [← hrest, List.length_append]
      exact Nat.add_pos_left hl _
    refine List.dropWhile_eq_self_iff.1 (List.dropWhile_idempotent isSpace cs) hpos ?_
    have hfirst : (cs.dropWhile isSpace)[0] = (stripL cs)[0] := by
      refine Option.some.inj ?_
      rw [← List.getElem?_eq_getElem, ← List.getElem?_eq_getElem, ← hrest,
        List.getElem?_append_left hl]
    rwa [hfirst]
  rw [hleft]
  exact List.rdropWhile_idempotent isSpace _

@[simp] theorem strip_strip (s : String) : strip (strip s) = strip s := by
  rw [strip, strip, String.toList_ofList, stripL_stripL]

/-- Capital letters keep what is trimmed away. -/
theorem stripL_upperL (cs : List Char) : stripL (upperL cs) = upperL (stripL cs) := by
  have hspace : isSpace ∘ Char.toUpper = isSpace := funext isSpace_toUpper
  rw [stripL, stripL, upperL, upperL, List.dropWhile_map, hspace, ← List.map_reverse,
    List.dropWhile_map, hspace, List.map_reverse]

theorem strip_upper (s : String) : strip (upper s) = upper (strip s) := by
  rw [strip, upper, String.toList_ofList, stripL_upperL, upper, strip, String.toList_ofList]

@[simp] theorem upper_upper (s : String) : upper (upper s) = upper s := by
  rw [upper, upper, String.toList_ofList, upperL_upperL]

theorem upper_strip_idem (s : String) : upper (strip (upper (strip s))) = upper (strip s) := by
  rw [strip_upper, strip_strip, upper_upper]

/-- A text without white space is trimmed already. -/
theorem stripL_of_forall {cs : List Char} (h : ∀ c ∈ cs, isSpace c = false) : stripL cs = cs := by
  have hdrop : ∀ l : List Char, (∀ c ∈ l, isSpace c = false) → l.dropWhile isSpace = l := by
    intro l hl
    cases l with
    | nil => rfl
    | cons c l => exact List.dropWhile_cons_of_neg (by simp [hl c List.mem_cons_self])
  rw [stripL, hdrop cs h, hdrop cs.reverse fun c hc => h c (List.mem_reverse.1 hc),
    List.reverse_reverse]

/-- A text that starts with another character than a space keeps it when it is trimmed. -/
theorem head?_stripL_cons {c : Char} (h : isSpace c = false) (cs : List Char) :
    (stripL (c :: cs)).head? = some c := by
  have hleft : (c :: cs).dropWhile isSpace = c :: cs := by
    rw [List.dropWhile_cons_of_neg (by simp [h])]
  rw [stripL, hleft]
  show ((c :: cs).rdropWhile isSpace).head? = some c
  cases hdrop : (c :: cs).rdropWhile isSpace with
  | nil =>
    have hall := List.rdropWhile_eq_nil_iff.1 hdrop c List.mem_cons_self
    rw [h] at hall
    cases hall
  | cons a rest =>
    obtain ⟨tail, htail⟩ : (c :: cs).rdropWhile isSpace <+: c :: cs := List.rdropWhile_prefix _ _
    rw [hdrop, List.cons_append] at htail
    rw [(List.cons.inj htail).1]
    rfl

/-- A text between two characters that are no spaces is trimmed already. -/
theorem stripL_cons_append {a b : Char} (ha : isSpace a = false) (hb : isSpace b = false)
    (cs : List Char) : stripL (a :: (cs ++ [b])) = a :: (cs ++ [b]) := by
  rw [stripL, List.dropWhile_cons_of_neg (by simp [ha]), ← List.cons_append, List.reverse_append,
    List.reverse_singleton, List.singleton_append, List.dropWhile_cons_of_neg (by simp [hb]),
    List.reverse_cons, List.reverse_reverse]

/-! ## Occurrences -/

theorem containsL_iff_isInfix {pat cs : List Char} : containsL pat cs = true ↔ pat <:+: cs := by
  induction cs with
  | nil => simp [containsL]
  | cons c cs ih =>
    rw [containsL, Bool.or_eq_true, ih, List.isPrefixOf_iff_prefix, List.infix_cons_iff]

theorem contains_iff {s pat : String} : contains s pat = true ↔ pat.toList <:+: s.toList :=
  containsL_iff_isInfix

/-- What has no white space in it is not lost when the text is trimmed. -/
theorem isInfix_dropWhile_isSpace {pat cs : List Char} (hpat : ∀ c ∈ pat, isSpace c = false)
    (h : pat <:+: cs) : pat <:+: cs.dropWhile isSpace := by
  induction cs with
  | nil => exact h
  | cons c cs ih =>
    by_cases hc : isSpace c = true
    · rw [List.dropWhile_cons_of_pos hc]
      rcases List.infix_cons_iff.1 h with hprefix | h
      · cases pat with
        | nil => exact List.nil_infix
        | cons a pat =>
          obtain ⟨rfl, -⟩ := List.cons_prefix_cons.1 hprefix
          exact absurd hc (by simp [hpat a List.mem_cons_self])
      · exact ih h
    · rwa [List.dropWhile_cons_of_neg hc]

theorem isInfix_stripL {pat cs : List Char} (hpat : ∀ c ∈ pat, isSpace c = false)
    (h : pat <:+: cs) : pat <:+: stripL cs := by
  rw [stripL, ← List.reverse_infix, List.reverse_reverse]
  refine isInfix_dropWhile_isSpace (fun c hc => hpat c (List.mem_reverse.1 hc)) ?_
  exact List.reverse_infix.2 (isInfix_dropWhile_isSpace hpat h)

theorem stripL_isInfix (cs : List Char) : stripL cs <:+: cs := by
  rw [stripL, ← List.reverse_infix, List.reverse_reverse]
  exact (List.dropWhile_suffix _).isInfix.trans (List.reverse_infix.2 (List.dropWhile_suffix _).isInfix)

theorem isInfix_join {sep part : String} {parts : List String} (h : part ∈ parts) :
    part.toList <:+: (join sep parts).toList := by
  induction parts with
  | nil => cases h
  | cons p ps ih =>
    cases ps with
    | nil =>
      rw [List.mem_singleton.1 h]
      exact List.infix_rfl
    | cons q ps =>
      rw [join, String.toList_append, String.toList_append]
      rcases List.mem_cons.1 h with rfl | h
      · rw [List.append_assoc]
        exact (List.prefix_append _ _).isInfix
      · exact (ih h).trans (List.suffix_append _ _).isInfix

/-! ## Sorting -/

/-- `sorted` on strings. -/
def sortedStr (l : List String) : List String := l.insertionSort (· ≤ ·)

/-- `sorted` on the set of the strings of a list. -/
def sortedSet (l : List String) : List String := sortedStr l.dedup

@[simp] theorem mem_sortedStr {l : List String} {s : String} : s ∈ sortedStr l ↔ s ∈ l := by
  simp [sortedStr]

@[simp] theorem mem_sortedSet {l : List String} {s : String} : s ∈ sortedSet l ↔ s ∈ l := by
  simp [sortedSet]

theorem nodup_sortedStr {l : List String} : (sortedStr l).Nodup ↔ l.Nodup :=
  (List.perm_insertionSort _ _).nodup_iff

theorem nodup_sortedSet (l : List String) : (sortedSet l).Nodup :=
  nodup_sortedStr.2 l.nodup_dedup

/-- Different strings come out in strictly rising order. -/
theorem pairwise_lt_sortedStr {l : List String} (h : l.Nodup) : (sortedStr l).Pairwise (· < ·) :=
  ((List.pairwise_insertionSort (· ≤ ·) l).and (nodup_sortedStr.2 h)).imp
    fun hab => lt_of_le_of_ne hab.1 hab.2

end FloWeaver.Py
