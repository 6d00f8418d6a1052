import Mathlib.Data.List.Basic

/-!
# Matching blocks of two sequences

The longest common block of two sequences, the blocks to the left and to the right of it in
turn, and the edits between the blocks: the algorithm of `difflib.SequenceMatcher`, with its
rule that leaves out the elements that are too frequent in a long second sequence.

* `findLongestMatch` — the longest block inside two windows.
* `matchingBlocks` — all blocks, with touching ones joined.
* `getOpcodes` — the edits that turn the first sequence into the second.
-/

namespace SeqMatch

variable {α : Type*} [DecidableEq α]

/-- A block: where it starts in either sequence, and its length. -/
structure Block where
  i : ℕ
  j : ℕ
  size : ℕ
deriving DecidableEq, Repr

/-- The positions of an element in the second sequence; none where it is too frequent. -/
def positions (b : List α) (x : α) : List ℕ :=
  let found := (b.zipIdx.filter fun row => row.1 = x).map (·.2)
  if 200 ≤ b.length ∧ b.length / 100 + 1 < found.length then [] else found

/-- One position of the second sequence that carries the element at `i`: `lengths` are the blocks
that end before `i`. -/
def extendMatch (i : ℕ) (lengths : List (ℕ × ℕ)) (state : Block × List (ℕ × ℕ)) (j : ℕ) :
    Block × List (ℕ × ℕ) :=
  let k := (if j = 0 then 0 else (lengths.lookup (j - 1)).getD 0) + 1
  (if state.1.size < k then ⟨i + 1 - k, j + 1 - k, k⟩ else state.1, (j, k) :: state.2)

/-- The longest block that ends at or before each position of the first window. -/
def scanMatches (a b : List α) (alo ahi blo bhi : ℕ) : Block :=
  ((List.range' alo (ahi - alo)).foldl
    (fun (state : Block × List (ℕ × ℕ)) i =>
      let js := ((a[i]?).map (positions b)).getD []
      (js.filter fun j => blo ≤ j && j < bhi).foldl (extendMatch i state.2) (state.1, []))
    (⟨alo, blo, 0⟩, [])).1

/-- Moves the start of a block to the left over equal elements. -/
def growLeft (a b : List α) (alo blo : ℕ) : ℕ → Block → Block
  | 0, m => m
  | fuel + 1, m =>
      if alo < m.i ∧ blo < m.j ∧ a[m.i - 1]? = b[m.j - 1]? then
        growLeft a b alo blo fuel ⟨m.i - 1, m.j - 1, m.size + 1⟩
      else m

/-- Moves the end of a block to the right over equal elements. -/
def growRight (a b : List α) (ahi bhi : ℕ) : ℕ → Block → Block
  | 0, m => m
  | fuel + 1, m =>
      if m.i + m.size < ahi ∧ m.j + m.size < bhi ∧ a[m.i + m.size]? = b[m.j + m.size]? then
        growRight a b ahi bhi fuel ⟨m.i, m.j, m.size + 1⟩
      else m

def findLongestMatch (a b : List α) (alo ahi blo bhi : ℕ) : Block :=
  growRight a b ahi bhi a.length
    (growLeft a b alo blo a.length (scanMatches a b alo ahi blo bhi))

/-- The blocks of two windows, from the left to the right. -/
def blocksBetween (a b : List α) : ℕ → ℕ → ℕ → ℕ → ℕ → List Block
  | 0, _, _, _, _ => []
  | fuel + 1, alo, ahi, blo, bhi =>
      let m := findLongestMatch a b alo ahi blo bhi
      if m.size = 0 then []
      else
        (if alo < m.i ∧ blo < m.j then blocksBetween a b fuel alo m.i blo m.j else []) ++ [m] ++
          (if m.i + m.size < ahi ∧ m.j + m.size < bhi then
            blocksBetween a b fuel (m.i + m.size) ahi (m.j + m.size) bhi
          else [])

/-- Joins blocks that touch in both sequences. -/
def joinBlocks : Block → List Block → List Block
  | current, [] => if current.size = 0 then [] else [current]
  | current, m :: rest =>
      if current.i + current.size = m.i ∧ current.j + current.size = m.j then
        joinBlocks ⟨current.i, current.j, current.size + m.size⟩ rest
      else (if current.size = 0 then [] else [current]) ++ joinBlocks m rest

def matchingBlocks (a b : List α) : List Block :=
  joinBlocks ⟨0, 0, 0⟩ (blocksBetween a b (a.length + 1) 0 a.length 0 b.length) ++
    [⟨a.length, b.length, 0⟩]

/-- The kinds of an edit. -/
inductive Tag where
  | replace
  | delete
  | insert
  | equal
deriving DecidableEq, Repr

/-- An edit of a window of the first sequence into a window of the second. -/
structure Opcode where
  tag : Tag
  i1 : ℕ
  i2 : ℕ
  j1 : ℕ
  j2 : ℕ
deriving DecidableEq, Repr

/-- The edits from the positions `i` and `j` on. -/
def opcodesFrom : ℕ → ℕ → List Block → List Opcode
  | _, _, [] => []
  | i, j, m :: rest =>
      (if i < m.i ∧ j < m.j then [⟨.replace, i, m.i, j, m.j⟩]
        else if i < m.i then [⟨.delete, i, m.i, j, m.j⟩]
        else if j < m.j then [⟨.insert, i, m.i, j, m.j⟩]
        else []) ++
      (if m.size = 0 then [] else [⟨.equal, m.i, m.i + m.size, m.j, m.j + m.size⟩]) ++
      opcodesFrom (m.i + m.size) (m.j + m.size) rest

def getOpcodes (a b : List α) : List Opcode := opcodesFrom 0 0 (matchingBlocks a b)

example : getOpcodes "qabxcd".toList "abycdf".toList =
    [⟨.delete, 0, 1, 0, 0⟩, ⟨.equal, 1, 3, 0, 2⟩, ⟨.replace, 3, 4, 2, 3⟩, ⟨.equal, 4, 6, 3, 5⟩,
      ⟨.insert, 6, 6, 5, 6⟩] := by decide +kernel

end SeqMatch
