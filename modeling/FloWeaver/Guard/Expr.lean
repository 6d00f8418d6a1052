import FloWeaver.Lib.Pieces
import FloWeaver.Py.Val

/-!
# Guard expressions

The language of the guards: tokens, `NOT`, `AND`, `OR` and parentheses, with the words of the
operators in any letter case and spaces between the words.  A syntax tree knows its spaces and
spellings, so that its text is determined.

* `GuardExpr` — the syntax trees, and `GuardExpr.chars`, their texts.
* `GuardExpr.value` — the value of a tree, read as it is nested.
* `GuardExpr.flat` — the pieces of the text between the operators, with parentheses and `NOT`
  as parts of the pieces, and `GuardExpr.flatValue`, the value of these pieces.
* `GuardExpr.Plain` — trees without `NOT` and parentheses.
-/

namespace FloWeaver.Guard

open Py ListCut

/-! ## Words -/

/-- A character that can stand in a word. -/
def isWordChar (c : Char) : Bool := !isSpace c && c ≠ '(' && c ≠ ')'

/-- The words of the operators. -/
inductive Op where
  | and
  | or
  | not
deriving DecidableEq

def Op.word : Op → List Char
  | .and => "AND".toList
  | .or => "OR".toList
  | .not => "NOT".toList

/-- A token: a word that is not the word of an operator. -/
structure Token where
  chars : List Char
  ne_nil : chars ≠ []
  isWord : ∀ c ∈ chars, isWordChar c = true
  not_op : ∀ op : Op, upperL chars ≠ op.word

/-- The word of an operator in some letter case. -/
structure Keyword (op : Op) where
  chars : List Char
  spelled : upperL chars = op.word

def spaces (n : ℕ) : List Char := List.replicate n ' '

/-! ## Trees -/

mutual

/-- A token, an expression in parentheses, or a negation. -/
inductive Operand where
  | token (t : Token)
  | paren (left : ℕ) (e : GuardExpr) (right : ℕ)
  | not (kw : Keyword .not) (gap : ℕ) (u : Operand)

/-- Operands joined by `AND`. -/
inductive Conj where
  | one (u : Operand)
  | and (u : Operand) (left : ℕ) (kw : Keyword .and) (right : ℕ) (c : Conj)

/-- Conjunctions joined by `OR`. -/
inductive GuardExpr where
  | one (c : Conj)
  | or (c : Conj) (left : ℕ) (kw : Keyword .or) (right : ℕ) (e : GuardExpr)

end

/-! ## Texts -/

/-- The word of an operator between spaces, at least one on each side. -/
def infixText {op : Op} (left : ℕ) (kw : Keyword op) (right : ℕ) : List Char :=
  spaces (left + 1) ++ kw.chars ++ spaces (right + 1)

mutual

def Operand.chars : Operand → List Char
  | .token t => t.chars
  | .paren left e right => '(' :: spaces left ++ e.chars ++ spaces right ++ [')']
  | .not kw gap u => kw.chars ++ spaces (gap + 1) ++ u.chars

def Conj.chars : Conj → List Char
  | .one u => u.chars
  | .and u left kw right c => u.chars ++ infixText left kw right ++ c.chars

def GuardExpr.chars : GuardExpr → List Char
  | .one c => c.chars
  | .or c left kw right e => c.chars ++ infixText left kw right ++ e.chars

end

def GuardExpr.text (e : GuardExpr) : String := String.ofList e.chars

/-! ## Values -/

section Values

variable {ε : Type} (tokenValue : List Char → Except ε Bool)

mutual

def Operand.value : Operand → Except ε Bool
  | .token t => tokenValue t.chars
  | .paren _ e _ => e.value
  | .not _ _ u => do return !(← u.value)

def Conj.value : Conj → Except ε Bool
  | .one u => u.value
  | .and u _ _ _ c => do if ← u.value then c.value else return false

/-- The value of a tree, from left to right and no further than needed. -/
def GuardExpr.value : GuardExpr → Except ε Bool
  | .one c => c.value
  | .or c _ _ _ e => do if ← c.value then return true else e.value

end

end Values

/-! ## Any and all of a list -/

section AnyAll

variable {ε α β : Type} {f : β → Except ε Bool} {g : α → Except ε Bool} {k : α → β} {l : List α}

theorem allM_map_congr (h : ∀ a ∈ l, f (k a) = g a) : (l.map k).allM f = l.allM g := by
  induction l with
  | nil => rfl
  | cons a l ih =>
    rw [List.map_cons, List.allM, List.allM, h a List.mem_cons_self,
      ih fun b hb => h b (List.mem_cons_of_mem _ hb)]

theorem anyM_map_congr (h : ∀ a ∈ l, f (k a) = g a) : (l.map k).anyM f = l.anyM g := by
  induction l with
  | nil => rfl
  | cons a l ih =>
    rw [List.map_cons, List.anyM, List.anyM, h a List.mem_cons_self,
      ih fun b hb => h b (List.mem_cons_of_mem _ hb)]

theorem allM_congr {g' : α → Except ε Bool} (h : ∀ a ∈ l, g a = g' a) : l.allM g = l.allM g' := by
  have hmap := allM_map_congr (f := g) (k := id) h
  rwa [List.map_id] at hmap

theorem allM_singleton (a : α) : [a].allM g = g a := by
  rw [List.allM]
  rcases g a with e | _ | _ <;> rfl

theorem anyM_singleton (a : α) : [a].anyM g = g a := by
  rw [List.anyM]
  rcases g a with e | _ | _ <;> rfl

end AnyAll

/-! ## Flat reading -/

mutual

def Operand.flat : Operand → List (List (List Char))
  | .token t => [[t.chars]]
  | .paren left e right =>
      glueAll [['(' :: spaces left]] (glueAll e.flat [[spaces right ++ [')']]])
  | .not kw gap u => glueAll [[kw.chars ++ spaces (gap + 1)]] u.flat

def Conj.flat : Conj → List (List (List Char))
  | .one u => u.flat
  | .and u _ _ _ c => glueAll u.flat (glueAll [[[], []]] c.flat)

/-- The pieces of the text between the operators: a list of alternatives, each a list of
pieces. -/
def GuardExpr.flat : GuardExpr → List (List (List Char))
  | .one c => c.flat
  | .or c _ _ _ e => glueAll c.flat (glueAll [[[]], [[]]] e.flat)

end

/-- The value of a list of alternatives, each a list of pieces. -/
def alternativesValue {ε : Type} (pieceValue : List Char → Except ε Bool)
    (alternatives : List (List (List Char))) : Except ε Bool :=
  alternatives.anyM fun pieces => pieces.allM pieceValue

/-- The value of the pieces, whatever the parentheses mean. -/
def GuardExpr.flatValue {ε : Type} (pieceValue : List Char → Except ε Bool) (e : GuardExpr) :
    Except ε Bool :=
  alternativesValue pieceValue e.flat

/-! ## Plain expressions -/

def Operand.Plain : Operand → Prop
  | .token _ => True
  | .paren _ _ _ | .not _ _ _ => False

def Conj.Plain : Conj → Prop
  | .one u => u.Plain
  | .and u _ _ _ c => u.Plain ∧ c.Plain

/-- No `NOT` and no parentheses. -/
def GuardExpr.Plain : GuardExpr → Prop
  | .one c => c.Plain
  | .or c _ _ _ e => c.Plain ∧ e.Plain

mutual

def Operand.tokens : Operand → List Token
  | .token t => [t]
  | .paren _ e _ => e.tokens
  | .not _ _ u => u.tokens

def Conj.tokens : Conj → List Token
  | .one u => u.tokens
  | .and u _ _ _ c => u.tokens ++ c.tokens

def GuardExpr.tokens : GuardExpr → List Token
  | .one c => c.tokens
  | .or c _ _ _ e => c.tokens ++ e.tokens

end

end FloWeaver.Guard
