import FloWeaver.Guard.RunnerReading

/-!
# What the runner computes for a guard text

* `guardRound` — one round of the runner, once the text is trimmed and the parentheses around
  it are dropped; `guardRound_or`, `guardRound_and`, `guardRound_not`, `guardRound_token` say
  what it does for each kind of expression.
* `guardOk_text` — the runner computes the value of the expression as it is nested.
-/

namespace FloWeaver.Guard

open Py ListCut Runner

/-! ## Values -/

section Values

variable {ε : Type} (tokenValue : List Char → Except ε Bool)

theorem Conj.value_eq (c : Conj) :
    c.value tokenValue = c.operands.allM (Operand.value tokenValue) := by
  cases c with
  | one u =>
    rw [Conj.value, Conj.operands, List.allM]
    rcases u.value tokenValue with e | _ | _ <;> rfl
  | and u left kw right c =>
    rw [Conj.value, Conj.operands, List.allM, Conj.value_eq c]
    rcases u.value tokenValue with e | _ | _ <;> rfl

theorem GuardExpr.value_eq (e : GuardExpr) :
    e.value tokenValue = e.alternatives.anyM (Conj.value tokenValue) := by
  cases e with
  | one c =>
    rw [GuardExpr.value, GuardExpr.alternatives, List.anyM]
    rcases c.value tokenValue with e | _ | _ <;> rfl
  | or c left kw right e =>
    rw [GuardExpr.value, GuardExpr.alternatives, List.anyM, GuardExpr.value_eq e]
    rcases c.value tokenValue with e | _ | _ <;> rfl

end Values

theorem Conj.length_operand : ∀ (c : Conj), ∀ u ∈ c.operands, u.chars.length ≤ c.chars.length
  | .one u, v, hv => by
      rw [Conj.operands, List.mem_singleton] at hv
      rw [hv, Conj.chars]
  | .and u left kw right c, v, hv => by
      rw [Conj.chars, List.length_append, List.length_append]
      rcases List.mem_cons.1 hv with rfl | hv
      · omega
      · have := Conj.length_operand c v hv
        omega

theorem GuardExpr.length_alternative : ∀ (e : GuardExpr), ∀ c ∈ e.alternatives,
    c.chars.length ≤ e.chars.length
  | .one c, d, hd => by
      rw [GuardExpr.alternatives, List.mem_singleton] at hd
      rw [hd, GuardExpr.chars]
  | .or c left kw right e, d, hd => by
      rw [GuardExpr.chars, List.length_append, List.length_append]
      rcases List.mem_cons.1 hd with rfl | hd
      · omega
      · have := GuardExpr.length_alternative e d hd
        omega

theorem length_infix_pos {op : Op} (left : ℕ) (kw : Keyword op) (right : ℕ) :
    0 < (infixText left kw right).length := by
  simp [infixText, spaces]

section Reading

variable (serviceData : Dict)

/-- One round of the runner, with the text trimmed and the parentheses around it dropped. -/
def guardRound (fuel : ℕ) (expr : List Char) : Except RunnerError Bool :=
  if 1 < (splitBoolExpr expr Op.or.word).length then
    (splitBoolExpr expr Op.or.word).anyM (guardOkL serviceData fuel)
  else if 1 < (splitBoolExpr expr Op.and.word).length then
    (splitBoolExpr expr Op.and.word).allM (guardOkL serviceData fuel)
  else if "NOT ".toList.isPrefixOf (upperL expr) then do
    let value ← guardOkL serviceData fuel (expr.drop 4)
    return !value
  else tokenOk serviceData expr

theorem guardOkL_succ (fuel : ℕ) (guard : List Char) : guardOkL serviceData (fuel + 1) guard =
    guardRound serviceData fuel
      (stripParens (stripL (if guard.isEmpty then "true".toList else guard))) := rfl

theorem guardOkL_spaces (fuel n : ℕ) {cs : List Char} (hcs : cs ≠ [] ∧ Trimmed cs) :
    guardOkL serviceData (fuel + 1) (spaces n ++ cs) =
      guardRound serviceData fuel (stripParens cs) := by
  have hne : ¬(spaces n ++ cs).isEmpty = true := by simp [hcs.1]
  rw [guardOkL_succ, if_neg hne, strip_front n hcs]

variable {serviceData} {fuel : ℕ}

/-- An `OR` outside parentheses. -/
theorem guardRound_or {c : Conj} {left : ℕ} {kw : Keyword .or} {right : ℕ} {e : GuardExpr}
    (ih : ∀ d ∈ (GuardExpr.or c left kw right e).alternatives,
      guardOkL serviceData fuel d.chars = d.value (tokenOk serviceData)) :
    guardRound serviceData fuel (GuardExpr.or c left kw right e).chars =
      (GuardExpr.or c left kw right e).value (tokenOk serviceData) := by
  have hlen : 1 < (GuardExpr.or c left kw right e).alternatives.length := by
    cases e <;> simp [GuardExpr.alternatives]
  rw [guardRound, GuardExpr.splitOr, if_pos (by rwa [List.length_map]), anyM_map_congr ih,
    GuardExpr.value_eq]

/-- An `AND` outside parentheses, and no `OR`. -/
theorem guardRound_and {u : Operand} {left : ℕ} {kw : Keyword .and} {right : ℕ} {c : Conj}
    (ih : ∀ v ∈ (Conj.and u left kw right c).operands,
      guardOkL serviceData fuel v.chars = v.value (tokenOk serviceData)) :
    guardRound serviceData fuel (Conj.and u left kw right c).chars =
      (Conj.and u left kw right c).value (tokenOk serviceData) := by
  have hor := GuardExpr.splitOr (.one (.and u left kw right c))
  rw [GuardExpr.chars] at hor
  have hlen : 1 < (Conj.and u left kw right c).operands.length := by
    cases c <;> simp [Conj.operands]
  rw [guardRound, hor, if_neg (by simp [GuardExpr.alternatives]), Conj.splitAnd,
    if_pos (by rwa [List.length_map]), allM_map_congr ih, Conj.value_eq]

theorem guardRound_operand (u : Operand) : guardRound serviceData fuel u.chars =
    if "NOT ".toList.isPrefixOf (upperL u.chars) then do
      let value ← guardOkL serviceData fuel (u.chars.drop 4)
      return !value
    else tokenOk serviceData u.chars := by
  have hor := GuardExpr.splitOr (.one (.one u))
  have hand := Conj.splitAnd (.one u)
  rw [GuardExpr.chars, Conj.chars] at hor
  rw [Conj.chars] at hand
  rw [guardRound, hor, if_neg (by simp [GuardExpr.alternatives]), hand,
    if_neg (by simp [Conj.operands])]

theorem guardRound_token (t : Token) :
    guardRound serviceData fuel (Operand.token t).chars =
      (Operand.token t).value (tokenOk serviceData) := by
  have hpre : ¬"NOT ".toList.isPrefixOf (upperL t.chars) = true := by
    intro h
    obtain ⟨more, hmore⟩ := List.isPrefixOf_iff_prefix.1 h
    have hmem : ' ' ∈ upperL t.chars := by
      rw [← hmore]
      exact List.mem_append_left _ (by decide)
    obtain ⟨c, hc, hupper⟩ := List.mem_map.1 hmem
    rw [eq_space_of_toUpper hupper] at hc
    exact absurd (t.isWord _ hc) (by decide)
  rw [guardRound_operand, Operand.chars, if_neg hpre, Operand.value]

theorem guardRound_not {kw : Keyword .not} {gap : ℕ} {u : Operand}
    (ih : guardOkL serviceData fuel (spaces gap ++ u.chars) = u.value (tokenOk serviceData)) :
    guardRound serviceData fuel (Operand.not kw gap u).chars =
      (Operand.not kw gap u).value (tokenOk serviceData) := by
  have htext : (Operand.not kw gap u).chars = kw.chars ++ (' ' :: (spaces gap ++ u.chars)) := by
    rw [Operand.chars, List.append_assoc]
    rfl
  have hlen : kw.chars.length = 3 := by
    have := congrArg List.length kw.spelled
    rwa [upperL, List.length_map] at this
  have hpre : "NOT ".toList.isPrefixOf (upperL (Operand.not kw gap u).chars) = true := by
    rw [htext, upperL_append, kw.spelled]
    exact List.isPrefixOf_iff_prefix.2 ⟨upperL (spaces gap ++ u.chars), rfl⟩
  have hdrop : (Operand.not kw gap u).chars.drop 4 = spaces gap ++ u.chars := by
    rw [htext, List.drop_append, hlen, List.drop_eq_nil_of_le (by omega)]
    rfl
  rw [guardRound_operand, if_pos hpre, hdrop, ih, Operand.value]

theorem length_alternative_lt {c : Conj} {left : ℕ} {kw : Keyword .or} {right : ℕ} {e : GuardExpr}
    {d : Conj} (hd : d ∈ (GuardExpr.or c left kw right e).alternatives) :
    d.chars.length < (GuardExpr.or c left kw right e).chars.length := by
  rw [GuardExpr.chars, List.length_append, List.length_append]
  have hinfix := length_infix_pos left kw right
  rcases List.mem_cons.1 hd with rfl | hd
  · omega
  · have := e.length_alternative d hd
    omega

theorem length_operand_lt {u : Operand} {left : ℕ} {kw : Keyword .and} {right : ℕ} {c : Conj}
    {v : Operand} (hv : v ∈ (Conj.and u left kw right c).operands) :
    v.chars.length < (Conj.and u left kw right c).chars.length := by
  rw [Conj.chars, List.length_append, List.length_append]
  have hinfix := length_infix_pos left kw right
  rcases List.mem_cons.1 hv with rfl | hv
  · omega
  · have := c.length_operand v hv
    omega

/-- The runner reads an expression as it is nested. -/
theorem guardOkL_text (fuel n : ℕ) (e : GuardExpr) (hlen : e.chars.length < fuel) :
    guardOkL serviceData fuel (spaces n ++ e.chars) = e.value (tokenOk serviceData) := by
  induction hsize : e.chars.length using Nat.strong_induction_on generalizing fuel n e with
  | _ size ih =>
    obtain ⟨fuel, rfl⟩ : ∃ fuel', fuel = fuel' + 1 := ⟨fuel - 1, by omega⟩
    subst hsize
    rw [guardOkL_spaces _ _ _ e.trimmed_chars]
    -- the parts of a text are shorter, so that one round less is enough for them
    have hconj : ∀ d : Conj, d.chars.length < e.chars.length →
        guardOkL serviceData fuel d.chars = d.value (tokenOk serviceData) := by
      intro d hd
      have h := ih _ hd fuel 0 (.one d) (by rw [GuardExpr.chars]; omega) (by rw [GuardExpr.chars])
      rwa [GuardExpr.chars, GuardExpr.value] at h
    have hoperand : ∀ (m : ℕ) (u : Operand), u.chars.length < e.chars.length →
        guardOkL serviceData fuel (spaces m ++ u.chars) = u.value (tokenOk serviceData) := by
      intro m u hu
      have h := ih _ hu fuel m (.one (.one u)) (by rw [GuardExpr.chars, Conj.chars]; omega)
        (by rw [GuardExpr.chars, Conj.chars])
      rwa [GuardExpr.chars, GuardExpr.value, Conj.chars, Conj.value] at h
    cases e with
    | or c left kw right e =>
      rw [GuardExpr.stripParens_chars (by simp)]
      exact guardRound_or fun d hd => hconj d (length_alternative_lt hd)
    | one c =>
      cases c with
      | and u left kw right c =>
        rw [GuardExpr.stripParens_chars (by simp), GuardExpr.chars, GuardExpr.value]
        rw [GuardExpr.chars] at hoperand
        exact guardRound_and fun d hd => hoperand 0 d (length_operand_lt hd)
      | one u =>
        rw [GuardExpr.chars, Conj.chars] at hoperand hlen ih
        rw [GuardExpr.value, Conj.value]
        cases u with
        | token t =>
          rw [GuardExpr.stripParens_chars (by simp), GuardExpr.chars, Conj.chars]
          exact guardRound_token t
        | not kw gap u =>
          rw [GuardExpr.stripParens_chars (by simp), GuardExpr.chars, Conj.chars]
          refine guardRound_not (hoperand gap u ?_)
          simp [Operand.chars, spaces]
          omega
        | paren left e right =>
          have hshort : e.chars.length < (Operand.paren left e right).chars.length := by
            simp [Operand.chars]
            omega
          have h := ih _ hshort (fuel + 1) 0 e (by omega) rfl
          rw [guardOkL_spaces _ _ _ e.trimmed_chars] at h
          rw [GuardExpr.chars, Conj.chars, stripParens_paren, h, Operand.value]

end Reading

/-- The runner computes the value of the expression as it is nested. -/
theorem guardOk_text (e : GuardExpr) (serviceData : Dict) :
    guardOk e.text serviceData = e.value (tokenOk serviceData) := by
  have htext : e.text.toList = e.chars := String.toList_ofList
  have hlength : e.text.length = e.chars.length := by rw [← String.length_toList, htext]
  rw [guardOk, htext, hlength]
  exact guardOkL_text _ 0 e (by omega)

end FloWeaver.Guard
