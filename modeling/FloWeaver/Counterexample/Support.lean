import FloWeaver.Lib.Cover
import FloWeaver.Py.Sort
import FloWeaver.Py.Val
import Mathlib.Data.Finset.Card

/-!
# The support of a witness

What is assumed about a witness is cut down to a few atoms that explain what its context mentions:
they are gathered greedily, and then dropped where the others explain enough.

* `Atom`, `Atom.condition` — one assumption.
* `coverLoop`, `pruneLoop` — the two loops.
* `supportSet` — the atoms that are left.
* `supportSet_minimal_cover` — they are a cover, and none of them can be dropped.
-/

namespace FloWeaver.Support

open Py Cover

structure Atom where
  kind : String
  key : String
  value : Val
  tokens : Finset String
  cost : ℤ := 1

def Atom.condition (atom : Atom) : String :=
  if atom.kind = "path" then atom.value.pyStr
  else if atom.kind = "framework_event" then "framework_event:" ++ atom.value.pyStr
  else if atom.kind = "resource" then "resource:" ++ atom.value.pyStr
  else atom.kind ++ "." ++ atom.key ++ "=" ++ atom.value.pyStr

/-! ## The loops

An atom is an object: `ι` are the references, and two of them may point to equal atoms. -/

section Loops

variable {ι : Type} (atomAt : ι → Atom)

def tokensAt (atom : ι) : Finset String := (atomAt atom).tokens

/-- Most open tokens first, then the cheapest and the shortest condition. -/
def rank (remaining : Finset String) (atom : ι) : ℤ ×ₗ ℤ ×ₗ ℕ :=
  toLex (-((tokensAt atomAt atom ∩ remaining).card : ℤ),
    toLex ((atomAt atom).cost, (atomAt atom).condition.length))

/-- Each `(kind, key, str(value))` once. -/
def distinctAtoms (atoms : List ι) : List ι :=
  (atoms.foldl (fun (acc : List ι × List (String × String × String)) atom =>
    let identity := ((atomAt atom).kind, (atomAt atom).key, (atomAt atom).value.pyStr)
    if acc.2.contains identity then acc else (acc.1 ++ [atom], identity :: acc.2)) ([], [])).1

variable [DecidableEq ι]

/-- The atoms that are selected, and the candidates that are left. -/
def coverLoop (remaining : Finset String) (selected candidates : List ι) : List ι × List ι :=
  if remaining = ∅ then (selected, candidates)
  else
    match _hbest : (sortedBy (rank atomAt remaining) candidates).head? with
    | none => (selected, candidates)
    | some best =>
        let covered := tokensAt atomAt best ∩ remaining
        if covered = ∅ then (selected, candidates)
        else coverLoop (remaining \ covered) (selected ++ [best]) (without candidates best)
termination_by candidates.length
decreasing_by exact length_without_lt (mem_sortedBy.1 (List.mem_of_head? _hbest))

/-- Drops the first atom that the others make superfluous, and starts again. -/
def pruneLoop (target : Finset String) (selected : List ι) : List ι :=
  if 1 < selected.length then
    match _hfound : selected.find? fun atom =>
        target ⊆ carried (tokensAt atomAt) (without selected atom) with
    | some atom => pruneLoop target (without selected atom)
    | none => selected
  else selected
termination_by selected.length
decreasing_by exact length_without_lt (List.mem_of_find?_eq_some _hfound)

/-- `_support_set`. -/
def supportSet (atoms : List ι) (contextTokens : Finset String) : List ι :=
  if atoms = [] then []
  else
    let targetTokens := contextTokens ∩ carried (tokensAt atomAt) atoms
    if targetTokens = ∅ then distinctAtoms atomAt atoms
    else
      let (selected, candidates) := coverLoop atomAt targetTokens [] atoms
      pruneLoop atomAt targetTokens (if selected = [] then candidates.take 1 else selected)

end Loops

/-! ## What the loops keep -/

section Facts

variable {ι : Type} {atomAt : ι → Atom}

/-- The first atom of the ranking carries an open token when any of them does. -/
theorem inter_nonempty_of_head? {remaining : Finset String} {candidates : List ι} {best : ι}
    (hbest : (sortedBy (rank atomAt remaining) candidates).head? = some best)
    (hopen : remaining.Nonempty) (h : remaining ⊆ carried (tokensAt atomAt) candidates) :
    (tokensAt atomAt best ∩ remaining).Nonempty := by
  obtain ⟨token, htoken⟩ := hopen
  obtain ⟨atom, hatom, hcarries⟩ := mem_carried.1 (h htoken)
  have hle : rank atomAt remaining best ≤ rank atomAt remaining atom := by
    obtain ⟨pre, post, rfl, hpre, hpost⟩ := (head?_sortedBy_iff _).1 hbest
    rcases List.mem_append.1 hatom with hatom | hatom
    · exact (hpre atom hatom).le
    · rcases List.mem_cons.1 hatom with rfl | hatom
      · exact le_rfl
      · exact hpost atom hatom
  have hpos : 0 < (tokensAt atomAt atom ∩ remaining).card :=
    Finset.card_pos.2 ⟨token, Finset.mem_inter.2 ⟨hcarries, htoken⟩⟩
  have hcard : -((tokensAt atomAt best ∩ remaining).card : ℤ) ≤
      -((tokensAt atomAt atom ∩ remaining).card : ℤ) := by
    rcases Prod.Lex.toLex_le_toLex.1 hle with hlt | ⟨heq, -⟩
    · exact hlt.le
    · exact heq.le
  refine Finset.card_pos.1 ?_
  omega

variable [DecidableEq ι]

/-- The loop ends when no token is open any more. -/
theorem gathering_coverLoop {atoms selected candidates : List ι} {target remaining : Finset String}
    (h : Gathering (tokensAt atomAt) atoms target remaining selected candidates) :
    Gathering (tokensAt atomAt) atoms target ∅ (coverLoop atomAt remaining selected candidates).1
      (coverLoop atomAt remaining selected candidates).2 := by
  fun_induction coverLoop atomAt remaining selected candidates with
  | case1 => exact h
  | case2 remaining selected candidates hopen hnone =>
    -- without a candidate nothing can be open
    obtain ⟨token, htoken⟩ := Finset.nonempty_iff_ne_empty.2 hopen
    obtain ⟨atom, hatom, -⟩ := mem_carried.1 (h.coverable htoken)
    rw [List.head?_eq_none_iff] at hnone
    exact absurd (mem_sortedBy.2 hatom) (hnone ▸ List.not_mem_nil)
  | case3 remaining selected candidates hopen best hbest covered hnothing =>
    have hsome := inter_nonempty_of_head? hbest (Finset.nonempty_iff_ne_empty.2 hopen) h.coverable
    exact absurd hnothing hsome.ne_empty
  | case4 remaining selected candidates hopen best hbest covered hsome ih =>
    exact ih (h.take (mem_sortedBy.1 (List.mem_of_head? hbest)))

/-- The loop ends when no atom is superfluous any more. -/
theorem minimal_pruneLoop {target : Finset String} {selected : List ι} (htarget : target.Nonempty)
    (hnodup : selected.Nodup) (hcovers : target ⊆ carried (tokensAt atomAt) selected) :
    Minimal (tokensAt atomAt) target (pruneLoop atomAt target selected) ∧
      pruneLoop atomAt target selected ⊆ selected := by
  fun_induction pruneLoop atomAt target selected with
  | case1 selected hmany atom hfound ih =>
    have hstill := List.find?_some hfound
    obtain ⟨hminimal, hsub⟩ := ih (hnodup.filter _) (of_decide_eq_true hstill)
    exact ⟨hminimal, fun x hx => (mem_without.1 (hsub hx)).1⟩
  | case2 selected hmany hnone =>
    refine ⟨⟨hnodup, hcovers, fun atom hatom hstill => ?_⟩, List.Subset.refl selected⟩
    exact List.find?_eq_none.1 hnone atom hatom (decide_eq_true hstill)
  | case3 selected hfew =>
    exact ⟨⟨hnodup, hcovers, fun atom hatom =>
      not_subset_carried_of_length_le htarget (not_lt.1 hfew) hatom⟩, List.Subset.refl selected⟩

/-- What an atom mentions of the context is covered by few atoms. -/
theorem minimal_supportSet {atoms : List ι} {contextTokens : Finset String}
    (htarget : (contextTokens ∩ carried (tokensAt atomAt) atoms).Nonempty) :
    Minimal (tokensAt atomAt) (contextTokens ∩ carried (tokensAt atomAt) atoms)
        (supportSet atomAt atoms contextTokens) ∧
      supportSet atomAt atoms contextTokens ⊆ atoms := by
  have hatoms : atoms ≠ [] := by
    rintro rfl
    simp [carried] at htarget
  have hstart : Gathering (tokensAt atomAt) atoms (contextTokens ∩ carried (tokensAt atomAt) atoms)
      (contextTokens ∩ carried (tokensAt atomAt) atoms) [] atoms := .start Finset.inter_subset_right
  have hend := gathering_coverLoop hstart
  rw [supportSet, if_neg hatoms]
  dsimp only
  rw [if_neg htarget.ne_empty]
  generalize coverLoop atomAt (contextTokens ∩ carried (tokensAt atomAt) atoms) [] atoms = result
    at hend
  have hselected : result.1 ≠ [] := by
    intro hnil
    have hcovers := hend.covers
    rw [hnil] at hcovers
    exact htarget.ne_empty (Finset.subset_empty.1 hcovers)
  rw [if_neg hselected]
  obtain ⟨hminimal, hsub⟩ := minimal_pruneLoop htarget hend.nodup hend.covers
  exact ⟨hminimal, fun atom hatom => hend.taken_mem atom (hsub hatom)⟩

end Facts

section Result

variable {ι : Type} [DecidableEq ι]

/-- **The support is a minimal cover.**  When an atom mentions the context, the atoms that are left
mention all that any atom mentions of it, and each of them mentions something that no other does. -/
theorem supportSet_minimal_cover (atomAt : ι → Atom) (atoms : List ι) (contextTokens : Finset String)
    (h : ∃ atom ∈ atoms, ∃ token ∈ (atomAt atom).tokens, token ∈ contextTokens) :
    (∀ atom ∈ supportSet atomAt atoms contextTokens, atom ∈ atoms) ∧
      (∀ token ∈ contextTokens, (∃ atom ∈ atoms, token ∈ (atomAt atom).tokens) →
        ∃ atom ∈ supportSet atomAt atoms contextTokens, token ∈ (atomAt atom).tokens) ∧
      ∀ before atom after, supportSet atomAt atoms contextTokens = before ++ atom :: after →
        ∃ token ∈ contextTokens, (∃ other ∈ atoms, token ∈ (atomAt other).tokens) ∧
          ∀ other ∈ before ++ after, token ∉ (atomAt other).tokens := by
  obtain ⟨atom, hatom, token, htoken, hcontext⟩ := h
  have htarget : (contextTokens ∩ carried (tokensAt atomAt) atoms).Nonempty :=
    ⟨token, Finset.mem_inter.2 ⟨hcontext, mem_carried.2 ⟨atom, hatom, htoken⟩⟩⟩
  obtain ⟨hminimal, hsub⟩ := minimal_supportSet htarget
  refine ⟨fun _ hmem => hsub hmem, fun token hcontext hmentioned => ?_, ?_⟩
  · exact mem_carried.1 (hminimal.covers
      (Finset.mem_inter.2 ⟨hcontext, mem_carried.2 hmentioned⟩))
  · intro before atom after heq
    obtain ⟨token, htoken, hothers⟩ := (heq ▸ hminimal).exists_token
    obtain ⟨hcontext, hmentioned⟩ := Finset.mem_inter.1 htoken
    exact ⟨token, hcontext, mem_carried.1 hmentioned, hothers⟩

/-- A path condition, an event and a resource. -/
def doorAtoms : Fin 3 → Atom
  | 0 => { kind := "path", key := "door_open", value := .str "door_open", tokens := {"door_open"} }
  | 1 => { kind := "framework_event", key := "door_open:lock", value := .str "door_open:lock"
           tokens := {"door_open:lock"} }
  | 2 => { kind := "resource", key := "lock", value := .str "lock", tokens := {"lock"} }

theorem supportSet_minimal_cover_door :
    (∀ atom ∈ supportSet doorAtoms [0, 1, 1, 2] {"lock", "door_open"}, atom ∈ [0, 1, 1, 2]) ∧
      (∀ token ∈ ({"lock", "door_open"} : Finset String),
        (∃ atom ∈ [0, 1, 1, 2], token ∈ (doorAtoms atom).tokens) →
          ∃ atom ∈ supportSet doorAtoms [0, 1, 1, 2] {"lock", "door_open"},
            token ∈ (doorAtoms atom).tokens) ∧
      ∀ before atom after,
        supportSet doorAtoms [0, 1, 1, 2] {"lock", "door_open"} = before ++ atom :: after →
          ∃ token ∈ ({"lock", "door_open"} : Finset String),
            (∃ other ∈ [0, 1, 1, 2], token ∈ (doorAtoms other).tokens) ∧
              ∀ other ∈ before ++ after, token ∉ (doorAtoms other).tokens :=
  supportSet_minimal_cover doorAtoms [0, 1, 1, 2] {"lock", "door_open"}
    ⟨0, by decide, "door_open", by decide, by decide⟩

end Result

end FloWeaver.Support
