import Mathlib.Data.List.Sort
import Mathlib.Data.Prod.Lex

/-!
# Best-first search

The entries of a worklist are visited in the order of their ranks.  A visit passes the state over,
reports something, or puts the successors of the state on the worklist.  The search ends when the
worklist is empty, or after a number of visits.

* `explore` — the search.
* `Seen` — the states that expansions lead to.
* `explore_sound` — whatever is found is reported by a state that is seen.
* `explore_complete` — a search that empties its worklist visits every state that is seen.
-/

namespace BestFirst

variable {σ ω ε κ : Type}

/-- What a visit does with a state. -/
inductive Visit (σ ω : Type) where
  | skip
  | report (found : ω)
  | expand (successors : List σ)

/-- A state on the worklist; the order tells entries of one rank apart. -/
structure Entry (κ σ : Type) where
  rank : κ
  order : ℕ
  state : σ

section Search

variable [LinearOrder κ]

/-- The place of an entry. -/
def Entry.key (entry : Entry κ σ) : κ ×ₗ ℕ := toLex (entry.rank, entry.order)

def push (worklist : List (Entry κ σ)) (entry : Entry κ σ) : List (Entry κ σ) :=
  worklist.orderedInsert (fun a b => a.key ≤ b.key) entry

/-- Puts some states on the worklist, in order. -/
def pushAll (rank : σ → κ) : List σ → ℕ → List (Entry κ σ) → List (Entry κ σ)
  | [], _, worklist => worklist
  | state :: states, order, worklist =>
      pushAll rank states (order + 1) (push worklist ⟨rank state, order, state⟩)

/-- The search: whether the worklist has been emptied, and what was found. -/
def explore (visit : σ → Except ε (Visit σ ω)) (rank : σ → κ) :
    ℕ → List (Entry κ σ) → ℕ → List ω → Except ε (Bool × List ω)
  | 0, _, _, found => .ok (false, found)
  | _ + 1, [], _, found => .ok (true, found)
  | fuel + 1, entry :: worklist, order, found => do
      match ← visit entry.state with
      | .skip => explore visit rank fuel worklist order found
      | .report result => explore visit rank fuel worklist order (found ++ [result])
      | .expand successors =>
          explore visit rank fuel (pushAll rank successors order worklist)
            (order + successors.length) found

theorem mem_push {worklist : List (Entry κ σ)} {entry e : Entry κ σ} :
    e ∈ push worklist entry ↔ e = entry ∨ e ∈ worklist :=
  List.mem_orderedInsert _

theorem mem_states_pushAll {rank : σ → κ} {states : List σ} {order : ℕ}
    {worklist : List (Entry κ σ)} {s : σ} :
    s ∈ (pushAll rank states order worklist).map Entry.state ↔
      s ∈ states ∨ s ∈ worklist.map Entry.state := by
  induction states generalizing order worklist with
  | nil => simp [pushAll]
  | cons state states ih =>
    rw [pushAll, ih]
    simp only [List.mem_map, mem_push, List.mem_cons]
    constructor
    · rintro (h | ⟨e, rfl | he, rfl⟩)
      · exact .inl (.inr h)
      · exact .inl (.inl rfl)
      · exact .inr ⟨e, he, rfl⟩
    · rintro ((rfl | h) | ⟨e, he, rfl⟩)
      · exact .inr ⟨_, .inl rfl, rfl⟩
      · exact .inl h
      · exact .inr ⟨e, .inr he, rfl⟩

end Search

/-! ## The states that are seen -/

/-- The states that expansions lead to. -/
inductive Seen (visit : σ → Except ε (Visit σ ω)) (start : List σ) : σ → Prop
  | start {s : σ} (h : s ∈ start) : Seen visit start s
  | step {s t : σ} {successors : List σ} (hs : Seen visit start s)
      (hvisit : visit s = .ok (.expand successors)) (ht : t ∈ successors) : Seen visit start t

section Seen

variable {visit : σ → Except ε (Visit σ ω)} {start start' : List σ} {s t : σ}

theorem Seen.mono (h : Seen visit start s) (hstart : ∀ t ∈ start, Seen visit start' t) :
    Seen visit start' s := by
  induction h with
  | start h => exact hstart _ h
  | step _ hvisit ht ih => exact ih.step hvisit ht

theorem not_seen_nil : ¬ Seen visit [] s := by
  intro h
  induction h with
  | start h => cases h
  | step _ _ _ ih => exact ih

/-- A state that is seen is the first one, or seen from the others and its successors. -/
theorem Seen.cons_cases (h : Seen visit (t :: start) s) (successors : List σ)
    (hexpand : ∀ ss, visit t = .ok (.expand ss) → ss ⊆ successors) :
    s = t ∨ Seen visit (successors ++ start) s := by
  induction h with
  | start h =>
    rcases List.mem_cons.1 h with rfl | h
    · exact .inl rfl
    · exact .inr (.start (List.mem_append_right _ h))
  | step _ hvisit ht ih =>
    rcases ih with rfl | ih
    · exact .inr (.start (List.mem_append_left _ (hexpand _ hvisit ht)))
    · exact .inr (ih.step hvisit ht)

end Seen

/-! ## Soundness and completeness -/

section Explore

variable [LinearOrder κ] {visit : σ → Except ε (Visit σ ω)} {rank : σ → κ}

/-- One visit of a search that succeeds. -/
theorem explore_cons {fuel order : ℕ} {entry : Entry κ σ} {worklist : List (Entry κ σ)}
    {found : List ω} {out : Bool × List ω}
    (h : explore visit rank (fuel + 1) (entry :: worklist) order found = .ok out) :
    (visit entry.state = .ok .skip ∧ explore visit rank fuel worklist order found = .ok out) ∨
    (∃ result, visit entry.state = .ok (.report result) ∧
      explore visit rank fuel worklist order (found ++ [result]) = .ok out) ∨
    (∃ successors, visit entry.state = .ok (.expand successors) ∧
      explore visit rank fuel (pushAll rank successors order worklist)
        (order + successors.length) found = .ok out) := by
  rw [explore] at h
  cases hvisit : visit entry.state with
  | error e =>
    rw [hvisit] at h
    cases h
  | ok action =>
    rw [hvisit] at h
    cases action with
    | skip => exact .inl ⟨rfl, h⟩
    | report result => exact .inr (.inl ⟨result, rfl, h⟩)
    | expand successors => exact .inr (.inr ⟨successors, rfl, h⟩)

/-- Nothing that was found is lost. -/
theorem found_subset {fuel order : ℕ} {worklist : List (Entry κ σ)} {found : List ω}
    {out : Bool × List ω} (h : explore visit rank fuel worklist order found = .ok out) :
    found ⊆ out.2 := by
  induction fuel generalizing worklist order found with
  | zero =>
    cases h
    exact List.Subset.refl _
  | succ fuel ih =>
    cases worklist with
    | nil =>
      cases h
      exact List.Subset.refl _
    | cons entry worklist =>
      rcases explore_cons h with ⟨-, h⟩ | ⟨result, -, h⟩ | ⟨successors, -, h⟩
      · exact ih h
      · exact List.Subset.trans (List.subset_append_left _ _) (ih h)
      · exact ih h

/-- **Whatever is found is reported by a state that is seen.** -/
theorem explore_sound {start : List σ} {fuel order : ℕ} {worklist : List (Entry κ σ)}
    {found : List ω} {out : Bool × List ω}
    (h : explore visit rank fuel worklist order found = .ok out)
    (hseen : ∀ s ∈ worklist.map Entry.state, Seen visit start s) :
    ∀ result ∈ out.2, result ∈ found ∨ ∃ s, Seen visit start s ∧ visit s = .ok (.report result) := by
  induction fuel generalizing worklist order found with
  | zero =>
    cases h
    exact fun result hresult => .inl hresult
  | succ fuel ih =>
    cases worklist with
    | nil =>
      cases h
      exact fun result hresult => .inl hresult
    | cons entry worklist =>
      have hentry : Seen visit start entry.state := hseen _ List.mem_cons_self
      have hrest : ∀ s ∈ worklist.map Entry.state, Seen visit start s :=
        fun s hs => hseen s (List.mem_cons_of_mem _ hs)
      rcases explore_cons h with ⟨-, h⟩ | ⟨reported, hvisit, h⟩ | ⟨successors, hvisit, h⟩
      · exact ih h hrest
      · intro result hresult
        rcases ih h hrest result hresult with hfound | hreport
        · rcases List.mem_append.1 hfound with hfound | hnew
          · exact .inl hfound
          · rw [List.mem_singleton.1 hnew]
            exact .inr ⟨_, hentry, hvisit⟩
        · exact .inr hreport
      · refine ih h fun s hs => ?_
        rcases mem_states_pushAll.1 hs with hs | hs
        · exact hentry.step hvisit hs
        · exact hrest s hs

/-- **A search that empties its worklist visits every state that is seen**, and what the state
reports is found. -/
theorem explore_complete {fuel order : ℕ} {worklist : List (Entry κ σ)} {found out : List ω}
    (h : explore visit rank fuel worklist order found = .ok (true, out)) {s : σ}
    (hs : Seen visit (worklist.map Entry.state) s) :
    ∃ action, visit s = .ok action ∧ ∀ result, action = .report result → result ∈ out := by
  induction fuel generalizing worklist order found with
  | zero => cases h
  | succ fuel ih =>
    cases worklist with
    | nil => exact absurd hs not_seen_nil
    | cons entry worklist =>
      rcases explore_cons h with ⟨hvisit, h⟩ | ⟨reported, hvisit, h⟩ | ⟨successors, hvisit, h⟩
      · rcases hs.cons_cases [] (by simp [hvisit]) with rfl | hs
        · exact ⟨.skip, hvisit, fun result he => by cases he⟩
        · exact ih h hs
      · rcases hs.cons_cases [] (by simp [hvisit]) with rfl | hs
        · refine ⟨.report reported, hvisit, fun result he => ?_⟩
          cases he
          exact found_subset h (List.mem_append_right _ (List.mem_singleton_self _))
        · exact ih h hs
      · rcases hs.cons_cases successors (by simp [hvisit]) with rfl | hs
        · exact ⟨.expand successors, hvisit, fun result he => by cases he⟩
        · refine ih h (hs.mono fun t ht => .start (mem_states_pushAll.2 ?_))
          exact List.mem_append.1 ht

end Explore

end BestFirst
