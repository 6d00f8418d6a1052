import Mathlib.Data.List.Dedup
import Mathlib.Data.List.Count
import Mathlib.Order.Lattice

/-!
# Spans of time

Events have an owner and last from a start up to a stop.  At an instant an owner is active when one
of its events is.  When the events come row by row, and rows that are `k` apart do not overlap, at
most `k` owners are active at any instant.

* `Spans.neighbours` — the elements of a list with their successors.
* `Spans.filter_owner` — the events of one row.
* `Spans.activeAt` — the owners that are active at an instant.
* `Spans.depth` — the largest number of active owners, at a start or a stop.
* `Spans.exists_start_of_active` — what is active together is so where the last of it starts.
* `Spans.countP_le_of_apart` — what holds of no two elements `k` apart holds of at most `k`.
* `Spans.length_activeAt_le` — at most `k` owners are active at any instant.
-/

namespace Spans

variable {α ρ ε τ : Type*} [DecidableEq α] [LinearOrder τ]

/-! ## Rows -/

/-- The elements of a list with their successors. -/
def neighbours (l : List α) : List (α × α) := l.zip (l.drop 1)

omit [DecidableEq α] in
theorem neighbours_map (f : α → ρ) (l : List α) :
    neighbours (l.map f) = (neighbours l).map (Prod.map f f) := by
  rw [neighbours, neighbours, ← List.map_drop, List.zip_map]

omit [DecidableEq α] in
/-- What holds along a list holds of all neighbours. -/
theorem forall_mem_neighbours {r : α → α → Prop} {l : List α} (h : l.IsChain r) :
    ∀ row ∈ neighbours l, r row.1 row.2 := by
  induction l with
  | nil => exact fun row hrow => absurd hrow List.not_mem_nil
  | cons a l ih =>
    cases l with
    | nil => exact fun row hrow => absurd hrow List.not_mem_nil
    | cons b l =>
      rw [List.isChain_cons_cons] at h
      intro row hrow
      rcases List.mem_cons.1 hrow with rfl | hrow
      · exact h.1
      · exact ih h.2 row hrow

omit [DecidableEq α] in
/-- An element is the first one, or the successor of another. -/
theorem head?_or_exists_neighbours {l : List α} {a : α} (h : a ∈ l) :
    l.head? = some a ∨ ∃ b, (b, a) ∈ neighbours l := by
  induction l with
  | nil => cases h
  | cons c l ih =>
    rcases List.mem_cons.1 h with rfl | hmem
    · exact .inl rfl
    · cases l with
      | nil => cases hmem
      | cons d l =>
        have hcons : neighbours (c :: d :: l) = (c, d) :: neighbours (d :: l) := rfl
        rw [hcons]
        rcases ih hmem with hhead | ⟨b, hb⟩
        · obtain rfl := Option.some.inj hhead
          exact .inr ⟨c, List.mem_cons_self⟩
        · exact .inr ⟨b, List.mem_cons_of_mem _ hb⟩

omit [DecidableEq α] in
theorem mem_of_mem_neighbours {l : List α} {row : α × α} (h : row ∈ neighbours l) :
    row.1 ∈ l ∧ row.2 ∈ l := by
  obtain ⟨hleft, hright⟩ := List.of_mem_zip h
  exact ⟨hleft, List.mem_of_mem_drop hright⟩

omit [LinearOrder τ] in
/-- When rows have different names, the events of a name are those of its row. -/
theorem filter_owner {owner : ε → α} {name : ρ → α} {events : ρ → List ε} {rows : List ρ}
    (hnodup : (rows.map name).Nodup) (howner : ∀ row, ∀ event ∈ events row, owner event = name row)
    {row : ρ} (hrow : row ∈ rows) :
    (rows.flatMap events).filter (owner · = name row) = events row := by
  induction rows with
  | nil => cases hrow
  | cons other rows ih =>
    rw [List.map_cons, List.nodup_cons] at hnodup
    rw [List.flatMap_cons, List.filter_append]
    rcases List.mem_cons.1 hrow with rfl | hrow
    · have hself : (events row).filter (owner · = name row) = events row :=
        List.filter_eq_self.2 fun event hevent => decide_eq_true (howner row event hevent)
      have hothers : (rows.flatMap events).filter (owner · = name row) = [] := by
        rw [List.filter_eq_nil_iff]
        intro event hevent
        obtain ⟨other, hother, hmem⟩ := List.mem_flatMap.1 hevent
        rw [decide_eq_true_eq, howner other event hmem]
        exact fun heq => hnodup.1 (heq ▸ List.mem_map_of_mem hother)
      rw [hself, hothers, List.append_nil]
    · have hnone : (events other).filter (owner · = name row) = [] := by
        rw [List.filter_eq_nil_iff]
        intro event hevent
        rw [decide_eq_true_eq, howner other event hevent]
        exact fun heq => hnodup.1 (heq ▸ List.mem_map_of_mem hrow)
      rw [hnone, List.nil_append, ih hnodup.2 hrow]

/-! ## Active owners -/

/-- The owners of the events that have started at an instant and have not stopped. -/
def activeAt (owner : ε → α) (start stop : ε → τ) (events : List ε) (point : τ) : List α :=
  ((events.filter fun event => start event ≤ point ∧ point < stop event).map owner).dedup

/-- The largest number of owners that are active where an event starts or stops. -/
def depth (owner : ε → α) (start stop : ε → τ) (events : List ε) : ℕ :=
  ((events.map start ++ events.map stop).map fun point =>
    (activeAt owner start stop events point).length).foldr max 0

/-- What is active at an instant is active together where the last of it starts. -/
theorem exists_start_of_active {start stop : ε → τ} {events : List ε} {point : τ}
    (h : ∃ event ∈ events, start event ≤ point ∧ point < stop event) :
    ∃ last ∈ events, start last ≤ point ∧ ∀ event ∈ events, start event ≤ point → point < stop event →
      start event ≤ start last ∧ start last < stop event := by
  obtain ⟨first, hfirst, hfirstActive⟩ := h
  let active := events.filter fun event => decide (start event ≤ point ∧ point < stop event)
  have hmem : ∀ event, event ∈ active ↔ event ∈ events ∧ start event ≤ point ∧ point < stop event :=
    fun event => by rw [List.mem_filter, decide_eq_true_eq]
  obtain ⟨last, hlast, hlatest⟩ : ∃ last ∈ active, ∀ event ∈ active, start event ≤ start last := by
    have hne : active ≠ [] := List.ne_nil_of_mem ((hmem first).2 ⟨hfirst, hfirstActive⟩)
    generalize active = l at hne
    induction l with
    | nil => exact absurd rfl hne
    | cons event rest ih =>
      by_cases hrest : rest = []
      · exact ⟨event, List.mem_cons_self, by simp [hrest]⟩
      · obtain ⟨last, hlast, hlatest⟩ := ih hrest
        rcases le_total (start event) (start last) with hle | hle
        · exact ⟨last, List.mem_cons_of_mem _ hlast, List.forall_mem_cons.2 ⟨hle, hlatest⟩⟩
        · exact ⟨event, List.mem_cons_self, List.forall_mem_cons.2
            ⟨le_rfl, fun other hother => (hlatest other hother).trans hle⟩⟩
  obtain ⟨hlastMem, hlastStart, -⟩ := (hmem last).1 hlast
  exact ⟨last, hlastMem, hlastStart, fun event hevent hstart hstop =>
    ⟨hlatest event ((hmem event).2 ⟨hevent, hstart, hstop⟩), hlastStart.trans_lt hstop⟩⟩

theorem foldr_max_le {l : List ℕ} {k : ℕ} (h : ∀ n ∈ l, n ≤ k) : l.foldr max 0 ≤ k := by
  induction l with
  | nil => exact Nat.zero_le k
  | cons n l ih =>
    exact max_le (h n List.mem_cons_self) (ih fun m hm => h m (List.mem_cons_of_mem n hm))

/-- The depth is at most what bounds the active owners at every instant. -/
theorem depth_le {owner : ε → α} {start stop : ε → τ} {events : List ε} {k : ℕ}
    (h : ∀ point, (activeAt owner start stop events point).length ≤ k) :
    depth owner start stop events ≤ k := by
  refine foldr_max_le fun n hn => ?_
  obtain ⟨point, -, rfl⟩ := List.mem_map.1 hn
  exact h point

/-- What holds of no two elements `k` apart holds of at most `k` elements. -/
theorem countP_le_of_apart {p : ρ → Bool} {k : ℕ} {rows : List ρ}
    (h : ∀ i j a b, i + k ≤ j → rows[i]? = some a → rows[j]? = some b → p a → ¬ p b) :
    rows.countP p ≤ k := by
  induction rows with
  | nil => exact Nat.zero_le k
  | cons row rows ih =>
    by_cases hrow : p row
    · cases k with
      | zero => exact absurd hrow (h 0 0 row row (Nat.le_refl 0) rfl rfl hrow)
      | succ k =>
        -- beyond the next `k` rows nothing holds any more
        have hrest : (rows.drop k).countP p = 0 := by
          rw [List.countP_eq_zero]
          intro b hb
          obtain ⟨j, hj⟩ := List.mem_iff_getElem?.1 hb
          rw [List.getElem?_drop] at hj
          refine h 0 (k + j + 1) row b (by omega) rfl ?_ hrow
          rwa [List.getElem?_cons_succ]
        rw [List.countP_cons_of_pos hrow, ← List.take_append_drop k rows, List.countP_append, hrest,
          Nat.add_zero]
        exact Nat.add_le_add_right (List.countP_le_length.trans (List.length_take_le k rows)) 1
    · rw [List.countP_cons_of_neg hrow]
      refine ih fun i j a b hij ha hb => h (i + 1) (j + 1) a b (by omega) ?_ ?_
      · rwa [List.getElem?_cons_succ]
      · rwa [List.getElem?_cons_succ]

/-- Rows `k` apart do not overlap: the one has stopped when the other starts. -/
def Apart (first last : ρ → τ) (k : ℕ) (rows : List ρ) : Prop :=
  ∀ i j a b, i + k ≤ j → rows[i]? = some a → rows[j]? = some b → last a ≤ first b

/-- When rows `k` apart do not overlap, at most `k` owners are active at any instant. -/
theorem length_activeAt_le {owner : ε → α} {start stop : ε → τ} {name : ρ → α} {first last : ρ → τ}
    {events : ρ → List ε} {rows : List ρ} {k : ℕ}
    (howner : ∀ row ∈ rows, ∀ event ∈ events row, owner event = name row)
    (hspan : ∀ row ∈ rows, ∀ event ∈ events row, first row ≤ start event ∧ stop event ≤ last row)
    (hapart : Apart first last k rows) (point : τ) :
    (activeAt owner start stop (rows.flatMap events) point).length ≤ k := by
  have hsub : activeAt owner start stop (rows.flatMap events) point ⊆
      (rows.filter fun row => first row ≤ point ∧ point < last row).map name := by
    intro a ha
    obtain ⟨event, hevent, rfl⟩ := List.mem_map.1 (List.mem_dedup.1 ha)
    obtain ⟨hmem, hactive⟩ := List.mem_filter.1 hevent
    obtain ⟨hstart, hstop⟩ := of_decide_eq_true hactive
    obtain ⟨row, hrow, hmem⟩ := List.mem_flatMap.1 hmem
    obtain ⟨hfirst, hlast⟩ := hspan row hrow event hmem
    exact List.mem_map.2 ⟨row, List.mem_filter.2
      ⟨hrow, decide_eq_true ⟨hfirst.trans hstart, hstop.trans_le hlast⟩⟩,
      (howner row hrow event hmem).symm⟩
  refine ((List.subperm_of_subset (List.nodup_dedup _) hsub).length_le).trans ?_
  rw [List.length_map, ← List.countP_eq_length_filter]
  refine countP_le_of_apart fun i j a b hij ha hb hactive hactive' => ?_
  obtain ⟨-, hlate⟩ := of_decide_eq_true hactive
  obtain ⟨hearly, -⟩ := of_decide_eq_true hactive'
  exact absurd (hlate.trans_le (hapart i j a b hij ha hb)) (not_lt.2 hearly)

end Spans
