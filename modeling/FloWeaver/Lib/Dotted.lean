import Mathlib.Data.List.Basic
import Mathlib.Data.List.Induction
import Mathlib.Data.String.Basic

/-!
# Dotted paths

A path of numbers is written with dots between them, `0.2.1`.  The text tells the path, and one text
continues another by a dot exactly when its path continues the other.

* `dotted` — the text of a path.
* `dotted_injective` — different paths have different texts.
* `isPrefix_dotted_iff` — one path below another, read off their texts.
* `eq_of_cut` — the two parts around a separator that is not in the first one.
-/

/-- The text of a path with one more number. -/
def nextDotted (path : String) (i : ℕ) : String :=
  if path = "" then toString i else path ++ "." ++ toString i

/-- The text of a path. -/
def dotted (path : List ℕ) : String := path.foldl nextDotted ""

/-! ## Separators -/

section Cut

variable {α : Type*} {sep : α} {a b x y : List α}

/-- The first separator cuts a text at one place. -/
theorem eq_of_cut (ha : sep ∉ a) (hb : sep ∉ b) (h : a ++ sep :: x = b ++ sep :: y) :
    a = b ∧ x = y := by
  induction a generalizing b with
  | nil =>
    cases b with
    | nil => exact ⟨rfl, (List.cons.inj h).2⟩
    | cons c b =>
      obtain ⟨rfl, -⟩ := List.cons.inj h
      exact absurd List.mem_cons_self hb
  | cons c a ih =>
    cases b with
    | nil =>
      obtain ⟨rfl, -⟩ := List.cons.inj h
      exact absurd List.mem_cons_self ha
    | cons d b =>
      obtain ⟨rfl, hrest⟩ := List.cons.inj h
      obtain ⟨rfl, hxy⟩ := ih (fun hm => ha (List.mem_cons_of_mem _ hm))
        (fun hm => hb (List.mem_cons_of_mem _ hm)) hrest
      exact ⟨rfl, hxy⟩

/-- So does the last one. -/
theorem eq_of_cut_last (hx : sep ∉ x) (hy : sep ∉ y) (h : a ++ sep :: x = b ++ sep :: y) :
    a = b ∧ x = y := by
  have hrev := congrArg List.reverse h
  simp only [List.reverse_append, List.reverse_cons, List.append_assoc, List.singleton_append]
    at hrev
  obtain ⟨hxy, hab⟩ := eq_of_cut (by simpa using hx) (by simpa using hy) hrev
  exact ⟨List.reverse_injective hab, List.reverse_injective hxy⟩

end Cut

/-! ## Numbers -/

theorem isDigit_of_mem_toString {i : ℕ} {c : Char} (h : c ∈ (toString i).toList) :
    c.isDigit = true := by
  rw [Nat.toString_eq_repr, Nat.toList_repr] at h
  exact Nat.isDigit_of_mem_toDigits (by decide) (by decide) h

theorem not_mem_toString {i : ℕ} {c : Char} (hc : c.isDigit = false) : c ∉ (toString i).toList :=
  fun h => Bool.false_ne_true (hc.symm.trans (isDigit_of_mem_toString h))

theorem toString_ne_empty (i : ℕ) : toString i ≠ "" := by
  intro h
  have hlen : 0 < (Nat.toDigits 10 i).length := Nat.length_toDigits_pos
  rw [← Nat.toList_repr, ← Nat.toString_eq_repr, h] at hlen
  exact absurd hlen (by decide)

theorem toString_injective : Function.Injective (toString : ℕ → String) := by
  intro i j h
  have h := congrArg String.toList h
  rw [Nat.toString_eq_repr, Nat.toString_eq_repr, Nat.toList_repr, Nat.toList_repr] at h
  rw [← Nat.ofDigitChars_ten_toDigits (n := i), h, Nat.ofDigitChars_ten_toDigits]

/-! ## Texts of paths -/

theorem dotted_concat (path : List ℕ) (i : ℕ) :
    dotted (path ++ [i]) = nextDotted (dotted path) i := List.foldl_append

theorem nextDotted_ne_empty (path : String) (i : ℕ) : nextDotted path i ≠ "" := by
  rw [nextDotted]
  split_ifs with h
  · exact toString_ne_empty i
  · intro hempty
    have hlen := congrArg String.length hempty
    simp at hlen

theorem dotted_eq_empty_iff {path : List ℕ} : dotted path = "" ↔ path = [] := by
  induction path using List.reverseRecOn with
  | nil => simp [dotted]
  | append_singleton path i => simp [dotted_concat, nextDotted_ne_empty]

/-- The characters of a path with one more number. -/
theorem toList_dotted_concat {path : List ℕ} (h : path ≠ []) (i : ℕ) :
    (dotted (path ++ [i])).toList = (dotted path).toList ++ '.' :: (toString i).toList := by
  rw [dotted_concat, nextDotted, if_neg (mt dotted_eq_empty_iff.1 h)]
  simp

/-- Only digits and dots occur. -/
theorem not_mem_dotted {path : List ℕ} {c : Char} (hdot : c ≠ '.') (hc : c.isDigit = false) :
    c ∉ (dotted path).toList := by
  induction path using List.reverseRecOn with
  | nil => simp [dotted]
  | append_singleton path i ih =>
    by_cases h : path = []
    · subst h
      exact not_mem_toString hc
    · rw [toList_dotted_concat h, List.mem_append, List.mem_cons, not_or, not_or]
      exact ⟨ih, hdot, not_mem_toString hc⟩

/-- A text is at least as long as its path. -/
theorem length_le_length_dotted (path : List ℕ) : path.length ≤ (dotted path).toList.length := by
  induction path using List.reverseRecOn with
  | nil => exact Nat.zero_le _
  | append_singleton path i ih =>
    by_cases h : path = []
    · subst h
      refine Nat.pos_of_ne_zero fun hlen => toString_ne_empty i ?_
      exact String.toList_eq_nil_iff.1 (List.length_eq_zero_iff.1 hlen)
    · rw [toList_dotted_concat h, List.length_append, List.length_append, List.length_cons]
      exact Nat.add_le_add ih (Nat.le_add_left _ _)

/-- **The text tells the path.** -/
theorem dotted_injective : Function.Injective dotted := by
  intro p
  induction p using List.reverseRecOn with
  | nil => exact fun q h => (dotted_eq_empty_iff.1 h.symm).symm
  | append_singleton p i ih =>
    intro q h
    rcases List.eq_nil_or_concat' q with rfl | ⟨q, j, rfl⟩
    · exact dotted_eq_empty_iff.1 h
    have hnodot (k : ℕ) : '.' ∉ (toString k).toList := not_mem_toString rfl
    have hl := congrArg String.toList h
    by_cases hp : p = [] <;> by_cases hq : q = []
    · subst hp hq
      rw [toString_injective h]
    · subst hp
      rw [toList_dotted_concat hq] at hl
      have hmem : '.' ∈ (dotted ([] ++ [i])).toList := by
        rw [hl]
        simp
      exact absurd hmem (hnodot i)
    · subst hq
      rw [toList_dotted_concat hp] at hl
      have hmem : '.' ∈ (dotted ([] ++ [j])).toList := by
        rw [← hl]
        simp
      exact absurd hmem (hnodot j)
    · rw [toList_dotted_concat hp, toList_dotted_concat hq] at hl
      obtain ⟨hpath, hlast⟩ := eq_of_cut_last (hnodot i) (hnodot j) hl
      rw [ih (String.toList_injective hpath), toString_injective (String.toList_injective hlast)]

/-! ## Paths below others -/

theorem isPrefix_dotted_append {t : List ℕ} (ht : t ≠ []) (i : ℕ) (rest : List ℕ) :
    ((dotted t).toList ++ ['.']) <+: (dotted (t ++ i :: rest)).toList := by
  induction rest using List.reverseRecOn with
  | nil =>
    rw [toList_dotted_concat ht]
    exact ⟨(toString i).toList, by simp⟩
  | append_singleton rest j ih =>
    rw [← List.cons_append, ← List.append_assoc, toList_dotted_concat (by simp)]
    exact ih.trans (List.prefix_append _ _)

/-- **A path below another**, read off their texts. -/
theorem isPrefix_dotted_iff {t p : List ℕ} (ht : t ≠ []) :
    ((dotted t).toList ++ ['.']) <+: (dotted p).toList ↔ ∃ i rest, p = t ++ i :: rest := by
  refine ⟨fun h => ?_, ?_⟩
  · induction p using List.reverseRecOn with
    | nil => simp [dotted] at h
    | append_singleton p j ih =>
      by_cases hp : p = []
      · subst hp
        exact absurd (h.subset (List.mem_append_right _ (List.mem_singleton_self _)))
          (not_mem_toString rfl)
      · obtain ⟨x, hx⟩ := h
        rw [toList_dotted_concat hp] at hx
        -- the dot that ends the prefix lies before the last dot, or is the last one
        rw [List.append_assoc, List.singleton_append, List.append_eq_append_iff] at hx
        obtain ⟨c, hc, hx⟩ | ⟨c, hc, hx⟩ := hx
        · cases c with
          | nil =>
            obtain rfl := dotted_injective (String.toList_injective (hc.trans (List.append_nil _)))
            exact ⟨j, [], rfl⟩
          | cons d c =>
            obtain ⟨rfl, -⟩ := List.cons.inj hx
            obtain ⟨i, rest, rfl⟩ := ih ⟨c, by rw [hc]; simp⟩
            exact ⟨i, rest ++ [j], by simp⟩
        · cases c with
          | nil =>
            obtain rfl := dotted_injective (String.toList_injective (hc.trans (List.append_nil _)))
            exact ⟨j, [], rfl⟩
          | cons d c =>
            have hmem : '.' ∈ (toString j).toList := by
              rw [(List.cons.inj hx).2]
              simp
            exact absurd hmem (not_mem_toString rfl)
  · rintro ⟨i, rest, rfl⟩
    exact isPrefix_dotted_append ht i rest
