import FloWeaver.Lib.OrderedDict
import Mathlib.Data.List.Induction
import Mathlib.Data.List.Pairwise
import Mathlib.Data.List.Perm.Basic
import Mathlib.Order.Basic

/-!
# The last writer

A run of steps writes a cell now and then; what stays is the value of the last step that writes.
Two runs that are cut into segments in the same order leave the same value when the segments,
taken by themselves, do.

* `lastWrite` — the value that stays.
* `lastWrite_eq_some_iff` — it belongs to the writer with the greatest position.
* `lastWrite_eq_of_segments` — two runs with matching segments.
* `lastOf`, `SameLast` — the last element of a key; two lists that agree on it.
* `SameLast.append`, `sameLast_of_perm` — appending keeps it, and so does any order of elements that
  their keys tell apart.
* `OrderedDict.get?_keyed` — what a dictionary keeps.
* `OrderedDict.values_perm` — the order of the rows is all that may differ.
-/

namespace LastWriter

variable {α β γ υ : Type*} {f f' : α → Option υ} {g : β → Option υ} {l : List α} {m : List β}

/-- The value of the last element that has one. -/
def lastWrite (f : α → Option υ) (l : List α) : Option υ := (l.filterMap f).getLast?

@[simp] theorem lastWrite_nil (f : α → Option υ) : lastWrite f [] = none := rfl

theorem lastWrite_append (f : α → Option υ) (l l' : List α) :
    lastWrite f (l ++ l') = (lastWrite f l').or (lastWrite f l) := by
  rw [lastWrite, List.filterMap_append, List.getLast?_append]
  rfl

@[simp] theorem lastWrite_singleton (f : α → Option υ) (a : α) : lastWrite f [a] = f a := by
  cases h : f a <;> simp [lastWrite, h]

theorem lastWrite_cons (f : α → Option υ) (a : α) (l : List α) :
    lastWrite f (a :: l) = (lastWrite f l).or (f a) := by
  rw [← List.singleton_append, lastWrite_append, lastWrite_singleton]

theorem lastWrite_eq_none_iff : lastWrite f l = none ↔ ∀ a ∈ l, f a = none := by
  rw [lastWrite, List.getLast?_eq_none_iff, List.filterMap_eq_nil_iff]

/-- Elements that do not write can be left out. -/
theorem lastWrite_filter {p : α → Bool} (h : ∀ a ∈ l, p a = false → f a = none) :
    lastWrite f (l.filter p) = lastWrite f l := by
  induction l with
  | nil => rfl
  | cons a l ih =>
    obtain ⟨ha, hl⟩ := List.forall_mem_cons.1 h
    rw [List.filter_cons]
    split_ifs with hp
    · rw [lastWrite_cons, lastWrite_cons, ih hl]
    · rw [ih hl, lastWrite_cons, ha (Bool.not_eq_true _ ▸ hp), Option.or_none]

/-- The value that stays is that of the writer with the greatest position. -/
theorem lastWrite_eq_some_iff {pos : α → ℕ} (hl : l.Pairwise fun a b => pos a < pos b) {v : υ} :
    lastWrite f l = some v ↔
      ∃ a ∈ l, f a = some v ∧ ∀ x ∈ l, f x ≠ none → pos x ≤ pos a := by
  induction l using List.reverseRecOn with
  | nil => simp
  | append_singleton l b ih =>
    obtain ⟨hl, -, hlt⟩ := List.pairwise_append.1 hl
    have hlt : ∀ a ∈ l, pos a < pos b := fun a ha => hlt a ha b (List.mem_singleton_self b)
    rw [lastWrite_append, lastWrite_singleton]
    cases hb : f b with
    | none =>
      -- the last element does not write
      rw [Option.none_or, ih hl]
      constructor
      · rintro ⟨a, ha, hfa, hmax⟩
        refine ⟨a, List.mem_append_left _ ha, hfa, fun x hx hfx => ?_⟩
        rcases List.mem_append.1 hx with hx | hx
        · exact hmax x hx hfx
        · exact absurd (List.mem_singleton.1 hx ▸ hb) hfx
      · rintro ⟨a, ha, hfa, hmax⟩
        rcases List.mem_append.1 ha with ha | ha
        · exact ⟨a, ha, hfa, fun x hx => hmax x (List.mem_append_left _ hx)⟩
        · rw [List.mem_singleton.1 ha, hb] at hfa
          cases hfa
    | some w =>
      rw [Option.some_or, Option.some.injEq]
      constructor
      · rintro rfl
        refine ⟨b, List.mem_append_right _ (List.mem_singleton_self b), hb, fun x hx _ => ?_⟩
        rcases List.mem_append.1 hx with hx | hx
        · exact Nat.le_of_lt (hlt x hx)
        · exact (List.mem_singleton.1 hx ▸ Nat.le_refl _)
      · rintro ⟨a, ha, hfa, hmax⟩
        rcases List.mem_append.1 ha with ha | ha
        · have hle := hmax b (List.mem_append_right _ (List.mem_singleton_self b))
            (by rw [hb]; exact Option.some_ne_none w)
          exact absurd hle (Nat.not_le.2 (hlt a ha))
        · rw [List.mem_singleton.1 ha, hb] at hfa
          exact Option.some.inj hfa

/-! ## Segments -/

/-- All elements of the first list come before those of the second one. -/
def Before (pos : α → ℕ) (xs ys : List α) : Prop := ∀ x ∈ xs, ∀ y ∈ ys, pos x < pos y

/-- Two runs whose segments leave the same value, in the same order, leave the same value. -/
theorem lastWrite_eq_of_segments {posL : α → ℕ} {posR : β → ℕ} {segments : List γ}
    {left : γ → List α} {right : γ → List β} (hl : l.Pairwise fun a b => posL a < posL b)
    (hm : m.Pairwise fun a b => posR a < posR b)
    (hleft : ∀ s ∈ segments, (left s).Sublist l) (hright : ∀ s ∈ segments, (right s).Sublist m)
    (hcoverL : ∀ a ∈ l, f a ≠ none → ∃ s ∈ segments, a ∈ left s)
    (hcoverR : ∀ b ∈ m, g b ≠ none → ∃ s ∈ segments, b ∈ right s)
    (hsame : ∀ s ∈ segments, lastWrite f (left s) = lastWrite g (right s))
    (horder : ∀ s ∈ segments, ∀ t ∈ segments, left s ≠ [] → right s ≠ [] → left t ≠ [] →
      right t ≠ [] → s = t ∨ (Before posL (left s) (left t) ∧ Before posR (right s) (right t)) ∨
        (Before posL (left t) (left s) ∧ Before posR (right t) (right s))) :
    lastWrite f l = lastWrite g m := by
  -- a segment that writes on the right writes on the left
  have hwriter : ∀ s ∈ segments, ∀ b ∈ right s, g b ≠ none → ∃ a ∈ left s, f a ≠ none := by
    intro s hs b hb hgb
    by_contra hnone
    have hnone : ∀ a ∈ left s, f a = none := fun a ha =>
      not_not.1 fun hfa => hnone ⟨a, ha, hfa⟩
    have hnone := (hsame s hs).symm.trans (lastWrite_eq_none_iff.2 hnone)
    exact hgb (lastWrite_eq_none_iff.1 hnone b hb)
  cases hlast : lastWrite f l with
  | none =>
    refine (lastWrite_eq_none_iff.2 fun b hb => ?_).symm
    by_contra hgb
    obtain ⟨s, hs, hbs⟩ := hcoverR b hb hgb
    obtain ⟨a, ha, hfa⟩ := hwriter s hs b hbs hgb
    exact hfa (lastWrite_eq_none_iff.1 hlast a ((hleft s hs).subset ha))
  | some v =>
    obtain ⟨a, ha, hfa, hmax⟩ := (lastWrite_eq_some_iff hl).1 hlast
    obtain ⟨s, hs, has⟩ := hcoverL a ha (by rw [hfa]; exact Option.some_ne_none v)
    -- the last writer of the left run is the last one of its segment
    have hsegment : lastWrite g (right s) = some v := by
      rw [← hsame s hs]
      exact (lastWrite_eq_some_iff (hl.sublist (hleft s hs))).2
        ⟨a, has, hfa, fun x hx => hmax x ((hleft s hs).subset hx)⟩
    obtain ⟨b, hb, hgb, hmaxR⟩ := (lastWrite_eq_some_iff (hm.sublist (hright s hs))).1 hsegment
    refine ((lastWrite_eq_some_iff hm).2
      ⟨b, (hright s hs).subset hb, hgb, fun y hy hgy => ?_⟩).symm
    obtain ⟨t, ht, hyt⟩ := hcoverR y hy hgy
    obtain ⟨x, hx, hfx⟩ := hwriter t ht y hyt hgy
    rcases horder s hs t ht (List.ne_nil_of_mem has) (List.ne_nil_of_mem hb)
      (List.ne_nil_of_mem hx) (List.ne_nil_of_mem hyt) with rfl | ⟨hbefore, -⟩ | ⟨-, hbefore⟩
    · exact hmaxR y hyt hgy
    · exact absurd (hmax x ((hleft t ht).subset hx) hfx) (Nat.not_le.2 (hbefore a has x hx))
    · exact Nat.le_of_lt (hbefore y hyt b hb)

end LastWriter

/-!
## The last row of each key

A dictionary that is written row by row keeps the last row of each key, in the order in which the
keys came in.  Two lists that agree on the last element of each key give the same dictionary, up to
the order of its rows.
-/

set_option linter.unusedSectionVars false

namespace LastWriter

variable {α κ : Type*} [DecidableEq κ] {key : α → κ} {l l' m m' : List α}

/-- The last element of a list that has a key. -/
def lastOf (key : α → κ) (l : List α) (k : κ) : Option α :=
  lastWrite (fun a => if key a = k then some a else none) l

/-- Two lists have the same last element of every key. -/
def SameLast (key : α → κ) (l m : List α) : Prop := ∀ k, lastOf key l k = lastOf key m k

theorem SameLast.refl (l : List α) : SameLast key l l := fun _ => rfl

theorem SameLast.append (h : SameLast key l m) (h' : SameLast key l' m') :
    SameLast key (l ++ l') (m ++ m') := by
  intro k
  rw [lastOf, lastOf, lastWrite_append, lastWrite_append]
  exact congrArg₂ Option.or (h' k) (h k)

theorem mem_of_lastOf {k : κ} {a : α} (h : lastOf key l k = some a) : a ∈ l ∧ key a = k := by
  obtain ⟨b, hb, hab⟩ := List.mem_filterMap.1 (List.mem_of_getLast? h)
  split_ifs at hab with hkey
  obtain rfl := Option.some.inj hab
  exact ⟨hb, hkey⟩

theorem exists_lastOf {a : α} (h : a ∈ l) : ∃ b, lastOf key l (key a) = some b := by
  cases hlast : lastOf key l (key a) with
  | some b => exact ⟨b, rfl⟩
  | none =>
    have hnone := lastWrite_eq_none_iff.1 hlast a h
    simp at hnone

/-- When the keys tell the elements apart, the last element of a key is the only one. -/
theorem lastOf_eq_some_iff (hkey : ∀ a ∈ l, ∀ b ∈ l, key a = key b → a = b) {k : κ} {a : α} :
    lastOf key l k = some a ↔ a ∈ l ∧ key a = k := by
  refine ⟨mem_of_lastOf, ?_⟩
  rintro ⟨ha, rfl⟩
  obtain ⟨b, hb⟩ : ∃ b, lastOf key l (key a) = some b := exists_lastOf ha
  obtain ⟨hmem, hsame⟩ := mem_of_lastOf hb
  rw [hb, hkey b hmem a ha hsame]

/-- The order of elements that their keys tell apart does not matter. -/
theorem sameLast_of_perm (h : l.Perm m) (hkey : ∀ a ∈ l, ∀ b ∈ l, key a = key b → a = b) :
    SameLast key l m := by
  intro k
  ext a
  rw [lastOf_eq_some_iff hkey, lastOf_eq_some_iff, h.mem_iff]
  exact fun a ha b hb => hkey a (h.mem_iff.2 ha) b (h.mem_iff.2 hb)

end LastWriter

namespace OrderedDict

open LastWriter

variable {α κ υ : Type*} [DecidableEq κ] {d d' : OrderedDict κ υ}

/-- A dictionary of keyed elements keeps the last element of each key. -/
theorem get?_keyed (key : α → κ) (l : List α) (k : κ) :
    (ofList (l.map fun a => (key a, a))).get? k = lastOf key l k := by
  have hguard : (fun a => if key a = k then some a else none) =
      Option.guard fun a => decide (key a = k) := by
    funext a
    simp [Option.guard]
  rw [get?_ofList, List.filter_map, List.getLast?_map, Option.map_map, lastOf, lastWrite, hguard,
    List.filterMap_eq_filter]
  exact Option.map_id'

/-- Dictionaries whose values look the same under all keys have rows that look the same, in some
order. -/
theorem map_rows_perm {ω : Type*} (f : υ → ω) (h : ∀ k, (d.get? k).map f = (d'.get? k).map f) :
    (d.rows.map fun row => (row.1, f row.2)).Perm (d'.rows.map fun row => (row.1, f row.2)) := by
  have hnodup : ∀ d : OrderedDict κ υ, (d.rows.map fun row => (row.1, f row.2)).Nodup := fun d =>
    List.Nodup.of_map Prod.fst (by rw [List.map_map]; exact d.nodup)
  have hmem : ∀ (d : OrderedDict κ υ) (row : κ × ω),
      row ∈ (d.rows.map fun row => (row.1, f row.2)) ↔ (d.get? row.1).map f = some row.2 := by
    intro d row
    rw [List.mem_map, Option.map_eq_some_iff]
    constructor
    · rintro ⟨r, hr, rfl⟩
      exact ⟨r.2, get?_of_mem_rows hr, rfl⟩
    · rintro ⟨v, hv, hf⟩
      exact ⟨(row.1, v), mem_rows_of_get? hv, Prod.ext rfl hf⟩
  refine (List.perm_ext_iff_of_nodup (hnodup d) (hnodup d')).2 fun row => ?_
  rw [hmem, hmem, h]

theorem map_values_perm {ω : Type*} (f : υ → ω) (h : ∀ k, (d.get? k).map f = (d'.get? k).map f) :
    (d.values.map f).Perm (d'.values.map f) := by
  have hrows := (map_rows_perm f h).map Prod.snd
  rw [List.map_map, List.map_map] at hrows
  rw [values, values, List.map_map, List.map_map]
  exact hrows

/-- Dictionaries with the same values under all keys have the same rows, in some order. -/
theorem rows_perm (h : ∀ k, d.get? k = d'.get? k) : d.rows.Perm d'.rows := by
  simpa using map_rows_perm id fun k => by rw [h k]

theorem values_perm (h : ∀ k, d.get? k = d'.get? k) : d.values.Perm d'.values :=
  (rows_perm h).map _

theorem keys_perm (h : ∀ k, d.get? k = d'.get? k) : d.keys.Perm d'.keys := (rows_perm h).map _

end OrderedDict
