import Mathlib.Data.Finset.Basic
import Mathlib.Data.List.Nodup

/-!
# Covers without a superfluous item

Items carry tokens.  A cover of some tokens is gathered by taking one item after the other, each
with a token that is still open; what is superfluous in it is then dropped, one item at a time.

* `Cover.Gathering` — what holds while a cover is gathered.
* `Gathering.take`, `Gathering.covers` — one item is taken, and nothing is open any more.
* `Cover.Minimal` — no item of the cover may be dropped.
* `Minimal.exists_token` — each item carries a token that no other one does.
-/

namespace Cover

variable {ι τ : Type*} [DecidableEq τ] {tokens : ι → Finset τ}

/-- The tokens that some items carry together. -/
def carried (tokens : ι → Finset τ) (items : List ι) : Finset τ :=
  items.foldr (fun item found => tokens item ∪ found) ∅

theorem mem_carried {items : List ι} {token : τ} :
    token ∈ carried tokens items ↔ ∃ item ∈ items, token ∈ tokens item := by
  induction items with
  | nil => simp [carried]
  | cons item items ih =>
    rw [carried, List.foldr_cons, Finset.mem_union, ← carried, ih, List.exists_mem_cons_iff]

/-- The items without one of them. -/
def without [DecidableEq ι] (items : List ι) (item : ι) : List ι := items.filter (· ≠ item)

@[simp] theorem mem_without [DecidableEq ι] {items : List ι} {item x : ι} :
    x ∈ without items item ↔ x ∈ items ∧ x ≠ item := by
  rw [without, List.mem_filter, decide_eq_true_eq]

theorem length_without_lt [DecidableEq ι] {items : List ι} {item : ι} (h : item ∈ items) :
    (without items item).length < items.length :=
  List.length_filter_lt_length_iff_exists.2 ⟨item, h, by simp⟩

/-! ## Gathering -/

/-- Some items were taken and others are left: the tokens that are not open are covered, and those
that are open can be. -/
structure Gathering (tokens : ι → Finset τ) (items : List ι) (target remaining : Finset τ)
    (taken left : List ι) : Prop where
  nodup : taken.Nodup
  taken_mem : ∀ item ∈ taken, item ∈ items
  left_mem : ∀ item ∈ left, item ∈ items
  apart : ∀ item ∈ taken, item ∉ left
  covered : ∀ token ∈ target, token ∉ remaining → token ∈ carried tokens taken
  coverable : remaining ⊆ carried tokens left

namespace Gathering

variable {items taken left : List ι} {target remaining : Finset τ}

theorem start (h : target ⊆ carried tokens items) :
    Gathering tokens items target target [] items where
  nodup := List.nodup_nil
  taken_mem _ hitem := absurd hitem List.not_mem_nil
  left_mem _ hitem := hitem
  apart _ hitem := absurd hitem List.not_mem_nil
  covered _ htoken hnot := absurd htoken hnot
  coverable := h

/-- When nothing is open the items that were taken are a cover. -/
theorem covers (h : Gathering tokens items target ∅ taken left) :
    target ⊆ carried tokens taken :=
  fun token htoken => h.covered token htoken (Finset.notMem_empty token)

variable [DecidableEq ι]

/-- An item is taken, and with it everything open that it carries. -/
theorem take (h : Gathering tokens items target remaining taken left) {item : ι}
    (hitem : item ∈ left) : Gathering tokens items target (remaining \ (tokens item ∩ remaining))
      (taken ++ [item]) (without left item) where
  nodup := by
    refine List.nodup_append.2 ⟨h.nodup, List.nodup_singleton item, fun x hx y hy => ?_⟩
    rw [List.mem_singleton.1 hy]
    rintro rfl
    exact h.apart x hx hitem
  taken_mem x hx := by
    rcases List.mem_append.1 hx with hx | hx
    · exact h.taken_mem x hx
    · exact List.mem_singleton.1 hx ▸ h.left_mem item hitem
  left_mem x hx := h.left_mem x (mem_without.1 hx).1
  apart x hx hmem := by
    obtain ⟨hleft, hne⟩ := mem_without.1 hmem
    rcases List.mem_append.1 hx with hx | hx
    · exact h.apart x hx hleft
    · exact hne (List.mem_singleton.1 hx)
  covered token htoken hnot := by
    rw [mem_carried]
    by_cases hopen : token ∈ remaining
    · -- the item carries it
      refine ⟨item, List.mem_append_right _ (List.mem_singleton_self item), ?_⟩
      by_contra hcarries
      exact hnot (by simp [hopen, hcarries])
    · obtain ⟨x, hx, hcarries⟩ := mem_carried.1 (h.covered token htoken hopen)
      exact ⟨x, List.mem_append_left _ hx, hcarries⟩
  coverable token htoken := by
    obtain ⟨hopen, hnot⟩ := Finset.mem_sdiff.1 htoken
    obtain ⟨x, hx, hcarries⟩ := mem_carried.1 (h.coverable hopen)
    refine mem_carried.2 ⟨x, mem_without.2 ⟨hx, ?_⟩, hcarries⟩
    rintro rfl
    exact hnot (Finset.mem_inter.2 ⟨hcarries, hopen⟩)

end Gathering

/-! ## Minimal covers -/

variable [DecidableEq ι]

/-- A cover that is none any more when one of its items is dropped. -/
structure Minimal (tokens : ι → Finset τ) (target : Finset τ) (items : List ι) : Prop where
  nodup : items.Nodup
  covers : target ⊆ carried tokens items
  needed : ∀ item ∈ items, ¬ target ⊆ carried tokens (without items item)

/-- A single item is needed for a token. -/
theorem not_subset_carried_of_length_le {target : Finset τ} {items : List ι} (h : target.Nonempty)
    (hlength : items.length ≤ 1) {item : ι} (hitem : item ∈ items) :
    ¬ target ⊆ carried tokens (without items item) := by
  obtain ⟨token, htoken⟩ := h
  intro hsub
  obtain ⟨x, hx, -⟩ := mem_carried.1 (hsub htoken)
  obtain ⟨hx, hne⟩ := mem_without.1 hx
  match items, hlength with
  | [y], _ =>
    rw [List.mem_singleton] at hx hitem
    exact hne (hx.trans hitem.symm)

/-- Each item of a minimal cover carries a token that no other one does. -/
theorem Minimal.exists_token {target : Finset τ} {before after : List ι} {item : ι}
    (h : Minimal tokens target (before ++ item :: after)) :
    ∃ token ∈ target, ∀ other ∈ before ++ after, token ∉ tokens other := by
  have hneeded := h.needed item (List.mem_append_right _ List.mem_cons_self)
  rw [Finset.not_subset] at hneeded
  obtain ⟨token, htoken, hnot⟩ := hneeded
  refine ⟨token, htoken, fun other hother hcarries => hnot ?_⟩
  have hperm : (before ++ item :: after).Perm (item :: (before ++ after)) := List.perm_middle
  have hnodup := List.nodup_cons.1 (hperm.nodup_iff.1 h.nodup)
  refine mem_carried.2 ⟨other, mem_without.2 ⟨?_, ?_⟩, hcarries⟩
  · exact hperm.mem_iff.2 (List.mem_cons_of_mem item hother)
  · rintro rfl
    exact hnodup.1 hother

end Cover
