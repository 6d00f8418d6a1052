import Mathlib.Data.List.Forall2
import Mathlib.Data.List.Induction
import Mathlib.Data.List.Pairwise
import Mathlib.Data.List.Perm.Basic

/-!
# Greedy selection

A list is gone through once.  An element is taken when it is eligible and clear of all that were
taken before it; it is left when it is not eligible, or clashes with one that was taken.

* `Greedy.Selects` — what was seen, what was taken and what was left so far.
* `Greedy.Selects.perm` — every element is taken or left, once.
* `Greedy.Selects.pairwise_clear` — those that were taken are clear of each other.
* `Greedy.Selects.exists_clash` — an eligible one that was left clashes with an earlier one.
* `FirstFit.place`, `FirstFit.firstFit` — one element, and a list of them.
* `FirstFit.exists_groups_place` — one element keeps the relation.
* `FirstFit.exists_groups` — every element is in one group, and every group is summed up.
* `FirstFit.exists_group_of_mem` — a summary is that of a group.
-/

namespace Greedy

variable {α : Type*}

/-- What a greedy selection has seen, taken and left. -/
inductive Selects (eligible : α → Prop) (clear clash : α → α → Prop) :
    List α → List α → List α → Prop
  | start : Selects eligible clear clash [] [] []
  | take {seen taken left : List α} {a : α} (h : Selects eligible clear clash seen taken left)
      (ha : eligible a) (hclear : ∀ b ∈ taken, clear b a) :
      Selects eligible clear clash (seen ++ [a]) (taken ++ [a]) left
  | unfit {seen taken left : List α} {a : α} (h : Selects eligible clear clash seen taken left)
      (ha : ¬ eligible a) : Selects eligible clear clash (seen ++ [a]) taken (left ++ [a])
  | beaten {seen taken left : List α} {a b : α} (h : Selects eligible clear clash seen taken left)
      (hb : b ∈ taken) (hclash : clash b a) :
      Selects eligible clear clash (seen ++ [a]) taken (left ++ [a])

namespace Selects

variable {eligible : α → Prop} {clear clash : α → α → Prop} {seen taken left : List α}

/-- Every element is taken or left, once. -/
theorem perm (h : Selects eligible clear clash seen taken left) :
    (taken ++ left).Perm seen := by
  induction h with
  | start => exact List.Perm.refl _
  | @take seen taken left a h ha hclear ih =>
    have hmove : (taken ++ [a] ++ left).Perm (taken ++ left ++ [a]) := by
      rw [List.append_assoc, List.append_assoc]
      exact List.perm_append_comm.append_left taken
    exact hmove.trans (ih.append_right [a])
  | unfit h ha ih => exact List.append_assoc _ _ _ ▸ ih.append_right _
  | beaten h hb hclash ih => exact List.append_assoc _ _ _ ▸ ih.append_right _

theorem taken_sublist (h : Selects eligible clear clash seen taken left) :
    taken.Sublist seen := by
  induction h with
  | start => exact List.Sublist.refl _
  | take h ha hclear ih => exact ih.append (List.Sublist.refl _)
  | unfit h ha ih => exact ih.trans (List.sublist_append_left _ _)
  | beaten h hb hclash ih => exact ih.trans (List.sublist_append_left _ _)

theorem eligible_of_taken (h : Selects eligible clear clash seen taken left) :
    ∀ a ∈ taken, eligible a := by
  induction h with
  | start => simp
  | take h ha hclear ih =>
    intro b hb
    rcases List.mem_append.1 hb with hb | hb
    · exact ih b hb
    · exact List.mem_singleton.1 hb ▸ ha
  | unfit h ha ih => exact ih
  | beaten h hb hclash ih => exact ih

/-- Those that were taken are clear of each other. -/
theorem pairwise_clear (h : Selects eligible clear clash seen taken left) :
    taken.Pairwise clear := by
  induction h with
  | start => exact List.Pairwise.nil
  | take h ha hclear ih =>
    refine List.pairwise_append.2 ⟨ih, List.pairwise_singleton _ _, fun b hb c hc => ?_⟩
    rw [List.mem_singleton.1 hc]
    exact hclear b hb
  | unfit h ha ih => exact ih
  | beaten h hb hclash ih => exact ih

/-- An eligible element that was left clashes with one that was taken before it was seen. -/
theorem exists_clash {r : α → α → Prop} (h : Selects eligible clear clash seen taken left)
    (hseen : seen.Pairwise r) :
    ∀ a ∈ left, eligible a → ∃ b ∈ taken, clash b a ∧ r b a := by
  induction h with
  | start => simp
  | take h ha hclear ih =>
    intro a hleft helig
    obtain ⟨b, hb, hclash⟩ := ih (List.pairwise_append.1 hseen).1 a hleft helig
    exact ⟨b, List.mem_append_left _ hb, hclash⟩
  | unfit h ha ih =>
    intro a hleft helig
    rcases List.mem_append.1 hleft with hleft | hleft
    · exact ih (List.pairwise_append.1 hseen).1 a hleft helig
    · rw [List.mem_singleton.1 hleft] at helig
      exact absurd helig ha
  | @beaten seen taken left c b h hb hclash ih =>
    intro a hleft helig
    obtain ⟨hbefore, -, hlast⟩ := List.pairwise_append.1 hseen
    rcases List.mem_append.1 hleft with hleft | hleft
    · exact ih hbefore a hleft helig
    · obtain rfl := List.mem_singleton.1 hleft
      exact ⟨b, hb, hclash, hlast b (h.taken_sublist.subset hb) a List.mem_cons_self⟩

end Selects

end Greedy

/-!
## First-fit grouping

Elements come one by one.  Each joins the first group whose summary accepts it, or starts a group of
its own.  Only the summaries are kept, so what is known of a group is a relation between its members
and its summary that every join preserves.
-/

namespace FirstFit

variable {α σ : Type*} (accepts : σ → α → Bool) (join : σ → α → σ) (start : α → σ)

/-- An element joins the first group that accepts it. -/
def place : List σ → α → List σ
  | [], a => [start a]
  | s :: rest, a => if accepts s a then join s a :: rest else s :: place rest a

/-- The summaries of the groups of a list. -/
def firstFit (l : List α) : List σ := l.foldl (place accepts join start) []

variable {accepts join start} {R : List α → σ → Prop}

/-- Placing an element keeps what is known of the groups. -/
theorem exists_groups_place {a : α} (hstart : R [a] (start a))
    (hjoin : ∀ members s, R members s → accepts s a = true → R (members ++ [a]) (join s a))
    {groups : List (List α)} {summaries : List σ} (h : List.Forall₂ R groups summaries) :
    ∃ groups', List.Forall₂ R groups' (place accepts join start summaries a) ∧
      groups'.flatten.Perm (groups.flatten ++ [a]) := by
  induction h with
  | nil => exact ⟨[[a]], .cons hstart .nil, .refl _⟩
  | @cons members s groups rest hs hrest ih =>
    rw [place]
    split_ifs with haccepts
    · refine ⟨(members ++ [a]) :: groups, .cons (hjoin members s hs haccepts) hrest, ?_⟩
      rw [List.flatten_cons, List.flatten_cons, List.append_assoc, List.append_assoc]
      exact List.perm_append_comm.append_left members
    · obtain ⟨groups', hgroups', hperm⟩ := ih
      refine ⟨members :: groups', .cons hs hgroups', ?_⟩
      rw [List.flatten_cons, List.flatten_cons, List.append_assoc]
      exact hperm.append_left members

/-- Every element is in one group, and the groups are as their summaries say. -/
theorem exists_groups {l : List α} (hstart : ∀ a ∈ l, R [a] (start a))
    (hjoin : ∀ a ∈ l, ∀ members s, R members s → accepts s a = true → R (members ++ [a]) (join s a)) :
    ∃ groups, List.Forall₂ R groups (firstFit accepts join start l) ∧ groups.flatten.Perm l := by
  induction l using List.reverseRecOn with
  | nil => exact ⟨[], .nil, .refl _⟩
  | append_singleton l a ih =>
    obtain ⟨groups, hgroups, hperm⟩ := ih (fun b hb => hstart b (List.mem_append_left _ hb))
      fun b hb => hjoin b (List.mem_append_left _ hb)
    have ha : a ∈ l ++ [a] := List.mem_append_right _ (List.mem_singleton.2 rfl)
    obtain ⟨groups', hgroups', hperm'⟩ := exists_groups_place (hstart a ha) (hjoin a ha) hgroups
    refine ⟨groups', ?_, hperm'.trans (hperm.append_right [a])⟩
    rwa [firstFit, List.foldl_append]

/-- A summary is that of a group. -/
theorem exists_group_of_mem {groups : List (List α)} {summaries : List σ}
    (h : List.Forall₂ R groups summaries) {s : σ} (hs : s ∈ summaries) :
    ∃ members ∈ groups, R members s := by
  induction h with
  | nil => cases hs
  | cons hfirst _ ih =>
    rcases List.mem_cons.1 hs with rfl | hs
    · exact ⟨_, List.mem_cons_self, hfirst⟩
    · obtain ⟨members, hmembers, hR⟩ := ih hs
      exact ⟨members, List.mem_cons_of_mem _ hmembers, hR⟩

end FirstFit
