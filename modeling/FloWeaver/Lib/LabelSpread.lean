import Mathlib.Data.List.Basic
import Mathlib.Data.List.Count
import Mathlib.Data.List.Nodup
import Mathlib.Data.Set.Basic
import Mathlib.Logic.Function.Basic

/-!
# Labels spread along the edges of a graph

Some nodes of a graph are labelled from the start.  A node without a label takes the label on which
its labelled predecessors agree, and the nodes are swept in a fixed order, in place, until a sweep
changes nothing.  The rule looks only at the predecessors that are labelled already, so in general the
order matters.

* `LabelSpread.loop_ends`, `LabelSpread.loop_closed` — the sweeps end, and nothing more would spread.
* `LabelSpread.Owned` — a node whose predecessors all lead back to roots of one label.
* `LabelSpread.owned_of_consistent` — labels that agree with all predecessors are those of the owned
  nodes.
* `LabelSpread.Decided` — no node is both downstream of an owned node and not owned.
* `LabelSpread.Decided.label_iff` — then the labels do not depend on the order.
* `LabelSpread.exists_order` — otherwise some order gives a label to a node that is not owned.
-/

namespace LabelSpread

variable {α κ : Type*} [DecidableEq α] [DecidableEq κ]
variable (kinds : List κ) (preds : α → List α)

/-! ## The loop -/

/-- Are there entries, and are they all the same given one? -/
def allAre (found : List κ) (k : κ) : Bool := found ≠ [] && found.all (· = k)

/-- The kind that all the labelled predecessors of a node have, if there are any. -/
def agreed (labels : α → Option κ) (a : α) : Option κ :=
  kinds.find? (allAre ((preds a).filterMap labels))

/-- A node without a label takes the agreed one, and the change is noted. -/
def visit (s : (α → Option κ) × Bool) (a : α) : (α → Option κ) × Bool :=
  match s.1 a, agreed kinds preds s.1 a with
  | none, some k => (Function.update s.1 a (some k), true)
  | _, _ => s

def sweep (order : List α) (labels : α → Option κ) : (α → Option κ) × Bool :=
  order.foldl (visit kinds preds) (labels, false)

/-- Sweeps until one changes nothing. -/
def loop (order : List α) : ℕ → (α → Option κ) → Option (α → Option κ)
  | 0, _ => none
  | fuel + 1, labels =>
    match sweep kinds preds order labels with
    | (labels', true) => loop order fuel labels'
    | (labels', false) => some labels'

variable {kinds preds}

omit [DecidableEq α] in
theorem allAre_filterMap {l : List α} {labels : α → Option κ} {k : κ} :
    allAre (l.filterMap labels) k = true ↔
      (∃ p ∈ l, labels p = some k) ∧ ∀ p ∈ l, ∀ j, labels p = some j → j = k := by
  rw [allAre, Bool.and_eq_true, decide_eq_true_eq, List.all_eq_true]
  constructor
  · rintro ⟨hne, hall⟩
    have hsame : ∀ p ∈ l, ∀ j, labels p = some j → j = k := fun p hp j hj =>
      of_decide_eq_true (hall j (List.mem_filterMap.2 ⟨p, hp, hj⟩))
    obtain ⟨j, hj⟩ := List.exists_mem_of_ne_nil _ hne
    obtain ⟨p, hp, hlabel⟩ := List.mem_filterMap.1 hj
    exact ⟨⟨p, hp, hsame p hp j hlabel ▸ hlabel⟩, hsame⟩
  · rintro ⟨⟨p, hp, hlabel⟩, hsame⟩
    refine ⟨List.ne_nil_of_mem (List.mem_filterMap.2 ⟨p, hp, hlabel⟩), fun j hj => ?_⟩
    obtain ⟨q, hq, hj⟩ := List.mem_filterMap.1 hj
    exact decide_eq_true (hsame q hq j hj)

omit [DecidableEq α] in
theorem agreed_eq_some {labels : α → Option κ} {a : α} {k : κ} :
    agreed kinds preds labels a = some k ↔
      k ∈ kinds ∧ (∃ p ∈ preds a, labels p = some k) ∧
        ∀ p ∈ preds a, ∀ j, labels p = some j → j = k := by
  rw [agreed]
  constructor
  · intro h
    exact ⟨List.mem_of_find?_eq_some h, allAre_filterMap.1 (List.find?_some h)⟩
  · rintro ⟨hk, hagree⟩
    cases hfind : kinds.find? (allAre ((preds a).filterMap labels)) with
    | none => exact absurd (allAre_filterMap.2 hagree) (List.find?_eq_none.1 hfind k hk)
    | some j =>
      obtain ⟨p, hp, hlabel⟩ := hagree.1
      rw [(allAre_filterMap.1 (List.find?_some hfind)).2 p hp k hlabel]

variable (kinds preds) in
/-- A visit leaves the state alone, or labels a node that had no label. -/
theorem visit_cases (s : (α → Option κ) × Bool) (a : α) :
    (visit kinds preds s a = s ∧ (s.1 a = none → agreed kinds preds s.1 a = none)) ∨
      ∃ k, s.1 a = none ∧ agreed kinds preds s.1 a = some k ∧
        visit kinds preds s a = (Function.update s.1 a (some k), true) := by
  rw [visit]
  cases ha : s.1 a with
  | some k => exact .inl ⟨rfl, nofun⟩
  | none =>
    cases hk : agreed kinds preds s.1 a with
    | none => exact .inl ⟨rfl, fun _ => rfl⟩
    | some k => exact .inr ⟨k, rfl, rfl, rfl⟩

/-- What every new label keeps holds after a sweep. -/
theorem foldl_visit_keeps {P : (α → Option κ) → Prop} {order : List α}
    (hstep : ∀ labels a k, P labels → a ∈ order → labels a = none →
      agreed kinds preds labels a = some k → P (Function.update labels a (some k)))
    {s : (α → Option κ) × Bool} (h : P s.1) : P (order.foldl (visit kinds preds) s).1 := by
  induction order generalizing s with
  | nil => exact h
  | cons a order ih =>
    rw [List.foldl_cons]
    refine ih (fun labels b k hP hb => hstep labels b k hP (List.mem_cons_of_mem _ hb)) ?_
    rcases visit_cases kinds preds s a with ⟨hsame, -⟩ | ⟨k, hnone, hk, hnew⟩
    · rwa [hsame]
    · rw [hnew]
      exact hstep s.1 a k h List.mem_cons_self hnone hk

/-- What every new label keeps holds after the loop. -/
theorem loop_keeps {P : (α → Option κ) → Prop} {order : List α}
    (hstep : ∀ labels a k, P labels → a ∈ order → labels a = none →
      agreed kinds preds labels a = some k → P (Function.update labels a (some k)))
    {fuel : ℕ} {labels final : α → Option κ} (h : P labels)
    (hloop : loop kinds preds order fuel labels = some final) : P final := by
  induction fuel generalizing labels with
  | zero => cases hloop
  | succ fuel ih =>
    have hswept : P (sweep kinds preds order labels).1 := foldl_visit_keeps hstep h
    rw [loop] at hloop
    split at hloop
    next labels' heq =>
      rw [heq] at hswept
      exact ih hswept hloop
    next labels' heq =>
      rw [heq] at hswept
      cases hloop
      exact hswept

/-- A label that is there stays. -/
theorem loop_extends {order : List α} {fuel : ℕ} {labels final : α → Option κ} {a : α} {k : κ}
    (h : labels a = some k) (hloop : loop kinds preds order fuel labels = some final) :
    final a = some k := by
  refine loop_keeps (P := fun l => l a = some k) (fun l b j hl _ hnone _ => ?_) h hloop
  have hne : a ≠ b := by
    rintro rfl
    rw [hnone] at hl
    cases hl
  rw [Function.update_of_ne hne, hl]

/-- A sweep that notes no change has made none, and no node was ready for a label. -/
theorem foldl_visit_of_unchanged {order : List α} {s : (α → Option κ) × Bool}
    (h : (order.foldl (visit kinds preds) s).2 = false) :
    order.foldl (visit kinds preds) s = s ∧
      ∀ a ∈ order, s.1 a = none → agreed kinds preds s.1 a = none := by
  induction order generalizing s with
  | nil => exact ⟨rfl, nofun⟩
  | cons a order ih =>
    rw [List.foldl_cons] at h ⊢
    obtain ⟨hrest, hready⟩ := ih h
    rw [hrest] at h ⊢
    rcases visit_cases kinds preds s a with ⟨hsame, hnone⟩ | ⟨k, -, -, hnew⟩
    · rw [hsame] at hready ⊢
      refine ⟨rfl, fun b hb => ?_⟩
      rcases List.mem_cons.1 hb with rfl | hb
      · exact hnone
      · exact hready b hb
    · rw [hnew] at h
      cases h

/-- When the loop ends, nothing more would spread. -/
theorem loop_closed {order : List α} {fuel : ℕ} {labels final : α → Option κ}
    (hloop : loop kinds preds order fuel labels = some final) :
    ∀ a ∈ order, final a = none → agreed kinds preds final a = none := by
  induction fuel generalizing labels with
  | zero => cases hloop
  | succ fuel ih =>
    rw [loop] at hloop
    split at hloop
    next labels' heq => exact ih hloop
    next labels' heq =>
      cases hloop
      obtain ⟨hsame, hready⟩ := foldl_visit_of_unchanged (s := (labels, false))
        (show (sweep kinds preds order labels).2 = false by rw [heq])
      rw [sweep, hsame] at heq
      cases heq
      exact hready

/-! ### The sweeps end -/

/-- How many nodes of a list have no label. -/
def unlabelled (order : List α) (labels : α → Option κ) : ℕ :=
  order.countP fun a => (labels a).isNone

omit [DecidableEq κ] in
theorem unlabelled_update_lt {order : List α} {labels : α → Option κ} {a : α} {k : κ}
    (ha : a ∈ order) (hnone : labels a = none) :
    unlabelled order (Function.update labels a (some k)) < unlabelled order labels := by
  have hle : ∀ b ∈ order, (Function.update labels a (some k) b).isNone = true →
      (labels b).isNone = true := by
    intro b _ hb
    by_cases hab : b = a
    · rw [hab, hnone]; rfl
    · rwa [Function.update_of_ne hab] at hb
  obtain ⟨before, after, rfl⟩ := List.append_of_mem ha
  have hbefore := List.countP_mono_left fun b hb => hle b (List.mem_append_left _ hb)
  have hafter := List.countP_mono_left fun b hb =>
    hle b (List.mem_append_right _ (List.mem_cons_of_mem _ hb))
  simp only [unlabelled, List.countP_append, List.countP_cons, Function.update_self, hnone,
    Option.isNone_none, Option.isNone_some]
  simp only [if_true, Bool.false_eq_true, if_false]
  omega

/-- A sweep that notes a change has labelled a node. -/
theorem foldl_visit_unlabelled {nodes order : List α} (hsub : order ⊆ nodes)
    (s : (α → Option κ) × Bool) :
    order.foldl (visit kinds preds) s = s ∨
      unlabelled nodes (order.foldl (visit kinds preds) s).1 < unlabelled nodes s.1 := by
  induction order generalizing s with
  | nil => exact .inl rfl
  | cons a order ih =>
    rw [List.foldl_cons]
    have hrest := ih (fun b hb => hsub (List.mem_cons_of_mem _ hb)) (visit kinds preds s a)
    rcases visit_cases kinds preds s a with
      ⟨hsame, -⟩ | ⟨k, hnone, -, hnew⟩
    · rwa [hsame] at hrest ⊢
    · have hless := unlabelled_update_lt (k := k) (hsub List.mem_cons_self) hnone
      rw [hnew] at hrest ⊢
      rcases hrest with hrest | hrest
      · rw [hrest]
        exact .inr hless
      · exact .inr (hrest.trans hless)

/-- The sweeps end: each but the last one labels a node. -/
theorem loop_ends {order : List α} {fuel : ℕ} {labels : α → Option κ}
    (h : unlabelled order labels < fuel) :
    ∃ final, loop kinds preds order fuel labels = some final := by
  induction fuel generalizing labels with
  | zero => exact absurd h (Nat.not_lt_zero _)
  | succ fuel ih =>
    rw [loop]
    split
    next labels' heq =>
      refine ih ?_
      have hsweep : sweep kinds preds order labels = (labels, false) ∨
          unlabelled order (sweep kinds preds order labels).1 < unlabelled order labels :=
        foldl_visit_unlabelled (List.Subset.refl order) (labels, false)
      rw [heq] at hsweep
      rcases hsweep with hsame | hless
      · cases hsame
      · exact Nat.lt_of_lt_of_le hless (Nat.lt_succ_iff.1 h)
    next labels' heq => exact ⟨labels', rfl⟩

/-! ## Owned nodes -/

section Owned

variable (preds) (roots : α → Option κ)

/-- A node that a root labelled `k` leads to, through nodes that are no roots. -/
inductive Reached (k : κ) : α → Prop
  | root {p a : α} : p ∈ preds a → roots p = some k → roots a = none → Reached k a
  | step {p a : α} : p ∈ preds a → Reached k p → roots a = none → Reached k a

/-- A group of reached nodes that is entered only from roots labelled `k`. -/
structure Enclosed (k : κ) (group : Set α) : Prop where
  reached : ∀ a ∈ group, Reached preds roots k a
  entered : ∀ a ∈ group, ∀ p ∈ preds a, roots p = some k ∨ p ∈ group

/-- A node of such a group. -/
def Owned (k : κ) (a : α) : Prop := ∃ group, Enclosed preds roots k group ∧ a ∈ group

/-- Roots with different labels precede the node. -/
def Contested (a : α) : Prop :=
  ∃ p ∈ preds a, ∃ q ∈ preds a, ∃ k j, roots p = some k ∧ roots q = some j ∧ k ≠ j

/-- What follows a root or an owned node is owned as well, or it is contested. -/
def Decided : Prop :=
  ∀ a p k, roots a = none → p ∈ preds a → roots p = some k ∨ Owned preds roots k p →
    Owned preds roots k a ∨ Contested preds roots a

/-- A labelled node that is no root has predecessors, and all have its label. -/
def Consistent (labels : α → Option κ) : Prop :=
  ∀ a k, roots a = none → labels a = some k →
    (∃ p, p ∈ preds a) ∧ ∀ p ∈ preds a, labels p = some k

variable {preds roots}

omit [DecidableEq α] [DecidableEq κ] in
theorem Reached.root_none {k : κ} {a : α} (h : Reached preds roots k a) : roots a = none := by
  cases h with
  | root _ _ ha => exact ha
  | step _ _ ha => exact ha

omit [DecidableEq α] [DecidableEq κ] in
theorem Reached.exists_root {k : κ} {a : α} (h : Reached preds roots k a) :
    ∃ r, roots r = some k := by
  induction h with
  | root _ hroot _ => exact ⟨_, hroot⟩
  | step _ _ _ ih => exact ih

omit [DecidableEq α] [DecidableEq κ] in
theorem Reached.exists_pred {k : κ} {a : α} (h : Reached preds roots k a) : ∃ p, p ∈ preds a := by
  cases h with
  | root hp _ _ => exact ⟨_, hp⟩
  | step hp _ _ => exact ⟨_, hp⟩

omit [DecidableEq α] [DecidableEq κ] in
theorem Owned.reached {k : κ} {a : α} (h : Owned preds roots k a) : Reached preds roots k a := by
  obtain ⟨group, hgroup, ha⟩ := h
  exact hgroup.reached a ha

omit [DecidableEq α] [DecidableEq κ] in
theorem Owned.entered {k : κ} {a p : α} (h : Owned preds roots k a) (hp : p ∈ preds a) :
    roots p = some k ∨ Owned preds roots k p := by
  obtain ⟨group, hgroup, ha⟩ := h
  exact (hgroup.entered a ha p hp).imp_right fun hmem => ⟨group, hgroup, hmem⟩

omit [DecidableEq α] [DecidableEq κ] in
/-- An owned node is reached from roots of one label only. -/
theorem Owned.eq_of_reached {k j : κ} {a : α} (h : Owned preds roots k a)
    (hj : Reached preds roots j a) : j = k := by
  induction hj with
  | root hp hroot _ =>
    rcases h.entered hp with hk | hk
    · exact Option.some.inj (hroot.symm.trans hk)
    · rw [hk.reached.root_none] at hroot
      cases hroot
  | step hp hreached _ ih =>
    rcases h.entered hp with hk | hk
    · rw [hreached.root_none] at hk
      cases hk
    · exact ih hk

omit [DecidableEq α] [DecidableEq κ] in
/-- The label of what comes before an owned node is that of the node. -/
theorem Owned.eq_of_pred {k j : κ} {a p : α} (h : Owned preds roots k a) (hp : p ∈ preds a)
    (hj : roots p = some j ∨ Owned preds roots j p) : j = k := by
  rcases h.entered hp with hk | hk <;> rcases hj with hj | hj
  · exact Option.some.inj (hj.symm.trans hk)
  · rw [hj.reached.root_none] at hk
    cases hk
  · rw [hk.reached.root_none] at hj
    cases hj
  · exact hk.eq_of_reached hj.reached

/-! ### What the loop labels -/

variable {order : List α} {fuel : ℕ} {labels final : α → Option κ}

/-- The labels so far: the roots keep theirs, every other label comes from a root, and an owned node
has that of its owner. -/
structure Sound (preds : α → List α) (roots labels : α → Option κ) : Prop where
  root : ∀ a k, roots a = some k → labels a = some k
  reached : ∀ a k, labels a = some k → roots a = some k ∨ Reached preds roots k a
  owned : ∀ a k j, Owned preds roots k a → labels a = some j → j = k

omit [DecidableEq α] [DecidableEq κ] in
theorem Sound.refl : Sound preds roots roots := by
  refine ⟨fun _ _ h => h, fun _ _ h => .inl h, fun a k j howned hj => ?_⟩
  rw [howned.reached.root_none] at hj
  cases hj

omit [DecidableEq κ] [DecidableEq α] in
theorem Sound.root_none (h : Sound preds roots labels) {a : α} (ha : labels a = none) :
    roots a = none := by
  cases hroot : roots a with
  | none => rfl
  | some k => rw [h.root a k hroot] at ha; cases ha

omit [DecidableEq κ] [DecidableEq α] in
/-- What is labelled before an owned node has the label of its owner. -/
theorem Sound.eq_of_pred (h : Sound preds roots labels) {a p : α} {k j : κ}
    (howned : Owned preds roots k a) (hp : p ∈ preds a) (hlabel : labels p = some j) : j = k := by
  rcases howned.entered hp with hroot | hp
  · exact Option.some.inj (hlabel.symm.trans (h.root p k hroot))
  · exact h.owned p k j hp hlabel

/-- A new label is sound. -/
theorem Sound.update (h : Sound preds roots labels) {a : α} {k : κ} (hnone : labels a = none)
    (hk : agreed kinds preds labels a = some k) :
    Sound preds roots (Function.update labels a (some k)) := by
  obtain ⟨-, ⟨p, hp, hlabel⟩, -⟩ := agreed_eq_some.1 hk
  have ha : roots a = none := h.root_none hnone
  refine ⟨fun b j hb => ?_, fun b j hb => ?_, fun b i j howned hb => ?_⟩
  · have hne : b ≠ a := by
      rintro rfl
      rw [ha] at hb
      cases hb
    rw [Function.update_of_ne hne, h.root b j hb]
  · by_cases hba : b = a
    · subst hba
      rw [Function.update_self] at hb
      cases hb
      rcases h.reached p k hlabel with hroot | hreached
      · exact .inr (.root hp hroot ha)
      · exact .inr (.step hp hreached ha)
    · rw [Function.update_of_ne hba] at hb
      exact h.reached b j hb
  · by_cases hba : b = a
    · subst hba
      rw [Function.update_self] at hb
      cases hb
      exact h.eq_of_pred howned hp hlabel
    · rw [Function.update_of_ne hba] at hb
      exact h.owned b i j howned hb

/-- The labels at the end are sound. -/
theorem loop_sound (hloop : loop kinds preds order fuel roots = some final) :
    Sound preds roots final :=
  loop_keeps (P := Sound preds roots) (fun _ _ _ hsound _ hnone hk => hsound.update hnone hk)
    Sound.refl hloop

/-- An owned node is labelled at the end. -/
theorem Owned.label (hkinds : ∀ a k, roots a = some k → k ∈ kinds)
    (hcover : ∀ a p, p ∈ preds a → a ∈ order)
    (hloop : loop kinds preds order fuel roots = some final) {k : κ} {a : α}
    (h : Owned preds roots k a) : final a = some k := by
  have hsound := loop_sound hloop
  have hlabelled : ∀ a p, Owned preds roots k a → p ∈ preds a → k ∈ kinds →
      final p = some k → final a = some k := by
    intro a p ha hp hmem hlabel
    cases hfinal : final a with
    | some j => rw [hsound.owned a k j ha hfinal]
    | none =>
      have hk : agreed kinds preds final a = some k :=
        agreed_eq_some.2 ⟨hmem, ⟨p, hp, hlabel⟩, fun q hq j hj => hsound.eq_of_pred ha hq hj⟩
      rw [loop_closed hloop a (hcover a p hp) hfinal] at hk
      cases hk
  have hkind : k ∈ kinds := by
    obtain ⟨r, hr⟩ := h.reached.exists_root
    exact hkinds r k hr
  induction h.reached with
  | root hp hroot _ => exact hlabelled _ _ h hp hkind (hsound.root _ k hroot)
  | step hp hreached _ ih =>
    rcases h.entered hp with hroot | howned
    · exact hlabelled _ _ h hp hkind (hsound.root _ k hroot)
    · exact hlabelled _ _ h hp hkind (ih howned)

/-- Labels that agree with all predecessors are those of owned nodes. -/
theorem owned_of_consistent (hloop : loop kinds preds order fuel roots = some final)
    (h : Consistent preds roots final) {a : α} {k : κ} (ha : roots a = none)
    (hlabel : final a = some k) : Owned preds roots k a := by
  have hsound := loop_sound hloop
  refine ⟨{b | roots b = none ∧ final b = some k}, ⟨fun b hb => ?_, fun b hb p hp => ?_⟩, ha, hlabel⟩
  · rcases hsound.reached b k hb.2 with hroot | hreached
    · rw [hb.1] at hroot
      cases hroot
    · exact hreached
  · have hp : final p = some k := (h b k hb.1 hb.2).2 p hp
    cases hroot : roots p with
    | none => exact .inr ⟨hroot, hp⟩
    | some j => exact .inl ((hsound.root p j hroot).symm.trans hp)

/-- When every node is decided, the labels are those of the roots and of the owned nodes. -/
theorem Decided.label_iff (h : Decided preds roots) (hkinds : ∀ a k, roots a = some k → k ∈ kinds)
    (hcover : ∀ a p, p ∈ preds a → a ∈ order)
    (hloop : loop kinds preds order fuel roots = some final) (a : α) (k : κ) :
    final a = some k ↔ roots a = some k ∨ Owned preds roots k a := by
  constructor
  · refine (loop_keeps (P := fun l => Sound preds roots l ∧
      ∀ a k, l a = some k → roots a = some k ∨ Owned preds roots k a) ?_
        ⟨.refl, fun _ _ h => .inl h⟩ hloop).2 a k
    rintro labels b j ⟨hsound, howned⟩ - hnone hj
    refine ⟨hsound.update hnone hj, fun c i hc => ?_⟩
    by_cases hcb : c = b
    · subst hcb
      rw [Function.update_self] at hc
      cases hc
      obtain ⟨-, ⟨p, hp, hlabel⟩, hsame⟩ := agreed_eq_some.1 hj
      rcases h c p j (hsound.root_none hnone) hp (howned p j hlabel) with hown | hcontested
      · exact .inr hown
      · -- two roots with different labels are labelled from the start
        obtain ⟨q, hq, r, hr, i, i', hqi, hri, hne⟩ := hcontested
        exact absurd ((hsame q hq i (hsound.root q i hqi)).trans
          (hsame r hr i' (hsound.root r i' hri)).symm) hne
    · rw [Function.update_of_ne hcb] at hc
      exact howned c i hc
  · rintro (hroot | howned)
    · exact (loop_sound hloop).root a k hroot
    · exact howned.label hkinds hcover hloop

/-- When every node is decided, the labels agree with all predecessors. -/
theorem Decided.consistent (h : Decided preds roots)
    (hkinds : ∀ a k, roots a = some k → k ∈ kinds) (hcover : ∀ a p, p ∈ preds a → a ∈ order)
    (hloop : loop kinds preds order fuel roots = some final) : Consistent preds roots final := by
  intro a k ha hlabel
  rcases (h.label_iff hkinds hcover hloop a k).1 hlabel with hroot | howned
  · rw [ha] at hroot
    cases hroot
  · exact ⟨howned.reached.exists_pred,
      fun p hp => (h.label_iff hkinds hcover hloop p k).2 (howned.entered hp)⟩

/-! ### An order that labels an undecided node -/

/-- Owned nodes, each of them after one of its predecessors. -/
inductive Ladder (preds : α → List α) (roots : α → Option κ) (k : κ) : List α → Prop
  | nil : Ladder preds roots k []
  | snoc {front : List α} {a p : α} : Ladder preds roots k front → a ∉ front →
      Owned preds roots k a → p ∈ preds a → roots p = some k ∨ p ∈ front →
      Ladder preds roots k (front ++ [a])

omit [DecidableEq κ] in
theorem Owned.exists_ladder {k : κ} {a : α} (h : Owned preds roots k a) :
    ∃ front, Ladder preds roots k front ∧ a ∈ front := by
  induction h.reached with
  | root hp hroot _ =>
    exact ⟨[] ++ [_], .snoc .nil List.not_mem_nil h hp (.inl hroot), List.mem_singleton.2 rfl⟩
  | @step p a hp hreached _ ih =>
    rcases h.entered hp with hroot | howned
    · exact ⟨[] ++ [a], .snoc .nil List.not_mem_nil h hp (.inl hroot), List.mem_singleton.2 rfl⟩
    · obtain ⟨front, hfront, hmem⟩ := ih howned
      by_cases ha : a ∈ front
      · exact ⟨front, hfront, ha⟩
      · exact ⟨front ++ [a], hfront.snoc ha h hp (.inr hmem),
          List.mem_append_right _ (List.mem_singleton.2 rfl)⟩

omit [DecidableEq α] [DecidableEq κ] in
theorem Ladder.owned {k : κ} {front : List α} (h : Ladder preds roots k front) :
    ∀ a ∈ front, Owned preds roots k a := by
  induction h with
  | nil => exact nofun
  | snoc _ _ ha _ _ ih =>
    intro b hb
    rcases List.mem_append.1 hb with hb | hb
    · exact ih b hb
    · rwa [List.mem_singleton.1 hb]

omit [DecidableEq α] [DecidableEq κ] in
theorem Ladder.nodup {k : κ} {front : List α} (h : Ladder preds roots k front) : front.Nodup := by
  induction h with
  | nil => exact List.nodup_nil
  | snoc _ ha _ _ _ ih =>
    refine List.nodup_append.2 ⟨ih, List.nodup_singleton _, fun b hb c hc => ?_⟩
    rw [List.mem_singleton.1 hc]
    exact fun heq => ha (heq ▸ hb)

/-- A sweep along a ladder labels it. -/
theorem Ladder.foldl_visit {k : κ} {front : List α} (h : Ladder preds roots k front)
    (hk : k ∈ kinds) (changed : Bool) :
    (front.foldl (visit kinds preds) (roots, changed)).1 =
      fun a => if a ∈ front then some k else roots a := by
  induction h with
  | nil => rfl
  | @snoc front a p hfront ha howned hp hpred ih =>
    rw [List.foldl_append, List.foldl_cons, List.foldl_nil]
    set s := front.foldl (visit kinds preds) (roots, changed) with hs
    have hnone : s.1 a = none := by
      rw [ih]
      exact (if_neg ha).trans howned.reached.root_none
    have hlabel : s.1 p = some k := by
      rw [ih]
      rcases hpred with hroot | hmem
      · exact (ite_eq_left_iff.2 fun _ => hroot)
      · exact if_pos hmem
    have hagreed : agreed kinds preds s.1 a = some k := by
      refine agreed_eq_some.2 ⟨hk, ⟨p, hp, hlabel⟩, fun q hq j hj => ?_⟩
      rw [ih] at hj
      by_cases hmem : q ∈ front
      · exact (Option.some.inj ((if_pos hmem).symm.trans hj)).symm
      · exact howned.eq_of_pred hq (.inl ((if_neg hmem).symm.trans hj))
    rcases visit_cases kinds preds s a with ⟨-, hready⟩ | ⟨j, -, hj, hnew⟩
    · rw [hready hnone] at hagreed
      cases hagreed
    · cases hagreed.symm.trans hj
      rw [hnew, ih]
      funext b
      simp only [List.mem_append, List.mem_singleton]
      by_cases hba : b = a
      · subst hba
        rw [if_pos (.inr rfl)]
        exact Function.update_self ..
      · simp only [hba, or_false]
        exact Function.update_of_ne hba ..

/-- A label that the first sweep gives is there at the end. -/
theorem loop_of_front {front rest : List α} {a : α} {k : κ}
    (hloop : loop kinds preds (front ++ a :: rest) fuel labels = some final)
    (hnone : (front.foldl (visit kinds preds) (labels, false)).1 a = none)
    (hk : agreed kinds preds (front.foldl (visit kinds preds) (labels, false)).1 a = some k) :
    final a = some k := by
  have hstay : ∀ (l : List α) (s : (α → Option κ) × Bool), s.1 a = some k →
      (l.foldl (visit kinds preds) s).1 a = some k := by
    intro l s hs
    refine foldl_visit_keeps (P := fun l => l a = some k) (fun l b j hl _ hb _ => ?_) hs
    have hne : a ≠ b := by
      rintro rfl
      rw [hb] at hl
      cases hl
    rw [Function.update_of_ne hne, hl]
  have hswept : (sweep kinds preds (front ++ a :: rest) labels).1 a = some k := by
    rw [sweep, List.foldl_append, List.foldl_cons]
    refine hstay rest _ ?_
    rcases visit_cases kinds preds
      (front.foldl (visit kinds preds) (labels, false)) a with ⟨-, hready⟩ | ⟨j, -, hj, hnew⟩
    · rw [hready hnone] at hk
      cases hk
    · rw [hnew, ← hk, hj]
      exact Function.update_self ..
  cases fuel with
  | zero => cases hloop
  | succ fuel =>
    rw [loop] at hloop
    split at hloop
    next labels' heq =>
      rw [heq] at hswept
      exact loop_extends hswept hloop
    next labels' heq =>
      rw [heq] at hswept
      cases hloop
      exact hswept

/-- When a node is undecided, some order labels a node that is not owned. -/
theorem exists_order (h : ¬ Decided preds roots) (hkinds : ∀ a k, roots a = some k → k ∈ kinds) :
    ∃ front a, (front ++ [a]).Nodup ∧ (∀ b ∈ front ++ [a], roots b = none ∧ ∃ p, p ∈ preds b) ∧
      (∀ k, ¬ Owned preds roots k a) ∧
      ∀ rest fuel final, loop kinds preds (front ++ a :: rest) fuel roots = some final →
        final a ≠ none := by
  simp only [Decided] at h
  push Not at h
  obtain ⟨a, p, k, ha, hp, hpred, hnot, hcontested⟩ := h
  have hunowned : ∀ j, ¬ Owned preds roots j a := fun j hj =>
    hnot (hj.eq_of_pred hp hpred ▸ hj)
  by_cases hroot : ∃ q ∈ preds a, ∃ j, roots q = some j
  · -- only the roots are labelled when the node is visited first
    obtain ⟨q, hq, j, hj⟩ := hroot
    refine ⟨[], a, List.nodup_singleton a, fun b hb => ?_, hunowned,
      fun rest fuel final hloop hfinal => ?_⟩
    · rw [List.mem_singleton.1 hb]
      exact ⟨ha, p, hp⟩
    · have hk : agreed kinds preds roots a = some j :=
        agreed_eq_some.2 ⟨hkinds q j hj, ⟨q, hq, hj⟩, fun r hr i hi => by
          by_contra hne
          exact hcontested ⟨r, hr, q, hq, i, j, hi, hj, hne⟩⟩
      have hlabel : final a = some j :=
        loop_of_front (show loop kinds preds ([] ++ a :: rest) fuel roots = some final from hloop) ha hk
      rw [hlabel] at hfinal
      cases hfinal
  · -- the way to the owned predecessor is visited first
    have hnoroot : ∀ q ∈ preds a, roots q = none := by
      intro q hq
      cases hj : roots q with
      | none => rfl
      | some j => exact absurd ⟨q, hq, j, hj⟩ hroot
    have howned : Owned preds roots k p :=
      hpred.resolve_left fun hk => by rw [hnoroot p hp] at hk; cases hk
    obtain ⟨front, hfront, hmem⟩ := howned.exists_ladder
    have hafront : a ∉ front := fun h => hunowned k (hfront.owned a h)
    have hkind : k ∈ kinds := by
      obtain ⟨r, hr⟩ := howned.reached.exists_root
      exact hkinds r k hr
    refine ⟨front, a, List.nodup_append.2 ⟨hfront.nodup, List.nodup_singleton a, fun b hb c hc => ?_⟩,
      fun b hb => ?_, hunowned, fun rest fuel final hloop hfinal => ?_⟩
    · rw [List.mem_singleton.1 hc]
      exact fun heq => hafront (heq ▸ hb)
    · rcases List.mem_append.1 hb with hb | hb
      · exact ⟨(hfront.owned b hb).reached.root_none, (hfront.owned b hb).reached.exists_pred⟩
      · rw [List.mem_singleton.1 hb]
        exact ⟨ha, p, hp⟩
    · have hswept := hfront.foldl_visit hkind false
      have hnone : (front.foldl (visit kinds preds) (roots, false)).1 a = none := by
        rw [hswept]
        exact (if_neg hafront).trans ha
      have hk : agreed kinds preds (front.foldl (visit kinds preds) (roots, false)).1 a = some k := by
        rw [hswept]
        refine agreed_eq_some.2 ⟨hkind, ⟨p, hp, if_pos hmem⟩, fun q hq j hj => ?_⟩
        by_cases hq' : q ∈ front
        · exact (Option.some.inj ((if_pos hq').symm.trans hj)).symm
        · rw [if_neg hq', hnoroot q hq] at hj
          cases hj
      rw [loop_of_front hloop hnone hk] at hfinal
      cases hfinal

end Owned

/-! ## Other names for the nodes -/

section Renamed

variable {β : Type*} [DecidableEq β] {f : α → β} {preds' : β → List β}

omit [DecidableEq α] [DecidableEq β] in
variable (kinds) in
theorem agreed_map (hpreds : ∀ a, preds' (f a) = (preds a).map f) (labels : β → Option κ) (a : α) :
    agreed kinds preds' labels (f a) = agreed kinds preds (labels ∘ f) a := by
  rw [agreed, agreed, hpreds, List.filterMap_map]

variable (kinds) in
/-- A sweep under other names. -/
theorem foldl_visit_map (hf : Function.Injective f)
    (hpreds : ∀ a, preds' (f a) = (preds a).map f) (order : List α) (s : (β → Option κ) × Bool) :
    Prod.map (· ∘ f) id ((order.map f).foldl (visit kinds preds') s) =
      order.foldl (visit kinds preds) (s.1 ∘ f, s.2) := by
  induction order generalizing s with
  | nil => rfl
  | cons a order ih =>
    rw [List.map_cons, List.foldl_cons, List.foldl_cons, ih]
    congr 1
    have hagreed := agreed_map kinds hpreds s.1 a
    rcases visit_cases kinds preds' s (f a) with
      ⟨hsame, hready⟩ | ⟨k, hnone, hk, hnew⟩
    · rw [hsame, visit]
      cases ha : s.1 (f a) with
      | some k => simp only [Function.comp_apply, ha]
      | none =>
        rw [hready ha] at hagreed
        simp only [Function.comp_apply, ha, ← hagreed]
    · rw [hnew, visit]
      rw [hagreed] at hk
      simp only [Function.comp_apply, hnone, hk]
      rw [Function.update_comp_eq_of_injective _ hf]

variable (kinds) in
/-- The loop under other names. -/
theorem loop_map (hf : Function.Injective f) (hpreds : ∀ a, preds' (f a) = (preds a).map f)
    (order : List α) (fuel : ℕ) (labels : β → Option κ) :
    (loop kinds preds' (order.map f) fuel labels).map (· ∘ f) =
      loop kinds preds order fuel (labels ∘ f) := by
  induction fuel generalizing labels with
  | zero => rfl
  | succ fuel ih =>
    have hsweep := foldl_visit_map kinds hf hpreds order (labels, false)
    rw [loop, loop, sweep, sweep, ← hsweep]
    rcases (order.map f).foldl (visit kinds preds') (labels, false) with ⟨labels', changed⟩
    cases changed with
    | true => exact ih labels'
    | false => rfl

end Renamed

end LabelSpread
