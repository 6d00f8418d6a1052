import FloWeaver.Dag.Accounting
import FloWeaver.Lib.Outcome

/-!
# What a stage adds does not depend on what was there

* `Made`, `PairOrder`, `OwnOrder` — the soft orders that the builder makes itself.
* `Added` — the edges after a stage are those before it, and then the new ones.
* `Adds`, `Uniform` — a stage adds to any edges what it adds to none; a uniform stage may raise.
* `added_foldl`, `added_foldlM` — a loop adds what its steps add, in their order.
* `adds_addCandidate`, `uniform_bindSource`, `adds_addProducer`, `adds_injectVdevDependencies` — the
  stages of the builder.
-/

namespace FloWeaver.Dag

open Py
open Scheduler (ActionIndex)

/-! ## Soft orders of the builder -/

/-- The reason of a constraint, in lower case. -/
def reasonOf (constraint : SoftConstraint) : String :=
  lower (constraint.params.getD "reason" (.str "")).pyStr

/-- A soft order that the builder makes for any other reason than a cycle. -/
structure Made (constraint : SoftConstraint) : Prop where
  guard : constraint.guard = "true"
  fallback : constraint.fallback = "preserve_action_order"
  reason : reasonOf constraint ≠ "cycle_break"

/-- A soft order of two MSSUs. -/
structure PairOrder (constraint : SoftConstraint) : Prop extends Made constraint where
  pair : constraint.scope.length = 2

/-- A constraint that is no soft order, or one of the builder. -/
def OwnOrder (constraint : SoftConstraint) : Prop :=
  constraint.kind = SoftConstraintKind.softOrder → Made constraint

/-- A reason that begins like no cycle break. -/
theorem lower_append_ne {s : String} (h : (lowerL s.toList).isPrefixOf "cycle_break".toList = false)
    (rest : String) : lower (s ++ rest) ≠ "cycle_break" := by
  intro heq
  have hchars : lowerL s.toList ++ lowerL rest.toList = "cycle_break".toList := by
    rw [← heq, lower, String.toList_ofList, String.toList_append, lowerL, lowerL, lowerL,
      List.map_append]
  rw [← hchars, List.isPrefixOf_iff_prefix.2 (List.prefix_append _ _)] at h
  cases h

theorem pairOrder_candidate (src dst edgeType : String) :
    PairOrder (softOrderFromCandidate src dst edgeType) :=
  ⟨⟨rfl, rfl, lower_append_ne (by decide) edgeType⟩, rfl⟩

theorem pairOrder_template (tpl : Template) (src dst reason : String) :
    PairOrder (tpl.softOrder src dst reason) := by
  refine ⟨⟨rfl, rfl, ?_⟩, rfl⟩
  show lower ("template" ++ ":" ++ _) ≠ "cycle_break"
  exact lower_append_ne (by decide) _

theorem made_softWriteback (scope : List String) (arrow : String) :
    Made (softWriteback scope arrow) :=
  ⟨rfl, rfl, lower_append_ne (by decide) arrow⟩

/-! ## Stages that add -/

/-- An edge of one of the known kinds. -/
def KnownKind (edge : DependencyEdge) : Prop := edge.kind ∈ EdgeKind.values

theorem known_hardData : EdgeKind.hardData ∈ EdgeKind.values := by decide

theorem known_hardControl : EdgeKind.hardControl ∈ EdgeKind.values := by decide

theorem known_hardLifecycle : EdgeKind.hardLifecycle ∈ EdgeKind.values := by decide

/-- The edges after a stage are those before it, and then the new ones; these are of known kinds,
and the new constraints have a property. -/
structure Added (P : SoftConstraint → Prop) (a new b : Edges) : Prop where
  hard : b.hard = a.hard ++ new.hard
  soft : b.soft = a.soft ++ new.soft
  removed : b.diagnostics.removedHardEdges = a.diagnostics.removedHardEdges
  each : ∀ constraint ∈ new.soft, P constraint
  kinds : ∀ edge ∈ new.hard, KnownKind edge

/-- A stage adds to any edges what it adds to none. -/
def Adds (P : SoftConstraint → Prop) (f : Edges → Edges) : Prop :=
  ∀ edges, Added P edges (f {}) (f edges)

/-- A stage that may raise does so on any edges or on none, and else adds the same. -/
def Uniform (P : SoftConstraint → Prop) (f : Edges → Except PyErr Edges) : Prop :=
  ∀ edges, SameOutcome (Added P edges) (f {}) (f edges)

variable {P : SoftConstraint → Prop} {a b c new new' : Edges} {f g : Edges → Edges} {α : Type}

theorem Added.refl (a : Edges) : Added P a {} a :=
  ⟨by simp, by simp, rfl, fun _ hc => (nomatch hc), fun _ he => (nomatch he)⟩

/-- Two additions one after the other. -/
theorem Added.trans {both : Edges} (h : Added P a new b) (h' : Added P b new' c)
    (hhard : both.hard = new.hard ++ new'.hard) (hsoft : both.soft = new.soft ++ new'.soft) :
    Added P a both c where
  hard := by rw [h'.hard, h.hard, hhard, List.append_assoc]
  soft := by rw [h'.soft, h.soft, hsoft, List.append_assoc]
  removed := h'.removed.trans h.removed
  each constraint hc := by
    rw [hsoft] at hc
    exact (List.mem_append.1 hc).elim (h.each constraint) (h'.each constraint)
  kinds edge he := by
    rw [hhard] at he
    exact (List.mem_append.1 he).elim (h.kinds edge) (h'.kinds edge)

namespace Adds

theorem refl : Adds P fun edges => edges := Added.refl

theorem addHard {edge : DependencyEdge} (h : KnownKind edge) :
    Adds P fun edges => edges.addHard edge := by
  refine fun edges => ⟨rfl, by simp [Edges.addHard], rfl, fun _ hc => (nomatch hc), fun e he => ?_⟩
  obtain rfl := List.mem_singleton.1 he
  exact h

theorem addSoft {constraint : SoftConstraint} (h : P constraint) :
    Adds P fun edges => edges.addSoft constraint := by
  refine fun edges => ⟨by simp [Edges.addSoft], rfl, rfl, fun c hc => ?_, fun _ he => (nomatch he)⟩
  obtain rfl := List.mem_singleton.1 hc
  exact h

theorem warn (message key : String) : Adds P fun edges => edges.warn message key :=
  fun _ => ⟨by simp [Edges.warn], by simp [Edges.warn],
    DAGBuildDiagnostics.removedHardEdges_warn _ _ _, fun _ hc => (nomatch hc),
    fun _ he => (nomatch he)⟩

theorem note (message : String) : Adds P fun edges => edges.note message :=
  fun _ => ⟨by simp [Edges.note], by simp [Edges.note], rfl, fun _ hc => (nomatch hc),
    fun _ he => (nomatch he)⟩

theorem comp (hf : Adds P f) (hg : Adds P g) : Adds P fun edges => g (f edges) :=
  fun edges => (hf edges).trans (hg _) (hg _).hard (hg _).soft

theorem foldl {step : Edges → α → Edges} {l : List α} (h : ∀ x ∈ l, Adds P (step · x)) :
    Adds P fun edges => l.foldl step edges := by
  induction l with
  | nil => exact refl
  | cons x l ih =>
    exact (h x List.mem_cons_self).comp (ih fun y hy => h y (List.mem_cons_of_mem _ hy))

end Adds

/-- The edges that several additions make. -/
def merged (news : List Edges) : Edges where
  hard := news.flatMap (·.hard)
  soft := news.flatMap (·.soft)

/-- A loop adds what its steps add, in their order. -/
theorem added_foldlM {step : Edges → α → Except PyErr Edges} {l : List α}
    (h : ∀ x ∈ l, Uniform P (step · x)) (edges : Edges) :
    SameOutcome (fun news => Added P edges (merged news)) (l.mapM (step {} ·))
      (l.foldlM step edges) := by
  induction l generalizing edges with
  | nil => exact .returns (Added.refl edges)
  | cons x l ih =>
    rw [List.mapM_cons, List.foldlM_cons]
    refine (h x List.mem_cons_self edges).bind fun new next hnext => ?_
    rw [← bind_pure (l.foldlM step next)]
    refine (ih (fun y hy => h y (List.mem_cons_of_mem _ hy)) next).bind fun news last hlast => ?_
    exact .returns (hnext.trans hlast rfl rfl)

theorem added_foldl {step : Edges → α → Edges} {l : List α} (h : ∀ x ∈ l, Adds P (step · x))
    (edges : Edges) : Added P edges (merged (l.map (step {} ·))) (l.foldl step edges) := by
  induction l generalizing edges with
  | nil => exact Added.refl edges
  | cons x l ih =>
    have hnext := h x List.mem_cons_self edges
    have hlast := ih (fun y hy => h y (List.mem_cons_of_mem _ hy)) (step edges x)
    exact hnext.trans hlast rfl rfl

/-! ## Candidates and inputs -/

theorem adds_addCandidate (nodes : Nodes) (candidate : String × String × String) :
    Adds PairOrder (addCandidate nodes · candidate) := by
  obtain ⟨src, dst, edgeType⟩ := candidate
  simp only [addCandidate]
  split_ifs
  · cases bothKnown nodes src dst with
    | none => exact .refl
    | some pair =>
      simp only []
      split_ifs
      · exact .addHard known_hardData
      · exact .addSoft (pairOrder_candidate _ _ _)
  · cases bothKnown nodes src dst with
    | none => exact .addSoft (pairOrder_candidate _ _ _)
    | some pair =>
      simp only []
      split_ifs
      · exact .addHard known_hardLifecycle
      · exact .addSoft (pairOrder_candidate _ _ _)
  · exact .addSoft (pairOrder_candidate _ _ _)
  · exact .refl

theorem adds_addProducer (nodes : Nodes) (mssu : MSSU) (name producerId : String) :
    Adds PairOrder (addProducer nodes mssu name · producerId) := by
  simp only [addProducer]
  split_ifs
  · exact .refl
  cases nodes.get? producerId with
  | none => exact .addHard known_hardData
  | some producer =>
    simp only []
    split_ifs
    · exact .refl
    · exact .refl
    · exact .addSoft (pairOrder_candidate _ _ _)
    · exact .addHard known_hardData

/-! ## Dependencies of the target -/

theorem adds_addRepresentatives (nodes : Nodes) (dep : Dict) (pair : String × String) :
    Adds OwnOrder (addRepresentatives nodes dep · pair) := by
  simp only [addRepresentatives]
  split_ifs
  · exact .refl
  cases bothKnown nodes pair.1 pair.2 with
  | none => exact .refl
  | some mssus =>
    simp only []
    split_ifs
    · exact .note _
    · exact .addHard known_hardControl

theorem adds_injectKnownDependency (nodes : Nodes) (index : ActionIndex)
    (dep beforeAction afterAction : Dict) :
    Adds OwnOrder (injectKnownDependency nodes index · dep beforeAction afterAction) := by
  simp only [injectKnownDependency]
  split_ifs
  · exact .note _
  · exact .refl
  · exact .addSoft fun _ => made_softWriteback _ _
  · exact .note _
  · exact .foldl fun pair _ => adds_addRepresentatives nodes dep pair

theorem adds_injectHardDependency (nodes : Nodes) (index : ActionIndex) (dep : Dict) :
    Adds OwnOrder (injectHardDependency nodes index · dep) := by
  simp only [injectHardDependency]
  split_ifs
  · exact .refl
  cases index.get? (dependencyEnd dep "before") with
  | none => exact .refl
  | some beforeAction =>
    cases index.get? (dependencyEnd dep "after") with
    | none => exact .refl
    | some afterAction => exact adds_injectKnownDependency nodes index dep _ _

theorem adds_injectSoftDependency (nodes : Nodes) (index : ActionIndex) (dep : Dict) :
    Adds OwnOrder (injectSoftDependency nodes index · dep) := by
  simp only [injectSoftDependency]
  split_ifs
  · exact .refl
  · exact .addSoft fun h => absurd h (by decide : SoftConstraintKind.minGap ≠ _)

theorem adds_injectVdevDependencies (nodes : Nodes) (target : Option OptimizationTarget) :
    Adds OwnOrder (injectVdevDependencies nodes target) := by
  cases target with
  | none => exact .refl
  | some target =>
    exact (Adds.foldl fun dep _ => adds_injectHardDependency nodes _ dep).comp
      (.foldl fun dep _ => adds_injectSoftDependency nodes _ dep)

/-! ## Templates -/

namespace Template

variable (lib : Library) (table : ActionTable) (tpl : Template)

/-- The kind of the edges of a template is known. -/
def KindKnown : Prop := tpl.kind ∈ EdgeKind.values

theorem adds_bindSoft (src : MSSU) (best : Option MSSU) (reason : String) :
    Adds PairOrder (tpl.bindSoft src best reason) := by
  cases best with
  | none => exact .refl
  | some dst =>
    show Adds PairOrder fun edges =>
      if src.mssuId = dst.mssuId then edges
      else edges.addSoft (tpl.softOrder src.mssuId dst.mssuId reason)
    split_ifs
    · exact .refl
    · exact .addSoft (pairOrder_template tpl _ _ _)

/-- What a source adds, and whether it is bound hard. -/
def SameBinding (edges : Edges) (new next : Edges × Bool) : Prop :=
  Added PairOrder edges new.1 next.1 ∧ new.2 = next.2

theorem uniform_bindUnscoped (src : MSSU) (message kind reason : String) (edges : Edges) :
    SameOutcome (SameBinding edges) (bindUnscoped lib table tpl src message kind reason {})
      (bindUnscoped lib table tpl src message kind reason edges) := by
  rw [bindUnscoped, bindUnscoped]
  refine (SameOutcome.of_eq rfl).bind ?_
  rintro best _ rfl
  exact .returns ⟨((Adds.warn _ _).comp (tpl.adds_bindSoft src best reason)) edges, rfl⟩

theorem uniform_bindScoped (htpl : tpl.KindKnown) (src : MSSU) (candidates : List MSSU) (edges : Edges) :
    SameOutcome (SameBinding edges) (bindScoped lib table tpl src candidates {})
      (bindScoped lib table tpl src candidates edges) := by
  rw [bindScoped, bindScoped]
  refine (SameOutcome.of_eq rfl).bind ?_
  rintro best _ rfl
  cases best with
  | none =>
    refine (SameOutcome.of_eq rfl).bind ?_
    rintro other _ rfl
    exact .returns ⟨tpl.adds_bindSoft src other _ edges, rfl⟩
  | some dst =>
    simp only []
    split_ifs
    · exact .returns ⟨Adds.refl edges, rfl⟩
    · exact .returns ⟨Adds.addHard (show KnownKind (tpl.hardEdge src dst) from htpl) edges, rfl⟩
    · exact .returns ⟨tpl.adds_bindSoft src (some dst) _ edges, rfl⟩

theorem uniform_bindSource (htpl : tpl.KindKnown) (src : MSSU) (edges : Edges) :
    SameOutcome (SameBinding edges) (bindSource lib table tpl src {})
      (bindSource lib table tpl src edges) := by
  rw [bindSource, bindSource]
  refine (SameOutcome.of_eq rfl).bind ?_
  rintro real _ rfl
  cases real with
  | false => exact uniform_bindUnscoped lib table tpl src _ _ _ edges
  | true =>
    refine (SameOutcome.of_eq rfl).bind ?_
    rintro candidates _ rfl
    split_ifs
    · exact uniform_bindUnscoped lib table tpl src _ _ _ edges
    · exact uniform_bindScoped lib table tpl htpl src candidates edges

/-- Pairs one source, and forgets whether the edge is hard. -/
def bindOne (src : MSSU) (edges : Edges) : Except PyErr Edges := do
  return (← bindSource lib table tpl src edges).1

theorem uniform_bindOne (htpl : tpl.KindKnown) (src : MSSU) :
    Uniform PairOrder (bindOne lib table tpl src) := fun edges =>
  (uniform_bindSource lib table tpl htpl src edges).bind fun _ _ h => .returns h.1

/-- Fewer sources than the cap are all paired. -/
theorem bindSources_eq {srcs : List MSSU} {injected : ℕ} (edges : Edges)
    (hcap : injected + srcs.length < maxEdges) :
    bindSources lib table tpl srcs injected edges =
      srcs.foldlM (fun edges src => bindOne lib table tpl src edges) edges := by
  induction srcs generalizing injected edges with
  | nil => rfl
  | cons src rest ih =>
    rw [List.foldlM_cons, bindSources, bindOne]
    cases hsrc : bindSource lib table tpl src edges with
    | error e => rfl
    | ok row =>
      obtain ⟨next, bound⟩ := row
      rw [List.length_cons] at hcap
      have hbelow : ¬ (bound && decide (maxEdges ≤ injected + 1)) = true := by
        simp only [Bool.and_eq_true, decide_eq_true_eq, not_and, not_le]
        intro
        omega
      show (if bound && maxEdges ≤ injected + 1 then _ else _) = _
      rw [if_neg hbelow]
      refine ih next ?_
      split_ifs <;> omega

end Template

end FloWeaver.Dag
