import FloWeaver.Scheduler.BatchFacts
import FloWeaver.Scheduler.GroupingFacts

/-!
# Runs of the batch loop

A run of the loop is a run of the worklist over the reduced hard graph, in which every batch
comes from `selectBatch`.

* `selectBatch_cases` — a batch is an admitted state, or one forced action that stands behind
  the phase barrier with every other ready action.
* `Run` — the rounds of the loop, and `run_scheduleLoop`: the loop makes such rounds.
* `Run.batchRun` — the batches are a run of the worklist of `DepGraph`.
* `scheduleSteps_ok` — on an acyclic graph the loop never gets stuck.
-/

namespace FloWeaver.Scheduler

open Py DepGraph Relation

variable {ctx : Ctx} {f f' : Frontier String}

/-! ## One batch -/

theorem buildLoop_selected_ne_nil (ctx : Ctx) (pick : BatchBuildState → Option String) :
    ∀ (fuel : ℕ) (st : BatchBuildState), st.selected ≠ [] →
      (buildLoop ctx pick fuel st).selected ≠ []
  | 0, _, h => h
  | fuel + 1, st, h => by
      rw [buildLoop]
      split
      · exact buildLoop_selected_ne_nil ctx pick fuel _ (by simp [applyPick_selected])
      · exact h

/-- When no batch is planned, every ready action stands behind the phase barrier. -/
theorem barrier_of_planned_nil (hl : SoundLimits ctx.derived)
    (h : (plannedState ctx f).selected = []) :
    ∀ a ∈ f.ready, phaseBarrierBlocks ctx a [] f.done = true := by
  intro a ha
  have hopt : optimizedState ctx f = {} := by
    refine admitted_optimizedState.eq_empty ?_
    by_contra hne
    simp [plannedState, hne] at h
  have hpick : greedyPick ctx f {} = none := by
    by_contra hne
    obtain ⟨x, hx⟩ := Option.ne_none_iff_exists'.1 hne
    obtain ⟨n, hn⟩ : ∃ n, f.ready.length = n + 1 :=
      Nat.exists_eq_succ_of_ne_zero (List.length_pos_of_mem ha).ne'
    have hgrow := buildLoop_selected_ne_nil ctx (greedyPick ctx f) n
      (applyPickToBatchState ctx x {}) (by simp [applyPick_selected])
    exact hgrow (by simpa [plannedState, hopt, hn, buildLoop, hx] using h)
  have hnone : candidateAllowedInBatch ctx false a {} f.ready f.done ≠ true := by
    rw [greedyPick, if_neg (by simp)] at hpick
    refine List.find?_eq_none.1 hpick a ?_
    simpa using ha
  rw [allowed_empty_iff hl] at hnone
  simpa using hnone

theorem forcedPick_spec (ctx : Ctx) (hready : f.ready ≠ []) :
    ∃ a ∈ f.ready, forcedPick ctx f = some (a, candidateSoftBlockers ctx a {} f.done) := by
  unfold forcedPick
  set options := (sortedStr f.ready).map fun a => (a, candidateSoftBlockers ctx a {} f.done)
  set sorted := sortedBy (fun option => forcedPickKey ctx option.1 option.2) options with hs
  have hmem : ∀ p ∈ sorted, ∃ a ∈ f.ready, p = (a, candidateSoftBlockers ctx a {} f.done) := by
    intro p hp
    obtain ⟨a, ha, rfl⟩ := List.mem_map.1 (mem_sortedBy.1 hp)
    exact ⟨a, mem_sortedStr.1 ha, rfl⟩
  cases hc : sorted with
  | nil =>
    obtain ⟨a, ha⟩ := List.exists_mem_of_ne_nil _ hready
    have : (a, candidateSoftBlockers ctx a {} f.done) ∈ sorted :=
      mem_sortedBy.2 (List.mem_map.2 ⟨a, mem_sortedStr.2 ha, rfl⟩)
    simp [hc] at this
  | cons p rest =>
    obtain ⟨a, ha, rfl⟩ := hmem p (by simp [hc])
    exact ⟨a, ha, congrArg List.head? hc⟩

/-- A batch is an admitted state, or one forced action behind the phase barrier. -/
theorem selectBatch_cases (hl : SoundLimits ctx.derived) (hready : f.ready ≠ []) :
    (∃ st, Admitted ctx f st ∧ st.selected ≠ [] ∧
      selectBatch ctx f = { selected := st.selected, forced := none }) ∨
    (∃ a ∈ f.ready, (∀ x ∈ f.ready, phaseBarrierBlocks ctx x [] f.done = true) ∧
      selectBatch ctx f =
        { selected := [a], forced := some (a, candidateSoftBlockers ctx a {} f.done) }) := by
  by_cases hp : (plannedState ctx f).selected = []
  · obtain ⟨a, ha, hf⟩ := forcedPick_spec ctx hready
    exact .inr ⟨a, ha, barrier_of_planned_nil hl hp, by simp [selectBatch, hp, hf]⟩
  · exact .inl ⟨plannedState ctx f, admitted_plannedState, hp, by simp [selectBatch, hp]⟩

/-- What holds of every batch: distinct ready actions, at least one. -/
theorem selectBatch_selected (hl : SoundLimits ctx.derived) (hready : f.ready ≠ []) :
    (selectBatch ctx f).selected.Nodup ∧ (∀ a ∈ (selectBatch ctx f).selected, a ∈ f.ready) ∧
      (selectBatch ctx f).selected ≠ [] := by
  rcases selectBatch_cases hl hready with ⟨st, hst, hne, heq⟩ | ⟨a, ha, -, heq⟩
  · rw [heq]
    exact ⟨hst.nodup, hst.subset_ready, hne⟩
  · rw [heq]
    exact ⟨List.nodup_singleton a, by simpa using ha, by simp⟩

theorem selectBatch_within (hl : SoundLimits ctx.derived) (hready : f.ready ≠ []) :
    Within ctx (selectBatch ctx f).selected := by
  rcases selectBatch_cases hl hready with ⟨st, hst, -, heq⟩ | ⟨a, -, -, heq⟩
  · rw [heq]
    exact hst.within hl
  · rw [heq]
    exact within_singleton hl a

/-- A forced pick overrides nothing but soft orders. -/
theorem candidateSoftBlockers_empty (a : String) (done : List String) : ∀ b ∈ candidateSoftBlockers ctx a {} done,
      b.kind = SoftConstraintKind.softOrder := by
  intro b hb
  simp only [candidateSoftBlockers, List.mem_append, List.mem_filterMap] at hb
  rcases hb with ((⟨ruleId, -, hb⟩ | ⟨scopeId, -, hb⟩) | ⟨src, hsrc, -⟩) | ⟨p, -, hb⟩
  · split at hb
    · simp at hb
    · simp at hb
  · simp at hb
  · simp at hsrc
  · split_ifs at hb
    rw [← Option.some.inj hb]

/-! ## Runs -/

/-- The rounds of the loop between two frontiers. -/
inductive Run (ctx : Ctx) : Frontier String → List BatchStep → Frontier String → Prop
  | nil (f : Frontier String) : Run ctx f [] f
  | cons {f f' : Frontier String} {rest : List BatchStep} (hready : f.ready ≠ [])
      (hrun : Run ctx (f.completeAll ctx.hard.graph (selectBatch ctx f).selected) rest f') :
      Run ctx f ({ before := f, selection := selectBatch ctx f } :: rest) f'

/-- The batches of a run, in the order of the picks. -/
def batchesOf (steps : List BatchStep) : List (List String) :=
  steps.map (·.selection.selected)

theorem Run.batchRun (hl : SoundLimits ctx.derived) {steps : List BatchStep}
    (h : Run ctx f steps f') : BatchRun ctx.hard.graph f (batchesOf steps) f' := by
  induction h with
  | nil => exact .nil _
  | cons hready _ ih =>
    obtain ⟨h1, h2, -⟩ := selectBatch_selected hl hready
    exact .cons h1 h2 ih

/-- Every round starts from a frontier with ready actions, and chooses there. -/
theorem Run.step (hl : SoundLimits ctx.derived) {steps : List BatchStep} (h : Run ctx f steps f')
    (hinv : f.Inv ctx.hard.graph) :
    ∀ step ∈ steps, step.before.ready ≠ [] ∧ step.before.Inv ctx.hard.graph ∧
      step.selection = selectBatch ctx step.before := by
  induction h with
  | nil => simp
  | @cons f f' rest hready _ ih =>
    obtain ⟨h1, h2, -⟩ := selectBatch_selected hl hready
    intro step hstep
    rcases List.mem_cons.1 hstep with rfl | hstep
    · exact ⟨hready, hinv, rfl⟩
    · exact ih (hinv.completeAll h1 h2).1 step hstep

/-- What is done before a round was done before the run or is in an earlier batch. -/
theorem Run.before_done (hl : SoundLimits ctx.derived) {steps : List BatchStep}
    (h : Run ctx f steps f') (hinv : f.Inv ctx.hard.graph) {j : ℕ} {step : BatchStep}
    (hj : steps[j]? = some step) (a : String) :
    a ∈ step.before.done ↔ a ∈ f.done ∨
      ∃ i < j, ∃ s, steps[i]? = some s ∧ a ∈ s.selection.selected := by
  induction h generalizing j with
  | nil => simp at hj
  | @cons f f' rest hready hrun ih =>
    obtain ⟨h1, h2, -⟩ := selectBatch_selected hl hready
    obtain ⟨hinv', hdone⟩ := hinv.completeAll h1 h2
    cases j with
    | zero =>
      obtain rfl : { before := f, selection := selectBatch ctx f } = step := by simpa using hj
      simp
    | succ j =>
      rw [ih hinv' (by simpa using hj), hdone]
      constructor
      · rintro ((ha | ha) | ⟨i, hij, s, hs, ha⟩)
        · exact .inr ⟨0, by omega, _, rfl, ha⟩
        · exact .inl ha
        · exact .inr ⟨i + 1, by omega, s, by simpa using hs, ha⟩
      · rintro (ha | ⟨i, hij, s, hs, ha⟩)
        · exact .inl (.inr ha)
        · cases i with
          | zero =>
            obtain rfl : { before := f, selection := selectBatch ctx f } = s := by simpa using hs
            exact .inl (.inl ha)
          | succ i => exact .inr ⟨i, by omega, s, by simpa using hs, ha⟩

/-- The loop makes rounds, and stops when every action is done. -/
theorem run_scheduleLoop (hl : SoundLimits ctx.derived) :
    ∀ (fuel : ℕ) (f : Frontier String) (steps : List BatchStep), f.Inv ctx.hard.graph →
      ctx.index.keys.length ≤ f.done.length + fuel → scheduleLoop ctx fuel f = .ok steps →
      ∃ f', Run ctx f steps f' ∧ ctx.index.keys.length ≤ f'.done.length
  | 0, f, steps, _, hlen, h => by
      obtain rfl := Except.ok.inj h
      exact ⟨f, .nil f, by omega⟩
  | fuel + 1, f, steps, hinv, hlen, h => by
      rw [scheduleLoop] at h
      split_ifs at h with h1 h2
      · obtain rfl := Except.ok.inj h
        exact ⟨f, .nil f, h1⟩
      · have hready : f.ready ≠ [] := fun e => h2 (by simp [e])
        obtain ⟨hnd, hsub, hne⟩ := selectBatch_selected hl hready
        cases hrest : scheduleLoop ctx fuel
            (f.completeAll ctx.hard.graph (selectBatch ctx f).selected) with
        | error e => simp [hrest, bind, Except.bind] at h
        | ok rest =>
          obtain ⟨hinv', hdone⟩ := hinv.completeAll hnd hsub
          obtain ⟨a, ha⟩ := List.exists_mem_of_ne_nil _ hne
          have hgrow : f.done.length + 1 ≤
              (f.completeAll ctx.hard.graph (selectBatch ctx f).selected).done.length := by
            have hnew : (a :: f.done).Nodup :=
              List.nodup_cons.2 ⟨hinv.ready_not_done (hsub a ha), hinv.done_nodup⟩
            refine (List.subperm_of_subset hnew fun x hx => ?_).length_le
            rcases List.mem_cons.1 hx with rfl | hx
            · exact (hdone x).2 (.inl ha)
            · exact (hdone x).2 (.inr hx)
          obtain ⟨f', hrun, hall⟩ := run_scheduleLoop hl fuel _ rest hinv' (by omega) hrest
          have hsteps : { before := f, selection := selectBatch ctx f } :: rest = steps := by
            simpa [hrest, bind, Except.bind, pure, Except.pure] using h
          exact ⟨f', hsteps ▸ .cons hready hrun, hall⟩

/-- On an acyclic graph the loop never gets stuck. -/
theorem scheduleLoop_ok (hl : SoundLimits ctx.derived) (hac : Acyclic ctx.hard.graph.E)
    (hnodes : ctx.hard.graph.nodes = ctx.index.keys) :
    ∀ (fuel : ℕ) (f : Frontier String), f.Inv ctx.hard.graph →
      ∃ steps, scheduleLoop ctx fuel f = .ok steps
  | 0, _, _ => ⟨[], rfl⟩
  | fuel + 1, f, hinv => by
      rw [scheduleLoop]
      split_ifs with h1 h2
      · exact ⟨[], rfl⟩
      · -- some action is undone, so a ready one reaches it
        exfalso
        have : ∃ u ∈ ctx.hard.graph.nodes, u ∉ f.done := by
          by_contra hall
          push Not at hall
          refine h1 ?_
          rw [← hnodes]
          exact (List.subperm_of_subset ctx.hard.graph.nodup_nodes hall).length_le
        obtain ⟨u, hu, hud⟩ := this
        obtain ⟨v, hv, -⟩ := hinv.exists_ready_reaching hac hu hud
        simp [List.isEmpty_iff.1 h2] at hv
      · have hready : f.ready ≠ [] := fun e => h2 (by simp [e])
        obtain ⟨hnd, hsub, -⟩ := selectBatch_selected hl hready
        obtain ⟨rest, hrest⟩ := scheduleLoop_ok hl hac hnodes fuel _ (hinv.completeAll hnd hsub).1
        exact ⟨{ before := f, selection := selectBatch ctx f } :: rest,
          by simp [hrest, bind, Except.bind, pure, Except.pure]⟩

end FloWeaver.Scheduler
