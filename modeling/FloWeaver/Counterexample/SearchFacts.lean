import FloWeaver.Counterexample.Generate
import FloWeaver.Counterexample.Unguarded

/-!
# What the search visits

A candidate comes from a configuration that the search visits and that diverges.  A search that
finds nothing within its bound has visited all that steps lead to, and for programs without guards
it has come to the end of the graph.

* `Visited` — the configurations that the search visits.
* `visitConfig_cases` — what is done with one of them.
* `generate_cases` — where the witness that is returned comes from.
* `mismatch_of_status` — a witness of a trace mismatch has traces that differ.
* `exists_terminal` — a search without candidates comes to the end of the graph.
-/

namespace FloWeaver.Counterexample

open Py Ir Trace Align BestFirst

/-! ## Verdicts of the checks -/

section Checks

variable {cfg : SymConfig} {status : DivergenceResult}

theorem error_of_checkKey {atTerminal : Bool} {resourceKind key : String} {rule : ResourceRule}
    {left right : ResourcePayload}
    (h : checkKey atTerminal resourceKind rule left right key = .error status) :
    status.violatedProperty = some resourceProtocolViolation := by
  rw [checkKey] at h
  split_ifs at h <;> exact Except.error.inj h ▸ rfl

theorem error_of_checkRule {details : List Dict} {row : String × ResourceRule}
    (h : checkRule cfg details row = .error status) :
    status.violatedProperty = some resourceProtocolViolation := by
  rw [checkRule] at h
  rcases bind_eq_error.1 h with h | ⟨found, -, h⟩
  · obtain ⟨key, -, h⟩ := error_of_mapM h
    exact error_of_checkKey h
  · rcases bind_eq_error.1 h with h | ⟨_, -, h⟩
    · rw [checkRequiredBefore] at h
      split_ifs at h
      · exact Except.error.inj h ▸ rfl
    · cases h

theorem property_of_resources {resourceModel : ResourceModel}
    (h : (checkResourceProtocolViolation cfg resourceModel).isDivergent = true) :
    (checkResourceProtocolViolation cfg resourceModel).violatedProperty =
      some resourceProtocolViolation := by
  rw [checkResourceProtocolViolation] at h ⊢
  cases hfound : resourceDifferences cfg resourceModel with
  | error violation =>
    rcases bind_eq_error.1 hfound with hfound | ⟨details, -, hfound⟩
    · obtain ⟨details, row, hfound⟩ := error_of_foldlM hfound
      exact error_of_checkRule hfound
    · split_ifs at hfound <;> cases hfound
  | ok details =>
    cases details with
    | nil => rw [hfound] at h; cases h
    | cons d rest => rfl

theorem property_of_finalState {schema : DivergenceSchema}
    (h : (checkFinalStateMismatch cfg schema).isDivergent = true) :
    (checkFinalStateMismatch cfg schema).violatedProperty = some finalStateMismatch := by
  rw [checkFinalStateMismatch] at h ⊢
  split_ifs at h ⊢
  · rfl
  · rfl
  · split at h
    · rfl
    · cases h

theorem property_of_unsupported (h : (checkUnsupportedAlignment cfg).isDivergent = true) :
    (checkUnsupportedAlignment cfg).violatedProperty = some unsupportedAlignment := by
  rw [checkUnsupportedAlignment] at h ⊢
  cases hcurrent : cfg.divergenceStatus.currentUsegNode with
  | none => rw [hcurrent] at h; cases h
  | some current =>
    rw [hcurrent] at h
    dsimp only at h ⊢
    split_ifs at h ⊢
    · rfl

variable {sha1 : String → String} {schema : DivergenceSchema} {resourceModel : ResourceModel}

/-- The first check that fails gives the verdict. -/
theorem checkDivergence_cases (h : checkDivergence sha1 schema resourceModel cfg = .ok status) :
    ((checkUnsupportedAlignment cfg).isDivergent = true ∧
      status = checkUnsupportedAlignment cfg) ∨
    ∃ traces, checkTraceMismatch sha1 schema.traceCompareConfig cfg = .ok traces ∧
      ((traces.isDivergent = true ∧ status = traces) ∨
        traces.isDivergent = false ∧
          (((checkFinalStateMismatch cfg schema).isDivergent = true ∧
              status = checkFinalStateMismatch cfg schema) ∨
            ((checkResourceProtocolViolation cfg resourceModel).isDivergent = true ∧
              status = checkResourceProtocolViolation cfg resourceModel) ∨
            status.isDivergent = false)) := by
  rw [checkDivergence] at h
  by_cases hunsupported : (checkUnsupportedAlignment cfg).isDivergent = true
  · rw [if_pos hunsupported] at h
    exact .inl ⟨hunsupported, (pure_eq_ok.1 h).symm⟩
  rw [if_neg hunsupported] at h
  obtain ⟨traces, htraces, h⟩ := bind_eq_ok.1 h
  refine .inr ⟨traces, htraces, ?_⟩
  by_cases hbad : traces.isDivergent = true
  · rw [if_pos hbad] at h
    exact .inl ⟨hbad, (pure_eq_ok.1 h).symm⟩
  rw [if_neg hbad] at h
  refine .inr ⟨by simpa using hbad, ?_⟩
  dsimp only at h
  split_ifs at h with hfinal hresources
  · rw [Bool.and_eq_true] at hfinal
    exact .inl ⟨hfinal.2, (pure_eq_ok.1 h).symm⟩
  · exact .inr (.inl ⟨hresources, (pure_eq_ok.1 h).symm⟩)
  · exact .inr (.inr (by rw [← pure_eq_ok.1 h]))

/-- A configuration that does not diverge has passed the check of its traces. -/
theorem traces_of_status (h : checkDivergence sha1 schema resourceModel cfg = .ok status)
    (hstatus : status.isDivergent = false) :
    ∃ traces, checkTraceMismatch sha1 schema.traceCompareConfig cfg = .ok traces ∧
      traces.isDivergent = false := by
  rcases checkDivergence_cases h with ⟨hbad, rfl⟩ | ⟨traces, htraces, ⟨hbad, rfl⟩ | ⟨hgood, -⟩⟩
  · rw [hbad] at hstatus
    cases hstatus
  · rw [hbad] at hstatus
    cases hstatus
  · exact ⟨traces, htraces, hgood⟩

/-- A configuration that is reported for its traces has failed their check. -/
theorem mismatch_of_status (h : checkDivergence sha1 schema resourceModel cfg = .ok status)
    (hdivergent : status.isDivergent = true)
    (hproperty : status.violatedProperty = some traceMismatch) :
    ∃ traces, checkTraceMismatch sha1 schema.traceCompareConfig cfg = .ok traces ∧
      traces.isDivergent = true := by
  have hapart : unsupportedAlignment ≠ traceMismatch ∧ finalStateMismatch ≠ traceMismatch ∧
      resourceProtocolViolation ≠ traceMismatch := by decide
  rcases checkDivergence_cases h with ⟨hbad, rfl⟩ | ⟨traces, htraces, ⟨hbad, rfl⟩ |
    ⟨-, ⟨hbad, rfl⟩ | ⟨hbad, rfl⟩ | hgood⟩⟩
  · rw [property_of_unsupported hbad] at hproperty
    exact absurd (Option.some.inj hproperty) hapart.1
  · exact ⟨_, htraces, hbad⟩
  · rw [property_of_finalState hbad] at hproperty
    exact absurd (Option.some.inj hproperty) hapart.2.1
  · rw [property_of_resources hbad] at hproperty
    exact absurd (Option.some.inj hproperty) hapart.2.2
  · rw [hgood] at hdivergent
    cases hdivergent

/-- The verdict on the traces of a configuration. -/
theorem checkTraceMismatch_iff {config : TraceCompareConfig} {traces : DivergenceResult}
    (h : checkTraceMismatch sha1 config cfg = .ok traces) :
    ∃ diff, compareTraces sha1 cfg.baseline.trace cfg.optimized.trace config = .ok diff ∧
      (traces.isDivergent = true ↔
        diff.tolerantEqual = false ∧ resourceOnly diff.diffSignature = false) := by
  obtain ⟨diff, hdiff, h⟩ := bind_eq_ok.1 h
  refine ⟨diff, hdiff, ?_⟩
  rw [← pure_eq_ok.1 h]
  cases htolerant : diff.tolerantEqual <;> cases hresource : resourceOnly diff.diffSignature <;>
    simp

end Checks

/-! ## One visit -/

section Search

variable {sha1 : String → String} {minimalAssumptions : SymConfig → Assumptions}
variable {bundle : CounterexampleInputBundle} {useg : USEG} {maxSteps maxPaths fuel : ℕ}
variable {cfg : SymConfig}

/-- What is done with a configuration. -/
theorem visitConfig_cases {action : Visit SymConfig CounterexampleWitness}
    (h : visitConfig sha1 minimalAssumptions bundle useg maxSteps cfg = .ok action) :
    (maxSteps ≤ cfg.executedSteps ∧ action = .skip) ∨
    ∃ status, checkDivergence sha1 bundle.observationSchema bundle.resourceModel cfg =
        .ok status ∧
      ((status.isDivergent = true ∧
          action = .report (materializeWitness minimalAssumptions cfg status)) ∨
        status.isDivergent = false ∧ ∃ successors,
          stepUseg useg bundle.baselineIr bundle.optimizedIr cfg = .ok successors ∧
            action = .expand successors) := by
  rw [visitConfig] at h
  by_cases hbound : stepBoundExceeded cfg maxSteps = true
  · rw [if_pos hbound] at h
    exact .inl ⟨by simpa [stepBoundExceeded] using hbound, (pure_eq_ok.1 h).symm⟩
  rw [if_neg hbound] at h
  obtain ⟨status, hstatus, h⟩ := bind_eq_ok.1 h
  refine .inr ⟨status, hstatus, ?_⟩
  split_ifs at h with hdivergent
  · exact .inl ⟨hdivergent, (pure_eq_ok.1 h).symm⟩
  · obtain ⟨successors, hsuccessors, h⟩ := bind_eq_ok.1 h
    exact .inr ⟨by simpa using hdivergent, successors, hsuccessors, (pure_eq_ok.1 h).symm⟩

/-- The configurations that the search visits, were it not for the bound on their number. -/
def Visited (sha1 : String → String) (minimalAssumptions : SymConfig → Assumptions)
    (bundle : CounterexampleInputBundle) (useg : USEG) (maxSteps : ℕ) : SymConfig → Prop :=
  Seen (visitConfig sha1 minimalAssumptions bundle useg maxSteps)
    [initSymbolicConfig useg bundle.environmentModel]

/-- The search of a verdict, and the candidates it has found. -/
theorem generate_cases (huseg : buildCounterexampleUseg bundle fuel = .ok (some useg))
    {witness : CounterexampleWitness}
    (h : generateCounterexample sha1 minimalAssumptions bundle maxSteps maxPaths fuel =
      .ok (some witness)) :
    ∃ emptied candidates,
      exploreUseg sha1 minimalAssumptions bundle useg maxSteps maxPaths =
        .ok (emptied, candidates) ∧
      ((∃ candidate ∈ candidates, witness =
          { candidate with refinementHint := some (inferRefinementHint candidate) }) ∨
        candidates = [] ∧
          witness = if emptied then noDiffWithinBoundWitness else inconclusiveWitness) := by
  rw [generateCounterexample, huseg] at h
  obtain ⟨_, hbuilt, h⟩ := bind_eq_ok.1 h
  obtain rfl := Except.ok.inj hbuilt
  obtain ⟨⟨emptied, candidates⟩, hexplore, h⟩ := bind_eq_ok.1 h
  refine ⟨emptied, candidates, hexplore, ?_⟩
  dsimp only at h
  cases hminimal : minimizeWitnesses candidates with
  | none =>
    rw [hminimal] at h
    have hnone : sortedBy sortKey candidates = [] := List.head?_eq_none_iff.1 hminimal
    have hperm := sortedBy_perm sortKey candidates
    rw [hnone] at hperm
    exact .inr ⟨hperm.symm.eq_nil, (Option.some.inj (pure_eq_ok.1 h)).symm⟩
  | some minimized =>
    rw [hminimal] at h
    refine .inl ⟨minimized, ?_, (Option.some.inj (pure_eq_ok.1 h)).symm⟩
    exact (sortedBy_perm sortKey candidates).subset (List.mem_of_head? hminimal)

/-- A candidate comes from a configuration that is visited and diverges. -/
theorem candidate_visited {emptied : Bool} {candidates : List CounterexampleWitness}
    (h : exploreUseg sha1 minimalAssumptions bundle useg maxSteps maxPaths =
      .ok (emptied, candidates)) {candidate : CounterexampleWitness}
    (hcandidate : candidate ∈ candidates) :
    ∃ cfg status, Visited sha1 minimalAssumptions bundle useg maxSteps cfg ∧
      checkDivergence sha1 bundle.observationSchema bundle.resourceModel cfg = .ok status ∧
      status.isDivergent = true ∧ candidate = materializeWitness minimalAssumptions cfg status := by
  have hfound := explore_sound h (fun s hs => Seen.start hs) candidate hcandidate
  obtain ⟨cfg, hseen, hvisit⟩ := hfound.resolve_left List.not_mem_nil
  rcases visitConfig_cases hvisit with ⟨-, haction⟩ | ⟨status, hstatus, ⟨hdivergent, haction⟩ |
    ⟨-, _, -, haction⟩⟩
  · cases haction
  · cases haction
    exact ⟨cfg, status, hseen, hstatus, hdivergent, rfl⟩
  · cases haction

/-- A search that ends without a candidate has passed every configuration it has visited. -/
theorem passed_of_no_candidates
    (h : exploreUseg sha1 minimalAssumptions bundle useg maxSteps maxPaths = .ok (true, []))
    (hvisited : Visited sha1 minimalAssumptions bundle useg maxSteps cfg)
    (hbound : cfg.executedSteps < maxSteps) :
    (∃ status, checkDivergence sha1 bundle.observationSchema bundle.resourceModel cfg =
        .ok status ∧ status.isDivergent = false) ∧
      ∃ successors, stepUseg useg bundle.baselineIr bundle.optimizedIr cfg = .ok successors ∧
        ∀ next ∈ successors, Visited sha1 minimalAssumptions bundle useg maxSteps next := by
  obtain ⟨action, haction, hreport⟩ := explore_complete h hvisited
  rcases visitConfig_cases haction with ⟨hover, -⟩ | ⟨status, hstatus, ⟨-, rfl⟩ |
    ⟨hgood, successors, hsuccessors, rfl⟩⟩
  · exact absurd hover (not_le.2 hbound)
  · exact absurd (hreport _ rfl) List.not_mem_nil
  · exact ⟨⟨status, hstatus, hgood⟩, successors, hsuccessors,
      fun next hnext => hvisited.step haction hnext⟩

/-! ## Programs without guards -/

/-- Everything that is visited is in step with its place, as long as no merge is run again. -/
theorem visited_inStep (huseg : WellBuilt useg) (hb : Unguarded bundle.baselineIr)
    (ho : Unguarded bundle.optimizedIr)
    (hrejoins : ∀ cfg, Visited sha1 minimalAssumptions bundle useg maxSteps cfg →
      ¬ Rejoins useg cfg)
    (hvisited : Visited sha1 minimalAssumptions bundle useg maxSteps cfg) :
    InStep useg bundle.baselineIr bundle.optimizedIr cfg := by
  induction hvisited with
  | start h =>
    rw [List.mem_singleton.1 h]
    exact inStep_init huseg bundle.environmentModel
  | step hseen hvisit hnext ih =>
    rcases visitConfig_cases hvisit with ⟨-, haction⟩ | ⟨_, -, ⟨-, haction⟩ |
      ⟨-, successors, hsuccessors, haction⟩⟩
    · cases haction
    · cases haction
    · cases haction
      exact ((ih.step huseg hb ho (hrejoins _ hseen) hsuccessors).2 _ hnext).1

/-- **A search without candidates comes to the end of the graph**, when its bound allows for all
nodes. -/
theorem exists_terminal (hbuild : buildCounterexampleUseg bundle fuel = .ok (some useg))
    (hb : Unguarded bundle.baselineIr) (ho : Unguarded bundle.optimizedIr)
    (hrejoins : ∀ cfg, Visited sha1 minimalAssumptions bundle useg maxSteps cfg →
      ¬ Rejoins useg cfg)
    (hsteps : bundle.baselineIr.order.length + bundle.optimizedIr.order.length < maxSteps)
    (h : exploreUseg sha1 minimalAssumptions bundle useg maxSteps maxPaths = .ok (true, [])) :
    ∃ cfg, Visited sha1 minimalAssumptions bundle useg maxSteps cfg ∧
      useg.nodes.length ≤ cfg.usegIndex := by
  obtain ⟨huseg, hidsB, hidsO⟩ := buildUseg_spec hbuild
  have hinStep : ∀ cfg, Visited sha1 minimalAssumptions bundle useg maxSteps cfg →
      InStep useg bundle.baselineIr bundle.optimizedIr cfg :=
    fun cfg hvisited => visited_inStep huseg hb ho hrejoins hvisited
  -- inside the graph there is a next configuration, which has gone on
  have hforward : ∀ cfg, Visited sha1 minimalAssumptions bundle useg maxSteps cfg →
      cfg.usegIndex < useg.nodes.length → ∃ next,
        Visited sha1 minimalAssumptions bundle useg maxSteps next ∧
          cfg.progress useg < next.progress useg := by
    intro cfg hvisited hinside
    have hbounds := (hinStep cfg hvisited).executedSteps_le hidsB hidsO
    obtain ⟨-, successors, hsuccessors, hall⟩ :=
      passed_of_no_candidates h hvisited (by omega)
    obtain ⟨hsome, hstep⟩ :=
      (hinStep cfg hvisited).step huseg hb ho (hrejoins cfg hvisited) hsuccessors
    obtain ⟨next, hnext⟩ := List.exists_mem_of_ne_nil _ (hsome hinside)
    exact ⟨next, hall next hnext, (hstep next hnext).2⟩
  have hrun : ∀ left cfg, Visited sha1 minimalAssumptions bundle useg maxSteps cfg →
      bundle.baselineIr.order.length + bundle.optimizedIr.order.length - cfg.progress useg ≤ left →
        ∃ cfg, Visited sha1 minimalAssumptions bundle useg maxSteps cfg ∧
          useg.nodes.length ≤ cfg.usegIndex := by
    intro left
    induction left with
    | zero =>
      intro cfg hvisited hleft
      refine ⟨cfg, hvisited, ?_⟩
      by_contra hinside
      obtain ⟨next, hnext, hprogress⟩ := hforward cfg hvisited (not_le.1 hinside)
      have := (hinStep next hnext).executedSteps_le hidsB hidsO
      omega
    | succ left ih =>
      intro cfg hvisited hleft
      by_cases hend : useg.nodes.length ≤ cfg.usegIndex
      · exact ⟨cfg, hvisited, hend⟩
      · obtain ⟨next, hnext, hprogress⟩ := hforward cfg hvisited (not_le.1 hend)
        exact ih next hnext (by omega)
  exact hrun _ _ (Seen.start (List.mem_singleton_self _)) le_rfl

end Search

end FloWeaver.Counterexample
