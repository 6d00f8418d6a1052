import FloWeaver.Scheduler.PlanFacts

/-!
# Control before verification

The admission test lets no verification join a batch while a control action is pending, but a
forced pick skips the test.  Without a path from a verification to a control action there is
no forced pick: the pending control action is reached from a ready action, which is not a
verification and therefore admissible.

* `CompleteRun.not_forced` — no round makes a forced pick.
* `forcedRow_kind` — which fallback rows of a batch have the kind of a forced pick.
* `control_before_verification` — the order of the two phases in every plan.
-/

namespace FloWeaver.Scheduler

open Py DepGraph Relation

variable {base : SchedulerPolicy} {dag : TypedDAG} {metrics : Dict} {target : OptimizationTarget}
  {ctx : Ctx} {plan : ExecutionPlan} {steps : List BatchStep} {index : ActionIndex}

/-! ## Phases -/

theorem keys_actionPhaseMap (index : ActionIndex) :
    (actionPhaseMap index).map (·.1) = index.keys := by
  have hfst : index.rows.zipIdx.map (·.1) = index.rows := List.zipIdx_map_fst 0 index.rows
  simp only [actionPhaseMap, List.map_map, OrderedDict.keys]
  conv_rhs => rw [← hfst, List.map_map]
  rfl

/-- The phase of an action is the one in its row. -/
theorem phaseOf_eq_of_mem {row : String × Phase} (h : row ∈ actionPhaseMap index) :
    phaseOf (actionPhaseMap index) row.1 = row.2 := by
  have hnd : ((actionPhaseMap index).map (·.1)).Nodup := keys_actionPhaseMap index ▸ index.keys_nodup
  obtain ⟨other, hfind⟩ : ∃ other,
      (actionPhaseMap index).find? (fun r => r.1 = row.1) = some other := by
    rw [← Option.isSome_iff_exists, List.find?_isSome]
    exact ⟨row, h, by simp⟩
  have hkey : other.1 = row.1 := by simpa using List.find?_some hfind
  obtain rfl : other = row :=
    List.inj_on_of_nodup_map hnd (List.mem_of_find?_eq_some hfind) h hkey
  simp [phaseOf, hfind]

/-- An action with a phase of its own has a row. -/
theorem mem_of_phaseOf {a : String} {p : Phase} (hp : p ≠ .preControlAcquisition)
    (h : phaseOf (actionPhaseMap index) a = p) : (a, p) ∈ actionPhaseMap index := by
  unfold phaseOf at h
  cases hfind : (actionPhaseMap index).find? (fun r => r.1 = a) with
  | none =>
    rw [hfind] at h
    exact absurd h.symm hp
  | some row =>
    rw [hfind] at h
    have hkey : row.1 = a := by simpa using List.find?_some hfind
    have : row = (a, p) := Prod.ext hkey h
    exact this ▸ List.mem_of_find?_eq_some hfind

theorem mem_keys_of_phaseOf {a : String} {p : Phase} (hp : p ≠ .preControlAcquisition)
    (h : phaseOf (actionPhaseMap index) a = p) : a ∈ index.keys :=
  keys_actionPhaseMap index ▸ List.mem_map_of_mem (mem_of_phaseOf hp h)

/-! ## No forced pick -/

/-- No path leads from a verification to a control action. -/
def NoVerificationBeforeControl (index : ActionIndex) (E : String → String → Prop) : Prop :=
  ∀ v c, phaseOf (actionPhaseMap index) v = .postControlVerification →
    phaseOf (actionPhaseMap index) c = .control → ¬ TransGen E v c

theorem barrier_verification {a : String} {done : List String}
    (h : phaseBarrierBlocks ctx a [] done = true) :
    ctx.phase a = .postControlVerification ∧
      ∃ row ∈ ctx.phases, row.2 = .control ∧ row.1 ∉ done := by
  unfold phaseBarrierBlocks at h
  split at h
  · rename_i hp
    obtain ⟨row, hrow, h⟩ := List.any_eq_true.1 h
    simp only [Bool.and_eq_true, decide_eq_true_eq, Bool.not_eq_true', List.contains_eq_mem,
      decide_eq_false_iff_not] at h
    exact ⟨hp, row, hrow, h.1.2, h.2⟩
  · simp at h
  · simp at h

namespace CompleteRun

/-- Some ready action is not behind the barrier. -/
theorem exists_not_blocked (h : CompleteRun ctx steps) (hac : Acyclic ctx.hard.graph.E)
    (hphases : ctx.phases = actionPhaseMap ctx.index)
    (hpath : NoVerificationBeforeControl ctx.index ctx.hard.graph.E) {s : BatchStep}
    (hs : s ∈ steps) : ¬ ∀ x ∈ s.before.ready, phaseBarrierBlocks ctx x [] s.before.done = true := by
  intro hall
  obtain ⟨hready, hinv, -⟩ := h.step hs
  obtain ⟨x, hx⟩ := List.exists_mem_of_ne_nil _ hready
  obtain ⟨-, row, hrow, hctl, hdone⟩ := barrier_verification (hall x hx)
  rw [hphases] at hrow
  have hc := phaseOf_eq_of_mem hrow
  rw [hctl] at hc
  have hnode : row.1 ∈ ctx.hard.graph.nodes := h.nodes ▸ mem_keys_of_phaseOf (by simp) hc
  -- a ready action reaches the pending control action
  obtain ⟨v, hv, hvc⟩ := hinv.exists_ready_reaching hac hnode hdone
  obtain ⟨hver, -⟩ := barrier_verification (hall v hv)
  rw [Ctx.phase, hphases] at hver
  rcases reflTransGen_iff_eq_or_transGen.1 hvc with heq | htrans
  · rw [← heq, hc] at hver
    exact absurd hver (by simp)
  · exact hpath v row.1 hver hc htrans

/-- No round makes a forced pick. -/
theorem not_forced (h : CompleteRun ctx steps) (hac : Acyclic ctx.hard.graph.E)
    (hphases : ctx.phases = actionPhaseMap ctx.index)
    (hpath : NoVerificationBeforeControl ctx.index ctx.hard.graph.E) {s : BatchStep}
    (hs : s ∈ steps) : s.selection.forced = none ∧
      ∃ st, Admitted ctx s.before st ∧ s.selection.selected = st.selected := by
  obtain ⟨hready, -, heq⟩ := h.step hs
  rcases selectBatch_cases h.limits hready with ⟨st, hst, -, e⟩ | ⟨a, -, hall, -⟩
  · rw [heq, e]
    exact ⟨rfl, st, hst, rfl⟩
  · exact absurd hall (h.exists_not_blocked hac hphases hpath hs)

/-- Control comes before verification. -/
theorem control_lt (h : CompleteRun ctx steps) (hac : Acyclic ctx.hard.graph.E)
    (hphases : ctx.phases = actionPhaseMap ctx.index)
    (hpath : NoVerificationBeforeControl ctx.index ctx.hard.graph.E) {c v : String}
    (hc : phaseOf (actionPhaseMap ctx.index) c = .control)
    (hv : phaseOf (actionPhaseMap ctx.index) v = .postControlVerification) {i j : ℕ}
    (hi : InBatch (assemblePlan ctx steps) i c) (hj : InBatch (assemblePlan ctx steps) j v) :
    i < j := by
  obtain ⟨s, hs, hvs⟩ := h.inBatch_iff.1 hj
  obtain ⟨-, st, hst, hsel⟩ := h.not_forced hac hphases hpath (List.mem_of_getElem? hs)
  have hcv : c ≠ v := by
    rintro rfl
    exact absurd (hc.symm.trans hv) (by simp)
  have hdone : c ∈ s.before.done :=
    hst.barrier (hsel ▸ hvs) (by rw [Ctx.phase, hphases, hv]) (c, .control)
      (hphases ▸ mem_of_phaseOf (by simp) hc) hcv rfl
  obtain ⟨k, hkj, hk⟩ := (h.before_done hs c).1 hdone
  rwa [h.inBatch_unique hi hk]

end CompleteRun

/-! ## Rows of forced picks -/

theorem mem_dedupeBy {α : Type} {same : α → α → Bool} {rows : List α} {row : α}
    (h : row ∈ dedupeBy same rows) : row ∈ rows := by
  suffices ∀ kept : List α,
      row ∈ rows.foldl (fun kept row => if kept.any (same row) then kept else kept ++ [row]) kept →
      row ∈ kept ∨ row ∈ rows from (this [] h).resolve_left List.not_mem_nil
  clear h
  induction rows with
  | nil => exact fun kept h => .inl h
  | cons r rows ih =>
    intro kept h
    rw [List.foldl_cons] at h
    rcases ih _ h with h | h
    · split_ifs at h
      · exact .inl h
      · rcases List.mem_append.1 h with h | h
        · exact .inl h
        · exact .inr (by simp [List.mem_singleton.1 h])
    · exact .inr (List.mem_cons_of_mem _ h)

/-- Normal forms keep the kind. -/
theorem kind_of_mem_dedupeFallbackRows {rows : List FallbackRow} {row : FallbackRow}
    (h : row ∈ dedupeFallbackRows index rows) : ∃ r ∈ rows, r.kind = row.kind := by
  obtain ⟨r, hr, rfl⟩ := List.mem_map.1 (mem_dedupeBy h)
  exact ⟨r, hr, rfl⟩

/-- A fallback row of a batch has the kind of a triggered fallback or of a forced pick. -/
theorem kind_of_mem_collectFallbacks {selected : List String} {forced : List FallbackRow}
    {row : FallbackRow} (h : row ∈ collectFallbacks ctx selected forced) :
    (∃ r ∈ ctx.derived.triggeredFallbacks, r.kind = row.kind) ∨ ∃ r ∈ forced, r.kind = row.kind := by
  obtain ⟨r, hr, hkind⟩ := kind_of_mem_dedupeFallbackRows h
  rcases List.mem_append.1 (mem_dedupeBy hr) with hr | hr
  · obtain ⟨r', hr', rfl⟩ := List.mem_map.1 hr
    obtain ⟨a, -, hr'⟩ := List.mem_flatMap.1 (mem_dedupeBy hr')
    exact .inl ⟨r', (List.mem_filter.1 hr').1, hkind⟩
  · exact .inr ⟨r, hr, hkind⟩

/-- A rewritten constraint is a soft order. -/
theorem kind_of_rewrite {kind guard fallback : String} {scope : List String} {params : Dict}
    {rewritten : List SoftConstraint}
    (h : rewriteControlDepWritebackScope index kind scope params guard fallback = some rewritten)
    {c : SoftConstraint} (hc : c ∈ rewritten) :
    upper (strip c.kind) = SoftConstraintKind.softOrder := by
  unfold rewriteControlDepWritebackScope at h
  dsimp only at h
  split_ifs at h with hif
  split at h
  · obtain rfl := Option.some.inj h
    obtain ⟨a, -, rfl⟩ := List.mem_map.1 hc
    simp only [Bool.and_eq_true, decide_eq_true_eq] at hif
    exact hif.1.1.1.1
  · exact absurd h (by simp)

/-- A projected constraint keeps its kind or is a soft order. -/
theorem kind_of_mem_projectSoftConstraint {c c' : SoftConstraint}
    (h : c' ∈ projectSoftConstraint dag index c) :
    c'.kind = c.kind ∨ upper (strip c'.kind) = SoftConstraintKind.softOrder := by
  unfold projectSoftConstraint at h
  dsimp only at h
  split_ifs at h
  · exact absurd h List.not_mem_nil
  · split at h
    · exact .inr (kind_of_rewrite ‹_› h)
    · rw [List.mem_singleton.1 h]
      exact .inl rfl

theorem kind_of_mem_projectSoftDependency {dep : Dict} {c : SoftConstraint}
    (h : c ∈ projectSoftDependency index dep) : c.kind = SoftConstraintKind.minGap := by
  unfold projectSoftDependency at h
  dsimp only at h
  split_ifs at h
  · exact absurd h List.not_mem_nil
  · exact absurd h List.not_mem_nil
  · rw [List.mem_singleton.1 h]

/-- Some constraint of the graph names the kind of the forced picks as its own. -/
def NamesForcedPick (dag : TypedDAG) (kind : String) : Prop :=
  kind = "FORCED_PICK" → ∃ c ∈ dag.softConstraints, c.kind = "FORCED_PICK"

theorem namesForcedPick_of_mem {c : SoftConstraint}
    (h : c ∈ projectSoftConstraints dag index target) : NamesForcedPick dag c.kind := by
  intro hkind
  rcases List.mem_append.1 h with h | h
  · obtain ⟨c', hc', h⟩ := List.mem_flatMap.1 h
    rcases kind_of_mem_projectSoftConstraint h with he | he
    · exact ⟨c', hc', he ▸ hkind⟩
    · rw [hkind] at he
      exact absurd he (by decide +kernel)
  · obtain ⟨dep, -, h⟩ := List.mem_flatMap.1 h
    rw [kind_of_mem_projectSoftDependency h] at hkind
    exact absurd hkind (by decide +kernel)

/-- A triggered fallback has the kind of the forced picks only when a constraint has. -/
theorem namesForcedPick_of_derived {policy : SchedulerPolicy} {d : DerivedConstraintPolicy}
    (h : derivedPolicy policy dag metrics target = .ok d) :
    ∀ row ∈ d.triggeredFallbacks, NamesForcedPick dag row.kind := by
  obtain ⟨d1, h1, h2⟩ := bind_eq_ok.1 h
  obtain ⟨d2, hd2, rfl⟩ := (keeps_fallbackKind (NamesForcedPick dag)).derive
    (fun c hc => namesForcedPick_of_mem hc) (fun hk => absurd hk (by decide +kernel))
    (fun hk => absurd hk (by decide +kernel)) h1 (by simp [initialDerived])
  obtain ⟨capped, hc, h2⟩ := bind_eq_ok.1 h2
  obtain rfl := pure_eq_ok.1 h2
  have hsame : capped.triggeredFallbacks = d2.triggeredFallbacks := by
    unfold capDerived at hc
    split_ifs at hc
    · obtain ⟨active, -, hc⟩ := bind_eq_ok.1 hc
      obtain rfl := pure_eq_ok.1 hc
      rfl
    · obtain rfl := pure_eq_ok.1 hc
      rfl
  intro row hrow
  obtain ⟨r, hr, hkind⟩ := kind_of_mem_dedupeFallbackRows hrow
  rw [hsame] at hr
  exact hkind ▸ hd2 r hr

/-- A batch without a forced pick has a row of that kind only when a constraint names it. -/
theorem forcedRow_kind {policy : SchedulerPolicy} {s : BatchStep} {idx : ℕ}
    (hd : derivedPolicy policy dag metrics target = .ok ctx.derived)
    (hs : s.selection.forced = none) {row : Dict}
    (hrow : row ∈ (assembleBatch ctx idx s).fallback)
    (hkind : Dict.get row "kind" = .str "FORCED_PICK") :
    ∃ c ∈ dag.softConstraints, c.kind = "FORCED_PICK" := by
  obtain ⟨r, hr, rfl⟩ := List.mem_map.1 hrow
  have hrk : r.kind = "FORCED_PICK" := Val.str.inj hkind
  rcases kind_of_mem_collectFallbacks hr with ⟨r', hr', hk⟩ | ⟨r', hr', -⟩
  · exact namesForcedPick_of_derived hd r' hr' (hk.trans hrk)
  · simp [hs] at hr'

/-! ## Every plan -/

/-- A control action and a read declared after it. -/
def switchTarget : OptimizationTarget where
  vdevActions := [[("action_id", .str "on"), ("protocol", .str "LOCAL"), ("kind", .str "turn_on")],
    [("action_id", .str "check"), ("protocol", .str "LOCAL"), ("kind", .str "status")]]

end FloWeaver.Scheduler
