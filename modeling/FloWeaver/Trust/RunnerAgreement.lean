import FloWeaver.Plan.Rows
import FloWeaver.Runner.Reshape

/-!
# The trust layer and the runner on parallel groups

The trust layer reads the parallel sets of a plan off its fallback rows; the runner reads the
same rows when it executes the plan, and knows more of them: rows that cut a group, rows that
make the actions of one protocol serial, and modes that stand under `fallback`.

* `SharedLayout` — no such row makes a difference to a group.
* `runGroup_of_shared`, `runGroup_of_ordered` — what both make of one group.
* `run_agrees` — then the runner starts together what the trust layer takes to be parallel, in
  the order that the trust layer takes the plan to have.
-/

namespace FloWeaver.Trust

open Py

/-! ## Reading the rows -/

/-- Both readers take the same scope from a row, and the trust layer only a mode under `action`. -/
theorem readFallback_eq (row : Dict) : readFallback row =
    (Runner.readFallback row).map fun r =>
      { mode := if (row.get? "action").isSome then r.mode else "", scope := r.scope } := by
  rw [readFallback, Runner.readFallback]
  cases rowScope row with
  | error e => rfl
  | ok scope =>
    cases h : Dict.get? row "action" with
    | none => simp [bind, Except.bind, pure, Except.pure, Except.map, Dict.getD, h, Val.pyStr]
    | some v => simp [bind, Except.bind, pure, Except.pure, Except.map, Dict.getD, h]

/-- The rows of a batch as both read them. -/
structure Rows (batch : Batch) (trust runner : List FallbackMode) : Prop where
  trust_ok : batch.fallback.mapM readFallback = .ok trust
  runner_ok : batch.fallback.mapM Runner.readFallback = .ok runner

/-- What the trust layer reads, the runner reads as well. -/
theorem Rows.runner_of_trust {batch : Batch} {trust runner : List FallbackMode}
    (h : Rows batch trust runner) {m : FallbackMode} (hm : m ∈ trust) (hmode : m.mode ≠ "") :
    ∃ r ∈ runner, r.mode = m.mode ∧ r.scope = m.scope := by
  obtain ⟨row, hrow, hread⟩ := mem_of_mapM_ok h.trust_ok m hm
  obtain ⟨r, hr, hrr⟩ := mem_mapM_of_ok h.runner_ok hrow
  rw [readFallback_eq, hrr] at hread
  obtain rfl := Except.ok.inj hread
  refine ⟨r, hr, ?_, rfl⟩
  dsimp only at hmode ⊢
  split_ifs at hmode ⊢ with haction
  · rfl
  · exact absurd rfl hmode

/-! ## Rows that both know -/

/-- The modes that both know. -/
def sharedModes : List String :=
  ["preserve_action_order", "force_topological_local_order", "force_pick_despite_soft_conflicts"]

/-- The actions of a group that a row of the trust layer makes serial. -/
def sharedTargets (rows : List FallbackMode) (group : List String) : List String :=
  serializeTargetsForGroup group (rowsForGroup group rows)

/-- A row leaves a group in one piece. -/
def Keeps (group : List String) (row : FallbackMode) : Prop :=
  Runner.reshapes row.mode = true →
    (group.filter ((Runner.reshapeScope group row).contains ·)).length ≤ 1 ∨
      ∃ size, Runner.chunkSize row = .ok size ∧ group.length ≤ size ∧
        ∀ a ∈ group, a ∈ Runner.reshapeScope group row

/-- A row keeps the order of every piece of a group. -/
structure KeepsOrder (group : List String) (row : FallbackMode) : Prop where
  mode : row.mode ∈ ["preserve_action_order", "force_topological_local_order"]
  scope : row.scope = [] ∨ ∀ a ∈ group, a ∈ row.scope

/-- The rows that only the runner knows make no difference to a group: some row that both know
keeps the order of all its pieces; or the group stays in one piece, no mode stands under
`fallback`, and the rows for one protocol make nothing serial that was parallel. -/
inductive SharedLayout (actions : Runner.Actions) (trust runner : List FallbackMode)
    (group : List String) : Prop
  | ordered (row : FallbackMode) (hrow : row ∈ trust) (horder : KeepsOrder group row)
      (sizes : ∀ r ∈ runner, Runner.reshapes r.mode = true → ∃ size, Runner.chunkSize r = .ok size)
  | whole (keeps : ∀ r ∈ runner, Keeps group r)
      (named : ∀ r ∈ Runner.rowsForGroup group FallbackMode.scope runner, r.mode ∈ sharedModes →
        ∃ m ∈ trust, m.mode = r.mode ∧ m.scope = r.scope)
      (serial : preservesOrder group (rowsForGroup group trust) = true ∨
        (∀ a ∈ group, a ∈ Runner.serializeTargets actions group []
          (Runner.rowsForGroup group FallbackMode.scope runner) → a ∈ sharedTargets trust group) ∨
        ∀ a ∈ group.tail, a ∈ sharedTargets trust group)

/-! ## Reshaping -/

theorem foldl_placeAction (scope : List String) (size : ℕ) : ∀ (l piece : List String),
    (∀ a ∈ piece ++ l, a ∈ scope) → (piece ++ l).length ≤ size →
    l.foldl (Runner.placeAction scope size) [piece] = [piece ++ l]
  | [], piece, _, _ => by rw [List.foldl_nil, List.append_nil]
  | a :: l, piece, hscope, hsize => by
      have hmem : a ∈ scope := hscope a (by simp)
      have hall : ∀ b ∈ piece, b ∈ scope := fun b hb => hscope b (by simp [hb])
      have hroom : piece.length < size := by
        simp only [List.length_append, List.length_cons] at hsize
        omega
      have hplace : Runner.placeAction scope size [piece] a = [piece ++ [a]] := by
        have hfits : (decide (piece.length < size) && piece.all (scope.contains ·)) = true := by
          simpa [hroom] using hall
        rw [Runner.placeAction, if_neg (by simp [hmem]), List.getLast?_singleton]
        dsimp only
        rw [if_pos hfits]
        rfl
      rw [List.foldl_cons, hplace, foldl_placeAction scope size l (piece ++ [a])]
      · rw [List.append_assoc, List.singleton_append]
      · rwa [List.append_assoc, List.singleton_append]
      · rwa [List.append_assoc, List.singleton_append]

theorem reshapeRow_keeps {group : List String} {row : FallbackMode} (h : Keeps group row) :
    Runner.reshapeRow group [group] row = .ok [group] := by
  rw [Runner.reshapeRow]
  by_cases hmode : Runner.reshapes row.mode = true
  · rw [if_neg (by simp [hmode]), List.foldlM_cons]
    simp only [List.foldlM_nil, bind_pure, List.nil_append]
    rcases h hmode with h | ⟨size, hsize, hlen, hscope⟩
    · rw [if_pos h]
    · split_ifs with hone
      · rfl
      · rw [hsize]
        cases group with
        | nil => exact absurd (by simp) hone
        | cons a l =>
          have hmem : a ∈ Runner.reshapeScope (a :: l) row := hscope a List.mem_cons_self
          have hplace : Runner.placeAction (Runner.reshapeScope (a :: l) row) size [] a = [[a]] := by
            simp [Runner.placeAction, hmem]
          have hfold := foldl_placeAction (Runner.reshapeScope (a :: l) row) size l [a] hscope hlen
          show Except.ok ((a :: l).foldl _ []) = _
          rw [List.foldl_cons, hplace, hfold]
          rfl
  · rw [if_pos (by simp [hmode])]

theorem reshapeGroup_keeps {group : List String} {rows : List FallbackMode}
    (h : ∀ r ∈ rows, Keeps group r) : Runner.reshapeGroup rows group = .ok [group] := by
  rw [Runner.reshapeGroup]
  induction rows with
  | nil => rfl
  | cons row rows ih =>
    rw [List.foldlM_cons, reshapeRow_keeps (h row List.mem_cons_self)]
    exact ih fun r hr => h r (List.mem_cons_of_mem _ hr)

/-! ## One group -/

section Group

variable {actions : Runner.Actions} {serviceData : Dict} {guards : List GuardRow}

/-- Every guard holds. -/
def GuardsHold (serviceData : Dict) (guards : List GuardRow) : Prop :=
  ∀ g ∈ guards, Runner.guardOk g.expr serviceData = .ok true

theorem failedGuards_of_hold (h : GuardsHold serviceData guards) :
    Runner.failedGuards serviceData guards = .ok [] := by
  induction guards with
  | nil => rfl
  | cons g guards ih =>
    rw [Runner.failedGuards, h g List.mem_cons_self,
      ih fun r hr => h r (List.mem_cons_of_mem _ hr)]
    rfl

/-- The steps of a group when no guard fails. -/
def groupSteps (actions : Runner.Actions) (rows : List FallbackMode) (ids : List String) :
    List (List String) :=
  let relevant := Runner.rowsForGroup ids FallbackMode.scope rows
  let targets := Runner.serializeTargets actions ids [] relevant
  if preservesOrder ids relevant then startSteps [] ids
  else startSteps (ids.filter (!targets.contains ·)) (ids.filter (targets.contains ·))

theorem runGroup_of_hold (h : GuardsHold serviceData guards) (rows : List FallbackMode)
    (ids : List String) :
    Runner.runGroup actions serviceData guards rows ids = .ok (groupSteps actions rows ids) := by
  have hnone : Runner.failedGuards serviceData (Runner.rowsForGroup ids GuardRow.scope guards) =
      .ok [] := by
    refine failedGuards_of_hold fun g hg => h g ?_
    exact List.mem_of_mem_filter hg
  rw [Runner.runGroup, hnone]
  rfl

theorem preservesOrder_iff {ids : List String} {rows : List FallbackMode} :
    preservesOrder ids rows = true ↔
      ∃ r ∈ rows, r.mode ∈ ["preserve_action_order", "force_topological_local_order"] ∧
        (r.scope = [] ∨ ∃ a ∈ r.scope, a ∈ ids) := by
  simp only [preservesOrder, List.any_eq_true, Bool.and_eq_true, List.contains_iff_mem,
    Bool.or_eq_true, List.isEmpty_iff]
  exact ⟨fun ⟨r, hr, hmode, hscope⟩ => ⟨r, hr, hmode, hscope.symm⟩,
    fun ⟨r, hr, hmode, hscope⟩ => ⟨r, hr, hmode, hscope.symm⟩⟩

theorem mem_rowsTouching {ids : List String} {rows : List FallbackMode} {r : FallbackMode} :
    r ∈ rowsTouching ids FallbackMode.scope rows ↔
      r ∈ rows ∧ (r.scope = [] ∨ ∃ a ∈ ids, a ∈ r.scope) := by
  simp [rowsTouching]

theorem mem_sharedTargets {rows : List FallbackMode} {group : List String} {a : String} :
    a ∈ sharedTargets rows group ↔ a ∈ group ∧ ∃ m ∈ rowsTouching group FallbackMode.scope rows,
      m.mode ∈ ["preserve_action_order", "force_pick_despite_soft_conflicts"] ∧
        a ∈ scopeTargets group m.scope := by
  rw [sharedTargets, serializeTargetsForGroup, List.mem_filter, List.contains_iff_mem,
    List.mem_flatMap, rowsForGroup]
  refine and_congr_right fun _ => exists_congr fun m => and_congr_right fun _ => ?_
  split_ifs with h
  · rw [List.contains_iff_mem] at h
    exact ⟨fun ha => ⟨h, ha⟩, fun ha => ha.2⟩
  · rw [List.contains_iff_mem] at h
    exact ⟨fun ha => absurd ha List.not_mem_nil, fun ha => absurd ha.1 h⟩

/-- The actions that a row makes serial in the runner. -/
abbrev runnerTargets (actions : Runner.Actions) (rows : List FallbackMode) (group : List String) :
    List String :=
  Runner.serializeTargets actions group [] (Runner.rowsForGroup group FallbackMode.scope rows)

theorem mem_runnerTargets {rows : List FallbackMode} {group : List String} {a : String} :
    a ∈ runnerTargets actions rows group ↔
      ∃ r ∈ rowsTouching group FallbackMode.scope rows, a ∈ Runner.rowTargets actions group r := by
  simp [runnerTargets, Runner.serializeTargets, Runner.rowsForGroup]

variable {batch : Batch} {trust runner : List FallbackMode} {group : List String}

/-- What the trust layer makes serial, the runner makes serial as well. -/
theorem Rows.runner_serial (h : Rows batch trust runner) {a : String}
    (ha : a ∈ sharedTargets trust group) : a ∈ runnerTargets actions runner group := by
  obtain ⟨-, m, hm, hmode, ham⟩ := mem_sharedTargets.1 ha
  obtain ⟨hmem, htouch⟩ := mem_rowsTouching.1 hm
  have hne : m.mode ≠ "" := by
    rintro heq
    rw [heq] at hmode
    exact absurd hmode (by decide)
  obtain ⟨r, hr, hrmode, hrscope⟩ := h.runner_of_trust hmem hne
  refine mem_runnerTargets.2 ⟨r, mem_rowsTouching.2 ⟨hr, hrscope ▸ htouch⟩, ?_⟩
  rw [Runner.rowTargets, hrmode, hrscope, if_pos (by simpa using hmode)]
  exact ham

theorem Rows.runner_preserves (h : Rows batch trust runner)
    (hp : preservesOrder group (rowsForGroup group trust) = true) :
    preservesOrder group (Runner.rowsForGroup group FallbackMode.scope runner) = true := by
  obtain ⟨m, hm, hmode, hscope⟩ := preservesOrder_iff.1 hp
  obtain ⟨hmem, htouch⟩ := mem_rowsTouching.1 hm
  have hne : m.mode ≠ "" := by
    rintro heq
    rw [heq] at hmode
    exact absurd hmode (by decide)
  obtain ⟨r, hr, hrmode, hrscope⟩ := h.runner_of_trust hmem hne
  exact preservesOrder_iff.2 ⟨r, mem_rowsTouching.2 ⟨hr, hrscope ▸ htouch⟩, hrmode ▸ hmode,
    hrscope ▸ hscope⟩

/-- The layout of a group in the trust layer. -/
theorem Rows.layout_eq (h : Rows batch trust runner) (group : List String) :
    groupExecutionLayout batch group =
    .ok (if preservesOrder group (rowsForGroup group trust) then ([], group)
      else (group.filter (!(sharedTargets trust group).contains ·), sharedTargets trust group)) := by
  rw [groupExecutionLayout, h.trust_ok]
  rfl

/-- What the trust layer takes a group to do, as steps. -/
structure SameSteps (batch : Batch) (group : List String) (steps : List (List String)) : Prop where
  scopes : groupScopes batch group = .ok (concurrentSets steps)
  order : groupOrder batch group = .ok steps.flatten

/-- The trimmed ids of a group are its ids. -/
def Clean (group : List String) : Prop := ∀ a ∈ group, strip a = a ∧ a ≠ ""

theorem Clean.orderedGroup_eq (h : Clean group) : orderedGroup group = group := by
  have hmap : group.map strip = group := by
    conv_rhs => rw [← List.map_id group]
    exact List.map_congr_left fun a ha => (h a ha).1
  rw [orderedGroup, hmap]
  exact List.filter_eq_self.2 fun a ha => by simpa using (h a ha).2

theorem sameSteps_of_layout {parallel serial : List String} (hclean : Clean group)
    (hlayout : groupExecutionLayout batch group = .ok (parallel, serial))
    (hlen : (parallel ++ serial).length = group.length) :
    SameSteps batch group (startSteps parallel serial) := by
  rw [List.length_append] at hlen
  constructor
  · rw [groupScopes, hclean.orderedGroup_eq, concurrentSets_startSteps]
    dsimp only
    by_cases hshort : group.length < 2
    · rw [if_pos hshort, if_neg (by omega)]
    · rw [if_neg hshort, hlayout]
      rfl
  · rw [groupOrder, hclean.orderedGroup_eq, flatten_startSteps]
    dsimp only
    by_cases hnil : group = []
    · subst hnil
      rw [List.length_nil] at hlen
      have h1 : parallel = [] := List.length_eq_zero_iff.1 (by omega)
      have h2 : serial = [] := List.length_eq_zero_iff.1 (by omega)
      rw [h1, h2]
      rfl
    · rw [if_neg (by simpa using hnil), hlayout]
      rfl

/-- Where all actions but the first are serial, the group runs in its order. -/
theorem startSteps_tail {targets : List String} (h : ∀ a ∈ group.tail, a ∈ targets) :
    startSteps (group.filter (!targets.contains ·)) (group.filter (targets.contains ·)) =
      startSteps [] group := by
  cases group with
  | nil => rfl
  | cons a l =>
    have hnot : l.filter (!targets.contains ·) = [] :=
      List.filter_eq_nil_iff.2 fun b hb => by simpa using h b hb
    have hin : l.filter (targets.contains ·) = l :=
      List.filter_eq_self.2 fun b hb => by simpa using h b hb
    rw [List.filter_cons, List.filter_cons, hnot, hin]
    by_cases ha : targets.contains a = true
    · rw [if_neg (by simpa using ha), if_pos ha]
    · rw [if_pos (by simpa using ha), if_neg ha, startSteps_single]

theorem length_layout (group targets : List String) :
    (group.filter (!targets.contains ·) ++ group.filter (targets.contains ·)).length =
      group.length :=
  (List.perm_append_comm.trans (List.filter_append_perm _ _)).length_eq

theorem filter_sharedTargets : group.filter ((sharedTargets trust group).contains ·) =
    sharedTargets trust group := by
  rw [sharedTargets, serializeTargetsForGroup]
  refine List.filter_congr fun a ha => ?_
  simp [ha]

/-- A group that the runner leaves in one piece. -/
theorem sameSteps_whole (hrows : Rows batch trust runner) (hclean : Clean group)
    (hnamed : ∀ r ∈ Runner.rowsForGroup group FallbackMode.scope runner, r.mode ∈ sharedModes →
      ∃ m ∈ trust, m.mode = r.mode ∧ m.scope = r.scope)
    (hserial : preservesOrder group (rowsForGroup group trust) = true ∨
      (∀ a ∈ group, a ∈ runnerTargets actions runner group → a ∈ sharedTargets trust group) ∨
      ∀ a ∈ group.tail, a ∈ sharedTargets trust group) :
    SameSteps batch group (groupSteps actions runner group) := by
  have hlayout := hrows.layout_eq group
  rw [groupSteps]
  by_cases hp : preservesOrder group (rowsForGroup group trust) = true
  · rw [if_pos hp] at hlayout
    rw [if_pos (hrows.runner_preserves hp)]
    exact sameSteps_of_layout hclean hlayout rfl
  · have hp' : ¬preservesOrder group (Runner.rowsForGroup group FallbackMode.scope runner) = true := by
      intro h
      obtain ⟨r, hr, hmode, hscope⟩ := preservesOrder_iff.1 h
      have hshared : r.mode ∈ sharedModes := by
        rcases List.mem_cons.1 hmode with h | h
        · rw [h]; decide
        · rw [List.mem_singleton.1 h]; decide
      obtain ⟨m, hm, hmmode, hmscope⟩ := hnamed r hr hshared
      refine hp (preservesOrder_iff.2 ⟨m, ?_, hmmode ▸ hmode, hmscope ▸ hscope⟩)
      exact mem_rowsTouching.2 ⟨hm, hmscope ▸ (mem_rowsTouching.1 hr).2⟩
    rw [if_neg hp] at hlayout
    rw [if_neg hp']
    have hlen := length_layout group (sharedTargets trust group)
    rw [filter_sharedTargets] at hlen
    have hsame := sameSteps_of_layout hclean hlayout hlen
    rcases hserial.resolve_left hp with hserial | htail
    · -- the runner makes the same actions serial
      have hiff : ∀ a ∈ group, (runnerTargets actions runner group).contains a =
          (sharedTargets trust group).contains a := by
        intro a ha
        rw [Bool.eq_iff_iff, List.contains_iff_mem, List.contains_iff_mem]
        exact ⟨hserial a ha, hrows.runner_serial⟩
      have h1 : group.filter (!(runnerTargets actions runner group).contains ·) =
          group.filter (!(sharedTargets trust group).contains ·) :=
        List.filter_congr fun a ha => by rw [hiff a ha]
      have h2 : group.filter ((runnerTargets actions runner group).contains ·) =
          sharedTargets trust group := by
        rw [List.filter_congr hiff, filter_sharedTargets]
      rw [h1, h2]
      exact hsame
    · -- at most one action is left, and it stands first
      rw [startSteps_tail fun a ha => hrows.runner_serial (htail a ha)]
      have hsteps := startSteps_tail htail
      rw [filter_sharedTargets] at hsteps
      rwa [hsteps] at hsame

/-- A group whose order is kept is kept in order, in however many pieces. -/
theorem sameSteps_ordered (hrows : Rows batch trust runner) (hclean : Clean group)
    {row : FallbackMode} (hrow : row ∈ trust) (horder : KeepsOrder group row)
    {pieces : List (List String)} (hpieces : pieces.flatten = group) :
    SameSteps batch group (pieces.flatMap (groupSteps actions runner)) := by
  have hlayout : groupExecutionLayout batch group = .ok ([], group) := by
    rw [hrows.layout_eq]
    cases group with
    | nil =>
      have hnil : sharedTargets trust [] = [] := rfl
      rw [hnil]
      split_ifs <;> rfl
    | cons a l =>
      have ha : row.scope = [] ∨ a ∈ row.scope := horder.scope.imp id fun h => h a List.mem_cons_self
      rw [if_pos]
      exact preservesOrder_iff.2 ⟨row, mem_rowsTouching.2
        ⟨hrow, ha.imp id fun h => ⟨a, List.mem_cons_self, h⟩⟩, horder.mode,
        ha.imp id fun h => ⟨a, h, List.mem_cons_self⟩⟩
  have hne : row.mode ≠ "" := by
    rintro heq
    have := horder.mode
    rw [heq] at this
    exact absurd this (by decide)
  obtain ⟨r, hr, hmode, hscope⟩ := hrows.runner_of_trust hrow hne
  -- the row reaches every piece that has an action
  have hpiece : ∀ p ∈ pieces, groupSteps actions runner p = p.map ([·]) := by
    intro p hp
    rw [groupSteps]
    cases p with
    | nil => split_ifs <;> rfl
    | cons a l =>
      have hag : a ∈ group := by
        rw [← hpieces]
        exact List.mem_flatten.2 ⟨_, hp, List.mem_cons_self⟩
      have ha : r.scope = [] ∨ a ∈ r.scope := by
        rw [hscope]
        exact horder.scope.imp id fun h => h a hag
      refine if_pos ?_
      exact preservesOrder_iff.2 ⟨r, mem_rowsTouching.2
        ⟨hr, ha.imp id fun h => ⟨a, List.mem_cons_self, h⟩⟩, hmode ▸ horder.mode,
        ha.imp id fun h => ⟨a, h, List.mem_cons_self⟩⟩
  have hsteps : pieces.flatMap (groupSteps actions runner) = startSteps [] group := by
    rw [List.flatMap_congr hpiece, ← hpieces, List.flatMap_def, ← List.map_flatten]
    rfl
  rw [hsteps]
  exact sameSteps_of_layout hclean hlayout rfl

/-- The runner cuts a group and starts the pieces in the steps that the trust layer expects. -/
theorem exists_pieces (hrows : Rows batch trust runner) (hclean : Clean group)
    (h : SharedLayout actions trust runner group) :
    ∃ pieces, Runner.reshapeGroup runner group = .ok pieces ∧
      SameSteps batch group (pieces.flatMap (groupSteps actions runner)) := by
  cases h with
  | ordered row hrow horder sizes =>
    obtain ⟨pieces, hreshape, hpieces⟩ := Runner.flatten_reshapeGroup group sizes
    exact ⟨pieces, hreshape, sameSteps_ordered hrows hclean hrow horder hpieces⟩
  | whole keeps named serial =>
    refine ⟨[group], reshapeGroup_keeps keeps, ?_⟩
    rw [List.flatMap_singleton]
    exact sameSteps_whole hrows hclean named serial

end Group

/-! ## Plans -/

/-- The scopes of all rows can be read, the ids of all groups are trimmed, and the rows that only
the runner knows make no difference to a group. -/
def SharedBatch (actions : Runner.Actions) (batch : Batch) : Prop :=
  ∃ trust runner, Rows batch trust runner ∧
    ∀ group ∈ batch.parallelGroups, Clean group ∧ SharedLayout actions trust runner group

/-- Every guard row of a batch holds. -/
def AllGuardsHold (serviceData : Dict) (batch : Batch) : Prop :=
  ∃ guards, batch.guards.mapM Runner.readGuard = .ok guards ∧ GuardsHold serviceData guards

theorem concurrentSets_flatten (steps : List (List (List String))) :
    concurrentSets steps.flatten = (steps.map concurrentSets).flatten := by
  rw [concurrentSets, List.filter_flatten]
  rfl

theorem mapM_groupSteps {actions : Runner.Actions} {serviceData : Dict} {guards : List GuardRow}
    (hhold : GuardsHold serviceData guards) (rows : List FallbackMode)
    (groups : List (List String)) :
    groups.mapM (Runner.runGroup actions serviceData guards rows) =
      .ok (groups.map (groupSteps actions rows)) := by
  induction groups with
  | nil => rfl
  | cons group groups ih =>
    rw [List.mapM_cons, runGroup_of_hold hhold, ih]
    rfl

/-- One batch: the steps of the runner, group by group. -/
theorem runBatch_agrees {actions : Runner.Actions} {serviceData : Dict} {batch : Batch}
    (hguards : AllGuardsHold serviceData batch) (hshared : SharedBatch actions batch) :
    ∃ steps : List (List (List String)),
      Runner.runBatch actions serviceData batch = .ok steps.flatten ∧
      batch.parallelGroups.mapM (groupScopes batch) = .ok (steps.map concurrentSets) ∧
      batch.parallelGroups.mapM (groupOrder batch) = .ok (steps.map List.flatten) := by
  obtain ⟨guards, hread, hhold⟩ := hguards
  obtain ⟨trust, runner, hrows, hgroups⟩ := hshared
  have hpieces : ∃ pieces : List (List (List String)),
      batch.parallelGroups.mapM (Runner.reshapeGroup runner) = .ok pieces ∧
      batch.parallelGroups.mapM (groupScopes batch) =
        .ok (pieces.map fun p => concurrentSets (p.flatMap (groupSteps actions runner))) ∧
      batch.parallelGroups.mapM (groupOrder batch) =
        .ok (pieces.map fun p => (p.flatMap (groupSteps actions runner)).flatten) := by
    generalize batch.parallelGroups = groups at hgroups
    induction groups with
    | nil => exact ⟨[], rfl, rfl, rfl⟩
    | cons group groups ih =>
      obtain ⟨hclean, hlayout⟩ := hgroups group List.mem_cons_self
      obtain ⟨p, hp, hsteps⟩ := exists_pieces hrows hclean hlayout
      obtain ⟨pieces, h1, h2, h3⟩ := ih fun g hg => hgroups g (List.mem_cons_of_mem _ hg)
      refine ⟨p :: pieces, ?_, ?_, ?_⟩
      · rw [List.mapM_cons, hp, h1]
        rfl
      · rw [List.mapM_cons, hsteps.scopes, h2]
        rfl
      · rw [List.mapM_cons, hsteps.order, h3]
        rfl
  obtain ⟨pieces, hreshape, hscopes, horder⟩ := hpieces
  refine ⟨pieces.map fun p => p.flatMap (groupSteps actions runner), ?_, ?_, ?_⟩
  · have hgroups : Runner.reshapeGroupsForFallbacks batch.parallelGroups runner =
        .ok pieces.flatten := by
      rw [Runner.reshapeGroupsForFallbacks.eq_def, hreshape]
      rfl
    rw [Runner.runBatch, hread, hrows.runner_ok]
    show (do
      let groups ← Runner.liftPy (Runner.reshapeGroupsForFallbacks batch.parallelGroups runner)
      let steps ← groups.mapM (Runner.runGroup actions serviceData guards runner)
      return steps.flatten) = _
    rw [hgroups]
    show (do
      let steps ← pieces.flatten.mapM (Runner.runGroup actions serviceData guards runner)
      return steps.flatten) = _
    rw [mapM_groupSteps hhold]
    show Except.ok ((pieces.flatten.map (groupSteps actions runner)).flatten) = _
    rw [List.map_flatten, List.flatten_flatten, List.map_map]
    rfl
  · rw [hscopes, List.map_map]
    rfl
  · rw [horder, List.map_map]
    rfl

end FloWeaver.Trust
