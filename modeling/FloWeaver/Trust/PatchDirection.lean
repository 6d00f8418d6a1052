import FloWeaver.Trust.Evaluate
import Mathlib.Data.List.Permutation

/-!
# The direction of a level-3 soft order

The patch of the graph is meant to write the order of execution down: the row of the rollback log
and the parameter `ordered_scope` name the two neighbours in that order.  The scope of the new
constraint is the *sorted* pair, and the scope is what the scheduler reads, from left to right.
So a pair against the order of the strings is written down the other way round, and a constraint
in the opposite direction counts as the same one.

* `Patched` — what the loop over the neighbours does to the constraints.
* `ordersPair_iff` — when the patched constraints order a pair as it is executed.
* `applyLevel3ConstraintPatch_direction` — the same for the patch; edges and nodes stay.
* `level3Patch_reversed` — a pair that the patch turns around.
-/

namespace FloWeaver.Trust

open Py

variable {implicated : List String} {contexts : OrderedDict String ExecutionContext}
  {soft : List SoftConstraint} {src dst : String}

/-! ## Adding constraints -/

theorem addConstraint_fst (state : List SoftConstraint × List Dict) (c : SoftConstraint)
    (scope : List String) :
    (addConstraint state c scope).1 =
      if (state.1.map softKey).contains (softKey c) then state.1 else state.1 ++ [c] := by
  unfold addConstraint
  split_ifs <;> rfl

theorem subset_addConstraint (state : List SoftConstraint × List Dict) (c : SoftConstraint)
    (scope : List String) : state.1 ⊆ (addConstraint state c scope).1 := by
  rw [addConstraint_fst]
  split_ifs
  · exact List.Subset.refl _
  · exact List.subset_append_left _ _

/-- Afterwards some constraint has the key. -/
theorem exists_softKey_addConstraint (state : List SoftConstraint × List Dict)
    (c : SoftConstraint) (scope : List String) :
    ∃ c' ∈ (addConstraint state c scope).1, softKey c' = softKey c := by
  rw [addConstraint_fst]
  split_ifs with h
  · exact List.mem_map.1 (List.contains_iff_mem.1 h)
  · exact ⟨c, by simp, rfl⟩

/-! ## The neighbours -/

/-- The pair touches an implicated action, and its ends do not run together. -/
def Eligible (implicated : List String) (contexts : OrderedDict String ExecutionContext)
    (src dst : String) : Prop :=
  (src ∈ implicated ∨ dst ∈ implicated) ∧ runTogether contexts src dst = false

theorem addNeighbours_of_eligible (h : Eligible implicated contexts src dst)
    (state : List SoftConstraint × List Dict) :
    addNeighbours implicated contexts state (src, dst) =
      addConstraint state (orderConstraint src dst) [src, dst] := by
  rw [addNeighbours, if_neg, if_neg (by simp [h.2])]
  rcases h.1 with h | h
  · simp [h]
  · simp [h]

/-- What the loop over the neighbours does: the constraints of the graph stay, what is added is
the order of a pair whose key no constraint of the graph has, and an eligible pair finds its key
among the constraints. -/
structure Patched (soft : List SoftConstraint) (implicated : List String)
    (contexts : OrderedDict String ExecutionContext) (pairs : List (String × String))
    (patched : List SoftConstraint) : Prop where
  keeps : soft ⊆ patched
  added : ∀ c ∈ patched, c ∈ soft ∨
    ∃ s d, c = orderConstraint s d ∧ ∀ c' ∈ soft, softKey c' ≠ softKey c
  found : ∀ s d, (s, d) ∈ pairs → Eligible implicated contexts s d →
    ∃ c ∈ patched, softKey c = softKey (orderConstraint s d)

theorem Patched.addConstraint {pairs : List (String × String)}
    {state : List SoftConstraint × List Dict} (h : Patched soft implicated contexts pairs state.1)
    (s d : String) (scope : List String) :
    Patched soft implicated contexts (pairs ++ [(s, d)])
      (addConstraint state (orderConstraint s d) scope).1 := by
  have hsub := subset_addConstraint state (orderConstraint s d) scope
  refine ⟨fun c hc => hsub (h.keeps hc), fun c hc => ?_, fun s' d' hmem helig => ?_⟩
  · rw [addConstraint_fst] at hc
    split_ifs at hc with hkey
    · exact h.added c hc
    · rcases List.mem_append.1 hc with hc | hc
      · exact h.added c hc
      · -- the key is new, so no constraint of the graph has it
        obtain rfl := List.mem_singleton.1 hc
        refine .inr ⟨s, d, rfl, fun c' hc' heq => hkey (List.contains_iff_mem.2 ?_)⟩
        exact heq ▸ List.mem_map_of_mem (h.keeps hc')
  · rcases List.mem_append.1 hmem with hmem | hmem
    · obtain ⟨c, hc, hkey⟩ := h.found s' d' hmem helig
      exact ⟨c, hsub hc, hkey⟩
    · obtain ⟨rfl, rfl⟩ := Prod.mk.inj (List.mem_singleton.1 hmem)
      exact exists_softKey_addConstraint _ _ _

theorem Patched.addNeighbours {pairs : List (String × String)}
    {state : List SoftConstraint × List Dict} (h : Patched soft implicated contexts pairs state.1)
    (pair : String × String) :
    Patched soft implicated contexts (pairs ++ [pair])
      (addNeighbours implicated contexts state pair).1 := by
  obtain ⟨s, d⟩ := pair
  by_cases helig : Eligible implicated contexts s d
  · rw [addNeighbours_of_eligible helig]
    exact h.addConstraint s d _
  · rw [Trust.addNeighbours]
    split_ifs with hskip htogether
    · refine ⟨h.keeps, h.added, fun s' d' hmem he => ?_⟩
      rcases List.mem_append.1 hmem with hmem | hmem
      · exact h.found s' d' hmem he
      · obtain ⟨rfl, rfl⟩ := Prod.mk.inj (List.mem_singleton.1 hmem)
        exact absurd he helig
    · refine ⟨h.keeps, h.added, fun s' d' hmem he => ?_⟩
      rcases List.mem_append.1 hmem with hmem | hmem
      · exact h.found s' d' hmem he
      · obtain ⟨rfl, rfl⟩ := Prod.mk.inj (List.mem_singleton.1 hmem)
        exact absurd he helig
    · exact h.addConstraint s d _

theorem patched_foldl (pairs : List (String × String)) :
    ∀ {before : List (String × String)} {state : List SoftConstraint × List Dict},
      Patched soft implicated contexts before state.1 →
      Patched soft implicated contexts (before ++ pairs)
        (pairs.foldl (addNeighbours implicated contexts) state).1 := by
  induction pairs with
  | nil => exact fun h => by simpa using h
  | cons pair pairs ih =>
    intro before state h
    have hrest := ih (h.addNeighbours pair)
    rwa [List.append_assoc, List.singleton_append] at hrest

theorem patched_start (soft : List SoftConstraint) : Patched soft implicated contexts [] soft :=
  ⟨List.Subset.refl _, fun _ hc => .inl hc, nofun⟩

/-! ## The direction -/

/-- Some soft order without a guard lists the first action before the second one. -/
def OrdersPair (constraints : List SoftConstraint) (src dst : String) : Prop :=
  ∃ c ∈ constraints, c.kind = SoftConstraintKind.softOrder ∧ c.guard = "true" ∧
    [src, dst].Sublist c.scope

/-- The constraints of the graph already order the pair, or the pair follows the order of the
strings and the graph has no order of it in the opposite direction with the guard and the fallback
of the patch. -/
def KeepsDirection (constraints : List SoftConstraint) (src dst : String) : Prop :=
  OrdersPair constraints src dst ∨
    (src < dst ∧ ∀ c ∈ constraints, c.kind = SoftConstraintKind.softOrder → c.guard = "true" →
      c.fallback = "preserve_action_order" → c.scope ≠ [dst, src])

theorem sortedStr_pair (h : src < dst) : sortedStr [dst, src] = [src, dst] ∧
    sortedStr [src, dst] = [src, dst] := by
  constructor
  · simp [sortedStr, List.insertionSort, not_le.2 h]
  · simp [sortedStr, List.insertionSort, h.le]

theorem sortedSet_pair (h : src < dst) : sortedSet [src, dst] = [src, dst] := by
  rw [sortedSet, List.Nodup.dedup (by simpa using h.ne), (sortedStr_pair h).2]

/-- The scope of an order of the patch is sorted. -/
theorem sortedStr_orderScope (s d : String) :
    sortedStr (orderConstraint s d).scope = (orderConstraint s d).scope :=
  List.Pairwise.insertionSort_eq (List.pairwise_insertionSort (· ≤ ·) _)

/-- An order of the patch lists a pair only in the order of the strings, and then nothing else. -/
theorem scope_of_sublist {s d : String} (h : [src, dst].Sublist (orderConstraint s d).scope) :
    src < dst ∧ (orderConstraint s d).scope = [src, dst] := by
  have hlength : (sortedSet [s, d]).length ≤ 2 := by
    rw [sortedSet, sortedStr, List.length_insertionSort]
    exact (List.dedup_sublist [s, d]).length_le
  have hsorted : (sortedSet [s, d]).Pairwise (· < ·) := pairwise_lt_sortedStr (List.nodup_dedup _)
  have heq := h.eq_of_length_le hlength
  refine ⟨?_, heq.symm⟩
  have hpair : [src, dst].Pairwise (· < ·) := heq ▸ hsorted
  simpa using hpair

/-- **When a pair keeps its direction.** -/
theorem Patched.ordersPair_iff {pairs : List (String × String)} {patched : List SoftConstraint}
    (h : Patched soft implicated contexts pairs patched) (hmem : (src, dst) ∈ pairs)
    (helig : Eligible implicated contexts src dst) :
    OrdersPair patched src dst ↔ KeepsDirection soft src dst := by
  constructor
  · rintro ⟨c, hc, hkind, hguard, hscope⟩
    rcases h.added c hc with hc | ⟨s, d, rfl, hnew⟩
    · exact .inl ⟨c, hc, hkind, hguard, hscope⟩
    · -- an added order follows the strings, and no constraint of the graph has its key
      obtain ⟨hlt, heq⟩ := scope_of_sublist hscope
      refine .inr ⟨hlt, fun c' hc' hkind' hguard' hfallback' hreversed => hnew c' hc' ?_⟩
      rw [softKey, softKey, hkind', hguard', hfallback', hreversed, heq, (sortedStr_pair hlt).1,
        (sortedStr_pair hlt).2]
      rfl
  · rintro (⟨c, hc, hkeeps⟩ | ⟨hlt, hnone⟩)
    · exact ⟨c, h.keeps hc, hkeeps⟩
    · obtain ⟨c, hc, hkey⟩ := h.found src dst hmem helig
      have hscope : (orderConstraint src dst).scope = [src, dst] := sortedSet_pair hlt
      rw [softKey, softKey, hscope, (sortedStr_pair hlt).2] at hkey
      obtain ⟨hkind, hsorted, hguard, hfallback⟩ : c.kind = SoftConstraintKind.softOrder ∧
          sortedStr c.scope = [src, dst] ∧ c.guard = "true" ∧
            c.fallback = "preserve_action_order" := by
        simpa [orderConstraint] using hkey
      refine ⟨c, hc, hkind, hguard, ?_⟩
      have hperm : c.scope.Perm [src, dst] := hsorted ▸ (List.perm_insertionSort _ _).symm
      rcases List.perm_pair.1 hperm with heq | heq
      · rw [heq]
      · rcases h.added c hc with hsoft | ⟨s, d, rfl, -⟩
        · exact absurd heq (hnone c hsoft hkind hguard hfallback)
        · rw [← sortedStr_orderScope, hsorted]

/-! ## The patch -/

/-- The order of other kinds does not count. -/
theorem ordersPair_addBle {state : List SoftConstraint × List Dict} {scope : List String} :
    OrdersPair (addConstraint state (bleConstraint scope) scope).1 src dst ↔
      OrdersPair state.1 src dst := by
  rw [addConstraint_fst]
  split_ifs
  · rfl
  · constructor
    · rintro ⟨c, hc, hkind, h⟩
      rcases List.mem_append.1 hc with hc | hc
      · exact ⟨c, hc, hkind, h⟩
      · rw [List.mem_singleton.1 hc] at hkind
        have hclash : SoftConstraintKind.noOverlap = SoftConstraintKind.softOrder := hkind
        exact absurd hclash (by decide)
    · rintro ⟨c, hc, h⟩
      exact ⟨c, List.mem_append_left _ hc, h⟩

/-- Constraints without a row for the log are those of the graph. -/
theorem addConstraint_changes {state : List SoftConstraint × List Dict} {c : SoftConstraint}
    {scope : List String} (h : state.2.isEmpty = true → state.1 = soft)
    (hempty : (addConstraint state c scope).2.isEmpty = true) :
    (addConstraint state c scope).1 = soft := by
  unfold addConstraint at hempty ⊢
  split_ifs at hempty ⊢
  · exact h hempty
  · simp at hempty

theorem foldl_addNeighbours_changes (pairs : List (String × String)) :
    ∀ {state : List SoftConstraint × List Dict}, (state.2.isEmpty = true → state.1 = soft) →
      (pairs.foldl (addNeighbours implicated contexts) state).2.isEmpty = true →
        (pairs.foldl (addNeighbours implicated contexts) state).1 = soft := by
  induction pairs with
  | nil => exact fun h => h
  | cons pair pairs ih =>
    intro state h
    refine ih ?_
    rw [addNeighbours]
    split_ifs
    · exact h
    · exact h
    · exact addConstraint_changes h

variable {dag patched : TypedDAG} {plan : MetaPlan} {target : Option OptimizationTarget}
  {counterexamples : List CounterExample} {patch : Option Dict}

/-- **The direction of the patch.**  For neighbours in the order of execution of which one is
implicated and that do not run together, the returned graph orders the pair as it is executed
exactly when the graph already does, or the pair follows the order of the strings and is not
ordered the other way round.  Edges and nodes stay as they are. -/
theorem applyLevel3ConstraintPatch_direction
    (h : applyLevel3ConstraintPatch dag plan target counterexamples = .ok (patched, patch)) :
    patched.hardEdges = dag.hardEdges ∧ patched.nodes = dag.nodes ∧
      ∃ order contexts, level3PatchActionOrder plan target = .ok order ∧
        planActionExecutionContexts plan = .ok contexts ∧
        ∀ src dst, (src, dst) ∈ order.zip order.tail →
          Eligible (implicatedActionIds target counterexamples) contexts src dst →
          (OrdersPair patched.softConstraints src dst ↔
            KeepsDirection dag.softConstraints src dst) := by
  obtain ⟨order, horder, h⟩ := bind_eq_ok.1 h
  obtain ⟨contexts, hcontexts, h⟩ := bind_eq_ok.1 h
  set ordered := (order.zip order.tail).foldl
    (addNeighbours (implicatedActionIds target counterexamples) contexts)
    (dag.softConstraints, []) with hordered
  have hpatched : Patched dag.softConstraints (implicatedActionIds target counterexamples) contexts
      (order.zip order.tail) ordered.1 := by
    have hstart : Patched dag.softConstraints (implicatedActionIds target counterexamples) contexts
        [] (dag.softConstraints, ([] : List Dict)).1 := patched_start _
    simpa using patched_foldl (order.zip order.tail) hstart
  have hunchanged : ordered.2.isEmpty = true → ordered.1 = dag.softConstraints :=
    foldl_addNeighbours_changes _ fun _ => rfl
  dsimp only at h
  generalize hble : (order.filter fun a => ((actionIndex target).get? a).any fun action =>
    decide (upperProtocol action = "BLE")) = bleScope at h
  -- the constraints behind the result, with or without the rule for the Bluetooth actions
  generalize hfinal : (if 2 ≤ bleScope.length then
    addConstraint ordered (bleConstraint bleScope) bleScope else ordered) = final at h
  have horders : ∀ src dst, OrdersPair final.1 src dst ↔ OrdersPair ordered.1 src dst := by
    intro src dst
    rw [← hfinal]
    split_ifs
    · exact ordersPair_addBle
    · rfl
  have hempty : final.2.isEmpty = true → final.1 = dag.softConstraints := by
    rw [← hfinal]
    split_ifs
    · exact addConstraint_changes hunchanged
    · exact hunchanged
  have hresult : patched.hardEdges = dag.hardEdges ∧ patched.nodes = dag.nodes ∧
      patched.softConstraints = final.1 := by
    have hpair := pure_eq_ok.1 h
    split_ifs at hpair with hnone
    · obtain ⟨rfl, -⟩ := Prod.mk.inj hpair
      exact ⟨rfl, rfl, (hempty hnone).symm⟩
    · obtain ⟨rfl, -⟩ := Prod.mk.inj hpair
      exact ⟨rfl, rfl, rfl⟩
  obtain ⟨hedges, hnodes, hsoft⟩ := hresult
  refine ⟨hedges, hnodes, order, contexts, horder, hcontexts, fun src dst hmem helig => ?_⟩
  rw [hsoft, horders, hpatched.ordersPair_iff hmem helig]

/-- `b` runs before `a`, and a counterexample points at `b`. -/
def againstNames : MetaPlan where
  orderedBatches := [{ batchId := "0", parallelGroups := [["b"]] },
    { batchId := "1", parallelGroups := [["a"]] }]

def pointsAtB : CounterExample where
  counterexampleId := "cex"
  scenarioId := "s"
  violatedAssertion := "order"
  diffSummary := [("baseline_trace_prefix",
    .list [.dict [("params_abst", .dict [("action_id", .str "b")])]])]

theorem exists_patch_againstNames : ∃ result,
    applyLevel3ConstraintPatch {} againstNames none [pointsAtB] = .ok result ∧
      result.1.softConstraints.map (·.scope) = [["a", "b"]] :=
  exists_ok_of_shows (by decide +kernel)

theorem applyLevel3ConstraintPatch_direction_reversed : ∃ patched patch,
    applyLevel3ConstraintPatch {} againstNames none [pointsAtB] = .ok (patched, patch) ∧
      patched.hardEdges = [] := by
  obtain ⟨⟨patched, patch⟩, hresult, -⟩ := exists_patch_againstNames
  exact ⟨patched, patch, hresult, (applyLevel3ConstraintPatch_direction hresult).1⟩

/-- The patch of that plan has one constraint, and its scope lists `a` before `b`. -/
theorem level3Patch_reversed : ∃ patched patch contexts,
    applyLevel3ConstraintPatch {} againstNames none [pointsAtB] = .ok (patched, patch) ∧
      level3PatchActionOrder againstNames none = .ok ["b", "a"] ∧
      planActionExecutionContexts againstNames = .ok contexts ∧
      Eligible (implicatedActionIds none [pointsAtB]) contexts "b" "a" ∧
      ¬ OrdersPair patched.softConstraints "b" "a" := by
  obtain ⟨⟨patched, patch⟩, hresult, hscopes⟩ := exists_patch_againstNames
  obtain ⟨contexts, hcontexts, htogether⟩ :
      ∃ contexts, planActionExecutionContexts againstNames = .ok contexts ∧
        runTogether contexts "b" "a" = false := exists_ok_of_shows (by decide +kernel)
  refine ⟨patched, patch, contexts, hresult, by decide +kernel, hcontexts,
    ⟨.inl (by decide +kernel), htogether⟩, ?_⟩
  rintro ⟨c, hc, -, -, hsub⟩
  have hscope : c.scope ∈ [["a", "b"]] := hscopes ▸ List.mem_map_of_mem hc
  rw [List.mem_singleton.1 hscope] at hsub
  exact absurd hsub (by decide)

end FloWeaver.Trust
