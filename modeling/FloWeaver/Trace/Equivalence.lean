import FloWeaver.Lib.Runs
import FloWeaver.Trace.Order
import Mathlib.Data.Finset.Dedup
import Mathlib.Data.List.Chain

/-!
# Tolerant equality as a relation

Tolerant equality is reflexive and symmetric.  It is transitive when the windows do not depend on
where a difference falls: then two traces are tolerantly equal exactly when they agree run by run,
a run being a longest stretch of commutable operations or of one parallel scope.

* `Coherent` — when the windows of three traces are runs.
* `runwise_iff` — tolerant equality of coherent traces.
* `tolerantlyEqual_equivalence` — the laws.
-/

namespace FloWeaver.Trace

open Py Runs

variable {config : TraceCompareConfig} {base opt third : List Event}

/-- What the comparison says. -/
def TolerantlyEqual (sha1 : String → String) (config : TraceCompareConfig)
    (traceBase traceOpt : List Event) : Prop :=
  (compareTraces sha1 traceBase traceOpt config).map (·.tolerantEqual) = .ok true

theorem tolerantFrom_of_strictEqual (h : strictEqual base opt = true) (fuel : ℕ) :
    tolerantFrom config fuel base opt = .ok true := by
  induction base generalizing opt fuel with
  | nil => cases fuel <;> rfl
  | cons b base ih =>
    cases opt with
    | nil => simp [strictEqual, eqvItems] at h
    | cons o opt =>
      obtain ⟨hkey, hrest⟩ := strictEqual_cons.1 h
      cases fuel with
      | zero => rfl
      | succ fuel =>
        rw [tolerantFrom_cons_iff, if_pos hkey]
        exact ih hrest fuel

theorem length_eq_of_strictEqual (h : strictEqual base opt = true) : base.length = opt.length := by
  induction base generalizing opt with
  | nil =>
    cases opt with
    | nil => rfl
    | cons o opt => simp [strictEqual, eqvItems] at h
  | cons b base ih =>
    cases opt with
    | nil => simp [strictEqual, eqvItems] at h
    | cons o opt => rw [List.length_cons, List.length_cons, ih (strictEqual_cons.1 h).2]

theorem tolerantEqual_iff : tolerantEqual config base opt = .ok true ↔
    base.length = opt.length ∧ tolerantFrom config base.length base opt = .ok true := by
  rw [tolerantEqual]
  by_cases hlength : base.length = opt.length
  · rw [if_neg (not_not.2 hlength)]
    exact ⟨fun h => ⟨hlength, h⟩, fun h => h.2⟩
  · rw [if_pos hlength]
    exact ⟨fun h => absurd (Except.ok.inj h) Bool.false_ne_true, fun h => absurd h.1 hlength⟩

theorem tolerantEqual_of_strictEqual (h : strictEqual base opt = true) :
    tolerantEqual config base opt = .ok true :=
  tolerantEqual_iff.2 ⟨length_eq_of_strictEqual h, tolerantFrom_of_strictEqual h base.length⟩

/-- Strict equality is a case of tolerant equality. -/
theorem tolerantlyEqual_iff {sha1 : String → String} {traceBase traceOpt : List Event} :
    TolerantlyEqual sha1 config traceBase traceOpt ↔
      tolerantEqual config (traceBase.map (canonicalizeEvent sha1 config.volatileParamKeys))
        (traceOpt.map (canonicalizeEvent sha1 config.volatileParamKeys)) = .ok true := by
  rw [TolerantlyEqual, compareTraces]
  split_ifs with hstrict
  · exact ⟨fun _ => tolerantEqual_of_strictEqual hstrict, fun _ => rfl⟩
  · cases tolerantEqual config (traceBase.map (canonicalizeEvent sha1 config.volatileParamKeys))
      (traceOpt.map (canonicalizeEvent sha1 config.volatileParamKeys)) with
    | error e => exact ⟨(fun h => by cases h), fun h => by cases h⟩
    | ok verdict =>
      show Except.ok verdict = Except.ok true ↔ _
      rfl

/-! ## Symmetry -/

theorem parallelScopeForEvents_comm {b o : Event} {scopes : List (List String)}
    {scope : List String} (h : parallelScopeForEvents b o scopes = some scope) :
    ∃ scope', parallelScopeForEvents o b scopes = some scope' ∧ inScope scope' = inScope scope := by
  rw [parallelScopeForEvents] at h ⊢
  split at h
  · rename_i baseScope optScope hb ho
    split_ifs at h with hsame
    obtain rfl := Option.some.inj h
    rw [ho, hb]
    have hmem : ∀ x, x ∈ optScope ↔ x ∈ baseScope := by
      rw [sameSet, Bool.and_eq_true, List.all_eq_true, List.all_eq_true] at hsame
      exact fun x => ⟨fun hx => List.contains_iff_mem.1 (hsame.2 x hx),
        fun hx => List.contains_iff_mem.1 (hsame.1 x hx)⟩
    refine ⟨optScope, if_pos ?_, ?_⟩
    · rw [sameSet, Bool.and_comm]
      exact hsame
    · funext event
      rw [inScope, inScope, Bool.eq_iff_iff, List.contains_iff_mem, List.contains_iff_mem, hmem]
  · cases h

theorem groupedCommutationOk_symm {rules : List EquivalenceRule}
    (h : groupedCommutationOk base opt rules = true) : groupedCommutationOk opt base rules = true := by
  rw [groupedCommutationOk, List.all_eq_true] at h ⊢
  intro rule hrule
  have hwindow := h rule hrule
  rw [Bool.or_eq_true, decide_eq_true_iff] at hwindow ⊢
  exact hwindow.imp id Eq.symm

theorem WindowOk.symm {fuel : ℕ} {window : Event → Bool} {ok : List Event → List Event → Bool}
    (hok : ∀ w v, ok w v = true → ok v w = true)
    (hrest : tolerantFrom config fuel (base.dropWhile window) (opt.dropWhile window) = .ok true →
      tolerantFrom config fuel (opt.dropWhile window) (base.dropWhile window) = .ok true)
    (h : WindowOk config fuel window ok base opt) : WindowOk config fuel window ok opt base where
  hashable event he := h.hashable event ((List.mem_append.1 he).elim
    (List.mem_append_right _) (List.mem_append_left _))
  perm := h.perm.symm
  ok := hok _ _ h.ok
  rest := hrest h.rest

theorem tolerantFrom_comm (hb : ∀ event ∈ base, event.Hashable)
    (ho : ∀ event ∈ opt, event.Hashable) {fuel : ℕ}
    (h : tolerantFrom config fuel base opt = .ok true) :
    tolerantFrom config fuel opt base = .ok true := by
  induction fuel generalizing base opt with
  | zero => rfl
  | succ fuel ih =>
    cases base with
    | nil => cases opt <;> rfl
    | cons b base =>
      cases opt with
      | nil => rfl
      | cons o opt =>
        have hdrop : ∀ window : Event → Bool, tolerantFrom config fuel
            ((b :: base).dropWhile window) ((o :: opt).dropWhile window) = .ok true →
              tolerantFrom config fuel ((o :: opt).dropWhile window)
                ((b :: base).dropWhile window) = .ok true := fun window =>
          ih (fun event he => hb event ((List.dropWhile_suffix window).subset he))
            fun event he => ho event ((List.dropWhile_suffix window).subset he)
        have hbo := eventKey_eqv_iff (hb b List.mem_cons_self) (ho o List.mem_cons_self)
        have hob := eventKey_eqv_iff (ho o List.mem_cons_self) (hb b List.mem_cons_self)
        have hkeys : (eventKey o).eqv (eventKey b) = true ↔ (eventKey b).eqv (eventKey o) = true := by
          rw [hbo, hob, eq_comm]
        have hops : (config.commutes o = true ∧ config.commutes b = true ∧ o.phase = b.phase) ↔
            (config.commutes b = true ∧ config.commutes o = true ∧ b.phase = o.phase) :=
          ⟨fun h => ⟨h.2.1, h.1, h.2.2.symm⟩, fun h => ⟨h.2.1, h.1, h.2.2.symm⟩⟩
        rw [tolerantFrom_cons_iff] at h ⊢
        simp only [hkeys, hops]
        split_ifs at h ⊢ with hkey hcommute
        · exact ih (fun event he => hb event (List.mem_cons_of_mem b he))
            (fun event he => ho event (List.mem_cons_of_mem o he)) h
        · exact h.symm (fun _ _ => groupedCommutationOk_symm) (hdrop config.commutes)
        · obtain ⟨scope, hscope, hok⟩ := h
          obtain ⟨scope', hscope', hwindow⟩ := parallelScopeForEvents_comm hscope
          refine ⟨scope', hscope', ?_⟩
          rw [hwindow]
          exact hok.symm (fun _ _ _ => rfl) (hdrop (inScope scope))

/-! ## Windows that are runs -/

/-- The windows that can hold an event. -/
inductive WindowKind where
  | commuting
  | parallel (actions : Finset String)
deriving DecidableEq

/-- The window of an event; an operation that commutes is looked at first. -/
def windowKind (config : TraceCompareConfig) (event : Event) : Option WindowKind :=
  if config.commutes event = true then some .commuting
  else (parallelScope config.parallelActionScopes (eventActionId event)).map
    fun scope => .parallel scope.toFinset

/-- No two parallel scopes overlap. -/
def ScopesApart (config : TraceCompareConfig) : Prop :=
  ∀ scope ∈ parallelScopes config.parallelActionScopes,
    ∀ scope' ∈ parallelScopes config.parallelActionScopes,
      sameSet scope scope' = true ∨ scope.Disjoint scope'

/-- No event belongs both to a commutable run and to a parallel scope. -/
def OneWindow (config : TraceCompareConfig) (events : List Event) : Prop :=
  ∀ event ∈ events, config.commutes event = true →
    parallelScope config.parallelActionScopes (eventActionId event) = none

/-- Equal keys name the same action and the same groups: what is equal is written alike. -/
def WrittenAlike (config : TraceCompareConfig) (base opt : List Event) : Prop :=
  ∀ b ∈ base, ∀ o ∈ opt, (eventKey b).eqv (eventKey o) = true →
    eventActionId b = eventActionId o ∧ ∀ rule ∈ config.equivalenceRules, rule.groups = true →
      eventGroupValue b (strip rule.groupKey) = eventGroupValue o (strip rule.groupKey)

/-- Neighbouring operations that commute are of one phase. -/
def OnePhase (config : TraceCompareConfig) (events : List Event) : Prop :=
  events.IsChain fun first second =>
    config.commutes first = true → config.commutes second = true → first.phase = second.phase

/-- The windows of the events are runs of their own kind. -/
structure Coherent (config : TraceCompareConfig) (events : List Event) : Prop where
  scopesApart : ScopesApart config
  oneWindow : OneWindow config events

theorem sameSet_iff {a b : List String} : sameSet a b = true ↔ a.toFinset = b.toFinset := by
  rw [sameSet, Bool.and_eq_true, List.all_eq_true, List.all_eq_true, Finset.ext_iff]
  simp only [List.contains_iff_mem, List.mem_toFinset]
  exact ⟨fun h x => ⟨h.1 x, h.2 x⟩, fun h => ⟨fun x => (h x).1, fun x => (h x).2⟩⟩

theorem windowKind_eq_commuting {event : Event} :
    windowKind config event = some .commuting ↔ config.commutes event = true := by
  rw [windowKind]
  split_ifs with h
  · exact ⟨fun _ => h, fun _ => rfl⟩
  · refine ⟨fun hkind => ?_, fun hcommutes => absurd hcommutes h⟩
    obtain ⟨scope, -, hscope⟩ := Option.map_eq_some_iff.1 hkind
    cases hscope

theorem windowKind_eq_parallel {event : Event} {actions : Finset String} :
    windowKind config event = some (.parallel actions) ↔ config.commutes event = false ∧
      ∃ scope, parallelScope config.parallelActionScopes (eventActionId event) = some scope ∧
        scope.toFinset = actions := by
  rw [windowKind]
  split_ifs with h
  · simp [h]
  · simp [h, Option.map_eq_some_iff]

/-- The window of a scope holds the events of that kind. -/
theorem Coherent.inScope_iff {events : List Event} (h : Coherent config events)
    {scope : List String} (hscope : scope ∈ parallelScopes config.parallelActionScopes)
    {event : Event} (hevent : event ∈ events) :
    inScope scope event = true ↔ windowKind config event = some (.parallel scope.toFinset) := by
  rw [windowKind_eq_parallel, inScope, List.contains_iff_mem]
  constructor
  · intro hin
    obtain ⟨found, hfound⟩ := Option.isSome_iff_exists.1 (parallelScope_isSome hscope hin)
    obtain ⟨hmem, hfoundIn⟩ := parallelScope_eq_some hfound
    refine ⟨?_, found, hfound, ?_⟩
    · rw [Bool.eq_false_iff]
      intro hcommutes
      rw [h.oneWindow event hevent hcommutes] at hfound
      cases hfound
    · rcases h.scopesApart found hmem scope hscope with hsame | hdisjoint
      · exact sameSet_iff.1 hsame
      · exact absurd hin (hdisjoint hfoundIn)
  · rintro ⟨-, found, hfound, hsame⟩
    rw [← List.mem_toFinset, ← hsame, List.mem_toFinset]
    exact (parallelScope_eq_some hfound).2

/-- Two runs of one kind are compared as multisets, and by the rules where they commute. -/
def runsMatch (config : TraceCompareConfig) (kind : WindowKind) (w v : List Event) : Prop :=
  (w.map keyForm).Perm (v.map keyForm) ∧
    (kind = .commuting → groupedCommutationOk w v config.equivalenceRules = true)

/-- Agreement run by run. -/
abbrev RunsAlike (config : TraceCompareConfig) : List Event → List Event → Prop :=
  Runwise (windowKind config) (fun b o => keyForm b = keyForm o) (runsMatch config)

theorem groupedCommutationOk_iff {rules : List EquivalenceRule} :
    groupedCommutationOk base opt rules = true ↔
      ∀ rule ∈ rules, rule.groups = true → rule.signature base = rule.signature opt := by
  rw [groupedCommutationOk, List.all_eq_true]
  refine forall₂_congr fun rule _ => ?_
  cases rule.groups <;> simp

theorem RunsAlike.trans (h : RunsAlike config base opt) (h' : RunsAlike config opt third) :
    RunsAlike config base third := by
  refine Runwise.trans (fun hab hbc => hab.trans hbc) (fun hwv hvu => ?_) h h'
  refine ⟨hwv.1.trans hvu.1, fun hkind => groupedCommutationOk_iff.2 fun rule hrule hgroups => ?_⟩
  exact (groupedCommutationOk_iff.1 (hwv.2 hkind) rule hrule hgroups).trans
    (groupedCommutationOk_iff.1 (hvu.2 hkind) rule hrule hgroups)

/-- Equal events in front change nothing for the rules. -/
theorem groupedCommutationOk_cons {b o : Event} {rules : List EquivalenceRule} (hop : b.op = o.op)
    (hgroups : ∀ rule ∈ rules, rule.groups = true →
      eventGroupValue b (strip rule.groupKey) = eventGroupValue o (strip rule.groupKey)) :
    groupedCommutationOk (b :: base) (o :: opt) rules = true ↔
      groupedCommutationOk base opt rules = true := by
  rw [groupedCommutationOk_iff, groupedCommutationOk_iff]
  refine forall₂_congr fun rule hrule => forall_congr' fun hrule' => ?_
  rw [signature_cons, signature_cons rule o,
    signature_singleton_eq hop (hgroups rule hrule hrule'), List.append_cancel_left_eq]

theorem Coherent.mono {events events' : List Event} (h : Coherent config events)
    (hsub : ∀ event ∈ events', event ∈ events) : Coherent config events' :=
  ⟨h.scopesApart, fun event hevent => h.oneWindow event (hsub event hevent)⟩

theorem WrittenAlike.mono {base' opt' : List Event} (h : WrittenAlike config base opt)
    (hb : ∀ event ∈ base', event ∈ base) (ho : ∀ event ∈ opt', event ∈ opt) :
    WrittenAlike config base' opt' :=
  fun b hbase o hopt => h b (hb b hbase) o (ho o hopt)

theorem WrittenAlike.windowKind_eq (h : WrittenAlike config base opt) {b o : Event}
    (hb : b ∈ base) (ho : o ∈ opt) (hkey : (eventKey b).eqv (eventKey o) = true) :
    windowKind config b = windowKind config o := by
  rw [windowKind, windowKind, (h b hb o ho hkey).1, TraceCompareConfig.commutes,
    TraceCompareConfig.commutes, (eventKey_parts hkey).2.1]

/-- Two equal events in front of traces that agree run by run. -/
theorem RunsAlike.cons {b o : Event} (hb : b.Hashable) (ho : o.Hashable)
    (halike : WrittenAlike config (b :: base) (o :: opt))
    (hkey : (eventKey b).eqv (eventKey o) = true) (h : RunsAlike config base opt) :
    RunsAlike config (b :: base) (o :: opt) := by
  have hform := (eventKey_eqv_iff hb ho).1 hkey
  have hgroups := (halike b List.mem_cons_self o List.mem_cons_self hkey).2
  have hcons : ∀ kind w v, runsMatch config kind w v → runsMatch config kind (b :: w) (o :: v) := by
    intro kind w v hmatch
    refine ⟨?_, fun hkind => ?_⟩
    · rw [List.map_cons, List.map_cons, hform]
      exact hmatch.1.cons _
    · exact (groupedCommutationOk_cons (eventKey_parts hkey).2.1 hgroups).2 (hmatch.2 hkind)
  refine Runwise.cons (halike.windowKind_eq List.mem_cons_self List.mem_cons_self hkey)
    (fun _ => hform) (fun kind _ => hcons kind [] [] ⟨.nil, fun _ => ?_⟩)
    (fun kind w v _ _ _ => hcons kind w v) h
  exact groupedCommutationOk_iff.2 fun _ _ _ => rfl

/-- Two windows that the scan accepts, in front of traces that agree run by run. -/
theorem RunsAlike.window {b o : Event} {kind : WindowKind} {window : Event → Bool}
    (hwindow : ∀ event ∈ (b :: base) ++ (o :: opt),
      window event = true ↔ windowKind config event = some kind)
    (hb : window b = true) (ho : window o = true)
    (hmatch : runsMatch config kind ((b :: base).takeWhile window) ((o :: opt).takeWhile window))
    (h : RunsAlike config ((b :: base).dropWhile window) ((o :: opt).dropWhile window)) :
    RunsAlike config (b :: base) (o :: opt) := by
  have hbase : ∀ event ∈ b :: base, window event = true ↔ windowKind config event = some kind :=
    fun event he => hwindow event (List.mem_append_left _ he)
  have hopt : ∀ event ∈ o :: opt, window event = true ↔ windowKind config event = some kind :=
    fun event he => hwindow event (List.mem_append_right _ he)
  have hhead : ∀ l : List Event, (∀ event ∈ l, window event = true ↔
      windowKind config event = some kind) →
        ∀ event ∈ (l.dropWhile window).head?, windowKind config event ≠ some kind := by
    intro l hl event hevent hkind
    have hfalse := List.head?_dropWhile_eq_false event hevent
    rw [(hl event ((List.dropWhile_suffix window).subset (List.mem_of_mem_head? hevent))).2
      hkind] at hfalse
    cases hfalse
  have hrun := Runwise.run (k := kind) (w := (b :: base).takeWhile window)
    (v := (o :: opt).takeWhile window) (by rw [List.takeWhile_cons_of_pos hb]; simp)
    (by rw [List.takeWhile_cons_of_pos ho]; simp) ?_ hmatch (hhead _ hbase) (hhead _ hopt) h
  · rwa [List.takeWhile_append_dropWhile, List.takeWhile_append_dropWhile] at hrun
  · intro event he
    have hin := mem_takeWhile_append event he
    rcases List.mem_append.1 he with he | he
    · exact (hbase event ((List.takeWhile_prefix window).subset he)).1 hin
    · exact (hopt event ((List.takeWhile_prefix window).subset he)).1 hin

/-- What the scan accepts agrees run by run. -/
theorem runsAlike_of_tolerantFrom (hcoherent : Coherent config (base ++ opt))
    (halike : WrittenAlike config base opt) (hb : ∀ event ∈ base, event.Hashable)
    (ho : ∀ event ∈ opt, event.Hashable) {fuel : ℕ} (hlength : base.length = opt.length)
    (hfuel : base.length ≤ fuel) (h : tolerantFrom config fuel base opt = .ok true) :
    RunsAlike config base opt := by
  induction fuel generalizing base opt with
  | zero =>
    obtain rfl := List.length_eq_zero_iff.1 (Nat.le_zero.1 hfuel)
    obtain rfl := List.length_eq_zero_iff.1 hlength.symm
    exact .nil
  | succ fuel ih =>
    cases base with
    | nil =>
      obtain rfl := List.length_eq_zero_iff.1 hlength.symm
      exact .nil
    | cons b base =>
      cases opt with
      | nil => cases hlength
      | cons o opt =>
        have hrestFuel : base.length ≤ fuel := Nat.succ_le_succ_iff.1 hfuel
        -- what is left behind a window agrees run by run
        have hrest : ∀ {window : Event → Bool} {ok : List Event → List Event → Bool},
            window b = true → WindowOk config fuel window ok (b :: base) (o :: opt) →
              RunsAlike config ((b :: base).dropWhile window) ((o :: opt).dropWhile window) := by
          intro window ok hwindow hok
          have hbase : ∀ event ∈ (b :: base).dropWhile window, event ∈ b :: base :=
            fun event he => (List.dropWhile_suffix window).subset he
          have hopt : ∀ event ∈ (o :: opt).dropWhile window, event ∈ o :: opt :=
            fun event he => (List.dropWhile_suffix window).subset he
          refine ih (hcoherent.mono fun event he => ?_) (halike.mono hbase hopt)
            (fun event he => hb event (hbase event he)) (fun event he => ho event (hopt event he))
            (hok.length_dropWhile hlength) ?_ hok.rest
          · exact List.mem_append.2 ((List.mem_append.1 he).imp (hbase event) (hopt event))
          · rw [List.dropWhile_cons_of_pos hwindow]
            exact (List.dropWhile_suffix window).length_le.trans hrestFuel
        rw [tolerantFrom_cons_iff] at h
        split_ifs at h with hkey hcommute
        · have hbase : ∀ event ∈ base, event ∈ b :: base := fun _ => List.mem_cons_of_mem b
          have hopt : ∀ event ∈ opt, event ∈ o :: opt := fun _ => List.mem_cons_of_mem o
          refine RunsAlike.cons (hb b List.mem_cons_self) (ho o List.mem_cons_self) halike hkey ?_
          refine ih (hcoherent.mono fun event he => ?_) (halike.mono hbase hopt)
            (fun event he => hb event (hbase event he)) (fun event he => ho event (hopt event he))
            (Nat.succ_inj.1 hlength) hrestFuel h
          exact List.mem_append.2 ((List.mem_append.1 he).imp (hbase event) (hopt event))
        · exact RunsAlike.window (fun event _ => windowKind_eq_commuting.symm) hcommute.1
            hcommute.2.1 ⟨h.perm, fun _ => h.ok⟩ (hrest hcommute.1 h)
        · obtain ⟨scope, hscope, h⟩ := h
          obtain ⟨hmem, hbase, hopt⟩ := parallelScopeForEvents_eq_some hscope
          refine RunsAlike.window (fun event he => hcoherent.inScope_iff hmem he) hbase hopt
            ⟨h.perm, ?_⟩ (hrest hbase h)
          rintro ⟨⟩

/-- A window takes two longest runs of its kind whole. -/
theorem windowOk_of_runs {kind : WindowKind} {w v : List Event} {window : Event → Bool}
    {ok : List Event → List Event → Bool} {fuel : ℕ}
    (hwindow : ∀ event ∈ (w ++ base) ++ (v ++ opt),
      window event = true ↔ windowKind config event = some kind)
    (hkinds : ∀ event ∈ w ++ v, windowKind config event = some kind)
    (hbase : ∀ event ∈ base.head?, windowKind config event ≠ some kind)
    (hopt : ∀ event ∈ opt.head?, windowKind config event ≠ some kind)
    (hhash : ∀ event ∈ w ++ v, event.Hashable) (hperm : (w.map keyForm).Perm (v.map keyForm))
    (hok : ok w v = true) (hrest : tolerantFrom config fuel base opt = .ok true) :
    WindowOk config fuel window ok (w ++ base) (v ++ opt) := by
  have hw : ∀ event ∈ w, window event = true := fun event he =>
    (hwindow event (by simp [he])).2 (hkinds event (by simp [he]))
  have hv : ∀ event ∈ v, window event = true := fun event he =>
    (hwindow event (by simp [he])).2 (hkinds event (by simp [he]))
  have hb : ∀ event ∈ base.head?, window event = false := fun event he =>
    Bool.eq_false_iff.2 fun hin => hbase event he
      ((hwindow event (by simp [List.mem_of_mem_head? he])).1 hin)
  have ho : ∀ event ∈ opt.head?, window event = false := fun event he =>
    Bool.eq_false_iff.2 fun hin => hopt event he
      ((hwindow event (by simp [List.mem_of_mem_head? he])).1 hin)
  constructor
  · rwa [List.takeWhile_append_of_head hw hb, List.takeWhile_append_of_head hv ho]
  · rwa [List.takeWhile_append_of_head hw hb, List.takeWhile_append_of_head hv ho]
  · rwa [List.takeWhile_append_of_head hw hb, List.takeWhile_append_of_head hv ho]
  · rwa [List.dropWhile_append_of_head hw hb, List.dropWhile_append_of_head hv ho]

/-- The scan passes two runs that match: it skips what is equal and takes the rest as windows. -/
theorem tolerantFrom_runs {kind : WindowKind} {w v : List Event}
    (hcoherent : Coherent config ((w ++ base) ++ (v ++ opt))) (halike : WrittenAlike config w v)
    (hhash : ∀ event ∈ w ++ v, event.Hashable)
    (hkinds : ∀ event ∈ w ++ v, windowKind config event = some kind)
    (hphase : kind = .commuting → ∀ a ∈ w, ∀ b ∈ w, a.phase = b.phase)
    (hbase : ∀ event ∈ base.head?, windowKind config event ≠ some kind)
    (hopt : ∀ event ∈ opt.head?, windowKind config event ≠ some kind)
    (hmatch : runsMatch config kind w v)
    (hrest : ∀ fuel, base.length ≤ fuel → tolerantFrom config fuel base opt = .ok true)
    {fuel : ℕ} (hfuel : (w ++ base).length ≤ fuel) :
    tolerantFrom config fuel (w ++ base) (v ++ opt) = .ok true := by
  induction w generalizing v fuel with
  | nil =>
    obtain rfl : v = [] := by simpa using hmatch.1.length_eq.symm
    exact hrest fuel hfuel
  | cons x w ih =>
    obtain ⟨y, v, rfl⟩ : ∃ y v', v = y :: v' := by
      refine List.exists_cons_of_ne_nil fun hnil => ?_
      simpa [hnil] using hmatch.1.length_eq
    obtain ⟨fuel, rfl⟩ : ∃ n, fuel = n + 1 :=
      Nat.exists_eq_succ_of_ne_zero fun hzero => by simp [hzero] at hfuel
    have hx : x ∈ x :: w ++ y :: v := by simp
    have hy : y ∈ x :: w ++ y :: v := by simp
    have hrestFuel : tolerantFrom config fuel base opt = .ok true := by
      refine hrest fuel ?_
      rw [List.cons_append, List.length_cons, List.length_append] at hfuel
      omega
    rw [List.cons_append, List.cons_append, tolerantFrom_cons_iff]
    split_ifs with hkey hcommute
    · -- equal heads leave two runs that match
      have hform := (eventKey_eqv_iff (hhash x hx) (hhash y hy)).1 hkey
      have hsub : ∀ event ∈ w ++ v, event ∈ x :: w ++ y :: v := fun event he => by
        rcases List.mem_append.1 he with he | he <;> simp [he]
      refine ih (hcoherent.mono fun event he => ?_)
        (halike.mono (fun _ => List.mem_cons_of_mem x) fun _ => List.mem_cons_of_mem y)
        (fun event he => hhash event (hsub event he)) (fun event he => hkinds event (hsub event he))
        (fun hkind a ha b hb => hphase hkind a (List.mem_cons_of_mem x ha) b
          (List.mem_cons_of_mem x hb)) ⟨?_, fun hkind => ?_⟩ (Nat.succ_le_succ_iff.1 hfuel)
      · simp only [List.cons_append, List.mem_append, List.mem_cons] at he ⊢
        tauto
      · have hperm := hmatch.1
        rwa [List.map_cons, List.map_cons, hform, List.perm_cons] at hperm
      · exact (groupedCommutationOk_cons (eventKey_parts hkey).2.1
          (halike x List.mem_cons_self y List.mem_cons_self hkey).2).1 (hmatch.2 hkind)
    · obtain rfl : WindowKind.commuting = kind := Option.some.inj
        ((windowKind_eq_commuting.2 hcommute.1).symm.trans (hkinds x hx))
      exact windowOk_of_runs (fun event _ => windowKind_eq_commuting.symm) hkinds hbase hopt hhash
        hmatch.1 (hmatch.2 rfl) hrestFuel
    · cases kind with
      | commuting =>
        -- the two heads commute, and all phases in the two runs are the same
        refine absurd ⟨windowKind_eq_commuting.1 (hkinds x hx),
          windowKind_eq_commuting.1 (hkinds y hy), ?_⟩ hcommute
        obtain ⟨z, hz, hform⟩ := List.mem_map.1
          (hmatch.1.mem_iff.2 (List.mem_map_of_mem (List.mem_cons_self (a := y))))
        exact (hphase rfl x List.mem_cons_self z hz).trans (congrArg KeyForm.phase hform)
      | parallel actions =>
        obtain ⟨-, scope, hscope, hactions⟩ := windowKind_eq_parallel.1 (hkinds x hx)
        obtain ⟨-, scope', hscope', hactions'⟩ := windowKind_eq_parallel.1 (hkinds y hy)
        have hwindow : ∀ event ∈ (x :: w ++ base) ++ (y :: v ++ opt),
            inScope scope event = true ↔ windowKind config event = some (.parallel actions) :=
          fun event he => hactions ▸ hcoherent.inScope_iff (parallelScope_eq_some hscope).1 he
        refine ⟨scope, ?_, windowOk_of_runs hwindow hkinds hbase hopt hhash hmatch.1 rfl hrestFuel⟩
        rw [parallelScopeForEvents, hscope, hscope']
        exact if_pos (sameSet_iff.2 (hactions.trans hactions'.symm))

/-- Neighbours of one phase make a run of one phase. -/
theorem OnePhase.run {w : List Event} (h : OnePhase config w)
    (hcommutes : ∀ event ∈ w, config.commutes event = true) :
    ∀ a ∈ w, ∀ b ∈ w, a.phase = b.phase := by
  let samePhase : Event → Event → Prop := fun first second => first.phase = second.phase
  have htrans : Trans samePhase samePhase samePhase := ⟨Eq.trans⟩
  have hsymm : Std.Symm samePhase := ⟨fun _ _ => Eq.symm⟩
  have hchain : w.IsChain samePhase :=
    h.imp_of_mem_imp fun a b ha hb hab => hab (hcommutes a ha) (hcommutes b hb)
  intro a ha b hb
  exact List.Pairwise.forall_of_forall (R := samePhase) (fun _ _ => rfl) hchain.pairwise ha hb

/-- Traces that agree run by run are accepted. -/
theorem tolerantFrom_of_runsAlike (hcoherent : Coherent config (base ++ opt))
    (halike : WrittenAlike config base opt) (hb : ∀ event ∈ base, event.Hashable)
    (ho : ∀ event ∈ opt, event.Hashable) (hphase : OnePhase config base)
    (h : RunsAlike config base opt) :
    base.length = opt.length ∧
      ∀ fuel, base.length ≤ fuel → tolerantFrom config fuel base opt = .ok true := by
  induction h with
  | nil => exact ⟨rfl, fun fuel _ => by cases fuel <;> rfl⟩
  | @single b o base opt hkb hko hform rest ih =>
    have hbase : ∀ event ∈ base, event ∈ b :: base := fun _ => List.mem_cons_of_mem b
    have hopt : ∀ event ∈ opt, event ∈ o :: opt := fun _ => List.mem_cons_of_mem o
    obtain ⟨hlength, hrest⟩ := ih
      (hcoherent.mono fun event he => List.mem_append.2
        ((List.mem_append.1 he).imp (hbase event) (hopt event)))
      (halike.mono hbase hopt) (fun event he => hb event (hbase event he))
      (fun event he => ho event (hopt event he)) hphase.tail
    refine ⟨congrArg (· + 1) hlength, fun fuel hfuel => ?_⟩
    cases fuel with
    | zero => rfl
    | succ fuel =>
      have hkey := (eventKey_eqv_iff (hb b List.mem_cons_self) (ho o List.mem_cons_self)).2 hform
      rw [tolerantFrom_cons_iff, if_pos hkey]
      exact hrest fuel (Nat.succ_le_succ_iff.1 hfuel)
  | @run kind w v base opt hw hv hkinds hmatch hbase hopt rest ih =>
    have hsubBase : ∀ event ∈ base, event ∈ w ++ base := fun _ => List.mem_append_right w
    have hsubOpt : ∀ event ∈ opt, event ∈ v ++ opt := fun _ => List.mem_append_right v
    obtain ⟨hlength, hrest⟩ := ih
      (hcoherent.mono fun event he => List.mem_append.2
        ((List.mem_append.1 he).imp (hsubBase event) (hsubOpt event)))
      (halike.mono hsubBase hsubOpt) (fun event he => hb event (hsubBase event he))
      (fun event he => ho event (hsubOpt event he)) hphase.right_of_append
    have hlengths : w.length = v.length := by simpa using hmatch.1.length_eq
    refine ⟨by rw [List.length_append, List.length_append, hlengths, hlength], fun fuel hfuel => ?_⟩
    have hhash : ∀ event ∈ w ++ v, event.Hashable := fun event he =>
      (List.mem_append.1 he).elim (fun he => hb event (List.mem_append_left base he))
        fun he => ho event (List.mem_append_left opt he)
    refine tolerantFrom_runs hcoherent
      (halike.mono (fun _ => List.mem_append_left base) fun _ => List.mem_append_left opt)
      hhash hkinds (fun hkind => OnePhase.run hphase.left_of_append fun event he => ?_)
      hbase hopt hmatch hrest hfuel
    subst hkind
    exact windowKind_eq_commuting.1 (hkinds event (List.mem_append_left v he))

/-- Traces that are coherent are tolerantly equal when they agree run by run. -/
theorem tolerantEqual_iff_runsAlike (hcoherent : Coherent config (base ++ opt))
    (halike : WrittenAlike config base opt) (hb : ∀ event ∈ base, event.Hashable)
    (ho : ∀ event ∈ opt, event.Hashable) (hphase : OnePhase config base) :
    tolerantEqual config base opt = .ok true ↔ RunsAlike config base opt := by
  rw [tolerantEqual_iff]
  constructor
  · rintro ⟨hlength, h⟩
    exact runsAlike_of_tolerantFrom hcoherent halike hb ho hlength le_rfl h
  · intro h
    obtain ⟨hlength, hfrom⟩ := tolerantFrom_of_runsAlike hcoherent halike hb ho hphase h
    exact ⟨hlength, hfrom base.length le_rfl⟩

/-- Tolerant equality is reflexive and symmetric, and it is transitive on coherent traces whose
first one does not mix phases. -/
theorem tolerantlyEqual_equivalence (sha1 : String → String) (config : TraceCompareConfig)
    (t₁ t₂ t₃ : List Event)
    (hhash : ∀ event ∈ t₁ ++ t₂ ++ t₃,
      (canonicalizeEvent sha1 config.volatileParamKeys event).Hashable) :
    let canonical := fun trace : List Event =>
      trace.map (canonicalizeEvent sha1 config.volatileParamKeys)
    TolerantlyEqual sha1 config t₁ t₁ ∧
      (TolerantlyEqual sha1 config t₁ t₂ → TolerantlyEqual sha1 config t₂ t₁) ∧
      (Coherent config (canonical (t₁ ++ t₂ ++ t₃)) →
        WrittenAlike config (canonical (t₁ ++ t₂ ++ t₃)) (canonical (t₁ ++ t₂ ++ t₃)) →
        OnePhase config (canonical t₁) →
        TolerantlyEqual sha1 config t₁ t₂ → TolerantlyEqual sha1 config t₂ t₃ →
          TolerantlyEqual sha1 config t₁ t₃) := by
  intro canonical
  have hcanonical : ∀ trace : List Event, (∀ event ∈ trace, event ∈ t₁ ++ t₂ ++ t₃) →
      ∀ event ∈ canonical trace, event.Hashable ∧ event ∈ canonical (t₁ ++ t₂ ++ t₃) := by
    intro trace hsub event hevent
    obtain ⟨raw, hraw, rfl⟩ := List.mem_map.1 hevent
    exact ⟨hhash raw (hsub raw hraw), List.mem_map_of_mem (hsub raw hraw)⟩
  have h₁ := hcanonical t₁ fun event he => by simp [he]
  have h₂ := hcanonical t₂ fun event he => by simp [he]
  have h₃ := hcanonical t₃ fun event he => by simp [he]
  rw [tolerantlyEqual_iff, tolerantlyEqual_iff, tolerantlyEqual_iff, tolerantlyEqual_iff,
    tolerantlyEqual_iff]
  refine ⟨?_, ?_, ?_⟩
  · refine tolerantEqual_of_strictEqual ?_
    rw [strictEqual_iff (fun event he => (h₁ event he).1) fun event he => (h₁ event he).1]
  · intro h
    obtain ⟨hlength, hfrom⟩ := tolerantEqual_iff.1 h
    refine tolerantEqual_iff.2 ⟨hlength.symm, ?_⟩
    rw [← hlength]
    exact tolerantFrom_comm (fun event he => (h₁ event he).1) (fun event he => (h₂ event he).1)
      hfrom
  · intro hcoherent halike hphase h h'
    have hruns : ∀ {base opt : List Event}, (∀ event ∈ base, event.Hashable ∧
        event ∈ canonical (t₁ ++ t₂ ++ t₃)) → (∀ event ∈ opt, event.Hashable ∧
        event ∈ canonical (t₁ ++ t₂ ++ t₃)) → Coherent config (base ++ opt) ∧
          WrittenAlike config base opt := fun hb ho =>
      ⟨hcoherent.mono fun event he => (List.mem_append.1 he).elim (fun he => (hb event he).2)
        fun he => (ho event he).2,
        halike.mono (fun event he => (hb event he).2) fun event he => (ho event he).2⟩
    have hrunsAlike : ∀ {base opt : List Event}, (∀ event ∈ base, event.Hashable ∧
        event ∈ canonical (t₁ ++ t₂ ++ t₃)) → (∀ event ∈ opt, event.Hashable ∧
        event ∈ canonical (t₁ ++ t₂ ++ t₃)) → tolerantEqual config base opt = .ok true →
          RunsAlike config base opt := fun hb ho heq =>
      runsAlike_of_tolerantFrom (hruns hb ho).1 (hruns hb ho).2 (fun event he => (hb event he).1)
        (fun event he => (ho event he).1) (tolerantEqual_iff.1 heq).1 le_rfl
        (tolerantEqual_iff.1 heq).2
    refine (tolerantEqual_iff_runsAlike (hruns h₁ h₃).1 (hruns h₁ h₃).2
      (fun event he => (h₁ event he).1) (fun event he => (h₃ event he).1) hphase).2 ?_
    exact (hrunsAlike h₁ h₂ h).trans (hrunsAlike h₂ h₃ h')

/-- A write of a state in a phase. -/
def stateWrite (target phase : String) : Event where
  provider := "HA"
  op := "STATE_WRITE"
  target := target
  phase := phase

/-- A step of an action. -/
def actionStep (op target actionId : String) : Event where
  provider := "BLE"
  op := op
  target := target
  paramsAbst := [("action_id", .str actionId)]

/-- A call that is grouped by its shard. -/
def groupedCall (shard : Val) : Event where
  provider := "CLOUD"
  op := "CLOUD_HTTP_CALL"
  target := "/a"
  paramsAbst := [("shard", shard)]

/-- Three orders of three writes in one phase. -/
theorem tolerantlyEqual_equivalence_writes :
    TolerantlyEqual id {}
      [stateWrite "a" "SETUP", stateWrite "b" "SETUP", stateWrite "c" "SETUP"]
      [stateWrite "c" "SETUP", stateWrite "a" "SETUP", stateWrite "b" "SETUP"] := by
  refine (tolerantlyEqual_equivalence id {}
    [stateWrite "a" "SETUP", stateWrite "b" "SETUP", stateWrite "c" "SETUP"]
    [stateWrite "b" "SETUP", stateWrite "c" "SETUP", stateWrite "a" "SETUP"]
    [stateWrite "c" "SETUP", stateWrite "a" "SETUP", stateWrite "b" "SETUP"] ?_).2.2 ⟨?_, ?_⟩ ?_ ?_
      ?_ ?_
  · unfold Event.Hashable
    decide +kernel
  · intro scope hscope
    cases hscope
  · unfold OneWindow
    decide +kernel
  · unfold WrittenAlike
    decide +kernel
  · unfold OnePhase
    decide +kernel
  · unfold TolerantlyEqual
    decide +kernel
  · unfold TolerantlyEqual
    decide +kernel

/-- The first trace equals the second, and the second the third, but not the first the third. -/
def Intransitive (config : TraceCompareConfig) (t₁ t₂ t₃ : List Event) : Prop :=
  TolerantlyEqual id config t₁ t₂ ∧ TolerantlyEqual id config t₂ t₃ ∧
    ¬ TolerantlyEqual id config t₁ t₃

/-- Two phases in one run, an event in two windows, two scopes that overlap, and one group written
in two ways: each of them breaks the transitive law. -/
theorem tolerantlyEqual_not_transitive :
    Intransitive {} [stateWrite "a" "SETUP", stateWrite "c" "RUNTIME", stateWrite "b" "SETUP"]
        [stateWrite "b" "SETUP", stateWrite "a" "SETUP", stateWrite "c" "RUNTIME"]
        [stateWrite "a" "SETUP", stateWrite "b" "SETUP", stateWrite "c" "RUNTIME"] ∧
      Intransitive { parallelActionScopes := [["a", "b"]] }
        [actionStep "STATE_WRITE" "x" "a", actionStep "BLE_SCAN" "y" "b", stateWrite "z" "RUNTIME"]
        [actionStep "BLE_SCAN" "y" "b", actionStep "STATE_WRITE" "x" "a", stateWrite "z" "RUNTIME"]
        [actionStep "BLE_SCAN" "y" "b", stateWrite "z" "RUNTIME",
          actionStep "STATE_WRITE" "x" "a"] ∧
      Intransitive { parallelActionScopes := [["a", "b"], ["b", "c"]] }
        [actionStep "BLE_SCAN" "x" "a", actionStep "BLE_SCAN" "y" "a",
          actionStep "BLE_SCAN" "x" "b", actionStep "BLE_SCAN" "x" "c"]
        [actionStep "BLE_SCAN" "y" "a", actionStep "BLE_SCAN" "x" "a",
          actionStep "BLE_SCAN" "x" "b", actionStep "BLE_SCAN" "x" "c"]
        [actionStep "BLE_SCAN" "y" "a", actionStep "BLE_SCAN" "x" "a",
          actionStep "BLE_SCAN" "x" "c", actionStep "BLE_SCAN" "x" "b"] ∧
      Intransitive
        { commutableOps := ["STATE_WRITE", "CLOUD_HTTP_CALL"]
          equivalenceRules := [⟨"commute", ["CLOUD_HTTP_CALL"], "shard", []⟩] }
        [groupedCall (.int 1), stateWrite "z" "RUNTIME"]
        [groupedCall (.float 1 "1.0"), stateWrite "z" "RUNTIME"]
        [stateWrite "z" "RUNTIME", groupedCall (.float 1 "1.0")] := by
  unfold Intransitive TolerantlyEqual
  decide +kernel

end FloWeaver.Trace
