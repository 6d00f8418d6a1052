import FloWeaver.Trace.Keys

/-!
# The scan of two traces

The scan skips equal events, and at a difference it takes a window from both traces.  Here is
what one step accepts, and from it how two accepted traces are made: equal events one by one,
and windows that are permuted.

* `tolerantFrom_cons_iff` — one step.
* `Accepted`, `accepted_of_tolerantEqual` — the shape of two accepted traces.
* `Accepted.perm` — the events are the same up to their order.
* `Accepted.filter_keys` — events that no window can hold keep their order.
-/

namespace FloWeaver.Trace

open Py

variable {config : TraceCompareConfig}

/-- `op in commutable_ops`. -/
def TraceCompareConfig.commutes (config : TraceCompareConfig) (event : Event) : Bool :=
  config.commutableOps.contains event.op

/-- The event belongs to an action of a scope. -/
def inScope (scope : List String) (event : Event) : Bool := scope.contains (eventActionId event)

/-! ## Parallel scopes -/

/-- The scopes with two actions or more, as sets. -/
def parallelScopes (scopes : List (List String)) : List (List String) :=
  (scopes.map fun scope => ((scope.map strip).filter (· ≠ "")).dedup).filter (2 ≤ ·.length)

theorem parallelScope_eq_some {scopes : List (List String)} {actionId : String}
    {scope : List String} (h : parallelScope scopes actionId = some scope) :
    scope ∈ parallelScopes scopes ∧ actionId ∈ scope := by
  have hmem := List.mem_filter.1 (List.mem_of_getLast? h)
  simp only [Bool.and_eq_true, decide_eq_true_iff, List.contains_iff_mem] at hmem
  exact ⟨List.mem_filter.2 ⟨hmem.1, by simpa using hmem.2.1⟩, hmem.2.2⟩

/-- An action of a scope runs in parallel with others. -/
theorem parallelScope_isSome {scopes : List (List String)} {actionId : String}
    {scope : List String} (hscope : scope ∈ parallelScopes scopes) (h : actionId ∈ scope) :
    (parallelScope scopes actionId).isSome := by
  obtain ⟨hmem, hlength⟩ := List.mem_filter.1 hscope
  have hfilter : scope ∈ (scopes.map fun scope => ((scope.map strip).filter (· ≠ "")).dedup).filter
      fun scope => decide (2 ≤ scope.length) && scope.contains actionId :=
    List.mem_filter.2 ⟨hmem, by simpa [h] using hlength⟩
  rw [parallelScope, List.getLast?_isSome]
  exact List.ne_nil_of_mem hfilter

theorem parallelScopeForEvents_eq_some {b o : Event} {scopes : List (List String)}
    {scope : List String} (h : parallelScopeForEvents b o scopes = some scope) :
    scope ∈ parallelScopes scopes ∧ inScope scope b = true ∧ inScope scope o = true := by
  rw [parallelScopeForEvents] at h
  split at h
  · rename_i baseScope optScope hb ho
    split_ifs at h with hsame
    obtain rfl := Option.some.inj h
    obtain ⟨hscope, hbase⟩ := parallelScope_eq_some hb
    obtain ⟨-, hopt⟩ := parallelScope_eq_some ho
    rw [sameSet, Bool.and_eq_true, List.all_eq_true, List.all_eq_true] at hsame
    exact ⟨hscope, List.contains_iff_mem.2 hbase, hsame.2 _ hopt⟩
  · cases h

/-! ## One step -/

theorem drop_length_takeWhile {α : Type} (p : α → Bool) (l : List α) :
    l.drop (l.takeWhile p).length = l.dropWhile p := by
  induction l with
  | nil => rfl
  | cons x l ih =>
    by_cases hx : p x = true
    · rw [List.takeWhile_cons_of_pos hx, List.dropWhile_cons_of_pos hx, List.length_cons,
        List.drop_succ_cons, ih]
    · rw [List.takeWhile_cons_of_neg hx, List.dropWhile_cons_of_neg hx]
      rfl

/-- What a window must satisfy, and where the scan goes on. -/
structure WindowOk (config : TraceCompareConfig) (fuel : ℕ) (window : Event → Bool)
    (ok : List Event → List Event → Bool) (base opt : List Event) : Prop where
  hashable : ∀ event ∈ base.takeWhile window ++ opt.takeWhile window, event.Hashable
  perm : ((base.takeWhile window).map keyForm).Perm ((opt.takeWhile window).map keyForm)
  ok : ok (base.takeWhile window) (opt.takeWhile window) = true
  rest : tolerantFrom config fuel (base.dropWhile window) (opt.dropWhile window) = .ok true

theorem windowOk_iff {fuel : ℕ} (window : Event → Bool) (ok : List Event → List Event → Bool)
    {base opt : List Event} :
    (do
      if ← windowsMatch (base.takeWhile window) (opt.takeWhile window) then
        if ok (base.takeWhile window) (opt.takeWhile window) then
          tolerantFrom config fuel
            (base.drop (max (base.takeWhile window).length (opt.takeWhile window).length))
            (opt.drop (max (base.takeWhile window).length (opt.takeWhile window).length))
        else return false
      else return false) = Except.ok true ↔ WindowOk config fuel window ok base opt := by
  rw [bind_eq_ok]
  constructor
  · rintro ⟨found, hfound, h⟩
    split_ifs at h with htrue hok
    · obtain rfl := htrue
      obtain ⟨hhash, hperm⟩ := windowsMatch_iff.1 hfound
      have hlength : (base.takeWhile window).length = (opt.takeWhile window).length := by
        simpa using hperm.length_eq
      rw [hlength, max_self, drop_length_takeWhile, ← hlength, drop_length_takeWhile] at h
      exact ⟨hhash, hperm, hok, h⟩
    · cases pure_eq_ok.1 h
    · cases pure_eq_ok.1 h
  · rintro ⟨hhash, hperm, hok, hrest⟩
    have hlength : (base.takeWhile window).length = (opt.takeWhile window).length := by
      simpa using hperm.length_eq
    refine ⟨true, windowsMatch_iff.2 ⟨hhash, hperm⟩, ?_⟩
    rw [if_pos rfl, if_pos hok, hlength, max_self, drop_length_takeWhile, ← hlength,
      drop_length_takeWhile]
    exact hrest

/-- One step of the scan: equal events, a window of commutable operations, or a window of actions
that run in parallel. -/
theorem tolerantFrom_cons_iff {fuel : ℕ} {b o : Event} {base opt : List Event} :
    tolerantFrom config (fuel + 1) (b :: base) (o :: opt) = .ok true ↔
      if (eventKey b).eqv (eventKey o) = true then tolerantFrom config fuel base opt = .ok true
      else if config.commutes b = true ∧ config.commutes o = true ∧ b.phase = o.phase then
        WindowOk config fuel config.commutes
          (fun baseWindow optWindow =>
            groupedCommutationOk baseWindow optWindow config.equivalenceRules)
          (b :: base) (o :: opt)
      else ∃ scope, parallelScopeForEvents b o config.parallelActionScopes = some scope ∧
        WindowOk config fuel (inScope scope) (fun _ _ => true) (b :: base) (o :: opt) := by
  rw [tolerantFrom]
  by_cases hkey : (eventKey b).eqv (eventKey o) = true
  · simp only [hkey, if_true]
  · rw [if_neg hkey, if_neg hkey]
    by_cases hcommute : config.commutes b = true ∧ config.commutes o = true ∧ b.phase = o.phase
    · have hcond : (config.commutableOps.contains b.op && config.commutableOps.contains o.op &&
          decide (b.phase = o.phase)) = true := by
        simpa [TraceCompareConfig.commutes, and_assoc] using hcommute
      rw [if_pos hcond, if_pos hcommute]
      exact windowOk_iff config.commutes fun baseWindow optWindow =>
        groupedCommutationOk baseWindow optWindow config.equivalenceRules
    · have hcond : ¬ (config.commutableOps.contains b.op && config.commutableOps.contains o.op &&
          decide (b.phase = o.phase)) = true := by
        simpa [TraceCompareConfig.commutes, and_assoc] using hcommute
      rw [if_neg hcond, if_neg hcommute]
      cases hscope : parallelScopeForEvents b o config.parallelActionScopes with
      | none => simp
      | some scope =>
        refine (windowOk_iff (inScope scope) fun _ _ => true).trans ?_
        simp only [Option.some.injEq, exists_eq_left']

/-! ## Accepted traces -/

/-- How two accepted traces are made. -/
inductive Accepted (config : TraceCompareConfig) : List Event → List Event → Prop
  | nil : Accepted config [] []
  | same {b o : Event} {base opt : List Event} (hkey : (eventKey b).eqv (eventKey o) = true)
      (rest : Accepted config base opt) : Accepted config (b :: base) (o :: opt)
  | commuting {w v base opt : List Event}
      (hops : ∀ event ∈ w ++ v, config.commutes event = true)
      (hperm : (w.map keyForm).Perm (v.map keyForm))
      (hgroups : groupedCommutationOk w v config.equivalenceRules = true)
      (rest : Accepted config base opt) : Accepted config (w ++ base) (v ++ opt)
  | parallel {scope : List String} {w v base opt : List Event}
      (hscope : scope ∈ parallelScopes config.parallelActionScopes)
      (hactions : ∀ event ∈ w ++ v, inScope scope event = true)
      (hperm : (w.map keyForm).Perm (v.map keyForm))
      (rest : Accepted config base opt) : Accepted config (w ++ base) (v ++ opt)

theorem mem_takeWhile_append {window : Event → Bool} {base opt : List Event} :
    ∀ event ∈ base.takeWhile window ++ opt.takeWhile window, window event = true := by
  intro event h
  rcases List.mem_append.1 h with h | h <;> exact List.mem_takeWhile_imp h

/-- Behind two windows of one length the traces have one length again. -/
theorem WindowOk.length_dropWhile {fuel : ℕ} {window : Event → Bool}
    {ok : List Event → List Event → Bool} {base opt : List Event}
    (h : WindowOk config fuel window ok base opt) (hlength : base.length = opt.length) :
    (base.dropWhile window).length = (opt.dropWhile window).length := by
  have hwindows : (base.takeWhile window).length = (opt.takeWhile window).length := by
    simpa using h.perm.length_eq
  rw [← drop_length_takeWhile, ← drop_length_takeWhile, List.length_drop, List.length_drop,
    hwindows, hlength]

theorem accepted_of_tolerantFrom {fuel : ℕ} {base opt : List Event}
    (hlength : base.length = opt.length) (hfuel : base.length ≤ fuel)
    (h : tolerantFrom config fuel base opt = .ok true) : Accepted config base opt := by
  induction fuel generalizing base opt with
  | zero =>
    obtain rfl := List.length_eq_zero_iff.1 (Nat.le_zero.1 hfuel)
    obtain rfl := List.length_eq_zero_iff.1 hlength.symm
    exact .nil
  | succ fuel ih =>
    cases base with
    | nil =>
      obtain rfl := List.length_eq_zero_iff.1 hlength.symm
      exact .nil
    | cons b base =>
      cases opt with
      | nil => cases hlength
      | cons o opt =>
        have hrestLength : base.length = opt.length := Nat.succ_inj.1 hlength
        have hrestFuel : base.length ≤ fuel := Nat.succ_le_succ_iff.1 hfuel
        -- the scan goes on behind a window that holds the first event
        have hrest : ∀ {window : Event → Bool} {ok : List Event → List Event → Bool},
            window b = true → WindowOk config fuel window ok (b :: base) (o :: opt) →
              Accepted config ((b :: base).dropWhile window) ((o :: opt).dropWhile window) := by
          intro window ok hwindow hok
          refine ih (hok.length_dropWhile hlength) ?_ hok.rest
          rw [List.dropWhile_cons_of_pos hwindow]
          exact (List.dropWhile_suffix window).length_le.trans hrestFuel
        rw [tolerantFrom_cons_iff] at h
        split_ifs at h with hkey hcommute
        · exact .same hkey (ih hrestLength hrestFuel h)
        · have haccepted := Accepted.commuting mem_takeWhile_append h.perm h.ok
            (hrest hcommute.1 h)
          rwa [List.takeWhile_append_dropWhile, List.takeWhile_append_dropWhile] at haccepted
        · obtain ⟨scope, hscope, h⟩ := h
          obtain ⟨hmem, hbase, -⟩ := parallelScopeForEvents_eq_some hscope
          have haccepted := Accepted.parallel hmem mem_takeWhile_append h.perm (hrest hbase h)
          rwa [List.takeWhile_append_dropWhile, List.takeWhile_append_dropWhile] at haccepted

/-- Two traces that the comparison accepts. -/
theorem accepted_of_tolerantEqual {base opt : List Event}
    (h : tolerantEqual config base opt = .ok true) : Accepted config base opt := by
  rw [tolerantEqual] at h
  by_cases hlength : base.length = opt.length
  · rw [if_neg (not_not.2 hlength)] at h
    exact accepted_of_tolerantFrom hlength le_rfl h
  · rw [if_pos hlength] at h
    cases h

theorem strictEqual_cons {b o : Event} {base opt : List Event} :
    strictEqual (b :: base) (o :: opt) = true ↔
      (eventKey b).eqv (eventKey o) = true ∧ strictEqual base opt = true := by
  simp [strictEqual, eqvItems]

theorem accepted_of_strictEqual {base opt : List Event} (h : strictEqual base opt = true) :
    Accepted config base opt := by
  induction base generalizing opt with
  | nil =>
    cases opt with
    | nil => exact .nil
    | cons o opt => simp [strictEqual, eqvItems] at h
  | cons b base ih =>
    cases opt with
    | nil => simp [strictEqual, eqvItems] at h
    | cons o opt =>
      obtain ⟨hkey, hrest⟩ := strictEqual_cons.1 h
      exact .same hkey (ih hrest)

/-- A selection that the normal form decides takes the same events from both traces. -/
theorem perm_filter {base opt : List Event} {p : Event → Bool}
    (hperm : (base.map keyForm).Perm (opt.map keyForm))
    (hp : ∀ b ∈ base, ∀ o ∈ opt, keyForm b = keyForm o → p b = p o) :
    ((base.filter p).map keyForm).Perm ((opt.filter p).map keyForm) := by
  classical
  -- the events that the selection takes, as a set of normal forms
  let taken : KeyForm → Bool := fun form => decide (∃ o ∈ opt, keyForm o = form ∧ p o = true)
  have hopt : ∀ o ∈ opt, p o = taken (keyForm o) := by
    intro o ho
    rw [Bool.eq_iff_iff, decide_eq_true_iff]
    constructor
    · exact fun h => ⟨o, ho, rfl, h⟩
    · rintro ⟨o', ho', hform, hp'⟩
      obtain ⟨b, hb, hbo⟩ := List.mem_map.1 (hperm.mem_iff.2 (List.mem_map_of_mem ho))
      rw [← hp b hb o ho hbo, hp b hb o' ho' (hbo.trans hform.symm)]
      exact hp'
  have hbase : ∀ b ∈ base, p b = taken (keyForm b) := by
    intro b hb
    obtain ⟨o, ho, hform⟩ := List.mem_map.1 (hperm.mem_iff.1 (List.mem_map_of_mem hb))
    rw [hp b hb o ho hform.symm, hopt o ho, hform]
  rw [List.filter_congr hbase, List.filter_congr hopt]
  have hfilter := hperm.filter taken
  rwa [List.filter_map, List.filter_map] at hfilter

namespace Accepted

variable {base opt : List Event}

/-- The events are the same up to their order. -/
theorem perm (h : Accepted config base opt) (hb : ∀ event ∈ base, event.Hashable)
    (ho : ∀ event ∈ opt, event.Hashable) : (base.map keyForm).Perm (opt.map keyForm) := by
  induction h with
  | nil => exact .nil
  | @same b o base opt hkey rest ih =>
    have hform := (eventKey_eqv_iff (hb b List.mem_cons_self) (ho o List.mem_cons_self)).1 hkey
    rw [List.map_cons, List.map_cons, hform]
    exact (ih (fun event h => hb event (List.mem_cons_of_mem b h))
      fun event h => ho event (List.mem_cons_of_mem o h)).cons _
  | @commuting w v base opt hops hperm hgroups rest ih =>
    rw [List.map_append, List.map_append]
    exact hperm.append (ih (fun event h => hb event (List.mem_append_right w h))
      fun event h => ho event (List.mem_append_right v h))
  | @parallel scope w v base opt hscope hactions hperm rest ih =>
    rw [List.map_append, List.map_append]
    exact hperm.append (ih (fun event h => hb event (List.mem_append_right w h))
      fun event h => ho event (List.mem_append_right v h))

/-- Events that no window can hold, and that the key tells apart from the others, keep their
order. -/
theorem filter_keys {p : Event → Bool} (h : Accepted config base opt)
    (hkeys : ∀ b ∈ base, ∀ o ∈ opt, (eventKey b).eqv (eventKey o) = true → p b = p o)
    (hp : ∀ event ∈ base ++ opt, p event = true → config.commutes event = false ∧
      ∀ scope ∈ parallelScopes config.parallelActionScopes, inScope scope event = false) :
    strictEqual (base.filter p) (opt.filter p) = true := by
  -- a window holds none of these events
  have hwindow : ∀ {w v base opt : List Event} {window : Event → Bool},
      (∀ event ∈ w ++ v, window event = true) →
      (∀ event ∈ (w ++ base) ++ (v ++ opt), p event = true → window event = false) →
      (w ++ base).filter p = base.filter p ∧ (v ++ opt).filter p = opt.filter p := by
    intro w v base opt window hin hout
    have hnone : ∀ event ∈ w ++ v, p event ≠ true := fun event hmem hpe => by
      have hfalse := hout event (by
        rcases List.mem_append.1 hmem with hmem | hmem <;> simp [hmem]) hpe
      rw [hin event hmem] at hfalse
      cases hfalse
    rw [List.filter_append, List.filter_append,
      List.filter_eq_nil_iff.2 fun event hmem => hnone event (List.mem_append_left v hmem),
      List.filter_eq_nil_iff.2 fun event hmem => hnone event (List.mem_append_right w hmem)]
    exact ⟨rfl, rfl⟩
  induction h with
  | nil => simp [strictEqual, eqvItems]
  | @same b o base opt hkey rest ih =>
    have hrest := ih (fun x hx y hy => hkeys x (List.mem_cons_of_mem b hx) y
      (List.mem_cons_of_mem o hy)) fun event hevent => hp event (by
        rcases List.mem_append.1 hevent with hevent | hevent <;> simp [hevent])
    have hsame := hkeys b List.mem_cons_self o List.mem_cons_self hkey
    by_cases hb : p b = true
    · rw [List.filter_cons_of_pos hb, List.filter_cons_of_pos (hsame ▸ hb), strictEqual_cons]
      exact ⟨hkey, hrest⟩
    · rw [List.filter_cons_of_neg hb, List.filter_cons_of_neg (hsame ▸ hb)]
      exact hrest
  | @commuting w v base opt hops hperm hgroups rest ih =>
    obtain ⟨hbase, hopt⟩ := hwindow hops fun event hevent hpe => (hp event hevent hpe).1
    rw [hbase, hopt]
    exact ih (fun x hx y hy => hkeys x (List.mem_append_right w hx) y
      (List.mem_append_right v hy)) fun event hevent => hp event (by
        rcases List.mem_append.1 hevent with hevent | hevent <;> simp [hevent])
  | @parallel scope w v base opt hscope hactions hperm rest ih =>
    obtain ⟨hbase, hopt⟩ := hwindow hactions fun event hevent hpe =>
      (hp event hevent hpe).2 scope hscope
    rw [hbase, hopt]
    exact ih (fun x hx y hy => hkeys x (List.mem_append_right w hx) y
      (List.mem_append_right v hy)) fun event hevent => hp event (by
        rcases List.mem_append.1 hevent with hevent | hevent <;> simp [hevent])

end Accepted

end FloWeaver.Trace
