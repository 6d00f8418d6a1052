import FloWeaver.Counterexample.ResourceCheck
import FloWeaver.Counterexample.TraceProgram

/-!
# Balanced lifecycles

A trace is balanced when on every target each subscription, connection and entry is opened before
it is closed, and closed before it is opened again and before the end.

* `scanOpen`, `BalancedLifecycles` — balanced traces.
* `count_foldl_act` — the count of a resource that is never released too early.
* `foldl_pairActions` — a balanced resource is held or not, as the scan says.
* `RaisesNoAlarm` — the program of the trace, run against itself, leaves no mark and no count, and
  passes the check of the protocol.
* `raisesNoAlarm_iff` — a balanced trace raises no alarm exactly when it never unloads an entry.
-/

namespace FloWeaver.Counterexample

open Py Ir Trace

/-! ## Balanced traces -/

/-- The operations that open and close. -/
def lifecycles : List (String × String) :=
  [("SUBSCRIBE", "UNSUBSCRIBE"), ("BLE_CONNECT", "BLE_DISCONNECT"), ("ENTRY_SETUP", "ENTRY_UNLOAD")]

/-- Is an event the operation `op` on a target? -/
def isOn (op target : String) (event : Event) : Bool :=
  event.target = target && normalizeOpName event.op = op

/-- Whether a lifecycle is open at the end of a trace; nothing when it is opened twice, or closed
without being open. -/
def scanOpen (acquireOp releaseOp target : String) : Bool → List Event → Option Bool
  | isOpen, [] => some isOpen
  | isOpen, event :: events =>
      if isOn acquireOp target event then
        if isOpen then none else scanOpen acquireOp releaseOp target true events
      else if isOn releaseOp target event then
        if isOpen then scanOpen acquireOp releaseOp target false events else none
      else scanOpen acquireOp releaseOp target isOpen events

/-- Every lifecycle of every target is opened and closed in turn. -/
def BalancedLifecycles (trace : List Event) : Prop :=
  ∀ pair ∈ lifecycles, ∀ target, scanOpen pair.1 pair.2 target false trace = some false

/-- What is opened is closed. -/
theorem countP_of_scanOpen {acquireOp releaseOp target : String} {trace : List Event}
    {isOpen isOpen' : Bool} (hne : acquireOp ≠ releaseOp)
    (h : scanOpen acquireOp releaseOp target isOpen trace = some isOpen') :
    trace.countP (isOn acquireOp target) + isOpen.toNat =
      trace.countP (isOn releaseOp target) + isOpen'.toNat := by
  induction trace generalizing isOpen with
  | nil =>
    obtain rfl := Option.some.inj h
    simp
  | cons event events ih =>
    rw [scanOpen] at h
    split_ifs at h with hacquire hopen hrelease hopen
    · have hrelease : ¬ isOn releaseOp target event = true := by
        rw [isOn, Bool.and_eq_true, decide_eq_true_eq, decide_eq_true_eq] at hacquire ⊢
        exact fun hr => hne (hacquire.2.symm.trans hr.2)
      have := ih h
      rw [List.countP_cons_of_pos hacquire, List.countP_cons_of_neg hrelease]
      simp only [Bool.not_eq_true] at hopen
      simp only [hopen, Bool.toNat_true, Bool.toNat_false] at this ⊢
      omega
    · have := ih h
      rw [List.countP_cons_of_neg hacquire, List.countP_cons_of_pos hrelease]
      simp only [hopen, Bool.toNat_true, Bool.toNat_false] at this ⊢
      omega
    · rw [List.countP_cons_of_neg hacquire, List.countP_cons_of_neg hrelease]
      exact ih h

/-! ## The count of a resource -/

theorem act_acquire (payload : ResourcePayload) :
    (payload.act "acquire").count = payload.count + 1 ∧
      (payload.act "acquire").prematureRelease = payload.prematureRelease :=
  ⟨rfl, rfl⟩

theorem act_release_of_pos {payload : ResourcePayload} (h : 0 < payload.count) :
    (payload.act "release").count = payload.count - 1 ∧
      (payload.act "release").prematureRelease = payload.prematureRelease := by
  simp [ResourcePayload.act, not_le.2 h]

theorem act_release_of_nonpos {payload : ResourcePayload} (h : payload.count ≤ 0) :
    (payload.act "release").prematureRelease = true := by
  simp [ResourcePayload.act, h]

theorem act_other {payload : ResourcePayload} {action : String} (hacquire : action ≠ "acquire")
    (hrelease : action ≠ "release") : (payload.act action).count = payload.count ∧
      (payload.act action).prematureRelease = payload.prematureRelease := by
  simp [ResourcePayload.act, hacquire, hrelease]

/-- A mark stays. -/
theorem premature_foldl_act (actions : List String) {payload : ResourcePayload}
    (h : payload.prematureRelease = true) :
    (actions.foldl ResourcePayload.act payload).prematureRelease = true := by
  induction actions generalizing payload with
  | nil => exact h
  | cons action rest ih =>
    refine ih ?_
    rw [ResourcePayload.act]
    split_ifs
    · exact h
    · rfl
    · exact h
    · exact h

/-- Without a mark, the count tells acquisitions from releases. -/
theorem count_foldl_act (actions : List String) {payload : ResourcePayload}
    (h : (actions.foldl ResourcePayload.act payload).prematureRelease = false) :
    (actions.foldl ResourcePayload.act payload).count + actions.count "release" =
      payload.count + actions.count "acquire" := by
  induction actions generalizing payload with
  | nil => simp
  | cons action rest ih =>
    have hrest := ih h
    rw [List.foldl_cons]
    by_cases hacquire : action = "acquire"
    · subst hacquire
      rw [(act_acquire payload).1] at hrest
      rw [List.count_cons_self, List.count_cons_of_ne (by decide)]
      push_cast
      omega
    · by_cases hrelease : action = "release"
      · subst hrelease
        by_cases hpos : 0 < payload.count
        · rw [(act_release_of_pos hpos).1] at hrest
          rw [List.count_cons_self, List.count_cons_of_ne (by decide)]
          push_cast
          omega
        · have hmark := premature_foldl_act rest (act_release_of_nonpos (not_lt.1 hpos))
          rw [List.foldl_cons, hmark] at h
          cases h
      · rw [(act_other hacquire hrelease).1] at hrest
        rw [List.count_cons_of_ne hrelease, List.count_cons_of_ne hacquire]
        exact hrest

theorem premature_foldl_acquire {actions : List String} (h : ∀ a ∈ actions, a = "acquire")
    (payload : ResourcePayload) :
    (actions.foldl ResourcePayload.act payload).prematureRelease = payload.prematureRelease := by
  induction actions generalizing payload with
  | nil => rfl
  | cons action rest ih =>
    rw [List.foldl_cons, ih fun a ha => h a (List.mem_cons_of_mem _ ha), h action List.mem_cons_self]
    exact (act_acquire payload).2

/-- What a lifecycle does to the count of its target. -/
def pairActions (acquireOp releaseOp target : String) (event : Event) : List String :=
  if isOn acquireOp target event then ["acquire"]
  else if isOn releaseOp target event then ["release"]
  else []

/-- A lifecycle that is opened and closed in turn holds its resource once while it is open. -/
theorem foldl_pairActions {acquireOp releaseOp target : String} {trace : List Event}
    {isOpen isOpen' : Bool} {payload : ResourcePayload}
    (h : scanOpen acquireOp releaseOp target isOpen trace = some isOpen')
    (hcount : payload.count = isOpen.toNat) (hmark : payload.prematureRelease = false) :
    ((trace.flatMap (pairActions acquireOp releaseOp target)).foldl ResourcePayload.act
        payload).count = isOpen'.toNat ∧
      ((trace.flatMap (pairActions acquireOp releaseOp target)).foldl ResourcePayload.act
        payload).prematureRelease = false := by
  induction trace generalizing isOpen payload with
  | nil =>
    obtain rfl := Option.some.inj h
    exact ⟨hcount, hmark⟩
  | cons event events ih =>
    rw [scanOpen] at h
    rw [List.flatMap_cons, List.foldl_append, pairActions]
    split_ifs at h with hacquire hopen hrelease hopen
    · rw [if_pos hacquire]
      refine ih h ?_ hmark
      rw [List.foldl_cons, List.foldl_nil, (act_acquire payload).1, hcount]
      simp [hopen]
    · rw [if_neg hacquire, if_pos hrelease]
      have hpos : 0 < payload.count := by simp [hcount, hopen]
      refine ih h ?_ ?_
      · rw [List.foldl_cons, List.foldl_nil, (act_release_of_pos hpos).1, hcount]
        simp [hopen]
      · rw [List.foldl_cons, List.foldl_nil, (act_release_of_pos hpos).2, hmark]
    · rw [if_neg hacquire, if_neg hrelease]
      exact ih h hcount hmark

/-! ## The actions of the events -/

@[simp] theorem readEffect_resourceEffect (target resourceKind action key : String) :
    readEffect target (resourceEffect resourceKind action key) = (resourceKind, key, action) :=
  rfl

theorem eventActions_listener (target : String) (event : Event) :
    eventActions "listener" target event =
      pairActions "SUBSCRIBE" "UNSUBSCRIBE" target event := by
  rw [eventActions, resourceEffects, pairActions, isOn, isOn]
  generalize normalizeOpName event.op = op
  split_ifs <;> simp_all [actionsOn]

theorem eventActions_connection {target : String} {event : Event}
    (h : normalizeOpName event.op ≠ "ENTRY_UNLOAD") :
    eventActions "connection" target event =
      pairActions "BLE_CONNECT" "BLE_DISCONNECT" target event := by
  rw [eventActions, resourceEffects, pairActions, isOn, isOn]
  generalize normalizeOpName event.op = op at h
  split_ifs <;> simp_all [actionsOn]

/-- Unloading an entry releases the connection of its target, like a disconnection. -/
theorem count_eventActions_connection (target : String) (event : Event) :
    (eventActions "connection" target event).count "acquire" =
        (if isOn "BLE_CONNECT" target event then 1 else 0) ∧
      (eventActions "connection" target event).count "release" =
        (if isOn "BLE_DISCONNECT" target event then 1 else 0) +
          if isOn "ENTRY_UNLOAD" target event then 1 else 0 := by
  rw [eventActions, resourceEffects, isOn, isOn, isOn]
  generalize normalizeOpName event.op = op
  by_cases htarget : event.target = target
  · split_ifs <;> simp_all [actionsOn]
  · split_ifs <;> simp_all [actionsOn]

theorem count_connection (target : String) (trace : List Event) :
    (trace.flatMap (eventActions "connection" target)).count "acquire" =
        trace.countP (isOn "BLE_CONNECT" target) ∧
      (trace.flatMap (eventActions "connection" target)).count "release" =
        trace.countP (isOn "BLE_DISCONNECT" target) +
          trace.countP (isOn "ENTRY_UNLOAD" target) := by
  induction trace with
  | nil => simp
  | cons event rest ih =>
    have hevent := count_eventActions_connection target event
    rw [List.flatMap_cons, List.count_append, List.count_append, ih.1, ih.2, hevent.1, hevent.2,
      List.countP_cons, List.countP_cons, List.countP_cons]
    exact ⟨by omega, by omega⟩

theorem eventActions_manager {key : String} {event : Event}
    (hsetup : normalizeOpName event.op ≠ "ENTRY_SETUP")
    (hunload : normalizeOpName event.op ≠ "ENTRY_UNLOAD") :
    eventActions "manager" key event = [] := by
  rw [eventActions, resourceEffects]
  generalize normalizeOpName event.op = op at hsetup hunload
  split_ifs <;> simp_all [actionsOn]

/-- Only listeners and connections are released without unloading an entry. -/
theorem eventActions_acquire {resourceKind key : String} {event : Event}
    (hlistener : resourceKind ≠ "listener") (hconnection : resourceKind ≠ "connection")
    (hunload : normalizeOpName event.op ≠ "ENTRY_UNLOAD") :
    ∀ action ∈ eventActions resourceKind key event, action = "acquire" := by
  rw [eventActions, resourceEffects]
  generalize normalizeOpName event.op = op at hunload
  have hlistener := hlistener.symm
  have hconnection := hconnection.symm
  split_ifs <;> simp [actionsOn, *]
  rintro action (h | h) <;> exact h.2.2

/-! ## The alarm -/

/-- The end of the run of both programs. -/
def terminalConfig (baseline optimized : Side) : SymConfig where
  baseline := baseline
  optimized := optimized
  divergenceStatus := { atTerminal := true }

/-- No resource was released too early, and no listener, manager or connection is held. -/
def LeavesNothing (side : Side) : Prop :=
  (∀ resourceKind key, (payloadOf side.resourceState resourceKind key).prematureRelease = false) ∧
    ∀ resourceKind ∈ ["listener", "manager", "connection"], ∀ key,
      (payloadOf side.resourceState resourceKind key).count = 0

/-- The program of a trace, run on both sides, leaves nothing and passes the check. -/
def RaisesNoAlarm (sha1 : String → String) (config : TraceCompareConfig) (trace : List Event) :
    Prop :=
  ∃ baseline optimized,
    applyNodes (traceToIrProgram sha1 config trace "baseline")
        (traceToIrProgram sha1 config trace "baseline").order {} = .ok baseline ∧
      applyNodes (traceToIrProgram sha1 config trace "optimized")
        (traceToIrProgram sha1 config trace "optimized").order {} = .ok optimized ∧
      LeavesNothing baseline ∧ LeavesNothing optimized ∧
      (checkResourceProtocolViolation (terminalConfig baseline optimized)
        defaultResourceModel).isDivergent = false

variable {trace : List Event}

/-- Without unloading, nothing was set up. -/
theorem no_setup_of_balanced (h : BalancedLifecycles trace)
    (hunload : ∀ event ∈ trace, normalizeOpName event.op ≠ "ENTRY_UNLOAD") :
    ∀ event ∈ trace, normalizeOpName event.op ≠ "ENTRY_SETUP" := by
  intro event hevent hop
  have hcount : trace.countP (isOn "ENTRY_SETUP" event.target) + false.toNat =
      trace.countP (isOn "ENTRY_UNLOAD" event.target) + false.toNat :=
    countP_of_scanOpen (by decide) (h ("ENTRY_SETUP", "ENTRY_UNLOAD") (by decide) event.target)
  have hnone : trace.countP (isOn "ENTRY_UNLOAD" event.target) = 0 := by
    rw [List.countP_eq_zero]
    intro other hother hon
    rw [isOn, Bool.and_eq_true, decide_eq_true_eq, decide_eq_true_eq] at hon
    exact hunload other hother hon.2
  have hsome : 0 < trace.countP (isOn "ENTRY_SETUP" event.target) :=
    List.countP_pos_iff.2 ⟨event, hevent, by simp [isOn, hop]⟩
  rw [hnone, Bool.toNat_false] at hcount
  omega

/-- The counts of a balanced trace without unloading. -/
theorem leavesNothing_of_balanced (h : BalancedLifecycles trace)
    (hunload : ∀ event ∈ trace, normalizeOpName event.op ≠ "ENTRY_UNLOAD") {side : Side}
    (hstate : ∀ resourceKind key, payloadOf side.resourceState resourceKind key =
      (trace.flatMap (eventActions resourceKind key)).foldl ResourcePayload.act {}) :
    LeavesNothing side := by
  have hlistener : ∀ key, (payloadOf side.resourceState "listener" key).count = 0 ∧
      (payloadOf side.resourceState "listener" key).prematureRelease = false := by
    intro key
    rw [hstate, funext (eventActions_listener key)]
    exact foldl_pairActions (h ("SUBSCRIBE", "UNSUBSCRIBE") (by decide) key) rfl rfl
  have hconnection : ∀ key, (payloadOf side.resourceState "connection" key).count = 0 ∧
      (payloadOf side.resourceState "connection" key).prematureRelease = false := by
    intro key
    rw [hstate, List.flatMap_congr fun event hevent =>
      eventActions_connection (hunload event hevent)]
    exact foldl_pairActions (h ("BLE_CONNECT", "BLE_DISCONNECT") (by decide) key) rfl rfl
  have hmanager : ∀ key, payloadOf side.resourceState "manager" key = {} := by
    intro key
    have hnone : trace.flatMap (eventActions "manager" key) = [] :=
      List.flatMap_eq_nil_iff.2 fun event hevent =>
        eventActions_manager (no_setup_of_balanced h hunload event hevent) (hunload event hevent)
    rw [hstate, hnone]
    rfl
  constructor
  · intro resourceKind key
    by_cases hl : resourceKind = "listener"
    · rw [hl]
      exact (hlistener key).2
    · by_cases hc : resourceKind = "connection"
      · rw [hc]
        exact (hconnection key).2
      · rw [hstate, premature_foldl_acquire]
        intro action haction
        obtain ⟨event, hevent, hmem⟩ := List.mem_flatMap.1 haction
        exact eventActions_acquire hl hc (hunload event hevent) action hmem
  · intro resourceKind hkind key
    simp only [List.mem_cons, List.not_mem_nil, or_false] at hkind
    rcases hkind with rfl | rfl | rfl
    · exact (hlistener key).1
    · rw [hmanager key]
    · exact (hconnection key).1

/-- An entry that is unloaded releases a connection that is not held. -/
theorem not_leavesNothing_of_unload (h : BalancedLifecycles trace) {event : Event}
    (hevent : event ∈ trace) (hop : normalizeOpName event.op = "ENTRY_UNLOAD") {side : Side}
    (hstate : ∀ resourceKind key, payloadOf side.resourceState resourceKind key =
      (trace.flatMap (eventActions resourceKind key)).foldl ResourcePayload.act {}) :
    ¬ LeavesNothing side := by
  rintro ⟨hmarks, hcounts⟩
  have hmark := hmarks "connection" event.target
  have hzero := hcounts "connection" (by decide) event.target
  rw [hstate] at hmark hzero
  have hcount := count_foldl_act _ hmark
  rw [hzero, (count_connection event.target trace).1, (count_connection event.target trace).2]
    at hcount
  have hbalance := countP_of_scanOpen (by decide)
    (h ("BLE_CONNECT", "BLE_DISCONNECT") (by decide) event.target)
  have hsome : 0 < trace.countP (isOn "ENTRY_UNLOAD" event.target) :=
    List.countP_pos_iff.2 ⟨event, hevent, by simp [isOn, hop]⟩
  simp only [Bool.toNat_false] at hbalance
  push_cast at hcount
  simp only [zero_add] at hcount
  omega

theorem holdsRightly_of_leavesNothing {side : Side} (h : LeavesNothing side) :
    HoldsRightly defaultResourceModel side.resourceState := by
  have hzero : ∀ row ∈ defaultResourceModel.rules.rows,
      row.2.forbidOverlap = true ∨ row.2.mustRelease = true →
        row.1 ∈ ["listener", "manager", "connection"] := by decide
  refine ⟨fun row _ key => h.1 row.1 key, fun row hrow hforbid key => ?_, fun row hrow hmust key =>
    h.2 row.1 (hzero row hrow (.inr hmust)) key⟩
  rw [h.2 row.1 (hzero row hrow (.inl hforbid)) key]
  decide

/-- A balanced trace raises no alarm exactly when no entry is unloaded in it. -/
theorem raisesNoAlarm_iff (sha1 : String → String) (config : TraceCompareConfig)
    (trace : List Event) (hbalanced : BalancedLifecycles trace) :
    RaisesNoAlarm sha1 config trace ↔
      ∀ event ∈ trace, normalizeOpName event.op ≠ "ENTRY_UNLOAD" := by
  obtain ⟨baseline, hbaseline, htraceB, hstateB⟩ := applyNodes_trace sha1 config "baseline" trace
  obtain ⟨optimized, hoptimized, htraceO, hstateO⟩ :=
    applyNodes_trace sha1 config "optimized" trace
  constructor
  · rintro ⟨side, -, hside, -, hleaves, -⟩ event hevent hop
    obtain rfl := Except.ok.inj (hbaseline.symm.trans hside)
    exact not_leavesNothing_of_unload hbalanced hevent hop hstateB hleaves
  · intro hunload
    have hleavesB := leavesNothing_of_balanced hbalanced hunload hstateB
    have hleavesO := leavesNothing_of_balanced hbalanced hunload hstateO
    refine ⟨baseline, optimized, hbaseline, hoptimized, hleavesB, hleavesO, ?_⟩
    exact checkResource_same (htraceO.trans htraceB.symm)
      (fun resourceKind key => (hstateO _ _).trans (hstateB _ _).symm)
      (holdsRightly_of_leavesNothing hleavesB)

/-- An operation on an entity. -/
def opOn (op : String) : Event where
  provider := "HA"
  op := op
  target := "hub"

/-- Two operations that open and close a lifecycle make a balanced trace. -/
theorem balanced_opOn (pair : String × String) (h : pair ∈ lifecycles) :
    BalancedLifecycles [opOn pair.1, opOn pair.2] := by
  intro other hother target
  by_cases htarget : "hub" = target
  · subst htarget
    revert pair other
    decide +kernel
  · simp [scanOpen, isOn, opOn, htarget]

theorem raisesNoAlarm_iff_subscription :
    RaisesNoAlarm id {} [opOn "SUBSCRIBE", opOn "UNSUBSCRIBE"] ↔
      ∀ event ∈ [opOn "SUBSCRIBE", opOn "UNSUBSCRIBE"],
        normalizeOpName event.op ≠ "ENTRY_UNLOAD" :=
  raisesNoAlarm_iff id {} _ (balanced_opOn ("SUBSCRIBE", "UNSUBSCRIBE") (by decide))

/-- Setting up an entry and unloading it raises an alarm. -/
theorem setup_unload_alarm :
    ¬ ∀ (sha1 : String → String) (config : TraceCompareConfig) (trace : List Event),
      BalancedLifecycles trace → RaisesNoAlarm sha1 config trace := by
  intro h
  have hbalanced : BalancedLifecycles [opOn "ENTRY_SETUP", opOn "ENTRY_UNLOAD"] :=
    balanced_opOn ("ENTRY_SETUP", "ENTRY_UNLOAD") (by decide)
  obtain ⟨side, -, hside, -, hleaves, -⟩ := h id {} _ hbalanced
  obtain ⟨baseline, hbaseline, -, hstate⟩ := applyNodes_trace id {} "baseline"
    [opOn "ENTRY_SETUP", opOn "ENTRY_UNLOAD"]
  obtain rfl := Except.ok.inj (hbaseline.symm.trans hside)
  refine not_leavesNothing_of_unload hbalanced (List.mem_cons_of_mem _ List.mem_cons_self) ?_ hstate
    hleaves
  decide +kernel

end FloWeaver.Counterexample
