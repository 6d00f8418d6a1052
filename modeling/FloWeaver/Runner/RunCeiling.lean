import FloWeaver.Runner.RateCeiling
import FloWeaver.Runner.RunSafety

/-!
# The rate ceiling in the trace of a run

The tasks of a batch share its rate controller.  However they are interleaved, the controller sees
one call after the other, and every CLOUD action that begins was let through by it.

* `admissions` — who began in a batch, and when the controller let it through.
* `TaskRule.calls` — the turn of a task is some calls of the rate controller.
* `Charged`, `Reached.charged` — the controller of a batch has run some calls, and has admitted
  whom the trace shows to begin.
* `run_rate_ceiling` — so an interval of `T` seconds sees at most `burst + rate * T` of them.
-/

namespace FloWeaver.Runner

open Py TokenBucket
open RateController (Admission Call admissionTimes topRate)

variable {actions : Actions} {serviceData : Dict} {clock : ℕ → ℕ → ℚ} {plan : RunnerPlan}
  {m m' : Machine}

/-! ## Admissions -/

/-- The admission that an event of a batch tells of. -/
def Event.admission (controller : RateController) (batch : ℕ) : Event → Option Admission
  | .began _ actionId batch' (some now) =>
      if batch' = batch then
        some { time := now, buckets := controller.enforcedBucketKeys actionId }
      else none
  | _ => none

/-- Who began in a batch after the rate controller let it through. -/
def admissions (controller : RateController) (batch : ℕ) (log : List Event) : List Admission :=
  log.filterMap (Event.admission controller batch)

theorem admissions_append (controller : RateController) (batch : ℕ) (log events : List Event) :
    admissions controller batch (log ++ events) =
      admissions controller batch log ++ admissions controller batch events :=
  List.filterMap_append

/-- Only one that begins in the batch tells of an admission. -/
theorem admissions_eq_nil {controller : RateController} {batch : ℕ} {events : List Event}
    (h : ∀ e ∈ events, ∀ op a admitted, e ≠ .began op a batch admitted) :
    admissions controller batch events = [] := by
  refine List.filterMap_eq_nil_iff.2 fun e he => ?_
  unfold Event.admission
  split
  · rename_i op a batch' now
    rw [if_neg]
    rintro rfl
    exact h _ he op a (some now) rfl
  · rfl

/-! ## One turn of a task -/

section Turn

variable {controller : RateController} {a : String} {phase : TaskPhase} {turn : Turn}

theorem attempt_of_acquire {result : RateController.State × RateController.Outcome}
    (hcontroller : m.controller = some controller) (h : acquire clock m a = result) :
    controller.attempt (clock m.batches) a m.rate = result := by
  rw [← h, acquire, hcontroller]

/-- Who is let through has called the controller. -/
theorem acquire_of_admits (hcontroller : m.controller = some controller)
    {rate : RateController.State} {admitted : Option ℚ} (h : Admits clock m a rate admitted)
    (paid : List Admission) : ∃ more,
      controller.step (clock m.batches) (m.rate, paid) (.acquire a) = (rate, paid ++ more) ∧
        ∀ op, (admissions controller m.batches [.began op a m.batches admitted]).Sublist more := by
  cases admitted with
  | none =>
    refine ⟨[], ?_, fun op => List.Sublist.refl _⟩
    rw [RateController.step, attempt_of_acquire hcontroller h, List.append_nil]
  | some now =>
    refine ⟨[{ time := now, buckets := controller.enforcedBucketKeys a }], ?_, fun op => ?_⟩
    · rw [RateController.step, attempt_of_acquire hcontroller h]
    · simp [admissions, Event.admission]

/-- The turn of a task is some calls of the rate controller. -/
theorem TaskRule.calls (h : TaskRule actions serviceData clock m a phase turn)
    (hcontroller : m.controller = some controller) (paid : List Admission) :
    ∃ (calls : List Call) (more : List Admission),
      calls.foldl (controller.step (clock m.batches)) (m.rate, paid) = (turn.rate, paid ++ more) ∧
        (admissions controller m.batches turn.events).Sublist more := by
  have hsilent : begunIds turn.events = [] →
      (admissions controller m.batches turn.events).Sublist [] := fun hnone => by
    rw [admissions_eq_nil]
    rintro e he op b admitted rfl
    cases List.filterMap_eq_nil_iff.1 hnone _ he
  cases h with
  | unknown | finish | rethrow | cancel =>
    exact ⟨[], [], by rw [List.append_nil]; rfl, hsilent rfl⟩
  | raise =>
    exact ⟨[], [], by rw [List.append_nil]; rfl, hsilent (exceptionEvents_spec _ a _).1⟩
  | wait hwait =>
    refine ⟨[.acquire a], [], ?_, hsilent rfl⟩
    rw [List.foldl_cons, List.foldl_nil, RateController.step, attempt_of_acquire hcontroller hwait,
      List.append_nil]
  | refused hadmits =>
    -- the token is gone, but nothing is reported
    obtain ⟨more, hstep, -⟩ := acquire_of_admits hcontroller hadmits paid
    exact ⟨[.acquire a], more, hstep, List.nil_sublist more⟩
  | begin hadmits =>
    obtain ⟨more, hstep, hsub⟩ := acquire_of_admits hcontroller hadmits paid
    exact ⟨[.acquire a], more, hstep, hsub _⟩
  | @backOff action op text own rate report _ hown hnote =>
    obtain rfl := Option.some.inj (hown.symm.trans hcontroller)
    refine ⟨[.noteRateLimit a text], [], ?_, hsilent ?_⟩
    · rw [List.foldl_cons, List.foldl_nil, RateController.step, hnote, List.append_nil]
    · rw [begunIds_append, (exceptionEvents_spec _ a _).1]
      rfl

/-- Who begins was let through. -/
theorem TaskRule.admits (h : TaskRule actions serviceData clock m a phase turn) {op b : String}
    {batch : ℕ} {admitted : Option ℚ} (hmem : .began op b batch admitted ∈ turn.events) :
    batch = m.batches ∧ Admits clock m b turn.rate admitted := by
  cases h with
  | begin hadmits =>
    obtain ⟨-, rfl, rfl, rfl⟩ := Event.began.inj (List.mem_singleton.1 hmem)
    exact ⟨rfl, hadmits⟩
  | raise => cases List.filterMap_eq_nil_iff.1 (exceptionEvents_spec _ a _).1 _ hmem
  | backOff =>
    rcases List.mem_append.1 hmem with hmem | hmem
    · cases List.filterMap_eq_nil_iff.1 (exceptionEvents_spec _ a _).1 _ hmem
    · cases List.mem_singleton.1 hmem
  | _ => simp at hmem

/-- Only an action that is not a CLOUD action begins without a token. -/
theorem cloud_of_admits (hcontroller : m.controller = some controller)
    {rate : RateController.State} (h : Admits clock m a rate none) :
    controller.isCloudAction a = false := by
  have hattempt := attempt_of_acquire hcontroller h
  unfold RateController.attempt at hattempt
  split at hattempt
  · dsimp only at hattempt
    split at hattempt <;> cases hattempt
  · rename_i hcloud
    exact Bool.eq_false_iff.2 hcloud

end Turn

/-! ## Runs -/

/-- The controller of the batch number `k + 1` has run some calls, and has admitted whom the trace
shows to begin there; who was not asked for a token is no CLOUD action. -/
structure Charged (clock : ℕ → ℕ → ℚ) (k : ℕ) (controller : RateController) (m : Machine) :
    Prop where
  calls : ∃ calls, (admissions controller (k + 1) m.log).Sublist
      (controller.run (clock (k + 1)) calls).2 ∧
    (k + 1 = m.batches → (controller.run (clock (k + 1)) calls).1 = m.rate) ∧
    (m.batches ≤ k → calls = [])
  cloud : ∀ op a, Event.began op a (k + 1) none ∈ m.log → controller.isCloudAction a = false

theorem charged_start (clock : ℕ → ℕ → ℚ) (k : ℕ) (controller : RateController)
    (commands : List Command) : Charged clock k controller (.start commands) where
  calls := ⟨[], List.nil_sublist _, fun h => absurd h (Nat.succ_ne_zero k), fun _ => rfl⟩
  cloud op a h := by simp [Machine.start] at h

/-- The controller of the run is the one of the last batch. -/
theorem Laid.controller_eq {commands : List Command} {h : History} (hlaid : Laid commands m h)
    {k : ℕ} (hk : k + 1 = m.batches) : m.controller = (controllers commands)[k]? := by
  have happend : controllers commands = controllers h.before ++ controllers m.script := by
    rw [hlaid.executed.split]
    exact List.filterMap_append
  have hbatches := hlaid.executed.batches
  rw [hlaid.executed.controller, happend, List.getElem?_append_left (by omega),
    List.getLast?_eq_getElem?]
  congr 1
  omega

namespace Charged

variable {k : ℕ} {controller : RateController}

/-- Nothing is known anew when nobody begins in the batch and its controller is not called. -/
theorem frame (h : Charged clock k controller m) {events : List Event}
    (hlog : m'.log = m.log ++ events) (hbatches : m'.batches = m.batches)
    (hsilent : ∀ op a admitted, .began op a (k + 1) admitted ∉ events)
    (hrate : k + 1 = m.batches → m'.rate = m.rate) : Charged clock k controller m' := by
  obtain ⟨⟨calls, hsub, hstate, hnew⟩, hcloud⟩ := h
  have hnone : admissions controller (k + 1) events = [] := by
    refine admissions_eq_nil ?_
    rintro e he op a admitted rfl
    exact hsilent op a admitted he
  refine ⟨⟨calls, ?_, fun hk => ?_, fun hk => hnew (hbatches ▸ hk)⟩,
    fun op a hmem => hcloud op a ?_⟩
  · rwa [hlog, admissions_append, hnone, List.append_nil]
  · rw [hbatches] at hk
    rw [hrate hk, hstate hk]
  · rw [hlog] at hmem
    exact (List.mem_append.1 hmem).resolve_right (hsilent op a none)

theorem taskTurn (h : Charged clock k controller m)
    (hown : k + 1 = m.batches → m.controller = some controller) {i : ℕ} {task : Task} {turn : Turn}
    (hrule : TaskRule actions serviceData clock m task.actionId task.phase turn) :
    Charged clock k controller (m.update i task turn) := by
  by_cases hk : k + 1 = m.batches
  · obtain ⟨⟨calls, hsub, hstate, hnew⟩, hcloud⟩ := h
    obtain ⟨more, paid, hfold, hpaid⟩ :=
      hrule.calls (hown hk) (controller.run (clock (k + 1)) calls).2
    rw [← hstate hk, ← hk] at hfold
    have hrun : controller.run (clock (k + 1)) (calls ++ more) =
        (turn.rate, (controller.run (clock (k + 1)) calls).2 ++ paid) := by
      rw [RateController.run, List.foldl_append]
      exact hfold
    refine ⟨⟨calls ++ more, ?_, fun _ => by rw [hrun]; rfl,
      fun hle => absurd (hk.le.trans hle) (Nat.not_succ_le_self k)⟩, fun op a hmem => ?_⟩
    · rw [hrun, Machine.update, admissions_append]
      exact hsub.append (hk ▸ hpaid)
    · refine (List.mem_append.1 hmem).elim (hcloud op a) fun hmem => ?_
      exact cloud_of_admits (hown hk) (hrule.admits hmem).2
  · exact h.frame rfl rfl (fun op a admitted hmem => hk (hrule.admits hmem).1)
      fun heq => absurd heq hk

theorem advance (h : Charged clock k controller m) (hadvance : advance m = some m') :
    Charged clock k controller m' := by
  rcases (advance_cases hadvance).2 with ⟨-, rfl⟩ | ⟨stage, -, -, rfl⟩
  · unfold nextCommand
    split
    · exact h.frame rfl rfl (by simp) fun _ => rfl
    · -- the next batch begins without buckets
      obtain ⟨⟨calls, hsub, -, hnew⟩, hcloud⟩ := h
      exact ⟨⟨calls, hsub, fun heq => by rw [hnew (Nat.le_of_lt_succ heq.ge)]; rfl,
        fun hle => hnew (Nat.le_of_succ_le hle)⟩, hcloud⟩
    · exact h.frame rfl rfl (by simp) fun _ => rfl
    · exact h.frame (List.append_nil _).symm rfl (by simp) fun _ => rfl
    · exact h.frame rfl rfl (by simp) fun _ => rfl
  · unfold closeStage
    split
    · exact h.frame (List.append_nil _).symm rfl (by simp) fun _ => rfl
    · exact h.frame rfl rfl (by simp) fun _ => rfl

end Charged

/-- In every state that is reached the controller of a batch has admitted all CLOUD actions that
have begun there. -/
theorem Reached.charged (hreached : Reached actions serviceData clock plan m) {k : ℕ}
    {controller : RateController}
    (hcontroller : (controllers (script actions serviceData plan))[k]? = some controller) :
    Charged clock k controller m := by
  refine (hreached.induction (P := fun m => Reached actions serviceData clock plan m ∧
    Charged clock k controller m) ⟨⟨[], rfl⟩, charged_start clock k controller _⟩ ?_).2
  rintro m label m' ⟨hm, hcharged⟩ hstep
  refine ⟨hm.extend hstep, ?_⟩
  obtain ⟨h, hlaid⟩ := hm.laid
  rcases step_cases hstep with hadvance | ⟨i, task, turn, -, hrule, rfl⟩
  · exact hcharged.advance hadvance
  · exact hcharged.taskTurn (fun hk => (hlaid.controller_eq hk).trans hcontroller) hrule

/-- However the tasks of a run are interleaved, every CLOUD action of a batch is let through by its
rate controller before it begins, and in an interval of `T` seconds at most `burst + rate * T` of
them begin that take a token from the same bucket, where `rate` is the number of tokens in a
second. -/
theorem run_rate_ceiling (actions : Actions) (serviceData : Dict) (clock : ℕ → ℕ → ℚ)
    (hclock : ∀ k, Monotone (clock k)) (plan : RunnerPlan) (m : Machine)
    (hreached : Reached actions serviceData clock plan m) (k : ℕ) (controller : RateController)
    (hcontroller : (controllers (script actions serviceData plan))[k]? = some controller) :
    (∀ op a, Event.began op a (k + 1) none ∈ m.log → controller.isCloudAction a = false) ∧
      ∀ key t t', t ≤ t' →
        (countWithin (admissionTimes (admissions controller (k + 1) m.log) key) t t' : ℚ) ≤
          controller.burst + controller.topRate * (t' - t) := by
  obtain ⟨⟨calls, hsub, -⟩, hcloud⟩ := hreached.charged hcontroller
  refine ⟨hcloud, fun key t t' ht => ?_⟩
  have hgood : RateController.Logged controller (clock (k + 1)) _ :=
    RateController.logged_run (hclock (k + 1)) calls
  have htimes : (admissionTimes (admissions controller (k + 1) m.log) key).Sublist
      (admissionTimes (controller.run (clock (k + 1)) calls).2 key) := (hsub.filter _).map _
  refine le_trans (Nat.cast_le.2 htimes.countP_le) ?_
  cases hget : (controller.run (clock (k + 1)) calls).1.buckets.get? key with
  | some bucket => exact (hgood.ok key bucket hget).1.paid.within t t' ht
  | none =>
    rw [hgood.absent key hget]
    exact (RateController.bucketOk_newBucket controller 0).paid.within t t' ht

/-- A plan with one CLOUD action. -/
def cloudPlan : RunnerPlan where
  orderedBatches := [{ batchId := "batch_000", parallelGroups := [["a"]] }]
  nodup := by decide

def cloudActions : Actions :=
  [("a", [("protocol", .str "CLOUD"), ("exec", .dict [("kind", .str "sleep")])])]

/-- The action is let through at the first reading of the clock. -/
theorem run_rate_ceiling_cloud : ∃ m controller,
    Reached cloudActions [] (fun _ => RateController.steadyClock) cloudPlan m ∧
      Event.began "SLEEP" "a" 1 (some 0) ∈ m.log ∧
      (countWithin (admissionTimes (admissions controller 1 m.log) "global") 0 1 : ℚ) ≤
        controller.burst + controller.topRate * (1 - 0) := by
  obtain ⟨m, hreached, hlog⟩ : ∃ m,
      Reached cloudActions [] (fun _ => RateController.steadyClock) cloudPlan m ∧
        m.log = [.runBegin, .began "SLEEP" "a" 1 (some 0)] :=
    exists_reached Machine.log [.advance, .advance, .task 0 .attempt] (by decide +kernel)
  obtain ⟨controller, hcontroller⟩ := Option.isSome_iff_exists.1
    (show (controllers (script cloudActions [] cloudPlan))[0]?.isSome = true by decide +kernel)
  exact ⟨m, controller, hreached, hlog ▸ by simp,
    (run_rate_ceiling _ _ _ (fun _ => RateController.steadyClock_mono) _ m hreached 0 controller
      hcontroller).2 "global" 0 1 zero_le_one⟩

end FloWeaver.Runner
