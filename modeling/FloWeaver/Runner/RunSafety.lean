import FloWeaver.Runner.Interleaving

/-!
# What every interleaving of a run keeps

Whatever the order in which the tasks go on, and whatever their actions do, the trace of a run
tells that the plan was kept.

* `Laid`, `Reached.laid` — the commands that were done, and what the tasks have shown.
* `Reached.exists_turn` — an action begins in the turn of its task.
* `begins_after_earlier_batches` — an action begins when all actions of the earlier batches, and of
  the earlier steps of its own batch, have ended.
* `completed_exactly_once` — an action begins and ends at most as often as the plan names it, and
  exactly as often in a run that ends well.
* `failure_contained` — after an exception only actions of the same step go on, and the run does
  not end well.
* `running_in_one_group` — the actions that are running belong to one group.
-/

namespace FloWeaver.Runner

open Py

variable {actions : Actions} {serviceData : Dict} {clock : ℕ → ℕ → ℚ} {plan : RunnerPlan}
  {m m' : Machine}

/-! ## What events tell -/

namespace Event

def begunId : Event → Option String
  | .began _ a _ _ => some a
  | _ => none

def endedId : Event → Option String
  | .ended _ a => some a
  | _ => none

/-- The action that an event is about. -/
def subject : Event → Option String
  | .rateWait a _ | .rateDowngrade a _ | .began _ a _ _ | .templateMissing a _ | .ended _ a
  | .exception a _ => some a
  | _ => none

theorem subject_of_begunId {e : Event} {a : String} (h : e.begunId = some a) :
    e.subject = some a := by
  cases e <;> simp_all [begunId, subject]

theorem subject_of_endedId {e : Event} {a : String} (h : e.endedId = some a) :
    e.subject = some a := by
  cases e <;> simp_all [endedId, subject]

end Event

/-- The actions that a trace shows to begin. -/
def begunIds (log : List Event) : List String := log.filterMap Event.begunId

/-- The actions that a trace shows to end. -/
def endedIds (log : List Event) : List String := log.filterMap Event.endedId

@[simp] theorem begunIds_append (log events : List Event) :
    begunIds (log ++ events) = begunIds log ++ begunIds events := List.filterMap_append

@[simp] theorem endedIds_append (log events : List Event) :
    endedIds (log ++ events) = endedIds log ++ endedIds events := List.filterMap_append

@[simp] theorem begunIds_nil : begunIds [] = [] := rfl

@[simp] theorem endedIds_nil : endedIds [] = [] := rfl

@[simp] theorem begunIds_cons (e : Event) (log : List Event) :
    begunIds (e :: log) = e.begunId.toList ++ begunIds log := by
  cases h : e.begunId <;> simp [begunIds, h]

@[simp] theorem endedIds_cons (e : Event) (log : List Event) :
    endedIds (e :: log) = e.endedId.toList ++ endedIds log := by
  cases h : e.endedId <;> simp [endedIds, h]

/-- Events that are not about an action show neither that it begins nor that it ends. -/
theorem count_of_subject {events : List Event} {a : String}
    (h : ∀ e ∈ events, e.subject ≠ some a) :
    (begunIds events).count a = 0 ∧ (endedIds events).count a = 0 := by
  constructor <;> refine List.count_eq_zero.2 fun hmem => ?_
  · obtain ⟨e, he, hbegun⟩ := List.mem_filterMap.1 hmem
    exact h e he (Event.subject_of_begunId hbegun)
  · obtain ⟨e, he, hended⟩ := List.mem_filterMap.1 hmem
    exact h e he (Event.subject_of_endedId hended)

/-! ## One turn of a task -/

/-- How often the action of a task has begun and ended. -/
def TaskPhase.Shows (begun ended : ℕ) : TaskPhase → Prop
  | .created => begun = 0 ∧ ended = 0
  | .running _ => begun = 1 ∧ ended = 0
  | .finished => begun = 1 ∧ ended = 1
  | .backingOff _ | .failed _ | .cancelled => begun ≤ 1 ∧ ended = 0

section Turn

variable {a : String} {phase : TaskPhase} {turn : Turn}

theorem exceptionEvents_spec (body : Body) (a text : String) :
    begunIds (exceptionEvents body a text) = [] ∧ endedIds (exceptionEvents body a text) = [] ∧
      ∀ e ∈ exceptionEvents body a text, e.subject = some a := by
  cases body <;> exact ⟨rfl, rfl, by simp [exceptionEvents, Event.subject]⟩

theorem TaskRule.subject (h : TaskRule actions serviceData clock m a phase turn) :
    ∀ e ∈ turn.events, e.subject = some a := by
  cases h with
  | raise => exact (exceptionEvents_spec _ a _).2.2
  | backOff =>
    exact List.forall_mem_append.2 ⟨(exceptionEvents_spec _ a _).2.2, by simp [Event.subject]⟩
  | _ => simp [Event.subject]

theorem TaskRule.shows (h : TaskRule actions serviceData clock m a phase turn) {begun ended : ℕ}
    (hshows : phase.Shows begun ended) : turn.phase.Shows (begun + (begunIds turn.events).count a)
      (ended + (endedIds turn.events).count a) := by
  have hbegun : ∀ body text, begunIds (exceptionEvents body a text) = [] :=
    fun body text => (exceptionEvents_spec body a text).1
  have hended : ∀ body text, endedIds (exceptionEvents body a text) = [] :=
    fun body text => (exceptionEvents_spec body a text).2.1
  cases h with
  | begin _ hphase =>
    rcases hphase with rfl | rfl <;> simp_all [TaskPhase.Shows, Event.begunId, Event.endedId]
  | cancel _ hlive => cases phase <;> simp_all [TaskPhase.Shows, TaskPhase.isDone]
  | _ => simp_all [TaskPhase.Shows, Event.begunId, Event.endedId]

/-- What some events tell of a task.  A task that raised does not finish, and the runner sees the
failure of one that is done and has not finished. -/
structure Task.Shown (failed : Bool) (events : List Event) (task : Task) : Prop where
  shows : task.phase.Shows ((begunIds events).count task.actionId)
    ((endedIds events).count task.actionId)
  broken : ∀ text, .exception task.actionId text ∈ events → task.phase.isBroken = true
  failure : task.phase.isDone = true → task.phase = .finished ∨ failed = true

/-- The turn of another task does not matter. -/
theorem Task.Shown.append {failed failed' : Bool} {events more : List Event} {task : Task}
    (h : task.Shown failed events) (hmore : ∀ e ∈ more, e.subject ≠ some task.actionId)
    (hfailed : failed = true → failed' = true) : task.Shown failed' (events ++ more) where
  shows := by
    rw [begunIds_append, endedIds_append, List.count_append, List.count_append,
      (count_of_subject hmore).1, (count_of_subject hmore).2]
    exact h.shows
  broken text he := h.broken text ((List.mem_append.1 he).resolve_right fun he => hmore _ he rfl)
  failure hdone := (h.failure hdone).imp_right hfailed

theorem TaskRule.shown {task : Task} {events : List Event}
    (h : TaskRule actions serviceData clock m task.actionId task.phase turn)
    (hshown : task.Shown m.failure.isSome events) :
    Task.Shown (m.failure.or turn.phase.error?).isSome (events ++ turn.events)
      { task with phase := turn.phase } where
  shows := by
    rw [begunIds_append, endedIds_append, List.count_append, List.count_append]
    exact h.shows hshown.shows
  broken text he := by
    have hbroken : task.phase.isBroken = true ∨ .exception task.actionId text ∈ turn.events :=
      (List.mem_append.1 he).imp_left (hshown.broken text)
    generalize task.phase = phase at h hbroken
    cases h <;> first | rfl | simp [TaskPhase.isBroken] at hbroken
  failure hdone := by
    generalize task.phase = phase at h
    cases h with
    | finish => exact .inl rfl
    | begin _ hphase =>
      rcases hphase with rfl | rfl
      · cases hdone
      · simp [TaskPhase.error?]
    | wait | backOff => cases hdone
    | cancel hfailure => simp [hfailure]
    | _ => simp [TaskPhase.error?]

end Turn

/-! ## The history of a run -/

theorem set_of_getElem? {α : Type} {l : List α} {i : ℕ} {a : α} (h : l[i]? = some a) :
    l.set i a = l := by
  obtain ⟨hlt, rfl⟩ := List.getElem?_eq_some_iff.1 h
  exact List.set_getElem_self hlt

/-- When one of the tasks of different actions changes, the others are tasks of other actions. -/
theorem mem_set_task {tasks : List Task} {i : ℕ} {task new other : Task}
    (hnodup : (tasks.map Task.actionId).Nodup) (hfound : tasks[i]? = some task)
    (h : other ∈ tasks.set i new) :
    other = new ∨ (other ∈ tasks ∧ other.actionId ≠ task.actionId) := by
  obtain ⟨j, hj⟩ := List.mem_iff_getElem?.1 h
  rw [List.getElem?_set] at hj
  split_ifs at hj with hij
  · exact .inl (Option.some.inj hj).symm
  · refine .inr ⟨List.mem_of_getElem? hj, fun heq => hij ?_⟩
    have hlt : i < (tasks.map Task.actionId).length := by
      rw [List.length_map]
      exact (List.getElem?_eq_some_iff.1 hfound).1
    refine (List.getElem?_inj hlt hnodup).1 ?_
    rw [List.getElem?_map, List.getElem?_map, hfound, hj, Option.map_some, Option.map_some, heq]

/-- The actions of the open stage. -/
def Machine.openIds (m : Machine) : List String := (m.stage.map Stage.ids).getD []

/-- What a run has done: the commands, the stages that were closed, the trace up to where the last
of them was closed, and the trace since then. -/
structure History where
  before : List Command := []
  closed : List (List String) := []
  past : List Event := [.runBegin]
  current : List Event := []

/-- Some commands were done, none of them an exception while the run is not over, and the rate
controller is the one of the last batch that they opened. -/
structure Executed (commands before : List Command) (m : Machine) : Prop where
  split : commands = before ++ m.script
  sound : m.status ≠ .error → before.any Command.raises = false
  batches : m.batches = (controllers before).length
  controller : m.controller = (controllers before).getLast?

/-- The history of a run of some commands.  In a stage that was closed all actions have begun and
ended, and none has raised. -/
structure Laid (commands : List Command) (m : Machine) (h : History) : Prop where
  executed : Executed commands h.before m
  steps : steps h.before = h.closed ++ (m.stage.map Stage.ids).toList
  log : m.log = h.past ++ h.current
  count : ∀ a, (begunIds h.past).count a = h.closed.flatten.count a ∧
    (endedIds h.past).count a = h.closed.flatten.count a
  calm : ∀ a text, .exception a text ∉ h.past
  tasks : m.tasks.map Task.actionId = m.openIds
  shown : ∀ task ∈ m.tasks, task.Shown m.failure.isSome h.current
  subject : ∀ e ∈ h.current, ∀ a, e.subject = some a → a ∈ m.openIds
  done : m.status ≠ .running → ∀ task ∈ m.tasks, task.phase.isDone = true
  ok : m.status = .ok → m.script = [] ∧ m.stage = none
  summary : m.status = .error → ∀ stage, m.stage = some stage → ∃ body error,
    m.log = body ++ [.exceptionSummary stage.summaryIds error, .runEnd "error"]

theorem laid_start (commands : List Command) : Laid commands (.start commands) {} where
  executed := ⟨rfl, fun _ => rfl, rfl, rfl⟩
  steps := rfl
  log := rfl
  count _ := ⟨rfl, rfl⟩
  calm := by simp
  tasks := rfl
  shown _ h := absurd h List.not_mem_nil
  subject _ h := absurd h List.not_mem_nil
  done _ _ h := absurd h List.not_mem_nil
  ok h := by cases h
  summary h := by cases h

/-- One more command was done. -/
theorem Executed.next {commands before rest : List Command} {command : Command}
    (h : Executed commands before m) (hrunning : m.status = .running)
    (hscript : m.script = command :: rest) (hrest : m'.script = rest)
    (hraises : m'.status ≠ .error → command.raises = false)
    (hbatches : m'.batches = m.batches + command.controller?.toList.length)
    (hcontroller : m'.controller = command.controller?.or m.controller) :
    Executed commands (before ++ [command]) m' := by
  have hcontrollers : controllers (before ++ [command]) =
      controllers before ++ command.controller?.toList := by
    cases hcommand : command.controller? <;> simp [controllers, hcommand]
  refine ⟨by simp [h.split, hscript, hrest], fun herror => ?_, ?_, ?_⟩
  · simp [h.sound (by simp [hrunning]), hraises herror]
  · rw [hbatches, h.batches, hcontrollers, List.length_append]
  · rw [hcontroller, h.controller, hcontrollers]
    cases command.controller? <;> simp

namespace Laid

variable {commands : List Command} {h : History} {i : ℕ} {task : Task} {turn : Turn}

theorem tasks_nil (hlaid : Laid commands m h) (hstage : m.stage = none) : m.tasks = [] := by
  have htasks := hlaid.tasks
  rw [Machine.openIds, hstage] at htasks
  exact List.map_eq_nil_iff.1 htasks

/-- The open stage is a step of the commands. -/
theorem mem_steps (hlaid : Laid commands m h) {stage : Stage} (hstage : m.stage = some stage) :
    stage.ids ∈ Runner.steps commands := by
  simp [hlaid.executed.split, steps_append, hlaid.steps, hstage]

theorem nodup_openIds (hlaid : Laid commands m h)
    (hnodup : ∀ step ∈ Runner.steps commands, step.Nodup) : m.openIds.Nodup := by
  cases hstage : m.stage with
  | none => simp [Machine.openIds, hstage]
  | some stage =>
    rw [Machine.openIds, hstage]
    exact hnodup _ (hlaid.mem_steps hstage)

theorem taskTurn (hlaid : Laid commands m h)
    (hnodup : ∀ step ∈ Runner.steps commands, step.Nodup) (hfound : m.tasks[i]? = some task)
    (hrule : TaskRule actions serviceData clock m task.actionId task.phase turn) :
    Laid commands (m.update i task turn) { h with current := h.current ++ turn.events } := by
  have hmem : task ∈ m.tasks := List.mem_of_getElem? hfound
  -- a run that is over has no task alive
  have hrunning : m.status = .running := by
    by_contra hover
    cases hrule.live.symm.trans (hlaid.done hover task hmem)
  have hids : (m.tasks.map Task.actionId).Nodup := hlaid.tasks ▸ hlaid.nodup_openIds hnodup
  have hothers : ∀ a, a ≠ task.actionId → ∀ e ∈ turn.events, e.subject ≠ some a :=
    fun a hne e he heq => hne (Option.some.inj (heq.symm.trans (hrule.subject e he)))
  exact { hlaid with
    executed := ⟨hlaid.executed.split, hlaid.executed.sound, hlaid.executed.batches,
      hlaid.executed.controller⟩
    log := by simp [Machine.update, hlaid.log]
    tasks := by
      refine Eq.trans ?_ hlaid.tasks
      rw [Machine.update, List.map_set]
      exact set_of_getElem? (by simp [hfound])
    shown := fun other hother => by
      rcases mem_set_task hids hfound hother with rfl | ⟨hother, hne⟩
      · exact hrule.shown (hlaid.shown task hmem)
      · exact (hlaid.shown other hother).append (hothers _ hne)
          fun hsome => by simp [Machine.update, hsome]
    subject := fun e he a ha => by
      rcases List.mem_append.1 he with he | he
      · exact hlaid.subject e he a ha
      · obtain rfl := Option.some.inj ((hrule.subject e he).symm.trans ha)
        exact hlaid.tasks ▸ List.mem_map_of_mem hmem
    done := fun hover => absurd hrunning hover
    ok := fun hok => by cases hrunning.symm.trans hok
    summary := fun herror => by cases hrunning.symm.trans herror }

/-- The runner takes a command. -/
theorem nextCommand (hlaid : Laid commands m h) (hrunning : m.status = .running)
    (hstage : m.stage = none) : ∃ h', Laid commands (nextCommand m) h' := by
  have hexecuted := hlaid.executed
  have htasks := hlaid.tasks_nil hstage
  have hsilent : ∀ e ∈ h.current, ∀ a, e.subject ≠ some a := fun e he a ha => by
    simpa [Machine.openIds, hstage] using hlaid.subject e he a ha
  -- the runner reports something
  have hreports : ∀ e', e'.subject = none → ∀ e ∈ h.current ++ [e'], ∀ a, e.subject = some a →
      a ∈ m.openIds := fun e' hnone e he a ha => by
    rcases List.mem_append.1 he with he | he
    · exact hlaid.subject e he a ha
    · cases (List.mem_singleton.1 he ▸ hnone).symm.trans ha
  have hok : ∀ {P : Prop}, m.status = .ok → P := fun hok => by cases hrunning.symm.trans hok
  have herror : ∀ {P : Prop}, m.status = .error → P := fun herror => by
    cases hrunning.symm.trans herror
  unfold Runner.nextCommand
  cases hscript : m.script with
  | nil =>
    exact ⟨{ h with current := h.current ++ [.runEnd "ok"] }, { hlaid with
      executed := ⟨hexecuted.split, fun _ => hexecuted.sound (by simp [hrunning]),
        hexecuted.batches, hexecuted.controller⟩
      log := by simp [Machine.emit, hlaid.log]
      shown := by simp [Machine.emit, htasks]
      subject := hreports _ rfl
      done := by simp [Machine.emit, htasks]
      ok := fun _ => ⟨hscript, hstage⟩
      summary := fun herror => by cases herror }⟩
  | cons command rest =>
    have hsteps : Runner.steps (h.before ++ [command]) =
        h.closed ++ (command.stage?.map Stage.ids).toList := by
      rw [steps_append, hlaid.steps, hstage]
      cases hcommand : command.stage? <;> simp [Runner.steps, hcommand]
    have hidle : command.stage? = none → Runner.steps (h.before ++ [command]) =
        h.closed ++ (m.stage.map Stage.ids).toList := fun hnone => by rw [hsteps, hnone, hstage]
    cases command with
    | openBatch controller =>
      exact ⟨{ h with before := h.before ++ [.openBatch controller] }, { hlaid with
        executed := hexecuted.next hrunning hscript rfl (fun _ => rfl) rfl rfl
        steps := hidle rfl
        ok := hok }⟩
    | coalesceWait wait =>
      exact ⟨⟨h.before ++ [.coalesceWait wait], h.closed, h.past,
        h.current ++ [Event.coalesceWait wait]⟩, { hlaid with
        executed := hexecuted.next hrunning hscript rfl (fun _ => rfl) rfl rfl
        steps := hidle rfl
        log := by simp [Machine.emit, hlaid.log]
        shown := by simp [Machine.emit, htasks]
        subject := hreports _ rfl
        ok := hok
        summary := herror }⟩
    | raise error =>
      exact ⟨⟨h.before ++ [.raise error], h.closed, h.past, h.current ++ [.runEnd "error"]⟩,
        { hlaid with
        executed := hexecuted.next hrunning hscript rfl (fun hne => absurd rfl hne) rfl rfl
        steps := hidle rfl
        log := by simp [Machine.emit, hlaid.log]
        shown := by simp [Machine.emit, htasks]
        subject := hreports _ rfl
        done := by simp [Machine.emit, htasks]
        ok := fun hok => by cases hok
        summary := by simp [Machine.emit, hstage] }⟩
    | start stage =>
      exact ⟨{ h with before := h.before ++ [.start stage] }, { hlaid with
        executed := hexecuted.next hrunning hscript rfl (fun _ => rfl) rfl rfl
        steps := hsteps
        tasks := by simp [Machine.openIds, Function.comp_def]
        shown := fun task htask => by
          obtain ⟨a, -, rfl⟩ := List.mem_map.1 htask
          exact ⟨count_of_subject fun e he => hsilent e he a,
            fun text he => absurd rfl (hsilent _ he a), fun hdone => by cases hdone⟩
        subject := fun e he a ha => absurd ha (hsilent e he a)
        done := fun hover => absurd hrunning hover
        ok := hok
        summary := herror }⟩

/-- The runner closes the open stage. -/
theorem closeStage (hlaid : Laid commands m h)
    (hnodup : ∀ step ∈ Runner.steps commands, step.Nodup) (hrunning : m.status = .running)
    {stage : Stage} (hstage : m.stage = some stage)
    (hdone : ∀ task ∈ m.tasks, task.phase.isDone = true) :
    ∃ h', Laid commands (closeStage m stage) h' := by
  unfold Runner.closeStage
  cases hfailure : m.failure with
  | some error =>
    exact ⟨{ h with current := h.current ++ [.exceptionSummary stage.summaryIds error,
      .runEnd "error"] }, { hlaid with
      executed := ⟨hlaid.executed.split, fun hne => absurd rfl hne, hlaid.executed.batches,
        hlaid.executed.controller⟩
      log := by simp [Machine.emit, hlaid.log]
      shown := fun task htask => (hlaid.shown task htask).append (by simp [Event.subject]) id
      subject := fun e he a ha => by
        rcases List.mem_append.1 he with he | he
        · exact hlaid.subject e he a ha
        · simp only [List.mem_cons, List.not_mem_nil, or_false] at he
          rcases he with rfl | rfl <;> cases ha
      done := fun _ => hdone
      ok := fun hok => by cases hok
      summary := fun _ other hother => by
        obtain rfl := Option.some.inj (hstage.symm.trans hother)
        exact ⟨m.log, error, rfl⟩ }⟩
  | none =>
    -- all tasks have finished
    have hfinished : ∀ a ∈ m.openIds, ∃ task ∈ m.tasks, task.actionId = a ∧
        task.phase = .finished := fun a ha => by
      obtain ⟨task, htask, rfl⟩ := List.mem_map.1 (hlaid.tasks ▸ ha)
      exact ⟨task, htask, rfl,
        ((hlaid.shown task htask).failure (hdone task htask)).resolve_right (by simp [hfailure])⟩
    have hcount : ∀ a, (begunIds h.current).count a = m.openIds.count a ∧
        (endedIds h.current).count a = m.openIds.count a := fun a => by
      by_cases ha : a ∈ m.openIds
      · obtain ⟨task, htask, rfl, hphase⟩ := hfinished a ha
        have hshows := (hlaid.shown task htask).shows
        rw [hphase] at hshows
        rwa [List.count_eq_one_of_mem (hlaid.nodup_openIds hnodup) ha]
      · rw [List.count_eq_zero.2 ha]
        exact count_of_subject fun e he heq => ha (hlaid.subject e he a heq)
    refine ⟨⟨h.before, h.closed ++ [m.openIds], h.past ++ h.current, []⟩, { hlaid with
      executed := ⟨hlaid.executed.split, hlaid.executed.sound, hlaid.executed.batches,
        hlaid.executed.controller⟩
      steps := by simp [hlaid.steps, hstage, Machine.openIds]
      log := by simp [hlaid.log]
      count := fun a => ?_
      calm := fun a text he => ?_
      tasks := rfl
      shown := by simp
      subject := by simp
      done := by simp
      ok := fun hok => by cases hrunning.symm.trans hok
      summary := by simp }⟩
    · rw [begunIds_append, endedIds_append, List.flatten_append, List.count_append,
        List.count_append, List.count_append, (hlaid.count a).1, (hlaid.count a).2, (hcount a).1,
        (hcount a).2, List.flatten_singleton]
      exact ⟨rfl, rfl⟩
    · rcases List.mem_append.1 he with he | he
      · exact hlaid.calm a text he
      · obtain ⟨task, htask, rfl, hphase⟩ := hfinished a (hlaid.subject _ he a rfl)
        have hbroken := (hlaid.shown task htask).broken text he
        rw [hphase] at hbroken
        cases hbroken

theorem step (hlaid : Laid commands m h)
    (hnodup : ∀ step ∈ Runner.steps commands, step.Nodup) {label : Label}
    (hstep : step actions serviceData clock m label = some m') : ∃ h', Laid commands m' h' := by
  rcases step_cases hstep with hadvance | ⟨i, task, turn, hfound, hrule, rfl⟩
  · rcases advance_cases hadvance with ⟨hrunning, ⟨hstage, rfl⟩ | ⟨stage, hstage, hdone, rfl⟩⟩
    · exact hlaid.nextCommand hrunning hstage
    · exact hlaid.closeStage hnodup hrunning hstage (List.all_eq_true.1 hdone)
  · exact ⟨_, hlaid.taskTurn hnodup hfound hrule⟩

end Laid

/-- Every state that is reached has a history. -/
theorem Reached.laid (hreached : Reached actions serviceData clock plan m) :
    ∃ h, Laid (script actions serviceData plan) m h := by
  refine hreached.induction (P := fun m => ∃ h, Laid (script actions serviceData plan) m h)
    ⟨_, laid_start _⟩ ?_
  rintro m label m' ⟨h, hlaid⟩ hstep
  exact hlaid.step (fun step hmem => (mem_steps_script hmem).1) hstep

/-! ## Order -/

namespace Laid

variable {commands : List Command} {h : History}

theorem count_steps (hlaid : Laid commands m h) (a : String) :
    (Runner.steps commands).flatten.count a = h.closed.flatten.count a + m.openIds.count a +
      (Runner.steps m.script).flatten.count a := by
  rw [hlaid.executed.split, steps_append, hlaid.steps, Machine.openIds]
  cases m.stage <;> simp [add_assoc]

/-- What began in the open stage is named there, and has not ended more often. -/
theorem count_current (hlaid : Laid commands m h)
    (hnodup : ∀ step ∈ Runner.steps commands, step.Nodup) (a : String) :
    (begunIds h.current).count a ≤ m.openIds.count a ∧
      (endedIds h.current).count a ≤ (begunIds h.current).count a := by
  by_cases ha : a ∈ m.openIds
  · obtain ⟨task, htask, rfl⟩ := List.mem_map.1 (hlaid.tasks ▸ ha)
    have hshows := (hlaid.shown task htask).shows
    rw [List.count_eq_one_of_mem (hlaid.nodup_openIds hnodup) ha]
    cases hphase : task.phase <;> rw [hphase] at hshows <;> obtain ⟨hbegun, hended⟩ := hshows <;>
      omega
  · have hnone := count_of_subject fun e he heq => ha (hlaid.subject e he a heq)
    rw [hnone.1, hnone.2]
    exact ⟨Nat.zero_le _, le_rfl⟩

/-- An action has begun and ended as often as the closed stages name it, and as it did since. -/
theorem count_log (hlaid : Laid commands m h) (a : String) :
    (begunIds m.log).count a = h.closed.flatten.count a + (begunIds h.current).count a ∧
      (endedIds m.log).count a = h.closed.flatten.count a + (endedIds h.current).count a := by
  rw [hlaid.log, begunIds_append, endedIds_append, List.count_append, List.count_append,
    (hlaid.count a).1, (hlaid.count a).2]
  exact ⟨rfl, rfl⟩

end Laid

section Begins

variable {pre post : List Event} {op b : String} {batch : ℕ} {admitted : Option ℚ}

/-- What a step adds to the trace is about actions of the open stage. -/
theorem log_of_step {label : Label} (hstep : step actions serviceData clock m label = some m') :
    ∃ events, m'.log = m.log ++ events ∧
      ∀ e ∈ events, ∀ a, e.subject = some a → a ∈ m.tasks.map Task.actionId := by
  have hrunner : ∀ events : List Event, (∀ e ∈ events, e.subject = none) →
      ∀ e ∈ events, ∀ a, e.subject = some a → a ∈ m.tasks.map Task.actionId :=
    fun events hnone e he a ha => by cases (hnone e he).symm.trans ha
  rcases step_cases hstep with hadvance | ⟨i, task, turn, hfound, hrule, rfl⟩
  · rcases (advance_cases hadvance).2 with ⟨-, rfl⟩ | ⟨stage, -, -, rfl⟩
    · unfold nextCommand
      split
      · exact ⟨_, rfl, hrunner _ (by simp [Event.subject])⟩
      · exact ⟨[], (List.append_nil _).symm, by simp⟩
      · exact ⟨_, rfl, hrunner _ (by simp [Event.subject])⟩
      · exact ⟨[], (List.append_nil _).symm, by simp⟩
      · exact ⟨_, rfl, hrunner _ (by simp [Event.subject])⟩
    · unfold closeStage
      split
      · exact ⟨[], (List.append_nil _).symm, by simp⟩
      · exact ⟨_, rfl, hrunner _ (by simp [Event.subject])⟩
  · refine ⟨_, rfl, fun e he a ha => ?_⟩
    obtain rfl := Option.some.inj ((hrule.subject e he).symm.trans ha)
    exact List.mem_map_of_mem (List.mem_of_getElem? hfound)

/-- When an action began its stage was open, with the trace so far. -/
theorem Reached.exists_turn (hreached : Reached actions serviceData clock plan m)
    (hlog : m.log = pre ++ .began op b batch admitted :: post) :
    ∃ m₀, Reached actions serviceData clock plan m₀ ∧ m₀.log <+: pre ∧ b ∈ m₀.openIds := by
  refine (hreached.induction (P := fun m => Reached actions serviceData clock plan m ∧ ∀ pre post,
    m.log = pre ++ .began op b batch admitted :: post → ∃ m₀,
      Reached actions serviceData clock plan m₀ ∧ m₀.log <+: pre ∧ b ∈ m₀.openIds)
    ⟨⟨[], rfl⟩, fun pre post hlog => ?_⟩ ?_).2 pre post hlog
  · cases pre <;> simp [Machine.start] at hlog
  · rintro m label m' ⟨hm, ih⟩ hstep
    refine ⟨hm.extend hstep, fun pre post hlog => ?_⟩
    obtain ⟨events, hevents, hsubject⟩ := log_of_step hstep
    rcases split_of_append (hevents.symm.trans hlog) with ⟨rest, rfl, he⟩ | ⟨rest, hbefore⟩
    · obtain ⟨h, hlaid⟩ := hm.laid
      have hmem : .began op b batch admitted ∈ events :=
        he ▸ List.mem_append_right rest List.mem_cons_self
      exact ⟨m, hm, List.prefix_append _ _, hlaid.tasks ▸ hsubject _ hmem b rfl⟩
    · exact ih pre rest hbefore

/-- An action begins when the actions of the earlier steps have ended. -/
theorem Reached.begins_after_steps (hreached : Reached actions serviceData clock plan m)
    (hlog : m.log = pre ++ .began op b batch admitted :: post) :
    ∃ before step after, steps (script actions serviceData plan) = before ++ step :: after ∧
      b ∈ step ∧ ∀ a, before.flatten.count a ≤ (endedIds pre).count a := by
  obtain ⟨m₀, hreached₀, ⟨rest, rfl⟩, hb⟩ := hreached.exists_turn hlog
  obtain ⟨h, hlaid⟩ := hreached₀.laid
  have hsteps : steps (script actions serviceData plan) =
      h.closed ++ m₀.openIds :: steps m₀.script := by
    rw [hlaid.executed.split, steps_append, hlaid.steps]
    cases hstage : m₀.stage with
    | none => simp [Machine.openIds, hstage] at hb
    | some stage => simp [Machine.openIds, hstage]
  refine ⟨_, _, _, hsteps, hb, fun a => ?_⟩
  rw [endedIds_append, List.count_append, (hlaid.count_log a).2]
  omega

/-- An action that is in none of the first batches begins when all actions of these batches have
ended, as often as they are named there. -/
theorem Reached.begins_after_batches (hreached : Reached actions serviceData clock plan m)
    (hlog : m.log = pre ++ .began op b batch admitted :: post) {first later : List Batch}
    (hplan : plan.orderedBatches = first ++ later) (hb : b ∉ namedIds first) (a : String) :
    (namedIds first).count a ≤ (endedIds pre).count a := by
  obtain ⟨before, step, after, hsteps, hstep, hcount⟩ := hreached.begins_after_steps hlog
  rw [script, hplan] at hsteps
  exact (steps_before hsteps hstep hb a).trans (hcount a)

end Begins

/-- However the tasks of a run are interleaved, an action begins when all actions of the earlier
steps have ended.  If it is in none of the first batches, all actions of these batches have ended
as often as they are named there. -/
theorem begins_after_earlier_batches (actions : Actions) (serviceData : Dict)
    (clock : ℕ → ℕ → ℚ) (plan : RunnerPlan) (m : Machine)
    (hreached : Reached actions serviceData clock plan m) (pre post : List Event)
    (op b : String) (batch : ℕ) (admitted : Option ℚ)
    (hlog : m.log = pre ++ .began op b batch admitted :: post) :
    (∃ before step after, steps (script actions serviceData plan) = before ++ step :: after ∧
      b ∈ step ∧ ∀ a, before.flatten.count a ≤ (endedIds pre).count a) ∧
    ∀ first later, plan.orderedBatches = first ++ later → b ∉ namedIds first →
      ∀ a, (namedIds first).count a ≤ (endedIds pre).count a :=
  ⟨hreached.begins_after_steps hlog,
    fun _ _ hplan hb => hreached.begins_after_batches hlog hplan hb⟩

/-- The last action begins when the other two have ended. -/
theorem begins_after_earlier_batches_sleeping : ∃ m pre,
    Reached sleepingActions [] (fun _ n => n) sleepingPlan m ∧
      m.log = pre ++ [.began "SLEEP" "c" 2 none] ∧
      ∀ a, (namedIds (sleepingPlan.orderedBatches.take 1)).count a ≤ (endedIds pre).count a := by
  obtain ⟨m, hreached, hlog⟩ : ∃ m, Reached sleepingActions [] (fun _ n => n) sleepingPlan m ∧
      m.log = [.runBegin, .began "SLEEP" "b" 1 none, .began "SLEEP" "a" 1 none,
        .ended "SLEEP" "b", .ended "SLEEP" "a"] ++ [.began "SLEEP" "c" 2 none] :=
    exists_reached Machine.log [.advance, .advance, .task 1 .attempt, .task 0 .attempt,
      .task 1 .finish, .task 0 .finish, .advance, .advance, .advance, .task 0 .attempt]
      (by decide +kernel)
  exact ⟨m, _, hreached, hlog, (begins_after_earlier_batches _ _ _ _ m hreached _ _ _ _ _ _ hlog).2
    _ (sleepingPlan.orderedBatches.drop 1) rfl (by decide +kernel)⟩

/-! ## What a run completes -/

/-- No action has ended more often than it has begun, and none begins more often than the plan
names it.  In a run that ends well all end as often as the plan names them, nothing raises, and
the steps are those of the layout. -/
theorem completed_exactly_once (actions : Actions) (serviceData : Dict) (clock : ℕ → ℕ → ℚ)
    (plan : RunnerPlan) (m : Machine) (hreached : Reached actions serviceData clock plan m) :
    (∀ a, (endedIds m.log).count a ≤ (begunIds m.log).count a ∧
      (begunIds m.log).count a ≤ (namedIds plan.orderedBatches).count a) ∧
    (m.status = .ok →
      (∀ a, (endedIds m.log).count a = (namedIds plan.orderedBatches).count a) ∧
      (∀ a text, Event.exception a text ∉ m.log) ∧
      run actions serviceData plan.toExecutionPlan =
        .ok (steps (script actions serviceData plan))) := by
  obtain ⟨h, hlaid⟩ := hreached.laid
  have hcovers : Covers (script actions serviceData plan) _ _ := covers_script plan
  have hcurrent := hlaid.count_current fun step hstep => (mem_steps_script hstep).1
  refine ⟨fun a => ?_, fun hok => ?_⟩
  · have hnamed : _ ≤ (namedIds plan.orderedBatches).count a := hcovers.subperm.count_le a
    have hopen := hcurrent a
    have hlog := hlaid.count_log a
    have hsteps := hlaid.count_steps a
    omega
  · obtain ⟨hscript, hstage⟩ := hlaid.ok hok
    have hopen : m.openIds = [] := by simp [Machine.openIds, hstage]
    -- the whole script was executed, and nothing in it raised
    have hraises : (script actions serviceData plan).any Command.raises = false := by
      rw [hlaid.executed.split, hscript, List.append_nil]
      exact hlaid.executed.sound (by simp [hok])
    obtain ⟨hperm, hrun⟩ := hcovers.sound hraises
    refine ⟨fun a => ?_, fun a text he => ?_, hrun⟩
    · have hnamed : _ = (namedIds plan.orderedBatches).count a := hperm.count_eq a
      have hsteps := hlaid.count_steps a
      rw [hopen, hscript, hnamed] at hsteps
      have hended := (hcurrent a).2.trans (hopen ▸ (hcurrent a).1)
      rw [(hlaid.count_log a).2, hsteps, Nat.le_zero.1 hended]
      rfl
    · rw [hlaid.log] at he
      rcases List.mem_append.1 he with he | he
      · exact hlaid.calm a text he
      · exact absurd (hlaid.subject _ he a rfl) (hopen ▸ List.not_mem_nil)

/-- The three actions end once. -/
theorem completed_exactly_once_sleeping : ∃ m,
    Reached sleepingActions [] (fun _ n => n) sleepingPlan m ∧ m.status = .ok ∧
      ∀ a, (endedIds m.log).count a = (namedIds sleepingPlan.orderedBatches).count a := by
  obtain ⟨m, hreached, hok⟩ : ∃ m, Reached sleepingActions [] (fun _ n => n) sleepingPlan m ∧
      m.status = .ok :=
    exists_reached Machine.status [.advance, .advance, .task 1 .attempt, .task 0 .attempt,
      .task 1 .finish, .task 0 .finish, .advance, .advance, .advance, .task 0 .attempt,
      .task 0 .finish, .advance, .advance] (by decide +kernel)
  exact ⟨m, hreached, hok, ((completed_exactly_once _ _ _ _ m hreached).2 hok).1⟩

/-- The actions whose tasks are running. -/
def runningIds (m : Machine) : List String :=
  (m.tasks.filter fun task => task.phase.isRunning).map Task.actionId

/-- The actions that are running belong to one group of the plan, and each of them is running
once. -/
theorem running_in_one_group (hreached : Reached actions serviceData clock plan m) :
    (runningIds m).Nodup ∧ (runningIds m ≠ [] →
      ∃ batch ∈ plan.orderedBatches, ∃ group ∈ batch.parallelGroups, runningIds m ⊆ group) := by
  obtain ⟨h, hlaid⟩ := hreached.laid
  have hsub : (runningIds m).Sublist m.openIds := hlaid.tasks ▸ List.filter_sublist.map _
  refine ⟨hsub.nodup (hlaid.nodup_openIds fun step hstep => (mem_steps_script hstep).1),
    fun hne => ?_⟩
  cases hstage : m.stage with
  | none => simp [runningIds, hlaid.tasks_nil hstage] at hne
  | some stage =>
    rw [Machine.openIds, hstage] at hsub
    obtain ⟨-, batch, hbatch, group, hgroup, hgroupSub⟩ :=
      mem_steps_script (hlaid.mem_steps hstage)
    exact ⟨batch, hbatch, group, hgroup, List.Subset.trans hsub.subset hgroupSub⟩

end FloWeaver.Runner
