import FloWeaver.Runner.Script

/-!
# A run of the generated runner under every interleaving

The runner goes through its script.  At a stage it creates a task for every action and awaits them
all; the tasks ask the rate controller, execute their actions and handle rate limit errors in any
order.  When a task fails the runner cancels the tasks that are still alive, awaits them, reports
the failure and ends.

* `Event` — what the run adds to its trace.
* `Machine`, `step` — the state of a run, and what the runner or one of the tasks does next.
* `Reached` — a state that some interleaving gets to.
* `TaskRule`, `rule_of_taskTurn` — what a task can do, and that it does nothing else.
* `Reached.induction` — what every step keeps holds in every state that is reached.
-/

namespace FloWeaver.Runner

open Py

/-! ## Events -/

deriving instance DecidableEq for RateController.RateWait, RateController.DowngradedBucket,
  RateController.RateDowngrade

/-- The exception of a task; the text of a Python exception is left out. -/
inductive TaskError where
  | python (e : PyErr)
  | text (error : String)
deriving DecidableEq

/-- A row of the trace.  `began` also says in which batch and, for a CLOUD action, when the rate
controller let the action through. -/
inductive Event where
  | runBegin
  | coalesceWait (wait : CoalesceWait)
  | rateWait (actionId : String) (report : RateController.RateWait)
  | rateDowngrade (actionId : String) (report : RateController.RateDowngrade)
  | began (op actionId : String) (batch : ℕ) (admitted : Option ℚ)
  | templateMissing (actionId token : String)
  | ended (op actionId : String)
  | exception (actionId error : String)
  | exceptionSummary (actionIds : List String) (error : TaskError)
  | runEnd (status : String)
deriving DecidableEq

/-! ## States -/

/-- How far the task of an action is. -/
inductive TaskPhase where
  | created
  | running (op : String)
  | backingOff (error : String)
  | finished
  | failed (error : TaskError)
  | cancelled
deriving DecidableEq

namespace TaskPhase

def isRunning : TaskPhase → Bool
  | .running _ => true
  | _ => false

/-- Will the task not finish? -/
def isBroken : TaskPhase → Bool
  | .backingOff _ | .failed _ | .cancelled => true
  | _ => false

/-- `task.done()`. -/
def isDone : TaskPhase → Bool
  | .finished | .failed _ | .cancelled => true
  | _ => false

/-- `task.exception()`. -/
def error? : TaskPhase → Option TaskError
  | .failed error => some error
  | _ => none

end TaskPhase

structure Task where
  actionId : String
  phase : TaskPhase
deriving DecidableEq

inductive RunStatus where
  | running
  | ok
  | error
deriving DecidableEq

/-- A run: the commands to come, how many batches were opened, the rate controller of the last one
with its buckets, the open stage with its tasks, the first failure and the trace. -/
structure Machine where
  script : List Command
  batches : ℕ
  controller : Option RateController
  rate : RateController.State
  stage : Option Stage
  tasks : List Task
  failure : Option TaskError
  status : RunStatus
  log : List Event

namespace Machine

def noBuckets : RateController.State := { ticks := 0, buckets := .empty }

def start (script : List Command) : Machine where
  script
  batches := 0
  controller := none
  rate := noBuckets
  stage := none
  tasks := []
  failure := none
  status := .running
  log := [.runBegin]

variable (m : Machine)

def emit (events : List Event) : Machine := { m with log := m.log ++ events }

end Machine

/-- What a task does before it waits again: what the rate controller knows then, what is reported,
and how far the task is. -/
structure Turn where
  rate : RateController.State
  events : List Event
  phase : TaskPhase

/-- A task had its turn.  The first failure is the one that the runner sees. -/
def Machine.update (m : Machine) (i : ℕ) (task : Task) (turn : Turn) : Machine :=
  { m with
    rate := turn.rate
    tasks := m.tasks.set i { task with phase := turn.phase }
    failure := m.failure.or turn.phase.error?
    log := m.log ++ turn.events }

/-! ## Steps -/

section Step

-- `clock k n` is the reading number `n` of the rate controller of the batch number `k`
variable (actions : Actions) (serviceData : Dict) (clock : ℕ → ℕ → ℚ)

/-- The runner takes the next command. -/
def nextCommand (m : Machine) : Machine :=
  match m.script with
  | [] => { m.emit [.runEnd "ok"] with status := .ok }
  | .openBatch controller :: rest =>
      { m with script := rest, batches := m.batches + 1, controller := some controller,
               rate := Machine.noBuckets }
  | .coalesceWait wait :: rest => { m.emit [.coalesceWait wait] with script := rest }
  | .start stage :: rest =>
      { m with script := rest, stage := some stage,
               tasks := stage.ids.map fun actionId => { actionId, phase := .created } }
  | .raise _ :: rest => { m.emit [.runEnd "error"] with script := rest, status := .error }

/-- The runner is done with a stage; a failure ends the run. -/
def closeStage (m : Machine) (stage : Stage) : Machine :=
  match m.failure with
  | none => { m with stage := none, tasks := [] }
  | some error =>
      { m.emit [.exceptionSummary stage.summaryIds error, .runEnd "error"] with status := .error }

/-- The runner goes on, unless it awaits a task. -/
def advance (m : Machine) : Option Machine :=
  if m.status ≠ .running then none
  else
    match m.stage with
    | none => some (nextCommand m)
    | some stage => if m.tasks.all (·.phase.isDone) then some (closeStage m stage) else none

/-- What the rate controller says to an action. -/
def acquire (m : Machine) (actionId : String) : RateController.State × RateController.Outcome :=
  match m.controller with
  | some controller => controller.attempt (clock m.batches) actionId m.rate
  | none => (m.rate, .notCloud)

/-- `execute_action` up to where it waits for something. -/
def beginAction (m : Machine) (a : String) (action : Dict) (rate : RateController.State)
    (admitted : Option ℚ) : Turn :=
  match opForAction action with
  | .error e => { rate, events := [], phase := .failed (.python e) }
  | .ok op =>
      { rate
        events := [.began op a m.batches admitted]
        phase := if bodyOf serviceData action = .unreadable then .failed (.python .attributeError)
          else .running op }

/-- A created task looks up its action and asks the rate controller. -/
def attemptTask (m : Machine) (a : String) : Turn :=
  match actions.lookup a with
  | none => ⟨m.rate, [], .failed (.text ("Unknown action_id '" ++ a ++ "'"))⟩
  | some action =>
      match acquire clock m a with
      | (rate, .waits report) => ⟨rate, [.rateWait a report], .created⟩
      | (rate, .notCloud) => beginAction serviceData m a action rate none
      | (rate, .admitted now) => beginAction serviceData m a action rate (some now)

/-- Can an action with such a configuration raise a text? -/
def Body.raises (text : String) : Body → Bool
  | .unreadable => false
  | .missing token => text = missingTokenText token
  | .rejected error => text = error
  | .invalid | .depends => true

/-- What is reported of an action that raises. -/
def exceptionEvents (body : Body) (a text : String) : List Event :=
  match body with
  | .missing token => [.templateMissing a token, .exception a text]
  | _ => [.exception a text]

/-- An action raises; after a rate limit error a CLOUD action backs off before its task fails. -/
def raiseTask (m : Machine) (a : String) (body : Body) (text : String) : Turn :=
  let events := exceptionEvents body a text
  if !isRateLimitError text then ⟨m.rate, events, .failed (.text text)⟩
  else
    match m.controller.map fun controller =>
      controller.noteRateLimit (clock m.batches) a text m.rate with
    | some (rate, some report) =>
        ⟨rate, events ++ [.rateDowngrade a report], .backingOff text⟩
    | _ => ⟨m.rate, events, .failed (.text text)⟩

/-- What a task can do; the world outside decides when, and how an action fails. -/
inductive Move where
  | attempt
  | finish
  | raise (text : String)
  | rethrow
  | cancel

/-- The next turn of the task of an action. -/
def taskTurn (m : Machine) (a : String) (phase : TaskPhase) : Move → Option Turn
  | .attempt =>
      if phase = .created then some (attemptTask actions serviceData clock m a) else none
  | .finish =>
      match phase, (actions.lookup a).map (bodyOf serviceData) with
      | .running op, some .depends => some ⟨m.rate, [.ended op a], .finished⟩
      | _, _ => none
  | .raise text =>
      match phase, (actions.lookup a).map (bodyOf serviceData) with
      | .running _, some body =>
          if body.raises text then some (raiseTask clock m a body text) else none
      | _, _ => none
  | .rethrow =>
      match phase with
      | .backingOff text => some ⟨m.rate, [], .failed (.text text)⟩
      | _ => none
  | .cancel => if m.failure.isSome && !phase.isDone then some ⟨m.rate, [], .cancelled⟩ else none

/-- Who goes on. -/
inductive Label where
  | advance
  | task (i : ℕ) (move : Move)

/-- One step of the run. -/
def step (m : Machine) : Label → Option Machine
  | .advance => advance m
  | .task i move => do
      let task ← m.tasks[i]?
      let turn ← taskTurn actions serviceData clock m task.actionId task.phase move
      return m.update i task turn

/-- A state that some interleaving of a run of a plan gets to. -/
def Reached (plan : RunnerPlan) (m : Machine) : Prop :=
  ∃ labels : List Label,
    labels.foldlM (step actions serviceData clock) (.start (script actions serviceData plan)) =
      some m

end Step

/-! ## What a task can do -/

section Rules

variable (actions : Actions) (serviceData : Dict) (clock : ℕ → ℕ → ℚ)

/-- The rate controller lets an action pass; one that is not a CLOUD action passes at no time. -/
def Admits (m : Machine) (a : String) (rate : RateController.State) : Option ℚ → Prop
  | none => acquire clock m a = (rate, .notCloud)
  | some now => acquire clock m a = (rate, .admitted now)

/-- What the task of an action can do in a phase. -/
inductive TaskRule (m : Machine) (a : String) : TaskPhase → Turn → Prop
  | unknown {error} : TaskRule m a .created ⟨m.rate, [], .failed error⟩
  | wait {report rate} (h : acquire clock m a = (rate, .waits report)) :
      TaskRule m a .created ⟨rate, [.rateWait a report], .created⟩
  | refused {e rate admitted} (hpass : Admits clock m a rate admitted) :
      TaskRule m a .created ⟨rate, [], .failed (.python e)⟩
  | begin {op rate admitted phase} (hpass : Admits clock m a rate admitted)
      (hphase : phase = .running op ∨ phase = .failed (.python .attributeError)) :
      TaskRule m a .created ⟨rate, [.began op a m.batches admitted], phase⟩
  | finish {action op} (hknown : actions.lookup a = some action)
      (hbody : bodyOf serviceData action = .depends) :
      TaskRule m a (.running op) ⟨m.rate, [.ended op a], .finished⟩
  | raise {action op text} (hknown : actions.lookup a = some action) :
      TaskRule m a (.running op)
        ⟨m.rate, exceptionEvents (bodyOf serviceData action) a text, .failed (.text text)⟩
  | backOff {action op text controller rate report} (hknown : actions.lookup a = some action)
      (hcontroller : m.controller = some controller)
      (hnote : controller.noteRateLimit (clock m.batches) a text m.rate = (rate, some report)) :
      TaskRule m a (.running op) ⟨rate, exceptionEvents (bodyOf serviceData action) a text ++
        [.rateDowngrade a report], .backingOff text⟩
  | rethrow {text} : TaskRule m a (.backingOff text) ⟨m.rate, [], .failed (.text text)⟩
  | cancel {phase} (hfailure : m.failure.isSome = true) (hlive : phase.isDone = false) :
      TaskRule m a phase ⟨m.rate, [], .cancelled⟩

end Rules

section Steps

variable {actions : Actions} {serviceData : Dict} {clock : ℕ → ℕ → ℚ} {plan : RunnerPlan}
  {m m' : Machine} {a : String} {phase : TaskPhase} {turn : Turn}

theorem TaskRule.live (h : TaskRule actions serviceData clock m a phase turn) :
    phase.isDone = false := by
  cases h with
  | cancel _ hlive => exact hlive
  | _ => rfl

theorem rule_of_beginAction {action : Dict} {rate : RateController.State} {admitted : Option ℚ}
    (h : Admits clock m a rate admitted) : TaskRule actions serviceData clock m a .created
      (beginAction serviceData m a action rate admitted) := by
  unfold beginAction
  cases opForAction action with
  | error e => exact .refused h
  | ok op =>
    refine .begin h ?_
    split_ifs
    · exact .inr rfl
    · exact .inl rfl

/-- The turn of a task is by one of the rules. -/
theorem rule_of_taskTurn {move : Move}
    (h : taskTurn actions serviceData clock m a phase move = some turn) :
    TaskRule actions serviceData clock m a phase turn := by
  unfold taskTurn at h
  cases move with
  | attempt =>
    dsimp only at h
    split_ifs at h with hphase
    obtain rfl := Option.some.inj h
    rw [hphase]
    unfold attemptTask
    split
    · exact .unknown
    · split
      · exact .wait ‹_›
      · rename_i hpass
        exact rule_of_beginAction (show Admits clock m a _ none from hpass)
      · rename_i hpass
        exact rule_of_beginAction (show Admits clock m a _ (some _) from hpass)
  | finish =>
    dsimp only at h
    split at h
    · rename_i op hbody
      obtain ⟨action, hknown, hbody⟩ := Option.map_eq_some_iff.1 hbody
      obtain rfl := Option.some.inj h
      exact .finish hknown hbody
    · cases h
  | raise text =>
    dsimp only at h
    split at h
    · rename_i op body hbody
      obtain ⟨action, hknown, rfl⟩ := Option.map_eq_some_iff.1 hbody
      split_ifs at h
      obtain rfl := Option.some.inj h
      unfold raiseTask
      dsimp only
      split
      · exact .raise hknown
      · split
        · rename_i rate report hnote
          obtain ⟨controller, hcontroller, hnote⟩ := Option.map_eq_some_iff.1 hnote
          exact .backOff hknown hcontroller hnote
        · exact .raise hknown
    · cases h
  | rethrow =>
    dsimp only at h
    split at h
    · obtain rfl := Option.some.inj h
      exact .rethrow
    · cases h
  | cancel =>
    dsimp only at h
    split_ifs at h with hcond
    obtain rfl := Option.some.inj h
    rw [Bool.and_eq_true, Bool.not_eq_true'] at hcond
    exact .cancel hcond.1 hcond.2

/-- What a step of a run is: one of the runner, or the turn of a task. -/
theorem step_cases {label : Label} (h : step actions serviceData clock m label = some m') :
    advance m = some m' ∨ ∃ i task turn, m.tasks[i]? = some task ∧
      TaskRule actions serviceData clock m task.actionId task.phase turn ∧
        m' = m.update i task turn := by
  cases label with
  | advance => exact .inl h
  | task i move =>
    obtain ⟨task, hfound, h⟩ := Option.bind_eq_some_iff.1 h
    obtain ⟨turn, hturn, h⟩ := Option.bind_eq_some_iff.1 h
    exact .inr ⟨i, task, turn, hfound, rule_of_taskTurn hturn, (Option.some.inj h).symm⟩

/-- What the runner itself does: it takes a command, or closes the stage. -/
theorem advance_cases (h : advance m = some m') : m.status = .running ∧
    ((m.stage = none ∧ m' = nextCommand m) ∨
      ∃ stage, m.stage = some stage ∧ m.tasks.all (·.phase.isDone) = true ∧
        m' = closeStage m stage) := by
  unfold advance at h
  split at h
  · cases h
  · rename_i hstatus
    refine ⟨not_not.1 hstatus, ?_⟩
    split at h
    · rename_i hstage
      exact .inl ⟨hstage, (Option.some.inj h).symm⟩
    · rename_i stage hstage
      split_ifs at h with hdone
      exact .inr ⟨stage, hstage, hdone, (Option.some.inj h).symm⟩

/-- What holds at the start and is kept by every step holds in every state that is reached. -/
theorem Reached.induction {P : Machine → Prop} (h : Reached actions serviceData clock plan m)
    (hstart : P (.start (script actions serviceData plan)))
    (hstep : ∀ m label m', P m → step actions serviceData clock m label = some m' → P m') :
    P m := by
  obtain ⟨labels, hlabels⟩ := h
  generalize Machine.start (script actions serviceData plan) = m₀ at hstart hlabels
  induction labels generalizing m₀ with
  | nil => exact Option.some.inj hlabels ▸ hstart
  | cons label labels ih =>
    rw [List.foldlM_cons] at hlabels
    obtain ⟨m₁, h₁, hlabels⟩ := Option.bind_eq_some_iff.1 hlabels
    exact ih m₁ (hstep m₀ label m₁ hstart h₁) hlabels

theorem Reached.extend (h : Reached actions serviceData clock plan m) {label : Label}
    (hstep : step actions serviceData clock m label = some m') :
    Reached actions serviceData clock plan m' := by
  obtain ⟨labels, hlabels⟩ := h
  exact ⟨labels ++ [label], by simp [List.foldlM_append, hlabels, hstep]⟩

/-- What is observed behind some labels is observed of a state that is reached. -/
theorem exists_reached {α : Type} (observe : Machine → α) (labels : List Label) {a : α}
    (h : (labels.foldlM (step actions serviceData clock)
      (.start (script actions serviceData plan))).map observe = some a) :
    ∃ m, Reached actions serviceData clock plan m ∧ observe m = a := by
  obtain ⟨m, hm, hobserve⟩ := Option.map_eq_some_iff.1 h
  exact ⟨m, ⟨labels, hm⟩, hobserve⟩

end Steps

/-! ## A small plan -/

/-- An action that sleeps. -/
def sleepingAction (actionId : String) : String × Dict :=
  (actionId, [("action_id", .str actionId), ("protocol", .str "LOCAL"),
    ("exec", .dict [("kind", .str "sleep")])])

def sleepingActions : Actions := ["a", "b", "c"].map sleepingAction

/-- Two actions that sleep at a time, and one behind them. -/
def sleepingPlan : RunnerPlan where
  orderedBatches := [{ batchId := "batch_000", parallelGroups := [["a", "b"]] },
    { batchId := "batch_001", parallelGroups := [["c"]] }]
  nodup := by decide

end FloWeaver.Runner
