import FloWeaver.Lib.OrderedDict
import FloWeaver.Py.Val

/-!
# Contracts

The records the stages of the program hand to each other, with the fields the modelled
stages read: the MSSU dependency graph that the builder produces, the optimisation target,
and the execution plan that the scheduler produces and the trust layer and the generated
runner consume.

An action of the target is a decoded JSON object, so it stays a `Dict`.

* `MetaPlan` — a plan with its `meta` dict, in which the policy is kept.
* `Rule`, `RuleStatus` — a rule of the profile and how far it is trusted.
* `CounterExample` — a replay whose optimised trace is not equivalent to its baseline.
-/

namespace FloWeaver

open Py

/-! ## Kinds -/

namespace EdgeKind

def hardData : String := "HARD_DATA"
def hardControl : String := "HARD_CONTROL"
def hardLifecycle : String := "HARD_LIFECYCLE"
def mayDep : String := "MAY_DEP"

def values : List String := [hardData, hardControl, hardLifecycle, mayDep]

end EdgeKind

namespace SoftConstraintKind

def softOrder : String := "SOFT_ORDER"
def minGap : String := "MIN_GAP"
def noOverlap : String := "NO_OVERLAP"
def sameSessionGroup : String := "SAME_SESSION_GROUP"
def budgetK : String := "BUDGET_K"
def rateLimit : String := "RATE_LIMIT"
def batchGroup : String := "BATCH_GROUP"
def coalesceStateWrite : String := "COALESCE_STATE_WRITE"
def backoffWindow : String := "BACKOFF_WINDOW"

def values : List String :=
  [softOrder, minGap, noOverlap, sameSessionGroup, budgetK, rateLimit, batchGroup,
    coalesceStateWrite, backoffWindow]

end SoftConstraintKind

/-! ## Records -/

/-- A minimal schedulable semantic unit. -/
structure MSSU where
  mssuId : String
  mssuType : String := ""
  phase : String := "RUNTIME"
  inputs : List String := []
  outputs : List String := []
  sideEffectSig : List String := []
  critical : Bool := false
  primaryActionRef : Option String := none
  secondaryActionRefs : List String := []
  actionRefs : List String := []
  isSharedInfra : Bool := false
  isAggregateSink : Bool := false
  laneTag : Option String := none
  resourceInstanceTag : Option String := none

/-- A hard edge between two MSSUs. -/
structure DependencyEdge where
  srcMssu : String
  dstMssu : String
  kind : String
  justification : List String := []

/-- A soft constraint over MSSUs or actions. -/
structure SoftConstraint where
  kind : String
  scope : List String
  params : Dict := []
  guard : String := "true"
  fallback : String := "fallback_to_sequential"

/-- The dependency graph of the MSSUs; `nodes` is keyed by MSSU id. -/
structure TypedDAG where
  nodes : OrderedDict String MSSU := .empty
  hardEdges : List DependencyEdge := []
  softConstraints : List SoftConstraint := []

/-- One batch of a plan; guard and fallback rows are dicts. -/
structure Batch where
  batchId : String
  parallelGroups : List (List String) := []
  constraints : List String := []
  sessionPolicy : Dict := []
  ratePolicy : Dict := []
  guards : List Dict := []
  fallback : List Dict := []

/-- A plan. -/
structure ExecutionPlan where
  orderedBatches : List Batch := []

/-- What is to be optimised. -/
structure OptimizationTarget where
  vdevActions : List Dict := []
  objectives : Dict := []
  constraints : Dict := []
  validation : Dict := []
  hardDependencies : List Dict := []
  softDependencies : List Dict := []
  targetAnchors : Dict := []
  criticalActionIds : List String := []

end FloWeaver

/-!
## Records of the trust layer

-/

namespace FloWeaver

open Py

/-- A plan with what the scheduler notes about it. -/
structure MetaPlan extends ExecutionPlan where
  planMeta : Dict := []

namespace RuleStatus

def soft : String := "SOFT"
def hard : String := "HARD"
def disabled : String := "DISABLED"

end RuleStatus

/-- A rule of the profile. -/
structure Rule where
  ruleId : String
  category : String := ""
  status : String := RuleStatus.soft
  markerHints : List String := []
  guard : String := "true"
  hardeningState : String := "UNKNOWN"
  hardeningReason : Option String := none
  validationSummary : Dict := []

/-- A replay that is not equivalent, and how it differs. -/
structure CounterExample where
  counterexampleId : String
  scenarioId : String
  violatedAssertion : String
  culpritIds : List String := []
  diffSummary : Dict := []
  alignmentStatus : Option String := none
  suspiciousRegionCount : ℤ := 0

end FloWeaver
