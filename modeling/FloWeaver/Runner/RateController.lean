import FloWeaver.Lib.OrderedDict
import FloWeaver.Runner.Layout
import FloWeaver.Scheduler.Action

/-!
# The rate controller of the generated runner

A CLOUD action asks the controller before it runs.  The controller keeps a token bucket for all
actions and one for the host or the provider of the action; it lets the action pass when every
bucket has a token and none of them backs off, and otherwise says how long to wait.  A rate limit
error makes the buckets of an action back off, at a lower rate.

* `RateController.ofPolicy` — the controller for a rate policy.
* `RateController.attempt` — one round of `acquire`.
* `RateController.noteRateLimit` — the answer to a rate limit error.
* `RateController.run` — any interleaving of the two.
-/

namespace FloWeaver.Runner

open Py

/-! ## Configuration -/

/-- How long a bucket backs off. -/
structure BackoffPolicy where
  baseMs : ℤ := 0
  factor : ℚ := 2
  maxMs : ℤ := 2000

/-- `base or 200`. -/
def BackoffPolicy.baseOr200 (policy : BackoffPolicy) : ℤ :=
  if policy.baseMs = 0 then 200 else policy.baseMs

/-- One row of the adaptive controls. -/
def loadBackoffRow (policy : BackoffPolicy) (row : Dict) : Except PyErr BackoffPolicy := do
  let kind := (row.getD "kind" (.str "")).pyStr
  let action := lower (row.getD "action" (.str "")).pyStr
  let params := (row.get "params").asDict
  if kind = "BACKOFF_WINDOW" || contains action "backoff" || contains action "reduce_qps" then
    let base ← (params.getD "base_ms" (.int policy.baseOr200)).toInt
    let factor ← (params.get? "factor").elim (.ok policy.factor) Val.toFloat
    let limit ← (params.getD "max_ms" (.int policy.maxMs)).toInt
    return {
      baseMs := max policy.baseMs base
      factor := max (11 / 10) factor
      maxMs := max policy.maxMs limit }
  else return policy

/-- `_load_backoff_policy`. -/
def loadBackoffPolicy (rows : Val) : Except PyErr BackoffPolicy :=
  match rows with
  | .list rows =>
      rows.foldlM (fun policy row =>
        match row with
        | .dict row => loadBackoffRow policy row
        | _ => .ok policy) {}
  | _ => .ok {}

structure RateController where
  batchId : String
  actions : Actions
  maxQps : ℚ
  burst : ℤ
  windowMs : ℤ
  backoff : BackoffPolicy
  maxQps_ge : 1 / 10 ≤ maxQps
  burst_ge : 1 ≤ burst
  windowMs_ge : 1 ≤ windowMs

namespace RateController

/-- `RateController.__init__`. -/
def ofPolicy (batchId : String) (ratePolicy : Dict) (actions : Actions) :
    Except PyErr RateController := do
  let qps ← (ratePolicy.getD "max_qps" (.float 5 "5.0")).toFloat
  let maxQps := max (1 / 10) qps
  let burst ← (ratePolicy.getD "burst" (.int (max 1 (Val.roundHalfEven maxQps)))).toInt
  let windowMs ← (ratePolicy.getD "window_ms" (.int 1000)).toInt
  let backoff ← loadBackoffPolicy (ratePolicy.getD "adaptive_controls" (.list []))
  return {
    batchId, actions, maxQps, backoff
    burst := max 1 burst
    windowMs := max 1 windowMs
    maxQps_ge := le_max_left _ _
    burst_ge := le_max_left _ _
    windowMs_ge := le_max_left _ _ }

variable (controller : RateController)

/-- The tokens in a second at a number of requests in a window. -/
def tokensPerSecond (maxQps : ℚ) : ℚ := max (1 / 10) (maxQps * (1000 / controller.windowMs))

/-! ## The buckets of an action -/

def action (actionId : String) : Dict := (controller.actions.lookup actionId).getD []

def isCloudAction (actionId : String) : Bool :=
  upper ((controller.action actionId).getD "protocol" (.str "")).pyStr = "CLOUD"

/-- `target.endpoint or target.id or exec.endpoint or ""`. -/
def actionEndpoint (action : Dict) : String :=
  (Scheduler.firstOf [(Scheduler.target action).get "endpoint", (Scheduler.target action).get "id",
    (Scheduler.execCfg action).get "endpoint"]).pyStr

/-- `_action_group_value(action, "host")`. -/
def hostToken (action : Dict) : String :=
  Scheduler.canonicalBucketToken (Scheduler.hostOfEndpoint (actionEndpoint action))

def providerToken (action : Dict) : String :=
  Scheduler.canonicalBucketToken (Scheduler.actionProvider action)

/-- The buckets that an action takes its tokens from. -/
def enforcedBucketKeys (actionId : String) : List String :=
  if controller.isCloudAction actionId then
    let action := controller.action actionId
    if hostToken action ≠ "" then ["global", "host:" ++ hostToken action]
    else if providerToken action ≠ "" then ["global", "provider:" ++ providerToken action]
    else ["global"]
  else []

/-- The buckets that a report names. -/
def observedBucketKeys (actionId : String) : List String :=
  if controller.isCloudAction actionId then
    let action := controller.action actionId
    let endpoint := Scheduler.canonicalBucketToken (actionEndpoint action)
    let owner := if providerToken action ≠ "" then providerToken action else hostToken action
    let keys := controller.enforcedBucketKeys actionId ++
      if endpoint ≠ "" then ["endpoint:" ++ owner ++ ":" ++ endpoint] else []
    keys.eraseDups
  else []

/-! ## State -/

structure Bucket where
  tokens : ℚ
  updatedAt : ℚ
  maxQps : ℚ
  burst : ℚ
  tokensPerSecond : ℚ
  backoffUntil : ℚ
  backoffMs : ℚ

/-- The buckets, and how often the clock was read. -/
structure State where
  ticks : ℕ
  buckets : OrderedDict String Bucket

def State.setBucket (state : State) (key : String) (bucket : Bucket) : State :=
  { state with buckets := state.buckets.set key bucket }

/-- A bucket that is first asked for at a time; it is full. -/
def newBucket (now : ℚ) : Bucket where
  tokens := controller.burst
  updatedAt := now
  maxQps := controller.maxQps
  burst := controller.burst
  tokensPerSecond := controller.tokensPerSecond controller.maxQps
  backoffUntil := 0
  backoffMs := controller.backoff.baseOr200

-- `clock n` is what the reading number `n` of `time.monotonic()` gives
variable (clock : ℕ → ℚ)

/-- `_bucket_state`. -/
def bucketState (key : String) (state : State) : Bucket × State :=
  match state.buckets.get? key with
  | some bucket => (bucket, state)
  | none =>
      let bucket := controller.newBucket (clock state.ticks)
      (bucket, { state with ticks := state.ticks + 1 }.setBucket key bucket)

/-! ## Acquiring -/

/-- Why and how long an action waits for a bucket. -/
structure BucketWait where
  bucket : String
  seconds : ℚ
  reason : String

/-- The report of a wait. -/
structure RateWait where
  reason : String
  waitMs : ℤ
  maxQps : ℚ
  bucket : String
  enforcedBuckets : List String
  observedBuckets : List String

def refilled (now : ℚ) (bucket : Bucket) : Bucket :=
  let elapsed := max 0 (now - bucket.updatedAt)
  { bucket with
    updatedAt := now
    tokens := min bucket.burst (bucket.tokens + elapsed * bucket.tokensPerSecond) }

/-- What an action waits for at a bucket that is refilled. -/
def waitFor (now : ℚ) (key : String) (bucket : Bucket) : Option BucketWait :=
  if now < bucket.backoffUntil then
    some { bucket := key, seconds := bucket.backoffUntil - now, reason := "backoff" }
  else if 1 ≤ bucket.tokens then none
  else
    let deficit := max 0 (1 - bucket.tokens)
    some { bucket := key, seconds := max (1 / 100) (deficit / max bucket.tokensPerSecond (1 / 10)),
           reason := "token_bucket" }

/-- One bucket in a round of `acquire`. -/
def visitBucket (now : ℚ) (acc : State × List BucketWait) (key : String) :
    State × List BucketWait :=
  let (bucket, state) := controller.bucketState clock key acc.1
  let bucket := refilled now bucket
  (state.setBucket key bucket, acc.2 ++ (waitFor now key bucket).toList)

def takeToken (state : State) (key : String) : State :=
  let (bucket, state) := controller.bucketState clock key state
  state.setBucket key { bucket with tokens := bucket.tokens - 1 }

/-- `max(waits, key=…)`: the first of the longest. -/
def longestWait (first : BucketWait) (waits : List BucketWait) : BucketWait :=
  waits.foldl (fun best wait => if best.seconds < wait.seconds then wait else best) first

/-- What a round of `acquire` ends with. -/
inductive Outcome where
  | notCloud
  | admitted (now : ℚ)
  | waits (report : RateWait)

/-- One round of `acquire`; an action that waits tries again later. -/
def attempt (actionId : String) (state : State) : State × Outcome :=
  if controller.isCloudAction actionId then
    let now := clock state.ticks
    let keys := controller.enforcedBucketKeys actionId
    let (state, waits) := keys.foldl (controller.visitBucket clock now)
      ({ state with ticks := state.ticks + 1 }, [])
    match waits with
    | [] => (keys.foldl (controller.takeToken clock) state, .admitted now)
    | first :: rest =>
        let wait := longestWait first rest
        let (bucket, state) := controller.bucketState clock wait.bucket state
        (state, .waits {
          reason := wait.reason
          waitMs := Val.truncate (wait.seconds * 1000)
          maxQps := bucket.maxQps
          bucket := wait.bucket
          enforcedBuckets := keys
          observedBuckets := controller.observedBucketKeys actionId })
  else (state, .notCloud)

/-! ## Rate limit errors -/

structure DowngradedBucket where
  bucket : String
  maxQps : ℚ
  backoffMs : ℤ

/-- The report of a downgrade. -/
structure RateDowngrade where
  error : String
  backoffMs : ℤ
  batchId : String
  bucketKeys : List String
  downgradedBuckets : List DowngradedBucket

/-- The next backoff of a bucket: the global bucket backs off less and less, the others more. -/
def newBackoff (key : String) (bucket : Bucket) : ℤ :=
  let current := max (Val.truncate bucket.backoffMs) controller.backoff.baseOr200
  if key = "global" then max 50 (min controller.backoff.maxMs (max (current / 2) 100))
  else min controller.backoff.maxMs
    (max current (Val.truncate (current * controller.backoff.factor)))

def rateScale (key : String) : ℚ := if key = "global" then 85 / 100 else 1 / 2

def downgraded (now : ℚ) (key : String) (bucket : Bucket) : Bucket :=
  let backoff := controller.newBackoff key bucket
  let maxQps := max (1 / 10) (bucket.maxQps * rateScale key)
  { bucket with
    backoffMs := backoff
    backoffUntil := now + backoff / 1000
    maxQps
    tokensPerSecond := controller.tokensPerSecond maxQps
    tokens := min bucket.burst bucket.tokens }

/-- One bucket of a downgrade. -/
def downgradeBucket (now : ℚ) (acc : State × ℤ × List DowngradedBucket) (key : String) :
    State × ℤ × List DowngradedBucket :=
  let (bucket, state) := controller.bucketState clock key acc.1
  let backoff := controller.newBackoff key bucket
  let bucket := controller.downgraded now key bucket
  (state.setBucket key bucket, max acc.2.1 backoff,
    acc.2.2 ++ [{ bucket := key, maxQps := bucket.maxQps, backoffMs := backoff }])

/-- `note_rate_limit`. -/
def noteRateLimit (actionId error : String) (state : State) : State × Option RateDowngrade :=
  if controller.isCloudAction actionId then
    let now := clock state.ticks
    let (state, waitMs, rows) :=
      (controller.enforcedBucketKeys actionId).foldl (controller.downgradeBucket clock now)
        ({ state with ticks := state.ticks + 1 }, 0, [])
    (state, some {
      error
      backoffMs := waitMs
      batchId := controller.batchId
      bucketKeys := controller.observedBucketKeys actionId
      downgradedBuckets := rows })
  else (state, none)

/-! ## Runs -/

/-- What happens under the lock, one after the other. -/
inductive Call where
  | acquire (actionId : String)
  | noteRateLimit (actionId error : String)

/-- An action that was let through, with the buckets that it took a token from. -/
structure Admission where
  time : ℚ
  buckets : List String

/-- One call; the log keeps who was admitted. -/
def step (acc : State × List Admission) (call : Call) : State × List Admission :=
  match call with
  | .acquire actionId =>
      let (state, outcome) := controller.attempt clock actionId acc.1
      match outcome with
      | .admitted now =>
          (state, acc.2 ++ [{ time := now, buckets := controller.enforcedBucketKeys actionId }])
      | _ => (state, acc.2)
  | .noteRateLimit actionId error => ((controller.noteRateLimit clock actionId error acc.1).1, acc.2)

/-- Any sequence of calls, in whatever way the tasks are interleaved. -/
def run (calls : List Call) : State × List Admission :=
  calls.foldl (controller.step clock) ({ ticks := 0, buckets := .empty }, [])

end RateController

end FloWeaver.Runner
