import FloWeaver.Lib.Matching
import FloWeaver.Py.Sort
import FloWeaver.Py.Val

/-!
# Comparing two traces

Two traces are strictly equal when their canonical events are.  They are tolerantly equal when
they differ only inside windows of commutable operations, or of actions that run in parallel.

* `normalizeOpName` — the name of an operation.
* `canonicalizeEvent` — an event with its canonical parameters.
* `eventKey` — what two equal events share.
* `TraceCompareConfig` — what may be reordered.
* `strictEqual`, `tolerantEqual` — the two verdicts.
* `diffSignature` — the hunks between two traces.
* `compareTraces` — the verdicts and the hunks.
-/

/-!
## Events of a trace

A trace is what a replay observed: which operation met which target, with its parameters.
Two traces are compared by their canonical events, without time stamps and volatile parameters.
-/

namespace FloWeaver.Trace

open Py

/-- One observed operation. -/
structure Event where
  provider : String
  op : String
  target : String
  paramsAbst : Dict := []
  phase : String := "RUNTIME"

/-- The operations that have a second name. -/
def opAliases : List (String × String) :=
  [("BLE_OP", "BLE_GATT_OP"), ("CLOUD_OP", "CLOUD_HTTP_CALL"), ("CLOUD_CALL", "CLOUD_HTTP_CALL"),
    ("RETRY_BACKOFF", "CLOUD_BACKOFF_SLEEP")]

/-- The name of an operation, in capitals and under its first name. -/
def normalizeOpName (op : String) : String :=
  let token := upper (strip op)
  (opAliases.lookup token).getD token

/-- An operation keeps its name once it is normalized. -/
theorem normalizeOpName_idem (op : String) :
    normalizeOpName (normalizeOpName op) = normalizeOpName op := by
  have haliases : ∀ row ∈ opAliases, normalizeOpName row.2 = row.2 := by
    decide +kernel
  cases hlookup : opAliases.lookup (upper (strip op)) with
  | none =>
    have hname : normalizeOpName op = upper (strip op) := by rw [normalizeOpName, hlookup]; rfl
    rw [hname, normalizeOpName, upper_strip_idem, hlookup]
    rfl
  | some name =>
    have hname : normalizeOpName op = name := by rw [normalizeOpName, hlookup]; rfl
    rw [hname]
    exact haliases (upper (strip op), name) (mem_of_lookup hlookup)

/-- The names of some operations, less the empty ones. -/
def normalizedOps (ops : List String) : List String :=
  (ops.map normalizeOpName).filter (· ≠ "")

def volatileParamKeys : List String := ["timestamp", "ts", "nonce", "request_id", "uuid"]

section Canonical

-- `sha1 text` is `hashlib.sha1(text).hexdigest()`; `volatile` lists the parameters left out
variable (sha1 : String → String) (volatile : List String)

/-- The first 16 digits of the digest of `repr(value)`. -/
def stableHash (value : Val) : String := String.ofList ((sha1 value.repr).toList.take 16)

/-- One parameter, written under its canonical name. -/
def canonicalizeParam (result : Dict) (row : String × Val) : Dict :=
  let (key, value) := row
  if volatile.contains key then result
  else if ["payload", "body", "json"].contains key then
    result.set (key ++ "_hash") (.str (stableHash sha1 value))
  else if key = "endpoint" then result.set key (.str (lower (strip value.pyStr)))
  else if ["ble_addr", "mac", "address"].contains key then
    let text := (replaceChar value.pyStr '-' ':').toList.filter (· ≠ ' ')
    result.set key (.str (lower (String.ofList text)))
  else result.set key value

def canonicalizeParams (params : Dict) : Dict :=
  params.foldl (canonicalizeParam sha1 volatile) []

def canonicalizeEvent (event : Event) : Event :=
  { event with
    op := normalizeOpName event.op
    paramsAbst := canonicalizeParams sha1 volatile event.paramsAbst }

end Canonical

/-- `(phase, provider, op, target, sorted parameters)`. -/
def eventKey (event : Event) : Val :=
  .list [.str event.phase, .str event.provider, .str event.op, .str event.target,
    .list ((sortedBy (·.1) event.paramsAbst).map fun row => .list [.str row.1, row.2])]

/-- The action that an event belongs to. -/
def eventActionId (event : Event) : String :=
  strip (event.paramsAbst.getD "action_id" (.str "")).pyStr

/-- Lists and dicts have no hash. -/
def hashable : Val → Bool
  | .list _ | .dict _ => false
  | _ => true

/-- `Counter(keys)` can be built: every parameter is hashable. -/
def countable (events : List Event) : Bool :=
  events.all fun event => event.paramsAbst.all fun row => hashable row.2

/-- `Counter(a) == Counter(b)`. -/
def sameCounts (a b : List Val) : Bool :=
  (a ++ b).all fun x => a.countP x.eqv = b.countP x.eqv

end FloWeaver.Trace

namespace FloWeaver.Trace

open Py

/-! ## Configuration -/

/-- A rule of the whitelist. -/
structure EquivalenceRule where
  policy : String
  ops : List String
  groupKey : String
  scope : List String

def commutableOps : List String := ["STATE_WRITE", "COORD_REFRESH"]

structure TraceCompareConfig where
  canonicalizationVersion : String := "v1"
  commutableOps : List String := Trace.commutableOps
  volatileParamKeys : List String := Trace.volatileParamKeys
  equivalenceRules : List EquivalenceRule := []
  parallelActionScopes : List (List String) := []

/-- The operations of a whitelist rule: a list, or a single name. -/
def ruleOps (rule : Dict) : List String :=
  match rule.getD "ops" (rule.get "op") with
  | .list items => normalizedOps (items.map Val.pyStr)
  | .none => []
  | value => normalizedOps [value.pyStr]

def readRule (rule : Dict) : EquivalenceRule where
  policy :=
    let policy := lower (strip (rule.getD "policy" (.str "commute")).pyStr)
    if policy = "" then "commute" else policy
  ops := ruleOps rule
  groupKey := strip (rule.getD "group_key" (.str "")).pyStr
  scope :=
    match rule.getD "scope" (.list []) with
    | .list items => (items.map fun item => strip item.pyStr).filter (· ≠ "")
    | _ => []

/-- One entry of the whitelist: a rule, or the name of an operation that commutes. -/
def addWhitelistEntry (config : TraceCompareConfig) (entry : Val) : TraceCompareConfig :=
  match entry with
  | .dict rule =>
      let read := readRule rule
      { config with
        commutableOps := config.commutableOps ++ (if read.policy = "commute" then read.ops else [])
        equivalenceRules := config.equivalenceRules ++ [read] }
  | entry =>
      { config with commutableOps := config.commutableOps ++ normalizedOps [entry.pyStr] }

def fromObservation (canonicalizationVersion : String) (equivalenceWhitelist : List Val) :
    TraceCompareConfig :=
  equivalenceWhitelist.foldl addWhitelistEntry
    { canonicalizationVersion :=
        if canonicalizationVersion = "" then "v1" else canonicalizationVersion }

/-! ## Equal traces -/

def strictEqual (base opt : List Event) : Bool :=
  eqvItems (base.map eventKey) (opt.map eventKey)

/-- The value under which a rule groups an event. -/
def eventGroupValue (event : Event) (groupKey : String) : String :=
  let key := lower (strip groupKey)
  if key = "" then ""
  else if key = "target" then event.target
  else
    match event.paramsAbst.get? key with
    | some value => value.pyStr
    | none =>
        if ["endpoint", "entity_id", "device_id", "characteristic", "host"].contains key then
          event.target
        else ""

namespace EquivalenceRule

/-- Does a rule keep the order of its operations? -/
def groups (rule : EquivalenceRule) : Bool :=
  decide (lower (strip rule.policy) = "commute") && decide (strip rule.groupKey ≠ "") &&
    !(normalizedOps rule.ops).isEmpty

/-- The operations of a rule in a window, with their groups. -/
def signature (rule : EquivalenceRule) (window : List Event) : List (String × String) :=
  (window.filter fun event => (normalizedOps rule.ops).contains event.op).map
    fun event => (event.op, eventGroupValue event (strip rule.groupKey))

end EquivalenceRule

/-- Inside a window a rule with a group key keeps the order of its operations. -/
def groupedCommutationOk (baseWindow optWindow : List Event) (rules : List EquivalenceRule) :
    Bool :=
  rules.all fun rule =>
    !rule.groups || decide (rule.signature baseWindow = rule.signature optWindow)

/-- The set of actions that run in parallel with an action; the last scope counts. -/
def parallelScope (scopes : List (List String)) (actionId : String) : Option (List String) :=
  ((scopes.map fun scope => ((scope.map strip).filter (· ≠ "")).dedup).filter fun scope =>
    decide (2 ≤ scope.length) && scope.contains actionId).getLast?

def sameSet (a b : List String) : Bool := a.all (b.contains ·) && b.all (a.contains ·)

/-- The parallel set that two events share. -/
def parallelScopeForEvents (base opt : Event) (scopes : List (List String)) :
    Option (List String) :=
  match parallelScope scopes (eventActionId base), parallelScope scopes (eventActionId opt) with
  | some baseScope, some optScope => if sameSet baseScope optScope then some baseScope else none
  | _, _ => none

/-- `Counter(base) != Counter(opt)` on the keys of two windows. -/
def windowsMatch (base opt : List Event) : Except PyErr Bool :=
  if countable base && countable opt then
    .ok (sameCounts (base.map eventKey) (opt.map eventKey))
  else .error .typeError

/-- The rest of two traces of one length; every window takes at least one event. -/
def tolerantFrom (config : TraceCompareConfig) : ℕ → List Event → List Event → Except PyErr Bool
  | fuel + 1, b :: base, o :: opt =>
      let continueAfter (window : Event → Bool) (ok : List Event → List Event → Bool) :=
        let baseWindow := (b :: base).takeWhile window
        let optWindow := (o :: opt).takeWhile window
        let size := max baseWindow.length optWindow.length
        do
          if ← windowsMatch baseWindow optWindow then
            if ok baseWindow optWindow then
              tolerantFrom config fuel ((b :: base).drop size) ((o :: opt).drop size)
            else return false
          else return false
      if (eventKey b).eqv (eventKey o) then tolerantFrom config fuel base opt
      else if config.commutableOps.contains b.op && config.commutableOps.contains o.op &&
          decide (b.phase = o.phase) then
        continueAfter (fun event => config.commutableOps.contains event.op)
          (fun baseWindow optWindow =>
            groupedCommutationOk baseWindow optWindow config.equivalenceRules)
      else
        match parallelScopeForEvents b o config.parallelActionScopes with
        | some scope =>
            continueAfter (fun event => scope.contains (eventActionId event)) (fun _ _ => true)
        | none => .ok false
  | _, _, _ => .ok true

def tolerantEqual (config : TraceCompareConfig) (base opt : List Event) : Except PyErr Bool :=
  if base.length ≠ opt.length then .ok false else tolerantFrom config base.length base opt

/-! ## Hunks -/

/-- A stretch in which two traces differ. -/
structure DiffHunk where
  anchor : String
  baselineOps : List String
  optimizedOps : List String
  severity : String
deriving DecidableEq

/-- `f"{e.phase}:{e.provider}:{e.op}:{e.target}"`. -/
def eventText (e : Event) : String := e.phase ++ ":" ++ e.provider ++ ":" ++ e.op ++ ":" ++ e.target

def hunkOf (baseOps optOps : List String) (opcode : SeqMatch.Opcode) : DiffHunk :=
  let baseline := (baseOps.drop opcode.i1).take (opcode.i2 - opcode.i1)
  let optimized := (optOps.drop opcode.j1).take (opcode.j2 - opcode.j1)
  { anchor := ((baseline ++ optimized).head?).getD "UNKNOWN"
    baselineOps := baseline
    optimizedOps := optimized
    severity :=
      if (baseline ++ optimized).any (contains · "STATE_WRITE") then "HIGH" else "MEDIUM" }

def diffSignature (base opt : List Event) : List DiffHunk :=
  let baseOps := base.map eventText
  let optOps := opt.map eventText
  ((SeqMatch.getOpcodes baseOps optOps).filter (·.tag ≠ .equal)).map (hunkOf baseOps optOps)

/-! ## The comparison -/

structure DiffResult where
  strictEqual : Bool
  tolerantEqual : Bool
  diffSignature : List DiffHunk
deriving DecidableEq

/-- The verdicts on two traces, and the hunks where they are not tolerantly equal. -/
def compareTraces (sha1 : String → String) (traceBase traceOpt : List Event)
    (config : TraceCompareConfig) : Except PyErr DiffResult := do
  let base := traceBase.map (canonicalizeEvent sha1 config.volatileParamKeys)
  let opt := traceOpt.map (canonicalizeEvent sha1 config.volatileParamKeys)
  let strict := strictEqual base opt
  let tolerant ← if strict then .ok true else tolerantEqual config base opt
  return {
    strictEqual := strict
    tolerantEqual := tolerant
    diffSignature := if tolerant then [] else diffSignature base opt }

end FloWeaver.Trace
