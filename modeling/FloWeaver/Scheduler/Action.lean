import FloWeaver.Contracts

/-!
# What the scheduler reads off an action

An action is a JSON object of the target.  The scheduler looks at its protocol, at the
entity it writes to, at the words that tell a read from a control action, and at the
grouping keys of its endpoint.

* `actionIndex` — the actions of a target by id.
* `actionProtocol`, `actionLane`, `actionIsWriteback` — where an action runs.
* `actionIsBatchSafe`, `actionIsReadLike`, `actionIsControlLike` — what it does.
* `actionPhaseMap` — acquisition, control, verification or writeback.
* `actionGroupValue`, `actionBatchGroupValue` — the key under which calls may share a request.
-/

namespace FloWeaver.Scheduler

open Py

/-- The actions of a target by id, in declaration order. -/
abbrev ActionIndex := OrderedDict String Dict

/-- The transport of an action. -/
inductive Protocol where
  | ble
  | cloud
  | ha
  | localNet
  | unknown
deriving DecidableEq, Repr

/-- The lane of an action: its transport, or the entity it writes back to. -/
inductive Lane where
  | bleLocal
  | cloud
  | localNet
  | writebackOverall
  | writebackBle
  | writebackCloud
  | writebackLocal
  | writeback
  | unknown
deriving DecidableEq, Repr

/-- The phase of an action. -/
inductive Phase where
  | preControlAcquisition
  | control
  | postControlVerification
  | writeback
deriving DecidableEq, Repr

def Protocol.text : Protocol → String
  | .ble => "BLE"
  | .cloud => "CLOUD"
  | .ha => "HA"
  | .localNet => "LOCAL"
  | .unknown => "UNKNOWN"

/-- `lane.startswith("WRITEBACK")`. -/
def Lane.isWriteback : Lane → Bool
  | .writebackOverall | .writebackBle | .writebackCloud | .writebackLocal | .writeback => true
  | _ => false

/-! ## Sub-objects -/

def target (action : Dict) : Dict := (action.get "target").asDict

def execCfg (action : Dict) : Dict := (action.get "exec").asDict

def dataTemplate (action : Dict) : Dict := ((execCfg action).get "data_template").asDict

/-- The first truthy value, or the empty text. -/
def firstOf (values : List Val) : Val := values.foldr Val.or (.str "")

/-- The actions of the target by trimmed id; an action without an id is left out. -/
def actionIndex (target : OptimizationTarget) : ActionIndex :=
  target.vdevActions.foldl
    (fun index action =>
      let actionId := strip (action.getD "action_id" (.str "")).pyStr
      if actionId = "" then index else index.set actionId action)
    .empty

/-- The index is the dictionary of the actions under their trimmed ids. -/
theorem actionIndex_eq_ofList (target : OptimizationTarget) :
    actionIndex target = .ofList ((target.vdevActions.map fun action =>
      (strip (action.getD "action_id" (.str "")).pyStr, action)).filter fun row => row.1 ≠ "") := by
  rw [OrderedDict.ofList, List.foldl_filter, List.foldl_map, actionIndex]
  refine congrArg (target.vdevActions.foldl · OrderedDict.empty) ?_
  funext index action
  by_cases hid : strip (action.getD "action_id" (.str "")).pyStr = "" <;> simp [hid]

/-- The actions of the index are actions of the target. -/
theorem mem_of_get?_actionIndex {target : OptimizationTarget} {actionId : String} {action : Dict}
    (h : (actionIndex target).get? actionId = some action) : action ∈ target.vdevActions := by
  rw [actionIndex_eq_ofList] at h
  obtain ⟨row, hrow, heq⟩ :=
    List.mem_map.1 (List.mem_of_mem_filter (OrderedDict.mem_of_get?_ofList h))
  obtain ⟨-, rfl⟩ := Prod.mk.inj heq
  exact hrow

/-- No action of the index has the empty id. -/
theorem actionIndex_ne_empty {target : OptimizationTarget} {a : String}
    (ha : a ∈ (actionIndex target).keys) : a ≠ "" := by
  rw [actionIndex_eq_ofList, OrderedDict.mem_keys_ofList] at ha
  obtain ⟨row, hrow, rfl⟩ := List.mem_map.1 ha
  exact of_decide_eq_true (List.mem_filter.1 hrow).2

/-- The action of an id. -/
def actionOf (index : ActionIndex) (actionId : String) : Dict := (index.get? actionId).getD []

/-! ## Transport -/

def actionProtocol (action : Dict) : Protocol :=
  let token := action.get "protocol"
  let token := if token.truthy then token else (action.get "io").asDict.get "protocol"
  let value := upper (strip (firstOf [token]).pyStr)
  if value = "BLE" then .ble
  else if value = "CLOUD" then .cloud
  else if value = "HA" then .ha
  else if value = "LOCAL" then .localNet
  else if value = "MQTT" then .localNet
  else .unknown

/-- The resource an action occupies is its transport. -/
def actionResource (action : Dict) : Protocol := actionProtocol action

def actionLane (action : Dict) : Lane :=
  let entity := lower (firstOf [(target action).get "entity_id", (target action).get "id"]).pyStr
  match actionProtocol action with
  | .ble => .bleLocal
  | .cloud => .cloud
  | .localNet => .localNet
  | .ha =>
      if contains entity "overall" then .writebackOverall
      else if contains entity "ble_lane" then .writebackBle
      else if contains entity "cloud_lane" then .writebackCloud
      else if contains entity "local_lane" || contains entity "mqtt_lane" then .writebackLocal
      else .writeback
  | .unknown => .unknown

def actionIsWriteback (action : Dict) : Bool := (actionLane action).isWriteback

/-! ## Grouping keys -/

/-- The host part of an endpoint. -/
def hostOfEndpoint (endpoint : String) : String :=
  if startsWith endpoint "http://" || startsWith endpoint "https://" then
    beforeFirst (afterFirst endpoint "//") "/"
  else if contains endpoint ":" then beforeFirst endpoint ":"
  else endpoint

def actionGroupValue (action : Dict) (groupKey : String) : String :=
  let key := lower (strip groupKey)
  let tgt := target action
  let cfg := execCfg action
  let tpl := dataTemplate action
  let endpoint := (firstOf [tgt.get "endpoint", tgt.get "id", cfg.get "endpoint",
    tpl.get "endpoint"]).pyStr
  if key = "" then ""
  else if key = "endpoint" then endpoint
  else if key = "device_id" then
    (firstOf [tgt.get "device_id", tgt.get "id", cfg.get "device_id", tpl.get "device_id"]).pyStr
  else if key = "host" then
    let explicit := firstOf [action.get "host_group_key", tgt.get "host_group_key",
      cfg.get "host_group_key", tpl.get "host_group_key"]
    if strip explicit.pyStr ≠ "" then explicit.pyStr else hostOfEndpoint endpoint
  else (firstOf [action.get key, tgt.get key, cfg.get key]).pyStr

def actionProvider (action : Dict) : String :=
  let tgt := target action
  let cfg := execCfg action
  let provider := strip (firstOf [action.get "provider", tgt.get "provider",
    cfg.get "provider"]).pyStr
  if provider ≠ "" then provider
  else hostOfEndpoint (firstOf [tgt.get "endpoint", tgt.get "id", cfg.get "endpoint"]).pyStr

def canonicalBucketToken (value : String) : String :=
  let token := lower (strip value)
  if startsWith token "http://" || startsWith token "https://" then
    beforeFirst token "//" ++ "//" ++ rstripSlash (afterFirst token "//")
  else rstripSlash token

def batchBucketKey (action : Dict) (groupKey : String) : String :=
  let group := canonicalBucketToken (actionGroupValue action groupKey)
  let host := canonicalBucketToken (actionGroupValue action "host")
  let provider := canonicalBucketToken (actionProvider action)
  if lower (strip groupKey) = "endpoint" then
    join "|" ([provider, host, group].filter (· ≠ ""))
  else group

/-- The endpoint group an action names itself. -/
def explicitEndpointGroup (action : Dict) : Val :=
  firstOf [action.get "endpoint_group_key", (target action).get "endpoint_group_key",
    (execCfg action).get "endpoint_group_key", (dataTemplate action).get "endpoint_group_key",
    (dataTemplate action).get "device_group"]

/-- The host group an action names itself. -/
def explicitHostGroup (action : Dict) : Val :=
  firstOf [action.get "host_group_key", (target action).get "host_group_key",
    (execCfg action).get "host_group_key", (dataTemplate action).get "host_group_key"]

def actionBatchGroupValue (action : Dict) (groupKey : String) : String :=
  if lower (strip groupKey) = "endpoint" then
    let explicit := (explicitEndpointGroup action).pyStr
    if strip explicit ≠ "" then
      let host := canonicalBucketToken (actionGroupValue action "host")
      join "|" ([host, canonicalBucketToken explicit].filter (· ≠ ""))
    else batchBucketKey action groupKey
  else canonicalBucketToken (actionGroupValue action groupKey)

/-- The entity a writeback writes to. -/
def writebackTargetId (action : Dict) : String :=
  strip (firstOf [(target action).get "entity_id", (target action).get "id",
    (execCfg action).get "entity_id", (dataTemplate action).get "entity_id"]).pyStr

def actionHasExplicitGroupMetadata (action : Dict) : Bool :=
  [action, target action, execCfg action, dataTemplate action].any fun container =>
    ["endpoint_group_key", "host_group_key", "session_group_key", "bucket"].any fun key =>
      strip (container.getD key (.str "")).pyStr ≠ ""

/-! ## What an action does -/

def actionMarkerHints (action : Dict) : List String :=
  match action.getD "marker_hints" (.list []) with
  | .list items =>
      (items.map fun item =>
        replaceChar (replaceChar (lower (strip item.pyStr)) '-' '_') ' ' '_').filter (· ≠ "")
  | _ => []

def actionIsSubscribeLike (action : Dict) : Bool :=
  let hints := actionMarkerHints action
  if ["subscribe", "subscribe_pairing", "unsubscribe"].any (hints.contains ·) then true
  else
    let fields := [action.get "action_kind", action.get "kind", (execCfg action).get "kind",
      (execCfg action).get "service", (target action).get "kind", (target action).get "id",
      (target action).get "entity_id"]
    let words := (fields.filter fun value => strip value.pyStr ≠ "").map fun value =>
      lower (strip value.pyStr)
    contains (join " " words) "subscribe"

/-- A minimal gap between two BLE actions is dropped when one of them subscribes. -/
def needsBleMinGap (actionA actionB : Dict) : Bool :=
  !(actionIsSubscribeLike actionA || actionIsSubscribeLike actionB)

def actionSemanticStrings (action : Dict) : List String :=
  let fields := [action.get "type", action.get "action_kind", action.get "kind",
    (execCfg action).get "service", (execCfg action).get "kind", (target action).get "kind",
    (target action).get "id", (target action).get "entity_id", (target action).get "endpoint"]
  (fields.map fun field => lower (strip field.pyStr)).filter (· ≠ "")

/-- `[a-z0-9]`. -/
def isLowerAlnum (c : Char) : Bool := ('a' ≤ c && c ≤ 'z') || ('0' ≤ c && c ≤ '9')

def actionSemanticTokens (strings : List String) : List String :=
  strings ++ strings.flatMap (splitBy isLowerAlnum)

def readMarkers : List String :=
  ["status", "get", "get_state", "read", "read_runtime", "read_sensor", "read_status",
    "read_last_message", "fetch", "list", "refresh", "refresh_cover"]

def actionIsBatchSafe (action : Dict) : Bool :=
  let strings := actionSemanticStrings action
  strings.any (readMarkers.contains ·) || strings.any (endsWith · ".status") ||
    (actionSemanticTokens strings).any (readMarkers.contains ·)

def actionIsIdempotent (action : Dict) : Bool :=
  let value := lower (strip (action.getD "idempotent" (.str "")).pyStr)
  value = "yes" || value = "true"

def actionIsReadLike (action : Dict) : Bool := !actionIsWriteback action && actionIsBatchSafe action

def controlTokens : List String :=
  ["turn_on", "turn_off", "toggle", "set_", "open", "close", "play_media", "media_play",
    "media_pause", "volume", "brightness", "color_temp", "hs_color", "rgb_color",
    "cover_position", "cover_tilt", "hvac_mode", "temperature", "fan_mode", "percentage",
    "preset_mode", "swing_mode", "source"]

def actionIsControlLike (action : Dict) : Bool :=
  if actionIsWriteback action || actionIsReadLike action then false
  else (actionSemanticStrings action).any fun value => controlTokens.any (contains value ·)

/-! ## Phases -/

/-- The position of the last control action. -/
def lastControlIdx (rows : List (String × Dict)) : Option ℕ :=
  ((rows.zipIdx.filter fun row =>
    !actionIsWriteback row.1.2 && actionIsControlLike row.1.2).map (·.2)).getLast?

/-- The phase of the action at a position. -/
def phaseAt (lastControl : Option ℕ) (action : Dict) (idx : ℕ) : Phase :=
  if actionIsWriteback action then .writeback
  else if actionIsControlLike action then .control
  else
    match lastControl with
    | some last => if last < idx then .postControlVerification else .preControlAcquisition
    | none => .preControlAcquisition

def actionPhaseMap (index : ActionIndex) : List (String × Phase) :=
  index.rows.zipIdx.map fun row =>
    (row.1.1, phaseAt (lastControlIdx index.rows) row.1.2 row.2)

/-- The phase of an action, acquisition by default. -/
def phaseOf (phases : List (String × Phase)) (actionId : String) : Phase :=
  ((phases.find? (fun row => row.1 = actionId)).map (·.2)).getD .preControlAcquisition

end FloWeaver.Scheduler
