import FloWeaver.Scheduler.Action

/-!
# The optimisation target of a spec

The scoping engine reads what a virtual device declares — its actions, the order between them, the
sources they rest on — checks it, and writes the target that all later stages work on.

* `normalizeAction`, `normalizeActions` — the declared actions, and what they are anchored to.
* `normalizeDependencies` — the declared order; an unknown action is an error.
* `buildTarget` — the target, or why the spec is refused.
* `buildTarget_faithful_iff` — for which accepted specs the scheduler finds everything declared.
-/

namespace FloWeaver.Scoping

open Py

/-- Why there is no target: `VDevSpecError`, a `ValueError` of a later check, or a value that
cannot be read. -/
inductive ScopingError where
  | spec (message : String)
  | value (message : String)
  | python (e : PyErr)

abbrev Checked (α : Type) := Except ScopingError α

def python {α : Type} (x : Except PyErr α) : Checked α := x.mapError .python

def specError {α : Type} (message : String) : Checked α := .error (.spec message)

/-- The printed form of a list of texts. -/
def listRepr (texts : List String) : String := (Val.list (texts.map .str)).repr

/-- `d.setdefault(key, value)`. -/
def setdefault (d : Dict) (key : String) (value : Val) : Dict :=
  if (d.get? key).isSome then d else d.set key value

/-- `dict(v)`: a dict, or pairs of a key and a value.  A key is kept as it is printed. -/
def dictOf : Val → Except PyErr Dict
  | .dict rows => .ok rows
  | v => do
    let items ← v.needItems
    let rows ← items.mapM fun item => do
      match ← item.needItems with
      | [.list _, _] | [.dict _, _] => .error .typeError
      | [key, value] => .ok (key.pyStr, value)
      | _ => .error .valueError
    return Dict.update [] rows

/-! ## Fields of an action -/

def protocolToMarkers : List (String × List String) :=
  [("BLE", ["BLE_OP"]), ("CLOUD", ["CLOUD_OP"]), ("LOCAL", ["LOCAL_API_READ"]),
    ("MQTT", ["MQTT_SUBSCRIBE"]), ("HA", ["STATE_WRITE"])]

def targetKindAlias : List (String × String) :=
  [("ha_entity", "ha_entity"), ("entity", "ha_entity"), ("cloud_endpoint", "cloud_endpoint"),
    ("cloud_api", "cloud_endpoint"), ("ble_device", "ble_device"),
    ("ble_characteristic", "ble_characteristic"), ("gatt_characteristic", "ble_characteristic"),
    ("ble_gatt_characteristic", "ble_characteristic")]

def execPrimitiveKinds : List String :=
  ["ha_service_call", "ha_state_read", "wait_state", "sleep", "retry_backoff"]

def normalizeProtocol : Val → String
  | .none => "HA"
  | v => upper (strip v.pyStr)

def canonicalTargetKind (kindRaw : String) : Checked String :=
  match targetKindAlias.lookup (lower (strip kindRaw)) with
  | some kind => .ok kind
  | none => specError ("Unsupported target.kind '" ++ kindRaw ++ "'. Allowed values: " ++
      listRepr (sortedSet (targetKindAlias.map (·.1))))

/-- The kind of a target; an action that only waits may have none. -/
def targetKindOf (kindRaw : String) : Checked String :=
  if kindRaw = "" then pure "" else canonicalTargetKind kindRaw

/-- What an action is anchored to. -/
inductive AnchorField where
  | entities
  | endpoints
  | characteristics
  | deviceIds
  | serviceEntrypoints
  | anchorOps
  | requiredStateWrites
deriving DecidableEq

abbrev Anchors := AnchorField → List String

def AnchorField.key : AnchorField → String
  | .entities => "entities"
  | .endpoints => "endpoints"
  | .characteristics => "characteristics"
  | .deviceIds => "device_ids"
  | .serviceEntrypoints => "service_entrypoints"
  | .anchorOps => "anchor_ops"
  | .requiredStateWrites => "required_state_writes"

def anchorFields : List AnchorField :=
  [.entities, .endpoints, .characteristics, .deviceIds, .serviceEntrypoints, .anchorOps,
    .requiredStateWrites]

def Anchors.toDict (anchors : Anchors) : Dict :=
  anchorFields.map fun field => (field.key, .list ((anchors field).map .str))

def Anchors.add (anchors : Anchors) (field : AnchorField) (values : List String) : Anchors :=
  Function.update anchors field (anchors field ++ values)

/-- The texts that are not empty, each once. -/
def dedup (values : List String) : List String := (values.filter (· ≠ "")).eraseDups

def mergeAnchorValues (left right : Anchors) : Anchors :=
  fun field => dedup (left field ++ right field)

/-- The first text, unless it is empty. -/
def orText (first second : String) : String := if first = "" then second else first

def anchorFromTarget (target : Dict) : Checked Anchors := do
  let anchors : Anchors := fun _ => []
  let text := fun key => (target.getD key (.str "")).pyStr
  let kindRaw := strip (text "kind")
  if kindRaw = "" then return anchors
  let kind ← canonicalTargetKind kindRaw
  let anchors := anchors.add .entities [text "entity_id"]
  let anchors := match kind with
    | "ha_entity" => anchors.add .entities [orText (text "entity_id") (text "id")]
    | "cloud_endpoint" => anchors.add .endpoints [orText (strip (text "endpoint")) (text "id")]
    | "ble_device" => anchors.add .deviceIds [orText (strip (text "device_id")) (text "id")]
    | _ => (anchors.add .characteristics
        [orText (strip (text "characteristic")) (text "id")]).add .deviceIds
          [strip (text "device_id")]
  return fun field => (anchors field).filter (· ≠ "")

/-- The defaults of a primitive. -/
def execDefaults : String → List (String × Val)
  | "ha_service_call" => [("data_template", .dict []), ("blocking", .bool true)]
  | "ha_state_read" => [("attribute", .str "state")]
  | "wait_state" => [("timeout_s", .int 10), ("poll_interval_s", .float (1 / 4) "0.25")]
  | "sleep" => [("seconds", .float (1 / 10) "0.1")]
  | _ => [("base_ms", .int 200), ("factor", .float 2 "2.0"), ("attempts", .int 3)]

def normalizeExecPrimitive (actionId : String) (row : Dict) : Checked Dict :=
  let action := "Action '" ++ actionId ++ "' "
  match row.get "exec" with
  | .dict primitive => do
    let kind := strip (Dict.getD primitive "kind" (.str "")).pyStr
    if !execPrimitiveKinds.contains kind then
      specError (action ++ "exec.kind '" ++ kind ++ "' is unsupported; expected one of " ++
        listRepr (sortedSet execPrimitiveKinds))
    let normalized := Dict.set primitive "kind" (.str kind)
    if kind = "ha_service_call" && !((normalized.get "domain").truthy &&
        (normalized.get "service").truthy) then
      specError (action ++ "ha_service_call requires domain and service")
    if (kind = "ha_state_read" || kind = "wait_state") && !(normalized.get "entity_id").truthy then
      specError (action ++ kind ++ " requires entity_id")
    return (execDefaults kind).foldl (fun d row => setdefault d row.1 row.2) normalized
  | _ => specError (action ++ "must define executable mapping in `exec` " ++
      "(ha_service_call/ha_state_read/wait_state/sleep/retry_backoff)")

/-- Tokens in upper case, each once. -/
def markerTokens (texts : List String) : List String :=
  dedup (texts.map fun text => upper (strip text))

def normalizeMarkerHints : Val → List String
  | .list values => markerTokens (values.map Val.pyStr)
  | _ => []

/-- `text.strip(".")`. -/
def stripDots (text : String) : String :=
  String.ofList (((text.toList.dropWhile (· = '.')).reverse.dropWhile (· = '.')).reverse)

/-- Domain and service of a service call. -/
def serviceToken (execPrimitive : Dict) : String :=
  let text := fun key => lower (strip (execPrimitive.getD key (.str "")).pyStr)
  if strip (execPrimitive.getD "kind" (.str "")).pyStr = "ha_service_call" then
    stripDots (text "domain" ++ "." ++ text "service")
  else ""

def deriveMarkerHints (protocol actionType targetKind : String) (execPrimitive : Dict) :
    List String :=
  let kind := lower actionType
  let execKind := strip (execPrimitive.getD "kind" (.str "")).pyStr
  let names := fun (tokens : List String) => tokens.any (contains (serviceToken execPrimitive))
  let hint := fun (condition : Bool) (marker : String) => if condition then [marker] else []
  let waits := ["sleep", "retry_backoff"].contains execKind
  markerTokens (((protocolToMarkers.lookup protocol).getD []) ++
    (if protocol = "BLE" then
      hint (targetKind = "ble_characteristic") "BLE_GATT_OP" ++
      hint (["read", "write"].contains kind &&
        ["ble_device", "ble_characteristic"].contains targetKind) "BLE_GATT_OP" ++
      hint (names ["connect"]) "BLE_CONNECT" ++
      hint (names ["disconnect", "close"]) "BLE_DISCONNECT" ++
      hint (names ["scan", "discover"]) "BLE_SCAN" ++
      hint (names ["notify", "subscribe", "listener", "listen"]) "BLE_NOTIFY_SUBSCRIBE" ++
      hint (names ["notify", "subscribe", "listener", "listen"]) "SUBSCRIBE" ++
      hint (names ["unsubscribe", "unsub"]) "UNSUBSCRIBE" ++
      hint (names ["read", "write", "notify", "gatt", "subscribe", "unsubscribe"]) "BLE_GATT_OP" ++
      hint waits "BLE_RETRY_OR_TIMEOUT"
    else []) ++
    (if protocol = "CLOUD" then
      hint (["call_api", "read", "write", "status", "read_runtime", "poll"].contains kind)
        "CLOUD_HTTP_CALL" ++
      hint (names ["request", "get", "post", "put", "patch", "delete", "call_api", "api"])
        "CLOUD_HTTP_CALL" ++
      hint (["read", "status", "read_runtime", "poll"].contains kind) "CLOUD_STATUS_CALL" ++
      hint (names ["status", "runtime", "fetch", "poll", "refresh", "update"])
        "CLOUD_STATUS_CALL" ++
      hint (["status", "read_runtime", "poll"].contains kind ||
        names ["poll", "refresh", "update"]) "POLL_UPDATE" ++
      hint (names ["login", "auth", "token", "refresh", "oauth"]) "CLOUD_TOKEN_REFRESH" ++
      hint (names ["batch", "bulk"]) "CLOUD_BATCH_CALL" ++
      hint (names ["session", "clientsession"]) "CLOUD_SESSION_REUSE" ++
      hint waits "CLOUD_BACKOFF_SLEEP"
    else []) ++
    (if protocol = "LOCAL" then
      hint (["read", "status", "get_state", "read_runtime", "call_api"].contains kind ||
        execKind = "ha_state_read") "LOCAL_API_READ" ++
      hint (names ["subscribe", "listen", "message"]) "MQTT_SUBSCRIBE"
    else []) ++
    (if protocol = "MQTT" then
      ["MQTT_SUBSCRIBE"] ++
      hint (names ["subscribe", "listen", "message", "read_last_message"]) "SUBSCRIBE"
    else []) ++
    hint (protocol = "HA" && kind = "write") "STATE_WRITE")

/-! ## Actions -/

/-- An action of the target, and what it adds to the anchors. -/
structure NormalizedAction where
  action : Dict
  actionId : String
  critical : Bool
  anchors : Anchors
  markerHints : List String

def normalizeAction (raw : Val) : Checked NormalizedAction := do
  let row ← python raw.needDict
  let rawId := row.get "action_id"
  if !rawId.truthy then specError "Each action must include action_id"
  let actionId := rawId.pyStr
  let protocol := normalizeProtocol ((row.get "io").asDict.get "protocol")
  let semantics := (row.get "semantics").asDict
  let critical := (semantics.get "critical").truthy
  let target := (row.get "target").asDict
  let execPrimitive ← normalizeExecPrimitive actionId row
  let kindRaw := strip (Dict.getD target "kind" (.str "")).pyStr
  let execKind := (execPrimitive.get "kind").pyStr
  if kindRaw = "" && !(["sleep", "retry_backoff"].contains execKind) then
    specError ("Action '" ++ actionId ++ "' target.kind is required for exec.kind=" ++ execKind)
  let targetKind ← targetKindOf kindRaw
  let actionType := (row.getD "type" (.str "act")).pyStr
  let markerHints := markerTokens
    (deriveMarkerHints protocol actionType targetKind execPrimitive ++
      normalizeMarkerHints (row.getD "marker_hints" (.list [])) ++
      normalizeMarkerHints (semantics.getD "marker_hints" (.list [])))
  let anchors ← anchorFromTarget target
  let sideEffects ← python (semantics.getD "side_effects" (.list [])).needItems
  let mustHappenBefore ← python (semantics.getD "must_happen_before" (.list [])).needItems
  return {
    actionId, critical, anchors, markerHints
    action :=
      [("action_id", .str actionId), ("type", .str actionType), ("protocol", .str protocol),
        ("target_kind", .str targetKind), ("target", .dict target), ("exec", .dict execPrimitive),
        ("critical", .bool critical), ("side_effects", .list sideEffects),
        ("must_happen_before", .list mustHappenBefore),
        ("marker_hints", .list (markerHints.map .str))] }

/-- The anchors of an action, and its hints as operations. -/
def Anchors.addAction (anchors : Anchors) (row : NormalizedAction) : Anchors :=
  row.markerHints.foldl
    (fun anchors hint => if hint ∈ anchors .anchorOps then anchors else anchors.add .anchorOps [hint])
    (mergeAnchorValues anchors row.anchors)

/-- The entities that the contract of the device lets it write. -/
def contractWrites (vdev : Dict) : Checked (List String) := do
  let interfaces ← python (vdev.getD "interfaces" (.dict [])).needDict
  match interfaces.getD "state_contract" (.dict []) with
  | .dict contract =>
    let items ← python (Dict.getD contract "writes" (.list [])).needItems
    let ids ← items.mapM fun item => do
      let item ← python item.needDict
      return if (item.get "entity_id").truthy then [(item.get "entity_id").pyStr] else []
    return ids.flatten
  | _ => return []

/-- The service by which the device is called. -/
def serviceEntrypoint (vdev : Dict) : List String :=
  let entrypoint := (vdev.get "entrypoint").asDict
  let service := (entrypoint.get "service").asDict
  if (entrypoint.get "kind").pyStr = "ha_service" && (service.get "domain").truthy &&
      (service.get "name").truthy then
    [(service.get "domain").pyStr ++ "." ++ (service.get "name").pyStr]
  else []

/-- `vdev_spec.get("vdev", {})`. -/
def vdevOf (vdevSpec : Dict) : Except PyErr Dict := (vdevSpec.getD "vdev" (.dict [])).needDict

def normalizeActions (vdevSpec : Dict) : Checked (List Dict × Anchors × List String) := do
  let vdev ← python (vdevOf vdevSpec)
  match vdev.getD "actions" (.list []) with
  | .list (raw :: rest) =>
    let rows ← (raw :: rest).mapM normalizeAction
    let writes ← contractWrites vdev
    let anchors := rows.foldl Anchors.addAction fun _ => []
    let anchors := ((anchors.add .entities writes).add .requiredStateWrites writes).add
      .serviceEntrypoints (serviceEntrypoint vdev)
    return (rows.map (·.action), mergeAnchorValues (fun _ => []) anchors,
      (rows.filter (·.critical)).map (·.actionId))
  | _ => specError "vdev.actions is required and must be a non-empty list"

/-! ## Sources -/

/-- Where the paths of the sources lead, and which of them are there. -/
structure FileSystem where
  resolve : String → String
  present : String → Bool

/-- `VDevScopingEngine._resolve_path(path)`, of a path that is text. -/
def FileSystem.resolvePath (fs : FileSystem) : Val → Except PyErr String
  | .str path => .ok (fs.resolve path)
  | _ => .error .typeError

structure SourceFileBinding where
  deviceId : String
  integration : String
  filePath : String
  protocols : List String

/-- `repr(type(v))`. -/
def typeRepr : Val → String
  | .none => "<class 'NoneType'>"
  | .bool _ => "<class 'bool'>"
  | .int _ => "<class 'int'>"
  | .float _ _ => "<class 'float'>"
  | .str _ => "<class 'str'>"
  | .list _ => "<class 'list'>"
  | .dict _ => "<class 'dict'>"

def normalizeSourceSpec : Val → Checked Dict
  | .list entries => .ok [("integrations", .list entries)]
  | .dict rows => .ok rows
  | v => specError ("source_spec must be dict or list, got " ++ typeRepr v)

/-- The rows of a source spec, under the first of three names. -/
def sourceEntries (sourceSpec : Dict) : List Val :=
  match sourceSpec.get "integrations", sourceSpec.get "files", sourceSpec.get "mappings" with
  | .list entries, _, _ => entries
  | _, .list entries, _ => entries
  | _, _, .list entries => entries
  | _, _, _ => []

/-- A row without a path is passed over. -/
def sourceBinding (fs : FileSystem) (entry : Val) : Except PyErr (Option SourceFileBinding) := do
  let row ← entry.needDict
  let path := (row.get "file_path").or (row.get "path")
  if !path.truthy then return none
  let filePath ← fs.resolvePath path
  let protocols ← (row.getD "protocols" (.list [])).needItems
  return some {
    filePath
    deviceId := (row.getD "device_id" (row.getD "device" (.str "unknown_device"))).pyStr
    integration := (row.getD "integration" (row.getD "domain" (.str "unknown_integration"))).pyStr
    protocols := protocols.map normalizeProtocol }

/-- The files of the sources and their protocols. -/
structure SourceScope where
  files : List String
  protocols : List String

def normalizeSourceScope (fs : FileSystem) (vdevSpec sourceSpec : Dict)
    (bindings : List SourceFileBinding) : Checked SourceScope := do
  let sources ← python (vdevSpec.getD "sources" (.dict [])).needDict
  let haCore := sources.getD "ha_core" (.dict [])
  let sourceRepo ← if (sourceSpec.get "repo_path").truthy then pure (sourceSpec.get "repo_path")
    else (·.get "repo_path") <$> python haCore.needDict
  if sourceRepo.truthy then
    let repoPath ← python (fs.resolvePath sourceRepo)
    if !fs.present repoPath then
      specError ("Source repo path does not exist: " ++ repoPath)
  let files := bindings.map (·.filePath)
  if files = [] then specError "SourceSpec must include at least one integration file mapping"
  let missingFiles := files.filter fun path => !fs.present path
  if missingFiles ≠ [] then
    specError ("SourceSpec contains missing file(s): " ++ join ", " missingFiles)
  let haCore ← python haCore.needDict
  let _ ← python (haCore.getD "domains" (.list [])).needItems
  let _ ← python (haCore.getD "platforms" (.list [])).needItems
  return { files, protocols := sortedSet ((bindings.flatMap (·.protocols)).filter (· ≠ "")) }

/-! ## Validation -/

mutual

/-- `_deep_merge_dict(base, override)`. -/
def deepMerge : Dict → List (String × Val) → Dict
  | base, [] => base
  | base, row :: rows => deepMerge (base.set row.1 (mergeRow (base.get? row.1) row)) rows

def mergeRow : Option Val → String × Val → Val
  | old, (_, value) => mergeValue old value

/-- A dict is merged into a dict; any other value replaces the old one. -/
def mergeValue : Option Val → Val → Val
  | some (.dict base), .dict override => .dict (deepMerge base override)
  | _, value => value

end

/-- A section of the run spec merged into that of the validation. -/
def mergeSection (runSpec : Dict) (key : String) (validation : Dict) : Dict :=
  match runSpec.getD key (.dict []) with
  | .dict rows => validation.set key (.dict (deepMerge (validation.get key).asDict rows))
  | _ => validation

def normalizeValidation (vdevSpec runSpec : Dict) : Dict :=
  let validation := deepMerge (vdevSpec.get "validation").asDict (runSpec.get "validation").asDict
  let validation := match runSpec.getD "observation" (.dict []) with
    | .dict observation =>
      let defaults : Dict := [("canonicalization_version", .str "v1"),
        ("equivalence_whitelist", .list []), ("semantic_ops", .list [])]
      validation.set "observation" (.dict (deepMerge
        (deepMerge defaults (validation.get "observation").asDict) observation))
    | _ => validation
  let validation := mergeSection runSpec "fault_model" (mergeSection runSpec "sampling" validation)
  let profileVersion := runSpec.get "profile_version"
  if profileVersion.truthy then validation.set "profile_version" profileVersion else validation

/-! ## Dependencies -/

def normalizeDependency (actionIds : List String) (depKind : String) (raw : Val) (idx : ℕ) :
    Checked Dict := do
  let label := depKind ++ " dependency[" ++ toString idx ++ "] "
  let dep ← python raw.needDict
  let before := strip (dep.getD "before" (.str "")).pyStr
  let after := strip (dep.getD "after" (.str "")).pyStr
  if before = "" || after = "" then specError (label ++ "must include before/after")
  if before = after then
    specError (label ++ "cannot reference identical before/after '" ++ before ++ "'")
  if !actionIds.contains before || !actionIds.contains after then
    specError (label ++ "references unknown action_id: " ++ before ++ "->" ++ after ++
      "; known actions=" ++ listRepr (sortedSet actionIds))
  return (dep.set "before" (.str before)).set "after" (.str after)

def normalizeDependencies (rows : List Val) (actionIds : List String) (depKind : String) :
    Checked (List Dict) :=
  rows.zipIdx.mapM fun row => normalizeDependency actionIds depKind row.1 row.2

/-- The rows of one kind of dependency. -/
def dependencyRows (vdev : Dict) (depKind : String) : Except PyErr (List Val) :=
  match vdev.getD "dependencies" (.dict []) with
  | .dict dependencies => (Dict.getD dependencies depKind (.list [])).needItems
  | _ => .ok []

/-! ## Checks of the target -/

def ensureOptimizationTarget (files : List String) (target : OptimizationTarget) : Checked Unit := do
  if files = [] then
    throw (.value "OptimizationTarget.source_scope.files cannot be empty")
  if target.vdevActions = [] then
    throw (.value "OptimizationTarget.vdev_actions cannot be empty")
  target.vdevActions.forM fun action => do
    let actionId := action.get "action_id"
    if !actionId.truthy then throw (.value "Each vdev action must include action_id")
    match action.get "exec" with
    | .dict execPrimitive =>
      if !(Dict.get execPrimitive "kind").truthy then
        throw (.value ("Action '" ++ actionId.pyStr ++ "' exec.kind is required"))
    | _ => throw (.value
        ("Action '" ++ actionId.pyStr ++ "' must include executable mapping in 'exec'"))

/-- `_is_number`: unlike `isinstance`, a `bool` is none. -/
def isPlainNumber : Val → Bool
  | .int _ | .float _ _ => true
  | _ => false

def validateActionExecMapping (action : Dict) : List String :=
  let label := "action:" ++ (action.getD "action_id" (.str "<unknown_action>")).pyStr ++ ":"
  match action.get "exec" with
  | .dict cfg =>
    let execCfg : Dict := cfg
    let kind := strip (execCfg.getD "kind" (.str "")).pyStr
    let missing := fun field error =>
      if strip (execCfg.getD field (.str "")).pyStr = "" then [label ++ error] else []
    let invalid := fun field (valid : Val → Bool) error =>
      if (execCfg.get? field).any (!valid ·) then [label ++ error] else []
    match kind with
    | "ha_service_call" =>
      missing "domain" "ha_service_call_missing_domain" ++
      missing "service" "ha_service_call_missing_service" ++
      invalid "data_template" (fun v => match v with | .dict _ => true | _ => false)
        "ha_service_call_invalid_data_template"
    | "ha_state_read" => missing "entity_id" "ha_state_read_missing_entity_id"
    | "wait_state" =>
      missing "entity_id" "wait_state_missing_entity_id" ++
      invalid "timeout_s" isPlainNumber "wait_state_invalid_timeout_s" ++
      invalid "poll_interval_s" isPlainNumber "wait_state_invalid_poll_interval_s"
    | "sleep" => invalid "seconds" isPlainNumber "sleep_invalid_seconds"
    | "retry_backoff" =>
      invalid "base_ms" isPlainNumber "retry_backoff_invalid_base_ms" ++
      invalid "factor" isPlainNumber "retry_backoff_invalid_factor" ++
      invalid "attempts" Val.isInt "retry_backoff_invalid_attempts"
    | _ => [label ++ "unsupported_exec_kind:" ++ kind]
  | _ => [label ++ "missing_exec_mapping"]

def validateTargetActionPrimitives (target : OptimizationTarget) : Checked Unit :=
  let errors := target.vdevActions.flatMap validateActionExecMapping
  if errors = [] then .ok ()
  else .error (.value ("Invalid action execution mapping: " ++ join "; " errors))

/-! ## The target -/

/-- `str(action.get("action_id", "")).strip()`. -/
def actionKey (action : Dict) : String := strip (action.getD "action_id" (.str "")).pyStr

/-- The ids of the actions as the dependencies are checked against them. -/
def knownIds (actions : List Dict) : List String :=
  (actions.map actionKey).filter (· ≠ "")

def buildTarget (fs : FileSystem) (vdevSpec : Dict) (rawSource : Val) (runSpec : Dict) :
    Checked OptimizationTarget := do
  let sourceSpec ← normalizeSourceSpec rawSource
  let specMeta ← python (vdevSpec.getD "meta" (.dict [])).needDict
  if !(specMeta.get "vdev_id").truthy then specError "vdev_spec.meta.vdev_id is required"
  let bindings ← python ((sourceEntries sourceSpec).mapM (sourceBinding fs))
  let scope ← normalizeSourceScope fs vdevSpec sourceSpec (bindings.filterMap id)
  let (actions, anchors, criticalIds) ← normalizeActions vdevSpec
  let actionIds := knownIds actions
  let vdev ← python (vdevOf vdevSpec)
  let hardRows ← python (dependencyRows vdev "hard")
  let softRows ← python (dependencyRows vdev "soft")
  let hardDependencies ← normalizeDependencies hardRows actionIds "hard"
  let softDependencies ← normalizeDependencies softRows actionIds "soft"
  let protocols : Val := .list (scope.protocols.map .str)
  let withProtocols := fun d =>
    if scope.protocols = [] then d else setdefault d "source_protocols" protocols
  let _ ← python (dictOf (vdev.getD "entrypoint" (.dict [])))
  let objectives ← python (dictOf (vdevSpec.getD "objectives" (.dict [])))
  let target : OptimizationTarget := {
    vdevActions := actions
    targetAnchors := anchors.toDict
    objectives
    constraints := withProtocols (vdevSpec.get "constraints").asDict
    validation := withProtocols (normalizeValidation vdevSpec runSpec)
    hardDependencies, softDependencies
    criticalActionIds := criticalIds }
  ensureOptimizationTarget scope.files target
  validateTargetActionPrimitives target
  return target

/-! ## What the scheduler finds -/

theorem python_eq_ok {α : Type} {x : Except PyErr α} {a : α} : python x = .ok a ↔ x = .ok a := by
  cases x <;> simp [python, Except.mapError]

/-- A check that was passed. -/
theorem check_eq_ok {α : Type} {p : Prop} [Decidable p] {message : String} {f : PUnit → Checked α}
    {x : Checked α} {a : α} :
    (if p then specError message >>= f else x) = .ok a ↔ ¬ p ∧ x = .ok a := by
  by_cases hp : p
  · rw [if_pos hp]
    exact iff_of_false (fun h => by cases h) fun h => h.1 hp
  · rw [if_neg hp]
    exact (and_iff_right hp).symm

theorem eq_dict_of_needDict {v : Val} {rows : Dict} (h : v.needDict = .ok rows) : v = .dict rows := by
  cases v <;> cases h
  rfl

/-- The declared actions of a spec. -/
def declaredActions (vdevSpec : Dict) : List Val :=
  match Dict.get (vdevSpec.get "vdev").asDict "actions" with
  | .list rows => rows
  | _ => []

def declaredId (raw : Val) : String := strip (Dict.get raw.asDict "action_id").pyStr

/-- The declared `must_happen_before` of an action, as it is iterated over. -/
def declaredNext (raw : Val) : List Val :=
  ((Dict.getD (Dict.get raw.asDict "semantics").asDict "must_happen_before"
    (.list [])).needItems.toOption).getD []

theorem of_normalizeAction {raw : Val} {row : NormalizedAction} (h : normalizeAction raw = .ok row) :
    actionKey row.action = declaredId raw ∧
      (row.action.getD "must_happen_before" (.list [])).needItems = .ok (declaredNext raw) := by
  simp only [normalizeAction, bind_eq_ok, python_eq_ok, check_eq_ok, pure_eq_ok] at h
  obtain ⟨fields, hfields, -, exec, -, -, kind, -, anchors, -, sideEffects, -, next, hnext, rfl⟩ := h
  obtain rfl := eq_dict_of_needDict hfields
  refine ⟨rfl, ?_⟩
  rw [declaredNext, Val.asDict, hnext]
  rfl

theorem asDict_get_of_needDict {d rows : Dict} {key : String}
    (h : (d.getD key (.dict [])).needDict = .ok rows) : (d.get key).asDict = rows := by
  rw [Dict.getD] at h
  rw [Dict.get]
  cases hkey : d.get? key with
  | none =>
    rw [hkey] at h
    exact Except.ok.inj h
  | some v =>
    rw [hkey, Option.getD_some] at h
    rw [Option.getD_some, eq_dict_of_needDict h, Val.asDict]

theorem of_normalizeActions {vdevSpec : Dict} {actions : List Dict} {anchors : Anchors}
    {criticalIds : List String} (h : normalizeActions vdevSpec = .ok (actions, anchors, criticalIds)) :
    List.Forall₂ (fun raw action => actionKey action = declaredId raw ∧
      (action.getD "must_happen_before" (.list [])).needItems = .ok (declaredNext raw))
      (declaredActions vdevSpec) actions := by
  rw [normalizeActions, bind_eq_ok] at h
  obtain ⟨vdev, hvdev, h⟩ := h
  rw [declaredActions, asDict_get_of_needDict (python_eq_ok.1 hvdev)]
  split at h
  · next raw rest hactions =>
    have hget : vdev.get "actions" = .list (raw :: rest) := by
      rw [Dict.getD] at hactions
      rw [Dict.get]
      cases hkey : vdev.get? "actions" with
      | none =>
        rw [hkey] at hactions
        cases hactions
      | some v =>
        rw [hkey] at hactions
        exact hactions
    simp only [bind_eq_ok, pure_eq_ok, Prod.mk.injEq] at h
    obtain ⟨rows, hrows, -, -, rfl, -⟩ := h
    rw [hget, List.forall₂_map_right_iff]
    exact (forall₂_of_mapM_ok hrows).imp fun _ _ hrow => of_normalizeAction hrow
  · cases h

theorem of_normalizeDependencies {rows : List Val} {actionIds : List String} {depKind : String}
    {dependencies : List Dict} (h : normalizeDependencies rows actionIds depKind = .ok dependencies) :
    ∀ dep ∈ dependencies, (dep.getD "before" (.str "")).pyStr ∈ actionIds ∧
      (dep.getD "after" (.str "")).pyStr ∈ actionIds := by
  intro dep hdep
  obtain ⟨row, -, h⟩ := mem_of_mapM_ok h dep hdep
  simp only [normalizeDependency, bind_eq_ok, check_eq_ok, pure_eq_ok] at h
  obtain ⟨raw, -, -, -, hknown, rfl⟩ := h
  simp only [Bool.or_eq_true, Bool.not_eq_true', List.contains_eq_mem, decide_eq_false_iff_not,
    not_or, not_not] at hknown
  have hset (key : String) (d : Dict) (v : Val) :
      ((d.set key v).getD key (.str "")).pyStr = v.pyStr := by
    rw [Dict.getD, Dict.get?_set, if_pos rfl, Option.getD_some]
  refine ⟨?_, by rw [hset]; exact hknown.2⟩
  rw [Dict.getD, Dict.get?_set, if_neg (by decide), ← Dict.getD, hset]
  exact hknown.1

theorem of_buildTarget {fs : FileSystem} {vdevSpec : Dict} {rawSource : Val} {runSpec : Dict}
    {target : OptimizationTarget} (h : buildTarget fs vdevSpec rawSource runSpec = .ok target) :
    (∃ anchors criticalIds,
      normalizeActions vdevSpec = .ok (target.vdevActions, anchors, criticalIds)) ∧
    (∃ rows, normalizeDependencies rows (knownIds target.vdevActions) "hard" =
      .ok target.hardDependencies) ∧
    ∃ rows, normalizeDependencies rows (knownIds target.vdevActions) "soft" =
      .ok target.softDependencies := by
  simp only [buildTarget, bind_eq_ok, check_eq_ok, pure_eq_ok] at h
  obtain ⟨_, -, _, -, -, _, -, _, -, normalized, hactions, _, -, hardRows, -, softRows, -, hard, hhard,
    soft, hsoft, _, -, _, -, _, -, _, -, rfl⟩ := h
  exact ⟨⟨normalized.2.1, normalized.2.2, hactions⟩, ⟨hardRows, hhard⟩, softRows, hsoft⟩

/-! ### The action index -/

theorem mem_keys_actionIndex {target : OptimizationTarget} {k : String} :
    k ∈ (Scheduler.actionIndex target).keys ↔ k ∈ knownIds target.vdevActions := by
  rw [Scheduler.actionIndex_eq_ofList, OrderedDict.mem_keys_ofList, knownIds, List.filter_map,
    List.filter_map, List.map_map]
  exact Iff.rfl

/-- The index has an entry for every action when no id is empty and none is used twice. -/
theorem length_keys_actionIndex_iff {target : OptimizationTarget} :
    (Scheduler.actionIndex target).keys.length = target.vdevActions.length ↔
      (∀ action ∈ target.vdevActions, actionKey action ≠ "") ∧
        (target.vdevActions.map actionKey).Nodup := by
  have hkeys : (Scheduler.actionIndex target).keys.Perm (knownIds target.vdevActions).dedup :=
    (List.perm_ext_iff_of_nodup (Scheduler.actionIndex target).keys_nodup (List.nodup_dedup _)).2
      fun k => mem_keys_actionIndex.trans List.mem_dedup.symm
  have hsub : (knownIds target.vdevActions).Sublist (target.vdevActions.map actionKey) :=
    List.filter_sublist
  have hdedup := List.dedup_sublist (knownIds target.vdevActions)
  rw [hkeys.length_eq]
  constructor
  · intro h
    rw [← List.length_map (f := actionKey)] at h
    have hfilter := hsub.eq_of_length_le (h ▸ hdedup.length_le)
    have hall := hdedup.eq_of_length_le (h ▸ hsub.length_le)
    refine ⟨fun action haction => ?_, ?_⟩
    · have hmem := List.mem_map_of_mem (f := actionKey) haction
      rw [← hfilter, knownIds, List.mem_filter] at hmem
      exact of_decide_eq_true hmem.2
    · rw [← hfilter, ← hall]
      exact List.nodup_dedup _
  · rintro ⟨hnonblank, hnodup⟩
    have hfilter : knownIds target.vdevActions = target.vdevActions.map actionKey := by
      refine List.filter_eq_self.2 fun id hid => ?_
      obtain ⟨action, haction, rfl⟩ := List.mem_map.1 hid
      exact decide_eq_true (hnonblank action haction)
    rw [hfilter, hnodup.dedup, List.length_map]

/-- The scheduler finds everything that was declared: its index has an entry for each action, and
each end of a dependency and each `must_happen_before` is an id of the index as it looks them up. -/
structure Faithful (declared : ℕ) (target : OptimizationTarget) : Prop where
  actions : (Scheduler.actionIndex target).keys.length = declared
  hard : ∀ dep ∈ target.hardDependencies, ∀ key ∈ ["before", "after"],
    (dep.getD key (.str "")).pyStr ∈ (Scheduler.actionIndex target).keys
  soft : ∀ dep ∈ target.softDependencies, ∀ key ∈ ["before", "after"],
    (dep.getD key (.str "")).pyStr ∈ (Scheduler.actionIndex target).keys
  order : ∀ action ∈ target.vdevActions, ∀ items,
    (action.getD "must_happen_before" (.list [])).needItems = .ok items →
    ∀ next ∈ items, next.pyStr ∈ (Scheduler.actionIndex target).keys

/-- The declared ids are not blank and differ when they are trimmed, and `must_happen_before` names
trimmed ids only. -/
structure WellNamed (vdevSpec : Dict) : Prop where
  nonblank : ∀ raw ∈ declaredActions vdevSpec, declaredId raw ≠ ""
  distinct : ((declaredActions vdevSpec).map declaredId).Nodup
  known : ∀ raw ∈ declaredActions vdevSpec, ∀ next ∈ declaredNext raw,
    next.pyStr ∈ (declaredActions vdevSpec).map declaredId

/-- The dependencies of an accepted spec always name actions of the index. -/
theorem dependencies_known {rows : List Val} {target : OptimizationTarget} {depKind : String}
    {dependencies : List Dict}
    (h : normalizeDependencies rows (knownIds target.vdevActions) depKind = .ok dependencies) :
    ∀ dep ∈ dependencies, ∀ key ∈ ["before", "after"],
      (dep.getD key (.str "")).pyStr ∈ (Scheduler.actionIndex target).keys := by
  intro dep hdep key hkey
  obtain ⟨hbefore, hafter⟩ := of_normalizeDependencies h dep hdep
  rcases List.mem_pair.1 hkey with rfl | rfl
  · exact mem_keys_actionIndex.2 hbefore
  · exact mem_keys_actionIndex.2 hafter

/-- An accepted spec is faithful exactly when it is well named: nothing else than the actions' own
ids and `must_happen_before` escapes the checks. -/
theorem buildTarget_faithful_iff {fs : FileSystem} {vdevSpec : Dict} {rawSource : Val}
    {runSpec : Dict} {target : OptimizationTarget}
    (h : buildTarget fs vdevSpec rawSource runSpec = .ok target) :
    Faithful (declaredActions vdevSpec).length target ↔ WellNamed vdevSpec := by
  obtain ⟨⟨anchors, criticalIds, hactions⟩, ⟨_, hhard⟩, _, hsoft⟩ := of_buildTarget h
  have hpairs := of_normalizeActions hactions
  have hids : target.vdevActions.map actionKey = (declaredActions vdevSpec).map declaredId := by
    rw [← List.forall₂_eq_eq_eq, List.forall₂_map_left_iff, List.forall₂_map_right_iff]
    exact hpairs.flip.imp fun _ _ hpair => hpair.1
  have hnexts : target.vdevActions.map
      (fun action => (action.getD "must_happen_before" (.list [])).needItems) =
        (declaredActions vdevSpec).map fun raw => .ok (declaredNext raw) := by
    rw [← List.forall₂_eq_eq_eq, List.forall₂_map_left_iff, List.forall₂_map_right_iff]
    exact hpairs.flip.imp fun _ _ hpair => hpair.2
  have horder : (∀ action ∈ target.vdevActions, ∀ items,
        (action.getD "must_happen_before" (.list [])).needItems = .ok items →
        ∀ next ∈ items, next.pyStr ∈ (Scheduler.actionIndex target).keys) ↔
      ∀ raw ∈ declaredActions vdevSpec, ∀ next ∈ declaredNext raw,
        next.pyStr ∈ (Scheduler.actionIndex target).keys := by
    rw [← List.forall_mem_map
      (f := fun action : Dict => (action.getD "must_happen_before" (.list [])).needItems)
      (P := fun result => ∀ items, result = .ok items →
        ∀ next ∈ items, next.pyStr ∈ (Scheduler.actionIndex target).keys), hnexts,
      List.forall_mem_map]
    simp only [Except.ok.injEq, forall_eq']
  have hblank : (∀ action ∈ target.vdevActions, actionKey action ≠ "") ↔
      ∀ raw ∈ declaredActions vdevSpec, declaredId raw ≠ "" := by
    rw [← List.forall_mem_map (f := actionKey) (P := (· ≠ "")), hids, List.forall_mem_map]
  have hlength : target.vdevActions.length = (declaredActions vdevSpec).length :=
    hpairs.length_eq.symm
  have hknown {id : String} : id ∈ (Scheduler.actionIndex target).keys ↔
      id ∈ (declaredActions vdevSpec).map declaredId ∧ id ≠ "" := by
    rw [mem_keys_actionIndex, knownIds, hids, List.mem_filter, decide_eq_true_eq]
  constructor
  · intro hfaithful
    obtain ⟨hnonblank, hnodup⟩ := length_keys_actionIndex_iff.1 (hfaithful.actions.trans hlength.symm)
    exact ⟨hblank.1 hnonblank, hids ▸ hnodup, fun raw hraw next hnext =>
      (hknown.1 (horder.1 hfaithful.order raw hraw next hnext)).1⟩
  · intro hnamed
    refine ⟨?_, dependencies_known hhard, dependencies_known hsoft, horder.2 ?_⟩
    · rw [← hlength]
      exact length_keys_actionIndex_iff.2 ⟨hblank.2 hnamed.nonblank, hids ▸ hnamed.distinct⟩
    · intro raw hraw next hnext
      have hmem := hnamed.known raw hraw next hnext
      obtain ⟨other, hother, hid⟩ := List.mem_map.1 hmem
      exact hknown.2 ⟨hmem, hid ▸ hnamed.nonblank other hother⟩

/-! ### Two specs that are accepted -/

/-- A spec with state reads, by their id and what they must happen before. -/
def readSpec (actions : List (String × List String)) : Dict :=
  [("meta", .dict [("vdev_id", .str "vdev_demo")]),
    ("vdev", .dict [("actions", .list (actions.map fun row => .dict
      [("action_id", .str row.1),
        ("target", .dict [("kind", .str "ha_entity"), ("entity_id", .str "sensor.x")]),
        ("exec", .dict [("kind", .str "ha_state_read"), ("entity_id", .str "sensor.x")]),
        ("semantics", .dict [("must_happen_before", .list (row.2.map .str))])]))])]

def demoSource : Val := .dict [("integrations", .list [.dict [("file_path", .str "int_a.py")]])]

/-- A file system in which every path is there. -/
def allPresent : FileSystem where
  resolve := id
  present := fun _ => true

/-- The entries of `must_happen_before` of an action. -/
def nextNames (action : Dict) : List String :=
  (((action.getD "must_happen_before" (.list [])).needItems.toOption).getD []).map Val.pyStr

theorem buildTarget_faithful_named : ∃ target,
    buildTarget allPresent (readSpec [("A1", ["A2"]), (" A2 ", [])]) demoSource [] = .ok target ∧
      Faithful 2 target := by
  obtain ⟨target, htarget, -⟩ := exists_ok_of_shows (f := fun _ => ()) (b := ())
    (show (buildTarget allPresent (readSpec [("A1", ["A2"]), (" A2 ", [])]) demoSource
      []).toOption.map (fun _ => ()) = some () by decide +kernel)
  refine ⟨target, htarget, (buildTarget_faithful_iff htarget).2 ⟨?_, ?_, ?_⟩⟩
  · decide +kernel
  · decide +kernel
  · decide +kernel

/-- Two ids that are the same when they are trimmed, and a `must_happen_before` that names no
action, are accepted. -/
theorem buildTarget_unfaithful :
    (∃ target, buildTarget allPresent (readSpec [("A1", []), ("A1 ", [])]) demoSource [] =
        .ok target ∧ (Scheduler.actionIndex target).keys.length ≠ 2) ∧
      ∃ target, buildTarget allPresent (readSpec [("A1", ["A9"])]) demoSource [] = .ok target ∧
        ∃ action ∈ target.vdevActions, ∃ next ∈ nextNames action,
          next ∉ (Scheduler.actionIndex target).keys := by
  constructor
  · obtain ⟨target, htarget, hkeys⟩ := exists_ok_of_shows
      (f := fun target => (Scheduler.actionIndex target).keys) (b := ["A1"])
      (show (buildTarget allPresent (readSpec [("A1", []), ("A1 ", [])]) demoSource
        []).toOption.map (fun target => (Scheduler.actionIndex target).keys) = some ["A1"] by
          decide +kernel)
    exact ⟨target, htarget, by rw [hkeys]; decide⟩
  · obtain ⟨target, htarget, hviews⟩ := exists_ok_of_shows
      (f := fun target => ((Scheduler.actionIndex target).keys, target.vdevActions.flatMap nextNames))
      (b := (["A1"], ["A9"]))
      (show (buildTarget allPresent (readSpec [("A1", ["A9"])]) demoSource []).toOption.map
        (fun target => ((Scheduler.actionIndex target).keys,
          target.vdevActions.flatMap nextNames)) = some (["A1"], ["A9"]) by decide +kernel)
    obtain ⟨hkeys, hnext⟩ := Prod.mk.inj hviews
    have hmem : "A9" ∈ target.vdevActions.flatMap nextNames := hnext ▸ List.mem_singleton.2 rfl
    obtain ⟨action, haction, hname⟩ := List.mem_flatMap.1 hmem
    exact ⟨target, htarget, action, haction, "A9", hname, by rw [hkeys]; decide⟩

end FloWeaver.Scoping
