import FloWeaver.Contracts
import FloWeaver.Py.Sort

/-!
# What the builder reads off one MSSU

The builder of the dependency graph decides from the type, the effects, the actions and the tags
of two MSSUs whether an order between them is hard.

* `mssuEffectTokens`, `mssuMatchesHint`, `primaryEffectFamily` — the effects of an MSSU.
* `effectiveActionRefs`, `sameActionScope` — its actions.
* `allowCrossActionHardData`, `allowTemplateHardEdge`, `candidateHardEdgeAllowed` — the tests an
  edge has to pass to become hard.
* `templatePairCompatible`, `allowsMissingResourceCleanupPair` — the tests on a template.
-/

namespace FloWeaver.Dag

open Py

/-! ## Hints and effects -/

def hintAliasRows : List (String × List String) :=
  [("ble_gatt_op", ["ble_gatt_op", "ble_op"]),
    ("ble_op", ["ble_op", "ble_gatt_op"]),
    ("ble_disconnect", ["ble_disconnect", "disconnect"]),
    ("disconnect", ["disconnect", "ble_disconnect"]),
    ("cloud_http_call", ["cloud_http_call", "cloud_op"]),
    ("cloud_op", ["cloud_op", "cloud_http_call"]),
    ("coord_refresh", ["coord_refresh", "coord_first_refresh"]),
    ("coord_first_refresh", ["coord_first_refresh", "coord_refresh"]),
    ("state_write", ["state_write", "ha_state_write"]),
    ("ha_state_write", ["ha_state_write", "state_write"])]

/-- `_HINT_ALIASES.get(hint, {hint})`. -/
def hintAliases (hint : String) : List String := (hintAliasRows.lookup hint).getD [hint]

/-- The pairs of MSSU types between which a candidate may become hard. -/
def hardEdgeAllowlist : List (String × String) :=
  [("PREPARE", "ACT"), ("CHECK", "ACT"), ("ACT", "UPDATE"), ("SYNC", "UPDATE"),
    ("INIT", "SYNC"), ("PREPARE", "CLEANUP")]

def normalizeTemplateKind (value : String) : Option String :=
  let kind := upper (strip value)
  if EdgeKind.values.contains kind then some kind
  else if kind = "DATA_DEP" then some EdgeKind.hardData
  else if kind = "CONTROL_DEP" then some EdgeKind.hardControl
  else if kind = "LIFECYCLE_DEP" then some EdgeKind.hardLifecycle
  else none

def normalizeHint (value : String) : String :=
  replaceChar (replaceChar (lower (strip value)) '-' '_') ' ' '_'

/-- The tokens of one effect: its own, and the generic ones that it stands for. -/
def effectTokens (effect : String) : List String :=
  let normalized := normalizeHint effect
  if normalized = "" then []
  else
    normalized ::
      ((if endsWith normalized "_op" then
          [String.ofList (normalized.toList.take (normalized.length - 3))] else []) ++
        (if normalized = "ble_gatt_op" then ["ble_op"] else []) ++
        (if normalized = "cloud_http_call" then ["cloud_op"] else []) ++
        if normalized = "state_write" then ["ha_state_write"] else [])

/-- The set of the tokens of all effects. -/
def mssuEffectTokens (mssu : MSSU) : List String := (mssu.sideEffectSig.flatMap effectTokens).dedup

def mssuMatchesHint (mssu : MSSU) (markerHint : String) : Bool :=
  let hint := normalizeHint markerHint
  hint ≠ "" && (hintAliases hint).any ((mssuEffectTokens mssu).contains ·)

/-- `str(mssu.mssu_type).strip().upper()`. -/
def mssuTypeOf (mssu : MSSU) : String := upper (strip mssu.mssuType)

/-- The families in the order in which they are looked for. -/
def effectFamilies : List String :=
  ["ble_gatt_op", "ble_op", "cloud_http_call", "cloud_op", "state_write", "coord_first_refresh",
    "coord_refresh", "entry_remove", "entry_setup", "entry_unload", "subscribe", "unsubscribe",
    "ble_connect", "ble_disconnect"]

/-- The family that the type of an MSSU puts before the others. -/
def familyOfType (mssuType : String) (tokens : List String) : Option String :=
  if mssuType = "INIT" && tokens.contains "entry_setup" then some "entry_setup"
  else if mssuType = "CLEANUP" then
    if tokens.contains "unsubscribe" then some "unsubscribe"
    else if tokens.contains "entry_unload" then some "entry_unload"
    else if tokens.contains "disconnect" || tokens.contains "ble_disconnect" then
      some "ble_disconnect"
    else none
  else if mssuType = "PREPARE" then
    if tokens.contains "subscribe" then some "subscribe"
    else if tokens.contains "ble_connect" then some "ble_connect"
    else none
  else none

def primaryEffectFamily (mssu : MSSU) : String :=
  let tokens := mssuEffectTokens mssu
  match familyOfType (mssuTypeOf mssu) tokens with
  | some family => family
  | none =>
      match effectFamilies.find? fun family => (hintAliases family).any (tokens.contains ·) with
      | some family => family
      | none => (sortedStr tokens).headD ""

def hintExactMatch (mssu : MSSU) (markerHint : String) : Bool :=
  let hint := normalizeHint markerHint
  let family := primaryEffectFamily mssu
  hint ≠ "" && family ≠ "" && (hintAliases hint).contains family

/-! ## Actions -/

/-- The actions an MSSU refers to, sorted. -/
def effectiveActionRefs (mssu : MSSU) : List String :=
  let refs := mssu.actionRefs.map strip ++ [strip (mssu.primaryActionRef.getD "")] ++
    mssu.secondaryActionRefs.map strip
  sortedSet (refs.filter (· ≠ ""))

/-- The action an MSSU is for: the primary one, or the only one. -/
def mssuPrimaryAction (mssu : MSSU) : String :=
  let primary := strip (mssu.primaryActionRef.getD "")
  if primary ≠ "" then primary
  else
    match (mssu.actionRefs.map strip).filter (· ≠ "") with
    | [only] => only
    | _ => ""

def sameActionScope (src dst : MSSU) : Bool :=
  (effectiveActionRefs src).any ((effectiveActionRefs dst).contains ·)

/-- One of the two MSSUs has no actions, or they have one in common. -/
def actionScopesMeet (src dst : MSSU) : Bool :=
  (effectiveActionRefs src).isEmpty || (effectiveActionRefs dst).isEmpty || sameActionScope src dst

def actionIsWriteback : Option Dict → Bool
  | none => false
  | some action =>
      upper (strip (action.getD "protocol" (.str "")).pyStr) = "HA" ||
        lower (strip (action.getD "target_kind" (.str "")).pyStr) = "ha_entity"

def actionIsAggregateSink : Option Dict → Bool
  | none => false
  | some action =>
      let target := (action.get "target").asDict
      let entity := lower
        ((Dict.get target "entity_id").or ((Dict.get target "id").or (.str ""))).pyStr
      contains entity "overall" || contains entity "aggregate"

/-! ## Tags -/

/-- `str(tag).strip()`; a missing tag reads `None`. -/
def tagText (tag : Option String) : String := strip (tag.getD "None")

/-- `str(tag or "").strip()`. -/
def tagOrEmpty (tag : Option String) : String := strip (tag.getD "")

def mssuTypePriority (mssu : MSSU) : ℕ :=
  ([("ACT", 0), ("UPDATE", 1), ("CONFIRM", 2), ("SYNC", 3), ("PREPARE", 4), ("CHECK", 5),
    ("CLEANUP", 6), ("FALLBACK", 7)].lookup (mssuTypeOf mssu)).getD 99

/-! ## Which edges may be hard -/

def isSoftOnlyMssu (mssu : MSSU) : Bool :=
  mssu.isSharedInfra ||
    (["INIT", "CLEANUP"].contains (mssuTypeOf mssu) && (effectiveActionRefs mssu).isEmpty) ||
    (mssuTypeOf mssu = "UPDATE" && (mssuEffectTokens mssu).contains "state_write")

def allowedHardEdgePair (src dst : MSSU) : Bool :=
  hardEdgeAllowlist.contains (mssuTypeOf src, mssuTypeOf dst)

/-- What one MSSU hands to another, less the names that everything shares. -/
def strictDataOverlap (src dst : MSSU) : List String :=
  ((src.outputs.filter (dst.inputs.contains ·)).map strip).filter fun token =>
    token ≠ "" && ! ["self", "hass", "entry", "coordinator", "entity_id"].contains (lower token)

def candidateHardEdgeAllowed (src dst : MSSU) (edgeType : String) : Bool :=
  !(isSoftOnlyMssu src || isSoftOnlyMssu dst) && allowedHardEdgePair src dst &&
    !(edgeType = "DATA_DEP" && (strictDataOverlap src dst).isEmpty)

def genericIoSymbol (name : String) : Bool :=
  let token := lower (strip name)
  token = "" ||
    ["self", "cls", "hass", "entry", "data", "value", "result", "manager", "coordinator", "device",
      "_device", "client", "session", "api", "kwargs", "args", "position", "speed"].contains token ||
    startsWith token "_attr_"

/-- Two MSSUs of one lane; when one has a resource, also of one resource, else both shared. -/
def sameLaneAndResource (src dst : MSSU) : Bool :=
  let srcLane := tagText src.laneTag
  let dstLane := tagText dst.laneTag
  let srcResource := tagText src.resourceInstanceTag
  let dstResource := tagText dst.resourceInstanceTag
  if srcLane = "" || dstLane = "" || srcLane ≠ dstLane then false
  else if srcResource ≠ "" || dstResource ≠ "" then srcResource = dstResource
  else src.isSharedInfra && dst.isSharedInfra

def allowCrossActionHardData (src dst : MSSU) (symbol : Option String) : Bool :=
  if (symbol.getD "" ≠ "" && genericIoSymbol (symbol.getD "")) then false
  else if actionScopesMeet src dst then true
  else if src.isAggregateSink && !dst.isAggregateSink then false
  else if dst.isAggregateSink then true
  else sameLaneAndResource src dst

def allowTemplateHardEdge (src dst : MSSU) : Bool :=
  if (mssuEffectTokens src).contains "entry_setup" && (mssuEffectTokens dst).contains "entry_unload" &&
      !sameActionScope src dst then false
  else if actionScopesMeet src dst then true
  else if dst.isAggregateSink then true
  else sameLaneAndResource src dst

def skipCrossActionUpdateHardEdge (src dst : MSSU) : Bool :=
  if src.mssuId = dst.mssuId then true
  else if mssuTypeOf src ≠ "UPDATE" || mssuTypeOf dst ≠ "UPDATE" then false
  else if actionScopesMeet src dst then false
  else !dst.isAggregateSink

def isSemanticLifecycleCandidate (src dst : MSSU) : Bool :=
  let srcTokens := mssuEffectTokens src
  let dstTokens := mssuEffectTokens dst
  dst.mssuType = "CLEANUP" ||
    (["unsubscribe", "disconnect", "ble_disconnect", "close", "cleanup"].any (dstTokens.contains ·) &&
      ["subscribe", "dispatcher_connect", "ble_connect", "connect"].any (srcTokens.contains ·)) ||
    (["coord_refresh", "coord_first_refresh"].any (srcTokens.contains ·) &&
      dstTokens.contains "state_write")

/-! ## Pairs of a template -/

/-- An MSSU that unsubscribes is paired within its resource; without one, within its actions or
its lane. -/
def unsubscribeSourceFits (src dst : MSSU) : Bool :=
  let srcResource := tagOrEmpty src.resourceInstanceTag
  let dstResource := tagOrEmpty dst.resourceInstanceTag
  let srcLane := tagOrEmpty src.laneTag
  (mssuEffectTokens src).contains "unsubscribe" && mssuTypeOf src = "CLEANUP" &&
    if dstResource ≠ "" then srcResource ≠ "" && srcResource = dstResource
    else sameActionScope src dst || (srcLane ≠ "" && srcLane = tagOrEmpty dst.laneTag)

/-- What is subscribed is unsubscribed for the same resource, or by shared infrastructure. -/
def subscriptionPairFits (src dst : MSSU) (allowMissingResourceCleanupPair : Bool) : Bool :=
  let srcResource := tagOrEmpty src.resourceInstanceTag
  let dstResource := tagOrEmpty dst.resourceInstanceTag
  srcResource ≠ "" &&
    if dstResource ≠ "" then srcResource = dstResource
    else allowMissingResourceCleanupPair && mssuTypeOf dst = "CLEANUP" && dst.isSharedInfra

def templatePairCompatible (src dst : MSSU) (srcHint dstHint : String)
    (allowMissingResourceCleanupPair : Bool) : Bool :=
  let srcHint := normalizeHint srcHint
  let dstHint := normalizeHint dstHint
  (!(hintAliases srcHint).contains "subscribe" ||
    ((mssuEffectTokens src).contains "subscribe" && mssuTypeOf src = "PREPARE")) &&
  (!(hintAliases srcHint).contains "unsubscribe" || unsubscribeSourceFits src dst) &&
  (!(hintAliases dstHint).contains "unsubscribe" || primaryEffectFamily dst = "unsubscribe") &&
  (!(srcHint = "subscribe" && dstHint = "unsubscribe") ||
    subscriptionPairFits src dst allowMissingResourceCleanupPair) &&
  (!(srcHint = "entry_setup" && dstHint = "entry_unload") || sameActionScope src dst)

/-- May a subscription be paired with a cleanup that names no resource?  Only when no cleanup names
one. -/
def allowsMissingResourceCleanupPair (src : MSSU) (dstCandidates : List MSSU)
    (srcHint dstHint : String) : Bool :=
  let cleanups := dstCandidates.filter fun dst =>
    primaryEffectFamily dst = "unsubscribe" && mssuTypeOf dst = "CLEANUP"
  normalizeHint srcHint = "subscribe" && normalizeHint dstHint = "unsubscribe" &&
    primaryEffectFamily src = "subscribe" && mssuTypeOf src = "PREPARE" &&
    tagOrEmpty src.resourceInstanceTag ≠ "" &&
    (cleanups.any fun dst => tagOrEmpty dst.resourceInstanceTag = "" && dst.isSharedInfra) &&
    !cleanups.any fun dst => tagOrEmpty dst.resourceInstanceTag ≠ ""

end FloWeaver.Dag
