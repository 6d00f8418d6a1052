import FloWeaver.Lib.BreadthFirst
import FloWeaver.Markers.Emission
import FloWeaver.Markers.Phases

/-!
# Unsubscribe callbacks

The functions of a module are walked breadth first.  An assignment from a subscribing call makes its
targets callback names, and a later call of such a name is marked as an unsubscription.  In the loop
body other detectors come first, and a cloud call that is bound to no action ends the turn.

The detectors, the grounding rules and the search for bound actions enter as what they yield: the
markers that are tried at a call, and a binding for a query.

* `detectMarkers` — the markers before the suppression by profile rules.
* `mem_seenKeys_detectMarkers` — which unsubscriptions are marked.
* `noUnsubscribeMissed_iff` — when none is missed.
-/

namespace FloWeaver.Markers

open Py BreadthFirst

/-! ## Syntax trees -/

/-- The place of a node in the text. -/
structure Span where
  line : ℤ
  endLine : ℤ
  col : ℤ
  endCol : ℤ
deriving DecidableEq, Repr

structure FunctionHeader where
  name : String
  isAsync : Bool
  span : Span
deriving DecidableEq, Repr

/-- A node of a syntax tree, as far as the detection tells nodes apart. -/
inductive Node where
  | name (id : String)
  | attribute (value : Node) (member : String)
  | constant (text : Option String)
  | subscript (value slice : Node)
  | call (span : Span) (func : Node) (args : List Node)
  | assign (targets : List Node) (value : Node)
  | function (header : FunctionHeader) (parts : List Node)
  | other (parts : List Node)

/-- `ast.iter_child_nodes(node)`. -/
def Node.children : Node → List Node
  | .name _ => []
  | .attribute value _ => [value]
  | .constant _ => []
  | .subscript value slice => [value, slice]
  | .call _ func args => func :: args
  | .assign targets value => targets ++ [value]
  | .function _ parts => parts
  | .other parts => parts

mutual

def Node.size : Node → ℕ
  | .name _ => 1
  | .attribute value _ => value.size + 1
  | .constant _ => 1
  | .subscript value slice => value.size + slice.size + 1
  | .call _ func args => func.size + sizes args + 1
  | .assign targets value => sizes targets + value.size + 1
  | .function _ parts => sizes parts + 1
  | .other parts => sizes parts + 1

def sizes : List Node → ℕ
  | [] => 0
  | node :: rest => node.size + sizes rest

end

/-- `ast.walk(node)`. -/
def astWalk (node : Node) : List Node := walk Node.children node.size [node]

/-- A function definition and its tree. -/
structure FunctionTree where
  header : FunctionHeader
  node : Node

def Node.asFunction : Node → Option FunctionTree
  | .function header parts => some ⟨header, .function header parts⟩
  | _ => none

def iterFunctionNodes (tree : Node) : List FunctionTree := (astWalk tree).filterMap Node.asFunction

def FunctionTree.name (fn : FunctionTree) : String := fn.header.name

/-- `fn.__class__.__name__`. -/
def FunctionTree.kind (fn : FunctionTree) : String :=
  if fn.header.isAsync then "AsyncFunctionDef" else "FunctionDef"

/-! ## Names of calls -/

def attributeChain : Node → String
  | .attribute value member =>
      let left := attributeChain value
      if left ≠ "" then left ++ "." ++ member else member
  | .name id => id
  | _ => ""

/-- The name that a call ends with. -/
def callName : Node → String
  | .attribute _ member => member
  | .name id => id
  | _ => ""

/-- A name with its first part replaced by what it stands for. -/
def expandChainAlias (aliases : List (List (String × String))) (chain : String) : List String :=
  let chainL := lower chain
  if chainL = "" then [] else
  let root := beforeFirst chainL "."
  let replacements := (aliases.filterMap (·.lookup root)).map lower
  chainL :: replacements.map fun replacement =>
    if contains chainL "." ∧ afterFirst chainL "." ≠ "" then
      replacement ++ "." ++ afterFirst chainL "." else replacement

/-- `".".join(chain.split(".")[-n:])`. -/
def lastParts (n : ℕ) (chain : String) : String :=
  let parts := (splitByL (· ≠ '.') chain.toList).map String.ofList
  join "." (parts.drop (parts.length - n))

/-- `_call_tokens`, on what is called. -/
def callTokens (symbolAliases moduleAliases localAliases : List (String × String))
    (func : Node) : List String :=
  let chain := attributeChain func
  let raw := ([chain, callName func].filter (· ≠ "")).map lower ++
    if contains chain "." then [lastParts 2 (lower chain)] else []
  let expanded := raw.flatMap fun token =>
    token :: expandChainAlias [localAliases, symbolAliases, moduleAliases] token
  let imported := match func with
    | .name id => match symbolAliases.lookup id with
      | some symbol => if symbol ≠ "" then [lastParts 1 (lower symbol)] else []
      | none => []
    | _ => []
  (expanded ++ imported).filter (· ≠ "")

def tokenMatchesAttr (token attr : String) : Bool :=
  let tokenL := lower token
  let attrL := lower attr
  tokenL = attrL || endsWith tokenL ("." ++ attrL) ||
    (contains attrL "." && endsWith tokenL attrL)

/-- The calls that return a callback for the unsubscription. -/
def subscribingAttrs : List String :=
  ["dispatcher_connect", "add_listener", "async_track_state_change_event"]

def isSubscribingCall (tokens : List String) : Bool :=
  tokens.any fun token => subscribingAttrs.any (tokenMatchesAttr token)

/-! ## Heuristics -/

def bleDeviceRuntimeAttrs : List String :=
  ["open", "close", "stop", "set_position", "turn_on", "turn_off", "press", "push", "update",
    "refresh"]

def bleDeviceRuntimeFnHints : List String :=
  ["cover", "blind", "tilt", "shade", "garage", "fan", "relay", "switch", "curtain"]

def bleDevicePrefixes : List String :=
  ["self._device", "_device", "self.device", "device", "self.coordinator.device",
    "coordinator.device"]

def cloudProtocolModuleHints : List String :=
  ["aiohttp", "httpx", "requests", "urllib3", "tuya_sharing", "device_wrapper"]

def cloudProtocolCallHints : List String :=
  ["call_api", "async_call_api", "send_commands", "get_update_commands", "read_device_status",
    "async_send_commands", "device_manager", "tuya_sharing", "device_wrapper"]

def isBleDeviceRuntimeCall (tokens : List String) (functionName : String)
    (protocols : List String) : Bool :=
  let fnName := lower (strip functionName)
  protocols.contains "BLE" &&
    (bleDeviceRuntimeAttrs.any fun attr => tokens.any (tokenMatchesAttr · attr)) &&
    ((tokens.any fun token => bleDevicePrefixes.any (startsWith token) ||
        contains token ".device." || startsWith token "switchbot." || startsWith token "bleak.") ||
      (startsWith fnName "async_" && bleDeviceRuntimeFnHints.any (contains fnName)))

/-- `_protocol_context_ok` for a cloud marker. -/
def cloudContextOk (tokens importedModules : List String) : Bool :=
  (importedModules.any cloudProtocolModuleHints.contains) ||
    tokens.any fun token =>
      (cloudProtocolModuleHints ++ cloudProtocolCallHints).any (contains token)

def isCloudRuntimeCall (tokens : List String) (functionName : String)
    (importedModules : List String) : Bool :=
  let loweredFn := lower (strip functionName)
  (loweredFn ≠ "" && cloudProtocolCallHints.any (contains loweredFn)) ||
    (cloudContextOk tokens importedModules &&
      tokens.any fun token => cloudProtocolCallHints.any (contains token))

/-! ## What detection works with -/

/-- A search for the actions that a call is bound to. -/
structure BindingQuery where
  markerType : String
  literalsOf : Option Node
  protocols : List String
  callTokens : List String
  functionName : String

structure ActionBinding where
  primaryActionId : Option String
  secondaryActionIds : List String
  bindingReason : List String
  total : Option ℚ

/-- A marker that is tried at a call or a function. -/
structure Attempt where
  markerType : String
  strength : String
  phase : String
  evidence : List String
  primaryActionId : Option String
  secondaryActionIds : List String
  bindingReason : List String
  bindingScore : ℚ

/-- What is known of a file while its functions are walked. -/
structure Scan where
  filePath : String
  hasTarget : Bool
  importedModules : List String
  protocols : List String
  symbolAliases : List (String × String)
  moduleAliases : List (String × String)
  localAliases : FunctionTree → List (String × String)
  phaseOf : String → Phase
  relatedActions : BindingQuery → ActionBinding
  functionAttempts : FunctionTree → List Attempt
  callAttempts : FunctionTree → Node → List Attempt

structure WalkState where
  emitted : Emitted
  subscribeCallbackVars : List String
  subscribeCallbackRelatedActions : List (String × List String)
  subscribeMarkers : List (String × ℤ × ℤ × List String)

def WalkState.start : WalkState := ⟨⟨[], []⟩, [], [], []⟩

def Phase.value : Phase → String
  | .setup => "SETUP"
  | .runtime => "RUNTIME"
  | .teardown => "TEARDOWN"

def shouldDropUnboundRuntimeMarker (markerType : String) (phase : Phase) (binding : ActionBinding)
    (hasTarget : Bool) : Bool :=
  hasTarget && phase = .runtime && binding.primaryActionId = none &&
    ["CLOUD_HTTP_CALL", "CLOUD_OP", "STATE_WRITE"].contains (upper (strip markerType))

variable (scan : Scan) (fn : FunctionTree)

def Scan.siteKey (span : Span) (nodeKind markerType : String) : SiteKey :=
  ⟨markerType, scan.filePath, fn.name, span.line, span.endLine, span.col, span.endCol, nodeKind⟩

def Scan.callTokens (func : Node) : List String :=
  Markers.callTokens scan.symbolAliases scan.moduleAliases (scan.localAliases fn) func

/-- `_emit` for a function or a call. -/
def Scan.tryEmit (span : Span) (nodeKind : String) (s : WalkState) (a : Attempt) :
    WalkState × Bool :=
  let (emitted, ok) := emit s.emitted
    { key := scan.siteKey fn span nodeKind a.markerType
      strength := a.strength
      phase := a.phase
      evidence := a.evidence
      primaryActionId := a.primaryActionId
      secondaryActionIds := a.secondaryActionIds
      bindingReason := a.bindingReason
      bindingScore := a.bindingScore }
  ({ s with emitted }, ok)

/-- `[primary] if primary else []`, and the secondary ids. -/
def relatedActionIds (primary : Option String) (secondary : List String) : List String :=
  (primary.filter (· ≠ "")).toList ++ secondary

/-! ## The turn of a call -/

/-- A detector or a rule tries its marker.  What was emitted is noted, subscriptions with their place. -/
def Scan.tryAttempt (span : Span) (st : WalkState × List String) (a : Attempt) :
    WalkState × List String :=
  match scan.tryEmit fn span "Call" st.1 a with
  | (s, true) =>
      (if a.markerType = "SUBSCRIBE" then
        { s with subscribeMarkers := s.subscribeMarkers ++ [(fn.name, span.line, span.col,
          relatedActionIds a.primaryActionId a.secondaryActionIds)] } else s,
        a.markerType :: st.2)
  | (s, false) => (s, st.2)

def Scan.tryDetectors (span : Span) (call : Node) (s : WalkState) : WalkState × List String :=
  (scan.callAttempts fn call).foldl (scan.tryAttempt fn span) (s, [])

/-- The actions that a heuristic binds a call to. -/
def Scan.heuristicBinding (markerType protocol : String) (span : Span) (func : Node)
    (args : List Node) : ActionBinding :=
  scan.relatedActions ⟨markerType, some (.call span func args), protocol :: scan.protocols,
    scan.callTokens fn func, fn.name⟩

def Scan.heuristicAttempt (markerType hint : String) (binding : ActionBinding) : Attempt :=
  let related := relatedActionIds binding.primaryActionId binding.secondaryActionIds
  let bound := binding.primaryActionId.any (· ≠ "")
  { markerType
    strength := if bound then "STRONG" else "MEDIUM"
    phase := (scan.phaseOf fn.name).value
    evidence := hint :: if bound then ("related_actions:" ++ join "," related) ::
      binding.bindingReason.map ("action_match:" ++ ·) else []
    primaryActionId := binding.primaryActionId
    secondaryActionIds := binding.secondaryActionIds
    bindingReason := binding.bindingReason
    bindingScore := binding.total.getD 0 }

/-- The marker of a heuristic, unless it is dropped because no action is bound to it. -/
def Scan.heuristic (markerType protocol hint : String) (span : Span) (func : Node) (args : List Node)
    (st : WalkState × List String) : Option (WalkState × List String) :=
  let binding := scan.heuristicBinding fn markerType protocol span func args
  if shouldDropUnboundRuntimeMarker markerType (scan.phaseOf fn.name) binding scan.hasTarget then none
  else
    match scan.tryEmit fn span "Call" st.1 (scan.heuristicAttempt fn markerType hint binding) with
    | (s, true) => some (s, markerType :: st.2)
    | (s, false) => some (s, st.2)

def Scan.bleHeuristic (span : Span) (func : Node) (args : List Node)
    (st : WalkState × List String) : Option (WalkState × List String) :=
  if isBleDeviceRuntimeCall (scan.callTokens fn func) fn.name scan.protocols ∧ "BLE_OP" ∉ st.2 ∧
      "BLE_GATT_OP" ∉ st.2 then
    scan.heuristic fn "BLE_OP" "BLE" "heuristic:ble_device_runtime_call" span func args st
  else some st

def Scan.cloudHeuristic (span : Span) (func : Node) (args : List Node)
    (st : WalkState × List String) : Option (WalkState × List String) :=
  if isCloudRuntimeCall (scan.callTokens fn func) fn.name scan.importedModules ∧ "CLOUD_OP" ∉ st.2 ∧
      "CLOUD_HTTP_CALL" ∉ st.2 then
    scan.heuristic fn "CLOUD_OP" "CLOUD" "heuristic:cloud_runtime_call" span func args st
  else some st

/-- The actions of the last subscription before a call that has any, else of the nearest one. -/
def nearestSubscribeRelated (rows : List (String × ℤ × ℤ × List String)) (fnName : String)
    (line col : ℤ) : List String :=
  let rows := (rows.filter (·.1 = fnName)).map (·.2)
  let before := rows.filter fun row => row.1 < line ∨ row.1 = line ∧ row.2.1 ≤ col
  let ordered := if before ≠ [] then sortedByDesc (fun row => toLex (row.1, row.2.1)) before
    else sortedBy (fun row => toLex (|row.1 - line|, |row.2.1 - col|)) rows
  ((ordered.map (·.2.2)).find? (· ≠ [])).getD []

/-- The marker of an unsubscription. -/
def Scan.unsubscribeAttempt (pattern reason : String) (related : List String) : Attempt where
  markerType := "UNSUBSCRIBE"
  strength := "STRONG"
  phase := (scan.phaseOf fn.name).value
  evidence := pattern ::
    if related ≠ [] then ["related_actions:" ++ join "," (sortedSet related)] else []
  primaryActionId := related.head?
  secondaryActionIds := related.tail
  bindingReason := if related ≠ [] then [reason] else []
  bindingScore := if related ≠ [] then 1 / 5 else 0

/-- The actions of an unsubscription that no subscription tells. -/
def Scan.unsubscribeRelated (literalsOf : Option Node) : List String :=
  let binding := scan.relatedActions ⟨"UNSUBSCRIBE", literalsOf, "HA" :: scan.protocols, [], fn.name⟩
  relatedActionIds binding.primaryActionId binding.secondaryActionIds

/-- `a or b` on lists. -/
def listOr (a b : List String) : List String := if a ≠ [] then a else b

def unsubscribeKeys : List String := ["unsub", "unsubscribe"]

/-- The call of a callback name, or of an `unsub` entry. -/
def Scan.unsubscribe (span : Span) (func : Node) (args : List Node) (s : WalkState) : WalkState :=
  let nearest := nearestSubscribeRelated s.subscribeMarkers fn.name span.line span.col
  match func with
  | .name id =>
      if id ∈ s.subscribeCallbackVars then
        let related := listOr ((s.subscribeCallbackRelatedActions.lookup id).getD [])
          (listOr nearest (scan.unsubscribeRelated fn (some (.call span func args))))
        (scan.tryEmit fn span "Call" s (scan.unsubscribeAttempt fn "pattern:unsubscribe_callback"
          "unsubscribe_callback_reuse" related)).1
      else s
  | .subscript _ (.constant (some key)) =>
      if key ∈ unsubscribeKeys then
        let related := listOr nearest (scan.unsubscribeRelated fn none)
        (scan.tryEmit fn span "Call" s (scan.unsubscribeAttempt fn "pattern:unsubscribe_subscript"
          "unsubscribe_subscript_reuse" related)).1
      else s
  | _ => s

/-- The turn of a call.  A dropped heuristic ends it. -/
def Scan.visitCall (span : Span) (func : Node) (args : List Node) (s : WalkState) : WalkState :=
  let detected := scan.tryDetectors fn span (.call span func args) s
  match scan.bleHeuristic fn span func args detected with
  | none => detected.1
  | some ble =>
    match scan.cloudHeuristic fn span func args ble with
    | none => ble.1
    | some cloud => scan.unsubscribe fn span func args cloud.1

/-! ## The walk -/

/-- The names among the targets of an assignment. -/
def targetNames (targets : List Node) : List String :=
  targets.filterMap fun target => match target with
    | .name id => some id
    | _ => none

/-- An assignment from a subscribing call makes its targets callback names. -/
def Scan.collectSubscription (s : WalkState) : Node → WalkState
  | .assign targets (.call span func args) =>
      let tokens := scan.callTokens fn func
      if isSubscribingCall tokens then
        let binding := scan.relatedActions
          ⟨"SUBSCRIBE", some (.call span func args), scan.protocols, tokens, fn.name⟩
        let related := sortedSet ((binding.primaryActionId.toList ++
          binding.secondaryActionIds).filter (strip · ≠ ""))
        { s with
          subscribeCallbackVars := targetNames targets ++ s.subscribeCallbackVars
          subscribeCallbackRelatedActions :=
            (targetNames targets).map (·, related) ++ s.subscribeCallbackRelatedActions }
      else s
  | _ => s

def Scan.visit (s : WalkState) (node : Node) : WalkState :=
  let s := scan.collectSubscription fn s node
  match node with
  | .call span func args => scan.visitCall fn span func args s
  | _ => s

/-- The markers of a function by its name, before its nodes are walked. -/
def Scan.enterFunction (s : WalkState) : WalkState :=
  (scan.functionAttempts fn).foldl
    (fun s a => (scan.tryEmit fn fn.header.span fn.kind s a).1) s

def Scan.scanFunction (s : WalkState) (fn : FunctionTree) : WalkState :=
  (astWalk fn.node).foldl (scan.visit fn) (scan.enterFunction fn s)

/-- The loop over the functions of a module. -/
def detectMarkers (tree : Node) : WalkState :=
  (iterFunctionNodes tree).foldl scan.scanFunction .start

/-! ## What a turn marks -/

theorem sizes_eq (nodes : List Node) : sizes nodes = (nodes.map Node.size).sum := by
  induction nodes with
  | nil => rfl
  | cons node rest ih => rw [sizes, ih, List.map_cons, List.sum_cons]

/-- The children of a node are smaller than the node. -/
theorem sum_size_children (node : Node) : (node.children.map Node.size).sum < node.size := by
  cases node <;> simp only [Node.children, Node.size, sizes_eq, List.map_cons, List.map_append,
    List.map_nil, List.sum_cons, List.sum_append, List.sum_nil] <;> omega

/-- An assignment from a subscribing call to a name. -/
def Scan.Subscribes (node : Node) (v : String) : Prop :=
  ∃ targets span func args, node = .assign targets (.call span func args) ∧
    isSubscribingCall (scan.callTokens fn func) = true ∧ Node.name v ∈ targets

/-- Is the call that of a callback name, or of an `unsub` entry? -/
def CallsBack (isCallback : String → Prop) (func : Node) : Prop :=
  (∃ v, func = .name v ∧ isCallback v) ∨
    ∃ value key, func = .subscript value (.constant (some key)) ∧ key ∈ unsubscribeKeys

/-- The cloud heuristic applies to the call and drops it: no cloud marker was emitted before in this
turn, and no action is bound to the call. -/
def Scan.dropsCloudCall (s : WalkState) (span : Span) (func : Node) (args : List Node) : Bool :=
  let types := (scan.tryDetectors fn span (.call span func args) s).2
  isCloudRuntimeCall (scan.callTokens fn func) fn.name scan.importedModules &&
    !types.contains "CLOUD_OP" && !types.contains "CLOUD_HTTP_CALL" &&
    shouldDropUnboundRuntimeMarker "CLOUD_OP" (scan.phaseOf fn.name)
      (scan.heuristicBinding fn "CLOUD_OP" "CLOUD" span func args) scan.hasTarget

/-- The turn of a call comes to an unsubscription: a detector tries one, or the call is one and is not
dropped before. -/
def Scan.Unsubscribes (s : WalkState) (isCallback : String → Prop) (span : Span) (func : Node)
    (args : List Node) : Prop :=
  (∃ a ∈ scan.callAttempts fn (.call span func args), a.markerType = "UNSUBSCRIBE") ∨
    scan.dropsCloudCall fn s span func args = false ∧ CallsBack isCallback func

/-- What some emissions do: the callback names stay, every seen site keeps its marker, and one site is
seen if it was or if it is added. -/
structure Emits (k : SiteKey) (s s' : WalkState) (added : Prop) : Prop where
  vars : s'.subscribeCallbackVars = s.subscribeCallbackVars
  represents : (∃ history, Represents history s.emitted) → ∃ history, Represents history s'.emitted
  seen : k ∈ s'.emitted.seenKeys ↔ k ∈ s.emitted.seenKeys ∨ added

section Emits

variable {scan fn} {k : SiteKey} {s s' s'' : WalkState} {added added' : Prop}

theorem Emits.refl (k : SiteKey) (s : WalkState) : Emits k s s False :=
  ⟨rfl, id, (or_iff_left id).symm⟩

theorem Emits.trans (h : Emits k s s' added) (h' : Emits k s' s'' added') :
    Emits k s s'' (added ∨ added') :=
  ⟨h'.vars.trans h.vars, h'.represents ∘ h.represents, by rw [h'.seen, h.seen, or_assoc]⟩

theorem Emits.congr (h : Emits k s s' added) (hiff : added ↔ added') : Emits k s s' added' :=
  ⟨h.vars, h.represents, by rw [h.seen, hiff]⟩

variable (scan fn k s) in
theorem emits_tryEmit (span : Span) (nodeKind : String) (a : Attempt) :
    Emits k s (scan.tryEmit fn span nodeKind s a).1 (k = scan.siteKey fn span nodeKind a.markerType) :=
  ⟨rfl, fun ⟨_, h⟩ => ⟨_, h.emit _⟩, mem_seenKeys_emit⟩

/-- A list of emissions adds the sites of its members. -/
theorem emits_foldl {α β : Type} (state : β → WalkState) {step : β → α → β} {adds : α → Prop}
    (h : ∀ st a, Emits k (state st) (state (step st a)) (adds a)) (l : List α) (st : β) :
    Emits k (state st) (state (l.foldl step st)) (∃ a ∈ l, adds a) := by
  induction l generalizing st with
  | nil => exact (Emits.refl k _).congr ⟨False.elim, by simp⟩
  | cons a l ih =>
    rw [List.foldl_cons]
    exact ((h st a).trans (ih _)).congr (by rw [List.exists_mem_cons_iff])

theorem emits_tryAttempt (span : Span) (st : WalkState × List String) (a : Attempt) :
    Emits k st.1 (scan.tryAttempt fn span st a).1 (k = scan.siteKey fn span "Call" a.markerType) := by
  have h := emits_tryEmit scan fn k st.1 span "Call" a
  rw [Scan.tryAttempt]
  cases htry : scan.tryEmit fn span "Call" st.1 a with
  | mk s' ok =>
    rw [htry] at h
    cases ok with
    | false => exact h
    | true =>
      dsimp only
      split_ifs
      · exact ⟨h.vars, h.represents, h.seen⟩
      · exact h

variable (scan fn k s) in
/-- The detectors add the sites of the markers they try. -/
theorem emits_tryDetectors (span : Span) (call : Node) :
    Emits k s (scan.tryDetectors fn span call s).1
      (∃ a ∈ scan.callAttempts fn call, k = scan.siteKey fn span "Call" a.markerType) :=
  emits_foldl Prod.fst (fun st a => emits_tryAttempt span st a) _ (s, [])

variable (k) in
/-- A heuristic that is not dropped adds the site of its marker, and notes its type at most. -/
theorem emits_heuristic {markerType protocol hint : String} {span : Span} {func : Node}
    {args : List Node} {st st' : WalkState × List String}
    (h : scan.heuristic fn markerType protocol hint span func args st = some st') :
    Emits k st.1 st'.1 (k = scan.siteKey fn span "Call" markerType) ∧
      ∀ t, t ≠ markerType → (t ∈ st'.2 ↔ t ∈ st.2) := by
  rw [Scan.heuristic] at h
  split_ifs at h with hdrop
  have hemit := emits_tryEmit scan fn k st.1 span "Call" (scan.heuristicAttempt fn markerType hint
    (scan.heuristicBinding fn markerType protocol span func args))
  split at h
  next s' htry =>
    cases h
    rw [htry] at hemit
    exact ⟨hemit, fun t ht => by simp [ht]⟩
  next s' htry =>
    cases h
    rw [htry] at hemit
    exact ⟨hemit, fun t _ => Iff.rfl⟩

variable (scan fn) in
/-- A BLE marker is never dropped. -/
theorem exists_bleHeuristic (span : Span) (func : Node) (args : List Node)
    (st : WalkState × List String) (hk : k.markerType = "UNSUBSCRIBE") :
    ∃ st', scan.bleHeuristic fn span func args st = some st' ∧ Emits k st.1 st'.1 False ∧
      ("CLOUD_OP" ∈ st'.2 ↔ "CLOUD_OP" ∈ st.2) ∧
        ("CLOUD_HTTP_CALL" ∈ st'.2 ↔ "CLOUD_HTTP_CALL" ∈ st.2) := by
  rw [Scan.bleHeuristic]
  split_ifs
  · cases hble : scan.heuristic fn "BLE_OP" "BLE" "heuristic:ble_device_runtime_call" span func args
        st with
    | some st' =>
      obtain ⟨hemit, htypes⟩ := emits_heuristic k hble
      refine ⟨st', rfl, hemit.congr (iff_of_false (fun heq => ?_) id), htypes _ (by decide),
        htypes _ (by decide)⟩
      rw [heq] at hk
      exact absurd (show "BLE_OP" = "UNSUBSCRIBE" from hk) (by decide)
    | none =>
      have hnever : ∀ phase binding hasTarget,
          shouldDropUnboundRuntimeMarker "BLE_OP" phase binding hasTarget = false := by
        intro phase binding hasTarget
        rw [shouldDropUnboundRuntimeMarker, show (["CLOUD_HTTP_CALL", "CLOUD_OP", "STATE_WRITE"].contains
          (upper (strip "BLE_OP"))) = false by decide +kernel, Bool.and_false]
      rw [Scan.heuristic] at hble
      rw [hnever, if_neg Bool.false_ne_true] at hble
      split at hble <;> cases hble
  · exact ⟨st, rfl, Emits.refl k st.1, Iff.rfl, Iff.rfl⟩

variable (scan fn k s) in
/-- An unsubscription adds its site. -/
theorem emits_unsubscribe (span : Span) (func : Node) (args : List Node) :
    Emits k s (scan.unsubscribe fn span func args s)
      (CallsBack (· ∈ s.subscribeCallbackVars) func ∧
        k = scan.siteKey fn span "Call" "UNSUBSCRIBE") := by
  have hskip : ¬ CallsBack (· ∈ s.subscribeCallbackVars) func →
      Emits k s s (CallsBack (· ∈ s.subscribeCallbackVars) func ∧
        k = scan.siteKey fn span "Call" "UNSUBSCRIBE") := fun hnot =>
    (Emits.refl k s).congr (iff_of_false id fun h => hnot h.1)
  unfold Scan.unsubscribe
  split
  next id =>
    split_ifs with hid
    · exact (emits_tryEmit scan fn k s span "Call" _).congr
        (and_iff_right (.inl ⟨id, rfl, hid⟩)).symm
    · refine hskip ?_
      rintro (⟨v, hv, hmem⟩ | ⟨value, key, hv, -⟩)
      · cases hv
        exact hid hmem
      · cases hv
  next value key =>
    split_ifs with hkey
    · exact (emits_tryEmit scan fn k s span "Call" _).congr
        (and_iff_right (.inr ⟨value, key, rfl, hkey⟩)).symm
    · refine hskip ?_
      rintro (⟨v, hv, -⟩ | ⟨value', key', hv, hmem⟩)
      · cases hv
      · cases hv
        exact hkey hmem
  next hname hsubscript =>
    refine hskip ?_
    rintro (⟨v, rfl, -⟩ | ⟨value, key, rfl, -⟩)
    · exact hname v rfl
    · exact hsubscript value key rfl

/-- The turn of a call adds its unsubscription. -/
theorem emits_visitCall (span : Span) (func : Node) (args : List Node)
    (hk : k.markerType = "UNSUBSCRIBE") :
    Emits k s (scan.visitCall fn span func args s)
      (k = scan.siteKey fn span "Call" "UNSUBSCRIBE" ∧
        scan.Unsubscribes fn s (· ∈ s.subscribeCallbackVars) span func args) := by
  have hdetected := emits_tryDetectors scan fn k s span (.call span func args)
  have htype : ∀ a : Attempt, k = scan.siteKey fn span "Call" a.markerType ↔
      k = scan.siteKey fn span "Call" "UNSUBSCRIBE" ∧ a.markerType = "UNSUBSCRIBE" := by
    intro a
    constructor
    · intro heq
      have ha : a.markerType = "UNSUBSCRIBE" := by rw [← hk, heq]; rfl
      exact ⟨ha ▸ heq, ha⟩
    · rintro ⟨heq, ha⟩
      rw [ha, heq]
  have hattempts : (∃ a ∈ scan.callAttempts fn (.call span func args),
      k = scan.siteKey fn span "Call" a.markerType) ↔
      k = scan.siteKey fn span "Call" "UNSUBSCRIBE" ∧
        ∃ a ∈ scan.callAttempts fn (.call span func args), a.markerType = "UNSUBSCRIBE" := by
    simp only [htype]
    exact ⟨fun ⟨a, ha, heq, ht⟩ => ⟨heq, a, ha, ht⟩, fun ⟨heq, a, ha, ht⟩ => ⟨a, ha, heq, ht⟩⟩
  obtain ⟨ble, hble, hbleEmits, hop, hhttp⟩ :=
    exists_bleHeuristic scan fn span func args
      (scan.tryDetectors fn span (.call span func args) s) hk
  have hbefore := ((hdetected.trans hbleEmits).congr (or_iff_left id)).congr hattempts
  have hdrops : scan.dropsCloudCall fn s span func args = true ↔
      (isCloudRuntimeCall (scan.callTokens fn func) fn.name scan.importedModules = true ∧
        "CLOUD_OP" ∉ ble.2 ∧ "CLOUD_HTTP_CALL" ∉ ble.2) ∧
          shouldDropUnboundRuntimeMarker "CLOUD_OP" (scan.phaseOf fn.name)
            (scan.heuristicBinding fn "CLOUD_OP" "CLOUD" span func args) scan.hasTarget = true := by
    rw [hop, hhttp, Scan.dropsCloudCall]
    simp [and_assoc]
  have hlast : ∀ cloud : WalkState × List String, scan.dropsCloudCall fn s span func args = false →
      Emits k ble.1 cloud.1 False → Emits k s (scan.unsubscribe fn span func args cloud.1)
        (k = scan.siteKey fn span "Call" "UNSUBSCRIBE" ∧
          scan.Unsubscribes fn s (· ∈ s.subscribeCallbackVars) span func args) := by
    intro cloud hkeep hcloud
    have hall := hbefore.trans (hcloud.trans (emits_unsubscribe scan fn k cloud.1 span func args))
    rw [hcloud.vars, hbefore.vars] at hall
    refine hall.congr ?_
    rw [false_or, and_comm (b := k = _), ← and_or_left, Scan.Unsubscribes, hkeep]
    simp
  rw [Scan.visitCall]
  simp only [hble]
  cases hcloud : scan.cloudHeuristic fn span func args ble with
  | none =>
    -- the turn ends here
    rw [Scan.cloudHeuristic] at hcloud
    split_ifs at hcloud with happlies
    rw [Scan.heuristic] at hcloud
    split_ifs at hcloud with hdrop
    · refine hbefore.congr (and_congr_right fun _ => ?_)
      rw [Scan.Unsubscribes, hdrops.2 ⟨happlies, hdrop⟩]
      simp
    · split at hcloud <;> cases hcloud
  | some cloud =>
    rw [Scan.cloudHeuristic] at hcloud
    split_ifs at hcloud with happlies
    · obtain ⟨hemit, -⟩ := emits_heuristic k hcloud
      refine hlast cloud ?_ (hemit.congr (iff_of_false (fun heq => ?_) id))
      · rw [Scan.heuristic] at hcloud
        split_ifs at hcloud with hdrop
        exact Bool.eq_false_iff.2 fun h => hdrop (hdrops.1 h).2
      · rw [heq] at hk
        exact absurd (show "CLOUD_OP" = "UNSUBSCRIBE" from hk) (by decide)
    · cases hcloud
      exact hlast ble (Bool.eq_false_iff.2 fun h => happlies (hdrops.1 h).1) (Emits.refl k ble.1)

end Emits

/-! ## What the walk marks -/

section Walk

variable {scan fn} {k : SiteKey} {s : WalkState}

theorem mem_targetNames {targets : List Node} {v : String} :
    v ∈ targetNames targets ↔ Node.name v ∈ targets := by
  rw [targetNames, List.mem_filterMap]
  constructor
  · rintro ⟨target, htarget, heq⟩
    cases target <;> cases heq
    exact htarget
  · exact fun h => ⟨.name v, h, rfl⟩

variable (scan fn s) in
theorem emitted_collectSubscription (node : Node) :
    (scan.collectSubscription fn s node).emitted = s.emitted := by
  unfold Scan.collectSubscription
  split
  · dsimp only
    split_ifs <;> rfl
  · rfl

/-- The targets of an assignment from a subscribing call become callback names. -/
theorem mem_vars_collectSubscription {node : Node} {v : String} :
    v ∈ (scan.collectSubscription fn s node).subscribeCallbackVars ↔
      v ∈ s.subscribeCallbackVars ∨ scan.Subscribes fn node v := by
  unfold Scan.collectSubscription
  split
  next targets span func args =>
    dsimp only
    split_ifs with hsub
    · rw [List.mem_append, mem_targetNames, or_comm]
      refine or_congr_right ⟨fun h => ⟨targets, span, func, args, rfl, hsub, h⟩, ?_⟩
      rintro ⟨_, _, _, _, heq, -, h⟩
      cases heq
      exact h
    · refine (or_iff_left ?_).symm
      rintro ⟨_, _, _, _, heq, h, -⟩
      cases heq
      exact hsub h
  next hother =>
    refine (or_iff_left ?_).symm
    rintro ⟨targets, span, func, args, rfl, -⟩
    exact hother targets span func args rfl

/-- The turn of a node that is no call. -/
theorem visit_of_not_call {node : Node} (h : ∀ span func args, node ≠ .call span func args) :
    scan.visit fn s node = scan.collectSubscription fn s node := by
  unfold Scan.visit
  dsimp only
  split
  next span func args => exact absurd rfl (h span func args)
  next => rfl

theorem visit_call (span : Span) (func : Node) (args : List Node) :
    scan.visit fn s (.call span func args) = scan.visitCall fn span func args s := rfl

theorem mem_vars_visit {node : Node} {v : String} :
    v ∈ (scan.visit fn s node).subscribeCallbackVars ↔
      v ∈ s.subscribeCallbackVars ∨ scan.Subscribes fn node v := by
  by_cases hcall : ∃ span func args, node = .call span func args
  · obtain ⟨span, func, args, rfl⟩ := hcall
    rw [visit_call, (emits_visitCall (k := scan.siteKey fn span "Call" "UNSUBSCRIBE") span func args
      rfl).vars]
    refine (or_iff_left ?_).symm
    rintro ⟨_, _, _, _, heq, -⟩
    cases heq
  · rw [visit_of_not_call fun span func args heq => hcall ⟨span, func, args, heq⟩,
      mem_vars_collectSubscription]

/-- The turn of a node marks the unsubscription of a site. -/
def Scan.MarksAt (scan : Scan) (fn : FunctionTree) (k : SiteKey) (s : WalkState) (node : Node) :
    Prop :=
  ∃ span func args, node = .call span func args ∧ k = scan.siteKey fn span "Call" "UNSUBSCRIBE" ∧
    scan.Unsubscribes fn s (· ∈ s.subscribeCallbackVars) span func args

theorem seen_visit (hk : k.markerType = "UNSUBSCRIBE") (s : WalkState) (node : Node) :
    k ∈ (scan.visit fn s node).emitted.seenKeys ↔
      k ∈ s.emitted.seenKeys ∨ scan.MarksAt fn k s node := by
  by_cases hcall : ∃ span func args, node = .call span func args
  · obtain ⟨span, func, args, rfl⟩ := hcall
    rw [visit_call, (emits_visitCall span func args hk).seen]
    refine or_congr_right ⟨fun h => ⟨span, func, args, rfl, h⟩, ?_⟩
    rintro ⟨_, _, _, heq, h⟩
    cases heq
    exact h
  · rw [visit_of_not_call fun span func args heq => hcall ⟨span, func, args, heq⟩,
      emitted_collectSubscription]
    refine (or_iff_left ?_).symm
    rintro ⟨span, func, args, heq, -⟩
    exact hcall ⟨span, func, args, heq⟩

theorem represents_visit (node : Node) (h : ∃ history, Represents history s.emitted) :
    ∃ history, Represents history (scan.visit fn s node).emitted := by
  by_cases hcall : ∃ span func args, node = .call span func args
  · obtain ⟨span, func, args, rfl⟩ := hcall
    rw [visit_call]
    exact (emits_visitCall (k := scan.siteKey fn span "Call" "UNSUBSCRIBE") span func args
      rfl).represents h
  · rwa [visit_of_not_call fun span func args heq => hcall ⟨span, func, args, heq⟩,
      emitted_collectSubscription]

theorem FunctionTree.kind_ne_call (fn : FunctionTree) : fn.kind ≠ "Call" := by
  rw [FunctionTree.kind]
  split_ifs <;> decide

variable (scan fn s) in
/-- The markers of a function by its name are not those of calls. -/
theorem emits_enterFunction (hk : k.nodeKind = "Call") :
    Emits k s (scan.enterFunction fn s) False := by
  have hkind : ∀ a : Attempt, k ≠ scan.siteKey fn fn.header.span fn.kind a.markerType := by
    intro a heq
    exact fn.kind_ne_call ((congrArg SiteKey.nodeKind heq).symm.trans hk)
  refine Emits.congr (emits_foldl id
    (fun s a => emits_tryEmit scan fn k s fn.header.span fn.kind a) _ s) (iff_of_false ?_ id)
  rintro ⟨a, -, heq⟩
  exact hkind a heq

/-! ### Functions and modules -/

theorem mem_vars_foldl_visit {nodes : List Node} {v : String} :
    v ∈ (nodes.foldl (scan.visit fn) s).subscribeCallbackVars ↔
      v ∈ s.subscribeCallbackVars ∨ ∃ node ∈ nodes, scan.Subscribes fn node v :=
  foldl_iff_exists_mem (P := fun s => v ∈ s.subscribeCallbackVars)
    (A := fun node => scan.Subscribes fn node v) (fun _ _ => mem_vars_visit) nodes s

theorem mem_vars_enterFunction {v : String} :
    v ∈ (scan.enterFunction fn s).subscribeCallbackVars ↔ v ∈ s.subscribeCallbackVars := by
  rw [(emits_enterFunction scan fn s (k := scan.siteKey fn fn.header.span "Call" "UNSUBSCRIBE") rfl).vars]

theorem mem_vars_scanFunction {v : String} :
    v ∈ (scan.scanFunction s fn).subscribeCallbackVars ↔
      v ∈ s.subscribeCallbackVars ∨ ∃ node ∈ astWalk fn.node, scan.Subscribes fn node v := by
  rw [Scan.scanFunction, mem_vars_foldl_visit, mem_vars_enterFunction]

theorem mem_vars_foldl_scanFunction {fns : List FunctionTree} {v : String} :
    v ∈ (fns.foldl scan.scanFunction s).subscribeCallbackVars ↔
      v ∈ s.subscribeCallbackVars ∨
        ∃ fn ∈ fns, ∃ node ∈ astWalk fn.node, scan.Subscribes fn node v :=
  foldl_iff_exists_mem (P := fun s => v ∈ s.subscribeCallbackVars)
    (A := fun fn => ∃ node ∈ astWalk fn.node, scan.Subscribes fn node v)
    (fun _ _ => mem_vars_scanFunction) fns s

/-- The walk of a function marks the unsubscription of a site. -/
def Scan.MarksIn (scan : Scan) (k : SiteKey) (s : WalkState) (fn : FunctionTree) : Prop :=
  ∃ before node after, astWalk fn.node = before ++ node :: after ∧
    scan.MarksAt fn k (before.foldl (scan.visit fn) (scan.enterFunction fn s)) node

theorem seen_scanFunction (hk : k.markerType = "UNSUBSCRIBE") (hcall : k.nodeKind = "Call")
    (s : WalkState) (fn : FunctionTree) :
    k ∈ (scan.scanFunction s fn).emitted.seenKeys ↔
      k ∈ s.emitted.seenKeys ∨ scan.MarksIn k s fn := by
  have hwalk : k ∈ (scan.scanFunction s fn).emitted.seenKeys ↔
      k ∈ (scan.enterFunction fn s).emitted.seenKeys ∨ scan.MarksIn k s fn :=
    foldl_iff (P := fun s => k ∈ s.emitted.seenKeys) (A := scan.MarksAt fn k) (seen_visit hk) _ _
  rw [hwalk, (emits_enterFunction scan fn s hcall).seen, or_false]

/-- What the walk of a module marks. -/
theorem seen_detectMarkers (hk : k.markerType = "UNSUBSCRIBE") (hcall : k.nodeKind = "Call")
    (tree : Node) :
    k ∈ (detectMarkers scan tree).emitted.seenKeys ↔
      ∃ before g after, iterFunctionNodes tree = before ++ g :: after ∧
        scan.MarksIn k (before.foldl scan.scanFunction .start) g := by
  have hwalk : k ∈ (detectMarkers scan tree).emitted.seenKeys ↔
      k ∈ WalkState.start.emitted.seenKeys ∨
        ∃ before g after, iterFunctionNodes tree = before ++ g :: after ∧
          scan.MarksIn k (before.foldl scan.scanFunction .start) g :=
    foldl_iff (P := fun s => k ∈ s.emitted.seenKeys) (A := scan.MarksIn k)
      (seen_scanFunction hk hcall) _ _
  rw [hwalk]
  exact or_iff_right List.not_mem_nil

variable (scan) in
/-- The walk of a module keeps the markers of the sites that were seen. -/
theorem represents_detectMarkers (tree : Node) :
    ∃ history, Represents history (detectMarkers scan tree).emitted := by
  have hvisits : ∀ (nodes : List Node) (fn : FunctionTree) (s : WalkState),
      (∃ history, Represents history s.emitted) →
        ∃ history, Represents history (nodes.foldl (scan.visit fn) s).emitted := by
    intro nodes fn
    induction nodes with
    | nil => exact fun _ h => h
    | cons node nodes ih => exact fun s h => ih _ (represents_visit node h)
  rw [detectMarkers]
  generalize iterFunctionNodes tree = fns
  have hstart : ∃ history, Represents history WalkState.start.emitted := ⟨[], run_represents []⟩
  revert hstart
  generalize WalkState.start = s
  induction fns generalizing s with
  | nil => exact id
  | cons fn fns ih =>
    intro h
    exact ih _ (hvisits _ fn _
      ((emits_enterFunction scan fn s (k := scan.siteKey fn fn.header.span "Call" "UNSUBSCRIBE")
        rfl).represents h))

end Walk

/-! ## Missed unsubscriptions -/

/-- The markers and callback names when the walk of a function comes to a path. -/
def Scan.stateBefore (before : List FunctionTree) (q : List ℕ) : WalkState :=
  (nodesBefore Node.children fn.node.size fn.node q).foldl (scan.visit fn)
    (scan.enterFunction fn (before.foldl scan.scanFunction .start))

/-- The name was assigned from a subscribing call when the walk comes to a path: in a function that was
walked before, or in this one at a node that is less deep, or as deep and further left. -/
def Scan.SubscribedBefore (before : List FunctionTree) (q : List ℕ) (v : String) : Prop :=
  (∃ g ∈ before, ∃ node ∈ astWalk g.node, scan.Subscribes g node v) ∨
    ∃ p node, nodeAt Node.children p fn.node = some node ∧ Earlier p q ∧ scan.Subscribes fn node v

/-- The walk of a module comes to an unsubscription at the site of a call. -/
def Scan.ComesToUnsubscribe (tree : Node) (span : Span) : Prop :=
  ∃ before g after, iterFunctionNodes tree = before ++ g :: after ∧
    ∃ q span' func args, nodeAt Node.children q g.node = some (.call span' func args) ∧
      scan.siteKey fn span "Call" "UNSUBSCRIBE" = scan.siteKey g span' "Call" "UNSUBSCRIBE" ∧
        scan.Unsubscribes g (scan.stateBefore g before q) (scan.SubscribedBefore g before q) span' func
          args

/-- A marker with the data of a site. -/
structure MarkerOf (k : SiteKey) (m : Marker) : Prop where
  markerId : m.markerId = markerId k
  markerType : m.markerType = k.markerType
  filePath : m.filePath = k.filePath
  functionName : m.functionName = k.functionName
  lineStart : m.lineStart = k.lineStart
  lineEnd : m.lineEnd = k.lineEnd

/-- The site was emitted, and its marker is in the list. -/
def SiteMarked (e : Emitted) (k : SiteKey) : Prop := k ∈ e.seenKeys ∧ ∃ m ∈ e.out, MarkerOf k m

/-- Every call of a name is marked when an assignment to the left of it, in the same function, takes
the name from a subscribing call. -/
def Scan.NoUnsubscribeMissed (scan : Scan) (tree : Node) : Prop :=
  ∀ fn ∈ iterFunctionNodes tree, ∀ p q node span v args,
    nodeAt Node.children p fn.node = some node → scan.Subscribes fn node v →
      nodeAt Node.children q fn.node = some (.call span (.name v) args) → Precedes p q →
        SiteMarked (detectMarkers scan tree).emitted (scan.siteKey fn span "Call" "UNSUBSCRIBE")

variable {scan fn}

theorem callsBack_congr {P Q : String → Prop} (h : ∀ v, P v ↔ Q v) (func : Node) :
    CallsBack P func ↔ CallsBack Q func := by
  rw [CallsBack, CallsBack]
  simp only [h]

theorem mem_vars_stateBefore {before : List FunctionTree} {q : List ℕ} {v : String} :
    v ∈ (scan.stateBefore fn before q).subscribeCallbackVars ↔
      scan.SubscribedBefore fn before q v := by
  rw [Scan.stateBefore, mem_vars_foldl_visit, mem_vars_enterFunction, mem_vars_foldl_scanFunction,
    Scan.SubscribedBefore]
  refine or_congr (or_iff_right (List.not_mem_nil)) ?_
  simp only [mem_nodesBefore sum_size_children (Nat.le_refl _)]
  constructor
  · rintro ⟨node, ⟨p, hp, hpq⟩, h⟩
    exact ⟨p, node, hp, hpq, h⟩
  · rintro ⟨p, node, hp, hpq, h⟩
    exact ⟨node, ⟨p, hp, hpq⟩, h⟩

/-- Which unsubscriptions the walk of a module marks. -/
theorem siteMarked_iff (tree : Node) (span : Span) :
    SiteMarked (detectMarkers scan tree).emitted (scan.siteKey fn span "Call" "UNSUBSCRIBE") ↔
      scan.ComesToUnsubscribe fn tree span := by
  set k := scan.siteKey fn span "Call" "UNSUBSCRIBE" with hk
  have hmarked : SiteMarked (detectMarkers scan tree).emitted k ↔
      k ∈ (detectMarkers scan tree).emitted.seenKeys := by
    refine and_iff_left_of_imp fun hseen => ?_
    obtain ⟨history, h⟩ := represents_detectMarkers scan tree
    obtain ⟨f, hf, hkey⟩ := List.mem_map.1 (mem_map_key_firsts.2 ((h.seen k).1 hseen))
    obtain ⟨m, hm, hstands⟩ := exists_stands h.markers hf
    rw [← hkey]
    exact ⟨m, hm, hstands.markerId, hstands.markerType, hstands.filePath, hstands.functionName,
      hstands.lineStart, hstands.lineEnd⟩
  have htype : k.markerType = "UNSUBSCRIBE" := rfl
  have hcall : k.nodeKind = "Call" := rfl
  clear_value k
  rw [hmarked, seen_detectMarkers htype hcall, Scan.ComesToUnsubscribe, ← hk]
  refine exists_congr fun before => exists_congr fun g => exists_congr fun after =>
    and_congr_right fun _ => ?_
  have hunsubscribes : ∀ q span' func args,
      scan.Unsubscribes g (scan.stateBefore g before q)
        (· ∈ (scan.stateBefore g before q).subscribeCallbackVars) span' func args ↔
      scan.Unsubscribes g (scan.stateBefore g before q) (scan.SubscribedBefore g before q) span' func
        args := fun q span' func args =>
    or_congr_right (and_congr_right fun _ => callsBack_congr (fun _ => mem_vars_stateBefore) func)
  constructor
  · rintro ⟨nodes, node, rest, hwalk, span', func, args, rfl, hkey, h⟩
    obtain ⟨q, hq, rfl⟩ := exists_of_walk_eq_append sum_size_children (Nat.le_refl _) hwalk
    exact ⟨q, span', func, args, hq, hkey, (hunsubscribes q span' func args).1 h⟩
  · rintro ⟨q, span', func, args, hq, hkey, h⟩
    obtain ⟨rest, hwalk⟩ := walk_eq_append sum_size_children (Nat.le_refl _) hq
    exact ⟨_, _, rest, hwalk, span', func, args, rfl, hkey, (hunsubscribes q span' func args).2 h⟩

/-- No unsubscription is missed exactly when the walk comes to one at each call of a name that was
subscribed further left: its turn is not dropped as a cloud call, and the name was subscribed before in
the order of the walk, or else another detector marks it. -/
theorem noUnsubscribeMissed_iff (scan : Scan) (tree : Node) :
    scan.NoUnsubscribeMissed tree ↔ ∀ fn ∈ iterFunctionNodes tree, ∀ p q node span v args,
      nodeAt Node.children p fn.node = some node → scan.Subscribes fn node v →
        nodeAt Node.children q fn.node = some (.call span (.name v) args) → Precedes p q →
          scan.ComesToUnsubscribe fn tree span := by
  simp only [Scan.NoUnsubscribeMissed, siteMarked_iff]

/-- A file without detectors, rules and target. -/
def plainScan : Scan where
  filePath := "hub.py"
  hasTarget := false
  importedModules := []
  protocols := []
  symbolAliases := []
  moduleAliases := []
  localAliases := fun _ => []
  phaseOf := fun _ => .runtime
  relatedActions := fun _ => ⟨none, [], [], none⟩
  functionAttempts := fun _ => []
  callAttempts := fun _ _ => []

/-- `unsub = coordinator.add_listener(refresh)`. -/
def listenerAssignment : Node :=
  .assign [.name "unsub"]
    (.call ⟨4, 4, 20, 53⟩ (.attribute (.name "coordinator") "add_listener") [.name "refresh"])

/-- A function that subscribes under two conditions, and then unsubscribes. -/
def nestedFunction : FunctionTree :=
  let header := ⟨"restart", false, ⟨1, 5, 0, 11⟩⟩
  ⟨header, .function header
    [.other [.name "ready", .other [.name "armed", listenerAssignment]],
      .other [.call ⟨5, 5, 4, 11⟩ (.name "unsub") []]]⟩

/-- The call is met before the assignment, which is one level deeper. -/
theorem unsubscribe_missed : ¬ ∀ (scan : Scan) (tree : Node), scan.NoUnsubscribeMissed tree := by
  intro h
  have hfn : iterFunctionNodes (.other [nestedFunction.node]) = [nestedFunction] := rfl
  have hsubscribes : plainScan.Subscribes nestedFunction listenerAssignment "unsub" :=
    ⟨_, _, _, _, rfl, by decide +kernel, List.mem_singleton.2 rfl⟩
  have hmarked := h plainScan (.other [nestedFunction.node]) nestedFunction
    (by rw [hfn]; exact List.mem_singleton.2 rfl) [0, 1, 1] [1, 0] listenerAssignment ⟨5, 5, 4, 11⟩
    "unsub" [] rfl hsubscribes rfl ⟨by decide, by decide⟩
  have hnone : (detectMarkers plainScan (.other [nestedFunction.node])).emitted.seenKeys = [] := by
    decide +kernel
  have hseen := hmarked.1
  rw [hnone] at hseen
  cases hseen

end FloWeaver.Markers
