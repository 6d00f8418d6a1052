import FloWeaver.Py.Str

/-!
# Runtime roles of a function

A grounding rule says in which functions a marker may be found.  The roles of a function are guessed
from its name and the names of its calls: one joined text gives the roles, and each name on its own
gives the path signals.  A rule can forbid a role, but three fallbacks take roles away again.

* `inferRuntimeRoles`, `pathSignalRows` — the roles and the signals of a function.
* `ruleContextMatches` — whether a rule applies to a function.
* `mem_inferRuntimeRoles_of_control` — a control command anywhere makes the function a writer.
* `ruleContextMatches_false_iff` — when no rule that forbids writers applies to it.
-/

namespace FloWeaver.Markers

open Py

/-! ## Tokens -/

def propertyGetterNames : List String :=
  ["available", "device_info", "extra_state_attributes", "icon", "is_on", "name",
    "native_unit_of_measurement", "native_value", "state", "supported_features", "unique_id",
    "value"]

def readContextTokens : List String :=
  ["update", "refresh", "status", "poll", "fetch", "runtime", "read", "get"]

def controlContextTokens : List String :=
  ["turn_on", "turn_off", "set_", "write", "command", "send", "create_", "delete_"]

def connectContextTokens : List String := ["connect", "reconnect"]

def subscriptionContextTokens : List String :=
  ["subscribe", "listener", "notify", "message", "track_state"]

def updateCallbackNameHints : List String :=
  ["handle_update", "coordinator_update", "process_device_update", "update_callback",
    "status_updated", "device_update", "on_update", "handle_event"]

def stateAccessorHintTokens : List String :=
  ["_read_wrapper", "read_device_status", "current_state", "device_status", "state", "status",
    "value"]

def stateWriteHintTokens : List String :=
  ["async_write_ha_state", "schedule_update_ha_state", "write_ha_state",
    "_handle_coordinator_update", "handle_coordinator_update", "_async_call_update_attrs"]

def refreshTokens : List String := ["update", "refresh", "poll", "fetch"]

/-- `str(token or "").strip().lower()`. -/
def normalToken (token : String) : String := lower (strip token)

/-- Does the text contain one of some words? -/
def namesAny (words : List String) (text : String) : Bool := words.any (contains text)

def tokenIsStateWriteLike (token : String) : Bool :=
  let value := normalToken token
  value ≠ "" && stateWriteHintTokens.any fun hint => value = hint || contains value hint

def tokenIsControlLike (token : String) : Bool :=
  let value := normalToken token
  value ≠ "" && !tokenIsStateWriteLike value &&
    controlContextTokens.any fun needle => contains value needle || startsWith value needle

def tokenIsReadLike (token : String) : Bool :=
  let value := normalToken token
  value ≠ "" && !tokenIsControlLike value && readContextTokens.any fun needle =>
    contains value needle || startsWith value (needle ++ "_") ||
      contains value ("." ++ needle ++ "_")

def tokenIsConnectLike (token : String) : Bool :=
  let value := normalToken token
  value ≠ "" && namesAny connectContextTokens value

def tokenIsSubscriptionLike (token : String) : Bool :=
  let value := normalToken token
  value ≠ "" && namesAny subscriptionContextTokens value

/-! ## Roles and signals -/

def phaseToken (phase : String) : String := upper (strip (if phase = "" then "RUNTIME" else phase))

/-- The call tokens that are not blank. -/
def cleanTokens (callTokens : List String) : List String :=
  (callTokens.map normalToken).filter (· ≠ "")

/-- The name and the sorted calls in one text. -/
def functionText (fnName : String) (callTokens : List String) : String :=
  normalToken fnName ++ " " ++ join " " (sortedStr (cleanTokens callTokens))

def combinedSignalText (fnName : String) (callTokens : List String) : String :=
  strip (functionText fnName callTokens)

/-- The names whose conditions hold. -/
def chosen (table : List (Bool × String)) : List String := (table.filter (·.1)).map (·.2)

def contextFlags (fnName phase : String) (callTokens : List String) : List String :=
  let fnToken := normalToken fnName
  let text := functionText fnName callTokens
  let runtime : Bool := phaseToken phase = "RUNTIME"
  chosen
    [(runtime, "runtime_path"),
      (phaseToken phase = "SETUP", "setup_function"),
      (phaseToken phase = "TEARDOWN", "teardown_function"),
      (fnToken = "__init__", "dunder_init"),
      (propertyGetterNames.contains fnToken, "entity_property_getter"),
      (runtime &&
        namesAny ["update", "refresh", "status", "poll", "fetch", "runtime", "read"] text,
        "runtime_update_path"),
      (runtime && namesAny connectContextTokens text, "runtime_connect_path"),
      (namesAny subscriptionContextTokens text, "subscription_path"),
      (startsWith fnToken "_", "helper_wrapper")]

def inferRuntimeRoles (fnName phase : String) (callTokens : List String) : List String :=
  let fnToken := normalToken fnName
  let text := combinedSignalText fnName callTokens
  chosen
    [(phaseToken phase = "SETUP", "setup"),
      (phaseToken phase = "TEARDOWN", "teardown"),
      (propertyGetterNames.contains fnToken, "property_getter"),
      (namesAny updateCallbackNameHints fnToken && !tokenIsControlLike text, "runtime_read"),
      (tokenIsStateWriteLike text, "runtime_write"),
      (tokenIsControlLike text, "runtime_write"),
      (tokenIsConnectLike text, "runtime_connect"),
      (tokenIsSubscriptionLike text, "runtime_subscribe"),
      (tokenIsReadLike text, "runtime_read"),
      (startsWith fnToken "_", "helper")]

/-- The kinds of signals of one call. -/
def callSignals (token : String) : List (Bool × String) :=
  let read := tokenIsReadLike token
  [(tokenIsControlLike token, "control_call:"),
    (tokenIsStateWriteLike token, "state_write_call:"),
    (read, "read_call:"),
    (read && namesAny stateAccessorHintTokens token, "state_accessor_call:"),
    (read && namesAny refreshTokens token, "refresh_call:"),
    (tokenIsConnectLike token, "connect_call:"),
    (tokenIsSubscriptionLike token, "subscription_call:")]

/-- The kinds of signals of the function itself. -/
def functionSignals (fnName phase : String) (callTokens : List String) : List (Bool × String) :=
  let text := combinedSignalText fnName callTokens
  let roles := inferRuntimeRoles fnName phase callTokens
  [(phaseToken phase = "SETUP", "setup_function:"),
    (phaseToken phase = "TEARDOWN", "teardown_function:"),
    (roles.contains "property_getter", "property_function:"),
    (roles.contains "property_getter", "state_accessor_property:"),
    (roles.contains "runtime_write" && tokenIsStateWriteLike text, "state_write_function:"),
    (roles.contains "runtime_write", "control_function:"),
    (roles.contains "runtime_read", "read_function:"),
    (roles.contains "runtime_read" && (namesAny refreshTokens text ||
      namesAny updateCallbackNameHints (normalToken fnName)), "update_callback_function:"),
    (roles.contains "runtime_connect", "connect_function:"),
    (roles.contains "runtime_subscribe", "subscription_function:")]

/-- The signals as the kind and the token it is about. -/
def pathSignalRows (fnName phase : String) (callTokens : List String) : List (String × String) :=
  (chosen (functionSignals fnName phase callTokens)).map (·, normalToken fnName) ++
    (cleanTokens callTokens).flatMap fun token => (chosen (callSignals token)).map (·, token)

def inferPathSignals (fnName phase : String) (callTokens : List String) : List String :=
  (pathSignalRows fnName phase callTokens).map fun row => row.1 ++ row.2

/-! ## Rules -/

/-- What the context of a compiled rule asks for. -/
structure CompiledGroundingRule where
  requiredContext : List String := []
  forbiddenContext : List String := []
  requiredPathSignals : List String := []
  forbiddenPathSignals : List String := []
  requiredRuntimeRoles : List String := []
  forbiddenRuntimeRoles : List String := []
  requiredServiceTokens : List String := []
  allowAccessorFallback : Bool := false

/-- Do two sets have a common element? -/
def meets (s t : List String) : Bool := s.any t.contains

def subset (s t : List String) : Bool := s.all t.contains

def anyStartsWith (signals : List String) (kinds : List String) : Bool :=
  signals.any fun signal => kinds.any (startsWith signal)

def requiredPathSignalsMatch (rule : CompiledGroundingRule) (signals : List String) : Bool :=
  rule.requiredPathSignals.isEmpty || meets rule.requiredPathSignals signals

/-- The names of a value: itself, its parts, and its ends from an underscore on. -/
def serviceAlignmentTokens (value : String) : List String :=
  if value = "" then []
  else
    let parts := splitBy (fun c => c ≠ '.' && c ≠ ':') value
    let underscoreParts := splitBy (· ≠ '_') value
    value :: (parts.map normalToken).filter (· ≠ "") ++
      (underscoreParts.tails.map (join "_")).filter (· ≠ "")

def requiredServiceTokensMatch (rule : CompiledGroundingRule) (fnName : String)
    (callTokens : List String) : Bool :=
  rule.requiredServiceTokens.isEmpty || meets rule.requiredServiceTokens
    ((normalToken fnName :: cleanTokens callTokens).flatMap serviceAlignmentTokens)

def semanticRuntimeReadFallbackAllowed (rule : CompiledGroundingRule)
    (flags roles signals : List String) : Bool :=
  rule.requiredRuntimeRoles.contains "runtime_read" && !rule.requiredPathSignals.isEmpty &&
    meets rule.requiredPathSignals signals && roles.contains "runtime_read" &&
    !meets rule.forbiddenPathSignals signals &&
    meets flags ["setup_function", "entity_property_getter", "helper_wrapper"]

def updateSnapshotRuntimeReadFallback (rule : CompiledGroundingRule) (signals : List String) : Bool :=
  rule.requiredRuntimeRoles.contains "runtime_read" &&
    anyStartsWith signals ["update_callback_function:"] &&
    anyStartsWith signals ["state_write_function:", "state_write_call:"] &&
    !anyStartsWith signals ["control_call:", "awaited_control_call:"]

/-- The set without some elements. -/
def discard (s : List String) (condition : Bool) (elements : List String) : List String :=
  if condition then s.filter fun a => !elements.contains a else s

/-- The roles after the three fallbacks. -/
def effectiveRoles (rule : CompiledGroundingRule) (flags roles signals : List String) :
    List String :=
  let semanticRuntimeFallback := semanticRuntimeReadFallbackAllowed rule flags roles signals
  let updateSnapshotFallback := updateSnapshotRuntimeReadFallback rule signals
  let accessor := rule.allowAccessorFallback && rule.requiredRuntimeRoles.contains "runtime_read"
  let kept := discard (discard (discard roles semanticRuntimeFallback ["setup", "helper"])
    updateSnapshotFallback ["runtime_write", "helper"]) accessor ["property_getter", "helper"]
  if accessor && anyStartsWith signals
      ["property_function:", "state_accessor_property:", "state_accessor_call:"] then
    kept ++ ["runtime_read"]
  else kept

def requiredContextMatches (rule : CompiledGroundingRule) (flags : List String)
    (semanticRuntimeFallback : Bool) : Bool :=
  let hybrid := ["runtime_path", "subscription_path"]
  if rule.requiredContext.isEmpty then true
  else if subset hybrid rule.requiredContext then
    meets flags hybrid && subset (discard rule.requiredContext true hybrid) flags
  else
    subset rule.requiredContext flags ||
      (rule.allowAccessorFallback && meets flags ["entity_property_getter", "runtime_path"] &&
        rule.requiredContext.contains "runtime_update_path") ||
      (semanticRuntimeFallback && rule.requiredContext.contains "runtime_update_path")

def ruleContextMatches (rule : CompiledGroundingRule) (fnName phase : String)
    (callTokens : List String) : Bool :=
  let flags := contextFlags fnName phase callTokens
  let roles := inferRuntimeRoles fnName phase callTokens
  let signals := inferPathSignals fnName phase callTokens
  let semanticRuntimeFallback := semanticRuntimeReadFallbackAllowed rule flags roles signals
  let effective := effectiveRoles rule flags roles signals
  let forbiddenFlags := discard (discard rule.forbiddenContext rule.allowAccessorFallback
    ["entity_property_getter"]) semanticRuntimeFallback ["setup_function"]
  let forbiddenSignals := if rule.allowAccessorFallback then
      rule.forbiddenPathSignals.filter fun item =>
        !anyStartsWith [item] ["state_accessor_property:", "property_function:"]
    else rule.forbiddenPathSignals
  (rule.requiredRuntimeRoles.isEmpty || meets rule.requiredRuntimeRoles effective) &&
    requiredServiceTokensMatch rule fnName callTokens &&
    requiredPathSignalsMatch rule signals &&
    requiredContextMatches rule flags semanticRuntimeFallback &&
    !meets forbiddenFlags flags &&
    !meets rule.forbiddenRuntimeRoles effective &&
    !meets forbiddenSignals signals

/-! ## Words in the joined text -/

theorem toList_normalToken (token : String) :
    (normalToken token).toList = lowerL (stripL token.toList) := by
  rw [normalToken, lower, strip, String.toList_ofList, String.toList_ofList]

/-- A word in lower case without white space, as all the tables have them. -/
def Plain (word : String) : Prop :=
  word ≠ "" ∧ lowerL word.toList = word.toList ∧ ∀ c ∈ word.toList, isSpace c = false

instance (word : String) : Decidable (∀ c ∈ word.toList, isSpace c = false) :=
  List.decidableBAll (fun c => isSpace c = false) word.toList

instance (word : String) : Decidable (Plain word) :=
  inferInstanceAs (Decidable (_ ∧ _))

theorem ne_empty_of_contains {word value : String} (hword : Plain word)
    (h : contains value word = true) : value ≠ "" := by
  rintro rfl
  have hnil := List.infix_nil.1 (contains_iff.1 h)
  exact hword.1 (String.toList_eq_nil_iff.1 hnil)

/-- A word of a text is found in it after trimming and with small letters as well. -/
theorem contains_normalToken {word text : String} (hword : Plain word)
    (h : contains text word = true) : contains (normalToken text) word = true := by
  rw [contains_iff, toList_normalToken, ← hword.2.1]
  exact (isInfix_stripL hword.2.2 (contains_iff.1 h)).map _

/-- A token that was trimmed before has no further words. -/
theorem contains_of_normalToken {word token : String}
    (h : contains (normalToken (normalToken token)) word = true) :
    contains (normalToken token) word = true := by
  rw [contains_iff, toList_normalToken] at h
  have hinfix : lowerL (stripL (normalToken token).toList) <:+: lowerL (normalToken token).toList :=
    (stripL_isInfix _).map _
  rw [toList_normalToken token, lowerL_lowerL] at hinfix
  rw [contains_iff, toList_normalToken token]
  rw [toList_normalToken token] at h
  exact h.trans hinfix

theorem plain_of_mem_stateWrite : ∀ hint ∈ stateWriteHintTokens, Plain hint := by decide +kernel

theorem tokenIsStateWriteLike_iff {token : String} : tokenIsStateWriteLike token = true ↔
    ∃ hint ∈ stateWriteHintTokens, contains (normalToken token) hint = true := by
  simp only [tokenIsStateWriteLike, Bool.and_eq_true, List.any_eq_true, Bool.or_eq_true,
    decide_eq_true_eq]
  constructor
  · rintro ⟨-, hint, hmem, heq | h⟩
    · refine ⟨hint, hmem, ?_⟩
      rw [heq]
      exact contains_iff.2 List.infix_rfl
    · exact ⟨hint, hmem, h⟩
  · rintro ⟨hint, hmem, h⟩
    have hne := ne_empty_of_contains (plain_of_mem_stateWrite hint hmem) h
    exact ⟨hne, hint, hmem, .inr h⟩

/-- A clean token is judged as the token it comes from. -/
theorem tokenIsStateWriteLike_normalToken (token : String) :
    tokenIsStateWriteLike (normalToken token) = tokenIsStateWriteLike token := by
  rw [Bool.eq_iff_iff, tokenIsStateWriteLike_iff, tokenIsStateWriteLike_iff]
  constructor
  · rintro ⟨hint, hmem, h⟩
    exact ⟨hint, hmem, contains_of_normalToken h⟩
  · rintro ⟨hint, hmem, h⟩
    exact ⟨hint, hmem, contains_normalToken (plain_of_mem_stateWrite hint hmem) h⟩

theorem plain_of_mem_control : ∀ needle ∈ controlContextTokens, Plain needle := by decide +kernel

theorem tokenIsControlLike_iff {token : String} : tokenIsControlLike token = true ↔
    tokenIsStateWriteLike token = false ∧
      ∃ needle ∈ controlContextTokens, contains (normalToken token) needle = true := by
  simp only [tokenIsControlLike, tokenIsStateWriteLike_normalToken, Bool.and_eq_true,
    List.any_eq_true, Bool.or_eq_true, decide_eq_true_eq, Bool.not_eq_true']
  constructor
  · rintro ⟨⟨-, hwrite⟩, needle, hmem, h | h⟩
    · exact ⟨hwrite, needle, hmem, h⟩
    · exact ⟨hwrite, needle, hmem, contains_iff.2 (List.isPrefixOf_iff_prefix.1 h).isInfix⟩
  · rintro ⟨hwrite, needle, hmem, h⟩
    have hne := ne_empty_of_contains (plain_of_mem_control needle hmem) h
    exact ⟨⟨hne, hwrite⟩, needle, hmem, .inl h⟩

theorem tokenIsControlLike_normalToken (token : String) :
    tokenIsControlLike (normalToken token) = tokenIsControlLike token := by
  rw [Bool.eq_iff_iff, tokenIsControlLike_iff, tokenIsControlLike_iff,
    tokenIsStateWriteLike_normalToken]
  refine and_congr_right fun _ => ⟨?_, ?_⟩
  · rintro ⟨needle, hmem, h⟩
    exact ⟨needle, hmem, contains_of_normalToken h⟩
  · rintro ⟨needle, hmem, h⟩
    exact ⟨needle, hmem, contains_normalToken (plain_of_mem_control needle hmem) h⟩

variable {fnName phase : String} {callTokens : List String}

theorem mem_cleanTokens_of_control {token : String} (htoken : token ∈ callTokens)
    (h : tokenIsControlLike token = true) : normalToken token ∈ cleanTokens callTokens := by
  obtain ⟨-, needle, hmem, hneedle⟩ := tokenIsControlLike_iff.1 h
  have hne := ne_empty_of_contains (plain_of_mem_control needle hmem) hneedle
  exact List.mem_filter.2 ⟨List.mem_map_of_mem htoken, decide_eq_true hne⟩

/-- The joined text has the words of the name and of each call. -/
theorem contains_signalText {word part : String} (hword : Plain word)
    (hpart : part = normalToken fnName ∨ part ∈ cleanTokens callTokens)
    (h : contains part word = true) :
    contains (normalToken (combinedSignalText fnName callTokens)) word = true := by
  have htext : contains (functionText fnName callTokens) word = true := by
    rw [contains_iff] at h ⊢
    refine h.trans ?_
    rw [functionText, String.toList_append, String.toList_append]
    rcases hpart with rfl | hpart
    · rw [List.append_assoc]
      exact (List.prefix_append _ _).isInfix
    · exact (isInfix_join (mem_sortedStr.2 hpart)).trans (List.suffix_append _ _).isInfix
  have hstrip : normalToken (combinedSignalText fnName callTokens) =
      normalToken (functionText fnName callTokens) := by
    rw [normalToken, combinedSignalText, strip_strip, normalToken]
  rw [hstrip]
  exact contains_normalToken hword htext

/-! ## Roles -/

theorem mem_chosen {table : List (Bool × String)} {name : String} :
    name ∈ chosen table ↔ (true, name) ∈ table := by
  simp [chosen]

theorem mem_roles_write : "runtime_write" ∈ inferRuntimeRoles fnName phase callTokens ↔
    tokenIsStateWriteLike (combinedSignalText fnName callTokens) = true ∨
      tokenIsControlLike (combinedSignalText fnName callTokens) = true := by
  simp only [inferRuntimeRoles, mem_chosen, List.mem_cons, Prod.mk.injEq, Bool.true_eq]
  simp

theorem mem_roles_read : "runtime_read" ∈ inferRuntimeRoles fnName phase callTokens ↔
    (namesAny updateCallbackNameHints (normalToken fnName) = true ∧
      tokenIsControlLike (combinedSignalText fnName callTokens) = false) ∨
      tokenIsReadLike (combinedSignalText fnName callTokens) = true := by
  simp only [inferRuntimeRoles, mem_chosen, List.mem_cons, Prod.mk.injEq, Bool.true_eq]
  simp

/-- A control command in the name or in a call makes the function a writer. -/
theorem mem_roles_of_control (h : tokenIsControlLike fnName = true ∨
    ∃ token ∈ callTokens, tokenIsControlLike token = true) :
    "runtime_write" ∈ inferRuntimeRoles fnName phase callTokens := by
  have hword : ∃ needle ∈ controlContextTokens,
      contains (normalToken (combinedSignalText fnName callTokens)) needle = true := by
    rcases h with h | ⟨token, htoken, h⟩
    · obtain ⟨-, needle, hmem, hneedle⟩ := tokenIsControlLike_iff.1 h
      exact ⟨needle, hmem, contains_signalText (plain_of_mem_control needle hmem) (.inl rfl) hneedle⟩
    · obtain ⟨-, needle, hmem, hneedle⟩ := tokenIsControlLike_iff.1 h
      exact ⟨needle, hmem, contains_signalText (plain_of_mem_control needle hmem)
        (.inr (mem_cleanTokens_of_control htoken h)) hneedle⟩
  rw [mem_roles_write]
  cases hwrite : tokenIsStateWriteLike (combinedSignalText fnName callTokens) with
  | true => exact .inl rfl
  | false => exact .inr (tokenIsControlLike_iff.2 ⟨hwrite, hword⟩)

/-! ## Signals -/

/-- Two kinds of signals of which neither begins like the other. -/
def Apart (kind kind' : String) : Prop :=
  ¬ kind.toList <+: kind'.toList ∧ ¬ kind'.toList <+: kind.toList

instance (kind kind' : String) : Decidable (Apart kind kind') := by
  unfold Apart
  infer_instance

theorem startsWith_append_of_apart {kind kind' : String} (h : Apart kind kind') (token : String) :
    startsWith (kind ++ token) kind' = false := by
  rw [startsWith, Bool.eq_false_iff, ne_eq, List.isPrefixOf_iff_prefix, String.toList_append]
  intro hprefix
  rcases List.prefix_or_prefix_of_prefix hprefix (List.prefix_append kind.toList token.toList) with
    hp | hp
  · exact h.2 hp
  · exact h.1 hp

theorem startsWith_append (kind token : String) : startsWith (kind ++ token) kind = true := by
  rw [startsWith, List.isPrefixOf_iff_prefix, String.toList_append]
  exact List.prefix_append _ _

/-- A kind of signal is found in the table of the function or in that of a call. -/
theorem mem_kinds_iff {kind : String} :
    (∃ row ∈ pathSignalRows fnName phase callTokens, row.1 = kind) ↔
      (true, kind) ∈ functionSignals fnName phase callTokens ∨
        ∃ token ∈ cleanTokens callTokens, (true, kind) ∈ callSignals token := by
  simp [pathSignalRows, mem_chosen, or_and_right, exists_or]

def signalKinds : List String :=
  ["setup_function:", "teardown_function:", "property_function:", "state_accessor_property:",
    "state_write_function:", "control_function:", "read_function:", "update_callback_function:",
    "connect_function:", "subscription_function:"] ++
  ["control_call:", "state_write_call:", "read_call:", "state_accessor_call:", "refresh_call:",
    "connect_call:", "subscription_call:"]

theorem mem_signalKinds {row : String × String} (h : row ∈ pathSignalRows fnName phase callTokens) :
    row.1 ∈ signalKinds := by
  rw [signalKinds, List.mem_append]
  rcases mem_kinds_iff.1 ⟨row, h, rfl⟩ with h | ⟨token, -, h⟩
  · exact .inl (List.mem_map_of_mem (f := Prod.snd) h)
  · exact .inr (List.mem_map_of_mem (f := Prod.snd) h)

/-- What the signals begin with is the kind of a row. -/
theorem anyStartsWith_iff {kinds : List String}
    (hkinds : ∀ kind ∈ kinds, ∀ k ∈ signalKinds, k = kind ∨ Apart k kind) :
    anyStartsWith (inferPathSignals fnName phase callTokens) kinds = true ↔
      ∃ kind ∈ kinds, ∃ row ∈ pathSignalRows fnName phase callTokens, row.1 = kind := by
  simp only [anyStartsWith, inferPathSignals, List.any_map, List.any_eq_true, Function.comp]
  constructor
  · rintro ⟨row, hrow, kind, hkind, h⟩
    refine ⟨kind, hkind, row, hrow, ?_⟩
    rcases hkinds kind hkind row.1 (mem_signalKinds hrow) with heq | hapart
    · exact heq
    · rw [startsWith_append_of_apart hapart] at h
      cases h
  · rintro ⟨kind, hkind, row, hrow, rfl⟩
    exact ⟨row, hrow, row.1, hkind, startsWith_append _ _⟩

theorem control_signal_iff :
    anyStartsWith (inferPathSignals fnName phase callTokens)
        ["control_call:", "awaited_control_call:"] = true ↔
      ∃ token ∈ callTokens, tokenIsControlLike token = true := by
  have hfunction : ∀ kind ∈ ["control_call:", "awaited_control_call:"],
      (true, kind) ∉ functionSignals fnName phase callTokens := by
    simp only [functionSignals, List.mem_cons, Prod.mk.injEq, List.not_mem_nil]
    simp
  have hcall : ∀ token, (∃ kind ∈ ["control_call:", "awaited_control_call:"],
      (true, kind) ∈ callSignals token) ↔ tokenIsControlLike token = true := by
    simp only [callSignals, List.mem_cons, Prod.mk.injEq, List.not_mem_nil, Bool.true_eq]
    simp
  rw [anyStartsWith_iff (by decide +kernel)]
  constructor
  · rintro ⟨kind, hkind, hrow⟩
    obtain ⟨token, htoken, h⟩ := (mem_kinds_iff.1 hrow).resolve_left (hfunction kind hkind)
    obtain ⟨raw, hraw, rfl⟩ := List.mem_map.1 (List.mem_of_mem_filter htoken)
    exact ⟨raw, hraw, tokenIsControlLike_normalToken raw ▸ (hcall _).1 ⟨kind, hkind, h⟩⟩
  · rintro ⟨token, htoken, h⟩
    obtain ⟨kind, hkind, hrow⟩ := (hcall _).2 ((tokenIsControlLike_normalToken token).trans h)
    exact ⟨kind, hkind, mem_kinds_iff.2 (.inr ⟨_, mem_cleanTokens_of_control htoken h, hrow⟩)⟩

theorem stateWrite_signal_iff :
    anyStartsWith (inferPathSignals fnName phase callTokens)
        ["state_write_function:", "state_write_call:"] = true ↔
      tokenIsStateWriteLike (combinedSignalText fnName callTokens) = true := by
  have hfunction : (true, "state_write_function:") ∈ functionSignals fnName phase callTokens ↔
      "runtime_write" ∈ inferRuntimeRoles fnName phase callTokens ∧
        tokenIsStateWriteLike (combinedSignalText fnName callTokens) = true := by
    simp only [functionSignals, List.mem_cons, Prod.mk.injEq, Bool.true_eq]
    simp
  have hcall : ∀ token, (∃ kind ∈ ["state_write_function:", "state_write_call:"],
      (true, kind) ∈ callSignals token) ↔ tokenIsStateWriteLike token = true := by
    simp only [callSignals, List.mem_cons, Prod.mk.injEq, List.not_mem_nil, Bool.true_eq]
    simp
  have hother : (true, "state_write_call:") ∉ functionSignals fnName phase callTokens := by
    simp only [functionSignals, List.mem_cons, Prod.mk.injEq, List.not_mem_nil]
    simp
  rw [anyStartsWith_iff (by decide +kernel)]
  constructor
  · rintro ⟨kind, hkind, hrow⟩
    rcases mem_kinds_iff.1 hrow with h | ⟨token, htoken, h⟩
    · rcases List.mem_pair.1 hkind with rfl | rfl
      · exact (hfunction.1 h).2
      · exact absurd h hother
    · -- the words of a call are words of the joined text
      obtain ⟨hint, hmem, hhint⟩ := tokenIsStateWriteLike_iff.1 ((hcall token).1 ⟨kind, hkind, h⟩)
      obtain ⟨raw, -, rfl⟩ := List.mem_map.1 (List.mem_of_mem_filter htoken)
      exact tokenIsStateWriteLike_iff.2 ⟨hint, hmem, contains_signalText
        (plain_of_mem_stateWrite hint hmem) (.inr htoken) (contains_of_normalToken hhint)⟩
  · intro h
    exact ⟨_, List.mem_cons_self, mem_kinds_iff.2 (.inl (hfunction.2 ⟨mem_roles_write.2 (.inl h), h⟩))⟩

/-- A name of an update callback, or a word of a refresh anywhere. -/
def NamesUpdate (fnName : String) (callTokens : List String) : Prop :=
  namesAny refreshTokens (combinedSignalText fnName callTokens) = true ∨
    namesAny updateCallbackNameHints (normalToken fnName) = true

instance : Decidable (NamesUpdate fnName callTokens) := by
  unfold NamesUpdate
  infer_instance

/-- When the state is written, a name of an update is enough for a reader. -/
theorem mem_roles_read_of_update
    (hwrite : tokenIsStateWriteLike (combinedSignalText fnName callTokens) = true)
    (hupdate : NamesUpdate fnName callTokens) :
    "runtime_read" ∈ inferRuntimeRoles fnName phase callTokens := by
  have hcontrol : ∀ token, tokenIsStateWriteLike token = true → tokenIsControlLike token = false := by
    intro token h
    rw [Bool.eq_false_iff, ne_eq, tokenIsControlLike_iff, h]
    exact fun hfalse => Bool.noConfusion hfalse.1
  rw [mem_roles_read]
  rcases hupdate with h | h
  · refine .inr ?_
    obtain ⟨word, hword, h⟩ := List.any_eq_true.1 h
    have hplain : ∀ word ∈ refreshTokens, Plain word ∧ word ∈ readContextTokens := by decide +kernel
    have hvalue := contains_normalToken (hplain word hword).1 h
    have hne := ne_empty_of_contains (hplain word hword).1 hvalue
    simp only [tokenIsReadLike, tokenIsControlLike_normalToken, hcontrol _ hwrite,
      Bool.and_eq_true, List.any_eq_true, Bool.or_eq_true, decide_eq_true_eq]
    exact ⟨⟨hne, rfl⟩, word, (hplain word hword).2, .inl (.inl hvalue)⟩
  · exact .inl ⟨h, hcontrol _ hwrite⟩

theorem update_signal_iff
    (hwrite : tokenIsStateWriteLike (combinedSignalText fnName callTokens) = true) :
    anyStartsWith (inferPathSignals fnName phase callTokens) ["update_callback_function:"] = true ↔
      NamesUpdate fnName callTokens := by
  have hfunction : (true, "update_callback_function:") ∈ functionSignals fnName phase callTokens ↔
      "runtime_read" ∈ inferRuntimeRoles fnName phase callTokens ∧ NamesUpdate fnName callTokens := by
    simp only [functionSignals, List.mem_cons, Prod.mk.injEq, Bool.true_eq, NamesUpdate]
    simp
  have hcall : ∀ token, (true, "update_callback_function:") ∉ callSignals token := by
    simp only [callSignals, List.mem_cons, Prod.mk.injEq, List.not_mem_nil]
    simp
  rw [anyStartsWith_iff (by decide +kernel)]
  constructor
  · rintro ⟨kind, hkind, hrow⟩
    obtain rfl := List.mem_singleton.1 hkind
    rcases mem_kinds_iff.1 hrow with h | ⟨token, -, h⟩
    · exact (hfunction.1 h).2
    · exact absurd h (hcall token)
  · intro h
    exact ⟨_, List.mem_cons_self, mem_kinds_iff.2
      (.inl (hfunction.2 ⟨mem_roles_read_of_update hwrite h, h⟩))⟩

/-! ## Forbidden roles -/

theorem meets_iff {s t : List String} : meets s t = true ↔ ∃ a ∈ s, a ∈ t := by
  simp [meets, List.any_eq_true]

theorem mem_discard {s elements : List String} {condition : Bool} {a : String} :
    a ∈ discard s condition elements ↔ a ∈ s ∧ (condition = true → a ∉ elements) := by
  cases condition <;> simp [discard]

theorem updateSnapshotRuntimeReadFallback_iff {rule : CompiledGroundingRule} :
    updateSnapshotRuntimeReadFallback rule (inferPathSignals fnName phase callTokens) = true ↔
      "runtime_read" ∈ rule.requiredRuntimeRoles ∧ ¬ ((∃ token ∈ callTokens,
        tokenIsControlLike token = true) ∨
          tokenIsStateWriteLike (combinedSignalText fnName callTokens) = false ∨
            ¬ NamesUpdate fnName callTokens) := by
  rw [updateSnapshotRuntimeReadFallback, Bool.and_eq_true, Bool.and_eq_true, Bool.and_eq_true,
    Bool.not_eq_true', ← Bool.not_eq_true, control_signal_iff, stateWrite_signal_iff,
    List.contains_iff_mem, not_or, not_or, not_not, Bool.not_eq_false]
  constructor
  · rintro ⟨⟨⟨hread, hupdate⟩, hwrite⟩, hcontrol⟩
    exact ⟨hread, hcontrol, hwrite, (update_signal_iff hwrite).1 hupdate⟩
  · rintro ⟨hread, hcontrol, hwrite, hupdate⟩
    exact ⟨⟨⟨hread, (update_signal_iff hwrite).2 hupdate⟩, hwrite⟩, hcontrol⟩

/-- A writer stays a writer unless it passes for a reader of a snapshot. -/
theorem mem_effectiveRoles_write {rule : CompiledGroundingRule} {flags roles signals : List String} :
    "runtime_write" ∈ effectiveRoles rule flags roles signals ↔
      "runtime_write" ∈ roles ∧ updateSnapshotRuntimeReadFallback rule signals = false := by
  have hkept (semantic snapshot accessor : Bool) :
      "runtime_write" ∈ discard (discard (discard roles semantic ["setup", "helper"]) snapshot
        ["runtime_write", "helper"]) accessor ["property_getter", "helper"] ↔
      "runtime_write" ∈ roles ∧ snapshot = false := by
    simp [mem_discard]
  rw [effectiveRoles]
  split_ifs
  · rw [List.mem_append, hkept]
    simp
  · exact hkept _ _ _

theorem mem_effectiveRoles_read {rule : CompiledGroundingRule} {flags roles signals : List String}
    (h : "runtime_read" ∈ roles) : "runtime_read" ∈ effectiveRoles rule flags roles signals := by
  have hkept (semantic snapshot accessor : Bool) :
      "runtime_read" ∈ discard (discard (discard roles semantic ["setup", "helper"]) snapshot
        ["runtime_write", "helper"]) accessor ["property_getter", "helper"] := by
    simp [mem_discard, h]
  rw [effectiveRoles]
  split_ifs
  · exact List.mem_append_left _ (hkept _ _ _)
  · exact hkept _ _ _

theorem ruleContextMatches_of_mem {rule : CompiledGroundingRule} {role : String}
    (hrole : role ∈ rule.forbiddenRuntimeRoles)
    (heffective : role ∈ effectiveRoles rule (contextFlags fnName phase callTokens)
      (inferRuntimeRoles fnName phase callTokens) (inferPathSignals fnName phase callTokens)) :
    ruleContextMatches rule fnName phase callTokens = false := by
  have hmeets := meets_iff.2 ⟨role, hrole, heffective⟩
  simp only [ruleContextMatches, hmeets, Bool.not_true, Bool.and_false, Bool.false_and]

/-- The rule that asks for readers, forbids writers and nothing else. -/
def readersOnly : CompiledGroundingRule where
  requiredRuntimeRoles := ["runtime_read"]
  forbiddenRuntimeRoles := ["runtime_write"]

/-- What keeps a function with a control command from passing for a reader. -/
def ShowsControl (fnName : String) (callTokens : List String) : Prop :=
  (∃ token ∈ callTokens, tokenIsControlLike token = true) ∨
    tokenIsStateWriteLike (combinedSignalText fnName callTokens) = false ∨
      ¬ NamesUpdate fnName callTokens

instance : Decidable (ShowsControl fnName callTokens) := by
  unfold ShowsControl
  infer_instance

theorem ruleContextMatches_readersOnly (h : ¬ ShowsControl fnName callTokens) :
    ruleContextMatches readersOnly fnName phase callTokens = true := by
  have hfallback : updateSnapshotRuntimeReadFallback readersOnly
      (inferPathSignals fnName phase callTokens) = true :=
    updateSnapshotRuntimeReadFallback_iff.2 ⟨List.mem_singleton.2 rfl, h⟩
  simp only [ShowsControl, not_or, not_not, Bool.not_eq_false] at h
  have hread : "runtime_read" ∈ effectiveRoles readersOnly (contextFlags fnName phase callTokens)
      (inferRuntimeRoles fnName phase callTokens) (inferPathSignals fnName phase callTokens) :=
    mem_effectiveRoles_read (mem_roles_read_of_update h.2.1 h.2.2)
  have hwrite : "runtime_write" ∉ effectiveRoles readersOnly
      (contextFlags fnName phase callTokens) (inferRuntimeRoles fnName phase callTokens)
      (inferPathSignals fnName phase callTokens) := fun hmem =>
    Bool.false_ne_true ((mem_effectiveRoles_write.1 hmem).2.symm.trans hfallback)
  simp only [ruleContextMatches, requiredServiceTokensMatch, requiredPathSignalsMatch,
    requiredContextMatches]
  simp only [readersOnly] at hread hwrite ⊢
  simp [meets, discard, hread, hwrite]

/-- A function that issues a control command is kept from all rules that forbid writers exactly when
the command is one of its calls, or no state write or no update is named beside it. -/
theorem ruleContextMatches_false_iff (fnName phase : String) (callTokens : List String)
    (hcontrol : tokenIsControlLike fnName = true ∨
      ∃ token ∈ callTokens, tokenIsControlLike token = true) :
    (∀ rule : CompiledGroundingRule, "runtime_write" ∈ rule.forbiddenRuntimeRoles →
        ruleContextMatches rule fnName phase callTokens = false) ↔
      ShowsControl fnName callTokens := by
  constructor
  · intro hall
    by_contra hshown
    have hfalse := hall readersOnly (List.mem_singleton.2 rfl)
    exact Bool.false_ne_true (hfalse.symm.trans (ruleContextMatches_readersOnly hshown))
  · intro hshown rule hforbidden
    refine ruleContextMatches_of_mem hforbidden
      (mem_effectiveRoles_write.2 ⟨mem_roles_of_control hcontrol, ?_⟩)
    rw [Bool.eq_false_iff, ne_eq, updateSnapshotRuntimeReadFallback_iff]
    exact fun hfallback => hfallback.2 hshown

theorem ruleContextMatches_false_send :
    ruleContextMatches readersOnly "handle_update" "RUNTIME"
      ["client.send", "self.async_write_ha_state"] = false :=
  (ruleContextMatches_false_iff "handle_update" "RUNTIME" ["client.send", "self.async_write_ha_state"]
    (by decide +kernel)).2 (by decide +kernel) readersOnly (List.mem_singleton.2 rfl)

/-- The name alone tells that this function turns something on; it refreshes and writes the state
as well, and passes for a reader. -/
theorem ruleContextMatches_turn_on : ¬ ∀ (rule : CompiledGroundingRule) (fnName phase : String)
    (callTokens : List String), "runtime_write" ∈ rule.forbiddenRuntimeRoles →
      (tokenIsControlLike fnName = true ∨ ∃ token ∈ callTokens, tokenIsControlLike token = true) →
      ruleContextMatches rule fnName phase callTokens = false := by
  intro h
  have hfalse := h readersOnly "async_turn_on" "RUNTIME"
    ["coordinator.async_refresh", "self.async_write_ha_state"] (by decide) (by decide +kernel)
  exact Bool.false_ne_true
    (hfalse.symm.trans (ruleContextMatches_readersOnly (by decide +kernel)))

end FloWeaver.Markers
