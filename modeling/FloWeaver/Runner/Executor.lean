import FloWeaver.Runner.RateController

/-!
# The action executor of the generated runner

The executor emits `<op>_BEGIN`, reads the configuration of the action, does what it says and
emits `<op>_END`, or `EXCEPTION` when that raises.  The data of a service call may hold templates
`{{token}}`, with a default as `{{token|default=literal}}`, which are filled in from the data of
the run.

* `resolveValue`, `resolveTemplate` — a value with its templates filled in.
* `Body`, `bodyOf` — what the configuration of an action decides about its outcome.
* `opForAction` — how its events are named.
* `resolveValue_eq` — filling in is a check of all templates in front of a substitution.
* `resolveTemplate_spec` — when it succeeds, and what it reports otherwise.
-/

namespace FloWeaver.Runner

open Py

/-! ## Templates -/

/-- `_parse_default_literal`. -/
def parseDefaultLiteral (rawDefault : String) : Val :=
  let token := strip rawDefault
  if lower token = "true" then .bool true
  else if lower token = "false" then .bool false
  else if lower token = "null" then .none
  else if contains token "." then (readFloat token).elim (.str token) (.float · token)
  else (readInt token).elim (.str token) .int

/-- A token and what it stands for without data; `none` is no default. -/
def parseTemplateToken (tokenExpr : String) : String × Val :=
  let token := strip tokenExpr
  if contains token "|default=" then
    (strip (beforeFirst token "|default="), parseDefaultLiteral (afterFirst token "|default="))
  else (token, .none)

/-- Is a text a template as a whole? -/
def isTemplate (text : String) : Bool := startsWith text "\x7b\x7b" && endsWith text "\x7d\x7d"

/-- The token of a template and its default. -/
def templateToken (text : String) : String × Val :=
  parseTemplateToken (strip (String.ofList ((text.toList.drop 2).dropLast.dropLast)))

/-- What a template stands for; without a value its token is missing. -/
def fillTemplate (serviceData : Dict) (text : String) : Except String Val :=
  let (token, default) := templateToken text
  match serviceData.get? token, default with
  | some value, _ => .ok value
  | none, .none => .error token
  | none, default => .ok default

mutual

/-- `_resolve_value`; an error is the token that is missing. -/
def resolveValue (serviceData : Dict) : Val → Except String Val
  | .dict rows => (resolveRows serviceData rows).map .dict
  | .list items => (resolveItems serviceData items).map .list
  | .str text => if isTemplate text then fillTemplate serviceData text else .ok (.str text)
  | value => .ok value

def resolveItems (serviceData : Dict) : List Val → Except String (List Val)
  | [] => .ok []
  | item :: items => do
      let value ← resolveValue serviceData item
      let values ← resolveItems serviceData items
      return value :: values

def resolveRow (serviceData : Dict) : String × Val → Except String (String × Val)
  | (key, item) => do
      let value ← resolveValue serviceData item
      return (key, value)

def resolveRows (serviceData : Dict) : List (String × Val) → Except String (List (String × Val))
  | [] => .ok []
  | row :: rows => do
      let row ← resolveRow serviceData row
      let rows ← resolveRows serviceData rows
      return row :: rows

end

/-- `_resolve_template`. -/
def resolveTemplate (dataTemplate serviceData : Dict) : Except String Dict :=
  resolveRows serviceData dataTemplate

/-! ### What the templates of a value are -/

mutual

/-- The templates in a value, in the order in which they are filled in. -/
def templates : Val → List String
  | .dict rows => rowsTemplates rows
  | .list items => itemsTemplates items
  | .str text => if isTemplate text then [text] else []
  | _ => []

def itemsTemplates : List Val → List String
  | [] => []
  | item :: items => templates item ++ itemsTemplates items

def rowTemplates : String × Val → List String
  | (_, item) => templates item

def rowsTemplates : List (String × Val) → List String
  | [] => []
  | row :: rows => rowTemplates row ++ rowsTemplates rows

end

mutual

/-- A value with other values in the places of its templates. -/
def substitute (valueOf : String → Val) : Val → Val
  | .dict rows => .dict (substituteRows valueOf rows)
  | .list items => .list (substituteItems valueOf items)
  | .str text => if isTemplate text then valueOf text else .str text
  | value => value

def substituteItems (valueOf : String → Val) : List Val → List Val
  | [] => []
  | item :: items => substitute valueOf item :: substituteItems valueOf items

def substituteRow (valueOf : String → Val) : String × Val → String × Val
  | (key, item) => (key, substitute valueOf item)

def substituteRows (valueOf : String → Val) : List (String × Val) → List (String × Val)
  | [] => []
  | row :: rows => substituteRow valueOf row :: substituteRows valueOf rows

end

section Resolution

variable (serviceData : Dict)

/-- The value of a template that has one. -/
def templateValue (text : String) : Val := (fillTemplate serviceData text).toOption.getD .none

/-- The token of a template that has no value. -/
def missingToken (text : String) : Option String :=
  match fillTemplate serviceData text with
  | .error token => some token
  | .ok _ => none

/-- Fails with the first template that has no value. -/
def checkTemplates (texts : List String) : Except String Unit :=
  (texts.findSome? (missingToken serviceData)).elim (.ok ()) .error

theorem checkTemplates_append (l m : List String) :
    checkTemplates serviceData (l ++ m) =
      (checkTemplates serviceData l >>= fun _ => checkTemplates serviceData m) := by
  rw [checkTemplates, checkTemplates, List.findSome?_append]
  cases l.findSome? (missingToken serviceData) <;> rfl

theorem checkTemplates_singleton (text : String) : checkTemplates serviceData [text] =
    (fillTemplate serviceData text).map fun _ => () := by
  rw [checkTemplates, List.findSome?_singleton]
  unfold missingToken
  cases fillTemplate serviceData text <;> rfl

mutual

/-- Filling in is a check of all templates in front of a substitution. -/
theorem resolveValue_eq : ∀ value, resolveValue serviceData value =
    (checkTemplates serviceData (templates value)).map
      fun _ => substitute (templateValue serviceData) value
  | .dict rows => by
      rw [resolveValue, resolveRows_eq rows, templates]
      cases checkTemplates serviceData (rowsTemplates rows) <;> simp [Except.map, substitute]
  | .list items => by
      rw [resolveValue, resolveItems_eq items, templates]
      cases checkTemplates serviceData (itemsTemplates items) <;> simp [Except.map, substitute]
  | .str text => by
      rw [resolveValue, templates, substitute]
      split_ifs with h
      · rw [checkTemplates_singleton, templateValue]
        cases fillTemplate serviceData text <;> rfl
      · rfl
  | .none => rfl
  | .bool _ => rfl
  | .int _ => rfl
  | .float _ _ => rfl

theorem resolveItems_eq : ∀ items, resolveItems serviceData items =
    (checkTemplates serviceData (itemsTemplates items)).map
      fun _ => substituteItems (templateValue serviceData) items
  | [] => rfl
  | item :: items => by
      rw [resolveItems, resolveValue_eq item, resolveItems_eq items, itemsTemplates,
        checkTemplates_append, substituteItems]
      cases checkTemplates serviceData (templates item) <;>
        cases checkTemplates serviceData (itemsTemplates items) <;> rfl

theorem resolveRow_eq : ∀ row, resolveRow serviceData row =
    (checkTemplates serviceData (rowTemplates row)).map
      fun _ => substituteRow (templateValue serviceData) row
  | (key, item) => by
      rw [resolveRow, resolveValue_eq item, rowTemplates, substituteRow]
      cases checkTemplates serviceData (templates item) <;> rfl

theorem resolveRows_eq : ∀ rows, resolveRows serviceData rows =
    (checkTemplates serviceData (rowsTemplates rows)).map
      fun _ => substituteRows (templateValue serviceData) rows
  | [] => rfl
  | row :: rows => by
      rw [resolveRows, resolveRow_eq row, resolveRows_eq rows, rowsTemplates,
        checkTemplates_append, substituteRows]
      cases checkTemplates serviceData (rowTemplates row) <;>
        cases checkTemplates serviceData (rowsTemplates rows) <;> rfl

end

theorem missingToken_eq_some {text token : String} :
    missingToken serviceData text = some token ↔ fillTemplate serviceData text = .error token := by
  unfold missingToken
  cases fillTemplate serviceData text <;> simp

theorem missingToken_eq_none {text : String} : missingToken serviceData text = none ↔
    ∃ value, fillTemplate serviceData text = .ok value := by
  unfold missingToken
  cases fillTemplate serviceData text <;> simp

end Resolution

/-- A data template is filled in if and only if each of its templates has a value; the error is
the token of the first one without. -/
theorem resolveTemplate_spec (dataTemplate serviceData : Dict) :
    (∀ payload, resolveTemplate dataTemplate serviceData = .ok payload ↔
      (∀ text ∈ rowsTemplates dataTemplate, ∃ value, fillTemplate serviceData text = .ok value) ∧
        payload = substituteRows (templateValue serviceData) dataTemplate) ∧
    ∀ token, resolveTemplate dataTemplate serviceData = .error token ↔ ∃ filled text rest,
      rowsTemplates dataTemplate = filled ++ text :: rest ∧
        fillTemplate serviceData text = .error token ∧
          ∀ t ∈ filled, ∃ value, fillTemplate serviceData t = .ok value := by
  simp only [resolveTemplate, resolveRows_eq, ← missingToken_eq_none, ← missingToken_eq_some,
    checkTemplates]
  refine ⟨fun payload => ?_, fun token => ?_⟩
  · rw [← List.findSome?_eq_none_iff]
    cases (rowsTemplates dataTemplate).findSome? (missingToken serviceData) <;>
      simp [Except.map, eq_comm]
  · rw [← List.findSome?_eq_some_iff]
    cases (rowsTemplates dataTemplate).findSome? (missingToken serviceData) <;> simp [Except.map]

/-! ## Actions -/

/-- The first of the marker hints; a mapping has no entry under a number. -/
def firstHint : Val → Except PyErr String
  | .list (hint :: _) => .ok hint.pyStr
  | .list [] => .error .indexError
  | .str hints => .ok (String.ofList (hints.toList.take 1))
  | .dict _ => .error .keyError
  | _ => .error .typeError

def opForAction (action : Dict) : Except PyErr String :=
  let hints := action.getD "marker_hints" (.list [])
  if hints.truthy then firstHint hints
  else do
    let cfg ← (action.getD "exec" (.dict [])).needDict
    return upper (cfg.getD "kind" (.str "action")).pyStr

/-- What the configuration of an action decides about its outcome. -/
inductive Body where
  /-- The configuration is no mapping; nothing reports it. -/
  | unreadable
  /-- A template without a value. -/
  | missing (token : String)
  /-- It raises this text. -/
  | rejected (error : String)
  /-- A number in it cannot be read. -/
  | invalid
  /-- What happens outside decides. -/
  | depends
deriving DecidableEq

/-- Can every number that a configuration names be read? -/
def readableNumbers (numbers : List (Except PyErr Unit)) : Body :=
  if numbers.all (·.isOk) then .depends else .invalid

def bodyOf (serviceData : Dict) (action : Dict) : Body :=
  match action.getD "exec" (.dict []) with
  | .dict cfg =>
      let kind := strip (Dict.getD cfg "kind" (.str "")).pyStr
      let float (key : String) (default : ℚ) :=
        (Dict.getD cfg key (.float default "")).toFloat.map fun _ => ()
      if kind = "ha_service_call" then
        match resolveTemplate (Dict.get cfg "data_template").asDict serviceData with
        | .error token => .missing token
        | .ok _ => .depends
      else if kind = "ha_state_read" then .depends
      else if kind = "wait_state" then readableNumbers [float "timeout_s" 10]
      else if kind = "sleep" then readableNumbers [float "seconds" (1 / 10)]
      else if kind = "retry_backoff" then
        readableNumbers [float "base_ms" 200, float "factor" 2,
          (Dict.getD cfg "attempts" (.int 3)).toInt.map fun _ => ()]
      else
        .rejected ("Unsupported exec.kind '" ++ kind ++ "' for action '" ++
          (action.getD "action_id" (.str "unknown")).pyStr ++ "'")
  | _ => .unreadable

/-- `str(TemplateResolutionError(token))`. -/
def missingTokenText (token : String) : String :=
  "Missing required template token '" ++ token ++ "'"

def isRateLimitError (error : String) : Bool :=
  ["429", "too many requests", "rate limit", "ratelimit"].any (contains (lower error) ·)

end FloWeaver.Runner
