import FloWeaver.Lib.Findall
import FloWeaver.Mssu.Records
import FloWeaver.Py.Val

/-!
# The anchors of a target

A target names entities, endpoints, devices and characteristics, and the statements whose text names
one of them are kept.  The text is searched with the hyphens written as colons, which suits the
addresses of devices only: they are compared in that spelling, the other anchors as they are.
Letters are those of ASCII, in the patterns too.

* `entityIdRe`, `endpointRe`, `macRe`, `uuidRe` — how much of a text the patterns match.
* `anchorTerms`, `anchorKeepNodes` — the code.
* `NamesAnchor` — the text of a statement has an anchor as a token.
* `anchorMatches_of_names` — an entity or a device that is named is found.
* `uuidTokens_nodeText` — no characteristic is found.
-/

namespace FloWeaver.Reduction

open Py Findall

/-! ## Patterns -/

/-- `[a-z0-9_]`, in any letter case. -/
def isWordChar (c : Char) : Bool :=
  let c := c.toLower
  ('a' ≤ c && c ≤ 'z') || isDigit c || c = '_'

/-- `[a-z0-9_.-]`, in any letter case. -/
def isEndpointChar (c : Char) : Bool := isWordChar c || c = '.' || c = '-'

/-- `[0-9a-f]`, in any letter case. -/
def isHexChar (c : Char) : Bool :=
  let c := c.toLower
  isDigit c || ('a' ≤ c && c ≤ 'f')

def entityIdRe : List Char → ℕ := runs isWordChar '.' isWordChar

def endpointRe : List Char → ℕ := runs isWordChar ':' isEndpointChar

/-- `[:-]`. -/
def isMacSeparator (c : Char) : Bool := c = ':' || c = '-'

def macShape : List (Char → Bool) :=
  (List.replicate 5 [isHexChar, isHexChar, isMacSeparator]).flatten ++ [isHexChar, isHexChar]

def macRe : List Char → ℕ := shape macShape

def isHyphen (c : Char) : Bool := c = '-'

def uuidShape : List (Char → Bool) :=
  List.replicate 8 isHexChar ++ isHyphen :: (List.replicate 4 isHexChar ++ isHyphen ::
    (List.replicate 4 isHexChar ++ isHyphen :: (List.replicate 4 isHexChar ++ isHyphen ::
      List.replicate 12 isHexChar)))

def uuidRe : List Char → ℕ := shape uuidShape

def fullmatch (re : List Char → ℕ) (token : String) : Bool :=
  token ≠ "" && re token.toList = token.toList.length

/-- `re.findall(text)`. -/
def tokens (re : List Char → ℕ) (text : String) : List String :=
  (findall re 0 text.toList).map String.ofList

/-! ## Anchors -/

structure AnchorTerms where
  entities : List String := []
  endpoints : List String := []
  endpointPrefixes : List String := []
  macs : List String := []
  uuids : List String := []
deriving DecidableEq

/-- The anchors of a kind, trimmed and in lower case. -/
def anchorValues (anchors : Dict) (kind : String) : Except PyErr (List String) := do
  let values ← (anchors.getD kind (.list [])).needItems
  return values.map fun value => lower (strip value.pyStr)

/-- Hyphens written as colons. -/
def colons (s : String) : String := replaceChar s '-' ':'

/-- An endpoint with a path. -/
def isUrl (token : String) : Bool :=
  startsWith token "http://" || startsWith token "https://" || contains token "/"

def anchorTerms : Option OptimizationTarget → Except PyErr AnchorTerms
  | none => return {}
  | some target => do
      let entities ← anchorValues target.targetAnchors "entities"
      let endpoints ← anchorValues target.targetAnchors "endpoints"
      let devices ← anchorValues target.targetAnchors "device_ids"
      let characteristics ← anchorValues target.targetAnchors "characteristics"
      let named := endpoints.filter (· ≠ "")
      return { entities := entities.filter (fullmatch entityIdRe)
               endpoints := named.filter fun token => !isUrl token
               endpointPrefixes := named.filter isUrl
               macs := (devices.map colons).filter (fullmatch macRe)
               uuids := characteristics.filter (fullmatch uuidRe) }

namespace AnchorTerms

variable (terms : AnchorTerms)

def isEmpty : Bool :=
  terms.entities.isEmpty && terms.endpoints.isEmpty && terms.endpointPrefixes.isEmpty &&
    terms.macs.isEmpty && terms.uuids.isEmpty

def namesEntity (text : String) : Bool :=
  (tokens entityIdRe text).any fun token => terms.entities.contains (lower token)

def namesEndpoint (text : String) : Bool :=
  (tokens endpointRe text).any fun token => terms.endpoints.contains (lower token)

def namesMac (text : String) : Bool :=
  (tokens macRe text).any fun token => terms.macs.contains (colons (lower token))

def namesUuid (text : String) : Bool :=
  (tokens uuidRe text).any fun token => terms.uuids.contains (lower token)

def namesPrefix (text : String) : Bool := terms.endpointPrefixes.any (contains text ·)

/-- The test of a statement; the endpoints with a path are looked for last. -/
def found (text : String) : Bool :=
  terms.namesEntity text || terms.namesEndpoint text || terms.namesMac text ||
    terms.namesUuid text || terms.namesPrefix text

end AnchorTerms

/-- The text that is searched. -/
def nodeText (node : GraphNode) : String :=
  colons (lower (node.functionName ++ " " ++ node.rawRepr))

def anchorKeepNodes (graph : ReducedGraph) (target : Option OptimizationTarget) :
    Except PyErr (List String) := do
  let terms ← anchorTerms target
  if terms.isEmpty then return []
  return (graph.nodes.values.filter fun node => terms.found (nodeText node)).map GraphNode.nodeId

/-! ## Letters -/

/-- A letter as it is searched. -/
def searched (c : Char) : Char := if c.toLower = '-' then ':' else c.toLower

theorem toList_colons (s : String) :
    (colons s).toList = s.toList.map fun c => if c = '-' then ':' else c :=
  String.toList_ofList

theorem toList_lower (s : String) : (lower s).toList = s.toList.map Char.toLower :=
  String.toList_ofList

theorem toList_nodeText (node : GraphNode) :
    (nodeText node).toList =
      (node.functionName.toList.map searched) ++ ' ' :: node.rawRepr.toList.map searched := by
  rw [nodeText, toList_colons, toList_lower]
  simp only [String.toList_append, List.map_append, List.map_map, List.append_assoc]
  rfl

theorem searched_of_ne {c : Char} (h : c.toLower ≠ '-') : searched c = c.toLower := if_neg h

/-- What does not depend on the letter case and does not tell hyphens from colons. -/
theorem apply_searched {p : Char → Bool} (hcase : ∀ c, p c.toLower = p c) (hdash : p ':' = p '-')
    (c : Char) : p (searched c) = p c := by
  by_cases h : c.toLower = '-'
  · rw [searched, if_pos h, hdash, ← h, hcase]
  · rw [searched_of_ne h, hcase]

theorem isWordChar_searched (c : Char) : isWordChar (searched c) = isWordChar c :=
  apply_searched (fun c => by rw [isWordChar, isWordChar, toLower_toLower]) rfl c

theorem isHexChar_searched (c : Char) : isHexChar (searched c) = isHexChar c :=
  apply_searched (fun c => by rw [isHexChar, isHexChar, toLower_toLower]) rfl c

theorem searched_eq_dot_iff (c : Char) : searched c = '.' ↔ c = '.' := by
  by_cases h : c.toLower = '-'
  · rw [searched, if_pos h]
    rw [toLower_eq_iff (by decide)] at h
    simp [h]
  · rw [searched_of_ne h, toLower_eq_iff (by decide)]

/-! ## What is found -/

/-- The text of a statement has an anchor as a token. -/
def NamesAnchor (terms : AnchorTerms) (text : String) : Prop :=
  terms.namesEntity text = true ∨ terms.namesMac text = true ∨ terms.namesUuid text = true ∨
    ∃ token ∈ tokens endpointRe text,
      lower token ∈ terms.endpoints ∨ lower token ∈ terms.endpointPrefixes

section Found

variable {terms : AnchorTerms} {node : GraphNode}

/-- Where a pattern tells neither letter cases nor hyphens, what it matches in the text of a
statement it matches in what is searched. -/
theorem mem_tokens_nodeText {re : List Char → ℕ} (hmap : ∀ cs, re (cs.map searched) = re cs)
    (hspace : ∀ a b, re (a ++ ' ' :: b) = re a) (hlength : ∀ cs, re cs ≤ cs.length)
    {token : List Char} (h : token ∈ findall re 0 node.rawRepr.toList) :
    String.ofList (token.map searched) ∈ tokens re (nodeText node) := by
  refine List.mem_map_of_mem ?_
  rw [toList_nodeText, findall_append hspace hlength _ _ 0 (Nat.zero_le _), findall_map hmap,
    findall_map hmap]
  exact List.mem_append_right _ (List.mem_map_of_mem h)

/-- A named entity is found. -/
theorem namesEntity_nodeText (h : terms.namesEntity node.rawRepr = true) :
    terms.namesEntity (nodeText node) = true := by
  obtain ⟨_, hmem, hterm⟩ := List.any_eq_true.1 h
  obtain ⟨token, htoken, rfl⟩ := List.mem_map.1 hmem
  have hmap := @mem_tokens_nodeText node entityIdRe
    (runs_map isWordChar_searched isWordChar_searched searched_eq_dot_iff)
    (runs_append rfl rfl (by decide)) (runs_le_length _ _ _) _ htoken
  refine List.any_eq_true.2 ⟨_, hmap, ?_⟩
  have hword : ∀ c, isWordChar c = true → c.toLower ≠ '-' := by
    intro c hc hdash
    rw [isWordChar, hdash] at hc
    exact absurd hc (by decide)
  have hmatch : ∀ cs : List Char, ∀ c ∈ cs.take (entityIdRe cs), c.toLower ≠ '-' :=
    forall_mem_take_runs (P := fun c : Char => c.toLower ≠ '-') hword (by decide) hword
  have hletters := forall_mem_findall (P := fun token => ∀ c ∈ token, c.toLower ≠ '-')
    (fun cs _ => hmatch cs) _ 0 token htoken
  have hsame : lower (String.ofList (token.map searched)) = lower (String.ofList token) := by
    refine String.toList_injective ?_
    rw [toList_lower, toList_lower, String.toList_ofList, String.toList_ofList, List.map_map]
    refine List.map_congr_left fun c hc => ?_
    rw [Function.comp_apply, searched_of_ne (hletters c hc), toLower_toLower]
  rwa [hsame]

theorem mem_macShape {p : Char → Bool} (h : p ∈ macShape) :
    p = isHexChar ∨ p = isMacSeparator := by
  simp only [macShape, List.mem_append, List.mem_flatten, List.mem_replicate, List.mem_cons,
    List.not_mem_nil, or_false, or_self] at h
  rcases h with ⟨_, ⟨-, rfl⟩, h⟩ | h
  · simpa using h
  · exact .inl h

theorem isMacSeparator_searched (c : Char) : isMacSeparator (searched c) = isMacSeparator c := by
  refine apply_searched (fun c => ?_) rfl c
  simp only [isMacSeparator, toLower_eq_iff (by decide : ':'.val < 'A'.val),
    toLower_eq_iff (by decide : '-'.val < 'A'.val)]

/-- So is a named device, however its address is written. -/
theorem namesMac_nodeText (h : terms.namesMac node.rawRepr = true) :
    terms.namesMac (nodeText node) = true := by
  obtain ⟨_, hmem, hterm⟩ := List.any_eq_true.1 h
  obtain ⟨token, htoken, rfl⟩ := List.mem_map.1 hmem
  have hshape : ∀ p ∈ macShape, ∀ c, p (searched c) = p c := by
    intro p hp c
    rcases mem_macShape hp with rfl | rfl
    · exact isHexChar_searched c
    · exact isMacSeparator_searched c
  have hspace : ∀ p ∈ macShape, p ' ' = false := by
    intro p hp
    rcases mem_macShape hp with rfl | rfl <;> rfl
  have hmap := @mem_tokens_nodeText node macRe (shape_map hshape) (shape_append hspace)
    (shape_le_length _) _ htoken
  refine List.any_eq_true.2 ⟨_, hmap, ?_⟩
  have hsame : colons (lower (String.ofList (token.map searched))) =
      colons (lower (String.ofList token)) := by
    refine String.toList_injective ?_
    simp only [toList_colons, toList_lower, String.toList_ofList, List.map_map]
    refine List.map_congr_left fun c _ => ?_
    by_cases hdash : c.toLower = '-'
    · simp [searched, hdash]
    · simp only [Function.comp_apply, searched_of_ne hdash, toLower_toLower]
  rwa [hsame]

/-- No characteristic is found: there is no hyphen in what is searched. -/
theorem namesUuid_nodeText : terms.namesUuid (nodeText node) = false := by
  refine List.any_eq_false.2 fun _ hmem => ?_
  obtain ⟨token, htoken, rfl⟩ := List.mem_map.1 hmem
  have hdash : '-' ∈ token := by
    refine forall_mem_findall (P := fun token => '-' ∈ token) (fun cs h => ?_) _ 0 token htoken
    have hshape : isHyphen ∈ uuidShape := List.mem_append_right _ List.mem_cons_self
    exact mem_take_of_shape hshape (fun c hc => of_decide_eq_true hc) h
  have hsearched := subset_of_mem_findall _ 0 token htoken hdash
  rw [nodeText, toList_colons] at hsearched
  obtain ⟨c, -, hc⟩ := List.mem_map.1 hsearched
  split_ifs at hc with h
  · exact absurd hc (by decide)
  · exact absurd hc h

/-- Where no anchor is given, none is found. -/
theorem found_of_isEmpty (h : terms.isEmpty = true) (text : String) : terms.found text = false := by
  simp only [AnchorTerms.isEmpty, Bool.and_eq_true, List.isEmpty_iff] at h
  obtain ⟨⟨⟨⟨hentities, hendpoints⟩, hprefixes⟩, hmacs⟩, huuids⟩ := h
  simp [AnchorTerms.found, AnchorTerms.namesEntity, AnchorTerms.namesEndpoint,
    AnchorTerms.namesMac, AnchorTerms.namesUuid, AnchorTerms.namesPrefix, hentities, hendpoints,
    hprefixes, hmacs, huuids]

/-- The statements that are kept for the anchors. -/
theorem anchorKeepNodes_eq_ok {graph : ReducedGraph} {target : Option OptimizationTarget}
    (h : anchorTerms target = .ok terms) : ∃ ids, anchorKeepNodes graph target = .ok ids ∧
      ∀ node ∈ graph.nodes.values, node.nodeId ∈ ids ↔ terms.found (nodeText node) = true := by
  by_cases hempty : terms.isEmpty = true
  · refine ⟨[], bind_eq_ok.2 ⟨terms, h, by rw [if_pos hempty]; rfl⟩, fun node _ => ?_⟩
    rw [found_of_isEmpty hempty]
    simp
  · refine ⟨_, bind_eq_ok.2 ⟨terms, h, by rw [if_neg hempty]; rfl⟩, fun node hnode => ?_⟩
    rw [List.mem_map]
    constructor
    · rintro ⟨other, hother, hid⟩
      obtain ⟨hother, hfound⟩ := List.mem_filter.1 hother
      obtain rfl := ReducedGraph.eq_of_nodeId hother hnode hid
      exact hfound
    · exact fun hfound => ⟨node, List.mem_filter.2 ⟨hnode, hfound⟩, rfl⟩

/-- **No anchor is lost to the hyphens**: a statement that names an endpoint or a characteristic
names, with the hyphens written as colons, an entity, an endpoint or a device. -/
def AnchorsFound (terms : AnchorTerms) (graph : ReducedGraph) : Prop :=
  ∀ node ∈ graph.nodes.values, (terms.namesUuid node.rawRepr = true ∨
      ∃ token ∈ tokens endpointRe node.rawRepr,
        lower token ∈ terms.endpoints ∨ lower token ∈ terms.endpointPrefixes) →
    terms.namesEntity (nodeText node) = true ∨ terms.namesEndpoint (nodeText node) = true ∨
      terms.namesMac (nodeText node) = true ∨ terms.namesPrefix (nodeText node) = true

/-- When every statement that names an anchor is found. -/
theorem anchorsFound_iff {graph : ReducedGraph} : AnchorsFound terms graph ↔
    ∀ node ∈ graph.nodes.values, NamesAnchor terms node.rawRepr →
      terms.found (nodeText node) = true := by
  have hfound (text : String) (huuid : terms.namesUuid text = false) : terms.found text = true ↔
      terms.namesEntity text = true ∨ terms.namesEndpoint text = true ∨
        terms.namesMac text = true ∨ terms.namesPrefix text = true := by
    simp only [AnchorTerms.found, huuid, Bool.or_false, Bool.or_eq_true, or_assoc]
  refine forall₂_congr fun node _ => ?_
  rw [hfound _ namesUuid_nodeText]
  constructor
  · rintro h (hentity | hmac | huuid | hendpoint)
    · exact .inl (namesEntity_nodeText hentity)
    · exact .inr (.inr (.inl (namesMac_nodeText hmac)))
    · exact h (.inl huuid)
    · exact h (.inr hendpoint)
  · rintro h (huuid | hendpoint)
    · exact h (.inr (.inr (.inl huuid)))
    · exact h (.inr (.inr (.inr hendpoint)))

end Found

end FloWeaver.Reduction
