import Mathlib.Algebra.Order.Ring.Rat
import Mathlib.Data.List.Forall2
import Mathlib.Data.List.Infix
import FloWeaver.Py.Sha1
import FloWeaver.Py.Sort
import FloWeaver.Py.Str

/-!
# Emission of markers

A detector emits a marker for a call site.  A site that was seen before makes no new marker; when both
it and a marker on its lines come from profile rules, its action references are merged into that
marker.  Sites are told apart by eight parts, and the marker to merge into by five of them.

* `emit`, `run` — one emission, and a list of them.
* `run_represents` — one marker for each site, with its first emission and what was merged into it.
* `run_apart_iff` — when the markers of different sites stay apart.
-/

namespace FloWeaver.Markers

open Py

/-! ## Sites and markers -/

/-- The parts by which call sites are told apart. -/
structure SiteKey where
  markerType : String
  filePath : String
  functionName : String
  lineStart : ℤ
  lineEnd : ℤ
  colStart : ℤ
  colEnd : ℤ
  nodeKind : String
deriving DecidableEq, Repr

structure Marker where
  markerId : String
  markerType : String
  filePath : String
  functionName : String
  lineStart : ℤ
  lineEnd : ℤ
  strength : String
  phase : String
  evidence : List String
  primaryActionId : Option String
  secondaryActionIds : List String
  relatedActionIds : List String
  bindingReason : List String
  bindingScore : ℚ
deriving DecidableEq, Repr

/-- The arguments of `_emit`, those of the dedupe key together. -/
structure Emission where
  key : SiteKey
  strength : String
  phase : String
  evidence : List String
  primaryActionId : Option String
  secondaryActionIds : List String
  bindingReason : List String
  bindingScore : ℚ
deriving DecidableEq, Repr

/-- What a marker id is a digest of. -/
def SiteKey.payload (k : SiteKey) : String :=
  join ":" [k.markerType, k.filePath, k.functionName, toString k.lineStart, toString k.colStart,
    toString k.colEnd, k.nodeKind]

/-- `sha1(payload).hexdigest()[:10]`. -/
def shortDigest (payload : String) : String := String.ofList ((sha1 payload).toList.take 10)

def markerId (k : SiteKey) : String := "marker_" ++ shortDigest k.payload

/-- The rule in the first entry that names one. -/
def profileRuleIdFromEvidence (evidence : List String) : String :=
  match evidence.find? fun item => startsWith (strip item) "grounding_profile_rule:" with
  | some item => strip (afterFirst (strip item) ":")
  | none => ""

/-- The trimmed ids that are not blank. -/
def tokens (ids : List String) : List String := (ids.map strip).filter (· ≠ "")

def markerActionRefs (m : Marker) : List String :=
  tokens (m.primaryActionId.toList ++ m.secondaryActionIds ++ m.relatedActionIds)

def Emission.actionIds (e : Emission) : List String :=
  e.primaryActionId.toList ++ e.secondaryActionIds

/-- The ids of an emission that are not blank, as they are written. -/
def Emission.newRefs (e : Emission) : List String := e.actionIds.filter (strip · ≠ "")

/-- The actions that an emission refers to. -/
def Emission.refs (e : Emission) : List String := tokens e.actionIds

def Emission.marker (e : Emission) : Marker where
  markerId := markerId e.key
  markerType := e.key.markerType
  filePath := e.key.filePath
  functionName := e.key.functionName
  lineStart := e.key.lineStart
  lineEnd := e.key.lineEnd
  strength := e.strength
  phase := e.phase
  evidence := e.evidence
  primaryActionId := e.primaryActionId
  secondaryActionIds := sortedSet e.secondaryActionIds
  relatedActionIds := sortedSet e.newRefs
  bindingReason := e.bindingReason
  bindingScore := e.bindingScore

/-! ## Emission -/

/-- `a or b` on ids. -/
def idOr : Option String → Option String → Option String
  | some id, other => if id = "" then other else some id
  | none, other => other

/-- The marker with the references and the evidence of an emission added. -/
def Marker.merge (m : Marker) (e : Emission) : Marker :=
  let mergedRefs := sortedSet (markerActionRefs m ++ e.newRefs)
  let primary := idOr m.primaryActionId e.primaryActionId
  { m with
    primaryActionId := primary
    secondaryActionIds := mergedRefs.filter fun id => some id ≠ primary
    relatedActionIds := mergedRefs
    evidence := (m.evidence ++ e.evidence).eraseDups
    bindingReason := (m.bindingReason ++ e.bindingReason).eraseDups
    bindingScore := max m.bindingScore e.bindingScore }

/-- Is the marker on the lines of the emission, and from a profile rule? -/
def Marker.takes (m : Marker) (e : Emission) : Bool :=
  m.markerType = e.key.markerType && m.filePath = e.key.filePath &&
    m.functionName = e.key.functionName && m.lineStart = e.key.lineStart &&
    m.lineEnd = e.key.lineEnd && profileRuleIdFromEvidence m.evidence ≠ ""

/-- The first marker that takes the emission is changed. -/
def mergeFirst (e : Emission) : List Marker → Option (List Marker)
  | [] => none
  | m :: rest =>
    if m.takes e then some (m.merge e :: rest) else (mergeFirst e rest).map (m :: ·)

structure Emitted where
  out : List Marker
  seenKeys : List SiteKey

def emit (s : Emitted) (e : Emission) : Emitted × Bool :=
  if e.key ∈ s.seenKeys then
    if profileRuleIdFromEvidence e.evidence ≠ "" ∧ e.newRefs ≠ [] then
      match mergeFirst e s.out with
      | some out => ({ s with out }, true)
      | none => (s, false)
    else (s, false)
  else ({ out := s.out ++ [e.marker], seenKeys := e.key :: s.seenKeys }, true)

/-- A list of emissions on an empty list of markers. -/
def run (emissions : List Emission) : Emitted :=
  emissions.foldl (fun s e => (emit s e).1) ⟨[], []⟩

/-! ## What a history of emissions says -/

/-- The first emission for each site. -/
def firsts (history : List Emission) : List Emission :=
  history.foldl (fun found e => if e.key ∈ found.map (·.key) then found else found ++ [e]) []

def SiteKey.sameLines (k l : SiteKey) : Bool :=
  k.markerType = l.markerType && k.filePath = l.filePath && k.functionName = l.functionName &&
    k.lineStart = l.lineStart && k.lineEnd = l.lineEnd

/-- The emission is merged into the marker that another one has made: its site was seen, it is from a
profile rule and refers to actions, and the other is the first of a profile rule on its lines. -/
def MergesInto (history : List Emission) (e host : Emission) : Prop :=
  e.key ∈ history.map (·.key) ∧ profileRuleIdFromEvidence e.evidence ≠ "" ∧ e.newRefs ≠ [] ∧
    (firsts history).find? (fun f => f.key.sameLines e.key &&
      profileRuleIdFromEvidence f.evidence ≠ "") = some host

/-- Every merged reference was also emitted for the site it goes to. -/
def MergesAtHome (emissions : List Emission) : Prop :=
  ∀ before e host, before ++ [e] <+: emissions → MergesInto before e host →
    ∀ ref ∈ e.refs, ∃ f ∈ emissions, f.key = host.key ∧ ref ∈ f.refs

/-- Different sites have different payloads. -/
def PayloadsDiffer (emissions : List Emission) : Prop :=
  ∀ e ∈ emissions, ∀ f ∈ emissions, e.key.payload = f.key.payload → e.key = f.key

/-- Different payloads have different digests. -/
def CollisionFree (emissions : List Emission) : Prop :=
  ∀ e ∈ emissions, ∀ f ∈ emissions,
    shortDigest e.key.payload = shortDigest f.key.payload → e.key.payload = f.key.payload

/-- A marker of a site, which refers only to actions that were emitted for it. -/
structure OwnMarker (emissions : List Emission) (k : SiteKey) (m : Marker) : Prop where
  markerId : m.markerId = markerId k
  markerType : m.markerType = k.markerType
  filePath : m.filePath = k.filePath
  functionName : m.functionName = k.functionName
  lineStart : m.lineStart = k.lineStart
  lineEnd : m.lineEnd = k.lineEnd
  refs : ∀ ref ∈ markerActionRefs m, ∃ e ∈ emissions, e.key = k ∧ ref ∈ e.refs

/-- One marker for each site, each with its own references, and no two with one id. -/
structure KeptApart (emissions : List Emission) (markers : List Marker) : Prop where
  each : List.Forall₂ (OwnMarker emissions) (emissions.map (·.key)).eraseDups markers
  ids : (markers.map (·.markerId)).Nodup

/-! ## References and rules -/

theorem mem_tokens {ids : List String} {ref : String} :
    ref ∈ tokens ids ↔ ref ≠ "" ∧ ∃ id ∈ ids, strip id = ref := by
  rw [tokens, List.mem_filter, List.mem_map, decide_eq_true_eq, and_comm]

/-- A reference is a token already. -/
theorem strip_of_mem_tokens {ids : List String} {ref : String} (h : ref ∈ tokens ids) :
    strip ref = ref := by
  obtain ⟨-, id, -, rfl⟩ := mem_tokens.1 h
  exact strip_strip id

theorem Emission.mem_refs {e : Emission} {ref : String} :
    ref ∈ e.refs ↔ ref ≠ "" ∧ ∃ id ∈ e.newRefs, strip id = ref := by
  rw [refs, mem_tokens]
  refine and_congr_right fun hne => exists_congr fun id => ?_
  rw [newRefs, List.mem_filter, decide_eq_true_eq]
  exact ⟨fun ⟨hid, hstrip⟩ => ⟨⟨hid, hstrip ▸ hne⟩, hstrip⟩, fun ⟨⟨hid, _⟩, hstrip⟩ => ⟨hid, hstrip⟩⟩

/-- A new marker refers to the actions of its emission. -/
theorem mem_refs_marker {e : Emission} {ref : String} :
    ref ∈ markerActionRefs e.marker ↔ ref ∈ e.refs := by
  rw [markerActionRefs, Emission.refs, mem_tokens, mem_tokens]
  refine and_congr_right fun _ => exists_congr fun id => and_congr_left fun _ => ?_
  simp only [Emission.marker, Emission.actionIds, Emission.newRefs, List.mem_append, mem_sortedSet,
    List.mem_filter]
  constructor
  · rintro (hid | ⟨hid, -⟩) <;> exact hid
  · exact .inl

theorem mem_idOr {a b : Option String} {id : String} (h : id ∈ (idOr a b).toList) :
    id ∈ a.toList ∨ id ∈ b.toList := by
  cases a with
  | none => exact .inr h
  | some a =>
    rw [idOr] at h
    split_ifs at h
    · exact .inr h
    · exact .inl h

/-- A merge adds the references of the emission. -/
theorem mem_refs_merge {m : Marker} {e : Emission} {ref : String} :
    ref ∈ markerActionRefs (m.merge e) ↔ ref ∈ markerActionRefs m ∨ ref ∈ e.refs := by
  constructor
  · intro h
    obtain ⟨hne, id, hid, rfl⟩ := mem_tokens.1 h
    have hmerged : id ∈ sortedSet (markerActionRefs m ++ e.newRefs) →
        strip id ∈ markerActionRefs m ∨ strip id ∈ e.refs := by
      intro hid
      rcases List.mem_append.1 (mem_sortedSet.1 hid) with hid | hid
      · rw [strip_of_mem_tokens hid]
        exact .inl hid
      · exact .inr (Emission.mem_refs.2 ⟨hne, id, hid, rfl⟩)
    rcases List.mem_append.1 hid with hid | hid
    · rcases List.mem_append.1 hid with hid | hid
      · rcases mem_idOr hid with hid | hid
        · exact .inl (mem_tokens.2 ⟨hne, id,
            List.mem_append_left _ (List.mem_append_left _ hid), rfl⟩)
        · exact .inr (mem_tokens.2 ⟨hne, id, List.mem_append_left _ hid, rfl⟩)
      · exact hmerged (List.mem_filter.1 hid).1
    · exact hmerged hid
  · intro h
    have hadd : ∀ id ∈ markerActionRefs m ++ e.newRefs, strip id ≠ "" →
        strip id ∈ markerActionRefs (m.merge e) := fun id hid hne =>
      mem_tokens.2 ⟨hne, id, List.mem_append_right _ (mem_sortedSet.2 hid), rfl⟩
    rcases h with h | h
    · have hstrip := strip_of_mem_tokens h
      rw [← hstrip]
      refine hadd ref (List.mem_append_left _ h) ?_
      rw [hstrip]
      exact (mem_tokens.1 h).1
    · obtain ⟨hne, id, hid, rfl⟩ := Emission.mem_refs.1 h
      exact hadd id (List.mem_append_right _ hid) hne

/-- Repeated entries do not change what is found first. -/
theorem find?_eraseDups {α : Type} [DecidableEq α] (p : α → Bool) (l : List α) :
    l.eraseDups.find? p = l.find? p := by
  induction hn : l.length using Nat.strong_induction_on generalizing l with
  | _ n ih =>
    cases l with
    | nil => rfl
    | cons a rest =>
      rw [List.eraseDups_cons, List.find?_cons, List.find?_cons]
      cases ha : p a with
      | true => rfl
      | false =>
        have hlt : (rest.filter fun b => !b == a).length < n :=
          hn ▸ Nat.lt_succ_of_le (List.length_filter_le _ _)
        simp only [ih _ hlt _ rfl, List.find?_filter]
        -- the entries that are dropped are not found anyway
        congr 1
        funext b
        by_cases hb : b = a
        · simp [hb, ha]
        · simp [hb]

/-- More evidence does not change the rule that a marker is from. -/
theorem profileRuleId_merge {m : Marker} (h : profileRuleIdFromEvidence m.evidence ≠ "")
    (e : Emission) :
    profileRuleIdFromEvidence (m.merge e).evidence = profileRuleIdFromEvidence m.evidence := by
  rw [profileRuleIdFromEvidence, Marker.merge, find?_eraseDups, List.find?_append]
  rw [profileRuleIdFromEvidence] at h ⊢
  cases hfind : m.evidence.find? fun item => startsWith (strip item) "grounding_profile_rule:" with
  | some item => rfl
  | none => rw [hfind] at h; exact absurd rfl h

/-! ## Histories -/

theorem firsts_concat (history : List Emission) (e : Emission) :
    firsts (history ++ [e]) =
      if e.key ∈ (firsts history).map (·.key) then firsts history else firsts history ++ [e] := by
  rw [firsts, List.foldl_append]
  rfl

/-- There is one first emission for each site. -/
theorem map_key_firsts (history : List Emission) :
    (firsts history).map (·.key) = (history.map (·.key)).eraseDups := by
  induction history using List.reverseRecOn with
  | nil => rfl
  | append_singleton history e ih =>
    have hmem : e.key ∈ (firsts history).map (·.key) ↔ e.key ∈ history.map (·.key) := by
      rw [ih, List.mem_eraseDups]
    have hnew : ∀ keys : List SiteKey,
        ([e.key].removeAll keys).eraseDups = if e.key ∈ keys then [] else [e.key] := by
      intro keys
      by_cases h : e.key ∈ keys <;> simp [List.removeAll, h, List.eraseDups_cons]
    rw [firsts_concat, List.map_append, List.eraseDups_append, ← ih, List.map_singleton, hnew]
    by_cases hseen : e.key ∈ history.map (·.key)
    · rw [if_pos (hmem.2 hseen), if_pos hseen, List.append_nil]
    · rw [if_neg fun h => hseen (hmem.1 h), if_neg hseen, List.map_append, List.map_singleton]

theorem mem_map_key_firsts {history : List Emission} {k : SiteKey} :
    k ∈ (firsts history).map (·.key) ↔ k ∈ history.map (·.key) := by
  rw [map_key_firsts, List.mem_eraseDups]

theorem nodup_map_key_firsts (history : List Emission) : ((firsts history).map (·.key)).Nodup := by
  rw [map_key_firsts]
  exact nodup_eraseDups _

/-- Later emissions do not change the first ones. -/
theorem firsts_mono {before history : List Emission} (h : before <+: history) :
    firsts before ⊆ firsts history := by
  obtain ⟨after, rfl⟩ := h
  induction after using List.reverseRecOn with
  | nil => rw [List.append_nil]; exact List.Subset.refl _
  | append_singleton after e ih =>
    rw [← List.append_assoc, firsts_concat]
    split_ifs
    · exact ih
    · exact fun f hf => List.mem_append_left _ (ih hf)

theorem mem_of_mem_firsts {history : List Emission} {f : Emission} (h : f ∈ firsts history) :
    f ∈ history := by
  induction history using List.reverseRecOn with
  | nil => exact h
  | append_singleton history e ih =>
    rw [firsts_concat] at h
    split_ifs at h
    · exact List.mem_append_left _ (ih h)
    · rcases List.mem_append.1 h with h | h
      · exact List.mem_append_left _ (ih h)
      · exact List.mem_append_right _ h

theorem MergesInto.mem_firsts {history : List Emission} {e f : Emission}
    (h : MergesInto history e f) : f ∈ firsts history := List.mem_of_find?_eq_some h.2.2.2

/-- What a marker refers to: the actions of its first emission, and what was merged into it. -/
def Referred (history : List Emission) (f : Emission) (ref : String) : Prop :=
  ref ∈ f.refs ∨ ∃ before e, before ++ [e] <+: history ∧ MergesInto before e f ∧ ref ∈ e.refs

theorem referred_concat {history : List Emission} {e f : Emission} {ref : String} :
    Referred (history ++ [e]) f ref ↔
      Referred history f ref ∨ MergesInto history e f ∧ ref ∈ e.refs := by
  rw [Referred, Referred, or_assoc]
  refine or_congr_right ?_
  constructor
  · rintro ⟨before, e', hprefix, hmerge, href⟩
    rcases List.prefix_concat_iff.1 hprefix with heq | hprefix
    · obtain ⟨rfl, he⟩ := List.append_inj' heq rfl
      cases he
      exact .inr ⟨hmerge, href⟩
    · exact .inl ⟨before, e', hprefix, hmerge, href⟩
  · rintro (⟨before, e', hprefix, hmerge, href⟩ | ⟨hmerge, href⟩)
    · exact ⟨before, e', hprefix.trans (List.prefix_append _ _), hmerge, href⟩
    · exact ⟨history, e, List.prefix_rfl, hmerge, href⟩

/-! ## The run -/

/-- A marker that stands for a first emission. -/
structure Stands (history : List Emission) (f : Emission) (m : Marker) : Prop where
  markerId : m.markerId = Markers.markerId f.key
  markerType : m.markerType = f.key.markerType
  filePath : m.filePath = f.key.filePath
  functionName : m.functionName = f.key.functionName
  lineStart : m.lineStart = f.key.lineStart
  lineEnd : m.lineEnd = f.key.lineEnd
  rule : profileRuleIdFromEvidence m.evidence = "" ↔ profileRuleIdFromEvidence f.evidence = ""
  refs : ∀ ref, ref ∈ markerActionRefs m ↔ Referred history f ref

variable {history : List Emission} {e f : Emission} {m : Marker}

theorem Stands.takes (h : Stands history f m) :
    m.takes e = (f.key.sameLines e.key && profileRuleIdFromEvidence f.evidence ≠ "") := by
  rw [Marker.takes, SiteKey.sameLines, h.markerType, h.filePath, h.functionName, h.lineStart,
    h.lineEnd]
  simp only [ne_eq, h.rule]

/-- An emission that is not merged into the marker leaves it. -/
theorem Stands.keep (h : Stands history f m) (hmerge : ¬ MergesInto history e f) :
    Stands (history ++ [e]) f m :=
  { h with
    refs := fun ref => by
      rw [h.refs, referred_concat]
      exact ⟨.inl, fun href => href.resolve_right fun hnew => hmerge hnew.1⟩ }

/-- Markers that an emission is not merged into stay as they are. -/
theorem forall₂_keep {fs : List Emission} {out : List Marker}
    (h : List.Forall₂ (Stands history) fs out) (hmerge : ∀ f ∈ fs, ¬ MergesInto history e f) :
    List.Forall₂ (Stands (history ++ [e])) fs out := by
  induction h with
  | nil => exact .nil
  | cons hf _ ih =>
    exact .cons (hf.keep (hmerge _ List.mem_cons_self))
      (ih fun g hg => hmerge g (List.mem_cons_of_mem _ hg))

/-- A merge adds the references of the emission. -/
theorem Stands.merge (h : Stands history f m) (hmerge : MergesInto history e f)
    (hrule : profileRuleIdFromEvidence f.evidence ≠ "") :
    Stands (history ++ [e]) f (m.merge e) :=
  { h with
    rule := by rw [profileRuleId_merge (mt h.rule.1 hrule), h.rule]
    refs := fun ref => by
      rw [mem_refs_merge, h.refs, referred_concat]
      exact or_congr_right (and_iff_right hmerge).symm }

/-- The marker of a new site. -/
theorem stands_marker (hnew : e.key ∉ history.map (·.key)) :
    Stands (history ++ [e]) e e.marker := by
  refine ⟨rfl, rfl, rfl, rfl, rfl, rfl, Iff.rfl, fun ref => ?_⟩
  rw [mem_refs_marker, referred_concat]
  refine ⟨fun href => .inl (.inl href), ?_⟩
  rintro ((href | ⟨before, e', hprefix, hmerge, -⟩) | ⟨hmerge, -⟩)
  · exact href
  · -- what was merged before went to a site that was seen
    have hbefore : before <+: history := (List.prefix_append _ _).trans hprefix
    exact absurd (mem_map_key_firsts.1 (List.mem_map_of_mem
      (firsts_mono hbefore hmerge.mem_firsts))) hnew
  · exact absurd hmerge.1 hnew

/-- Merging into the first marker that takes an emission. -/
theorem mergeFirst_cases {p : Emission → Bool} {fs : List Emission} {out : List Marker}
    (h : List.Forall₂ (Stands history) fs out)
    (hp : ∀ f m, Stands history f m → m.takes e = p f) :
    (fs.find? p = none ∧ mergeFirst e out = none) ∨
      ∃ before f after before' m after', fs = before ++ f :: after ∧ fs.find? p = some f ∧
        List.Forall₂ (Stands history) before before' ∧ Stands history f m ∧
        List.Forall₂ (Stands history) after after' ∧
        mergeFirst e out = some (before' ++ m.merge e :: after') := by
  induction h with
  | nil => exact .inl ⟨rfl, rfl⟩
  | @cons f m fs out hf hrest ih =>
    rw [mergeFirst, hp f m hf, List.find?_cons]
    cases hpf : p f with
    | true => exact .inr ⟨[], f, fs, [], m, out, rfl, rfl, .nil, hf, hrest, rfl⟩
    | false =>
      rcases ih with ⟨hnone, hmerge⟩ | ⟨before, g, after, before', n, after', rfl, hfind, hbefore,
        hg, hafter, hmerge⟩
      · exact .inl ⟨hnone, by rw [if_neg Bool.false_ne_true, hmerge]; rfl⟩
      · exact .inr ⟨f :: before, g, after, m :: before', n, after', rfl, hfind, .cons hf hbefore,
          hg, hafter, by rw [if_neg Bool.false_ne_true, hmerge]; rfl⟩

/-- The markers stand for the first emissions of the sites that were seen. -/
structure Represents (history : List Emission) (s : Emitted) : Prop where
  seen : ∀ k, k ∈ s.seenKeys ↔ k ∈ history.map (·.key)
  markers : List.Forall₂ (Stands history) (firsts history) s.out

/-- An emission keeps this. -/
theorem Represents.emit {s : Emitted} (h : Represents history s) (e : Emission) :
    Represents (history ++ [e]) (emit s e).1 := by
  have hkeep : (∀ f, ¬ MergesInto history e f) →
      List.Forall₂ (Stands (history ++ [e])) (firsts history) s.out := fun hnone =>
    forall₂_keep h.markers fun f _ => hnone f
  by_cases hseen : e.key ∈ s.seenKeys
  · have hkey : e.key ∈ history.map (·.key) := (h.seen e.key).1 hseen
    have hkeys : ∀ k, k ∈ s.seenKeys ↔ k ∈ (history ++ [e]).map (·.key) := by
      intro k
      rw [h.seen, List.map_append, List.mem_append, List.map_singleton, List.mem_singleton]
      exact ⟨.inl, fun hk => hk.elim id fun heq => heq ▸ hkey⟩
    have hfirsts : firsts (history ++ [e]) = firsts history := by
      rw [firsts_concat, if_pos (mem_map_key_firsts.2 hkey)]
    rw [Markers.emit, if_pos hseen]
    split_ifs with hready
    · rcases mergeFirst_cases h.markers (e := e) (fun f m hf => hf.takes) with
        ⟨hnone, hmerge⟩ | ⟨before, f, after, before', m, after', hsplit, hfind, hbefore, hf, hafter,
          hmerge⟩
      · rw [hmerge]
        refine ⟨hkeys, hfirsts ▸ hkeep fun f hf => ?_⟩
        rw [hf.2.2.2] at hnone
        cases hnone
      · rw [hmerge]
        have hinto : MergesInto history e f := ⟨hkey, hready.1, hready.2, hfind⟩
        have hrule : profileRuleIdFromEvidence f.evidence ≠ "" := by
          have hfound := List.find?_some hfind
          rw [Bool.and_eq_true, decide_eq_true_eq] at hfound
          exact hfound.2
        have hother : ∀ g, MergesInto history e g → g = f := fun g hg =>
          Option.some.inj (hg.2.2.2.symm.trans hfind)
        have hnodup : (before ++ f :: after).Nodup :=
          hsplit ▸ (nodup_map_key_firsts history).of_map _
        rw [List.nodup_append, List.nodup_cons] at hnodup
        obtain ⟨-, ⟨hfafter, -⟩, hdisjoint⟩ := hnodup
        refine ⟨hkeys, ?_⟩
        rw [hfirsts, hsplit]
        refine List.rel_append (forall₂_keep hbefore fun g hg hmerge => ?_)
          (.cons (hf.merge hinto hrule) (forall₂_keep hafter fun g hg hmerge => ?_))
        · exact hdisjoint g hg f List.mem_cons_self (hother g hmerge)
        · exact hfafter (hother g hmerge ▸ hg)
    · exact ⟨hkeys, hfirsts ▸ hkeep fun f hf => hready ⟨hf.2.1, hf.2.2.1⟩⟩
  · have hkey : e.key ∉ history.map (·.key) := fun hk => hseen ((h.seen e.key).2 hk)
    rw [Markers.emit, if_neg hseen]
    refine ⟨fun k => ?_, ?_⟩
    · rw [List.mem_cons, h.seen, List.map_append, List.mem_append, List.map_singleton,
        List.mem_singleton, or_comm]
    · rw [firsts_concat, if_neg fun hk => hkey (mem_map_key_firsts.1 hk)]
      exact List.rel_append (hkeep fun f hf => hkey hf.1) (.cons (stands_marker hkey) .nil)

/-- The markers of a run stand for the first emissions of its sites. -/
theorem run_represents (emissions : List Emission) : Represents emissions (run emissions) := by
  induction emissions using List.reverseRecOn with
  | nil => exact ⟨fun _ => Iff.rfl, .nil⟩
  | append_singleton emissions e ih =>
    rw [run, List.foldl_append]
    exact ih.emit e

/-- A site is seen once it was emitted. -/
theorem mem_seenKeys_emit {s : Emitted} {k : SiteKey} :
    k ∈ (emit s e).1.seenKeys ↔ k ∈ s.seenKeys ∨ k = e.key := by
  rw [emit]
  split_ifs with hseen hready
  · cases mergeFirst e s.out <;> exact ⟨.inl, fun h => h.elim id fun heq => heq ▸ hseen⟩
  · exact ⟨.inl, fun h => h.elim id fun heq => heq ▸ hseen⟩
  · rw [List.mem_cons, or_comm]

/-- A first emission has its marker. -/
theorem exists_stands {fs : List Emission} {out : List Marker}
    (h : List.Forall₂ (Stands history) fs out) (hf : f ∈ fs) : ∃ m ∈ out, Stands history f m := by
  induction h with
  | nil => cases hf
  | cons hg _ ih =>
    rcases List.mem_cons.1 hf with rfl | hf
    · exact ⟨_, List.mem_cons_self, hg⟩
    · obtain ⟨m, hm, hstands⟩ := ih hf
      exact ⟨m, List.mem_cons_of_mem _ hm, hstands⟩

/-! ## Keeping sites apart -/

/-- A marker of a site is its own when what it refers to was emitted for the site. -/
theorem Stands.ownMarker_iff (h : Stands history f m) :
    OwnMarker history f.key m ↔
      ∀ ref, Referred history f ref → ∃ e ∈ history, e.key = f.key ∧ ref ∈ e.refs := by
  constructor
  · exact fun hown ref href => hown.refs ref ((h.refs ref).2 href)
  · exact fun hall => ⟨h.markerId, h.markerType, h.filePath, h.functionName, h.lineStart, h.lineEnd,
      fun ref href => hall ref ((h.refs ref).1 href)⟩

theorem forall₂_ownMarker_iff {fs : List Emission} {out : List Marker}
    (h : List.Forall₂ (Stands history) fs out) :
    List.Forall₂ (OwnMarker history) (fs.map (·.key)) out ↔
      ∀ f ∈ fs, ∀ ref, Referred history f ref → ∃ e ∈ history, e.key = f.key ∧ ref ∈ e.refs := by
  induction h with
  | nil => exact ⟨nofun, fun _ => .nil⟩
  | cons hf _ ih => rw [List.map_cons, List.forall₂_cons, hf.ownMarker_iff, ih, List.forall_mem_cons]

theorem map_markerId {fs : List Emission} {out : List Marker}
    (h : List.Forall₂ (Stands history) fs out) :
    out.map (·.markerId) = (fs.map (·.key)).map markerId := by
  induction h with
  | nil => rfl
  | cons hf _ ih => rw [List.map_cons, List.map_cons, List.map_cons, hf.markerId, ih]

/-- There is one marker for each site, and all are their own when every merge is at home. -/
theorem each_iff_mergesAtHome (emissions : List Emission) :
    List.Forall₂ (OwnMarker emissions) (emissions.map (·.key)).eraseDups (run emissions).out ↔
      MergesAtHome emissions := by
  rw [← map_key_firsts, forall₂_ownMarker_iff (run_represents emissions).markers]
  constructor
  · intro h before e host hprefix hmerge ref href
    have hbefore : before <+: emissions := (List.prefix_append _ _).trans hprefix
    exact h host (firsts_mono hbefore hmerge.mem_firsts) ref
      (.inr ⟨before, e, hprefix, hmerge, href⟩)
  · rintro h f hf ref (href | ⟨before, e, hprefix, hmerge, href⟩)
    · exact ⟨f, mem_of_mem_firsts hf, rfl, href⟩
    · exact h before e f hprefix hmerge ref href

/-- The ids differ when the payloads do. -/
theorem nodup_map_markerId_iff {emissions : List Emission} (hsha : CollisionFree emissions) :
    (((emissions.map (·.key)).eraseDups).map markerId).Nodup ↔ PayloadsDiffer emissions := by
  constructor
  · intro h e he f hf hpayload
    refine List.inj_on_of_nodup_map h (List.mem_eraseDups.2 (List.mem_map_of_mem he))
      (List.mem_eraseDups.2 (List.mem_map_of_mem hf)) ?_
    rw [markerId, markerId, hpayload]
  · intro h
    refine List.Nodup.map_on (fun k hk l hl hid => ?_) (nodup_eraseDups _)
    obtain ⟨e, he, rfl⟩ := List.mem_map.1 (List.mem_eraseDups.1 hk)
    obtain ⟨f, hf, rfl⟩ := List.mem_map.1 (List.mem_eraseDups.1 hl)
    exact h e he f hf (hsha e he f hf ((String.append_right_inj _).1 hid))

/-- While digests do not collide, a run leaves one marker for each site, with the site's own references
and an id of its own, exactly when different sites have different payloads and every merge is at
home. -/
theorem run_apart_iff (emissions : List Emission) (hsha : CollisionFree emissions) :
    KeptApart emissions (run emissions).out ↔
      PayloadsDiffer emissions ∧ MergesAtHome emissions := by
  have heach := each_iff_mergesAtHome emissions
  have hids : ((run emissions).out.map (·.markerId)).Nodup ↔ PayloadsDiffer emissions := by
    rw [map_markerId (run_represents emissions).markers, map_key_firsts, nodup_map_markerId_iff hsha]
  exact ⟨fun h => ⟨hids.1 h.ids, heach.1 h.each⟩, fun h => ⟨heach.2 h.2, hids.2 h.1⟩⟩

/-- A connection that a profile rule finds on the first line of `lock.py`. -/
def connectionAt (colStart colEnd : ℤ) (action : String) : Emission where
  key := ⟨"BLE_CONNECT", "lock.py", "unlock", 1, 1, colStart, colEnd, "Call"⟩
  strength := "STRONG"
  phase := "RUNTIME"
  evidence := ["grounding_profile_rule:ble_connect"]
  primaryActionId := some action
  secondaryActionIds := []
  bindingReason := []
  bindingScore := 1

theorem run_apart_two :
    KeptApart [connectionAt 4 20 "lock", connectionAt 24 40 "lamp"]
        (run [connectionAt 4 20 "lock", connectionAt 24 40 "lamp"]).out ↔
      PayloadsDiffer [connectionAt 4 20 "lock", connectionAt 24 40 "lamp"] ∧
        MergesAtHome [connectionAt 4 20 "lock", connectionAt 24 40 "lamp"] :=
  run_apart_iff _ (by unfold CollisionFree; decide +kernel)

/-- The second connection on a line, found twice, hands its action to the first one. -/
theorem run_not_apart : ¬ ∀ emissions, CollisionFree emissions →
    KeptApart emissions (run emissions).out := by
  intro h
  have hapart := h
    [connectionAt 4 20 "lock", connectionAt 24 40 "lamp", connectionAt 24 40 "lamp"]
    (by unfold CollisionFree; decide +kernel)
  have hmerge : MergesInto [connectionAt 4 20 "lock", connectionAt 24 40 "lamp"]
      (connectionAt 24 40 "lamp") (connectionAt 4 20 "lock") := by
    unfold MergesInto
    decide +kernel
  have hown := (each_iff_mergesAtHome _).1 hapart.each _ _ _ List.prefix_rfl hmerge "lamp"
    (by decide +kernel)
  revert hown
  decide +kernel

end FloWeaver.Markers
