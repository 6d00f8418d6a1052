import FloWeaver.Mssu.Renaming

/-!
# Renamed bindings

The binding of a renamed marker is the renamed binding, before and after the look at the nodes.

* `actionBindingForMarker_rename`, `refineBindingFromClosure_rename` — bindings are renamed.
* `actionBindingForMarker_known`, `refineBindingFromClosure_known` — a binding names actions of the
  target only.
-/

namespace FloWeaver.Mssu

open Py

/-- A binding to the renamed actions. -/
def Binding.rename {ids : List String} (r : Renaming ids) (binding : Binding) : Binding :=
  { binding with
    primaryActionRef := binding.primaryActionRef.map r
    secondaryActionRefs := binding.secondaryActionRefs.map r
    actionRefs := binding.actionRefs.map r }

/-- The lists of a binding name actions of the index. -/
def Binding.Known (index : OrderedDict String Dict) (binding : Binding) : Prop :=
  (∀ actionId ∈ binding.secondaryActionRefs, known index actionId) ∧
    ∀ actionId ∈ binding.actionRefs, known index actionId

/-! ## The index -/

section Index

variable {ids : List String} (r : Renaming ids) (index : OrderedDict String Dict)

/-- The index of the renamed actions. -/
def renameIndex : OrderedDict String Dict := index.map r r.injective (renameAction r)

@[simp] theorem get?_renameIndex (actionId : String) :
    (renameIndex r index).get? (r actionId) = (index.get? actionId).map (renameAction r) :=
  OrderedDict.get?_map r.injective _ _ actionId

@[simp] theorem known_renameIndex (actionId : String) :
    known (renameIndex r index) (r actionId) = known index actionId := by
  simp [known]

@[simp] theorem getD_get?_renameIndex (actionId : String) :
    ((renameIndex r index).get? (r actionId)).getD [] =
      renameAction r ((index.get? actionId).getD []) := by
  rw [get?_renameIndex]
  cases index.get? actionId <;> rfl

variable {index}

/-- Only the ids of actions are known. -/
theorem mem_of_known {target : Option OptimizationTarget} {actionId : String}
    (h : known (actionIndex target) actionId) :
    actionId ∈ ((target.map OptimizationTarget.vdevActions).getD []).map actionIdOf := by
  obtain ⟨action, haction⟩ := Option.isSome_iff_exists.1 h
  have hrow := OrderedDict.mem_of_get?_ofList haction
  obtain ⟨row, hrow', hid⟩ := List.mem_map.1 (List.mem_of_mem_filter hrow)
  obtain ⟨rfl, -⟩ := Prod.mk.inj hid
  exact List.mem_map_of_mem hrow'

theorem known_of_mem {target : OptimizationTarget} {action : Dict}
    (h : action ∈ target.vdevActions) (hblank : actionIdOf action ≠ "") :
    known (actionIndex (some target)) (actionIdOf action) := by
  rw [known, OrderedDict.get?_isSome_iff, actionIndex, OrderedDict.mem_keys_ofList]
  refine List.mem_map.2 ⟨(actionIdOf action, action), List.mem_filter.2 ⟨?_, ?_⟩, rfl⟩
  · exact List.mem_map_of_mem (f := fun action => (actionIdOf action, action)) h
  · simpa using hblank

end Index

/-! ## The actions of a marker -/

section MarkerRefs

variable {ids : List String} (r : Renaming ids) {marker : Marker} {target : OptimizationTarget}

def MarkerRefs.rename (refs : MarkerRefs) : MarkerRefs :=
  ⟨refs.refs.map r, refs.primary.map r, refs.secondary.map r⟩

/-- The ids of the actions of the target are among some ids. -/
def ActionsIn (ids : List String) (target : Option OptimizationTarget) : Prop :=
  ∀ id ∈ ((target.map OptimizationTarget.vdevActions).getD []).map actionIdOf, id ∈ ids

/-- The actions that a marker names, those of the target that it may stand for. -/
def namedRefs (marker : Marker) : List String :=
  (effectiveMarkerActionRefs marker).1.toList ++
    if namesSecondaryActions marker then (effectiveMarkerActionRefs marker).2 else []

theorem namedRefs_rename (h : NamedIn ids marker) :
    namedRefs (marker.rename r) = (namedRefs marker).map r := by
  simp only [namedRefs, effectiveMarkerActionRefs_rename r h, namesSecondaryActions_rename,
    Prod.map_fst, Prod.map_snd]
  cases (effectiveMarkerActionRefs marker).1 <;> cases namesSecondaryActions marker <;> simp

/-- The hints of one action. -/
def hintedAction (marker : Marker) (action : Dict) : Except PyErr (List String) := do
  let hints ← (action.getD "marker_hints" (.list [])).needItems
  let hints := hints.map fun item => upper item.pyStr
  return if actionIdOf action ≠ "" ∧ markerMatchesActionHint marker.markerType hints then
      [actionIdOf action]
    else []

theorem hintedAction_rename (action : Dict) :
    hintedAction (marker.rename r) (renameAction r action) =
      (hintedAction marker action).map (List.map r) := by
  rw [hintedAction, hintedAction, getD_renameAction r (by decide)]
  cases (action.getD "marker_hints" (.list [])).needItems with
  | error e => rfl
  | ok hints =>
    simp only [bind, Except.bind, pure, Except.pure, Except.map, actionIdOf_renameAction, ne_eq,
      r.eq_blank]
    split_ifs with h h' h'
    · rfl
    · exact absurd h h'
    · exact absurd h' h
    · rfl

theorem mem_hintedAction {action : Dict} {rows : List String}
    (h : hintedAction marker action = .ok rows) : ∀ id ∈ rows, id = actionIdOf action ∧ id ≠ "" := by
  obtain ⟨hints, -, h⟩ := bind_eq_ok.1 h
  obtain rfl := pure_eq_ok.1 h
  intro id hid
  split_ifs at hid with hmatch
  · obtain rfl := List.mem_singleton.1 hid
    exact ⟨rfl, hmatch.1⟩
  · cases hid

theorem hintedActions_eq (marker : Marker) (target : OptimizationTarget) :
    hintedActions marker target =
      (target.vdevActions.mapM (hintedAction marker)).map fun rows => sortedSet rows.flatten := by
  show ((target.vdevActions.mapM (hintedAction marker)).bind fun rows =>
    pure (sortedSet rows.flatten)) = _
  cases target.vdevActions.mapM (hintedAction marker) <;> rfl

/-- The hinted actions are actions of the target. -/
theorem mem_hintedActions {hinted : List String} (h : hintedActions marker target = .ok hinted) :
    ∀ id ∈ hinted, ∃ action ∈ target.vdevActions, id = actionIdOf action ∧ id ≠ "" := by
  intro id hid
  rw [hintedActions_eq] at h
  cases hrows : target.vdevActions.mapM (hintedAction marker) with
  | error e => simp [hrows, Except.map] at h
  | ok rows =>
    rw [hrows] at h
    obtain rfl := Except.ok.inj h
    rw [mem_sortedSet] at hid
    obtain ⟨row, hrow, hid⟩ := List.mem_flatten.1 hid
    obtain ⟨action, haction, hhint⟩ := mem_of_mapM_ok hrows row hrow
    exact ⟨action, haction, mem_hintedAction hhint id hid⟩

theorem hintedActions_rename (hactions : ActionsIn ids (some target)) :
    hintedActions (marker.rename r) (renameTarget r target) =
      (hintedActions marker target).map (List.map r) := by
  have hrows : (renameTarget r target).vdevActions.mapM (hintedAction (marker.rename r)) =
      (target.vdevActions.mapM (hintedAction marker)).map (List.map (List.map r)) :=
    List.mapM_map_except (hintedAction_rename r) target.vdevActions
  rw [hintedActions_eq, hrows]
  cases hm : target.vdevActions.mapM (hintedAction marker) with
  | error e => rw [hintedActions_eq, hm]; rfl
  | ok rows =>
    have hhinted : hintedActions marker target = .ok (sortedSet rows.flatten) := by
      rw [hintedActions_eq, hm]; rfl
    rw [hhinted]
    refine congrArg Except.ok ?_
    show sortedSet (rows.map (List.map r)).flatten = (sortedSet rows.flatten).map r
    rw [← List.map_flatten, r.sortedSet_map]
    intro id hid
    obtain ⟨action, haction, hid, -⟩ := mem_hintedActions hhinted id (mem_sortedSet.2 hid)
    exact hid ▸ hactions _ (List.mem_map_of_mem haction)

theorem NamedIn.primary_mem (h : NamedIn ids marker) {id : String}
    (hid : (effectiveMarkerActionRefs marker).1 = some id) : id ∈ ids := by
  rw [effectiveMarkerActionRefs_eq] at hid
  dsimp only at hid
  split_ifs at hid with hblank
  · exact h.trimmed_mem (fun _ => .inr) id (List.mem_of_mem_head? hid)
  · obtain rfl := Option.some.inj hid
    refine h _ (List.mem_filter.2 ⟨List.mem_map_of_mem ?_, by simpa using hblank⟩)
    cases hp : marker.primaryActionId with
    | none => simp [hp, strip, stripL] at hblank
    | some primary => simp

theorem NamedIn.secondary_mem (h : NamedIn ids marker) :
    ∀ id ∈ (effectiveMarkerActionRefs marker).2, id ∈ ids := by
  intro id hid
  rw [effectiveMarkerActionRefs_eq] at hid
  exact h.other_mem id (mem_sortedSet.1 hid)

theorem NamedIn.refs_mem (h : NamedIn ids marker) : ∀ id ∈ namedRefs marker, id ∈ ids := by
  intro id hid
  rcases List.mem_append.1 hid with hid | hid
  · exact h.primary_mem (Option.mem_toList.1 hid)
  · cases hnames : namesSecondaryActions marker with
    | false => simp [hnames] at hid
    | true =>
      rw [hnames, if_pos rfl] at hid
      exact h.secondary_mem id hid

/-- The refs of a marker that are actions of the target. -/
def knownRefs (marker : Marker) (target : OptimizationTarget) : List String :=
  sortedSet ((namedRefs marker).filter (known (actionIndex (some target))))

theorem knownRefs_rename (h : NamedIn ids marker) :
    knownRefs (marker.rename r) (renameTarget r target) = (knownRefs marker target).map r := by
  have hindex : actionIndex (some (renameTarget r target)) =
      renameIndex r (actionIndex (some target)) := actionIndex_rename r (some target)
  have hfilter : (namedRefs marker).filter
        (known (renameIndex r (actionIndex (some target))) ∘ r) =
      (namedRefs marker).filter (known (actionIndex (some target))) :=
    List.filter_congr fun id _ => by rw [Function.comp_apply, known_renameIndex]
  rw [knownRefs, hindex, namedRefs_rename r h, List.filter_map, hfilter, knownRefs,
    r.sortedSet_map]
  exact fun id hid => h.refs_mem id (List.mem_of_mem_filter hid)

theorem markerRefs_eq (marker : Marker) (target : OptimizationTarget) :
    markerRefs marker target =
      if (knownRefs marker target).isEmpty then
        (hintedActions marker target).map fun hinted =>
          if hinted ≠ [] ∧ (namesSecondaryActions marker ∨ hinted.length = 1) then
            ⟨hinted, hinted.head?, hinted.drop 1⟩
          else if !markerIsSharedInfra marker ∧ 1 < hinted.length then
            ⟨[], (effectiveMarkerActionRefs marker).1, []⟩
          else ⟨hinted, (effectiveMarkerActionRefs marker).1, (effectiveMarkerActionRefs marker).2⟩
      else .ok ⟨knownRefs marker target, (effectiveMarkerActionRefs marker).1,
        (effectiveMarkerActionRefs marker).2⟩ := by
  rcases hrefs : effectiveMarkerActionRefs marker with ⟨primary, secondary⟩
  simp only [markerRefs, knownRefs, namedRefs, hrefs]
  split
  · cases hintedActions marker target <;> rfl
  · rfl

theorem markerRefs_rename (h : NamedIn ids marker) (hactions : ActionsIn ids (some target)) :
    markerRefs (marker.rename r) (renameTarget r target) =
      (markerRefs marker target).map (MarkerRefs.rename r) := by
  rw [markerRefs_eq, knownRefs_rename r h, hintedActions_rename r hactions,
    effectiveMarkerActionRefs_rename r h, markerRefs_eq]
  simp only [List.isEmpty_map, namesSecondaryActions_rename, markerIsSharedInfra_rename]
  split_ifs
  · cases hintedActions marker target with
    | error e => rfl
    | ok hinted =>
      refine congrArg Except.ok ?_
      simp only [ne_eq, List.map_eq_nil_iff, List.length_map, List.head?_map, ← List.map_drop]
      split_ifs <;> simp only [MarkerRefs.rename, Prod.map_fst, Prod.map_snd, List.map_nil]
  · simp only [Except.map, MarkerRefs.rename, Prod.map_fst, Prod.map_snd]

/-- The refs of a marker are actions of the target. -/
theorem known_of_markerRefs {refs : MarkerRefs} (h : markerRefs marker target = .ok refs) :
    ∀ id ∈ refs.refs, known (actionIndex (some target)) id := by
  have hknown : ∀ id ∈ knownRefs marker target, known (actionIndex (some target)) id :=
    fun id hid => (List.mem_filter.1 (mem_sortedSet.1 hid)).2
  rw [markerRefs_eq] at h
  split_ifs at h
  · cases hhinted : hintedActions marker target with
    | error e => simp [hhinted, Except.map] at h
    | ok hinted =>
      have hmem : ∀ id ∈ hinted, known (actionIndex (some target)) id := by
        intro id hid
        obtain ⟨action, haction, rfl, hblank⟩ := mem_hintedActions hhinted id hid
        exact known_of_mem haction hblank
      rw [hhinted] at h
      obtain rfl := Except.ok.inj h
      dsimp only
      split_ifs
      · exact hmem
      · exact fun id hid => absurd hid (List.not_mem_nil)
      · exact hmem
  · obtain rfl := Except.ok.inj h
    dsimp only
    exact hknown

end MarkerRefs

/-! ## The binding of a marker -/

section ActionBinding

variable {ids : List String} (r : Renaming ids) {marker : Marker}

/-- Is an action of the index critical for the target? -/
def criticalRef (target : OptimizationTarget) (actionId : String) : Bool :=
  ((actionIndex (some target)).get? actionId).any fun action =>
    (action.getD "critical" (.bool false)).truthy || target.criticalActionIds.contains actionId

theorem criticalRef_rename (target : OptimizationTarget) (actionId : String) :
    criticalRef (renameTarget r target) (r actionId) = criticalRef target actionId := by
  have hindex : actionIndex (some (renameTarget r target)) =
      renameIndex r (actionIndex (some target)) := actionIndex_rename r (some target)
  have hcritical : (renameTarget r target).criticalActionIds.contains (r actionId) =
      target.criticalActionIds.contains actionId := r.contains_map _ actionId
  rw [criticalRef, hindex, get?_renameIndex, hcritical, Option.any_map, criticalRef]
  congr 1
  funext action
  rw [getD_renameAction r (by decide)]

/-- The binding of the refs of a marker. -/
def bindRefs (marker : Marker) (target : OptimizationTarget) (refs : MarkerRefs) : Binding :=
  let index := actionIndex (some target)
  let actionRow := refs.primary.bind index.get?
  { actionRefs := refs.refs
    primaryActionRef := refs.primary.filter (known index)
    secondaryActionRefs :=
      if namesSecondaryActions marker then refs.secondary.filter (known index) else []
    critical := isTargetAnchor marker || refs.refs.any (criticalRef target)
    isSharedInfra := markerIsSharedInfra marker
    supportsGeneralizedSecondaryBinding := markerSupportsGeneralizedSecondaryBinding marker
    isAggregateSink := isAggregateSinkAction actionRow
    laneTag := actionRow.bind laneTagForAction
    resourceInstanceTag := actionRow.bind Mssu.resourceInstanceTag }

theorem actionBindingForMarker_eq (marker : Marker) (target : OptimizationTarget) :
    actionBindingForMarker marker (some target) =
      (markerRefs marker target).map (bindRefs marker target) := by
  have hknown : known (actionIndex (some target)) = fun actionId =>
      ((actionIndex (some target)).get? actionId).isSome := rfl
  have hcritical : criticalRef target = fun actionId =>
      ((actionIndex (some target)).get? actionId).any fun action =>
        (action.getD "critical" (.bool false)).truthy ||
          target.criticalActionIds.contains actionId := rfl
  simp only [actionBindingForMarker]
  cases markerRefs marker target with
  | error e => rfl
  | ok refs =>
    simp only [bind, Except.bind, pure, Except.pure, Except.map, bindRefs, hknown, hcritical]

theorem bindRefs_rename (target : OptimizationTarget) (refs : MarkerRefs) :
    bindRefs (marker.rename r) (renameTarget r target) (refs.rename r) =
      (bindRefs marker target refs).rename r := by
  have hindex : actionIndex (some (renameTarget r target)) =
      renameIndex r (actionIndex (some target)) := actionIndex_rename r (some target)
  have hrow : (refs.primary.map r).bind (renameIndex r (actionIndex (some target))).get? =
      (refs.primary.bind (actionIndex (some target)).get?).map (renameAction r) := by
    cases refs.primary with
    | none => rfl
    | some primary => exact get?_renameIndex r _ primary
  have hprimary : (refs.primary.map r).filter (known (renameIndex r (actionIndex (some target)))) =
      (refs.primary.filter (known (actionIndex (some target)))).map r := by
    cases refs.primary with
    | none => rfl
    | some primary => simp [Option.filter, apply_ite (Option.map r)]
  have hsecondary : (refs.secondary.map r).filter
        (known (renameIndex r (actionIndex (some target)))) =
      (refs.secondary.filter (known (actionIndex (some target)))).map r := by
    rw [List.filter_map]
    exact congrArg (List.map r)
      (List.filter_congr fun id _ => by rw [Function.comp_apply, known_renameIndex])
  have hcritical : (refs.refs.map r).any (criticalRef (renameTarget r target)) =
      refs.refs.any (criticalRef target) := by
    rw [List.any_map]
    congr 1
    funext id
    exact criticalRef_rename r target id
  have hanchor : isTargetAnchor (marker.rename r) = isTargetAnchor marker := rfl
  have hlane : ((refs.primary.bind (actionIndex (some target)).get?).map (renameAction r)).bind
      laneTagForAction = (refs.primary.bind (actionIndex (some target)).get?).bind
        laneTagForAction := by
    cases refs.primary.bind (actionIndex (some target)).get? <;> simp
  have hresource : ((refs.primary.bind (actionIndex (some target)).get?).map (renameAction r)).bind
      Mssu.resourceInstanceTag = (refs.primary.bind (actionIndex (some target)).get?).bind
        Mssu.resourceInstanceTag := by
    cases refs.primary.bind (actionIndex (some target)).get? <;> simp
  simp only [bindRefs, MarkerRefs.rename, hindex, hrow, hprimary, hsecondary, hcritical, hanchor,
    hlane, hresource, namesSecondaryActions_rename, markerIsSharedInfra_rename,
    markerSupportsGeneralizedSecondaryBinding_rename, isAggregateSinkAction_rename, Binding.rename]
  cases namesSecondaryActions marker <;> simp

/-- The binding of a renamed marker is the renamed binding. -/
theorem actionBindingForMarker_rename {target : Option OptimizationTarget}
    (h : NamedIn ids marker) (hactions : ActionsIn ids target) :
    actionBindingForMarker (marker.rename r) (target.map (renameTarget r)) =
      (actionBindingForMarker marker target).map (Binding.rename r) := by
  cases target with
  | none => rfl
  | some target =>
    rw [Option.map_some, actionBindingForMarker_eq, actionBindingForMarker_eq,
      markerRefs_rename r h hactions]
    cases markerRefs marker target with
    | error e => rfl
    | ok refs => exact congrArg Except.ok (bindRefs_rename r target refs)

/-- A binding names actions of the target only. -/
theorem actionBindingForMarker_known {target : Option OptimizationTarget} {binding : Binding}
    (h : actionBindingForMarker marker target = .ok binding) :
    binding.Known (actionIndex target) := by
  cases target with
  | none =>
    obtain rfl := Except.ok.inj h
    exact ⟨by simp, by simp⟩
  | some target =>
    rw [actionBindingForMarker_eq] at h
    cases hrefs : markerRefs marker target with
    | error e => simp [hrefs, Except.map] at h
    | ok refs =>
      rw [hrefs] at h
      obtain rfl := Except.ok.inj h
      refine ⟨fun id hid => ?_, known_of_markerRefs hrefs⟩
      simp only [bindRefs] at hid
      split_ifs at hid
      · exact (List.mem_filter.1 hid).2
      · cases hid

end ActionBinding

/-! ## Scores -/

section Scores

variable {ids : List String} (r : Renaming ids) {marker : Marker}
  {markersById : OrderedDict String Marker}

/-- What the type of a marker is worth. -/
def markerWeight (marker : Marker) : ℚ :=
  if ["ENTRY_SETUP", "ENTRY_UNLOAD", "ENTRY_REMOVE", "SUBSCRIBE", "UNSUBSCRIBE",
      "COORD_REFRESH", "COORD_FIRST_REFRESH"].contains marker.type then 1 / 4
  else 1

theorem markerScores_eq (marker : Marker) :
    markerScores marker =
      ((effectiveMarkerActionRefs marker).1.toList.map fun id => (id, markerWeight marker)) ++
        if namesSecondaryActions marker then
          (effectiveMarkerActionRefs marker).2.map fun id => (id, markerWeight marker * (4 / 5))
        else [] := by
  rw [markerScores, markerWeight]

theorem markerScores_rename (h : NamedIn ids marker) :
    markerScores (marker.rename r) = (markerScores marker).map (Prod.map r id) := by
  have hweight : markerWeight (marker.rename r) = markerWeight marker := rfl
  rw [markerScores_eq, effectiveMarkerActionRefs_rename r h, hweight, namesSecondaryActions_rename,
    markerScores_eq, Prod.map_fst, Prod.map_snd]
  cases (effectiveMarkerActionRefs marker).1 <;> cases namesSecondaryActions marker <;> simp

theorem mem_markerScores (h : NamedIn ids marker) : ∀ row ∈ markerScores marker, row.1 ∈ ids := by
  intro row hrow
  rw [markerScores_eq] at hrow
  rcases List.mem_append.1 hrow with hrow | hrow
  · obtain ⟨id, hid, rfl⟩ := List.mem_map.1 hrow
    exact h.primary_mem (Option.mem_toList.1 hid)
  · cases hnames : namesSecondaryActions marker with
    | false => simp [hnames] at hrow
    | true =>
      rw [hnames, if_pos rfl] at hrow
      obtain ⟨id, hid, rfl⟩ := List.mem_map.1 hrow
      exact h.secondary_mem id hid

/-- The scores that the markers of some nodes give, before they are added up. -/
def singleScores (nodeIds : List String) (graph : ReducedGraph)
    (markersById : OrderedDict String Marker) : List (String × ℚ) :=
  nodeIds.flatMap fun nodeId =>
    (((graph.nodes.get? nodeId).map GraphNode.markerRefs).getD []).flatMap fun markerId =>
      ((markersById.get? markerId).map markerScores).getD []

/-- The sum of the scores of an action. -/
def scoreOf (scores : List (String × ℚ)) (actionId : String) : ℚ :=
  ((scores.filter (·.1 = actionId)).map (·.2)).sum

theorem actionOwnershipScore_eq (nodeIds : List String) (graph : ReducedGraph)
    (markersById : OrderedDict String Marker) :
    actionOwnershipScore nodeIds graph markersById =
      ((singleScores nodeIds graph markersById).map (·.1)).eraseDups.map fun actionId =>
        (actionId, scoreOf (singleScores nodeIds graph markersById) actionId) := rfl

/-- The markers of a dictionary name some ids only. -/
def MarkersIn (ids : List String) (markersById : OrderedDict String Marker) : Prop :=
  ∀ markerId marker, markersById.get? markerId = some marker → NamedIn ids marker

theorem singleScores_rename (h : MarkersIn ids markersById) (nodeIds : List String)
    (graph : ReducedGraph) :
    singleScores nodeIds graph (renameMarkers r markersById) =
      (singleScores nodeIds graph markersById).map (Prod.map r id) := by
  have hscores : ∀ markerId, (((renameMarkers r markersById).get? markerId).map markerScores).getD [] =
      (((markersById.get? markerId).map markerScores).getD []).map (Prod.map r id) := by
    intro markerId
    rw [get?_renameMarkers]
    cases hmarker : markersById.get? markerId with
    | none => rfl
    | some marker => exact markerScores_rename r (h markerId marker hmarker)
  simp only [singleScores, hscores, List.map_flatMap]

theorem scoreOf_rename (scores : List (String × ℚ)) (actionId : String) :
    scoreOf (scores.map (Prod.map r id)) (r actionId) = scoreOf scores actionId := by
  rw [scoreOf, List.filter_map, List.map_map, scoreOf]
  congr 2
  refine List.filter_congr fun row _ => ?_
  simp

theorem actionOwnershipScore_rename (h : MarkersIn ids markersById) (nodeIds : List String)
    (graph : ReducedGraph) :
    actionOwnershipScore nodeIds graph (renameMarkers r markersById) =
      (actionOwnershipScore nodeIds graph markersById).map (Prod.map r id) := by
  have hkeys : ((singleScores nodeIds graph markersById).map (Prod.map r id)).map (·.1) =
      ((singleScores nodeIds graph markersById).map (·.1)).map r := by simp
  rw [actionOwnershipScore_eq, singleScores_rename r h, hkeys,
    List.eraseDups_map_of_injective r.injective, actionOwnershipScore_eq, List.map_map,
    List.map_map]
  refine List.map_congr_left fun actionId _ => ?_
  rw [Function.comp_apply, Function.comp_apply, scoreOf_rename]
  rfl

theorem mem_actionOwnershipScore (h : MarkersIn ids markersById) {nodeIds : List String}
    {graph : ReducedGraph} : ∀ row ∈ actionOwnershipScore nodeIds graph markersById, row.1 ∈ ids := by
  intro row hrow
  rw [actionOwnershipScore_eq] at hrow
  obtain ⟨actionId, hid, rfl⟩ := List.mem_map.1 hrow
  rw [List.mem_eraseDups] at hid
  obtain ⟨single, hsingle, rfl⟩ := List.mem_map.1 hid
  obtain ⟨nodeId, -, hsingle⟩ := List.mem_flatMap.1 hsingle
  obtain ⟨markerId, -, hsingle⟩ := List.mem_flatMap.1 hsingle
  cases hmarker : markersById.get? markerId with
  | none => simp [hmarker] at hsingle
  | some marker =>
    rw [hmarker] at hsingle
    exact mem_markerScores (h markerId marker hmarker) single hsingle

/-- The actions with the highest scores first. -/
def rankedScores (ownership : List (String × ℚ)) : List (String × ℚ) :=
  sortedBy (fun row => (toLex (-row.2, row.1) : ℚ ×ₗ String)) ownership

theorem rankedScores_rename {ownership : List (String × ℚ)} (h : ∀ row ∈ ownership, row.1 ∈ ids) :
    rankedScores (ownership.map (Prod.map r id)) = (rankedScores ownership).map (Prod.map r id) := by
  refine (List.map_insertionSort _ _ _ _ fun a ha b hb => ?_).symm
  simp only [Prod.map_fst, Prod.map_snd, id, Prod.Lex.toLex_le_toLex,
    r.strictMonoOn.le_iff_le (h a ha) (h b hb)]

end Scores

/-! ## The binding after a look at the nodes -/

section Refine

variable {ids : List String} (r : Renaming ids) (marker : Marker) (index : OrderedDict String Dict)
  (binding : Binding)

@[simp] theorem primaryOf_rename : primaryOf (binding.rename r) = r (primaryOf binding) :=
  r.strip_getD _

@[simp] theorem supportsMultiActionBinding_rename :
    supportsMultiActionBinding (binding.rename r) = supportsMultiActionBinding binding := rfl

theorem filter_known_map (l : List String) :
    (l.map r).filter (known (renameIndex r index)) = (l.filter (known index)).map r := by
  rw [List.filter_map]
  exact congrArg (List.map r)
    (List.filter_congr fun id _ => by rw [Function.comp_apply, known_renameIndex])

theorem explicitRefs_rename :
    explicitRefs (renameIndex r index) (binding.rename r) = (explicitRefs index binding).map r := by
  have hrefs : primaryOf (binding.rename r) :: trimmed (binding.rename r).secondaryActionRefs =
      (primaryOf binding :: trimmed binding.secondaryActionRefs).map r := by
    rw [primaryOf_rename, List.map_cons, ← r.trimmed_map]
    rfl
  rw [explicitRefs, hrefs, List.filter_map, explicitRefs]
  refine congrArg (List.map r) (List.filter_congr fun id _ => ?_)
  simp

theorem known_of_mem_explicitRefs {actionId : String} (h : actionId ∈ explicitRefs index binding) :
    known index actionId := by
  have h := (List.mem_filter.1 h).2
  rw [Bool.and_eq_true] at h
  exact h.2

@[simp] theorem preserveExplicitProfileBinding_rename :
    preserveExplicitProfileBinding (marker.rename r) (binding.rename r) =
      preserveExplicitProfileBinding marker binding := by
  have hprimary : strip ((binding.rename r).primaryActionRef.getD "") =
      r (strip (binding.primaryActionRef.getD "")) := r.strip_getD _
  simp only [preserveExplicitProfileBinding, hprimary, ne_eq, r.eq_blank]
  rfl

@[simp] theorem preservesWriteback_rename :
    preservesWriteback (marker.rename r) (renameIndex r index) (binding.rename r) =
      preservesWriteback marker index binding := by
  simp only [preservesWriteback, primaryOf_rename, getD_get?_renameIndex, ne_eq, r.eq_blank,
    protocolOf_renameAction, laneTagForAction_renameAction, type_rename]
  rfl

theorem bindTo_rename (primary : Option String) (secondary : List String) :
    bindTo (binding.rename r) (primary.map r) (secondary.map r) =
      (bindTo binding primary secondary).rename r := by
  rw [bindTo, bindTo, supportsMultiActionBinding_rename]
  cases supportsMultiActionBinding binding <;> cases primary <;> simp [Binding.rename]

/-- The other actions of a binding to the action with the highest score. -/
def ownerSecondary (primaryAction : String) (maxScore : ℚ) (rest : List (String × ℚ)) :
    List String :=
  ((explicitRefs index binding).filter (· ≠ primaryAction) ++
    (rest.filter fun row => known index row.1 && decide (maxScore - 1 / 4 ≤ row.2)).map (·.1)).filter
      fun actionId => decide (actionId ≠ "") && known index actionId &&
        decide (actionId ≠ primaryAction)

theorem bindToOwner_cons (primaryAction : String) (maxScore : ℚ) (rest : List (String × ℚ)) :
    bindToOwner index binding ((primaryAction, maxScore) :: rest) =
      bindTo binding (if known index primaryAction then some primaryAction else none)
        (sortedSet (ownerSecondary index binding primaryAction maxScore rest)) := by
  rw [bindToOwner, ownerSecondary]

theorem known_of_mem_ownerSecondary {primaryAction actionId : String} {maxScore : ℚ}
    {rest : List (String × ℚ)}
    (h : actionId ∈ ownerSecondary index binding primaryAction maxScore rest) :
    known index actionId := by
  have h := (List.mem_filter.1 h).2
  rw [Bool.and_eq_true, Bool.and_eq_true] at h
  exact h.1.2

theorem ownerSecondary_rename (primaryAction : String) (maxScore : ℚ)
    (rest : List (String × ℚ)) :
    ownerSecondary (renameIndex r index) (binding.rename r) (r primaryAction) maxScore
        (rest.map (Prod.map r id)) =
      (ownerSecondary index binding primaryAction maxScore rest).map r := by
  have hpreferred : ((explicitRefs index binding).map r).filter (· ≠ r primaryAction) =
      ((explicitRefs index binding).filter (· ≠ primaryAction)).map r := by
    rw [List.filter_map]
    refine congrArg (List.map r) (List.filter_congr fun id _ => ?_)
    simp
  have hownership : (((rest.map (Prod.map r id)).filter fun row =>
        known (renameIndex r index) row.1 && decide (maxScore - 1 / 4 ≤ row.2)).map (·.1)) =
      ((rest.filter fun row =>
        known index row.1 && decide (maxScore - 1 / 4 ≤ row.2)).map (·.1)).map r := by
    rw [List.filter_map, List.map_map, List.map_map]
    have hfilter : rest.filter ((fun row : String × ℚ =>
          known (renameIndex r index) row.1 && decide (maxScore - 1 / 4 ≤ row.2)) ∘ Prod.map r id) =
        rest.filter fun row => known index row.1 && decide (maxScore - 1 / 4 ≤ row.2) :=
      List.filter_congr fun row _ => by simp
    rw [hfilter]
    exact List.map_congr_left fun row _ => rfl
  rw [ownerSecondary, explicitRefs_rename, hpreferred, hownership, ← List.map_append,
    List.filter_map, ownerSecondary]
  refine congrArg (List.map r) (List.filter_congr fun id _ => ?_)
  simp

variable {index}

theorem bindToOwner_rename (hindex : ∀ id, known index id → id ∈ ids)
    (ranked : List (String × ℚ)) :
    bindToOwner (renameIndex r index) (binding.rename r) (ranked.map (Prod.map r id)) =
      (bindToOwner index binding ranked).rename r := by
  rcases ranked with _ | ⟨⟨primaryAction, maxScore⟩, rest⟩
  · rfl
  · have hprimary : (if known (renameIndex r index) (r primaryAction) then some (r primaryAction)
        else none) = (if known index primaryAction then some primaryAction else none).map r := by
      rw [known_renameIndex]
      split_ifs <;> rfl
    have hcons : ((primaryAction, maxScore) :: rest).map (Prod.map r id) =
        (r primaryAction, maxScore) :: rest.map (Prod.map r id) := rfl
    rw [hcons, bindToOwner_cons, hprimary, ownerSecondary_rename, r.sortedSet_map, bindTo_rename,
      bindToOwner_cons]
    exact fun id hid => hindex id (known_of_mem_ownerSecondary index binding hid)

/-- The binding to the writeback action that a marker names. -/
def bindWriteback (index : OrderedDict String Dict) (binding : Binding) (explicit : Option String) :
    Binding :=
  let secondary := if supportsMultiActionBinding binding then binding.secondaryActionRefs else []
  { binding with
    primaryActionRef := explicit
    secondaryActionRefs := secondary
    actionRefs := (explicit.toList ++ secondary).filter (known index ·) }

theorem bindWriteback_rename (explicit : Option String) :
    bindWriteback (renameIndex r index) (binding.rename r) (explicit.map r) =
      (bindWriteback index binding explicit).rename r := by
  have hsecondary : (if supportsMultiActionBinding (binding.rename r) then
        (binding.rename r).secondaryActionRefs else []) =
      (if supportsMultiActionBinding binding then binding.secondaryActionRefs else []).map r := by
    rw [supportsMultiActionBinding_rename]
    split_ifs <;> rfl
  have hrefs : (explicit.map r).toList ++ (if supportsMultiActionBinding binding then
        binding.secondaryActionRefs else []).map r =
      (explicit.toList ++ if supportsMultiActionBinding binding then
        binding.secondaryActionRefs else []).map r := by
    cases explicit <;> simp
  simp only [bindWriteback, hsecondary, hrefs, filter_known_map]
  rfl

/-- The primary action of a binding, if it is an action of the target. -/
def explicitPrimary (index : OrderedDict String Dict) (binding : Binding) : Option String :=
  if known index (primaryOf binding) then some (primaryOf binding) else none

theorem explicitPrimary_rename :
    explicitPrimary (renameIndex r index) (binding.rename r) =
      (explicitPrimary index binding).map r := by
  rw [explicitPrimary, primaryOf_rename, known_renameIndex, explicitPrimary]
  split_ifs <;> rfl

theorem rebind_eq (marker : Marker) (index : OrderedDict String Dict) (binding : Binding)
    (ownership : List (String × ℚ)) :
    rebind marker index binding ownership =
      if preserveExplicitProfileBinding marker binding then
        bindTo binding (explicitPrimary index binding)
          ((explicitRefs index binding).filter fun actionId =>
            some actionId ≠ explicitPrimary index binding)
      else if !ownership.isEmpty && !isPolicyOnlySharedMarker marker.type &&
          !preservesWriteback marker index binding then
        bindToOwner index binding (rankedScores ownership)
      else if preservesWriteback marker index binding then
        bindWriteback index binding (explicitPrimary index binding)
      else binding := by
  rw [rebind, rankedScores]
  rfl

theorem rebind_rename (hindex : ∀ id, known index id → id ∈ ids)
    {ownership : List (String × ℚ)} (hownership : ∀ row ∈ ownership, row.1 ∈ ids) :
    rebind (marker.rename r) (renameIndex r index) (binding.rename r)
        (ownership.map (Prod.map r id)) =
      (rebind marker index binding ownership).rename r := by
  have hothers : ∀ explicit : Option String, ((explicitRefs index binding).map r).filter
        (fun actionId => some actionId ≠ explicit.map r) =
      ((explicitRefs index binding).filter fun actionId => some actionId ≠ explicit).map r := by
    intro explicit
    rw [List.filter_map]
    refine congrArg (List.map r) (List.filter_congr fun id _ => ?_)
    cases explicit <;> simp
  simp only [rebind_eq, explicitPrimary_rename, preserveExplicitProfileBinding_rename, preservesWriteback_rename,
    explicitRefs_rename, hothers, bindTo_rename, List.isEmpty_map, type_rename,
    rankedScores_rename r hownership, bindToOwner_rename r binding hindex, bindWriteback_rename]
  split_ifs <;> rfl

@[simp] theorem clearActionBinding_rename :
    clearActionBinding (binding.rename r) = (clearActionBinding binding).rename r := rfl

theorem yieldToPeer_rename {markersById : OrderedDict String Marker} (h : NamedIn ids marker)
    (hpeers : ∀ peer ∈ markersById.values, NamedIn ids peer) :
    yieldToPeer (marker.rename r) (renameMarkers r markersById) (binding.rename r) =
      (yieldToPeer marker markersById binding).rename r := by
  have hgeneric : isGenericProtocolMarker (marker.rename r).type =
      isGenericProtocolMarker marker.type := rfl
  have hsignal : markerHasSpecificActionSignal (marker.rename r) =
      markerHasSpecificActionSignal marker := rfl
  simp only [yieldToPeer, primaryOf_rename, ne_eq, r.eq_blank, hgeneric, hsignal,
    hasMoreSpecificProtocolPeer_rename r h _ _ hpeers, clearActionBinding_rename]
  split_ifs <;> rfl

theorem clearForeignWrite_rename :
    clearForeignWrite (marker.rename r) (renameIndex r index) (binding.rename r) =
      (clearForeignWrite marker index binding).rename r := by
  have hlane : (binding.rename r).laneTag = binding.laneTag := rfl
  simp only [clearForeignWrite, hlane, primaryOf_rename, getD_get?_renameIndex,
    protocolOf_renameAction, type_rename, clearActionBinding_rename]
  split_ifs <;> rfl

theorem tagPrimary_rename :
    tagPrimary (renameIndex r index) (binding.rename r) = (tagPrimary index binding).rename r := by
  have hlane : ((index.get? (primaryOf binding)).map (renameAction r)).bind laneTagForAction =
      (index.get? (primaryOf binding)).bind laneTagForAction := by
    cases index.get? (primaryOf binding) <;> simp
  have hresource : ((index.get? (primaryOf binding)).map (renameAction r)).bind
      Mssu.resourceInstanceTag = (index.get? (primaryOf binding)).bind Mssu.resourceInstanceTag := by
    cases index.get? (primaryOf binding) <;> simp
  simp only [tagPrimary, primaryOf_rename, r.eq_blank, get?_renameIndex, hlane, hresource,
    isAggregateSinkAction_rename]
  split_ifs <;> rfl

/-- A shared binding without an action has nothing of an action. -/
def clearUnowned (refined : Binding) : Binding :=
  if refined.isSharedInfra ∧ refined.primaryActionRef.getD "" = "" then clearActionBinding refined
  else refined

theorem clearUnowned_rename : clearUnowned (binding.rename r) = (clearUnowned binding).rename r := by
  have hshared : (binding.rename r).isSharedInfra = binding.isSharedInfra := rfl
  have hprimary : (binding.rename r).primaryActionRef.getD "" = "" ↔
      binding.primaryActionRef.getD "" = "" := by
    show (binding.primaryActionRef.map r).getD "" = "" ↔ _
    cases binding.primaryActionRef <;> simp
  simp only [clearUnowned, hshared, hprimary, clearActionBinding_rename]
  split_ifs <;> rfl

theorem refineBindingFromClosure_eq (marker : Marker) (nodeIds : List String)
    (graph : ReducedGraph) (markersById : OrderedDict String Marker)
    (target : Option OptimizationTarget) (binding : Binding) :
    refineBindingFromClosure marker nodeIds graph markersById target binding =
      let index := actionIndex target
      let refined := rebind marker index binding (actionOwnershipScore nodeIds graph markersById)
      let refined :=
        if isPolicyOnlySharedMarker marker.type then clearActionBinding refined else refined
      tagPrimary index (clearUnowned (clearForeignWrite marker index
        (yieldToPeer marker markersById refined))) := by
  rw [refineBindingFromClosure]
  rfl

/-- The refined binding of a renamed marker is the renamed refined binding. -/
theorem refineBindingFromClosure_rename {markersById : OrderedDict String Marker}
    {target : Option OptimizationTarget} (h : NamedIn ids marker)
    (hmarkers : MarkersIn ids markersById) (hactions : ActionsIn ids target)
    (nodeIds : List String) (graph : ReducedGraph) :
    refineBindingFromClosure (marker.rename r) nodeIds graph (renameMarkers r markersById)
        (target.map (renameTarget r)) (binding.rename r) =
      (refineBindingFromClosure marker nodeIds graph markersById target binding).rename r := by
  have hindex : actionIndex (target.map (renameTarget r)) = renameIndex r (actionIndex target) :=
    actionIndex_rename r target
  have hknown : ∀ id, known (actionIndex target) id → id ∈ ids :=
    fun id hid => hactions id (mem_of_known hid)
  have hpeers : ∀ peer ∈ markersById.values, NamedIn ids peer := by
    intro peer hpeer
    obtain ⟨row, hrow, rfl⟩ := List.mem_map.1 hpeer
    exact hmarkers row.1 row.2 (OrderedDict.get?_of_mem_rows hrow)
  have hcleared : ∀ refined : Binding, (if isPolicyOnlySharedMarker marker.type then
        (clearActionBinding refined).rename r else refined.rename r) =
      (if isPolicyOnlySharedMarker marker.type then clearActionBinding refined
        else refined).rename r := by
    intro refined
    split_ifs <;> rfl
  simp only [refineBindingFromClosure_eq, hindex, actionOwnershipScore_rename r hmarkers,
    rebind_rename r marker binding hknown (mem_actionOwnershipScore hmarkers), type_rename,
    clearActionBinding_rename, hcleared, yieldToPeer_rename r marker _ h hpeers,
    clearForeignWrite_rename, clearUnowned_rename, tagPrimary_rename]

end Refine

/-! ## Known actions -/

section Known

variable {marker : Marker} {index : OrderedDict String Dict} {binding : Binding}

theorem known_clearActionBinding : (clearActionBinding binding).Known index :=
  ⟨by simp [clearActionBinding], by simp [clearActionBinding]⟩

theorem known_bindTo {primary : Option String} {secondary : List String}
    (hprimary : ∀ id ∈ primary, known index id) (hsecondary : ∀ id ∈ secondary, known index id) :
    (bindTo binding primary secondary).Known index := by
  have hkept : ∀ id ∈ (if supportsMultiActionBinding binding then secondary else []),
      known index id := by
    split_ifs
    · exact hsecondary
    · exact fun id hid => absurd hid List.not_mem_nil
  refine ⟨hkept, fun id hid => ?_⟩
  rcases List.mem_append.1 hid with hid | hid
  · exact hprimary id (Option.mem_toList.1 hid)
  · exact hkept id hid

theorem known_ite {actionId : String} :
    ∀ id ∈ (if known index actionId then some actionId else none), known index id := by
  intro id hid
  split_ifs at hid with h
  · obtain rfl := Option.some.inj hid
    exact h
  · cases hid

theorem known_bindToOwner (h : binding.Known index) (ranked : List (String × ℚ)) :
    (bindToOwner index binding ranked).Known index := by
  rcases ranked with _ | ⟨⟨primaryAction, maxScore⟩, rest⟩
  · exact h
  · rw [bindToOwner_cons]
    exact known_bindTo known_ite fun id hid =>
      known_of_mem_ownerSecondary index binding (mem_sortedSet.1 hid)

theorem known_bindWriteback (h : binding.Known index) (explicit : Option String) :
    (bindWriteback index binding explicit).Known index := by
  refine ⟨fun id hid => ?_, fun id hid => (List.mem_filter.1 hid).2⟩
  have hid : id ∈ (if supportsMultiActionBinding binding then binding.secondaryActionRefs else []) :=
    hid
  split_ifs at hid
  · exact h.1 id hid
  · cases hid

theorem known_rebind (marker : Marker) (h : binding.Known index) (ownership : List (String × ℚ)) :
    (rebind marker index binding ownership).Known index := by
  rw [rebind_eq]
  split_ifs
  · exact known_bindTo known_ite fun id hid =>
      known_of_mem_explicitRefs index binding (List.mem_of_mem_filter hid)
  · exact known_bindToOwner h _
  · exact known_bindWriteback h _
  · exact h

theorem known_clear {p : Prop} [Decidable p] (h : binding.Known index) :
    (if p then clearActionBinding binding else binding).Known index := by
  split_ifs
  · exact known_clearActionBinding
  · exact h

theorem known_yieldToPeer (h : binding.Known index) (markersById : OrderedDict String Marker) :
    (yieldToPeer marker markersById binding).Known index := by
  rw [yieldToPeer]
  exact known_clear h

theorem known_clearForeignWrite (h : binding.Known index) :
    (clearForeignWrite marker index binding).Known index := by
  simp only [clearForeignWrite]
  exact known_clear h

theorem known_clearUnowned (h : binding.Known index) : (clearUnowned binding).Known index := by
  rw [clearUnowned]
  exact known_clear h

theorem known_tagPrimary (h : binding.Known index) : (tagPrimary index binding).Known index := by
  rw [tagPrimary]
  split_ifs
  · exact h
  · exact h

/-- A refined binding names actions of the target only. -/
theorem refineBindingFromClosure_known {target : Option OptimizationTarget}
    (h : binding.Known (actionIndex target)) (nodeIds : List String) (graph : ReducedGraph)
    (markersById : OrderedDict String Marker) :
    (refineBindingFromClosure marker nodeIds graph markersById target binding).Known
      (actionIndex target) := by
  rw [refineBindingFromClosure_eq]
  have hrebind := known_clear (p := isPolicyOnlySharedMarker marker.type)
    (known_rebind marker h (actionOwnershipScore nodeIds graph markersById))
  exact known_tagPrimary (known_clearUnowned (known_clearForeignWrite
    (known_yieldToPeer hrebind markersById)))

end Known

end FloWeaver.Mssu
