import FloWeaver.Lib.OrderedDict
import FloWeaver.Mssu.Compact

/-!
# Renamed actions

A renaming gives every action another id and keeps the order of the ids.  It is applied to the
actions of the target and to the ids that the markers name.  This module follows it through the
functions that look at one marker.

* `Renaming` — an injective map of ids that keeps the order of some of them.
* `Marker.rename`, `renameTarget`, `BuildInput.rename`, `BuiltMSSU.rename` — renamed records.
* `effectiveMarkerActionRefs_rename` — a renamed marker names the renamed actions.
* `filterActionLocalNodes_rename` — the same nodes are kept.
-/

namespace FloWeaver.Mssu

open Py

/-- Sorting renamed elements is renaming the elements sorted by their new keys. -/
theorem sortedBy_map {α β κ : Type} [LinearOrder κ] (f : α → β) (key : β → κ) (l : List α) :
    sortedBy key (l.map f) = (sortedBy (key ∘ f) l).map f :=
  (List.map_insertionSort _ _ f l fun _ _ _ _ => Iff.rfl).symm

/-! ## Renamings -/

/-- An injective map of ids that keeps blanks around an id, and the order of some ids.  The texts
for a missing id stay as they are. -/
structure Renaming (ids : List String) where
  toFun : String → String
  injective : Function.Injective toFun
  strictMonoOn : StrictMonoOn toFun {id | id ∈ ids}
  strip_comm : ∀ id, strip (toFun id) = toFun (strip id)
  blank : toFun "" = ""
  noneText : toFun "None" = "None"

namespace Renaming

variable {ids : List String} (r : Renaming ids)

instance : CoeFun (Renaming ids) fun _ => String → String := ⟨toFun⟩

@[simp] theorem eq_iff {a b : String} : r a = r b ↔ a = b := r.injective.eq_iff

@[simp] theorem eq_blank {a : String} : r a = "" ↔ a = "" := by
  have h := r.eq_iff (a := a) (b := "")
  rwa [r.blank] at h

@[simp] theorem contains_map (l : List String) (a : String) :
    (l.map r).contains (r a) = l.contains a :=
  List.contains_map_of_injective r.injective l a

@[simp] theorem trimmed_map (l : List String) : trimmed (l.map r) = (trimmed l).map r := by
  have hstrip : (l.map r).map strip = (l.map strip).map r := by
    simp only [List.map_map, List.map_inj_left, Function.comp_apply]
    exact fun a _ => r.strip_comm a
  rw [trimmed, hstrip, List.filter_map, trimmed]
  congr 2
  funext a
  simp

theorem sortedStr_map {l : List String} (hl : ∀ a ∈ l, a ∈ ids) :
    sortedStr (l.map r) = (sortedStr l).map r :=
  (List.map_insertionSort _ _ r l fun a ha b hb =>
    (r.strictMonoOn.le_iff_le (hl a ha) (hl b hb)).symm).symm

theorem sortedSet_map {l : List String} (hl : ∀ a ∈ l, a ∈ ids) :
    sortedSet (l.map r) = (sortedSet l).map r := by
  rw [sortedSet, List.dedup_map_of_injective r.injective, sortedSet]
  exact r.sortedStr_map fun a ha => hl a (List.mem_dedup.1 ha)

/-- A missing or blank id is renamed to itself. -/
theorem strip_getD (id : Option String) :
    strip ((id.map r).getD "") = r (strip (id.getD "")) := by
  cases id with
  | none => simp [strip, stripL, r.blank]
  | some id => exact r.strip_comm id

end Renaming

/-! ## Renamed records -/

section Records

variable {ids : List String} (r : Renaming ids)

/-- A marker that names the renamed actions. -/
def Marker.rename (marker : Marker) : Marker :=
  { marker with
    primaryActionId := marker.primaryActionId.map r
    secondaryActionIds := marker.secondaryActionIds.map r
    relatedActionIds := marker.relatedActionIds.map r }

/-- An action with the renamed id. -/
def renameAction (action : Dict) : Dict :=
  action.map fun row => if row.1 = "action_id" then (row.1, .str (r row.2.pyStr)) else row

/-- A target with renamed actions, as far as the builder reads it. -/
def renameTarget (target : OptimizationTarget) : OptimizationTarget :=
  { target with
    vdevActions := target.vdevActions.map (renameAction r)
    criticalActionIds := target.criticalActionIds.map r }

def BuildInput.rename (input : BuildInput) : BuildInput :=
  { input with
    markers := input.markers.map (Marker.rename r)
    target := input.target.map (renameTarget r) }

/-- An MSSU that is bound to the renamed actions. -/
def BuiltMSSU.rename (mssu : BuiltMSSU) : BuiltMSSU :=
  { mssu with
    primaryActionRef := mssu.primaryActionRef.map r
    secondaryActionRefs := mssu.secondaryActionRefs.map r
    actionRefs := mssu.actionRefs.map r }

def MSSUBuildResult.rename (result : MSSUBuildResult) : MSSUBuildResult :=
  { result with mssus := result.mssus.map (BuiltMSSU.rename r) }

end Records

/-- The ids that a marker names. -/
def markerActionIds (marker : Marker) : List String :=
  trimmed (marker.primaryActionId.toList ++ marker.secondaryActionIds ++ marker.relatedActionIds)

/-- The ids of the actions, and those that the markers name. -/
def BuildInput.actionIds (input : BuildInput) : List String :=
  ((input.target.map OptimizationTarget.vdevActions).getD []).map actionIdOf ++
    input.markers.flatMap markerActionIds

/-! ## Actions -/

section Actions

variable {ids : List String} (r : Renaming ids)

theorem get?_renameAction (action : Dict) (key : String) :
    Dict.get? (renameAction r action) key =
      if key = "action_id" then (Dict.get? action key).map fun value => .str (r value.pyStr)
      else Dict.get? action key := by
  induction action with
  | nil => simp [renameAction, Dict.get?]
  | cons row action ih =>
    have ih : Dict.get? (action.map fun row =>
        if row.1 = "action_id" then (row.1, .str (r row.2.pyStr)) else row) key = _ := ih
    rw [renameAction, List.map_cons, Dict.get?_cons, ih, Dict.get?_cons]
    by_cases hkey : key = "action_id"
    · by_cases hrow : row.1 = "action_id"
      · simp [hkey, hrow]
      · simp [hkey, hrow]
    · by_cases hrow : row.1 = "action_id"
      · simp [hkey, hrow, Ne.symm hkey]
      · simp [hkey, hrow]

/-- Every field but the id stays. -/
theorem getD_renameAction {key : String} (hkey : key ≠ "action_id") (action : Dict)
    (default : Val) : Dict.getD (renameAction r action) key default = Dict.getD action key default := by
  rw [Dict.getD, get?_renameAction, if_neg hkey, Dict.getD]

@[simp] theorem actionIdOf_renameAction (action : Dict) :
    actionIdOf (renameAction r action) = r (actionIdOf action) := by
  rw [actionIdOf, Dict.getD, get?_renameAction, if_pos rfl, actionIdOf, Dict.getD]
  cases Dict.get? action "action_id" with
  | none => exact (r.strip_getD none)
  | some value => exact r.strip_comm value.pyStr

@[simp] theorem protocolOf_renameAction (action : Dict) :
    protocolOf (renameAction r action) = protocolOf action := by
  rw [protocolOf, getD_renameAction r (by decide), protocolOf]

theorem target_renameAction (action : Dict) :
    Scheduler.target (renameAction r action) = Scheduler.target action := by
  rw [Scheduler.target, Dict.get, get?_renameAction, if_neg (by decide), Scheduler.target, Dict.get]

@[simp] theorem entityOf_renameAction (action : Dict) :
    entityOf (renameAction r action) = entityOf action := by
  rw [entityOf, target_renameAction, entityOf]

@[simp] theorem laneTagForAction_renameAction (action : Dict) :
    laneTagForAction (renameAction r action) = laneTagForAction action := by
  simp only [laneTagForAction, protocolOf_renameAction, entityOf_renameAction]

@[simp] theorem resourceInstanceTag_renameAction (action : Dict) :
    resourceInstanceTag (renameAction r action) = resourceInstanceTag action := by
  rw [resourceInstanceTag, target_renameAction, resourceInstanceTag]

@[simp] theorem isAggregateSinkAction_rename (action : Option Dict) :
    isAggregateSinkAction (action.map (renameAction r)) = isAggregateSinkAction action := by
  cases action <;> simp [isAggregateSinkAction]

/-- The actions of the renamed target are the renamed actions. -/
theorem actionIndex_rename (target : Option OptimizationTarget) :
    actionIndex (target.map (renameTarget r)) =
      (actionIndex target).map r r.injective (renameAction r) := by
  rw [actionIndex, actionIndex, ← OrderedDict.ofList_map]
  congr 1
  have hactions : ((target.map (renameTarget r)).map OptimizationTarget.vdevActions).getD [] =
      ((target.map OptimizationTarget.vdevActions).getD []).map (renameAction r) := by
    cases target <;> rfl
  generalize (target.map OptimizationTarget.vdevActions).getD [] = actions at hactions
  have hrows : (actions.map (renameAction r)).map (fun action => (actionIdOf action, action)) =
      (actions.map fun action => (actionIdOf action, action)).map
        (Prod.map r (renameAction r)) := by simp
  rw [hactions, hrows, List.filter_map]
  congr 2
  funext row
  simp

end Actions

/-! ## Markers -/

section Markers

variable {ids : List String} (r : Renaming ids) (marker : Marker)

@[simp] theorem type_rename : (marker.rename r).type = marker.type := rfl

@[simp] theorem markerSupportsGeneralizedSecondaryBinding_rename :
    markerSupportsGeneralizedSecondaryBinding (marker.rename r) =
      markerSupportsGeneralizedSecondaryBinding marker := by
  have hsecondary : trimmed (marker.rename r).secondaryActionIds =
      (trimmed marker.secondaryActionIds).map r := r.trimmed_map _
  simp only [markerSupportsGeneralizedSecondaryBinding, hsecondary, List.isEmpty_map]
  rfl

@[simp] theorem markerIsSharedInfra_rename :
    markerIsSharedInfra (marker.rename r) = markerIsSharedInfra marker := by
  have hempty : (marker.rename r).secondaryActionIds.isEmpty = marker.secondaryActionIds.isEmpty :=
    List.isEmpty_map
  simp only [markerIsSharedInfra, markerSupportsGeneralizedSecondaryBinding_rename, hempty,
    type_rename]
  rfl

@[simp] theorem namesSecondaryActions_rename :
    namesSecondaryActions (marker.rename r) = namesSecondaryActions marker := by
  simp [namesSecondaryActions]

@[simp] theorem primaryText_rename :
    primaryText (marker.rename r) = r (primaryText marker) := by
  rw [primaryText, primaryText, Marker.rename]
  cases marker.primaryActionId with
  | none =>
    have h := r.strip_comm "None"
    rwa [r.noneText] at h
  | some id => exact r.strip_comm id

/-- The dictionary of the renamed markers. -/
def renameMarkers (markersById : OrderedDict String Marker) : OrderedDict String Marker :=
  markersById.map id Function.injective_id (Marker.rename r)

@[simp] theorem get?_renameMarkers (markersById : OrderedDict String Marker) (markerId : String) :
    (renameMarkers r markersById).get? markerId = (markersById.get? markerId).map (Marker.rename r) :=
  OrderedDict.get?_map Function.injective_id _ _ markerId

@[simp] theorem values_renameMarkers (markersById : OrderedDict String Marker) :
    (renameMarkers r markersById).values = markersById.values.map (Marker.rename r) :=
  OrderedDict.values_map Function.injective_id _ _

variable {marker}

/-- The ids that a marker names are among some ids. -/
def NamedIn (ids : List String) (marker : Marker) : Prop := ∀ id ∈ markerActionIds marker, id ∈ ids

theorem NamedIn.trimmed_mem (h : NamedIn ids marker) {texts : List String}
    (htexts : ∀ text ∈ texts, text ∈ marker.secondaryActionIds ∨ text ∈ marker.relatedActionIds) :
    ∀ id ∈ trimmed texts, id ∈ ids := by
  intro id hid
  refine h id ?_
  obtain ⟨hid, hblank⟩ := List.mem_filter.1 hid
  obtain ⟨text, htext, rfl⟩ := List.mem_map.1 hid
  refine List.mem_filter.2 ⟨List.mem_map_of_mem ?_, hblank⟩
  rcases htexts text htext with h | h <;> simp [h]

/-- The other actions of a marker, before they are sorted. -/
def otherActionRefs (marker : Marker) : List String :=
  if (trimmed marker.secondaryActionIds).isEmpty then (trimmed marker.relatedActionIds).drop 1
  else trimmed marker.secondaryActionIds

theorem NamedIn.other_mem (h : NamedIn ids marker) : ∀ id ∈ otherActionRefs marker, id ∈ ids := by
  intro id hid
  rw [otherActionRefs] at hid
  split_ifs at hid
  · exact h.trimmed_mem (fun _ => .inr) id (List.mem_of_mem_drop hid)
  · exact h.trimmed_mem (fun _ => .inl) id hid

theorem effectiveMarkerActionRefs_eq (marker : Marker) :
    effectiveMarkerActionRefs marker =
      (if strip (marker.primaryActionId.getD "") = "" then (trimmed marker.relatedActionIds).head?
        else some (strip (marker.primaryActionId.getD "")),
        sortedSet (otherActionRefs marker)) := by
  rw [effectiveMarkerActionRefs, otherActionRefs]

theorem effectiveMarkerActionRefs_rename (h : NamedIn ids marker) :
    effectiveMarkerActionRefs (marker.rename r) =
      Prod.map (·.map r) (·.map r) (effectiveMarkerActionRefs marker) := by
  have hprimary : strip ((marker.rename r).primaryActionId.getD "") =
      r (strip (marker.primaryActionId.getD "")) := r.strip_getD _
  have hlegacy : trimmed (marker.rename r).relatedActionIds =
      (trimmed marker.relatedActionIds).map r := r.trimmed_map _
  have hsecondary : trimmed (marker.rename r).secondaryActionIds =
      (trimmed marker.secondaryActionIds).map r := r.trimmed_map _
  have hother : otherActionRefs (marker.rename r) = (otherActionRefs marker).map r := by
    simp only [otherActionRefs, hsecondary, hlegacy, List.isEmpty_map, ← List.map_drop]
    split_ifs <;> rfl
  rw [effectiveMarkerActionRefs_eq, effectiveMarkerActionRefs_eq, hprimary, hlegacy, hother,
    r.sortedSet_map h.other_mem]
  refine Prod.ext ?_ rfl
  simp only [r.eq_blank, List.head?_map, Prod.map_fst]
  split_ifs <;> rfl

theorem effectiveMarkerActionRefSet_rename (h : NamedIn ids marker) :
    effectiveMarkerActionRefSet (marker.rename r) =
      (effectiveMarkerActionRefSet marker).map r := by
  have hrefs := effectiveMarkerActionRefs_rename r h
  simp only [effectiveMarkerActionRefSet, hrefs, namesSecondaryActions_rename, ← r.trimmed_map,
    Prod.map_fst, Prod.map_snd]
  cases (effectiveMarkerActionRefs marker).1 <;> cases namesSecondaryActions marker <;> simp

theorem hasMoreSpecificProtocolPeer_rename (h : NamedIn ids marker) (actionId : String)
    (markersById : OrderedDict String Marker) (hpeers : ∀ peer ∈ markersById.values, NamedIn ids peer) :
    hasMoreSpecificProtocolPeer (marker.rename r) (r actionId)
        (renameMarkers r markersById) =
      hasMoreSpecificProtocolPeer marker actionId markersById := by
  rw [hasMoreSpecificProtocolPeer, hasMoreSpecificProtocolPeer, values_renameMarkers,
    List.any_map, Bool.eq_iff_iff, List.any_eq_true, List.any_eq_true]
  refine exists_congr fun peer => and_congr_right fun hpeer => ?_
  have hprimary : strip ((peer.rename r).primaryActionId.getD "") =
      r (strip (peer.primaryActionId.getD "")) := r.strip_getD _
  have hall : ((effectiveMarkerActionRefSet marker).map r).all
      (((effectiveMarkerActionRefSet peer).map r).contains ·) =
        (effectiveMarkerActionRefSet marker).all ((effectiveMarkerActionRefSet peer).contains ·) := by
    simp only [List.all_map, Function.comp_def, r.contains_map]
  simp only [Function.comp_apply, hprimary, r.eq_iff, type_rename,
    markerSupportsGeneralizedSecondaryBinding_rename, effectiveMarkerActionRefSet_rename r h,
    effectiveMarkerActionRefSet_rename r (hpeers peer hpeer), List.isEmpty_map, hall]
  rfl

end Markers

/-! ## Nodes -/

section Nodes

variable {ids : List String} (r : Renaming ids) {markersById : OrderedDict String Marker}

theorem markersById_rename (markers : List Marker) :
    Mssu.markersById (markers.map (Marker.rename r)) = renameMarkers r (Mssu.markersById markers) := by
  rw [renameMarkers, Mssu.markersById, Mssu.markersById, ← OrderedDict.ofList_map, List.map_map,
    List.map_map]
  rfl

theorem conflictsWith_rename (seedAction : String) (node : GraphNode) :
    conflictsWith (r seedAction) (renameMarkers r markersById) node =
      conflictsWith seedAction markersById node := by
  simp only [conflictsWith, get?_renameMarkers, Option.any_map, primaryText_rename, ne_eq,
    r.eq_blank, r.eq_iff, markerIsSharedInfra_rename]

/-- The words of the action are only looked up for nodes without markers, which are kept anyway. -/
theorem isActionLocal_eq (seedAction : String) (actionRow : Dict) :
    isActionLocal seedAction actionRow markersById = fun node =>
      node.markerRefs.isEmpty || !conflictsWith seedAction markersById node := by
  funext node
  rw [isActionLocal]
  cases node.markerRefs.isEmpty <;> cases conflictsWith seedAction markersById node <;> simp

/-- The same nodes are kept with a renamed action. -/
theorem filterActionLocalNodes_rename (marker : Marker) (nodeIds seedNodes : List String)
    (graph : ReducedGraph) (target : Option OptimizationTarget) :
    filterActionLocalNodes (marker.rename r) nodeIds seedNodes graph (renameMarkers r markersById)
        (target.map (renameTarget r)) =
      filterActionLocalNodes marker nodeIds seedNodes graph markersById target := by
  simp only [filterActionLocalNodes, primaryText_rename, r.eq_blank, markerIsSharedInfra_rename,
    isActionLocal_eq, conflictsWith_rename]

end Nodes

end FloWeaver.Mssu
