import FloWeaver.Mssu.Compaction
import FloWeaver.Mssu.RenamedBinding

/-!
# The builder under a renaming of actions

The builder compares action ids and sorts them, so that it builds the renamed MSSUs from a renamed
input.  One id has a meaning: a shared connection at tear-down is treated in its own way when its
action is called `A2`.

* `buildMssus_rename` — the MSSUs of the markers are renamed.
* `mergedMssus_rename`, `mergedCandidates_rename` — merging commutes with the renaming.
* `build_rename_iff` — the result is the renamed result if and only if no such connection enters
  or leaves the id `A2`.
-/

namespace FloWeaver.Mssu

open Py

/-! ## The input -/

section Input

variable {input : BuildInput}

theorem namedIn_of_mem {marker : Marker} (h : marker ∈ input.markers) :
    NamedIn input.actionIds marker :=
  fun _ hid => List.mem_append_right _ (List.mem_flatMap.2 ⟨marker, h, hid⟩)

theorem actionsIn_input : ActionsIn input.actionIds input.target :=
  fun _ hid => List.mem_append_left _ hid

theorem markersIn_input : MarkersIn input.actionIds (markersById input.markers) := by
  intro markerId marker h
  obtain ⟨row, hrow, hmarker⟩ := List.mem_map.1 (OrderedDict.mem_of_get?_ofList h)
  obtain rfl := congrArg Prod.snd hmarker
  exact namedIn_of_mem hrow

theorem mem_markers_of_seedNodes {markers : List Marker}
    {markerToNodes : OrderedDict String (List String)} {seed : Seed}
    (h : seed ∈ seedNodes markers markerToNodes) : seed.1 ∈ markers := by
  rw [seedNodes, mem_sortedBy] at h
  obtain ⟨marker, hmarker, rfl⟩ := List.mem_map.1 (List.mem_of_mem_filter h)
  exact List.mem_of_mem_filter hmarker

end Input

variable {ids : List String} (r : Renaming ids)

/-- The seeds of the renamed markers. -/
def renameSeed (seed : Seed) : Seed := (seed.1.rename r, seed.2)

/-- The order in which MSSUs are built. -/
def seedKey (seed : Seed) : ℕ ×ₗ ℕ ×ₗ ℤ ×ₗ String :=
  toLex ((if isTargetAnchor seed.1 then 0 else 1),
    toLex ((if seed.1.strength = "STRONG" then 0 else 1),
      toLex (seed.1.lineStart, seed.1.markerType)))

/-- The markers that are strong enough, with their nodes. -/
def seedRows (markers : List Marker) (markerToNodes : OrderedDict String (List String)) :
    List Seed :=
  (markers.filter fun marker => ["STRONG", "MEDIUM"].contains marker.strength).map fun marker =>
    (marker, ((markerToNodes.get? marker.markerId).getD []).eraseDups)

theorem seedNodes_eq (markers : List Marker) (markerToNodes : OrderedDict String (List String)) :
    seedNodes markers markerToNodes =
      sortedBy seedKey ((seedRows markers markerToNodes).filter fun seed => !seed.2.isEmpty) := rfl

theorem seedNodes_rename (markers : List Marker)
    (markerToNodes : OrderedDict String (List String)) :
    seedNodes (markers.map (Marker.rename r)) markerToNodes =
      (seedNodes markers markerToNodes).map (renameSeed r) := by
  have hrows : seedRows (markers.map (Marker.rename r)) markerToNodes =
      (seedRows markers markerToNodes).map (renameSeed r) := by
    rw [seedRows, List.filter_map, seedRows, List.map_map, List.map_map]
    rfl
  rw [seedNodes_eq, hrows, List.filter_map, seedNodes_eq, sortedBy_map]
  rfl

/-! ## One MSSU after the other -/

/-- The state of the builder with renamed MSSUs. -/
def BuildState.rename (s : BuildState) : BuildState :=
  { s with mssus := s.mssus.map (BuiltMSSU.rename r) }

section Build

variable {input : BuildInput} (r : Renaming input.actionIds)

theorem closedNodes_rename (assigned : List String) (seed : Seed) :
    (input.rename r).closedNodes assigned (renameSeed r seed) = input.closedNodes assigned seed := by
  have hmarkers : markersById (input.rename r).markers =
      renameMarkers r (markersById input.markers) := markersById_rename r input.markers
  have hexpand : expandClosure (input.rename r).graph (input.rename r).builder
      (seed.1.rename r) seed.2 = expandClosure input.graph input.builder seed.1 seed.2 := rfl
  have hborrow : ∀ closed overlap, borrowOverlapContext (input.rename r).graph (seed.1.rename r)
      closed overlap assigned = borrowOverlapContext input.graph seed.1 closed overlap assigned :=
    fun _ _ => rfl
  simp only [BuildInput.closedNodes, renameSeed, hmarkers, hexpand, hborrow]
  exact filterActionLocalNodes_rename r seed.1 _ _ _ input.target

theorem bindingFor_rename {marker : Marker} (h : marker ∈ input.markers) (nodeIds : List String) :
    (input.rename r).bindingFor (marker.rename r) nodeIds =
      (input.bindingFor marker nodeIds).map (Binding.rename r) := by
  have hmarkers : markersById (input.rename r).markers =
      renameMarkers r (markersById input.markers) := markersById_rename r input.markers
  have hbinding : actionBindingForMarker (marker.rename r) (input.rename r).target =
      (actionBindingForMarker marker input.target).map (Binding.rename r) :=
    actionBindingForMarker_rename r (namedIn_of_mem h) actionsIn_input
  rw [BuildInput.bindingFor, hbinding, hmarkers, BuildInput.bindingFor]
  cases actionBindingForMarker marker input.target with
  | error e => rfl
  | ok binding =>
    exact congrArg Except.ok (refineBindingFromClosure_rename r marker binding (namedIn_of_mem h)
      markersIn_input actionsIn_input nodeIds input.graph)

theorem assembleMssu_rename (mssuId : String) (marker : Marker) (nodeIds : List String)
    (io : NodeIO) (binding : Binding) :
    BuildInput.assembleMssu mssuId (marker.rename r) nodeIds io (binding.rename r) =
      (BuildInput.assembleMssu mssuId marker nodeIds io binding).rename r := by
  have hmarkerType : (marker.rename r).markerType = marker.markerType := rfl
  have hphase : phaseForMarker (marker.rename r) = phaseForMarker marker := rfl
  have hguards : requiredGuardsFor (marker.rename r) = requiredGuardsFor marker := by
    simp only [requiredGuardsFor, type_rename]
    rfl
  simp only [BuildInput.assembleMssu, hmarkerType, hphase, hguards, BuiltMSSU.rename,
    Binding.rename]

/-- The step of a renamed marker is the renamed step. -/
theorem buildStep_rename (s : BuildState) {seed : Seed} (h : seed.1 ∈ input.markers) (idx : ℕ) :
    (input.rename r).buildStep (s.rename r) (renameSeed r seed, idx) =
      (input.buildStep s (seed, idx)).map (BuildState.rename r) := by
  obtain ⟨marker, seeds⟩ := seed
  have hprune : ∀ closed extra, pruneToCap (input.rename r).graph (input.rename r).builder
      (marker.rename r) closed seeds extra =
        pruneToCap input.graph input.builder marker closed seeds extra := fun _ _ => rfl
  have hclosed : (input.rename r).closedNodes s.nodeOwner.keys (marker.rename r, seeds) =
      input.closedNodes s.nodeOwner.keys (marker, seeds) := closedNodes_rename r _ (marker, seeds)
  have hid : mssuIdText (input.rename r).mssuIdPrefix idx (marker.rename r) =
      mssuIdText input.mssuIdPrefix idx marker := rfl
  have howner : (s.rename r).nodeOwner = s.nodeOwner := rfl
  simp only [BuildInput.buildStep, renameSeed, howner, hclosed, hprune, hid]
  cases pruneToCap input.graph input.builder marker (input.closedNodes s.nodeOwner.keys
      (marker, seeds)) seeds (seeds.filter (s.nodeOwner.keys.contains ·)) with
  | error e => rfl
  | ok closed =>
    have hio : deriveIO (input.rename r).graph closed = deriveIO input.graph closed := rfl
    simp only [bind, Except.bind, hio, bindingFor_rename r h]
    cases deriveIO input.graph closed with
    | error e => rfl
    | ok io =>
      cases input.bindingFor marker closed with
      | error e => rfl
      | ok binding =>
        simp only [Except.map, assembleMssu_rename, BuildState.rename, List.map_append,
          List.map_cons, List.map_nil, pure, Except.pure]
        rfl

/-- The MSSUs of a renamed input are the renamed MSSUs. -/
theorem buildMssus_rename :
    (input.rename r).buildMssus = input.buildMssus.map (BuildState.rename r) := by
  have key : ∀ (seeds : List Seed) (idx : ℕ) (s : BuildState),
      (∀ seed ∈ seeds, seed.1 ∈ input.markers) →
      ((seeds.map (renameSeed r)).zipIdx idx).foldlM (input.rename r).buildStep (s.rename r) =
        ((seeds.zipIdx idx).foldlM input.buildStep s).map (BuildState.rename r) := by
    intro seeds
    induction seeds with
    | nil => exact fun idx s _ => rfl
    | cons seed seeds ih =>
      intro idx s hmem
      rw [List.map_cons, List.zipIdx_cons, List.zipIdx_cons, List.foldlM_cons, List.foldlM_cons,
        buildStep_rename r s (hmem seed List.mem_cons_self)]
      cases input.buildStep s (seed, idx) with
      | error e => rfl
      | ok t => exact ih (idx + 1) t fun other hother => hmem other (List.mem_cons_of_mem _ hother)
  have hseeds : seedNodes (input.rename r).markers (input.rename r).markerToNodes =
      (seedNodes input.markers input.markerToNodes).map (renameSeed r) :=
    seedNodes_rename r input.markers input.markerToNodes
  rw [BuildInput.buildMssus, hseeds]
  exact key _ 0 {} fun seed hseed => mem_markers_of_seedNodes hseed

/-- The lists of an MSSU name some ids only. -/
def RefsIn (ids : List String) (mssu : BuiltMSSU) : Prop :=
  (∀ id ∈ mssu.secondaryActionRefs, id ∈ ids) ∧ ∀ id ∈ mssu.actionRefs, id ∈ ids

theorem bindingFor_known {marker : Marker} {nodeIds : List String} {binding : Binding}
    (h : input.bindingFor marker nodeIds = .ok binding) :
    binding.Known (actionIndex input.target) := by
  obtain ⟨raw, hraw, h⟩ := bind_eq_ok.1 h
  obtain rfl := pure_eq_ok.1 h
  exact refineBindingFromClosure_known (actionBindingForMarker_known hraw) nodeIds input.graph _

/-- The MSSUs of the markers name actions of the target. -/
theorem buildMssus_refsIn {s : BuildState} (h : input.buildMssus = .ok s) :
    ∀ mssu ∈ s.mssus, RefsIn input.actionIds mssu := by
  refine foldlM_buildStep (motive := fun _ s => ∀ mssu ∈ s.mssus, RefsIn input.actionIds mssu)
    (fun seed idx s t hs ht => ?_) (fun mssu hmssu => absurd hmssu List.not_mem_nil) h
  obtain ⟨closed, -, ht⟩ := bind_eq_ok.1 ht
  obtain ⟨io, -, ht⟩ := bind_eq_ok.1 ht
  obtain ⟨binding, hbinding, ht⟩ := bind_eq_ok.1 ht
  obtain rfl := pure_eq_ok.1 ht
  have hknown := bindingFor_known hbinding
  intro mssu hmssu
  rcases List.mem_append.1 hmssu with hmssu | hmssu
  · exact hs mssu hmssu
  · obtain rfl := List.mem_singleton.1 hmssu
    exact ⟨fun id hid => actionsIn_input id (mem_of_known (hknown.1 id hid)),
      fun id hid => actionsIn_input id (mem_of_known (hknown.2 id hid))⟩

end Build

/-! ## Pairs -/

section Pairs

variable (mssu other : BuiltMSSU)

@[simp] theorem primaryActionOf_rename : primaryActionOf (mssu.rename r) = r (primaryActionOf mssu) :=
  r.strip_getD _

@[simp] theorem effectsOf_rename : effectsOf (mssu.rename r) = effectsOf mssu := rfl

@[simp] theorem primaryEffectFamily_rename :
    primaryEffectFamily (mssu.rename r) = primaryEffectFamily mssu := rfl

@[simp] theorem laneOf_rename : laneOf (mssu.rename r) = laneOf mssu := rfl

@[simp] theorem mayPair_rename : mayPair (mssu.rename r) (other.rename r) = mayPair mssu other := by
  have hforbid : forbidCandidatePair (mssu.rename r) (other.rename r) =
      forbidCandidatePair mssu other := rfl
  simp only [mayPair, hforbid, skipCandidateSourceOrTarget, primaryActionOf_rename, r.eq_blank,
    laneOf_rename, effectsOf_rename]

@[simp] theorem mayDepend_rename :
    mayDepend (mssu.rename r) (other.rename r) = mayDepend mssu other := by
  simp only [mayDepend, mayPair_rename, sameLaneOrWriteback, primaryActionOf_rename, ne_eq,
    r.eq_blank, r.eq_iff, laneOf_rename]
  rfl

variable {mssu other}

theorem candidateBetween_rename {may : BuiltMSSU → BuiltMSSU → Bool}
    (hmay : ∀ a b : BuiltMSSU, may (a.rename r) (b.rename r) = may a b)
    {rowOf rowOf' : String → Option BuiltMSSU}
    (hrow : ∀ id, rowOf' id = (rowOf id).map (BuiltMSSU.rename r)) (kind src dst : String) :
    candidateBetween may rowOf' kind src dst = candidateBetween may rowOf kind src dst := by
  rw [candidateBetween, candidateBetween, hrow, hrow]
  cases rowOf src <;> cases rowOf dst <;> simp [hmay]

theorem edgeCandidates_rename {graph : ReducedGraph} {ownerOf : String → Option String}
    {rowOf rowOf' : String → Option BuiltMSSU}
    (hrow : ∀ id, rowOf' id = (rowOf id).map (BuiltMSSU.rename r)) :
    edgeCandidates graph ownerOf rowOf' = edgeCandidates graph ownerOf rowOf := by
  simp only [edgeCandidates, candidateBetween_rename r (mayDepend_rename r) hrow]

end Pairs

/-! ## Merging -/

section Merging

variable {graph : ReducedGraph} {mssus : List BuiltMSSU}

/-- The key of a renamed MSSU. -/
def MergeKey.rename : MergeKey → MergeKey
  | .byFamily action lane type family resource => .byFamily (r action) lane type family resource
  | .byScope action type phase lane resource guards family files =>
      .byScope (r action) type phase lane resource guards family files

theorem mergeKey_rename_injective : Function.Injective (MergeKey.rename r) := by
  intro a b h
  cases a <;> cases b <;> simp_all [MergeKey.rename]

@[simp] theorem mergeKey_rename (mssu : BuiltMSSU) :
    mergeKey graph (mssu.rename r) = (mergeKey graph mssu).map (MergeKey.rename r) := by
  have hscope : mssuFileScope graph (mssu.rename r) = mssuFileScope graph mssu := rfl
  have hnone : (mssu.rename r).primaryActionRef.getD "None" = r (mssu.primaryActionRef.getD "None") := by
    show (mssu.primaryActionRef.map r).getD "None" = _
    cases mssu.primaryActionRef with
    | none => exact r.noneText.symm
    | some id => rfl
  have hfields : (mssu.rename r).isSharedInfra = mssu.isSharedInfra ∧
      (mssu.rename r).isAggregateSink = mssu.isAggregateSink ∧
      (mssu.rename r).mssuType = mssu.mssuType ∧ (mssu.rename r).phase = mssu.phase ∧
      (mssu.rename r).laneTag = mssu.laneTag ∧
      (mssu.rename r).resourceInstanceTag = mssu.resourceInstanceTag ∧
      (mssu.rename r).requiredGuards = mssu.requiredGuards := ⟨rfl, rfl, rfl, rfl, rfl, rfl, rfl⟩
  obtain ⟨hshared, hsink, htype, hphase, hlane, hresource, hguards⟩ := hfields
  simp only [mergeKey, primaryActionOf_rename, r.eq_blank, primaryEffectFamily_rename,
    laneOf_rename, hscope, hnone, hshared, hsink, htype, hphase, hlane, hresource, hguards]
  split_ifs <;> rfl

theorem filter_mergeKey_rename (key : MergeKey) :
    (mssus.map (BuiltMSSU.rename r)).filter
        (fun mssu => mergeKey graph mssu = some (key.rename r)) =
      (mssus.filter fun mssu => mergeKey graph mssu = some key).map (BuiltMSSU.rename r) := by
  rw [List.filter_map]
  refine congrArg (List.map _) (List.filter_congr fun mssu _ => ?_)
  rw [Function.comp_apply, mergeKey_rename, decide_eq_decide, Option.map_eq_some_iff]
  refine ⟨fun ⟨other, hother, hkey⟩ => ?_, fun h => ⟨key, h, rfl⟩⟩
  rw [hother, mergeKey_rename_injective r hkey]

/-- The groups of renamed MSSUs are the renamed groups. -/
theorem mergeGroups_rename :
    mergeGroups graph (mssus.map (BuiltMSSU.rename r)) =
      (mergeGroups graph mssus).map (List.map (BuiltMSSU.rename r)) := by
  have hsingle : ((mssus.map (BuiltMSSU.rename r)).filter fun mssu =>
        (mergeKey graph mssu).isNone).map ([·]) =
      ((mssus.filter fun mssu => (mergeKey graph mssu).isNone).map ([·])).map
        (List.map (BuiltMSSU.rename r)) := by
    rw [List.filter_map, List.map_map, List.map_map]
    have hnone : (fun mssu => (mergeKey graph mssu).isNone) ∘ BuiltMSSU.rename r =
        fun mssu => (mergeKey graph mssu).isNone := by
      funext mssu
      simp
    rw [hnone]
    rfl
  have hkeys : ((mssus.map (BuiltMSSU.rename r)).filterMap (mergeKey graph)).eraseDups =
      ((mssus.filterMap (mergeKey graph)).eraseDups).map (MergeKey.rename r) := by
    have hfun : mergeKey graph ∘ BuiltMSSU.rename r =
        fun mssu => (mergeKey graph mssu).map (MergeKey.rename r) := by
      funext mssu
      rw [Function.comp_apply, mergeKey_rename]
    rw [← List.eraseDups_map_of_injective (mergeKey_rename_injective r), List.filterMap_map,
      List.map_filterMap, hfun]
  have hgroups : ∀ keys : List MergeKey, (keys.map (MergeKey.rename r)).map (fun key =>
        (mssus.map (BuiltMSSU.rename r)).filter fun mssu => mergeKey graph mssu = some key) =
      (keys.map fun key => mssus.filter fun mssu => mergeKey graph mssu = some key).map
        (List.map (BuiltMSSU.rename r)) := by
    intro keys
    rw [List.map_map, List.map_map]
    exact List.map_congr_left fun key _ => filter_mergeKey_rename r key
  rw [mergeGroups, hsingle, hkeys, hgroups, mergeGroups, List.map_append]

theorem flatMap_rename_mem {refs : BuiltMSSU → List String} {bucket : List BuiltMSSU}
    (h : ∀ mssu ∈ bucket, ∀ id ∈ refs mssu, id ∈ ids) : ∀ id ∈ bucket.flatMap refs, id ∈ ids := by
  intro id hid
  obtain ⟨mssu, hmssu, hid⟩ := List.mem_flatMap.1 hid
  exact h mssu hmssu id hid

theorem mergeBucket_rename (base : BuiltMSSU) {bucket : List BuiltMSSU}
    (h : ∀ mssu ∈ bucket, RefsIn ids mssu) :
    mergeBucket (base.rename r) (bucket.map (BuiltMSSU.rename r)) =
      (mergeBucket base bucket).rename r := by
  have hsecondary : sortedSet ((bucket.map (BuiltMSSU.rename r)).flatMap (·.secondaryActionRefs)) =
      (sortedSet (bucket.flatMap (·.secondaryActionRefs))).map r := by
    rw [← r.sortedSet_map (flatMap_rename_mem fun mssu hmssu => (h mssu hmssu).1),
      List.flatMap_map, List.map_flatMap]
    rfl
  have hrefs : sortedSet ((bucket.map (BuiltMSSU.rename r)).flatMap (·.actionRefs)) =
      (sortedSet (bucket.flatMap (·.actionRefs))).map r := by
    rw [← r.sortedSet_map (flatMap_rename_mem fun mssu hmssu => (h mssu hmssu).2),
      List.flatMap_map, List.map_flatMap]
    rfl
  have hphase : mergedPhase (base.rename r) (bucket.map (BuiltMSSU.rename r)) =
      mergedPhase base bucket := by
    simp only [mergedPhase, List.map_map, Function.comp_def]
    rfl
  simp only [mergeBucket, hsecondary, hrefs, hphase]
  simp only [List.flatMap_map, List.any_map]
  rfl

theorem mergeGroup_rename {group : List BuiltMSSU} (h : ∀ mssu ∈ group, RefsIn ids mssu) :
    mergeGroup (group.map (BuiltMSSU.rename r)) = (mergeGroup group).map (BuiltMSSU.rename r) := by
  match group with
  | [] => rfl
  | [mssu] => rfl
  | base :: other :: rest =>
    have hmerge := mergeBucket_rename r base h
    rw [List.map_cons, List.map_cons] at hmerge ⊢
    simp only [mergeGroup, hmerge, List.map_cons, List.map_nil]

theorem mem_of_mem_mergeGroups {group : List BuiltMSSU} {mssu : BuiltMSSU}
    (hgroup : group ∈ mergeGroups graph mssus) (h : mssu ∈ group) : mssu ∈ mssus := by
  rcases List.mem_append.1 hgroup with hgroup | hgroup
  · obtain ⟨single, hsingle, rfl⟩ := List.mem_map.1 hgroup
    obtain rfl := List.mem_singleton.1 h
    exact List.mem_of_mem_filter hsingle
  · obtain ⟨key, -, rfl⟩ := List.mem_map.1 hgroup
    exact List.mem_of_mem_filter h

/-- Merging the renamed MSSUs is renaming the merged ones. -/
theorem mergedMssus_rename (h : ∀ mssu ∈ mssus, RefsIn ids mssu) :
    mergedMssus graph (mssus.map (BuiltMSSU.rename r)) =
      (mergedMssus graph mssus).map (BuiltMSSU.rename r) := by
  rw [mergedMssus, mergeGroups_rename, List.flatMap_map, mergedMssus, List.map_flatMap]
  refine List.flatMap_congr fun group hgroup => mergeGroup_rename r fun mssu hmssu => h mssu ?_
  exact mem_of_mem_mergeGroups hgroup hmssu

theorem idMap_rename (mssuId : String) :
    idMap graph (mssus.map (BuiltMSSU.rename r)) mssuId = idMap graph mssus mssuId := by
  have hany : (fun group : List BuiltMSSU => group.any (·.mssuId = mssuId)) ∘
        List.map (BuiltMSSU.rename r) = fun group => group.any (·.mssuId = mssuId) := by
    funext group
    rw [Function.comp_apply, List.any_map]
    rfl
  have hhead : ∀ group : Option (List BuiltMSSU),
      ((group.map (List.map (BuiltMSSU.rename r))).bind fun group =>
        group.head?.map (·.mssuId)) = group.bind fun group => group.head?.map (·.mssuId) := by
    intro group
    cases group with
    | none => rfl
    | some group => cases group <;> rfl
  rw [idMap, mergeGroups_rename, List.filter_map, hany, List.getLast?_map, hhead, idMap]

theorem lastOwner_rename (merged : List BuiltMSSU) (nodeId : String) :
    lastOwner (merged.map (BuiltMSSU.rename r)) nodeId = lastOwner merged nodeId := by
  have hnodes : (fun mssu : BuiltMSSU => mssu.nodeIds.contains nodeId) ∘ BuiltMSSU.rename r =
      fun mssu => mssu.nodeIds.contains nodeId := rfl
  rw [lastOwner, List.filter_map, hnodes, List.getLast?_map, Option.map_map, lastOwner]
  rfl

theorem lastRowOf_rename (merged : List BuiltMSSU) (mssuId : String) :
    lastRowOf (merged.map (BuiltMSSU.rename r)) mssuId =
      (lastRowOf merged mssuId).map (BuiltMSSU.rename r) := by
  have hid : (fun mssu : BuiltMSSU => decide (mssu.mssuId = mssuId)) ∘ BuiltMSSU.rename r =
      fun mssu => decide (mssu.mssuId = mssuId) := rfl
  rw [lastRowOf, List.filter_map, hid, List.getLast?_map, lastRowOf]

theorem rowOf_rename (mssuId : String) :
    rowOf (mssus.map (BuiltMSSU.rename r)) mssuId =
      (rowOf mssus mssuId).map (BuiltMSSU.rename r) := by
  rw [rowOf, List.find?_map]
  rfl

/-- The candidates before the merge are the same. -/
theorem dependencyCandidates_rename (s : BuildState) :
    dependencyCandidates graph (s.rename r) = dependencyCandidates graph s := by
  have howner : (s.rename r).nodeOwner = s.nodeOwner := rfl
  have hdeps : (s.rename r).overlapDeps = s.overlapDeps := rfl
  rw [dependencyCandidates, howner, hdeps, dependencyCandidates]
  congr 1
  exact edgeCandidates_rename r fun id => rowOf_rename r id

/-- So are the candidates after it. -/
theorem mergedCandidates_rename (h : ∀ mssu ∈ mssus, RefsIn ids mssu) (candidates : List Candidate) :
    mergedCandidates graph (mssus.map (BuiltMSSU.rename r)) candidates =
      mergedCandidates graph mssus candidates := by
  have howner : lastOwner ((mergedMssus graph mssus).map (BuiltMSSU.rename r)) =
      lastOwner (mergedMssus graph mssus) := funext (lastOwner_rename r _)
  have hrow := lastRowOf_rename r (mergedMssus graph mssus)
  simp only [mergedCandidates, mergedMssus_rename r h, howner, edgeCandidates_rename r hrow,
    idMap_rename, candidateBetween_rename r (mayPair_rename r) hrow]

theorem mergedInternalEdges_rename (merged : List BuiltMSSU)
    (internalEdges : OrderedDict String (List GraphEdge)) (mssu : BuiltMSSU) :
    mergedInternalEdges graph (merged.map (BuiltMSSU.rename r)) internalEdges (mssu.rename r) =
      mergedInternalEdges graph merged internalEdges mssu := by
  simp only [mergedInternalEdges, lastOwner_rename]
  rfl

theorem keptMssus_rename (h : ∀ mssu ∈ mssus, RefsIn ids mssu) :
    keptMssus graph (mssus.map (BuiltMSSU.rename r)) =
      (keptMssus graph mssus).map (BuiltMSSU.rename r) := by
  have hdrop : (fun mssu => !dropTeardownUnownedBleOps mssu) ∘ BuiltMSSU.rename r =
      fun mssu => !dropTeardownUnownedBleOps mssu := by
    funext mssu
    have hrefs : trimmed (mssu.rename r).actionRefs = (trimmed mssu.actionRefs).map r :=
      r.trimmed_map _
    simp only [Function.comp_apply, dropTeardownUnownedBleOps, hrefs, List.isEmpty_map,
      effectsOf_rename]
    rfl
  rw [keptMssus, mergedMssus_rename r h, List.filter_map, hdrop, keptMssus]

end Merging

/-! ## Connections at tear-down -/

/-- A shared connection at tear-down. -/
def isTeardownConnect (mssu : BuiltMSSU) : Bool :=
  decide (upper mssu.phase = Phase.teardown) && (effectsOf mssu).contains "ble_connect" &&
    mssu.isSharedInfra

/-- No shared connection at tear-down enters or leaves the id `A2`. -/
def KeepsA2 (mssus : List BuiltMSSU) : Prop :=
  ∀ mssu ∈ mssus, isTeardownConnect mssu →
    (r (primaryActionOf mssu) = "A2" ↔ primaryActionOf mssu = "A2")

section Teardown

variable {graph : ReducedGraph} {mssus : List BuiltMSSU}

theorem dropTeardownConnectMssu_iff {mssu : BuiltMSSU} :
    dropTeardownConnectMssu mssu = true ↔ isTeardownConnect mssu ∧ primaryActionOf mssu = "A2" := by
  simp only [dropTeardownConnectMssu, isTeardownConnect, Bool.and_eq_true, decide_eq_true_eq]
  tauto

theorem isTeardownConnect_rename (mssu : BuiltMSSU) :
    isTeardownConnect (mssu.rename r) = isTeardownConnect mssu := rfl

theorem normalizeTeardownConnectMssu_rename {mssu : BuiltMSSU}
    (h : isTeardownConnect mssu → (r (primaryActionOf mssu) = "A2" ↔ primaryActionOf mssu = "A2"))
    (peers : List BuiltMSSU) :
    normalizeTeardownConnectMssu (mssu.rename r) (peers.map (BuiltMSSU.rename r)) =
      (normalizeTeardownConnectMssu mssu peers).rename r := by
  have hdrop : dropTeardownConnectMssu (mssu.rename r) = dropTeardownConnectMssu mssu := by
    rw [Bool.eq_iff_iff, dropTeardownConnectMssu_iff, dropTeardownConnectMssu_iff,
      isTeardownConnect_rename, primaryActionOf_rename]
    exact and_congr_right h
  rw [normalizeTeardownConnectMssu, hdrop, normalizeTeardownConnectMssu]
  cases hmssu : dropTeardownConnectMssu mssu with
  | false => rfl
  | true =>
    obtain ⟨hconnect, hprimary⟩ := dropTeardownConnectMssu_iff.1 hmssu
    have hA2 : r "A2" = "A2" := by
      have hkept := (h hconnect).2 hprimary
      rwa [hprimary] at hkept
    have hpeer : ∀ peer : BuiltMSSU, r (primaryActionOf peer) = "A2" ↔ primaryActionOf peer = "A2" := by
      intro peer
      conv_lhs => rw [← hA2]
      exact r.eq_iff
    have hany : (peers.map (BuiltMSSU.rename r)).any (fun peer =>
          decide (peer.mssuId ≠ (mssu.rename r).mssuId) && decide (primaryActionOf peer = "A2") &&
            decide (upper (strip peer.phase) ≠ Phase.teardown)) =
        peers.any fun peer =>
          decide (peer.mssuId ≠ mssu.mssuId) && decide (primaryActionOf peer = "A2") &&
            decide (upper (strip peer.phase) ≠ Phase.teardown) := by
      have hid : ∀ peer : BuiltMSSU, (peer.rename r).mssuId = peer.mssuId := fun _ => rfl
      have hphase : ∀ peer : BuiltMSSU, (peer.rename r).phase = peer.phase := fun _ => rfl
      rw [Bool.eq_iff_iff, List.any_map, List.any_eq_true, List.any_eq_true]
      simp only [Function.comp_apply, Bool.and_eq_true, decide_eq_true_eq, primaryActionOf_rename,
        hpeer, hid, hphase]
    simp only [hany, Bool.not_true, Bool.false_eq_true, if_false]
    split
    · rfl
    · rfl

/-- Under the condition, the connections of renamed MSSUs are normalised as before. -/
theorem normalizeTeardown_rename {rest : List BuiltMSSU} (h : KeepsA2 r rest)
    (before : List BuiltMSSU) :
    normalizeTeardown (before.map (BuiltMSSU.rename r)) (rest.map (BuiltMSSU.rename r)) =
      (normalizeTeardown before rest).map (BuiltMSSU.rename r) := by
  induction rest generalizing before with
  | nil => rfl
  | cons mssu rest ih =>
    have hmssu := normalizeTeardownConnectMssu_rename r (h mssu List.mem_cons_self)
      (before ++ mssu :: rest)
    rw [List.map_append, List.map_cons] at hmssu
    have ih := ih (fun other hother => h other (List.mem_cons_of_mem _ hother))
      (before ++ [normalizeTeardownConnectMssu mssu (before ++ mssu :: rest)])
    rw [List.map_append, List.map_cons, List.map_nil] at ih
    rw [List.map_cons, normalizeTeardown, hmssu, ih, normalizeTeardown]

theorem subscribeTags_rename {tag : BuiltMSSU → String}
    (htag : ∀ mssu : BuiltMSSU, tag (mssu.rename r) = tag mssu) (files : List String) :
    subscribeTags graph (mssus.map (BuiltMSSU.rename r)) tag files =
      subscribeTags graph mssus tag files := by
  have hfamily : (fun mssu => decide (primaryEffectFamily mssu = "subscribe")) ∘
      BuiltMSSU.rename r = fun mssu => decide (primaryEffectFamily mssu = "subscribe") := rfl
  have hblank : (fun mssu => decide (tag mssu ≠ "")) ∘ BuiltMSSU.rename r =
      fun mssu => decide (tag mssu ≠ "") := by
    funext mssu
    rw [Function.comp_apply, htag]
  have hfiles : (fun mssu => decide (mssuFileScope graph mssu = files)) ∘ BuiltMSSU.rename r =
      fun mssu => decide (mssuFileScope graph mssu = files) := rfl
  have htags : tag ∘ BuiltMSSU.rename r = tag := funext htag
  simp only [subscribeTags, List.filter_map, List.map_map, hfamily, hblank, hfiles, htags]

theorem propagateTags_rename (mssu : BuiltMSSU) :
    propagateTags graph (mssus.map (BuiltMSSU.rename r)) (mssu.rename r) =
      (propagateTags graph mssus mssu).rename r := by
  have hresource : resourceOf (mssu.rename r) = resourceOf mssu := rfl
  have hscope : mssuFileScope graph (mssu.rename r) = mssuFileScope graph mssu := rfl
  simp only [propagateTags, primaryEffectFamily_rename, hresource, hscope, laneOf_rename,
    subscribeTags_rename r (fun _ => rfl : ∀ mssu : BuiltMSSU, resourceOf (mssu.rename r) = _),
    subscribeTags_rename r (laneOf_rename r)]
  split_ifs <;> rfl

theorem propagate_rename :
    propagateSharedCleanupResourceTags graph (mssus.map (BuiltMSSU.rename r)) =
      (propagateSharedCleanupResourceTags graph mssus).map (BuiltMSSU.rename r) := by
  rw [propagateSharedCleanupResourceTags, List.map_map, propagateSharedCleanupResourceTags,
    List.map_map]
  exact List.map_congr_left fun mssu _ => propagateTags_rename r mssu

end Teardown

/-! ## The names after the merge -/

section Names

variable {graph : ReducedGraph} {mssus : List BuiltMSSU}

/-- Two groups have no name in common. -/
theorem pairwise_mergeGroups (hnodup : (mssus.map (·.mssuId)).Nodup) :
    (mergeGroups graph mssus).Pairwise fun group other =>
      ∀ a ∈ group, ∀ b ∈ other, a.mssuId ≠ b.mssuId := by
  have hinj : ∀ a ∈ mssus, ∀ b ∈ mssus, a.mssuId = b.mssuId → a = b :=
    fun a ha b hb => List.inj_on_of_nodup_map hnodup ha hb
  rw [mergeGroups, List.pairwise_append, List.pairwise_map, List.pairwise_map]
  refine ⟨?_, ?_, fun group hgroup other hother a ha b hb hid => ?_⟩
  · have hsub : ((mssus.filter fun mssu => (mergeKey graph mssu).isNone).map (·.mssuId)).Nodup :=
      hnodup.sublist (List.filter_sublist.map _)
    refine (List.pairwise_map.1 hsub).imp fun {a b} hab x hx y hy => ?_
    rwa [List.mem_singleton.1 hx, List.mem_singleton.1 hy]
  · refine (nodup_eraseDups _).imp fun {key other} hne a ha b hb hid => hne ?_
    obtain ⟨hamem, hakey⟩ := List.mem_filter.1 ha
    obtain ⟨hbmem, hbkey⟩ := List.mem_filter.1 hb
    obtain rfl := hinj a hamem b hbmem hid
    exact Option.some.inj ((of_decide_eq_true hakey).symm.trans (of_decide_eq_true hbkey))
  · obtain ⟨single, hsingle, rfl⟩ := List.mem_map.1 hgroup
    obtain rfl := List.mem_singleton.1 ha
    obtain ⟨key, -, rfl⟩ := List.mem_map.1 hother
    obtain ⟨hbmem, hbkey⟩ := List.mem_filter.1 hb
    obtain ⟨hamem, hanone⟩ := List.mem_filter.1 hsingle
    obtain rfl := hinj a hamem b hbmem hid
    rw [of_decide_eq_true hbkey] at hanone
    cases hanone

/-- The merged MSSUs have different names. -/
theorem mergedMssus_nodup (hnodup : (mssus.map (·.mssuId)).Nodup) :
    ((mergedMssus graph mssus).map (·.mssuId)).Nodup := by
  rw [mergedMssus, List.map_flatMap, List.nodup_flatMap]
  have hname : ∀ group : List BuiltMSSU, ∀ id ∈ (mergeGroup group).map (·.mssuId),
      ∃ mssu ∈ group, mssu.mssuId = id := by
    intro group id hid
    obtain ⟨mssu, hmssu, rfl⟩ := List.mem_map.1 hid
    cases group with
    | nil => cases hmssu
    | cons base rest => exact ⟨base, List.mem_cons_self, (mssuId_of_mem_mergeGroup hmssu).symm⟩
  refine ⟨fun group _ => ?_, (pairwise_mergeGroups hnodup).imp fun {group other} h => ?_⟩
  · match group with
    | [] => exact List.nodup_nil
    | [mssu] => exact List.nodup_singleton _
    | base :: other :: rest => exact List.nodup_singleton _
  · intro id hid hother
    obtain ⟨a, ha, haid⟩ := hname group id hid
    obtain ⟨b, hb, hbid⟩ := hname other id hother
    exact h a ha b hb (haid.trans hbid.symm)

theorem keptMssus_nodup (hnodup : (mssus.map (·.mssuId)).Nodup) :
    ((keptMssus graph mssus).map (·.mssuId)).Nodup :=
  (mergedMssus_nodup hnodup).sublist (List.filter_sublist.map _)

@[simp] theorem mssuId_normalizeTeardownConnectMssu (mssu : BuiltMSSU) (peers : List BuiltMSSU) :
    (normalizeTeardownConnectMssu mssu peers).mssuId = mssu.mssuId := by
  rw [normalizeTeardownConnectMssu]
  split_ifs <;> rfl

theorem mssuIds_normalizeTeardown (before rest : List BuiltMSSU) :
    (normalizeTeardown before rest).map (·.mssuId) = (before ++ rest).map (·.mssuId) := by
  induction rest generalizing before with
  | nil => simp [normalizeTeardown]
  | cons mssu rest ih => simp [normalizeTeardown, ih]

/-- What is normalised already stays. -/
theorem mem_normalizeTeardown_of_mem {before rest : List BuiltMSSU} {mssu : BuiltMSSU}
    (h : mssu ∈ before) : mssu ∈ normalizeTeardown before rest := by
  induction rest generalizing before with
  | nil => exact h
  | cons other rest ih => exact ih (List.mem_append_left _ h)

/-- Every MSSU is normalised once. -/
theorem exists_mem_normalizeTeardown (before : List BuiltMSSU) {rest : List BuiltMSSU}
    {mssu : BuiltMSSU} (h : mssu ∈ rest) :
    ∃ peers, normalizeTeardownConnectMssu mssu peers ∈ normalizeTeardown before rest := by
  induction rest generalizing before with
  | nil => cases h
  | cons other rest ih =>
    rcases List.mem_cons.1 h with rfl | h
    · refine ⟨before ++ mssu :: rest, ?_⟩
      rw [normalizeTeardown]
      exact mem_normalizeTeardown_of_mem (List.mem_append_right _ List.mem_cons_self)
    · exact ih _ h

@[simp] theorem mssuId_propagateTags (mssu : BuiltMSSU) :
    (propagateTags graph mssus mssu).mssuId = mssu.mssuId := by
  rw [propagateTags]
  split_ifs <;> rfl

@[simp] theorem phase_propagateTags (mssu : BuiltMSSU) :
    (propagateTags graph mssus mssu).phase = mssu.phase := by
  rw [propagateTags]
  split_ifs <;> rfl

@[simp] theorem primaryActionRef_propagateTags (mssu : BuiltMSSU) :
    (propagateTags graph mssus mssu).primaryActionRef = mssu.primaryActionRef := by
  rw [propagateTags]
  split_ifs <;> rfl

/-- A connection that is normalised is moved, or it loses its action. -/
theorem normalizeTeardownConnectMssu_changes {mssu : BuiltMSSU}
    (h : dropTeardownConnectMssu mssu = true) (peers : List BuiltMSSU) :
    (normalizeTeardownConnectMssu mssu peers).phase ≠ mssu.phase ∨
      (normalizeTeardownConnectMssu mssu peers).primaryActionRef.isSome ≠
        mssu.primaryActionRef.isSome := by
  obtain ⟨hconnect, hprimary⟩ := dropTeardownConnectMssu_iff.1 h
  rw [normalizeTeardownConnectMssu, h, if_neg (by decide)]
  split_ifs
  · right
    cases href : mssu.primaryActionRef with
    | none =>
      rw [primaryActionOf, href] at hprimary
      exact absurd hprimary (by decide)
    | some id => exact Bool.false_ne_true
  · left
    intro hphase
    simp only [isTeardownConnect, Bool.and_eq_true, decide_eq_true_eq, ← hphase] at hconnect
    exact absurd hconnect.1.1 (by decide)

end Names

/-! ## The result -/

section Result

variable {graph : ReducedGraph} {s : BuildState}

/-- The MSSUs of the result, before they are sorted. -/
def finalMssus (graph : ReducedGraph) (mssus : List BuiltMSSU) : List BuiltMSSU :=
  propagateSharedCleanupResourceTags graph (normalizeTeardown [] (keptMssus graph mssus))

theorem mssuIds_finalMssus (mssus : List BuiltMSSU) :
    (finalMssus graph mssus).map (·.mssuId) = (keptMssus graph mssus).map (·.mssuId) := by
  rw [finalMssus, propagateSharedCleanupResourceTags, List.map_map,
    ← List.nil_append (keptMssus graph mssus), ← mssuIds_normalizeTeardown, List.nil_append]
  exact List.map_congr_left fun mssu _ => mssuId_propagateTags mssu

/-- A kept MSSU is in the result, normalised. -/
theorem exists_mem_finalMssus {mssus : List BuiltMSSU} {mssu : BuiltMSSU}
    (h : mssu ∈ keptMssus graph mssus) :
    ∃ final ∈ finalMssus graph mssus, ∃ peers, final.mssuId = mssu.mssuId ∧
      final.phase = (normalizeTeardownConnectMssu mssu peers).phase ∧
      final.primaryActionRef = (normalizeTeardownConnectMssu mssu peers).primaryActionRef := by
  obtain ⟨peers, hpeers⟩ := exists_mem_normalizeTeardown [] h
  exact ⟨_, List.mem_map_of_mem hpeers, peers, by simp, phase_propagateTags _,
    primaryActionRef_propagateTags _⟩

theorem finalMssus_rename (h : ∀ mssu ∈ s.mssus, RefsIn ids mssu)
    (hA2 : KeepsA2 r (keptMssus graph s.mssus)) :
    finalMssus graph (s.rename r).mssus =
      (finalMssus graph s.mssus).map (BuiltMSSU.rename r) := by
  have hmssus : (s.rename r).mssus = s.mssus.map (BuiltMSSU.rename r) := rfl
  rw [finalMssus, hmssus, keptMssus_rename r h, finalMssus, ← propagate_rename,
    ← normalizeTeardown_rename r hA2]
  rfl

/-- If the result is renamed, no connection enters or leaves the id. -/
theorem keepsA2_of_sorted_eq (hnodup : (s.mssus.map (·.mssuId)).Nodup)
    (h : ∀ mssu ∈ s.mssus, RefsIn ids mssu)
    (heq : sortedBy (·.mssuId) (finalMssus graph (s.rename r).mssus) =
      (sortedBy (·.mssuId) (finalMssus graph s.mssus)).map (BuiltMSSU.rename r)) :
    KeepsA2 r (keptMssus graph s.mssus) := by
  intro mssu hmssu hconnect
  have hrenamed : mssu.rename r ∈ keptMssus graph (s.rename r).mssus := by
    have hmssus : (s.rename r).mssus = s.mssus.map (BuiltMSSU.rename r) := rfl
    rw [hmssus, keptMssus_rename r h]
    exact List.mem_map_of_mem hmssu
  obtain ⟨final, hfinal, peers, hid, hphase, hprimary⟩ := exists_mem_finalMssus hmssu
  obtain ⟨final', hfinal', peers', hid', hphase', hprimary'⟩ := exists_mem_finalMssus hrenamed
  -- both are the one MSSU of the result with this name
  have hmem : final' ∈ (sortedBy (·.mssuId) (finalMssus graph s.mssus)).map (BuiltMSSU.rename r) :=
    heq ▸ mem_sortedBy.2 hfinal'
  obtain ⟨other, hother, rfl⟩ := List.mem_map.1 hmem
  have hnames : ((finalMssus graph s.mssus).map (·.mssuId)).Nodup := by
    rw [mssuIds_finalMssus]
    exact keptMssus_nodup hnodup
  have hsame : other.mssuId = final.mssuId := hid'.trans hid.symm
  obtain rfl := List.inj_on_of_nodup_map hnames (mem_sortedBy.1 hother) hfinal hsame
  have hphases : (normalizeTeardownConnectMssu (mssu.rename r) peers').phase =
      (normalizeTeardownConnectMssu mssu peers).phase := hphase'.symm.trans hphase
  have hprimaries : (normalizeTeardownConnectMssu (mssu.rename r) peers').primaryActionRef.isSome =
      (normalizeTeardownConnectMssu mssu peers).primaryActionRef.isSome := by
    rw [← hprimary', ← hprimary]
    exact Option.isSome_map
  have hsome : (mssu.rename r).primaryActionRef.isSome = mssu.primaryActionRef.isSome :=
    Option.isSome_map
  have hdrop : dropTeardownConnectMssu (mssu.rename r) = dropTeardownConnectMssu mssu := by
    cases hdrop' : dropTeardownConnectMssu (mssu.rename r) with
    | false =>
      cases hdrop : dropTeardownConnectMssu mssu with
      | false => rfl
      | true =>
        have hstays : normalizeTeardownConnectMssu (mssu.rename r) peers' = mssu.rename r := by
          rw [normalizeTeardownConnectMssu, hdrop', if_pos (by decide)]
        rw [hstays] at hphases hprimaries
        rcases normalizeTeardownConnectMssu_changes hdrop peers with hne | hne
        · exact absurd hphases.symm hne
        · exact absurd (hprimaries.symm.trans hsome) hne
    | true =>
      cases hdrop : dropTeardownConnectMssu mssu with
      | true => rfl
      | false =>
        have hstays : normalizeTeardownConnectMssu mssu peers = mssu := by
          rw [normalizeTeardownConnectMssu, hdrop, if_pos (by decide)]
        rw [hstays] at hphases hprimaries
        rcases normalizeTeardownConnectMssu_changes hdrop' peers' with hne | hne
        · exact absurd hphases hne
        · exact absurd (hprimaries.trans hsome.symm) hne
  rw [Bool.eq_iff_iff, dropTeardownConnectMssu_iff, dropTeardownConnectMssu_iff,
    isTeardownConnect_rename, primaryActionOf_rename] at hdrop
  exact ⟨fun hA2 => (hdrop.1 ⟨hconnect, hA2⟩).2, fun hA2 => (hdrop.2 ⟨hconnect, hA2⟩).2⟩

theorem compactMssus_eq (graph : ReducedGraph) (s : BuildState) (candidates : List Candidate) :
    compactMssus graph s candidates =
      { mssus := sortedBy (·.mssuId) (finalMssus graph s.mssus)
        mssuInternalEdges :=
          let internal := (OrderedDict.ofList ((mergedMssus graph s.mssus).map fun mssu =>
            (mssu.mssuId, mergedInternalEdges graph (mergedMssus graph s.mssus) s.internalEdges
              mssu))).rows
          if (finalMssus graph s.mssus).length ≠ (mergedMssus graph s.mssus).length then
            internal.filter fun row => ((keptMssus graph s.mssus).map (·.mssuId)).contains row.1
          else internal
        dependencyCandidates := sortedCandidates
          (if (finalMssus graph s.mssus).length ≠ (mergedMssus graph s.mssus).length then
            (mergedCandidates graph s.mssus candidates).filter fun row =>
              ((keptMssus graph s.mssus).map (·.mssuId)).contains row.1 &&
                ((keptMssus graph s.mssus).map (·.mssuId)).contains row.2.1
          else mergedCandidates graph s.mssus candidates) } := rfl

theorem compactMssus_rename_iff (graph : ReducedGraph) (hnodup : (s.mssus.map (·.mssuId)).Nodup)
    (h : ∀ mssu ∈ s.mssus, RefsIn ids mssu) (candidates : List Candidate) :
    compactMssus graph (s.rename r) candidates = (compactMssus graph s candidates).rename r ↔
      KeepsA2 r (keptMssus graph s.mssus) := by
  refine ⟨fun heq => keepsA2_of_sorted_eq r hnodup h
    (congrArg MSSUBuildResult.mssus heq), fun hA2 => ?_⟩
  have hmssus : (s.rename r).mssus = s.mssus.map (BuiltMSSU.rename r) := rfl
  have hedges : (s.rename r).internalEdges = s.internalEdges := rfl
  have hinternal : ∀ merged : List BuiltMSSU, (merged.map (BuiltMSSU.rename r)).map (fun mssu =>
        (mssu.mssuId, mergedInternalEdges graph (merged.map (BuiltMSSU.rename r)) s.internalEdges
          mssu)) =
      merged.map fun mssu => (mssu.mssuId, mergedInternalEdges graph merged s.internalEdges mssu) := by
    intro merged
    rw [List.map_map]
    refine List.map_congr_left fun mssu _ => ?_
    rw [Function.comp_apply, mergedInternalEdges_rename]
    rfl
  have hids : ((keptMssus graph s.mssus).map (BuiltMSSU.rename r)).map (·.mssuId) =
      (keptMssus graph s.mssus).map (·.mssuId) := by
    rw [List.map_map]
    rfl
  have hsorted : sortedBy (·.mssuId) ((finalMssus graph s.mssus).map (BuiltMSSU.rename r)) =
      (sortedBy (·.mssuId) (finalMssus graph s.mssus)).map (BuiltMSSU.rename r) :=
    sortedBy_map _ _ _
  have hfinal : finalMssus graph (s.mssus.map (BuiltMSSU.rename r)) =
      (finalMssus graph s.mssus).map (BuiltMSSU.rename r) := finalMssus_rename r h hA2
  simp only [compactMssus_eq, hmssus, hfinal, hedges, mergedMssus_rename r h,
    keptMssus_rename r h, mergedCandidates_rename r h, hinternal, hids, hsorted, List.length_map]
  rfl

/-- Action ids carry no meaning, except for the id `A2` on a shared connection at tear-down. -/
theorem build_rename_iff (input : BuildInput) (r : Renaming input.actionIds) :
    build (input.rename r) = (build input).map (MSSUBuildResult.rename r) ↔
      ∀ s, input.buildMssus = .ok s → KeepsA2 r (keptMssus input.graph s.mssus) := by
  have hgraph : (input.rename r).graph = input.graph := rfl
  rw [build, buildMssus_rename, build]
  cases hbuild : input.buildMssus with
  | error e => exact ⟨fun _ s hs => (by cases hs), fun _ => rfl⟩
  | ok s =>
    have hcompact := compactMssus_rename_iff r input.graph (buildMssus_nodup hbuild)
      (buildMssus_refsIn hbuild) (dependencyCandidates input.graph s)
    have hstep : ∀ result : MSSUBuildResult,
        (Except.ok (compactMssus input.graph (s.rename r)
          (dependencyCandidates input.graph (s.rename r))) : Except PyErr _) =
            Except.ok (result.rename r) ↔
        compactMssus input.graph (s.rename r) (dependencyCandidates input.graph s) =
          result.rename r := by
      intro result
      rw [dependencyCandidates_rename, Except.ok.injEq]
    refine (hstep (compactMssus input.graph s (dependencyCandidates input.graph s))).trans
      (hcompact.trans ⟨fun hA2 t ht => Except.ok.inj ht ▸ hA2, fun hA2 => hA2 s rfl⟩)

end Result

/-! ## A connection that enters the id -/

/-- Exchanges the digits `2` and `3`. -/
def swapDigits (id : String) : String := String.ofList (id.toList.map (Equiv.swap '2' '3'))

theorem isSpace_swap (c : Char) : isSpace (Equiv.swap '2' '3' c) = isSpace c := by
  rw [Equiv.swap_apply_def]
  split_ifs with h2 h3
  · rw [h2]
    decide
  · rw [h3]
    decide
  · rfl

theorem strip_swapDigits (id : String) : strip (swapDigits id) = swapDigits (strip id) := by
  have hspace : isSpace ∘ Equiv.swap '2' '3' = isSpace := funext isSpace_swap
  simp only [strip, swapDigits, stripL, String.toList_ofList, List.dropWhile_map, hspace,
    ← List.map_reverse]

/-- A shared connection at tear-down, for one action. -/
def teardownInput : BuildInput where
  graph := { nodes := .ofList [("n1", { filePath := "a.py" })] }
  markers := [{ markerId := "m1", markerType := "BLE_CONNECT", phase := "TEARDOWN",
                primaryActionId := some "A2" }]
  markerToNodes := .ofList [("m1", ["n1"])]
  target := some { vdevActions := [[("action_id", .str "A2"), ("protocol", .str "BLE")]] }

/-- The renaming of `A2` to `A3`. -/
def swapRenaming : Renaming teardownInput.actionIds where
  toFun := swapDigits
  injective := by
    intro a b h
    have h : (a.toList.map (Equiv.swap '2' '3')) = b.toList.map (Equiv.swap '2' '3') :=
      String.ofList_injective h
    exact String.toList_injective (List.map_injective_iff.2 (Equiv.injective _) h)
  strictMonoOn := by
    have hids : ∀ id ∈ teardownInput.actionIds, id = "A2" := by decide +kernel
    intro a ha b hb hab
    rw [hids a ha, hids b hb] at hab
    exact absurd hab (lt_irrefl _)
  strip_comm := strip_swapDigits
  blank := by decide +kernel
  noneText := by decide +kernel

/-- The connection of `A2` is moved to the setup; that of `A3` stays at tear-down. -/
theorem build_moves_connection : swapRenaming "A2" = "A3" ∧
    build (teardownInput.rename swapRenaming) ≠
      (build teardownInput).map (MSSUBuildResult.rename swapRenaming) := by
  refine ⟨by decide +kernel, fun h => ?_⟩
  have hphases : ((build (teardownInput.rename swapRenaming)).toOption.map fun result =>
      result.mssus.map (·.phase)) = some ["TEARDOWN"] := by decide +kernel
  have hbefore : (((build teardownInput).map (MSSUBuildResult.rename swapRenaming)).toOption.map
      fun result => result.mssus.map (·.phase)) = some ["SETUP"] := by decide +kernel
  rw [h, hbefore] at hphases
  exact absurd hphases (by decide)

end FloWeaver.Mssu
