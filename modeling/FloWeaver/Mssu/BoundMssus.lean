import FloWeaver.Mssu.Misbinding
import FloWeaver.Mssu.Members

/-!
# The bindings of the MSSUs that are returned

The MSSU of a marker has the binding that the builder has refined for it.  The merge joins MSSUs of
one primary action only, so a merged MSSU is bound as it should be when all of its group are.  After
the merge a binding changes at one place: a connection at tear-down loses its action to another
MSSU, which leaves nothing to be wrong.

* `BuildInput.before`, `BuildInput.keptNodes` — the state before a marker, and its nodes.
* `BuildInput.MisbindsAt` — the marker at a place misbinds at its nodes.
* `LosesAction` — an MSSU that is kept loses its action at tear-down.
* `build_bound_iff` — all MSSUs are bound as they should be exactly when the marker of every MSSU
  that misbinds loses its action.
-/

namespace FloWeaver.Mssu

open Py

/-- The actions of an MSSU are the primary one and the other ones. -/
def BuiltMSSU.Bound (mssu : BuiltMSSU) : Prop :=
  BoundRefs mssu.primaryActionRef mssu.secondaryActionRefs mssu.actionRefs

/-- An MSSU names actions of the target only. -/
structure BuiltMSSU.InTarget (index : OrderedDict String Dict) (mssu : BuiltMSSU) : Prop where
  primary : ∀ id, mssu.primaryActionRef = some id → known index id
  secondary : ∀ id ∈ mssu.secondaryActionRefs, known index id
  refs : ∀ id ∈ mssu.actionRefs, known index id

/-- What holds of the MSSU of every marker: it names actions of the target, its primary action
makes up its actions together with the other ones, and a shared one without it has none. -/
structure BuiltMSSU.Shaped (index : OrderedDict String Dict) (mssu : BuiltMSSU) : Prop where
  inTarget : mssu.InTarget index
  owned : OwnedRefs index mssu.primaryActionRef mssu.secondaryActionRefs mssu.actionRefs
  shared : mssu.isSharedInfra → mssu.primaryActionRef = none → mssu.Bound

/-! ## The MSSU of a marker -/

section Rows

/-- The state before the marker at a place. -/
def BuildInput.before (input : BuildInput) (idx : ℕ) : Except PyErr BuildState :=
  ((seedNodes input.markers input.markerToNodes).zipIdx.take idx).foldlM input.buildStep {}

/-- The nodes that are kept for a marker. -/
def BuildInput.keptNodes (input : BuildInput) (s : BuildState) (seed : Seed) :
    Except PyErr (List String) :=
  pruneToCap input.graph input.builder seed.1 (input.closedNodes s.nodeOwner.keys seed) seed.2
    (seed.2.filter (s.nodeOwner.keys.contains ·))

/-- The marker at a place misbinds at the nodes that are kept for it. -/
def BuildInput.MisbindsAt (input : BuildInput) (idx : ℕ) : Prop :=
  ∃ seed s nodes binding, (seedNodes input.markers input.markerToNodes)[idx]? = some seed ∧
    input.before idx = .ok s ∧ input.keptNodes s seed = .ok nodes ∧
    actionBindingForMarker seed.1 input.target = .ok binding ∧
    Misbinds seed.1 (actionIndex input.target) (markersById input.markers) binding
      (rankedScores (actionOwnershipScore nodes input.graph (markersById input.markers)))

variable {input : BuildInput} {s t : BuildState}

/-- The MSSUs so far stay. -/
theorem foldlM_prefix {seeds : List Seed} {start : ℕ}
    (h : (seeds.zipIdx start).foldlM input.buildStep s = .ok t) : s.mssus <+: t.mssus :=
  foldlM_buildStep (motive := fun _ u => s.mssus <+: u.mssus)
    (fun seed _ u v hu hv => by
      obtain ⟨marker, nodes⟩ := seed
      obtain ⟨mssu, -, hmssus, -⟩ := buildStep_spec hv
      exact hu.trans ⟨[mssu], hmssus.symm⟩) List.prefix_rfl h

/-- The state before the marker of an MSSU, and the step that makes the MSSU. -/
theorem foldlM_row {seeds : List Seed} {start idx : ℕ} {mssu : BuiltMSSU}
    (hlength : s.mssus.length = start)
    (h : (seeds.zipIdx start).foldlM input.buildStep s = .ok t)
    (hmssu : t.mssus[start + idx]? = some mssu) :
    ∃ seed u v, seeds[idx]? = some seed ∧
      ((seeds.zipIdx start).take idx).foldlM input.buildStep s = .ok u ∧
      input.buildStep u (seed, start + idx) = .ok v ∧ v.mssus = u.mssus ++ [mssu] := by
  induction seeds generalizing s start idx with
  | nil =>
    obtain rfl := pure_eq_ok.1 h
    rw [List.getElem?_eq_none (by omega)] at hmssu
    cases hmssu
  | cons seed seeds ih =>
    rw [List.zipIdx_cons, List.foldlM_cons] at h
    obtain ⟨u, hu, h⟩ := bind_eq_ok.1 h
    obtain ⟨made, -, hmssus, -⟩ := buildStep_spec hu
    cases idx with
    | zero =>
      obtain ⟨later, hlater⟩ := foldlM_prefix h
      rw [← hlater, hmssus, ← hlength, Nat.add_zero, List.append_assoc,
        List.getElem?_append_right le_rfl, Nat.sub_self] at hmssu
      obtain rfl := Option.some.inj hmssu
      exact ⟨seed, s, u, rfl, rfl, hu, hmssus⟩
    | succ idx =>
      have hidx : start + (idx + 1) = start + 1 + idx := by omega
      rw [hidx] at hmssu ⊢
      obtain ⟨other, v, w, hother, hv, hw, hmade⟩ := ih (by simp [hmssus, hlength]) h hmssu
      refine ⟨other, v, w, hother, ?_, hw, hmade⟩
      rw [List.zipIdx_cons, List.take_succ_cons, List.foldlM_cons]
      exact bind_eq_ok.2 ⟨u, hu, hv⟩

/-- The MSSU of a marker is shaped like a binding, and bound as it should be unless the marker
misbinds. -/
theorem row_bound_iff (h : input.buildMssus = .ok s) {idx : ℕ} {mssu : BuiltMSSU}
    (hmssu : s.mssus[idx]? = some mssu) :
    mssu.Shaped (actionIndex input.target) ∧ (mssu.Bound ↔ ¬ input.MisbindsAt idx) := by
  have hfirst : s.mssus[0 + idx]? = some mssu := by rwa [Nat.zero_add]
  obtain ⟨seed, u, v, hseed, hu, hv, hmade⟩ := foldlM_row rfl h hfirst
  obtain ⟨nodes, io, refined, hnodes, -, hrefined, rfl⟩ := buildStep_eq_ok.1 hv
  obtain ⟨binding, hbinding, hrefine⟩ := bind_eq_ok.1 hrefined
  have hrefine := pure_eq_ok.1 hrefine
  obtain ⟨howned, hshared⟩ := refineBindingFromClosure_owned hbinding hrefine
  have hknown : refined.Known (actionIndex input.target) :=
    hrefine ▸ refineBindingFromClosure_known (actionBindingForMarker_known hbinding) nodes
      input.graph (markersById input.markers)
  have hbound : refined.Bound ↔ ¬ Misbinds seed.1 (actionIndex input.target)
      (markersById input.markers) binding
      (rankedScores (actionOwnershipScore nodes input.graph (markersById input.markers))) :=
    hrefine ▸ refineBindingFromClosure_bound_iff hbinding nodes input.graph
  obtain rfl := List.singleton_inj.1 (List.append_cancel_left hmade)
  refine ⟨⟨⟨fun id hid => (howned id hid).1, hknown.1, hknown.2⟩, howned, hshared⟩, ?_⟩
  refine Iff.trans hbound (not_congr ?_)
  constructor
  · exact fun hmis => ⟨seed, u, nodes, binding, hseed, hu, hnodes, hbinding, hmis⟩
  · rintro ⟨seed', u', nodes', binding', hseed', hu', hnodes', hbinding', hmis⟩
    obtain rfl := Option.some.inj (hseed.symm.trans hseed')
    obtain rfl := Except.ok.inj (hu.symm.trans hu')
    obtain rfl := Except.ok.inj (hnodes.symm.trans hnodes')
    obtain rfl := Except.ok.inj (hbinding.symm.trans hbinding')
    exact hmis

end Rows

/-! ## The merge -/

section Merge

variable {index : OrderedDict String Dict} {graph : ReducedGraph} {mssus : List BuiltMSSU}

/-- With a known primary action an MSSU is bound as it should be when the other ones do not name
it again. -/
theorem BuiltMSSU.Shaped.bound_iff {mssu : BuiltMSSU} {id : String} (h : mssu.Shaped index)
    (hprimary : mssu.primaryActionRef = some id) :
    mssu.Bound ↔ id ∉ mssu.secondaryActionRefs := by
  have howned := (h.owned id hprimary).2
  refine ⟨fun hbound => (hbound.owned id hprimary).2.1, fun hnot => ⟨fun hnone => ?_,
    fun other hother => ?_⟩⟩
  · rw [hprimary] at hnone
    cases hnone
  · obtain rfl := Option.some.inj (hprimary.symm.trans hother)
    exact ⟨(howned id).2 (.inl rfl), hnot, howned⟩

/-- The primary action in a key. -/
def MergeKey.action : MergeKey → String
  | .byFamily action .. => action
  | .byScope action .. => action

/-- The key of an MSSU tells its primary action. -/
theorem strip_action_of_key {mssu : BuiltMSSU} {key : MergeKey}
    (h : mergeKey graph mssu = some key) :
    primaryActionOf mssu ≠ "" ∧ strip key.action = primaryActionOf mssu := by
  simp only [mergeKey] at h
  split_ifs at h with hblank _ _ _
  · obtain rfl := Option.some.inj h
    exact ⟨hblank, strip_strip _⟩
  · obtain rfl := Option.some.inj h
    refine ⟨hblank, ?_⟩
    cases hprimary : mssu.primaryActionRef with
    | none =>
      rw [primaryActionOf, hprimary] at hblank
      exact absurd (by decide) hblank
    | some id => simp only [MergeKey.action, primaryActionOf, hprimary, Option.getD_some]

/-- The MSSUs of one key have one primary action. -/
theorem exists_primary_of_key (htrim : Trim index) {key : MergeKey} {group : List BuiltMSSU}
    (hshaped : ∀ mssu ∈ group, mssu.Shaped index)
    (hkey : ∀ mssu ∈ group, mergeKey graph mssu = some key) :
    ∀ mssu ∈ group, mssu.primaryActionRef = some (strip key.action) := by
  intro mssu hmssu
  obtain ⟨hblank, hstrip⟩ := strip_action_of_key (hkey mssu hmssu)
  cases hprimary : mssu.primaryActionRef with
  | none =>
    rw [primaryActionOf, hprimary] at hblank
    exact absurd (by decide) hblank
  | some id =>
    rw [hstrip, primaryActionOf, hprimary, Option.getD_some,
      htrim.strip id ((hshaped mssu hmssu).inTarget.primary id hprimary)]

/-- A merged MSSU is shaped like a binding too, and bound as it should be when all of its group
are. -/
theorem shaped_mergeBucket (htrim : Trim index) {base : BuiltMSSU} {group : List BuiltMSSU}
    {key : MergeKey} (hbase : base ∈ group) (hshaped : ∀ mssu ∈ group, mssu.Shaped index)
    (hkey : ∀ mssu ∈ group, mergeKey graph mssu = some key) :
    (mergeBucket base group).InTarget index ∧
      ((mergeBucket base group).Bound ↔ ∀ mssu ∈ group, mssu.Bound) := by
  have hprimary := exists_primary_of_key htrim hshaped hkey
  have hknown := (hshaped base hbase).inTarget.primary _ (hprimary base hbase)
  generalize strip key.action = id at hprimary hknown
  have hmerged : (mergeBucket base group).primaryActionRef = some id := hprimary base hbase
  have hsecondary : ∀ other, other ∈ (mergeBucket base group).secondaryActionRefs ↔
      ∃ mssu ∈ group, other ∈ mssu.secondaryActionRefs := by
    intro other
    rw [mergeBucket, mem_sortedSet, List.mem_flatMap]
  have hrefs : ∀ other, other ∈ (mergeBucket base group).actionRefs ↔
      ∃ mssu ∈ group, other ∈ mssu.actionRefs := by
    intro other
    rw [mergeBucket, mem_sortedSet, List.mem_flatMap]
  have howned : OwnedRefs index (some id) (mergeBucket base group).secondaryActionRefs
      (mergeBucket base group).actionRefs := by
    rintro _ ⟨⟩
    refine ⟨hknown, fun other => ?_⟩
    rw [hrefs, hsecondary]
    constructor
    · rintro ⟨mssu, hmssu, hother⟩
      exact (((hshaped mssu hmssu).owned id (hprimary mssu hmssu)).2 other).1 hother |>.imp_right
        fun h => ⟨mssu, hmssu, h⟩
    · rintro (rfl | ⟨mssu, hmssu, hother⟩)
      · exact ⟨base, hbase, (((hshaped base hbase).owned _ (hprimary base hbase)).2 _).2 (.inl rfl)⟩
      · exact ⟨mssu, hmssu,
          (((hshaped mssu hmssu).owned id (hprimary mssu hmssu)).2 other).2 (.inr hother)⟩
  have hin : (mergeBucket base group).InTarget index := by
    refine ⟨fun other hother => ?_, fun other hother => ?_, fun other hother => ?_⟩
    · obtain rfl := Option.some.inj (hmerged.symm.trans hother)
      exact hknown
    · obtain ⟨mssu, hmssu, hother⟩ := (hsecondary other).1 hother
      exact (hshaped mssu hmssu).inTarget.secondary other hother
    · obtain ⟨mssu, hmssu, hother⟩ := (hrefs other).1 hother
      exact (hshaped mssu hmssu).inTarget.refs other hother
  have hshape : (mergeBucket base group).Shaped index :=
    ⟨hin, hmerged ▸ howned, fun _ hnone => by rw [hmerged] at hnone; cases hnone⟩
  refine ⟨hin, ?_⟩
  rw [hshape.bound_iff hmerged, hsecondary, not_exists]
  refine forall_congr' fun mssu => ?_
  rw [not_and]
  exact forall_congr' fun hmssu => ((hshaped mssu hmssu).bound_iff (hprimary mssu hmssu)).symm

/-- An MSSU that is dropped is bound as it should be. -/
theorem bound_of_dropped (htrim : Trim index) {mssu : BuiltMSSU} (h : mssu.Shaped index)
    (hdropped : dropTeardownUnownedBleOps mssu) : mssu.Bound := by
  rw [dropTeardownUnownedBleOps, Bool.and_eq_true, Bool.and_eq_true, Bool.and_eq_true] at hdropped
  obtain ⟨⟨⟨-, hempty⟩, hshared⟩, -⟩ := hdropped
  cases hprimary : mssu.primaryActionRef with
  | none => exact h.shared hshared hprimary
  | some id =>
    obtain ⟨hknown, hrefs⟩ := h.owned id hprimary
    have hmem : id ∈ trimmed mssu.actionRefs := List.mem_filter.2
      ⟨List.mem_map.2 ⟨id, (hrefs id).2 (.inl rfl), htrim.strip id hknown⟩,
        decide_eq_true (htrim.nonblank id hknown)⟩
    rw [List.isEmpty_iff.1 hempty] at hmem
    cases hmem

/-- A group is a single MSSU, or all its MSSUs have one key. -/
theorem group_cases (hnodup : (mssus.map (·.mssuId)).Nodup) {group : List BuiltMSSU}
    (hgroup : group ∈ mergeGroups graph mssus) :
    (∃ mssu ∈ mssus, group = [mssu]) ∨ ∃ base ∈ group, ∃ key,
      mergeGroup group = [mergeBucket base group] ∧ (∀ mssu ∈ group, mssu ∈ mssus) ∧
        ∀ mssu ∈ group, mergeKey graph mssu = some key := by
  obtain ⟨hmem, -, hkey⟩ := mem_mergeGroups hnodup hgroup
  match group with
  | [] => exact absurd rfl (ne_nil_of_mem_mergeGroups hgroup)
  | [mssu] => exact .inl ⟨mssu, hmem mssu List.mem_cons_self, rfl⟩
  | base :: other :: rest =>
    obtain ⟨single, hsingle⟩ | ⟨key, hkey⟩ := hkey
    · exact absurd (congrArg List.length hsingle) (by simp)
    · exact .inr ⟨base, List.mem_cons_self, key, rfl, hmem, hkey⟩

/-- What the merge keeps is bound as it should be, or loses something, when that holds of every
MSSU; a merged group has nothing to lose. -/
theorem keptMssus_forall_iff (graph : ReducedGraph) (loses : BuiltMSSU → Prop)
    (htrim : Trim index) (hnodup : (mssus.map (·.mssuId)).Nodup)
    (hshaped : ∀ mssu ∈ mssus, mssu.Shaped index)
    (hloses : ∀ mssu, loses mssu → mssu.isSharedInfra) :
    (∀ mssu ∈ keptMssus graph mssus, mssu.InTarget index) ∧
      ((∀ mssu ∈ keptMssus graph mssus, mssu.Bound ∨ loses mssu) ↔
        ∀ mssu ∈ mssus, mssu.Bound ∨ loses mssu) := by
  have hunshared : ∀ mssu : BuiltMSSU, mssu.isSharedInfra = false →
      (mssu.Bound ∨ loses mssu ↔ mssu.Bound) := by
    intro mssu hshared
    refine or_iff_left fun hmssu => ?_
    rw [hloses mssu hmssu] at hshared
    cases hshared
  refine ⟨fun merged hmerged => ?_, fun hall mssu hmssu => ?_, fun hall merged hmerged => ?_⟩
  · obtain ⟨group, hgroup, hin⟩ := List.mem_flatMap.1 (List.mem_of_mem_filter hmerged)
    rcases group_cases hnodup hgroup with ⟨mssu, hmssu, rfl⟩ | ⟨base, hbase, key, hmade, hmem, hkey⟩
    · obtain rfl := List.mem_singleton.1 hin
      exact (hshaped _ hmssu).inTarget
    · rw [hmade] at hin
      obtain rfl := List.mem_singleton.1 hin
      exact (shaped_mergeBucket htrim hbase (fun m hm => hshaped m (hmem m hm)) hkey).1
  · cases hdropped : dropTeardownUnownedBleOps mssu with
    | true => exact .inl (bound_of_dropped htrim (hshaped mssu hmssu) hdropped)
    | false =>
      obtain ⟨group, hgroup, hin⟩ : ∃ group ∈ mergeGroups graph mssus, mssu ∈ group :=
        exists_mem_mergeGroups hmssu
      rcases group_cases hnodup hgroup with ⟨single, -, rfl⟩ | ⟨base, hbase, key, hmade, hmem, hkey⟩
      · obtain rfl := List.mem_singleton.1 hin
        refine hall mssu (List.mem_filter.2 ⟨List.mem_flatMap.2 ⟨_, hgroup, hin⟩, ?_⟩)
        rw [hdropped]
        rfl
      · have hmerged : mergeBucket base group ∈ keptMssus graph mssus := by
          refine List.mem_filter.2 ⟨List.mem_flatMap.2 ⟨group, hgroup, ?_⟩, ?_⟩
          · rw [hmade]
            exact List.mem_singleton_self _
          · simp [dropTeardownUnownedBleOps, unshared_mergeBucket base hkey]
        exact .inl ((shaped_mergeBucket htrim hbase (fun m hm => hshaped m (hmem m hm)) hkey).2.1
          ((hunshared _ (unshared_mergeBucket base hkey)).1 (hall _ hmerged)) mssu hin)
  · obtain ⟨group, hgroup, hin⟩ := List.mem_flatMap.1 (List.mem_of_mem_filter hmerged)
    rcases group_cases hnodup hgroup with ⟨mssu, hmssu, rfl⟩ | ⟨base, hbase, key, hmade, hmem, hkey⟩
    · obtain rfl := List.mem_singleton.1 hin
      exact hall _ hmssu
    · rw [hmade] at hin
      obtain rfl := List.mem_singleton.1 hin
      refine .inl ((shaped_mergeBucket htrim hbase (fun m hm => hshaped m (hmem m hm)) hkey).2.2
        fun m hm => ?_)
      exact (hunshared m (unshared_of_key (hkey m hm))).1 (hall m (hmem m hm))

end Merge

/-! ## The tear-down -/

section Teardown

/-- An MSSU of the action `A2` that is not at tear-down. -/
def takesOver (peer : BuiltMSSU) : Bool :=
  decide (primaryActionOf peer = "A2") && decide (upper (strip peer.phase) ≠ Phase.teardown)

/-- A connection at tear-down loses its action when an MSSU that is kept takes it over, or when it
is not the first such connection. -/
def LosesAction (kept : List BuiltMSSU) (mssu : BuiltMSSU) : Prop :=
  dropTeardownConnectMssu mssu ∧ ((∃ peer ∈ kept, takesOver peer) ∨
    ∃ peer ∈ kept.takeWhile (·.mssuId ≠ mssu.mssuId), dropTeardownConnectMssu peer)

/-- A text that is `TEARDOWN` in capitals has no blanks around it. -/
theorem strip_of_teardown {phase : String} (h : upper phase = Phase.teardown) :
    upper (strip phase) = Phase.teardown := by
  have htrimmed : strip Phase.teardown = Phase.teardown := by decide +kernel
  rw [← strip_upper, h, htrimmed]

theorem not_takesOver {mssu : BuiltMSSU} (h : dropTeardownConnectMssu mssu) : ¬ takesOver mssu := by
  rw [dropTeardownConnectMssu, Bool.and_eq_true, Bool.and_eq_true, Bool.and_eq_true,
    decide_eq_true_eq] at h
  simp [takesOver, strip_of_teardown h.1.1.1]

/-- What the tear-down sees of the other MSSUs. -/
theorem any_takesOver {mssu : BuiltMSSU} {peers : List BuiltMSSU}
    (hdrop : dropTeardownConnectMssu mssu)
    (hpeers : ∀ peer ∈ peers, peer.mssuId = mssu.mssuId → peer = mssu) :
    (peers.any fun peer => decide (peer.mssuId ≠ mssu.mssuId) &&
        decide (primaryActionOf peer = "A2") &&
          decide (upper (strip peer.phase) ≠ Phase.teardown)) ↔
      ∃ peer ∈ peers, takesOver peer := by
  simp only [List.any_eq_true, Bool.and_assoc]
  refine exists_congr fun peer => and_congr_right fun hpeer => ?_
  rw [Bool.and_eq_true, decide_eq_true_eq]
  refine and_iff_right_of_imp fun htakes hid => ?_
  rw [hpeers peer hpeer hid] at htakes
  exact not_takesOver hdrop htakes

/-- Only a connection that is taken over loses its action. -/
theorem bound_normalizeTeardownConnectMssu {mssu : BuiltMSSU} {peers : List BuiltMSSU}
    (hpeers : ∀ peer ∈ peers, peer.mssuId = mssu.mssuId → peer = mssu) :
    (normalizeTeardownConnectMssu mssu peers).Bound ↔
      mssu.Bound ∨ (dropTeardownConnectMssu mssu ∧ ∃ peer ∈ peers, takesOver peer) := by
  cases hdrop : dropTeardownConnectMssu mssu with
  | false => simp [normalizeTeardownConnectMssu, hdrop]
  | true =>
    rw [normalizeTeardownConnectMssu, hdrop, if_neg (by decide)]
    by_cases htakes : ∃ peer ∈ peers, takesOver peer
    · rw [if_pos ((any_takesOver hdrop hpeers).2 htakes)]
      exact iff_of_true ⟨fun _ => ⟨rfl, rfl⟩, fun id hid => by cases hid⟩ (.inr ⟨rfl, htakes⟩)
    · rw [if_neg (mt (any_takesOver hdrop hpeers).1 htakes), or_iff_left fun h => htakes h.2]
      exact Iff.rfl

/-- What takes an action over after a connection is normalised: what did before, and the
connection itself. -/
theorem exists_takesOver {mssu : BuiltMSSU} {before rest : List BuiltMSSU}
    (hpeers : ∀ peer ∈ before ++ mssu :: rest, peer.mssuId = mssu.mssuId → peer = mssu) :
    (∃ peer ∈ before ++ normalizeTeardownConnectMssu mssu (before ++ mssu :: rest) :: rest,
        takesOver peer) ↔
      (∃ peer ∈ before ++ mssu :: rest, takesOver peer) ∨ dropTeardownConnectMssu mssu := by
  cases hdrop : dropTeardownConnectMssu mssu with
  | false => simp [normalizeTeardownConnectMssu, hdrop]
  | true =>
    refine iff_of_true ?_ (.inr rfl)
    rw [normalizeTeardownConnectMssu, hdrop, if_neg (by decide)]
    by_cases htakes : ∃ peer ∈ before ++ mssu :: rest, takesOver peer
    · obtain ⟨peer, hpeer, hpeertakes⟩ := htakes
      have hne : peer ≠ mssu := fun h => not_takesOver hdrop (h ▸ hpeertakes)
      refine ⟨peer, ?_, hpeertakes⟩
      rw [List.mem_append, List.mem_cons] at hpeer ⊢
      exact hpeer.imp_right fun h => .inr (h.resolve_left hne)
    · rw [if_neg (mt (any_takesOver hdrop hpeers).1 htakes)]
      refine ⟨_, List.mem_append_right before List.mem_cons_self, ?_⟩
      rw [dropTeardownConnectMssu, Bool.and_eq_true, Bool.and_eq_true, Bool.and_eq_true,
        decide_eq_true_eq, decide_eq_true_eq] at hdrop
      have hprimary : primaryActionOf { mssu with phase := Phase.setup } = "A2" := hdrop.1.1.2
      rw [takesOver, hprimary]
      show (decide ("A2" = "A2") && decide (upper (strip Phase.setup) ≠ Phase.teardown)) = true
      decide +kernel

/-- The MSSUs after the tear-down are bound as they should be when they were before or lose their
actions. -/
theorem bound_normalizeTeardown {before rest : List BuiltMSSU}
    (hnodup : ((before ++ rest).map (·.mssuId)).Nodup) :
    (∀ mssu ∈ normalizeTeardown before rest, mssu.Bound) ↔
      (∀ mssu ∈ before, mssu.Bound) ∧ ∀ front mssu back, rest = front ++ mssu :: back →
        mssu.Bound ∨ (dropTeardownConnectMssu mssu ∧ ((∃ peer ∈ before ++ rest, takesOver peer) ∨
          ∃ peer ∈ front, dropTeardownConnectMssu peer)) := by
  induction rest generalizing before with
  | nil =>
    rw [normalizeTeardown]
    refine (and_iff_left fun front mssu back h => ?_).symm
    cases front <;> cases h
  | cons mssu rest ih =>
    have hpeers : ∀ peer ∈ before ++ mssu :: rest, peer.mssuId = mssu.mssuId → peer = mssu :=
      fun peer hpeer hid => List.inj_on_of_nodup_map hnodup hpeer
        (List.mem_append_right _ List.mem_cons_self) hid
    have hnodup' : (((before ++ [normalizeTeardownConnectMssu mssu (before ++ mssu :: rest)]) ++
        rest).map (·.mssuId)).Nodup := by simpa using hnodup
    rw [normalizeTeardown, ih hnodup', List.append_assoc, List.singleton_append,
      exists_takesOver hpeers, List.forall_mem_append, List.forall_mem_singleton,
      bound_normalizeTeardownConnectMssu hpeers, and_assoc]
    refine and_congr_right fun _ => ⟨fun hboth front other back h => ?_, fun h => ⟨?_, ?_⟩⟩
    · obtain ⟨hfirst, hrest⟩ := hboth
      cases front with
      | nil =>
        obtain ⟨rfl, -⟩ := List.cons.inj h
        exact hfirst.imp_right fun hdrop => ⟨hdrop.1, .inl hdrop.2⟩
      | cons first front =>
        obtain ⟨rfl, htail⟩ := List.cons.inj h
        refine (hrest front other back htail).imp_right fun hloses => ⟨hloses.1, ?_⟩
        rcases hloses.2 with (htakes | hdropped) | ⟨peer, hpeer, hdropped⟩
        · exact .inl htakes
        · exact .inr ⟨mssu, List.mem_cons_self, hdropped⟩
        · exact .inr ⟨peer, List.mem_cons_of_mem _ hpeer, hdropped⟩
    · refine (h [] mssu rest rfl).imp_right fun hloses => ⟨hloses.1, ?_⟩
      rcases hloses.2 with htakes | ⟨peer, hpeer, -⟩
      · exact htakes
      · cases hpeer
    · rintro front other back rfl
      refine (h (mssu :: front) other back rfl).imp_right fun hloses => ⟨hloses.1, ?_⟩
      rcases hloses.2 with htakes | ⟨peer, hpeer, hdropped⟩
      · exact .inl (.inl htakes)
      · rcases List.mem_cons.1 hpeer with rfl | hpeer
        · exact .inl (.inr hdropped)
        · exact .inr ⟨peer, hpeer, hdropped⟩

/-- What comes before a row among rows with different names. -/
theorem takeWhile_of_nodup {front back : List BuiltMSSU} {mssu : BuiltMSSU}
    (hnodup : ((front ++ mssu :: back).map (·.mssuId)).Nodup) :
    (front ++ mssu :: back).takeWhile (·.mssuId ≠ mssu.mssuId) = front := by
  have hne : ∀ peer ∈ front, decide (peer.mssuId ≠ mssu.mssuId) = true := by
    intro peer hpeer
    rw [List.map_append, List.map_cons, List.nodup_append] at hnodup
    exact decide_eq_true (hnodup.2.2 _ (List.mem_map_of_mem hpeer) _ List.mem_cons_self)
  rw [List.takeWhile_append_of_pos hne, List.takeWhile_cons_of_neg (by simp), List.append_nil]

/-- All that is kept is bound as it should be after the tear-down, or loses its action. -/
theorem bound_normalizeTeardown_iff {kept : List BuiltMSSU}
    (hnodup : (kept.map (·.mssuId)).Nodup) :
    (∀ mssu ∈ normalizeTeardown [] kept, mssu.Bound) ↔
      ∀ mssu ∈ kept, mssu.Bound ∨ LosesAction kept mssu := by
  have hall : ((([] : List BuiltMSSU) ++ kept).map (·.mssuId)).Nodup := hnodup
  rw [bound_normalizeTeardown hall, List.nil_append,
    and_iff_right fun mssu (hmssu : mssu ∈ []) => absurd hmssu List.not_mem_nil]
  constructor
  · intro h mssu hmssu
    obtain ⟨front, back, rfl⟩ := List.append_of_mem hmssu
    rw [LosesAction, takeWhile_of_nodup hnodup]
    exact h front mssu back rfl
  · rintro h front mssu back rfl
    have := h mssu (List.mem_append_right _ List.mem_cons_self)
    rwa [LosesAction, takeWhile_of_nodup hnodup] at this

end Teardown

/-! ## The result -/

section Result

variable {index : OrderedDict String Dict}

theorem inTarget_normalizeTeardownConnectMssu {mssu : BuiltMSSU} (h : mssu.InTarget index)
    (peers : List BuiltMSSU) : (normalizeTeardownConnectMssu mssu peers).InTarget index := by
  rw [normalizeTeardownConnectMssu]
  split_ifs
  · exact h
  · refine ⟨fun id hid => ?_, fun id hid => ?_, fun id hid => ?_⟩
    · cases hid
    · cases hid
    · cases hid
  · exact ⟨h.primary, h.secondary, h.refs⟩

/-- The tags do not matter. -/
theorem propagateTags_iff {graph : ReducedGraph} {mssus : List BuiltMSSU} {mssu : BuiltMSSU} :
    (propagateTags graph mssus mssu).InTarget index ∧ (propagateTags graph mssus mssu).Bound ↔
      mssu.InTarget index ∧ mssu.Bound := by
  rw [propagateTags]
  split_ifs
  · exact Iff.rfl
  · exact and_congr_left' ⟨fun h => ⟨h.primary, h.secondary, h.refs⟩,
      fun h => ⟨h.primary, h.secondary, h.refs⟩⟩
  · exact and_congr_left' ⟨fun h => ⟨h.primary, h.secondary, h.refs⟩,
      fun h => ⟨h.primary, h.secondary, h.refs⟩⟩

end Result

/-! ## A binding without a primary action -/

/-- A call that stands for an action which the target does not have, and for one which it has. -/
def orphanInput : BuildInput where
  graph := { nodes := .ofList [("a", { markerRefs := ["marker_1"] })] }
  markers := [{ callMarker 1 "close" with
    evidence := ["action_match:generalized_profile_secondary_binding"]
    secondaryActionIds := ["open"] }]
  markerToNodes := .ofList [("marker_1", ["a"])]
  target := chainInput.target

theorem orphanInput_build : ∃ result, build orphanInput = .ok result ∧
    result.mssus.map (fun mssu => (mssu.primaryActionRef, mssu.actionRefs)) =
      [(none, ["open"])] := by
  have hrun : ((build orphanInput).toOption.map fun result =>
      result.mssus.map fun mssu => (mssu.primaryActionRef, mssu.actionRefs)) =
      some [(none, ["open"])] := by decide +kernel
  cases hbuild : build orphanInput with
  | error e => simp [hbuild, Except.toOption] at hrun
  | ok result =>
    simp only [hbuild, Except.toOption, Option.map_some, Option.some.injEq] at hrun
    exact ⟨result, rfl, hrun⟩

end FloWeaver.Mssu
