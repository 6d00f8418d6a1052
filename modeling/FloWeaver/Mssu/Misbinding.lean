import FloWeaver.Mssu.RenamedBinding

/-!
# When a binding goes wrong

A binding should have a primary action, other actions apart from it, and nothing else.  The builder
keeps to this when it binds by the profile or drops the binding.  Bound by its own fields a marker
may name its primary action a second time, and a marker that stands for several actions may keep
the others when the first is not an action of the target.

* `BoundRefs` — the actions are the primary one and the other ones.
* `NamesPrimaryTwice`, `NamesOthersOnly`, `KeepsOthersOnly` — what a marker may do wrong.
* `Misbinds` — the marker does it, and the builder does not drop its binding.
* `refineBindingFromClosure_bound_iff` — the refined binding is as it should be otherwise, and only
  otherwise.
-/

namespace FloWeaver.Mssu

open Py

/-- The actions are the primary one and the other ones, which do not name it again. -/
structure BoundRefs (primary : Option String) (secondary refs : List String) : Prop where
  unowned : primary = none → refs = [] ∧ secondary = []
  owned : ∀ id, primary = some id →
    id ∈ refs ∧ id ∉ secondary ∧ ∀ other, other ∈ refs ↔ other = id ∨ other ∈ secondary

/-- A primary action is known, and with it the actions are the primary one and the other ones. -/
def OwnedRefs (index : OrderedDict String Dict) (primary : Option String)
    (secondary refs : List String) : Prop :=
  ∀ id, primary = some id →
    known index id ∧ ∀ other, other ∈ refs ↔ other = id ∨ other ∈ secondary

/-- The actions of a binding are the primary one and the other ones. -/
def Binding.Bound (binding : Binding) : Prop :=
  BoundRefs binding.primaryActionRef binding.secondaryActionRefs binding.actionRefs

section Shapes

variable {binding : Binding}

theorem bound_none (h : binding.primaryActionRef = none) :
    binding.Bound ↔ binding.actionRefs = [] ∧ binding.secondaryActionRefs = [] :=
  ⟨fun hbound => hbound.unowned h, fun hempty => ⟨fun _ => hempty, fun id hid => by
    rw [h] at hid
    cases hid⟩⟩

/-- With a primary action it is enough that the others do not name it again. -/
theorem bound_some {id : String} (h : binding.primaryActionRef = some id)
    (hrefs : ∀ other, other ∈ binding.actionRefs ↔
      other = id ∨ other ∈ binding.secondaryActionRefs) :
    binding.Bound ↔ id ∉ binding.secondaryActionRefs := by
  refine ⟨fun hbound => (hbound.owned id h).2.1, fun hnot => ⟨fun hnone => ?_, fun x hx => ?_⟩⟩
  · rw [h] at hnone
    cases hnone
  · obtain rfl := Option.some.inj (h.symm.trans hx)
    exact ⟨(hrefs id).2 (.inl rfl), hnot, hrefs⟩

theorem bound_clearActionBinding : (clearActionBinding binding).Bound :=
  (bound_none rfl).2 ⟨rfl, rfl⟩

theorem bound_ite_clear {p : Prop} [Decidable p] :
    (if p then clearActionBinding binding else binding).Bound ↔ p ∨ binding.Bound := by
  split_ifs with hp
  · exact iff_of_true bound_clearActionBinding (.inl hp)
  · rw [or_iff_right hp]

theorem bound_tagPrimary {index : OrderedDict String Dict} :
    (tagPrimary index binding).Bound ↔ binding.Bound := by
  rw [tagPrimary]
  split_ifs
  · exact Iff.rfl
  · exact Iff.rfl

theorem bound_bindTo_some {id : String} {secondary : List String} :
    (bindTo binding (some id) secondary).Bound ↔
      (supportsMultiActionBinding binding → id ∉ secondary) := by
  have hprimary : (bindTo binding (some id) secondary).primaryActionRef = some id := rfl
  rw [bound_some hprimary fun other => by simp [bindTo]]
  simp only [bindTo]
  split_ifs with hmulti <;> simp [hmulti]

theorem bound_bindTo_none {secondary : List String} :
    (bindTo binding none secondary).Bound ↔
      (supportsMultiActionBinding binding → secondary = []) := by
  rw [bound_none rfl]
  simp only [bindTo]
  split_ifs with hmulti <;> simp [hmulti]

end Shapes

/-! ## What a marker may do wrong -/

section Marker

variable (marker : Marker) (index : OrderedDict String Dict)

/-- The marker names its primary action, which is known, among the other ones too. -/
structure NamesPrimaryTwice : Prop where
  names : namesSecondaryActions marker
  twice : ∃ id, (effectiveMarkerActionRefs marker).1 = some id ∧ known index id ∧
    id ∈ (effectiveMarkerActionRefs marker).2

/-- The marker stands for several actions without being shared, and some of the other ones are
known but not the primary one. -/
structure NamesOthersOnly : Prop where
  generalized : markerSupportsGeneralizedSecondaryBinding marker
  unshared : ¬ markerIsSharedInfra marker
  primary : ∀ id, (effectiveMarkerActionRefs marker).1 = some id → ¬ known index id
  other : ∃ id ∈ (effectiveMarkerActionRefs marker).2, known index id

variable (markersById : OrderedDict String Marker) (binding : Binding)

/-- A generic operation whose action has a more specific marker. -/
def yieldsToPeer : Prop :=
  primaryOf binding ≠ "" ∧ isGenericProtocolMarker marker.type ∧
    !markerHasSpecificActionSignal marker ∧
    hasMoreSpecificProtocolPeer marker (primaryOf binding) markersById

/-- A write on a lane that is not a writeback lane. -/
def writesForeignLane : Prop :=
  marker.type = "STATE_WRITE" ∧ binding.laneTag.getD "" ≠ "" ∧
    !writebackLanes.contains (binding.laneTag.getD "")

/-- A write on such a lane, or by an action of another protocol. -/
def writesForeign : Prop :=
  marker.type = "STATE_WRITE" ∧
    ((binding.laneTag.getD "" ≠ "" ∧ !writebackLanes.contains (binding.laneTag.getD "")) ∨
      ["BLE", "CLOUD"].contains (protocolOf ((index.get? (primaryOf binding)).getD [])))

/-- The action with the highest score is not known, but a marker that stands for several actions
without being shared has others that are. -/
structure KeepsOthersOnly (ranked : List (String × ℚ)) : Prop where
  generalized : markerSupportsGeneralizedSecondaryBinding marker
  unshared : ¬ markerIsSharedInfra marker
  others : ∃ owner score rest, ranked = (owner, score) :: rest ∧ ¬ known index owner ∧
    ownerSecondary index binding owner score rest ≠ []

/-- The marker does one of these things, and the builder does not drop its binding: it is bound by
the scores of its nodes, to a writeback, or as it is when there are no scores. -/
def Misbinds (ranked : List (String × ℚ)) : Prop :=
  ¬ isPolicyOnlySharedMarker marker.type ∧ ¬ preserveExplicitProfileBinding marker binding ∧
    ((¬ preservesWriteback marker index binding ∧ KeepsOthersOnly marker index binding ranked ∧
        ¬ writesForeignLane marker binding) ∨
      (ranked = [] ∧ NamesOthersOnly marker index) ∨
      (NamesPrimaryTwice marker index ∧ (preservesWriteback marker index binding ∨
        (ranked = [] ∧ ¬ yieldsToPeer marker markersById binding ∧
          ¬ writesForeign marker index binding))))

end Marker

/-! ## The binding of a marker -/

/-- An index without a blank key, whose keys have no blanks around them. -/
structure Trim (index : OrderedDict String Dict) : Prop where
  strip : ∀ id, known index id → strip id = id
  nonblank : ∀ id, known index id → id ≠ ""

theorem trim_actionIndex (target : Option OptimizationTarget) : Trim (actionIndex target) := by
  have hkey : ∀ id, known (actionIndex target) id → Py.strip id = id ∧ id ≠ "" := by
    intro id hid
    obtain ⟨action, haction⟩ := Option.isSome_iff_exists.1 hid
    obtain ⟨hrow, hblank⟩ := List.mem_filter.1 (OrderedDict.mem_of_get?_ofList haction)
    obtain ⟨row, -, heq⟩ := List.mem_map.1 hrow
    obtain ⟨rfl, -⟩ := Prod.mk.inj heq
    exact ⟨strip_strip _, of_decide_eq_true hblank⟩
  exact ⟨fun id hid => (hkey id hid).1, fun id hid => (hkey id hid).2⟩

theorem Trim.primaryOf {index : OrderedDict String Dict} (h : Trim index) {binding : Binding}
    {id : String} (hprimary : binding.primaryActionRef = some id) (hid : known index id) :
    Mssu.primaryOf binding = id := by
  rw [Mssu.primaryOf, hprimary]
  exact h.strip id hid

/-- What holds of the binding that a marker gets from its fields and the hints. -/
structure MarkerBinding (marker : Marker) (index : OrderedDict String Dict) (binding : Binding) :
    Prop where
  known : ∀ id, binding.primaryActionRef = some id → known index id
  refs : ∀ id, binding.primaryActionRef = some id →
    ∀ other, other ∈ binding.actionRefs ↔ other = id ∨ other ∈ binding.secondaryActionRefs
  twice : ∀ id, binding.primaryActionRef = some id →
    (id ∈ binding.secondaryActionRefs ↔ NamesPrimaryTwice marker index)
  unowned : binding.primaryActionRef = none → ¬ NamesPrimaryTwice marker index ∧
    (¬ binding.isSharedInfra → (binding.actionRefs = [] ∧ binding.secondaryActionRefs = [] ↔
      ¬ NamesOthersOnly marker index))
  others : NamesOthersOnly marker index → binding.primaryActionRef = none
  lane : binding.laneTag = (binding.primaryActionRef.bind index.get?).bind laneTagForAction
  multi : ∀ id ∈ binding.secondaryActionRefs, supportsMultiActionBinding binding
  shared : ¬ binding.isSharedInfra → binding.supportsGeneralizedSecondaryBinding →
    ¬ markerIsSharedInfra marker ∧ markerSupportsGeneralizedSecondaryBinding marker
  generalized : markerSupportsGeneralizedSecondaryBinding marker → ¬ markerIsSharedInfra marker →
    (∃ id, Mssu.known index id) →
    ¬ binding.isSharedInfra ∧ binding.supportsGeneralizedSecondaryBinding

section Refs

variable {marker : Marker} {target : OptimizationTarget}

theorem mem_knownRefs {id : String} : id ∈ knownRefs marker target ↔
    ((effectiveMarkerActionRefs marker).1 = some id ∨
      namesSecondaryActions marker ∧ id ∈ (effectiveMarkerActionRefs marker).2) ∧
      known (actionIndex (some target)) id := by
  rw [knownRefs, mem_sortedSet, List.mem_filter, namedRefs, List.mem_append, Option.mem_toList]
  split_ifs with hnames <;> simp [hnames]

theorem mem_otherRefs {index : OrderedDict String Dict} {secondary : List String} {id : String} :
    id ∈ (if namesSecondaryActions marker then secondary.filter (known index) else []) ↔
      namesSecondaryActions marker ∧ id ∈ secondary ∧ known index id := by
  split_ifs with hnames <;> simp [hnames]

theorem names_of_generalized (h : markerSupportsGeneralizedSecondaryBinding marker) :
    namesSecondaryActions marker := by
  rw [namesSecondaryActions, h, Bool.or_true]

theorem generalized_of_names (h : namesSecondaryActions marker) (hshared : ¬ markerIsSharedInfra marker) :
    markerSupportsGeneralizedSecondaryBinding marker := by
  rw [namesSecondaryActions, Bool.or_eq_true] at h
  exact h.resolve_left hshared

/-- A marker that names no known action does neither of the two things. -/
theorem names_nothing (h : (knownRefs marker target).isEmpty) :
    (∀ id, (effectiveMarkerActionRefs marker).1 = some id → ¬ known (actionIndex (some target)) id) ∧
      (namesSecondaryActions marker → ∀ id ∈ (effectiveMarkerActionRefs marker).2,
        ¬ known (actionIndex (some target)) id) := by
  rw [List.isEmpty_iff] at h
  have hnone : ∀ id, id ∉ knownRefs marker target := fun id => h ▸ List.not_mem_nil
  exact ⟨fun id hid hknown => hnone id (mem_knownRefs.2 ⟨.inl hid, hknown⟩),
    fun hnames id hid hknown => hnone id (mem_knownRefs.2 ⟨.inr ⟨hnames, hid⟩, hknown⟩)⟩

theorem filter_eq_none {index : OrderedDict String Dict} {primary : Option String} :
    primary.filter (known index) = none ↔ ∀ id, primary = some id → ¬ known index id := by
  cases primary <;> simp [Option.filter]

theorem bind_filter_known (index : OrderedDict String Dict) (primary : Option String) :
    (primary.filter (known index)).bind index.get? = primary.bind index.get? := by
  cases primary with
  | none => rfl
  | some id =>
    by_cases hid : known index id
    · rw [Option.filter_some_pos hid]
    · rw [Option.filter_some_neg (Bool.eq_false_iff.2 hid)]
      exact (Option.not_isSome_iff_eq_none.1 hid).symm

@[simp] theorem primary_bindRefs (refs : MarkerRefs) :
    (bindRefs marker target refs).primaryActionRef =
      refs.primary.filter (known (actionIndex (some target))) := rfl

@[simp] theorem secondary_bindRefs (refs : MarkerRefs) :
    (bindRefs marker target refs).secondaryActionRefs =
      if namesSecondaryActions marker then
        refs.secondary.filter (known (actionIndex (some target))) else [] := rfl

@[simp] theorem actionRefs_bindRefs (refs : MarkerRefs) :
    (bindRefs marker target refs).actionRefs = refs.refs := rfl

/-- What does not depend on the refs. -/
theorem markerBinding_bindRefs {refs : MarkerRefs}
    (hrefs : ∀ id, refs.primary = some id → known (actionIndex (some target)) id →
      ∀ other, other ∈ refs.refs ↔ other = id ∨
        namesSecondaryActions marker ∧ other ∈ refs.secondary ∧
          known (actionIndex (some target)) other)
    (htwice : ∀ id, refs.primary = some id → known (actionIndex (some target)) id →
      (namesSecondaryActions marker ∧ id ∈ refs.secondary ↔
        NamesPrimaryTwice marker (actionIndex (some target))))
    (hunowned : (∀ id, refs.primary = some id → ¬ known (actionIndex (some target)) id) →
      ¬ NamesPrimaryTwice marker (actionIndex (some target)) ∧ (¬ markerIsSharedInfra marker →
        (refs.refs = [] ∧ (∀ id ∈ refs.secondary, namesSecondaryActions marker →
            ¬ known (actionIndex (some target)) id) ↔
          ¬ NamesOthersOnly marker (actionIndex (some target)))))
    (hothers : NamesOthersOnly marker (actionIndex (some target)) →
      ∀ id, refs.primary = some id → ¬ known (actionIndex (some target)) id) :
    MarkerBinding marker (actionIndex (some target)) (bindRefs marker target refs) where
  known id hid := by
    rw [primary_bindRefs] at hid
    exact (Option.filter_eq_some_iff.1 hid).2
  refs id hid other := by
    rw [primary_bindRefs] at hid
    obtain ⟨hprimary, hknown⟩ := Option.filter_eq_some_iff.1 hid
    rw [actionRefs_bindRefs, secondary_bindRefs, mem_otherRefs]
    exact hrefs id hprimary hknown other
  twice id hid := by
    rw [primary_bindRefs] at hid
    obtain ⟨hprimary, hknown⟩ := Option.filter_eq_some_iff.1 hid
    rw [secondary_bindRefs, mem_otherRefs, ← htwice id hprimary hknown]
    exact and_congr_right fun _ => and_iff_left hknown
  unowned hnone := by
    rw [primary_bindRefs, filter_eq_none] at hnone
    obtain ⟨htwice, hnothing⟩ := hunowned hnone
    refine ⟨htwice, fun hshared => ?_⟩
    rw [actionRefs_bindRefs, secondary_bindRefs, ← hnothing hshared]
    refine and_congr_right fun _ => ?_
    rw [List.eq_nil_iff_forall_not_mem]
    simp only [mem_otherRefs]
    exact forall_congr' fun id => ⟨fun h hmem hnames hknown => h ⟨hnames, hmem, hknown⟩,
      fun h ⟨hnames, hmem, hknown⟩ => h hmem hnames hknown⟩
  others h := by
    rw [primary_bindRefs, filter_eq_none]
    exact hothers h
  lane := by
    rw [primary_bindRefs, bind_filter_known]
    rfl
  multi id hid := by
    rw [secondary_bindRefs, mem_otherRefs] at hid
    exact hid.1
  shared hshared hgeneralized := ⟨hshared, hgeneralized⟩
  generalized hgeneralized hshared _ := ⟨hshared, hgeneralized⟩

/-- The binding of a marker whose fields name a known action. -/
theorem markerBinding_of_named (hnamed : ¬ (knownRefs marker target).isEmpty) :
    MarkerBinding marker (actionIndex (some target)) (bindRefs marker target
      ⟨knownRefs marker target, (effectiveMarkerActionRefs marker).1,
        (effectiveMarkerActionRefs marker).2⟩) := by
  refine markerBinding_bindRefs (fun id hprimary hknown other => ?_)
    (fun id hprimary hknown => ?_) (fun hunknown => ?_) fun h id hid => h.primary id hid
  · rw [mem_knownRefs]
    dsimp only at hprimary ⊢
    rw [hprimary, Option.some.injEq]
    constructor
    · rintro ⟨rfl | ⟨hnames, hother⟩, hk⟩
      · exact .inl rfl
      · exact .inr ⟨hnames, hother, hk⟩
    · rintro (rfl | ⟨hnames, hother, hk⟩)
      · exact ⟨.inl rfl, hknown⟩
      · exact ⟨.inr ⟨hnames, hother⟩, hk⟩
  · dsimp only at hprimary
    constructor
    · exact fun h => ⟨h.1, id, hprimary, hknown, h.2⟩
    · rintro ⟨hnames, other, hother, -, hmem⟩
      obtain rfl := Option.some.inj (hprimary.symm.trans hother)
      exact ⟨hnames, hmem⟩
  · dsimp only at hunknown ⊢
    refine ⟨fun htwice => ?_, fun hshared => ?_⟩
    · obtain ⟨id, hid, hknown, -⟩ := htwice.twice
      exact hunknown id hid hknown
    · obtain ⟨id, hid⟩ := List.exists_mem_of_ne_nil _ (mt List.isEmpty_iff.2 hnamed)
      obtain ⟨hprimary | ⟨hnames, hmem⟩, hknown⟩ := mem_knownRefs.1 hid
      · exact absurd hknown (hunknown id hprimary)
      · have hothers : NamesOthersOnly marker (actionIndex (some target)) :=
          ⟨generalized_of_names hnames hshared, hshared, hunknown, id, hmem, hknown⟩
        exact iff_of_false (fun h => List.ne_nil_of_mem hid h.1) (not_not_intro hothers)

/-- The binding of a marker by the hints of the actions. -/
theorem markerBinding_of_hinted (hnamed : (knownRefs marker target).isEmpty)
    {hinted : List String} (hhinted : hintedActions marker target = .ok hinted) :
    MarkerBinding marker (actionIndex (some target)) (bindRefs marker target
      (if hinted ≠ [] ∧ (namesSecondaryActions marker ∨ hinted.length = 1) then
          ⟨hinted, hinted.head?, hinted.drop 1⟩
        else if !markerIsSharedInfra marker ∧ 1 < hinted.length then
          ⟨[], (effectiveMarkerActionRefs marker).1, []⟩
        else ⟨hinted, (effectiveMarkerActionRefs marker).1,
          (effectiveMarkerActionRefs marker).2⟩)) := by
  obtain ⟨hprimary, hsecondary⟩ := names_nothing hnamed
  have htwice : ¬ NamesPrimaryTwice marker (actionIndex (some target)) :=
    fun ⟨_, id, hid, hknown, _⟩ => hprimary id hid hknown
  have hothers : ¬ NamesOthersOnly marker (actionIndex (some target)) :=
    fun ⟨hgeneralized, _, _, id, hid, hknown⟩ =>
      hsecondary (names_of_generalized hgeneralized) id hid hknown
  have hknown : ∀ id ∈ hinted, known (actionIndex (some target)) id := by
    intro id hid
    obtain ⟨action, haction, rfl, hblank⟩ := mem_hintedActions hhinted id hid
    exact known_of_mem haction hblank
  have hnodup : hinted.Nodup := by
    obtain ⟨rows, -, h⟩ := bind_eq_ok.1 hhinted
    exact pure_eq_ok.1 h ▸ nodup_sortedSet _
  split_ifs with hnamedhint hmany
  · cases hinted with
    | nil => exact absurd rfl hnamedhint.1
    | cons first rest =>
      obtain ⟨hfirst, -⟩ := List.nodup_cons.1 hnodup
      have hrest : ∀ other ∈ rest, namesSecondaryActions marker := by
        intro other hother
        refine hnamedhint.2.resolve_right fun hlength => ?_
        rw [List.length_cons, Nat.add_eq_right, List.length_eq_zero_iff] at hlength
        exact List.not_mem_nil (hlength ▸ hother)
      refine markerBinding_bindRefs (fun id hid hk other => ?_) (fun id hid hk => ?_)
        (fun hunknown => ?_) fun h => absurd h hothers
      · obtain rfl := Option.some.inj hid
        show other ∈ first :: rest ↔ other = first ∨ _ ∧ other ∈ rest ∧ _
        rw [List.mem_cons]
        refine or_congr_right ⟨fun hother => ⟨hrest other hother, hother, ?_⟩, fun h => h.2.1⟩
        exact hknown other (List.mem_cons_of_mem _ hother)
      · obtain rfl := Option.some.inj hid
        exact iff_of_false (fun h => hfirst h.2) htwice
      · exact absurd (hknown first List.mem_cons_self) (hunknown first rfl)
  · refine markerBinding_bindRefs (fun id hid hk => ?_) (fun id hid hk => ?_) (fun _ => ?_)
      fun h => ?_
    · dsimp only at hid
      exact absurd hk (hprimary id hid)
    · dsimp only at hid
      exact absurd hk (hprimary id hid)
    · exact ⟨htwice, fun _ => iff_of_true ⟨rfl, fun id hid => absurd hid List.not_mem_nil⟩ hothers⟩
    · exact absurd h hothers
  · refine markerBinding_bindRefs (fun id hid hk => ?_) (fun id hid hk => ?_) (fun _ => ?_)
      fun h => ?_
    · dsimp only at hid
      exact absurd hk (hprimary id hid)
    · dsimp only at hid
      exact absurd hk (hprimary id hid)
    · refine ⟨htwice, fun hshared => iff_of_true ⟨?_, fun id hid hnames => ?_⟩ hothers⟩
      · by_contra hne
        have hpos : 0 < hinted.length := List.length_pos_iff.2 hne
        have hunshared : (!markerIsSharedInfra marker) = true := by simpa using hshared
        exact hnamedhint ⟨hne, .inr (by
          have : ¬ 1 < hinted.length := fun hlt => hmany ⟨hunshared, hlt⟩
          omega)⟩
      · exact hsecondary hnames id hid
    · exact absurd h hothers

/-- The binding of a marker. -/
theorem markerBinding_of_ok {target : Option OptimizationTarget} {binding : Binding}
    (h : actionBindingForMarker marker target = .ok binding) :
    MarkerBinding marker (actionIndex target) binding := by
  cases target with
  | none =>
    obtain rfl := Except.ok.inj h
    have hunknown : ∀ id, ¬ known (actionIndex none) id := fun id => Bool.false_ne_true
    refine ⟨fun id hid => ?_, fun id hid => ?_, fun id hid => ?_, fun _ => ⟨fun htwice => ?_,
      fun _ => iff_of_true ⟨rfl, rfl⟩ fun hothers => ?_⟩, fun _ => rfl, rfl, fun id hid => ?_,
      fun _ h => ?_, fun _ _ hknown => ?_⟩
    · cases hid
    · cases hid
    · cases hid
    · obtain ⟨id, -, hknown, -⟩ := htwice.twice
      exact hunknown id hknown
    · obtain ⟨id, -, hknown⟩ := hothers.other
      exact hunknown id hknown
    · exact absurd hid List.not_mem_nil
    · cases h
    · obtain ⟨id, hknown⟩ := hknown
      exact absurd hknown (hunknown id)
  | some target =>
    rw [actionBindingForMarker_eq, markerRefs_eq] at h
    split_ifs at h with hnamed
    · cases hhinted : hintedActions marker target with
      | error e => rw [hhinted] at h; cases h
      | ok hinted =>
        rw [hhinted] at h
        obtain rfl := Except.ok.inj h
        exact markerBinding_of_hinted hnamed hhinted
    · obtain rfl := Except.ok.inj h
      exact markerBinding_of_named hnamed

end Refs

/-! ## The binding after a look at the nodes -/

section Refine

variable {marker : Marker} {index : OrderedDict String Dict}
  {markersById : OrderedDict String Marker} {binding : Binding}

theorem bound_clearUnowned : (clearUnowned binding).Bound ↔
    (binding.isSharedInfra ∧ binding.primaryActionRef.getD "" = "") ∨ binding.Bound := by
  rw [clearUnowned, bound_ite_clear]

theorem bound_clearForeignWrite : (clearForeignWrite marker index binding).Bound ↔
    writesForeign marker index binding ∨ binding.Bound := by
  simp only [clearForeignWrite, bound_ite_clear, writesForeign]

theorem bound_yieldToPeer : (yieldToPeer marker markersById binding).Bound ↔
    yieldsToPeer marker markersById binding ∨ binding.Bound := by
  simp only [yieldToPeer, bound_ite_clear, yieldsToPeer]

/-- A binding ends up as it should be when it is so, or when it is dropped. -/
theorem bound_afterwards : (clearUnowned (clearForeignWrite marker index
      (yieldToPeer marker markersById binding))).Bound ↔
    yieldsToPeer marker markersById binding ∨ writesForeign marker index binding ∨
      (binding.isSharedInfra ∧ binding.primaryActionRef.getD "" = "") ∨ binding.Bound := by
  by_cases hyields : yieldsToPeer marker markersById binding
  · exact iff_of_true (bound_clearUnowned.2 (.inr (bound_clearForeignWrite.2 (.inr
      (bound_yieldToPeer.2 (.inl hyields)))))) (.inl hyields)
  · have hkept : yieldToPeer marker markersById binding = binding := if_neg hyields
    rw [hkept, or_iff_right hyields]
    by_cases hforeign : writesForeign marker index binding
    · exact iff_of_true (bound_clearUnowned.2 (.inr (bound_clearForeignWrite.2 (.inl hforeign))))
        (.inl hforeign)
    · have hkept : clearForeignWrite marker index binding = binding := by
        simp only [clearForeignWrite]
        exact if_neg hforeign
      rw [hkept, bound_clearUnowned, or_iff_right hforeign]

/-- Without a primary action nothing yields, and only the lane of a write can be foreign. -/
theorem bound_afterwards_none (htrim : Trim index) (hnone : binding.primaryActionRef = none) :
    (clearUnowned (clearForeignWrite marker index
      (yieldToPeer marker markersById binding))).Bound ↔
    writesForeignLane marker binding ∨ binding.isSharedInfra ∨ binding.Bound := by
  have hblank : primaryOf binding = "" := by rw [primaryOf, hnone]; rfl
  have hyields : ¬ yieldsToPeer marker markersById binding := fun h => h.1 hblank
  have hunknown : ¬ known index "" := fun h => htrim.nonblank "" h rfl
  have hrow : index.get? "" = none := Option.not_isSome_iff_eq_none.1 hunknown
  have hforeign : writesForeign marker index binding ↔ writesForeignLane marker binding := by
    rw [writesForeign, hblank, hrow]
    exact and_congr_right fun _ => or_iff_left (by decide)
  rw [bound_afterwards, or_iff_right hyields, hforeign, hnone]
  simp

theorem policyOnly_of_bound {refined : Binding} (h : isPolicyOnlySharedMarker marker.type) :
    (tagPrimary index (clearUnowned (clearForeignWrite marker index (yieldToPeer marker markersById
      (if isPolicyOnlySharedMarker marker.type then clearActionBinding refined
        else refined))))).Bound := by
  rw [if_pos h, bound_tagPrimary, bound_afterwards]
  exact .inr (.inr (.inr bound_clearActionBinding))

/-- Bound by the profile, a binding is as it should be. -/
theorem bound_profile {id : String} :
    (bindTo binding (some id) ((explicitRefs index binding).filter fun actionId =>
      some actionId ≠ some id)).Bound :=
  bound_bindTo_some.2 fun _ hmem => of_decide_eq_true (List.mem_filter.1 hmem).2 rfl

theorem not_mem_ownerSecondary {owner : String} {score : ℚ} {rest : List (String × ℚ)} :
    owner ∉ ownerSecondary index binding owner score rest := by
  intro hmem
  have := (List.mem_filter.1 hmem).2
  simp at this

/-- Bound to an owner that is not known, a binding keeps the others. -/
theorem bound_owner_unknown (hmb : MarkerBinding marker index binding) (htrim : Trim index)
    {owner : String} {score : ℚ} {rest : List (String × ℚ)} (howner : ¬ known index owner) :
    (clearUnowned (clearForeignWrite marker index (yieldToPeer marker markersById
      (bindToOwner index binding ((owner, score) :: rest))))).Bound ↔
    ¬ (KeepsOthersOnly marker index binding ((owner, score) :: rest) ∧
      ¬ writesForeignLane marker binding) := by
  rw [bindToOwner_cons, if_neg howner, bound_afterwards_none htrim rfl, bound_bindTo_none]
  have hlane : writesForeignLane marker (bindTo binding none
      (sortedSet (ownerSecondary index binding owner score rest))) ↔
    writesForeignLane marker binding := Iff.rfl
  have hshared : (bindTo binding none
      (sortedSet (ownerSecondary index binding owner score rest))).isSharedInfra =
    binding.isSharedInfra := rfl
  have hempty : sortedSet (ownerSecondary index binding owner score rest) = [] ↔
      ownerSecondary index binding owner score rest = [] := by
    simp only [List.eq_nil_iff_forall_not_mem, mem_sortedSet]
  rw [hlane, hshared, hempty, not_and_not_right]
  constructor
  · rintro hbound ⟨hgeneralized, hunshared, _, _, _, heq, -, hothers⟩
    obtain ⟨hhead, rfl⟩ := List.cons.inj heq
    obtain ⟨rfl, rfl⟩ := Prod.mk.inj hhead
    obtain ⟨id, hid⟩ := List.exists_mem_of_ne_nil _ hothers
    obtain ⟨hnotshared, hmulti⟩ := hmb.generalized hgeneralized hunshared
      ⟨id, known_of_mem_ownerSecondary index binding hid⟩
    have hmulti : supportsMultiActionBinding binding := by
      rw [supportsMultiActionBinding, hmulti, Bool.or_true]
    exact (hbound.resolve_right fun h =>
      h.elim hnotshared fun hnone => hothers (hnone hmulti))
  · intro hkeeps
    by_cases hnotshared : binding.isSharedInfra
    · exact .inr (.inl hnotshared)
    · rw [or_iff_right hnotshared, or_iff_not_imp_right]
      intro hothers
      rw [Classical.not_imp, supportsMultiActionBinding, Bool.or_eq_true,
        or_iff_right hnotshared] at hothers
      obtain ⟨hunshared, hgeneralized⟩ := hmb.shared hnotshared hothers.1
      exact hkeeps ⟨hgeneralized, hunshared, owner, score, rest, rfl, howner, hothers.2⟩

/-- Bound to a writeback, a binding may name its primary action twice. -/
theorem bound_writeback (hmb : MarkerBinding marker index binding) (hknown : binding.Known index)
    {id : String} (hprimary : binding.primaryActionRef = some id) (hid : known index id) :
    (bindWriteback index binding (some id)).Bound ↔ ¬ NamesPrimaryTwice marker index := by
  have hsecondary : (bindWriteback index binding (some id)).secondaryActionRefs =
      binding.secondaryActionRefs := by
    by_cases hmulti : supportsMultiActionBinding binding
    · exact if_pos hmulti
    · rw [List.eq_nil_iff_forall_not_mem.2 fun other hother => hmulti (hmb.multi other hother)]
      exact if_neg hmulti
  have hrefs : ∀ other, other ∈ (bindWriteback index binding (some id)).actionRefs ↔
      other = id ∨ other ∈ (bindWriteback index binding (some id)).secondaryActionRefs := by
    intro other
    rw [hsecondary]
    show other ∈ (id :: (bindWriteback index binding (some id)).secondaryActionRefs).filter
      (known index ·) ↔ _
    rw [hsecondary, List.mem_filter, List.mem_cons]
    exact and_iff_left_of_imp fun h => h.elim (fun h => h ▸ hid) (hknown.1 other)
  rw [bound_some rfl hrefs, hsecondary, hmb.twice id hprimary]

/-- The writeback lanes are those of the host. -/
theorem contains_writebackLanes (row : Dict) :
    writebackLanes.contains ((laneTagForAction row).getD "") ↔ protocolOf row = "HA" := by
  rw [laneTagForAction]
  split_ifs with hble hcloud hha hall hlane hcloudlane
  · rw [hble]
    exact iff_of_false (by decide) (by decide)
  · rw [hcloud]
    exact iff_of_false (by decide) (by decide)
  · exact iff_of_true (by decide) hha
  · exact iff_of_true (by decide) hha
  · exact iff_of_true (by decide) hha
  · exact iff_of_true (by decide) hha
  · exact iff_of_false (by decide) hha

/-- A writeback is never dropped. -/
theorem bound_afterwards_writeback (hmb : MarkerBinding marker index binding) (htrim : Trim index)
    (hknown : binding.Known index) {id : String} (hprimary : binding.primaryActionRef = some id)
    (hid : known index id) (hwriteback : preservesWriteback marker index binding) :
    (clearUnowned (clearForeignWrite marker index (yieldToPeer marker markersById
      (bindWriteback index binding (some id))))).Bound ↔ ¬ NamesPrimaryTwice marker index := by
  have hof : primaryOf (bindWriteback index binding (some id)) = id := htrim.primaryOf rfl hid
  rw [preservesWriteback, htrim.primaryOf hprimary hid] at hwriteback
  simp only [Bool.and_eq_true, decide_eq_true_eq, Bool.or_eq_true] at hwriteback
  obtain ⟨⟨htype, -⟩, hrow⟩ := hwriteback
  have hyields : ¬ yieldsToPeer marker markersById (bindWriteback index binding (some id)) := by
    rintro ⟨-, hgeneric, -⟩
    rw [htype] at hgeneric
    exact absurd hgeneric (by decide)
  have hforeign : ¬ writesForeign marker index (bindWriteback index binding (some id)) := by
    obtain ⟨row, hget⟩ := Option.isSome_iff_exists.1 hid
    have hlane : (bindWriteback index binding (some id)).laneTag = laneTagForAction row := by
      have hsame : (bindWriteback index binding (some id)).laneTag = binding.laneTag := rfl
      rw [hsame, hmb.lane, hprimary, Option.bind_some, hget, Option.bind_some]
    rw [hget, Option.getD_some] at hrow
    have hha : protocolOf row = "HA" := hrow.elim (fun h => h) (contains_writebackLanes row).1
    rintro ⟨-, ⟨-, hout⟩ | hprotocol⟩
    · rw [hlane, (contains_writebackLanes row).2 hha] at hout
      exact absurd hout (by decide)
    · rw [hof, hget, Option.getD_some, hha] at hprotocol
      exact absurd hprotocol (by decide)
  have howned : ¬ ((bindWriteback index binding (some id)).isSharedInfra ∧
      (bindWriteback index binding (some id)).primaryActionRef.getD "" = "") :=
    fun h => htrim.nonblank id hid h.2
  rw [bound_afterwards, or_iff_right hyields, or_iff_right hforeign, or_iff_right howned,
    bound_writeback hmb hknown hprimary hid]

/-- A binding that stays as it is. -/
theorem bound_as_it_is (hmb : MarkerBinding marker index binding) (htrim : Trim index) :
    (clearUnowned (clearForeignWrite marker index
      (yieldToPeer marker markersById binding))).Bound ↔
    ¬ (NamesOthersOnly marker index ∨ (NamesPrimaryTwice marker index ∧
      ¬ yieldsToPeer marker markersById binding ∧ ¬ writesForeign marker index binding)) := by
  cases hprimary : binding.primaryActionRef with
  | none =>
    obtain ⟨htwice, hempty⟩ := hmb.unowned hprimary
    rw [bound_afterwards_none htrim hprimary, bound_none hprimary,
      or_iff_left fun h : NamesPrimaryTwice marker index ∧ _ => htwice h.1]
    have hlane : ¬ writesForeignLane marker binding := by
      rintro ⟨-, hlane, -⟩
      rw [hmb.lane, hprimary] at hlane
      exact hlane rfl
    rw [or_iff_right hlane]
    by_cases hshared : binding.isSharedInfra
    · refine iff_of_true (.inl hshared) fun hothers => ?_
      obtain ⟨other, -, hknown⟩ := hothers.other
      exact (hmb.generalized hothers.generalized hothers.unshared ⟨other, hknown⟩).1 hshared
    · rw [or_iff_right hshared, hempty hshared]
  | some id =>
    have hid := hmb.known id hprimary
    have hothers : ¬ NamesOthersOnly marker index := fun h => by
      rw [hmb.others h] at hprimary
      cases hprimary
    have howned : ¬ (binding.isSharedInfra ∧ binding.primaryActionRef.getD "" = "") := by
      rw [hprimary]
      exact fun h => htrim.nonblank id hid h.2
    rw [bound_afterwards, bound_some hprimary (hmb.refs id hprimary), hmb.twice id hprimary,
      or_iff_right hothers, or_iff_right howned]
    tauto

/-- The scores of a closure name no actions, or they have one that is the highest. -/
theorem rankedScores_eq_nil {ownership : List (String × ℚ)} :
    rankedScores ownership = [] ↔ ownership = [] := by
  rw [rankedScores, ← List.length_eq_zero_iff, (sortedBy_perm _ ownership).length_eq,
    List.length_eq_zero_iff]

theorem explicitPrimary_of_known (htrim : Trim index) {id : String}
    (hprimary : binding.primaryActionRef = some id) (hid : known index id) :
    explicitPrimary index binding = some id := by
  rw [explicitPrimary, htrim.primaryOf hprimary hid, if_pos hid]

/-- A profile binding or a writeback has a primary action. -/
theorem exists_primary {marker : Marker} (hmb : MarkerBinding marker index binding)
    (h : primaryOf binding ≠ "") :
    ∃ id, binding.primaryActionRef = some id ∧ known index id := by
  cases hprimary : binding.primaryActionRef with
  | none =>
    rw [primaryOf, hprimary] at h
    exact absurd (by decide) h
  | some id => exact ⟨id, rfl, hmb.known id hprimary⟩

theorem primaryOf_of_profile (h : preserveExplicitProfileBinding marker binding) :
    primaryOf binding ≠ "" := by
  rw [preserveExplicitProfileBinding, Bool.and_eq_true, Bool.and_eq_true, decide_eq_true_eq] at h
  exact h.1.1

theorem primaryOf_of_writeback (h : preservesWriteback marker index binding) :
    primaryOf binding ≠ "" := by
  rw [preservesWriteback, Bool.and_eq_true, Bool.and_eq_true, decide_eq_true_eq,
    decide_eq_true_eq] at h
  exact h.1.2

/-- Bound to an owner that is known, a binding is as it should be. -/
theorem bound_owner_known {owner : String} {score : ℚ} {rest : List (String × ℚ)}
    (howner : known index owner) :
    (clearUnowned (clearForeignWrite marker index (yieldToPeer marker markersById
      (bindToOwner index binding ((owner, score) :: rest))))).Bound ↔ True := by
  rw [bindToOwner_cons, if_pos howner, bound_afterwards, iff_true]
  exact .inr (.inr (.inr (bound_bindTo_some.2 fun _ hmem =>
    not_mem_ownerSecondary (mem_sortedSet.1 hmem))))

/-- The refined binding of a marker is as it should be, unless the marker misbinds. -/
theorem refineBindingFromClosure_bound_iff {target : Option OptimizationTarget}
    (h : actionBindingForMarker marker target = .ok binding) (nodeIds : List String)
    (graph : ReducedGraph) :
    (refineBindingFromClosure marker nodeIds graph markersById target binding).Bound ↔
      ¬ Misbinds marker (actionIndex target) markersById binding
        (rankedScores (actionOwnershipScore nodeIds graph markersById)) := by
  have hmb := markerBinding_of_ok h
  have htrim := trim_actionIndex target
  have hknown := actionBindingForMarker_known h
  rw [refineBindingFromClosure_eq]
  by_cases hpolicy : isPolicyOnlySharedMarker marker.type
  · exact iff_of_true (policyOnly_of_bound hpolicy) fun hmis => hmis.1 hpolicy
  dsimp only
  rw [if_neg hpolicy, bound_tagPrimary, rebind_eq, Misbinds]
  generalize actionOwnershipScore nodeIds graph markersById = ownership
  by_cases hprofile : preserveExplicitProfileBinding marker binding
  · obtain ⟨id, hprimary, hid⟩ := exists_primary hmb (primaryOf_of_profile hprofile)
    rw [if_pos hprofile, explicitPrimary_of_known htrim hprimary hid, bound_afterwards]
    exact iff_of_true (.inr (.inr (.inr bound_profile))) fun hmis => hmis.2.1 hprofile
  rw [if_neg hprofile, and_iff_right hpolicy, and_iff_right hprofile]
  by_cases hwriteback : preservesWriteback marker (actionIndex target) binding
  · obtain ⟨id, hprimary, hid⟩ := exists_primary hmb (primaryOf_of_writeback hwriteback)
    have hothers : ¬ NamesOthersOnly marker (actionIndex target) := fun h => by
      rw [hmb.others h] at hprimary
      cases hprimary
    rw [if_neg (by simp [hwriteback]), if_pos hwriteback,
      explicitPrimary_of_known htrim hprimary hid,
      bound_afterwards_writeback hmb htrim hknown hprimary hid hwriteback]
    simp only [hwriteback, hothers, not_true_eq_false, false_and, and_false, false_or, true_or,
      and_true]
  by_cases hscores : ownership = []
  · have hranked : rankedScores ownership = [] := rankedScores_eq_nil.2 hscores
    have hkeeps : ¬ KeepsOthersOnly marker (actionIndex target) binding [] := by
      rintro ⟨-, -, _, _, _, heq, -⟩
      exact List.cons_ne_nil _ _ heq.symm
    rw [if_neg (by simp [hscores]), if_neg hwriteback, bound_as_it_is hmb htrim, hranked]
    simp only [hkeeps, hwriteback, Bool.false_eq_true, false_and, and_false, false_or, true_and]
  · obtain ⟨⟨owner, score⟩, rest, hranked⟩ :=
      List.exists_cons_of_ne_nil (mt rankedScores_eq_nil.1 hscores)
    have hunranked : rankedScores ownership ≠ [] := mt rankedScores_eq_nil.1 hscores
    rw [if_pos (by simp [hscores, hpolicy, hwriteback]), hranked]
    rw [hranked] at hunranked
    by_cases howner : known (actionIndex target) owner
    · rw [bound_owner_known howner]
      have hkeeps : ¬ KeepsOthersOnly marker (actionIndex target) binding
          ((owner, score) :: rest) := by
        rintro ⟨-, -, _, _, _, heq, hunknown, -⟩
        obtain ⟨hhead, -⟩ := List.cons.inj heq
        obtain ⟨rfl, -⟩ := Prod.mk.inj hhead
        exact hunknown howner
      simp only [hkeeps, hunranked, hwriteback, Bool.false_eq_true, false_and, and_false, or_false,
        not_false_eq_true]
    · rw [bound_owner_unknown hmb htrim howner]
      simp only [hunranked, hwriteback, Bool.false_eq_true, not_false_eq_true, true_and, false_and,
        and_false, or_false]

end Refine

/-! ## The shape of a refined binding -/

section Shape

variable {marker : Marker} {index : OrderedDict String Dict} {binding : Binding}

/-- A primary action is known, and with it the actions are the primary one and the other ones. -/
def Binding.Owned (index : OrderedDict String Dict) (binding : Binding) : Prop :=
  OwnedRefs index binding.primaryActionRef binding.secondaryActionRefs binding.actionRefs

theorem owned_clear {p : Prop} [Decidable p] (h : binding.Owned index) :
    (if p then clearActionBinding binding else binding).Owned index := by
  split_ifs
  · intro id hid
    cases hid
  · exact h

theorem owned_bindTo {primary : Option String} {secondary : List String}
    (hprimary : ∀ id ∈ primary, known index id) :
    (bindTo binding primary secondary).Owned index := by
  rintro id (rfl : primary = some id)
  exact ⟨hprimary id rfl, fun other => List.mem_cons⟩

theorem owned_bindToOwner (h : binding.Owned index) (ranked : List (String × ℚ)) :
    (bindToOwner index binding ranked).Owned index := by
  rcases ranked with _ | ⟨⟨owner, score⟩, rest⟩
  · exact h
  · rw [bindToOwner_cons]
    exact owned_bindTo known_ite

theorem owned_bindWriteback (h : binding.Known index) :
    (bindWriteback index binding (explicitPrimary index binding)).Owned index := by
  rintro id (hid : explicitPrimary index binding = some id)
  have hknown := known_ite id hid
  refine ⟨hknown, fun other => ?_⟩
  show other ∈ ((explicitPrimary index binding).toList ++ _).filter (known index ·) ↔ _
  rw [hid, List.mem_filter, Option.toList_some, List.singleton_append, List.mem_cons]
  refine and_iff_left_of_imp ?_
  rintro (rfl | hother)
  · exact hknown
  · split_ifs at hother
    · exact h.1 other hother
    · cases hother

theorem owned_rebind (hmb : MarkerBinding marker index binding) (h : binding.Known index)
    (ownership : List (String × ℚ)) : (rebind marker index binding ownership).Owned index := by
  have howned : binding.Owned index := fun id hid => ⟨hmb.known id hid, hmb.refs id hid⟩
  rw [rebind_eq]
  split_ifs
  · exact owned_bindTo known_ite
  · exact owned_bindToOwner howned _
  · exact owned_bindWriteback h
  · exact howned

theorem owned_yieldToPeer (marker : Marker) (h : binding.Owned index)
    (markersById : OrderedDict String Marker) :
    (yieldToPeer marker markersById binding).Owned index := by
  rw [yieldToPeer]
  exact owned_clear h

theorem owned_clearForeignWrite (marker : Marker) (h : binding.Owned index) :
    (clearForeignWrite marker index binding).Owned index := by
  simp only [clearForeignWrite]
  exact owned_clear h

theorem owned_clearUnowned (h : binding.Owned index) : (clearUnowned binding).Owned index := by
  rw [clearUnowned]
  exact owned_clear h

/-- A shared binding without a primary action has no actions at all. -/
theorem unowned_clearUnowned (hshared : (clearUnowned binding).isSharedInfra)
    (hnone : (clearUnowned binding).primaryActionRef = none) : (clearUnowned binding).Bound := by
  by_cases hcleared : binding.isSharedInfra ∧ binding.primaryActionRef.getD "" = ""
  · exact bound_clearUnowned.2 (.inl hcleared)
  · rw [clearUnowned, if_neg hcleared] at hshared hnone
    rw [hnone] at hcleared
    exact absurd ⟨hshared, rfl⟩ hcleared

/-- The primary action of a refined binding is known and with the others makes up its actions; a
shared one without a primary action has none. -/
theorem refineBindingFromClosure_owned {target : Option OptimizationTarget}
    (h : actionBindingForMarker marker target = .ok binding) {nodeIds : List String}
    {graph : ReducedGraph} {markersById : OrderedDict String Marker} {refined : Binding}
    (hrefined : refineBindingFromClosure marker nodeIds graph markersById target binding = refined) :
    refined.Owned (actionIndex target) ∧
      (refined.isSharedInfra → refined.primaryActionRef = none → refined.Bound) := by
  rw [refineBindingFromClosure_eq] at hrefined
  subst hrefined
  have hrebind := owned_clear (p := isPolicyOnlySharedMarker marker.type)
    (owned_rebind (markerBinding_of_ok h) (actionBindingForMarker_known h)
      (actionOwnershipScore nodeIds graph markersById))
  have howned := owned_clearUnowned (owned_clearForeignWrite marker
    (owned_yieldToPeer marker hrebind markersById))
  dsimp only
  generalize clearForeignWrite marker (actionIndex target) _ = kept at howned ⊢
  rw [tagPrimary]
  split_ifs
  · exact ⟨howned, unowned_clearUnowned⟩
  · exact ⟨howned, unowned_clearUnowned⟩

end Shape

end FloWeaver.Mssu
