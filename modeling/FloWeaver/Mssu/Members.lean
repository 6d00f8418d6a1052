import FloWeaver.Mssu.RenamedBuild
import Mathlib.Data.List.Pairwise

/-!
# From the markers to the MSSUs that are returned

Every MSSU of the result stands for a group of MSSUs of the markers: their nodes are its nodes, and
the first of them gives it its name.  What is done after the merge keeps the name and the nodes.

* `buildStep_eq_ok` — what a step of the builder adds.
* `mem_nodeIds_mergeGroup`, `exists_mem_mergeGroups` — the nodes of a group; every MSSU is in one.
* `exists_of_mem_compactMssus` — the merged MSSU behind an MSSU of the result.
* `exists_mem_compactMssus` — the MSSU of the result behind a merged one that is kept.
-/

namespace FloWeaver.Mssu

open Py

/-! ## One step -/

section Build

variable {input : BuildInput} {s t : BuildState}

/-- What a step of the builder adds. -/
theorem buildStep_eq_ok {marker : Marker} {seeds : List String} {idx : ℕ} :
    input.buildStep s ((marker, seeds), idx) = .ok t ↔
      ∃ closed io binding,
        pruneToCap input.graph input.builder marker
            (input.closedNodes s.nodeOwner.keys (marker, seeds)) seeds
            (seeds.filter (s.nodeOwner.keys.contains ·)) = .ok closed ∧
          deriveIO input.graph closed = .ok io ∧ input.bindingFor marker closed = .ok binding ∧
          t = { mssus := s.mssus ++ [BuildInput.assembleMssu (mssuIdText input.mssuIdPrefix idx marker)
                  marker closed io binding]
                internalEdges := s.internalEdges.set (mssuIdText input.mssuIdPrefix idx marker)
                  (input.internalEdgesOf closed)
                nodeOwner := (closed.filter (!s.nodeOwner.keys.contains ·)).foldl
                  (fun owner nodeId => owner.set nodeId (mssuIdText input.mssuIdPrefix idx marker))
                  s.nodeOwner
                overlapDeps := s.overlapDeps ++ input.overlapCandidates s.nodeOwner
                  (mssuIdText input.mssuIdPrefix idx marker)
                  (seeds.filter (s.nodeOwner.keys.contains ·)) } := by
  constructor
  · intro h
    obtain ⟨closed, hclosed, h⟩ := bind_eq_ok.1 h
    obtain ⟨io, hio, h⟩ := bind_eq_ok.1 h
    obtain ⟨binding, hbinding, h⟩ := bind_eq_ok.1 h
    exact ⟨closed, io, binding, hclosed, hio, hbinding, (pure_eq_ok.1 h).symm⟩
  · rintro ⟨closed, io, binding, hclosed, hio, hbinding, rfl⟩
    exact bind_eq_ok.2 ⟨closed, hclosed, bind_eq_ok.2 ⟨io, hio,
      bind_eq_ok.2 ⟨binding, hbinding, pure_eq_ok.2 rfl⟩⟩⟩

end Build

/-! ## Groups -/

section Groups

variable {graph : ReducedGraph} {mssus : List BuiltMSSU}

/-- The nodes of a merged MSSU are those of its group. -/
theorem mem_nodeIds_mergeGroup {group : List BuiltMSSU} {mssu : BuiltMSSU} {n : String}
    (h : mssu ∈ mergeGroup group) :
    n ∈ mssu.nodeIds ↔ ∃ member ∈ group, n ∈ member.nodeIds := by
  match group with
  | [] => cases h
  | [member] => simp [List.mem_singleton.1 h]
  | base :: other :: rest =>
    rw [List.mem_singleton.1 h, mergeBucket, mem_sortedSet, List.mem_flatMap]

/-- Every MSSU is in a group. -/
theorem exists_mem_mergeGroups {mssu : BuiltMSSU} (h : mssu ∈ mssus) :
    ∃ group ∈ mergeGroups graph mssus, mssu ∈ group := by
  cases hkey : mergeKey graph mssu with
  | none =>
    exact ⟨[mssu], List.mem_append_left _ (List.mem_map_of_mem (f := ([·]))
      (List.mem_filter.2 ⟨h, by rw [hkey]; rfl⟩)), List.mem_singleton_self _⟩
  | some key =>
    exact ⟨_, List.mem_append_right _ (List.mem_map_of_mem
      (List.mem_eraseDups.2 (List.mem_filterMap.2 ⟨mssu, h, hkey⟩))),
      List.mem_filter.2 ⟨h, decide_eq_true hkey⟩⟩

/-- No group is empty. -/
theorem ne_nil_of_mem_mergeGroups {group : List BuiltMSSU} (h : group ∈ mergeGroups graph mssus) :
    group ≠ [] := by
  rcases List.mem_append.1 h with h | h
  · obtain ⟨mssu, -, rfl⟩ := List.mem_map.1 h
    exact List.cons_ne_nil _ _
  · obtain ⟨key, hkey, rfl⟩ := List.mem_map.1 h
    obtain ⟨mssu, hmssu, hmssukey⟩ := List.mem_filterMap.1 (List.mem_eraseDups.1 hkey)
    exact List.ne_nil_of_mem (List.mem_filter.2 ⟨hmssu, decide_eq_true hmssukey⟩)

/-- The MSSU of a group, given by its first member and the others. -/
theorem exists_mem_mergeGroup (base : BuiltMSSU) (rest : List BuiltMSSU) :
    ∃ mssu, mergeGroup (base :: rest) = [mssu] ∧ mssu.mssuId = base.mssuId := by
  cases rest with
  | nil => exact ⟨base, rfl, rfl⟩
  | cons other rest => exact ⟨mergeBucket base (base :: other :: rest), rfl, by rw [mergeBucket]⟩

/-- Groups with a name in common are the same. -/
theorem eq_of_mem_mergeGroups (hnodup : (mssus.map (·.mssuId)).Nodup)
    {group other : List BuiltMSSU} (hgroup : group ∈ mergeGroups graph mssus)
    (hother : other ∈ mergeGroups graph mssus) {a b : BuiltMSSU} (ha : a ∈ group) (hb : b ∈ other)
    (hid : a.mssuId = b.mssuId) : group = other := by
  by_contra hne
  have hsymm : Std.Symm fun group other : List BuiltMSSU =>
      ∀ a ∈ group, ∀ b ∈ other, a.mssuId ≠ b.mssuId :=
    ⟨fun _ _ h a ha b hb => (h b hb a ha).symm⟩
  exact (pairwise_mergeGroups hnodup).forall hgroup hother hne a ha b hb hid

/-- An MSSU is mapped to the first of its group. -/
theorem idMap_eq {base mssu : BuiltMSSU} {rest : List BuiltMSSU}
    (hnodup : (mssus.map (·.mssuId)).Nodup) (hgroup : base :: rest ∈ mergeGroups graph mssus)
    (hmem : mssu ∈ base :: rest) : idMap graph mssus mssu.mssuId = base.mssuId := by
  have hany : (base :: rest).any (·.mssuId = mssu.mssuId) :=
    List.any_eq_true.2 ⟨mssu, hmem, decide_eq_true rfl⟩
  obtain ⟨last, hlast⟩ : ∃ last, ((mergeGroups graph mssus).filter fun group =>
      group.any (·.mssuId = mssu.mssuId)).getLast? = some last :=
    Option.isSome_iff_exists.1 (List.getLast?_isSome.2
      (List.ne_nil_of_mem (List.mem_filter.2 ⟨hgroup, hany⟩)))
  obtain ⟨hmemlast, hlastany⟩ := List.mem_filter.1 (List.mem_of_getLast? hlast)
  obtain ⟨other, hother, hid⟩ := List.any_eq_true.1 hlastany
  obtain rfl := eq_of_mem_mergeGroups hnodup hgroup hmemlast hmem hother
    (of_decide_eq_true hid).symm
  rw [idMap, hlast]
  rfl

/-- An MSSU with a key is not shared. -/
theorem unshared_of_key {mssu : BuiltMSSU} {key : MergeKey} (h : mergeKey graph mssu = some key) :
    mssu.isSharedInfra = false := by
  cases hshared : mssu.isSharedInfra with
  | false => rfl
  | true =>
    simp only [mergeKey, hshared, Bool.true_or, if_true] at h
    split_ifs at h

/-- Nor is a merged one. -/
theorem unshared_mergeBucket (base : BuiltMSSU) {group : List BuiltMSSU} {key : MergeKey}
    (hkey : ∀ mssu ∈ group, mergeKey graph mssu = some key) :
    (mergeBucket base group).isSharedInfra = false := by
  rw [mergeBucket, List.any_eq_false]
  exact fun mssu hmssu => by simp [unshared_of_key (hkey mssu hmssu)]

end Groups

/-! ## The result -/

section Result

variable {graph : ReducedGraph} {s : BuildState} {candidates : List Candidate}

theorem nodeIds_normalizeTeardownConnectMssu (mssu : BuiltMSSU) (peers : List BuiltMSSU) :
    (normalizeTeardownConnectMssu mssu peers).nodeIds = mssu.nodeIds := by
  rw [normalizeTeardownConnectMssu]
  split_ifs <;> rfl

theorem nodeIds_propagateTags (mssus : List BuiltMSSU) (mssu : BuiltMSSU) :
    (propagateTags graph mssus mssu).nodeIds = mssu.nodeIds := by
  rw [propagateTags]
  split_ifs <;> rfl

theorem mem_normalizeTeardown {before rest : List BuiltMSSU} {mssu : BuiltMSSU}
    (h : mssu ∈ normalizeTeardown before rest) :
    mssu ∈ before ∨ ∃ other ∈ rest, ∃ peers, mssu = normalizeTeardownConnectMssu other peers := by
  induction rest generalizing before with
  | nil => exact .inl h
  | cons other rest ih =>
    rcases ih h with h | ⟨last, hlast, hpeers⟩
    · rcases List.mem_append.1 h with h | h
      · exact .inl h
      · exact .inr ⟨other, List.mem_cons_self, _, List.mem_singleton.1 h⟩
    · exact .inr ⟨last, List.mem_cons_of_mem _ hlast, hpeers⟩

/-- An MSSU of the result is a merged one that is kept, normalised and tagged. -/
theorem exists_of_mem_compactMssus {mssu : BuiltMSSU}
    (h : mssu ∈ (compactMssus graph s candidates).mssus) :
    ∃ merged ∈ keptMssus graph s.mssus, ∃ mssus peers,
      mssu = propagateTags graph mssus (normalizeTeardownConnectMssu merged peers) := by
  rw [compactMssus_eq, mem_sortedBy] at h
  obtain ⟨other, hother, rfl⟩ := List.mem_map.1 h
  rcases mem_normalizeTeardown hother with hnil | ⟨merged, hmerged, peers, rfl⟩
  · cases hnil
  · exact ⟨merged, hmerged, _, peers, rfl⟩

/-- Its name and its nodes are those of the merged one. -/
theorem exists_merged_of_mem {mssu : BuiltMSSU}
    (h : mssu ∈ (compactMssus graph s candidates).mssus) :
    ∃ merged ∈ keptMssus graph s.mssus, mssu.mssuId = merged.mssuId ∧
      mssu.nodeIds = merged.nodeIds := by
  obtain ⟨merged, hmerged, mssus, peers, rfl⟩ := exists_of_mem_compactMssus h
  exact ⟨merged, hmerged, by simp, by
    rw [nodeIds_propagateTags, nodeIds_normalizeTeardownConnectMssu]⟩

/-- A merged MSSU that is kept is in the result, under its name and with its nodes. -/
theorem exists_mem_compactMssus (candidates : List Candidate) {merged : BuiltMSSU} (h : merged ∈ keptMssus graph s.mssus) :
    ∃ mssu ∈ (compactMssus graph s candidates).mssus, mssu.mssuId = merged.mssuId ∧
      mssu.nodeIds = merged.nodeIds := by
  obtain ⟨peers, hpeers⟩ := exists_mem_normalizeTeardown [] h
  refine ⟨_, mem_sortedBy.2 (List.mem_map_of_mem hpeers), by simp, ?_⟩
  rw [nodeIds_propagateTags, nodeIds_normalizeTeardownConnectMssu]

end Result

end FloWeaver.Mssu
