import FloWeaver.Mssu.Returns

/-!
# No node of a marker is lost

The builder grows the nodes of a marker, takes away what others have claimed and cuts the rest down
to a limit.  Each of these steps spares the nodes that the marker is attached to, and so does the
merge.

* `seeds_subset_closedNodes` — the closure spares the seeds.
* `seeds_subset_pruneToCap`, `length_pruneToCap` — so does the limit, which only they may exceed.
* `RowsKept` — what holds of the MSSUs so far, marker by marker.
* `build_keeps_markers` — what holds of all, before and after the merge.
-/

namespace FloWeaver.Mssu

open Py

/-! ## The closure -/

section Closure

variable {graph : ReducedGraph} {marker : Marker} {seeds : List String} {n : String}

theorem mem_expandSteps {edgeTypes : List String × List String} {maxExpansion : ℕ} (depth : ℕ)
    {keep : List String} (frontier : List String) (h : n ∈ keep) :
    n ∈ expandSteps graph edgeTypes maxExpansion depth keep frontier := by
  induction depth generalizing keep frontier with
  | zero => exact h
  | succ depth ih =>
    rw [expandSteps]
    split_ifs
    · exact h
    · exact ih _ (List.mem_append_left _ h)

theorem mem_borrowOverlapContext {closed overlap assigned : List String} (h : n ∈ closed) :
    n ∈ borrowOverlapContext graph marker closed overlap assigned := by
  rw [borrowOverlapContext]
  split_ifs
  · exact h
  · exact h
  · exact List.mem_eraseDups.2 (List.mem_append_left _ h)

variable {input : BuildInput} {assigned : List String}

/-- The closure spares the nodes of the marker. -/
theorem seeds_subset_closedNodes (h : n ∈ seeds) : n ∈ input.closedNodes assigned (marker, seeds) := by
  have hclaimed : n ∈ claimNodes (expandClosure input.graph input.builder marker seeds) seeds
      assigned :=
    List.mem_filter.2 ⟨mem_expandSteps _ _ h, by simp [h]⟩
  have hborrowed : n ∈ borrowOverlapContext input.graph marker (claimNodes
      (expandClosure input.graph input.builder marker seeds) seeds assigned)
      (seeds.filter (assigned.contains ·)) assigned := mem_borrowOverlapContext hclaimed
  rw [BuildInput.closedNodes, filterActionLocalNodes]
  dsimp only
  split_ifs
  · exact hborrowed
  · exact List.mem_filter.2 ⟨hborrowed, by simp [h]⟩

end Closure

/-! ## The limit -/

section Limit

variable {graph : ReducedGraph} {builder : Builder} {marker : Marker}
  {nodeIds seeds extra kept : List String}

/-- Only the seeds are at distance zero. -/
theorem lookup_distanceLevels {n : String} (fuel level : ℕ) (frontier : List String)
    (distance : List (String × ℕ)) :
    (distanceLevels graph nodeIds fuel level frontier distance).lookup n = some 0 ↔
      distance.lookup n = some 0 := by
  induction fuel generalizing level frontier distance with
  | zero => rfl
  | succ fuel ih =>
    simp only [distanceLevels]
    split_ifs
    · rfl
    · rw [ih, List.lookup_append]
      cases hn : distance.lookup n with
      | some d => rfl
      | none =>
        refine iff_of_false (fun h => ?_) (by simp)
        obtain ⟨nodeId, -, heq⟩ := List.mem_map.1 (mem_of_lookup h)
        exact Nat.succ_ne_zero level (Prod.mk.inj heq).2

theorem lookup_seeds {n : String} :
    (seeds.map fun nodeId => (nodeId, 0)).lookup n = some 0 ↔ n ∈ seeds := by
  induction seeds with
  | nil => simp
  | cons seed seeds ih =>
    rw [List.map_cons, List.lookup_cons]
    by_cases hn : n = seed
    · simp [hn]
    · rw [beq_eq_false_iff_ne.2 hn, List.mem_cons, or_iff_right hn]
      exact ih

theorem mem_requiredNodes {required : List String} {n : String}
    (h : requiredNodes graph nodeIds seeds extra = .ok required) (hn : n ∈ seeds) :
    n ∈ required := by
  obtain ⟨rows, -, h⟩ := bind_eq_ok.1 h
  obtain rfl := pure_eq_ok.1 h
  exact List.mem_append_left _ (List.mem_append_left _ hn)

/-- What is ranked before a required node at distance zero is at distance zero. -/
theorem lookup_of_rank_le {required : List String} {distance : List (String × ℕ)}
    {rx ry : String × ℤ} (hle : rank required distance ry ≤ rank required distance rx)
    (hrequired : rx.1 ∈ required) (hzero : distance.lookup rx.1 = some 0) :
    distance.lookup ry.1 = some 0 := by
  rw [rank, rank, if_pos (List.contains_iff_mem.2 hrequired), hzero] at hle
  rcases Prod.Lex.toLex_le_toLex.1 hle with hlt | ⟨-, hle⟩
  · exact absurd hlt (Nat.not_lt_zero _)
  · rcases Prod.Lex.toLex_le_toLex.1 hle with hlt | ⟨heq, -⟩
    · exact absurd hlt (Nat.not_lt_zero _)
    · cases hlookup : distance.lookup ry.1 with
      | none => rw [hlookup] at heq; cases heq
      | some d => rw [hlookup] at heq; exact congrArg some heq

/-- With too many nodes, those that are taken are all seeds when a seed is not among them. -/
theorem exists_taken (h : pruneToCap graph builder marker nodeIds seeds extra = .ok kept)
    (hmany : ¬ nodeIds.length ≤ maxNodesForMarker builder marker) :
    ∃ taken rest : List String, kept = (taken ++ seeds).eraseDups ∧
      taken.length ≤ maxNodesForMarker builder marker ∧ (taken ++ rest).Perm nodeIds ∧
      ∀ x ∈ rest, x ∈ seeds → ∀ y ∈ taken, y ∈ seeds := by
  obtain ⟨required, rows, hrequired, hids, hkept⟩ := pruneToCap_of_many h hmany
  let cap := maxNodesForMarker builder marker
  let distance := distanceLevels graph nodeIds nodeIds.length 0 seeds
    (seeds.map fun nodeId => (nodeId, 0))
  let ranked := sortedBy (rank required distance) rows
  refine ⟨(ranked.take cap).map Prod.fst, (ranked.drop cap).map Prod.fst, hkept, ?_, ?_, ?_⟩
  · rw [List.length_map]
    exact List.length_take_le _ _
  · rw [← List.map_append, List.take_append_drop, ← hids]
    exact (sortedBy_perm _ _).map Prod.fst
  · intro x hx hseed y hy
    obtain ⟨rx, hrx, rfl⟩ := List.mem_map.1 hx
    obtain ⟨ry, hry, rfl⟩ := List.mem_map.1 hy
    have hsorted : (ranked.take cap ++ ranked.drop cap).Pairwise fun a b =>
        rank required distance a ≤ rank required distance b := by
      rw [List.take_append_drop]
      exact pairwise_sortedBy _ rows
    have hzero : ∀ n, distance.lookup n = some 0 ↔ n ∈ seeds := fun n =>
      (lookup_distanceLevels _ _ _ _).trans lookup_seeds
    exact (hzero _).1 (lookup_of_rank_le ((List.pairwise_append.1 hsorted).2.2 ry hry rx hrx)
      (mem_requiredNodes hrequired hseed) ((hzero _).2 hseed))

/-- The limit spares the seeds. -/
theorem seeds_subset_pruneToCap
    (h : pruneToCap graph builder marker nodeIds seeds extra = .ok kept)
    (hseeds : ∀ n ∈ seeds, n ∈ nodeIds) : ∀ n ∈ seeds, n ∈ kept := by
  intro n hn
  by_cases hmany : nodeIds.length ≤ maxNodesForMarker builder marker
  · obtain rfl := pruneToCap_of_few h hmany
    exact hseeds n hn
  · obtain ⟨taken, rest, rfl, -⟩ := exists_taken h hmany
    exact List.mem_eraseDups.2 (List.mem_append_right _ hn)

/-- Under the limit there are as many nodes as it allows, or the seeds alone. -/
theorem length_pruneToCap (h : pruneToCap graph builder marker nodeIds seeds extra = .ok kept)
    (hseeds : ∀ n ∈ seeds, n ∈ nodeIds) :
    kept.length ≤ max (maxNodesForMarker builder marker) seeds.length := by
  by_cases hmany : nodeIds.length ≤ maxNodesForMarker builder marker
  · obtain rfl := pruneToCap_of_few h hmany
    exact le_max_of_le_left hmany
  · obtain ⟨taken, rest, rfl, hlength, hperm, hrest⟩ := exists_taken h hmany
    have hnodup := nodup_eraseDups (taken ++ seeds)
    by_cases hall : ∀ x ∈ seeds, x ∈ taken
    · have hsub : (taken ++ seeds).eraseDups ⊆ taken := fun x hx =>
        (List.mem_append.1 (List.mem_eraseDups.1 hx)).elim id (hall x)
      exact le_max_of_le_left ((List.subperm_of_subset hnodup hsub).length_le.trans hlength)
    · push Not at hall
      obtain ⟨x, hx, hxtaken⟩ := hall
      have hxrest : x ∈ rest :=
        (List.mem_append.1 (hperm.mem_iff.2 (hseeds x hx))).resolve_left hxtaken
      have hsub : (taken ++ seeds).eraseDups ⊆ seeds := fun y hy =>
        (List.mem_append.1 (List.mem_eraseDups.1 hy)).elim (hrest x hxrest hx y) id
      exact le_max_of_le_right (List.subperm_of_subset hnodup hsub).length_le

end Limit

/-! ## The markers one after the other -/

section Rows

variable {input : BuildInput} {s t : BuildState} {done : List Seed}

/-- The first of some MSSUs that contains a node. -/
def firstWith (mssus : List BuiltMSSU) (nodeId : String) : Option BuiltMSSU :=
  mssus.find? (·.nodeIds.contains nodeId)

/-- What holds of the MSSU of a marker, among those that were built before it: it has the nodes of
the marker, not too many nodes, and depends on the first owner of a node that it shares. -/
structure RowKept (input : BuildInput) (deps : List Candidate) (before : List BuiltMSSU) (idx : ℕ)
    (seed : Seed) (mssu : BuiltMSSU) : Prop where
  name : mssu.mssuId = mssuIdText input.mssuIdPrefix idx seed.1
  seeds : ∀ n ∈ seed.2, n ∈ mssu.nodeIds
  length : mssu.nodeIds.length ≤ max (maxNodesForMarker input.builder seed.1) seed.2.length
  shared : ∀ n ∈ seed.2, ∀ owner, firstWith before n = some owner →
    ∃ kind, (owner.mssuId, mssu.mssuId, kind) ∈ deps

theorem RowKept.mono {deps deps' : List Candidate} {before : List BuiltMSSU} {idx : ℕ} {seed : Seed}
    {mssu : BuiltMSSU} (h : RowKept input deps before idx seed mssu) (hsub : deps ⊆ deps') :
    RowKept input deps' before idx seed mssu :=
  ⟨h.name, h.seeds, h.length, fun n hn owner howner =>
    (h.shared n hn owner howner).imp fun _ hkind => hsub hkind⟩

/-- What holds of the MSSUs so far, marker by marker. -/
structure RowsKept (input : BuildInput) (done : List Seed) (s : BuildState) : Prop where
  length : s.mssus.length = done.length
  owner : ∀ n, s.nodeOwner.get? n = (firstWith s.mssus n).map (·.mssuId)
  row : ∀ idx seed mssu, done[idx]? = some seed → s.mssus[idx]? = some mssu →
    RowKept input s.overlapDeps (s.mssus.take idx) idx seed mssu

theorem exists_overlapDepKind (graph : ReducedGraph) (nodeId : String) :
    ∃ kind, kind ∈ overlapDepKinds graph nodeId := by
  simp only [overlapDepKinds]
  split_ifs with hempty
  · exact ⟨_, List.mem_singleton_self _⟩
  · obtain ⟨kind, hkind⟩ := List.exists_mem_of_ne_nil _ (mt List.isEmpty_iff.2 hempty)
    exact ⟨kind, List.mem_eraseDups.2 hkind⟩

theorem mssuIdText_ne_blank (mssuIdPrefix : String) (idx : ℕ) (marker : Marker) :
    mssuIdText mssuIdPrefix idx marker ≠ "" := by
  intro h
  have := congrArg String.toList h
  rw [mssuIdText_toList] at this
  exact absurd this (by simp)

/-- A shared node of the marker gives a candidate from its owner. -/
theorem exists_overlapCandidate (input : BuildInput) {nodeOwner : OrderedDict String String} {mssuId owner n : String}
    {overlap : List String} (hn : n ∈ overlap) (howner : nodeOwner.get? n = some owner)
    (hblank : owner ≠ "") (hne : owner ≠ mssuId) :
    ∃ kind, (owner, mssuId, kind) ∈ input.overlapCandidates nodeOwner mssuId overlap := by
  obtain ⟨kind, hkind⟩ := exists_overlapDepKind input.graph n
  refine ⟨kind, List.mem_flatMap.2 ⟨n, hn, ?_⟩⟩
  rw [howner]
  dsimp only
  rw [if_pos ⟨hblank, hne⟩]
  exact List.mem_map_of_mem hkind

/-- One more marker. -/
theorem buildStep_rowsKept {seed : Seed} (hnumbered : Numbered input done.length s)
    (hs : RowsKept input done s) (h : input.buildStep s (seed, done.length) = .ok t) :
    RowsKept input (done ++ [seed]) t := by
  obtain ⟨marker, seeds⟩ := seed
  obtain ⟨made, hname, hmssus, howner⟩ := buildStep_spec h
  have hdistinct := (buildStep_numbered hnumbered h).1
  obtain ⟨closed, io, binding, hclosed, -, -, rfl⟩ := buildStep_eq_ok.1 h
  obtain rfl : made = BuildInput.assembleMssu (mssuIdText input.mssuIdPrefix done.length marker)
      marker closed io binding := by simpa using hmssus.symm
  have hseeds : ∀ n ∈ seeds, n ∈ input.closedNodes s.nodeOwner.keys (marker, seeds) :=
    fun n hn => seeds_subset_closedNodes hn
  refine ⟨by simp [hs.length], fun n => ?_, fun idx seed mssu hdone hmssu => ?_⟩
  · rw [howner, hs.owner, firstWith, firstWith, List.find?_append]
    cases hfirst : s.mssus.find? (·.nodeIds.contains n) with
    | some first => simp
    | none =>
      rw [Option.none_or, List.find?_singleton]
      by_cases hn : n ∈ (BuildInput.assembleMssu (mssuIdText input.mssuIdPrefix done.length marker)
        marker closed io binding).nodeIds <;> simp [hn]
  · rcases Nat.lt_or_ge idx done.length with hlt | hge
    · rw [List.getElem?_append_left hlt] at hdone
      rw [List.getElem?_append_left (hs.length ▸ hlt)] at hmssu
      rw [List.take_append_of_le_length (hs.length ▸ hlt.le)]
      exact (hs.row idx seed mssu hdone hmssu).mono (List.subset_append_left _ _)
    · have hidx : idx = done.length := by
        have := (List.getElem?_eq_some_iff.1 hdone).1
        rw [List.length_append, List.length_singleton] at this
        omega
      subst hidx
      obtain rfl : (marker, seeds) = seed := by simpa using hdone
      obtain rfl : BuildInput.assembleMssu (mssuIdText input.mssuIdPrefix done.length marker)
          marker closed io binding = mssu := by simpa [← hs.length] using hmssu
      rw [List.take_left' hs.length]
      refine ⟨hname, fun n hn => ?_, ?_, fun n hn owner hfirst => ?_⟩
      · exact mem_sortedSet.2 (seeds_subset_pruneToCap hclosed hseeds n hn)
      · have hsub : sortedSet closed ⊆ closed := fun x hx => mem_sortedSet.1 hx
        exact ((List.subperm_of_subset (nodup_sortedSet closed) hsub).length_le).trans
          (length_pruneToCap hclosed hseeds)
      · have hget : s.nodeOwner.get? n = some owner.mssuId := by rw [hs.owner, hfirst]; rfl
        have hmem := List.mem_of_find?_eq_some hfirst
        have hshared : n ∈ seeds.filter (s.nodeOwner.keys.contains ·) :=
          List.mem_filter.2 ⟨hn, List.contains_iff_mem.2
            (OrderedDict.get?_isSome_iff.1 (by rw [hget]; rfl))⟩
        obtain ⟨i, -, other, hid⟩ := hnumbered.2 owner hmem
        have hne : owner.mssuId ≠ mssuIdText input.mssuIdPrefix done.length marker := by
          intro heq
          rw [List.map_append, List.nodup_append] at hdistinct
          exact hdistinct.2.2 _ (List.mem_map_of_mem hmem) _ (List.mem_singleton_self _) heq
        have hblank : owner.mssuId ≠ "" := hid ▸ mssuIdText_ne_blank _ _ _
        obtain ⟨kind, hkind⟩ := exists_overlapCandidate input hshared hget hblank hne
        rw [hname]
        exact ⟨kind, List.mem_append_right s.overlapDeps hkind⟩

/-- All the markers. -/
theorem foldlM_rowsKept {seeds done : List Seed} (hnumbered : Numbered input done.length s)
    (hs : RowsKept input done s)
    (h : (seeds.zipIdx done.length).foldlM input.buildStep s = .ok t) :
    RowsKept input (done ++ seeds) t := by
  induction seeds generalizing done s with
  | nil =>
    obtain rfl := pure_eq_ok.1 h
    rwa [List.append_nil]
  | cons seed seeds ih =>
    rw [List.zipIdx_cons, List.foldlM_cons] at h
    obtain ⟨u, hu, h⟩ := bind_eq_ok.1 h
    have hlength : (done ++ [seed]).length = done.length + 1 := by simp
    rw [← List.singleton_append, ← List.append_assoc]
    refine ih ?_ (buildStep_rowsKept hnumbered hs hu) (hlength ▸ h)
    exact hlength ▸ buildStep_numbered hnumbered hu

theorem buildMssus_rowsKept (h : input.buildMssus = .ok s) :
    RowsKept input (seedNodes input.markers input.markerToNodes) s := by
  have hstart : RowsKept input [] {} :=
    ⟨rfl, fun n => rfl, fun idx seed mssu hdone => absurd hdone (by simp)⟩
  have hnumbered : Numbered input ([] : List Seed).length {} :=
    ⟨List.nodup_nil, fun m hm => absurd hm List.not_mem_nil⟩
  simpa using foldlM_rowsKept hnumbered hstart h

end Rows

/-! ## The markers and the result -/

section Result

variable {input : BuildInput}

/-- The nodes that a marker is attached to. -/
def BuildInput.attached (input : BuildInput) (marker : Marker) : List String :=
  ((input.markerToNodes.get? marker.markerId).getD []).eraseDups

/-- Every strong or medium marker with nodes is among those from which MSSUs are built. -/
theorem mem_seedNodes {marker : Marker} (hmem : marker ∈ input.markers)
    (hstrength : marker.strength ∈ ["STRONG", "MEDIUM"]) (hnodes : input.attached marker ≠ []) :
    (marker, input.attached marker) ∈ seedNodes input.markers input.markerToNodes := by
  rw [seedNodes, mem_sortedBy, List.mem_filter]
  refine ⟨List.mem_map.2 ⟨marker, List.mem_filter.2 ⟨hmem, by simpa using hstrength⟩, rfl⟩, ?_⟩
  simpa using hnodes

/-- The group of an MSSU that is not dropped is kept. -/
theorem exists_kept_of_mem (graph : ReducedGraph) {mssus : List BuiltMSSU}
    (hnodup : (mssus.map (·.mssuId)).Nodup) {mssu : BuiltMSSU} (hmem : mssu ∈ mssus)
    (hkept : dropTeardownUnownedBleOps mssu = false) :
    ∃ merged ∈ keptMssus graph mssus, merged.mssuId = idMap graph mssus mssu.mssuId ∧
      ∀ n ∈ mssu.nodeIds, n ∈ merged.nodeIds := by
  obtain ⟨group, hgroup, hin⟩ : ∃ group ∈ mergeGroups graph mssus, mssu ∈ group :=
    exists_mem_mergeGroups hmem
  cases group with
  | nil => cases hin
  | cons base rest =>
    obtain ⟨merged, hmerged, hid⟩ := exists_mem_mergeGroup base rest
    have hmember : merged ∈ mergeGroup (base :: rest) := hmerged ▸ List.mem_singleton_self _
    refine ⟨merged, List.mem_filter.2 ⟨List.mem_flatMap.2 ⟨_, hgroup, hmember⟩, ?_⟩, ?_, ?_⟩
    · cases rest with
      | nil =>
        obtain rfl := List.mem_singleton.1 hin
        obtain rfl := List.mem_singleton.1 hmember
        simp [hkept]
      | cons other rest =>
        obtain rfl := List.mem_singleton.1 hmember
        obtain ⟨-, -, ⟨single, hsingle⟩ | ⟨key, hkey⟩⟩ := mem_mergeGroups hnodup hgroup
        · exact absurd (congrArg List.length hsingle) (by simp)
        · simp [dropTeardownUnownedBleOps, unshared_mergeBucket base hkey]
    · rw [hid, idMap_eq hnodup hgroup hin]
    · exact fun n hn => (mem_nodeIds_mergeGroup hmember).2 ⟨mssu, hin, hn⟩

/-- The builder returns when the markers and the edges are at nodes of the graph.  Before the merge
every marker has an MSSU with its nodes, and after it the nodes of every MSSU that is not dropped
are in the one that takes its place. -/
theorem build_keeps_markers (input : BuildInput) :
    (input.WellFormed → ∃ result, build input = .ok result) ∧
    ∀ result, build input = .ok result → ∃ s, input.buildMssus = .ok s ∧
      (∀ marker ∈ input.markers, marker.strength ∈ ["STRONG", "MEDIUM"] →
        input.attached marker ≠ [] →
        (marker, input.attached marker) ∈ seedNodes input.markers input.markerToNodes) ∧
      (∀ idx seed, (seedNodes input.markers input.markerToNodes)[idx]? = some seed →
        ∃ mssu, s.mssus[idx]? = some mssu ∧ RowKept input (dependencyCandidates input.graph s)
          (s.mssus.take idx) idx seed mssu) ∧
      ∀ mssu ∈ s.mssus, dropTeardownUnownedBleOps mssu = false →
        ∃ final ∈ result.mssus, final.mssuId = idMap input.graph s.mssus mssu.mssuId ∧
          ∀ n ∈ mssu.nodeIds, n ∈ final.nodeIds := by
  refine ⟨exists_build, fun result h => ?_⟩
  obtain ⟨s, hs, h⟩ := bind_eq_ok.1 h
  obtain rfl := pure_eq_ok.1 h
  have hrows := buildMssus_rowsKept hs
  refine ⟨s, hs, fun marker hmem hstrength hnodes => mem_seedNodes hmem hstrength hnodes,
    fun idx seed hseed => ?_, fun mssu hmssu hkept => ?_⟩
  · have hlt : idx < s.mssus.length := hrows.length ▸ (List.getElem?_eq_some_iff.1 hseed).1
    refine ⟨s.mssus[idx], List.getElem?_eq_getElem hlt, ?_⟩
    exact (hrows.row idx seed _ hseed (List.getElem?_eq_getElem hlt)).mono
      (List.subset_append_right _ _)
  · obtain ⟨merged, hmerged, hid, hnodes⟩ := exists_kept_of_mem input.graph
      (buildMssus_nodup hs) hmssu hkept
    obtain ⟨final, hfinal, hname, hsame⟩ := exists_mem_compactMssus
      (dependencyCandidates input.graph s) hmerged
    exact ⟨final, hfinal, hname.trans hid, fun n hn => hsame ▸ hnodes n hn⟩

end Result

end FloWeaver.Mssu
