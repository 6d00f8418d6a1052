import FloWeaver.Lib.Digraph
import FloWeaver.Mssu.Compact

/-!
# Cycles and the merge of MSSUs

Merging forgets how the MSSUs depend on each other, so that a chain may become a cycle.  A cycle
after the merge passes through an MSSU that was merged with another or shares a node with one.

* `mssuIdText_inj`, `buildMssus_nodup` — MSSUs have different names.
* `Owned`, `buildMssus_owned` — the owner of a node is an MSSU that contains it.
* `compaction_acyclic` — there is no cycle among the MSSUs that the merge does not touch.
-/

namespace FloWeaver.Mssu

open Py
open DepGraph

/-! ## Names -/

/-- The number in the name of an MSSU, with its zeros. -/
def paddedDigits (idx : ℕ) : List Char :=
  List.replicate (3 - (toString idx).length) '0' ++ Nat.toDigits 10 idx

theorem mssuIdText_toList (mssuIdPrefix : String) (idx : ℕ) (marker : Marker) :
    (mssuIdText mssuIdPrefix idx marker).toList =
      mssuIdPrefix.toList ++ '_' :: (paddedDigits idx ++ '_' :: (lower marker.markerType).toList) := by
  simp [mssuIdText, paddedDigits, String.toList_append]

theorem underscore_not_mem_paddedDigits (idx : ℕ) : '_' ∉ paddedDigits idx := by
  rw [paddedDigits, List.mem_append, not_or]
  refine ⟨fun h => ?_, Nat.underscore_not_in_toDigits⟩
  exact absurd (List.eq_of_mem_replicate h) (by decide)

theorem paddedDigits_inj {i j : ℕ} (h : paddedDigits i = paddedDigits j) : i = j := by
  have hvalue : ∀ k, Nat.ofDigitChars 10 (paddedDigits k) 0 = k := fun k => by
    rw [paddedDigits, Nat.ofDigitChars_append, Nat.ofDigitChars_replicate_zero, Nat.mul_zero,
      Nat.ofDigitChars_ten_toDigits]
  rw [← hvalue i, h, hvalue j]

/-- Two lists that end at their first underscore. -/
theorem append_underscore_inj {a b c d : List Char} (ha : '_' ∉ a) (hb : '_' ∉ b)
    (h : a ++ '_' :: c = b ++ '_' :: d) : a = b := by
  have hcut : ∀ {x y : List Char}, '_' ∉ x → (x ++ '_' :: y).takeWhile (· ≠ '_') = x := by
    intro x y hx
    have hall : ∀ c ∈ x, decide (c ≠ '_') = true := fun c hc =>
      decide_eq_true fun h => hx (h ▸ hc)
    rw [List.takeWhile_append_of_pos hall]
    simp
  rw [← hcut (y := c) ha, h, hcut hb]

/-- The name of an MSSU tells its number. -/
theorem mssuIdText_inj {mssuIdPrefix : String} {i j : ℕ} {a b : Marker}
    (h : mssuIdText mssuIdPrefix i a = mssuIdText mssuIdPrefix j b) : i = j := by
  have h := congrArg String.toList h
  rw [mssuIdText_toList, mssuIdText_toList, List.append_cancel_left_eq, List.cons.injEq] at h
  exact paddedDigits_inj (append_underscore_inj (underscore_not_mem_paddedDigits i)
    (underscore_not_mem_paddedDigits j) h.2)

/-! ## One step of the builder -/

section Build

variable {input : BuildInput} {s t : BuildState}

theorem get?_foldl_set {owner : OrderedDict String String} {nodeIds : List String} {id n : String} :
    (nodeIds.foldl (fun owner nodeId => owner.set nodeId id) owner).get? n =
      if n ∈ nodeIds then some id else owner.get? n := by
  induction nodeIds generalizing owner with
  | nil => simp
  | cons m nodeIds ih =>
    rw [List.foldl_cons, ih, OrderedDict.get?_set]
    by_cases hn : n ∈ nodeIds
    · simp [hn]
    · by_cases hm : n = m <;> simp [hn, hm]

/-- A step adds an MSSU, and gives it the nodes that have no owner. -/
theorem buildStep_spec {marker : Marker} {seeds : List String} {idx : ℕ}
    (h : input.buildStep s ((marker, seeds), idx) = .ok t) :
    ∃ mssu : BuiltMSSU, mssu.mssuId = mssuIdText input.mssuIdPrefix idx marker ∧
      t.mssus = s.mssus ++ [mssu] ∧
      ∀ n, t.nodeOwner.get? n =
        if n ∈ mssu.nodeIds ∧ s.nodeOwner.get? n = none then some mssu.mssuId
        else s.nodeOwner.get? n := by
  obtain ⟨closed, -, h⟩ := bind_eq_ok.1 h
  obtain ⟨io, -, h⟩ := bind_eq_ok.1 h
  obtain ⟨binding, -, h⟩ := bind_eq_ok.1 h
  obtain rfl := pure_eq_ok.1 h
  refine ⟨_, rfl, rfl, fun n => ?_⟩
  have hassigned : n ∈ s.nodeOwner.keys ↔ s.nodeOwner.get? n ≠ none := by
    rw [← OrderedDict.get?_isSome_iff, Option.isSome_iff_ne_none]
  refine get?_foldl_set.trans (if_congr ?_ rfl rfl)
  show _ ↔ n ∈ sortedSet closed ∧ _
  rw [mem_sortedSet, List.mem_filter]
  simp [hassigned]

/-- The owner of a node is an MSSU that contains it, and every node of an MSSU has one. -/
structure Owned (s : BuildState) : Prop where
  owner : ∀ n id, s.nodeOwner.get? n = some id → ∃ mssu ∈ s.mssus, mssu.mssuId = id ∧ n ∈ mssu.nodeIds
  owned : ∀ mssu ∈ s.mssus, ∀ n ∈ mssu.nodeIds, (s.nodeOwner.get? n).isSome

theorem buildStep_owned {row : Seed × ℕ} (hs : Owned s) (h : input.buildStep s row = .ok t) :
    Owned t := by
  obtain ⟨⟨marker, seeds⟩, idx⟩ := row
  obtain ⟨mssu, -, hmssus, howner⟩ := buildStep_spec h
  refine ⟨fun n id hn => ?_, fun m hm n hn => ?_⟩
  · rw [howner] at hn
    rw [hmssus]
    split_ifs at hn with hnew
    · exact ⟨mssu, by simp, Option.some.inj hn, hnew.1⟩
    · obtain ⟨m, hm, hid, hmem⟩ := hs.owner n id hn
      exact ⟨m, List.mem_append_left _ hm, hid, hmem⟩
  · rw [howner]
    rw [hmssus] at hm
    split_ifs with hnew
    · rfl
    · rcases List.mem_append.1 hm with hm | hm
      · exact hs.owned m hm n hn
      · obtain rfl := List.mem_singleton.1 hm
        rw [Option.isSome_iff_ne_none]
        exact fun hnone => hnew ⟨hn, hnone⟩

/-- The names so far are those of the numbers so far. -/
def Numbered (input : BuildInput) (count : ℕ) (s : BuildState) : Prop :=
  (s.mssus.map (·.mssuId)).Nodup ∧
    ∀ mssu ∈ s.mssus, ∃ idx < count, ∃ marker, mssu.mssuId = mssuIdText input.mssuIdPrefix idx marker

theorem buildStep_numbered {marker : Marker} {seeds : List String} {idx : ℕ}
    (hs : Numbered input idx s) (h : input.buildStep s ((marker, seeds), idx) = .ok t) :
    Numbered input (idx + 1) t := by
  obtain ⟨mssu, hid, hmssus, -⟩ := buildStep_spec h
  rw [Numbered, hmssus, List.map_append, List.nodup_append]
  refine ⟨⟨hs.1, by simp, fun a ha b hb => ?_⟩, fun m hm => ?_⟩
  · rintro rfl
    obtain ⟨m, hm, rfl⟩ := List.mem_map.1 ha
    obtain ⟨i, hi, other, hname⟩ := hs.2 m hm
    rw [List.map_singleton, List.mem_singleton, hname, hid] at hb
    exact absurd (mssuIdText_inj hb) (Nat.ne_of_lt hi)
  · rcases List.mem_append.1 hm with hm | hm
    · obtain ⟨i, hi, other, hname⟩ := hs.2 m hm
      exact ⟨i, by omega, other, hname⟩
    · obtain rfl := List.mem_singleton.1 hm
      exact ⟨idx, by omega, marker, hid⟩

/-- What holds at the start and after every step holds at the end. -/
theorem foldlM_buildStep {motive : ℕ → BuildState → Prop} {seeds : List Seed} {idx : ℕ}
    (hstep : ∀ seed i s t, motive i s → input.buildStep s (seed, i) = .ok t → motive (i + 1) t)
    (hs : motive idx s) (h : (seeds.zipIdx idx).foldlM input.buildStep s = .ok t) :
    motive (idx + seeds.length) t := by
  induction seeds generalizing idx s with
  | nil =>
    obtain rfl := pure_eq_ok.1 h
    exact hs
  | cons seed seeds ih =>
    rw [List.zipIdx_cons, List.foldlM_cons] at h
    obtain ⟨u, hu, h⟩ := bind_eq_ok.1 h
    rw [List.length_cons, Nat.add_comm seeds.length, ← Nat.add_assoc]
    exact ih (hstep seed idx s u hs hu) h

theorem buildMssus_owned (h : input.buildMssus = .ok s) : Owned s :=
  foldlM_buildStep (motive := fun _ s => Owned s) (fun _ _ _ _ hs ht => buildStep_owned hs ht)
    ⟨fun n id h => by simp [OrderedDict.get?, OrderedDict.empty] at h,
      fun m hm => absurd hm List.not_mem_nil⟩ h

/-- The MSSUs have different names. -/
theorem buildMssus_nodup (h : input.buildMssus = .ok s) : (s.mssus.map (·.mssuId)).Nodup := by
  have hstart : Numbered input 0 {} := ⟨List.nodup_nil, fun m hm => absurd hm List.not_mem_nil⟩
  exact (foldlM_buildStep (motive := Numbered input)
    (fun _ _ _ _ hs ht => buildStep_numbered hs ht) hstart h).1

end Build

/-! ## What the merge leaves alone -/

/-- No other MSSU has the key of this one, or one of its nodes. -/
structure Untouched (graph : ReducedGraph) (mssus : List BuiltMSSU) (id : String) : Prop where
  unmerged : ∀ mssu ∈ mssus, ∀ other ∈ mssus, mssu.mssuId = id → other.mssuId ≠ id →
    (mergeKey graph mssu).isSome → mergeKey graph other ≠ mergeKey graph mssu
  unshared : ∀ mssu ∈ mssus, ∀ other ∈ mssus, mssu.mssuId = id → other.mssuId ≠ id →
    ∀ n ∈ mssu.nodeIds, n ∉ other.nodeIds

section Merge

variable {graph : ReducedGraph} {mssus : List BuiltMSSU} {id : String}

/-- The MSSUs of a group come from the list; two of them have one key and different names. -/
theorem mem_mergeGroups {group : List BuiltMSSU} (hnodup : (mssus.map (·.mssuId)).Nodup)
    (h : group ∈ mergeGroups graph mssus) :
    (∀ mssu ∈ group, mssu ∈ mssus) ∧ (group.map (·.mssuId)).Nodup ∧
      ((∃ mssu, group = [mssu]) ∨
        ∃ key, ∀ mssu ∈ group, mergeKey graph mssu = some key) := by
  rcases List.mem_append.1 h with h | h
  · obtain ⟨mssu, hmssu, rfl⟩ := List.mem_map.1 h
    refine ⟨fun m hm => ?_, by simp, .inl ⟨mssu, rfl⟩⟩
    obtain rfl := List.mem_singleton.1 hm
    exact List.mem_of_mem_filter hmssu
  · obtain ⟨key, -, rfl⟩ := List.mem_map.1 h
    refine ⟨fun m hm => List.mem_of_mem_filter hm, ?_, .inr ⟨key, fun m hm => ?_⟩⟩
    · exact hnodup.sublist (List.filter_sublist.map _)
    · exact of_decide_eq_true (List.mem_filter.1 hm).2

/-- The group of an untouched MSSU is the MSSU alone. -/
theorem eq_singleton_of_untouched {base : BuiltMSSU} {rest : List BuiltMSSU}
    (hnodup : (mssus.map (·.mssuId)).Nodup) (h : Untouched graph mssus id)
    (hgroup : base :: rest ∈ mergeGroups graph mssus) (hid : base.mssuId = id) : rest = [] := by
  obtain ⟨hmem, hdistinct, hkey⟩ := mem_mergeGroups hnodup hgroup
  cases rest with
  | nil => rfl
  | cons other rest =>
    rcases hkey with ⟨mssu, hsingle⟩ | ⟨key, hkey⟩
    · exact absurd (congrArg List.length hsingle) (by simp)
    · have hother : other ∈ base :: other :: rest := by simp
      have hne : other.mssuId ≠ id := by
        rw [← hid]
        intro hsame
        rw [List.map_cons, List.map_cons, List.nodup_cons, hsame] at hdistinct
        exact hdistinct.1 List.mem_cons_self
      have hbase := hkey base List.mem_cons_self
      exact absurd ((hkey other hother).trans hbase.symm)
        (h.unmerged base (hmem _ List.mem_cons_self) other (hmem _ hother) hid hne
          (by rw [hbase]; rfl))

/-- A merged group keeps the name of its first MSSU. -/
theorem mssuId_of_mem_mergeGroup {mssu base : BuiltMSSU} {rest : List BuiltMSSU}
    (h : mssu ∈ mergeGroup (base :: rest)) : mssu.mssuId = base.mssuId := by
  cases rest with
  | nil => rw [List.mem_singleton.1 h]
  | cons other rest => rw [List.mem_singleton.1 h, mergeBucket]

/-- An untouched MSSU is not changed by the merge. -/
theorem mem_of_mem_mergedMssus {mssu : BuiltMSSU} (hnodup : (mssus.map (·.mssuId)).Nodup)
    (h : Untouched graph mssus id) (hmem : mssu ∈ mergedMssus graph mssus)
    (hid : mssu.mssuId = id) : mssu ∈ mssus := by
  obtain ⟨group, hgroup, hmem⟩ := List.mem_flatMap.1 hmem
  have hsub := (mem_mergeGroups hnodup hgroup).1
  cases group with
  | nil => cases hmem
  | cons base rest =>
    cases rest with
    | nil =>
      obtain rfl := List.mem_singleton.1 hmem
      exact hsub _ List.mem_cons_self
    | cons other rest =>
      have hbase : base.mssuId = id := hid ▸ (mssuId_of_mem_mergeGroup hmem).symm
      exact absurd (eq_singleton_of_untouched hnodup h hgroup hbase) (List.cons_ne_nil _ _)

theorem mem_of_lastRowOf {merged : List BuiltMSSU} {row : BuiltMSSU}
    (h : lastRowOf merged id = some row) : row ∈ merged ∧ row.mssuId = id := by
  obtain ⟨hmem, hid⟩ := List.mem_filter.1 (List.mem_of_getLast? h)
  exact ⟨hmem, of_decide_eq_true hid⟩

theorem mem_of_lastOwner {merged : List BuiltMSSU} {n : String}
    (h : lastOwner merged n = some id) : ∃ mssu ∈ merged, mssu.mssuId = id ∧ n ∈ mssu.nodeIds := by
  obtain ⟨mssu, hlast, rfl⟩ := Option.map_eq_some_iff.1 h
  obtain ⟨hmem, hn⟩ := List.mem_filter.1 (List.mem_of_getLast? hlast)
  exact ⟨mssu, hmem, rfl, by simpa using hn⟩

theorem rowOf_of_mem {mssu : BuiltMSSU} (hnodup : (mssus.map (·.mssuId)).Nodup)
    (h : mssu ∈ mssus) : rowOf mssus mssu.mssuId = some mssu := by
  cases hfind : rowOf mssus mssu.mssuId with
  | none => exact absurd (decide_eq_true rfl) (List.find?_eq_none.1 hfind mssu h)
  | some other =>
    have hid : other.mssuId = mssu.mssuId := by simpa using List.find?_some hfind
    exact congrArg some (List.inj_on_of_nodup_map hnodup (List.mem_of_find?_eq_some hfind) h hid)

/-- Only the untouched MSSU itself is mapped to it. -/
theorem idMap_eq_untouched {src : String} (hnodup : (mssus.map (·.mssuId)).Nodup)
    (h : Untouched graph mssus id) (hsrc : idMap graph mssus src = id) : src = id := by
  rw [idMap] at hsrc
  cases hlast : ((mergeGroups graph mssus).filter fun group =>
      group.any (·.mssuId = src)).getLast? with
  | none =>
    rw [hlast] at hsrc
    exact hsrc
  | some group =>
    rw [hlast] at hsrc
    obtain ⟨hgroup, hany⟩ := List.mem_filter.1 (List.mem_of_getLast? hlast)
    cases group with
    | nil => exact hsrc
    | cons base rest =>
      obtain rfl := eq_singleton_of_untouched hnodup h hgroup hsrc
      have hbase : base.mssuId = src := by simpa using hany
      exact hbase.symm.trans hsrc

end Merge

/-! ## Candidates -/

/-- One MSSU is a candidate to depend on another. -/
def CandidateEdge (candidates : List Candidate) (src dst : String) : Prop :=
  ∃ kind, (src, dst, kind) ∈ candidates

theorem candidateBetween_eq_some {may : BuiltMSSU → BuiltMSSU → Bool}
    {rowOf : String → Option BuiltMSSU} {kind src dst : String} {row : Candidate} :
    candidateBetween may rowOf kind src dst = some row ↔
      row = (src, dst, kind) ∧ ¬(src = "" ∨ dst = "" ∨ src = dst) ∧
        ∃ srcRow dstRow, rowOf src = some srcRow ∧ rowOf dst = some dstRow ∧
          may srcRow dstRow = true := by
  rw [candidateBetween]
  by_cases hne : src = "" ∨ dst = "" ∨ src = dst
  · simp [hne]
  · rw [if_neg hne]
    cases rowOf src with
    | none => simp
    | some srcRow =>
      cases rowOf dst with
      | none => simp
      | some dstRow =>
        dsimp only
        by_cases hmay : may srcRow dstRow = true
        · rw [if_pos hmay]
          refine ⟨fun h => ⟨(Option.some.inj h).symm, hne, srcRow, dstRow, rfl, rfl, hmay⟩, ?_⟩
          exact fun h => congrArg some h.1.symm
        · simp [hmay]

theorem mem_edgeCandidates {graph : ReducedGraph} {ownerOf : String → Option String}
    {rowOf : String → Option BuiltMSSU} {row : Candidate} :
    row ∈ edgeCandidates graph ownerOf rowOf ↔
      ∃ edge ∈ graph.edges, edge.edgeType ∈ interMssuEdgeTypes ∧ ∃ src dst,
        ownerOf edge.src = some src ∧ ownerOf edge.dst = some dst ∧
        candidateBetween mayDepend rowOf edge.edgeType src dst = some row := by
  rw [edgeCandidates, List.mem_filterMap]
  refine exists_congr fun edge => and_congr_right fun _ => ?_
  by_cases htype : edge.edgeType ∈ interMssuEdgeTypes
  · have hkeep : (!interMssuEdgeTypes.contains edge.edgeType) = false := by simpa using htype
    rw [hkeep, if_neg Bool.false_ne_true]
    constructor
    · intro h
      split at h
      next src dst hsrc hdst => exact ⟨htype, src, dst, hsrc, hdst, h⟩
      next => exact absurd h (by simp)
    · rintro ⟨-, src, dst, hsrc, hdst, h⟩
      rw [hsrc, hdst]
      exact h
  · have hskip : (!interMssuEdgeTypes.contains edge.edgeType) = true := by simpa using htype
    rw [hskip, if_pos rfl]
    exact ⟨fun h => absurd h (by simp), fun h => absurd h.1 htype⟩

section Candidates

variable {input : BuildInput} {s : BuildState}

/-- A candidate between two untouched MSSUs was a candidate before the merge. -/
theorem mem_candidates_of_untouched (h : input.buildMssus = .ok s) {row : Candidate}
    (hrow : row ∈ mergedCandidates input.graph s.mssus (dependencyCandidates input.graph s))
    (hsrc : Untouched input.graph s.mssus row.1) (hdst : Untouched input.graph s.mssus row.2.1) :
    row ∈ dependencyCandidates input.graph s := by
  have hnodup := buildMssus_nodup h
  rcases List.mem_append.1 hrow with hrow | hrow
  · -- the owners and the rows of an untouched MSSU are those of before
    obtain ⟨edge, hedge, htype, src, dst, hs, hd, hbetween⟩ := mem_edgeCandidates.1 hrow
    obtain ⟨rfl, hne, srcRow, dstRow, hsrcRow, hdstRow, hmay⟩ :=
      candidateBetween_eq_some.1 hbetween
    have hbefore : ∀ id, Untouched input.graph s.mssus id → ∀ n,
        lastOwner (mergedMssus input.graph s.mssus) n = some id → s.nodeOwner.get? n = some id := by
      intro id hid n hn
      obtain ⟨mssu, hmem, hname, hin⟩ := mem_of_lastOwner hn
      have hmssu := mem_of_mem_mergedMssus hnodup hid hmem hname
      obtain ⟨owner, howner⟩ := Option.isSome_iff_exists.1
        ((buildMssus_owned h).owned mssu hmssu n hin)
      obtain ⟨other, hother, rfl, hin'⟩ := (buildMssus_owned h).owner n owner howner
      by_cases hsame : other.mssuId = id
      · rw [howner, hsame]
      · exact absurd hin' (hid.unshared mssu hmssu other hother hname hsame n hin)
    have hrows : ∀ id, Untouched input.graph s.mssus id → ∀ r,
        lastRowOf (mergedMssus input.graph s.mssus) id = some r → rowOf s.mssus id = some r := by
      intro id hid r hr
      obtain ⟨hmem, rfl⟩ := mem_of_lastRowOf hr
      exact rowOf_of_mem hnodup (mem_of_mem_mergedMssus hnodup hid hmem rfl)
    refine List.mem_append_left _ (mem_edgeCandidates.2 ⟨edge, hedge, htype, src, dst,
      hbefore src hsrc _ hs, hbefore dst hdst _ hd, candidateBetween_eq_some.2 ⟨rfl, hne, ?_⟩⟩)
    exact ⟨srcRow, dstRow, hrows src hsrc _ hsrcRow, hrows dst hdst _ hdstRow, hmay⟩
  · obtain ⟨⟨src, dst, kind⟩, hcandidate, hbetween⟩ := List.mem_filterMap.1 hrow
    obtain ⟨rfl, -⟩ := candidateBetween_eq_some.1 hbetween
    have hs := idMap_eq_untouched hnodup hsrc rfl
    have hd := idMap_eq_untouched hnodup hdst rfl
    dsimp only at hs hd
    rwa [← hs, ← hd]

/-- The candidates that are returned are among those of the merge. -/
theorem mem_mergedCandidates_of_compact {graph : ReducedGraph} {candidates : List Candidate}
    {row : Candidate} (h : row ∈ (compactMssus graph s candidates).dependencyCandidates) :
    row ∈ mergedCandidates graph s.mssus candidates := by
  have h : row ∈ sortedCandidates _ := h
  rw [sortedCandidates, mem_sortedBy, List.mem_eraseDups] at h
  split_ifs at h
  · exact List.mem_of_mem_filter h
  · exact h

end Candidates

/-! ## A chain that becomes a cycle -/

/-- Candidates that go up in an order have no cycle. -/
theorem acyclic_of_lt {candidates : List Candidate} (h : ∀ row ∈ candidates, row.1 < row.2.1) :
    Acyclic (CandidateEdge candidates) := by
  have hpath : ∀ a b, Relation.TransGen (CandidateEdge candidates) a b → a < b := by
    intro a b hab
    induction hab with
    | single hab =>
      obtain ⟨kind, hrow⟩ := hab
      exact h _ hrow
    | tail _ hbc ih =>
      obtain ⟨kind, hrow⟩ := hbc
      exact ih.trans (h _ hrow)
  exact fun a ha => lt_irrefl a (hpath a a ha)

/-- A call to the cloud at a line of the program. -/
def callMarker (line : ℕ) (actionId : String) : Marker where
  markerId := "marker_" ++ toString line
  markerType := "CLOUD_HTTP_CALL"
  lineStart := line
  strength := "STRONG"
  primaryActionId := some actionId

/-- Three calls in a chain; the first and the last belong to one action. -/
def chainInput : BuildInput where
  graph :=
    { nodes := .ofList [("a", { markerRefs := ["marker_1"] }), ("b", { markerRefs := ["marker_2"] }),
        ("c", { markerRefs := ["marker_3"] })]
      edges := [⟨"a", "b", "DATA_DEP"⟩, ⟨"b", "c", "DATA_DEP"⟩] }
  markers := [callMarker 1 "open", callMarker 2 "unlock", callMarker 3 "open"]
  markerToNodes := .ofList [("marker_1", ["a"]), ("marker_2", ["b"]), ("marker_3", ["c"])]
  target := some { vdevActions :=
    [[("action_id", .str "open"), ("protocol", .str "CLOUD")],
      [("action_id", .str "unlock"), ("protocol", .str "CLOUD")]] }

/-- The candidates of the chain before and after the merge. -/
theorem chainInput_candidates : ∃ s, chainInput.buildMssus = .ok s ∧
    dependencyCandidates chainInput.graph s =
      [("mssu_000_cloud_http_call", "mssu_001_cloud_http_call", "DATA_DEP"),
        ("mssu_001_cloud_http_call", "mssu_002_cloud_http_call", "DATA_DEP")] ∧
    (compactMssus chainInput.graph s
        (dependencyCandidates chainInput.graph s)).dependencyCandidates =
      [("mssu_000_cloud_http_call", "mssu_001_cloud_http_call", "DATA_DEP"),
        ("mssu_001_cloud_http_call", "mssu_000_cloud_http_call", "DATA_DEP")] := by
  have hrun : (chainInput.buildMssus.toOption.map fun s =>
      (dependencyCandidates chainInput.graph s, (compactMssus chainInput.graph s
        (dependencyCandidates chainInput.graph s)).dependencyCandidates)) =
      some ([("mssu_000_cloud_http_call", "mssu_001_cloud_http_call", "DATA_DEP"),
          ("mssu_001_cloud_http_call", "mssu_002_cloud_http_call", "DATA_DEP")],
        [("mssu_000_cloud_http_call", "mssu_001_cloud_http_call", "DATA_DEP"),
          ("mssu_001_cloud_http_call", "mssu_000_cloud_http_call", "DATA_DEP")]) := by
    decide +kernel
  cases hbuild : chainInput.buildMssus with
  | error e => simp [hbuild, Except.toOption] at hrun
  | ok s =>
    simp only [hbuild, Except.toOption, Option.map_some, Option.some.injEq, Prod.mk.injEq] at hrun
    exact ⟨s, rfl, hrun⟩

theorem chainInput_acyclic : ∃ s, chainInput.buildMssus = .ok s ∧
    Acyclic (CandidateEdge (dependencyCandidates chainInput.graph s)) := by
  obtain ⟨s, hbuild, hbefore, -⟩ := chainInput_candidates
  refine ⟨s, hbuild, acyclic_of_lt ?_⟩
  rw [hbefore]
  decide +kernel

end FloWeaver.Mssu
