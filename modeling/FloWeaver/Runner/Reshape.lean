import FloWeaver.Runner.Layout

/-!
# What reshaping leaves together

The rows that disable or shrink batching are applied one after the other to the pieces that the
rows before them left.  A row cuts pieces, but it also fills up the last piece in front of the
one it cuts; when that piece belongs to another segment, two pieces that an earlier row had cut
apart grow together again.

* `flatten_reshapeGroup` — reshaping keeps the actions of a group and their order.
* `cutSegments_eq_flatMap` — a row that rejoins nothing cuts every segment for itself.
* `reshapeGroups_honours` — while no row rejoins segments, or allows more than the rows before it,
  every row is honoured.
* `reshapeGroups_rejoins` — a larger size behind a smaller one breaks the smaller one.
-/

namespace FloWeaver.Runner

open Py

/-! ## One row -/

variable {scope : List String} {size : ℕ} {group : List String} {row : FallbackMode}

/-- The actions of a segment that are in a scope. -/
def inScope (scope segment : List String) : List String := segment.filter (scope.contains ·)

/-- Cuts one segment behind the pieces made so far. -/
def cutSegment (scope : List String) (size : ℕ) (next : List (List String))
    (segment : List String) : List (List String) :=
  if (inScope scope segment).length ≤ 1 then next ++ [segment]
  else segment.foldl (placeAction scope size) next

/-- Cuts segments one after the other. -/
def cutSegments (scope : List String) (size : ℕ) (segments : List (List String)) :
    List (List String) :=
  segments.foldl (cutSegment scope size) []

/-- What a row makes of segments. -/
theorem reshapeRow_eq (hmode : reshapes row.mode = true) (hsize : chunkSize row = .ok size)
    (segments : List (List String)) :
    reshapeRow group segments row = .ok (cutSegments (reshapeScope group row) size segments) := by
  have key : ∀ next : List (List String), segments.foldlM (fun next segment =>
      if (segment.filter ((reshapeScope group row).contains ·)).length ≤ 1 then
        Except.ok (next ++ [segment])
      else do
        let size ← chunkSize row
        return segment.foldl (placeAction (reshapeScope group row) size) next) next =
      Except.ok (segments.foldl (cutSegment (reshapeScope group row) size) next) := by
    rw [hsize]
    induction segments with
    | nil => exact fun _ => rfl
    | cons segment segments ih =>
      intro next
      rw [List.foldlM_cons, List.foldl_cons, cutSegment, inScope]
      split_ifs
      · exact ih _
      · exact ih _
  rw [reshapeRow, if_neg (by simp [hmode])]
  exact key []

/-- The size of a row is at least one. -/
theorem one_le_chunkSize (h : chunkSize row = .ok size) : 1 ≤ size := by
  unfold chunkSize at h
  split_ifs at h
  · exact (Except.ok.inj h).le
  · obtain ⟨n, -, h⟩ := bind_eq_ok.1 h
    rw [← pure_eq_ok.1 h]
    omega

/-! ## Order -/

theorem flatten_placeAction (scope : List String) (size : ℕ) (next : List (List String))
    (a : String) : (placeAction scope size next a).flatten = next.flatten ++ [a] := by
  rw [placeAction]
  split_ifs
  · simp
  · cases hlast : next.getLast? with
    | none => simp
    | some last =>
      obtain ⟨front, rfl⟩ := List.getLast?_eq_some_iff.1 hlast
      dsimp only
      split_ifs <;> simp

theorem flatten_foldl_placeAction (scope : List String) (size : ℕ) (l : List String) :
    ∀ next : List (List String),
      (l.foldl (placeAction scope size) next).flatten = next.flatten ++ l := by
  induction l with
  | nil => simp
  | cons a l ih =>
    intro next
    rw [List.foldl_cons, ih, flatten_placeAction, List.append_assoc, List.singleton_append]

theorem flatten_cutSegment (next : List (List String)) (segment : List String) :
    (cutSegment scope size next segment).flatten = next.flatten ++ segment := by
  unfold cutSegment
  split_ifs
  · simp
  · exact flatten_foldl_placeAction _ _ _ _

theorem flatten_cutSegments (segments : List (List String)) :
    (cutSegments scope size segments).flatten = segments.flatten := by
  have key : ∀ next : List (List String), (segments.foldl (cutSegment scope size) next).flatten =
      next.flatten ++ segments.flatten := by
    induction segments with
    | nil => simp
    | cons segment segments ih =>
      intro next
      rw [List.foldl_cons, ih, flatten_cutSegment, List.append_assoc, List.flatten_cons]
  exact key []

theorem flatten_reshapeRow (hsize : reshapes row.mode = true → ∃ size, chunkSize row = .ok size)
    (segments : List (List String)) : ∃ pieces,
      reshapeRow group segments row = .ok pieces ∧ pieces.flatten = segments.flatten := by
  by_cases hmode : reshapes row.mode = true
  · obtain ⟨size, hsize⟩ := hsize hmode
    exact ⟨_, reshapeRow_eq hmode hsize segments, flatten_cutSegments segments⟩
  · exact ⟨segments, by rw [reshapeRow, if_pos (by simp [hmode])], rfl⟩

/-- Reshaping keeps the actions of a group and their order. -/
theorem flatten_reshapeGroup (group : List String) {rows : List FallbackMode}
    (hsize : ∀ r ∈ rows, reshapes r.mode = true → ∃ size, chunkSize r = .ok size) :
    ∃ pieces, reshapeGroup rows group = .ok pieces ∧ pieces.flatten = group := by
  rw [reshapeGroup]
  suffices ∀ segments, ∃ pieces, rows.foldlM (reshapeRow group) segments = .ok pieces ∧
      pieces.flatten = segments.flatten by simpa using this [group]
  induction rows with
  | nil => exact fun segments => ⟨segments, rfl, rfl⟩
  | cons row rows ih =>
    intro segments
    obtain ⟨next, hnext, h1⟩ := flatten_reshapeRow (hsize row List.mem_cons_self) segments
    obtain ⟨pieces, hfold, h2⟩ := ih (fun r hr => hsize r (List.mem_cons_of_mem _ hr)) next
    exact ⟨pieces, by rw [List.foldlM_cons, hnext]; exact hfold, h2.trans h1⟩

/-! ## Sizes -/

/-- Placing an action makes a piece with room longer, or a piece of one action. -/
theorem mem_placeAction {next : List (List String)} {a : String} {piece : List String}
    (h : piece ∈ placeAction scope size next a) :
    piece ∈ next ∨ piece = [a] ∨
      (piece.length ≤ size ∧ ∀ b ∈ piece, scope.contains b = true) := by
  rw [placeAction] at h
  split_ifs at h with hscope
  · rcases List.mem_append.1 h with h | h
    · exact .inl h
    · exact .inr (.inl (List.mem_singleton.1 h))
  · cases hlast : next.getLast? with
    | none =>
      rw [hlast] at h
      rcases List.mem_append.1 h with h | h
      · exact .inl h
      · exact .inr (.inl (List.mem_singleton.1 h))
    | some last =>
      rw [hlast] at h
      dsimp only at h
      split_ifs at h with hroom
      · obtain ⟨front, rfl⟩ := List.getLast?_eq_some_iff.1 hlast
        obtain ⟨hlength, hall⟩ := Bool.and_eq_true_iff.1 hroom
        rw [List.dropLast_concat] at h
        rcases List.mem_append.1 h with h | h
        · exact .inl (List.mem_append_left _ h)
        · -- the piece that was filled up
          rw [List.mem_singleton.1 h]
          refine .inr (.inr ⟨?_, fun b hb => ?_⟩)
          · rw [List.length_append, List.length_singleton]
            exact of_decide_eq_true hlength
          · rcases List.mem_append.1 hb with hb | hb
            · exact List.all_eq_true.1 hall b hb
            · rw [List.mem_singleton.1 hb]
              simpa using hscope
      · rcases List.mem_append.1 h with h | h
        · exact .inl h
        · exact .inr (.inl (List.mem_singleton.1 h))

theorem mem_foldl_placeAction (hsize : 1 ≤ size) (l : List String) :
    ∀ {next : List (List String)} {piece : List String},
      piece ∈ l.foldl (placeAction scope size) next → piece ∈ next ∨ piece.length ≤ size := by
  induction l with
  | nil => exact fun h => .inl h
  | cons a l ih =>
    intro next piece h
    rcases ih h with h | h
    · rcases mem_placeAction h with h | rfl | h
      · exact .inl h
      · exact .inr (by simpa using hsize)
      · exact .inr h.1
    · exact .inr h

/-- A piece is one of the segments, or no longer than the row allows. -/
theorem mem_cutSegments (hsize : 1 ≤ size) {segments : List (List String)} {piece : List String}
    (h : piece ∈ cutSegments scope size segments) :
    (piece ∈ segments ∧ (inScope scope piece).length ≤ 1) ∨ piece.length ≤ size := by
  have key : ∀ next : List (List String), piece ∈ segments.foldl (cutSegment scope size) next →
      piece ∈ next ∨ (piece ∈ segments ∧ (inScope scope piece).length ≤ 1) ∨
        piece.length ≤ size := by
    clear h
    induction segments with
    | nil => exact fun next h => .inl h
    | cons segment segments ih =>
      intro next h
      rcases ih _ h with h | ⟨h, hone⟩ | h
      · unfold cutSegment at h
        split_ifs at h with hone
        · rcases List.mem_append.1 h with h | h
          · exact .inl h
          · obtain rfl := List.mem_singleton.1 h
            exact .inr (.inl ⟨List.mem_cons_self, hone⟩)
        · rcases mem_foldl_placeAction hsize segment h with h | h
          · exact .inl h
          · exact .inr (.inr h)
      · exact .inr (.inl ⟨List.mem_cons_of_mem _ h, hone⟩)
      · exact .inr (.inr h)
  exact (key [] h).resolve_left List.not_mem_nil

/-- After a row no piece holds more of its scope than it allows. -/
theorem inScope_cutSegments_le (hsize : 1 ≤ size) {segments : List (List String)}
    {piece : List String} (h : piece ∈ cutSegments scope size segments) :
    (inScope scope piece).length ≤ size := by
  rcases mem_cutSegments hsize h with ⟨-, hone⟩ | hlength
  · exact hone.trans hsize
  · exact (List.length_filter_le _ _).trans hlength

/-! ## Rejoining -/

/-- A row that cuts `t` puts its first action into the last piece of `s`: `t` has something to cut
and starts inside the scope, and the last piece of `s` lies inside the scope and has room. -/
def Rejoins (scope : List String) (size : ℕ) (s t : List String) : Prop :=
  1 < (inScope scope t).length ∧ (∀ a ∈ t.head?, a ∈ scope) ∧
    ∃ last ∈ (cutSegment scope size [] s).getLast?, last.length < size ∧ ∀ a ∈ last, a ∈ scope

/-- No segment is rejoined with the one in front of it. -/
def CutsApart (scope : List String) (size : ℕ) (segments : List (List String)) : Prop :=
  segments.IsChain fun s t => ¬ Rejoins scope size s t

theorem cutSegment_nil_ne_nil (segment : List String) : cutSegment scope size [] segment ≠ [] := by
  unfold cutSegment
  split_ifs with hone
  · exact List.append_ne_nil_of_right_ne_nil _ (List.cons_ne_nil _ _)
  · intro hnil
    have hflat := flatten_foldl_placeAction scope size segment []
    rw [hnil] at hflat
    rw [← List.nil_append segment, ← List.flatten_nil, ← hflat] at hone
    exact hone (by simp [inScope])

/-- Only the last piece matters for the next action. -/
theorem placeAction_append (front : List (List String)) {next : List (List String)}
    (hne : next ≠ []) (a : String) :
    placeAction scope size (front ++ next) a = front ++ placeAction scope size next a := by
  obtain ⟨init, last, rfl⟩ := List.eq_nil_or_concat next |>.resolve_left hne
  rw [placeAction, placeAction, List.concat_eq_append, ← List.append_assoc,
    List.getLast?_concat, List.getLast?_concat]
  split_ifs
  · simp
  · dsimp only
    split_ifs
    · rw [List.dropLast_concat, List.dropLast_concat, List.append_assoc]
    · simp

theorem placeAction_ne_nil (next : List (List String)) (a : String) :
    placeAction scope size next a ≠ [] := by
  intro hnil
  have hflat := flatten_placeAction scope size next a
  rw [hnil, List.flatten_nil] at hflat
  exact List.append_ne_nil_of_right_ne_nil _ (List.cons_ne_nil _ _) hflat.symm

theorem foldl_placeAction_append (front : List (List String)) (l : List String) :
    ∀ {next : List (List String)}, next ≠ [] →
      l.foldl (placeAction scope size) (front ++ next) =
        front ++ l.foldl (placeAction scope size) next := by
  induction l with
  | nil => exact fun _ => rfl
  | cons a l ih =>
    intro next hne
    rw [List.foldl_cons, List.foldl_cons, placeAction_append front hne,
      ih (placeAction_ne_nil next a)]

/-- A segment that is not rejoined with the last piece in front of it is cut for itself. -/
theorem cutSegment_eq_append {next : List (List String)} {t : List String}
    (h : 1 < (inScope scope t).length → (∀ a ∈ t.head?, a ∈ scope) →
      ∀ last ∈ next.getLast?, last.length < size → ¬ ∀ a ∈ last, a ∈ scope) :
    cutSegment scope size next t = next ++ cutSegment scope size [] t := by
  unfold cutSegment
  split_ifs with hone
  · rfl
  · cases t with
    | nil => exact absurd (by simp [inScope]) hone
    | cons a l =>
      have hfirst : placeAction scope size next a = next ++ [[a]] := by
        rw [placeAction]
        split_ifs with hscope
        · rfl
        · cases hlast : next.getLast? with
          | none => rfl
          | some last =>
            have ha : ∀ b ∈ (a :: l).head?, b ∈ scope := by simpa using hscope
            have hfull := h (not_le.1 hone) ha last hlast
            dsimp only
            rw [if_neg]
            simpa using hfull
      have hempty : placeAction scope size [] a = [[a]] := by
        rw [placeAction]
        split_ifs <;> rfl
      rw [List.foldl_cons, List.foldl_cons, hfirst, hempty]
      exact foldl_placeAction_append next l (List.cons_ne_nil _ _)

/-- **A row that rejoins nothing cuts every segment for itself.** -/
theorem cutSegments_eq_flatMap {segments : List (List String)}
    (h : CutsApart scope size segments) :
    cutSegments scope size segments = segments.flatMap (cutSegment scope size []) := by
  have key : ∀ (segments : List (List String)) (s : List String) (front : List (List String)),
      (s :: segments).IsChain (fun s t => ¬ Rejoins scope size s t) →
      segments.foldl (cutSegment scope size) (front ++ cutSegment scope size [] s) =
        front ++ cutSegment scope size [] s ++ segments.flatMap (cutSegment scope size []) := by
    intro segments
    induction segments with
    | nil => exact fun s front _ => (List.append_nil _).symm
    | cons t segments ih =>
      intro s front hchain
      obtain ⟨hst, hchain⟩ := List.isChain_cons_cons.1 hchain
      have hcut : cutSegment scope size (front ++ cutSegment scope size [] s) t =
          front ++ cutSegment scope size [] s ++ cutSegment scope size [] t := by
        refine cutSegment_eq_append fun hmany hhead last hlast hroom hall => ?_
        rw [List.getLast?_append_of_ne_nil _ (cutSegment_nil_ne_nil s)] at hlast
        exact hst ⟨hmany, hhead, last, hlast, hroom, hall⟩
      rw [List.foldl_cons, hcut, ih t _ hchain, List.flatMap_cons, List.append_assoc _ _ (_ ++ _)]
      simp only [List.append_assoc]
  cases segments with
  | nil => rfl
  | cons s segments => exact key segments s [] h

/-- Then every piece is a part of a segment. -/
theorem exists_segment_of_mem_cutSegments {segments : List (List String)}
    (h : CutsApart scope size segments) {piece : List String}
    (hpiece : piece ∈ cutSegments scope size segments) :
    ∃ segment ∈ segments, piece.Sublist segment := by
  rw [cutSegments_eq_flatMap h] at hpiece
  obtain ⟨segment, hsegment, hmem⟩ := List.mem_flatMap.1 hpiece
  refine ⟨segment, hsegment, ?_⟩
  have hflat : (cutSegment scope size [] segment).flatten = segment := by
    rw [flatten_cutSegment, List.flatten_nil, List.nil_append]
  exact hflat ▸ List.sublist_flatten_of_mem hmem

/-! ## All rows -/

/-- No segment holds more of the scope of a row than the row allows. -/
def Honoured (group : List String) (segments : List (List String)) (row : FallbackMode) : Prop :=
  reshapes row.mode = true → ∀ size, chunkSize row = .ok size →
    ∀ segment ∈ segments, (inScope (reshapeScope group row) segment).length ≤ size

/-- A row that cuts the segments of a group does not undo the cuts of earlier rows: it rejoins no
segments, or allows no more than any of them. -/
def LeavesCuts (group : List String) (earlier : List FallbackMode)
    (segments : List (List String)) (row : FallbackMode) : Prop :=
  reshapes row.mode = true → ∀ size, chunkSize row = .ok size →
    CutsApart (reshapeScope group row) size segments ∨
      ∀ r ∈ earlier, reshapes r.mode = true → ∀ size', chunkSize r = .ok size' → size ≤ size'

/-- Every row of a run leaves the cuts of the rows before it. -/
def RunLeavesCuts (group : List String) :
    List FallbackMode → List (List String) → List FallbackMode → Prop
  | _, _, [] => True
  | earlier, segments, row :: rows =>
      LeavesCuts group earlier segments row ∧
        ∀ next, reshapeRow group segments row = .ok next →
          RunLeavesCuts group (earlier ++ [row]) next rows

/-- One row: what was honoured stays honoured, and the row itself is honoured. -/
theorem honoured_reshapeRow {earlier : List FallbackMode} {segments next : List (List String)}
    (hstep : LeavesCuts group earlier segments row)
    (hearlier : ∀ r ∈ earlier, Honoured group segments r)
    (hnext : reshapeRow group segments row = .ok next)
    (hsize : reshapes row.mode = true → ∃ size, chunkSize row = .ok size) :
    ∀ r ∈ earlier ++ [row], Honoured group next r := by
  by_cases hmode : reshapes row.mode = true
  · obtain ⟨size, hrow⟩ := hsize hmode
    have hone := one_le_chunkSize hrow
    obtain rfl := Except.ok.inj ((reshapeRow_eq hmode hrow segments).symm.trans hnext)
    intro r hr
    rcases List.mem_append.1 hr with hr | hr
    · intro hrmode size' hr' piece hpiece
      rcases hstep hmode size hrow with hapart | hsmaller
      · obtain ⟨segment, hsegment, hsub⟩ := exists_segment_of_mem_cutSegments hapart hpiece
        exact (hsub.filter _).length_le.trans (hearlier r hr hrmode size' hr' segment hsegment)
      · rcases mem_cutSegments hone hpiece with ⟨hmem, -⟩ | hlength
        · exact hearlier r hr hrmode size' hr' piece hmem
        · exact ((List.length_filter_le _ _).trans hlength).trans (hsmaller r hr hrmode size' hr')
    · obtain rfl := List.mem_singleton.1 hr
      intro _ size' hr' piece hpiece
      obtain rfl := Except.ok.inj (hrow.symm.trans hr')
      exact inScope_cutSegments_le hone hpiece
  · rw [reshapeRow, if_pos (by simp [hmode])] at hnext
    obtain rfl := Except.ok.inj hnext
    intro r hr
    rcases List.mem_append.1 hr with hr | hr
    · exact hearlier r hr
    · exact fun hrmode => absurd (List.mem_singleton.1 hr ▸ hrmode) hmode

/-- All rows of a run. -/
theorem honoured_foldlM {rows : List FallbackMode} :
    ∀ {earlier : List FallbackMode} {segments pieces : List (List String)},
      RunLeavesCuts group earlier segments rows → (∀ r ∈ earlier, Honoured group segments r) →
      (∀ r ∈ rows, reshapes r.mode = true → ∃ size, chunkSize r = .ok size) →
      rows.foldlM (reshapeRow group) segments = .ok pieces →
      ∀ r ∈ earlier ++ rows, Honoured group pieces r := by
  induction rows with
  | nil =>
    intro earlier segments pieces _ hearlier _ hpieces
    obtain rfl := pure_eq_ok.1 hpieces
    simpa using hearlier
  | cons row rows ih =>
    intro earlier segments pieces ⟨hstep, hrest⟩ hearlier hsizes hpieces
    rw [List.foldlM_cons] at hpieces
    obtain ⟨next, hnext, hpieces⟩ := bind_eq_ok.1 hpieces
    have hdone := honoured_reshapeRow hstep hearlier hnext (hsizes row List.mem_cons_self)
    have hall := ih (hrest next hnext) hdone (fun r hr => hsizes r (List.mem_cons_of_mem _ hr))
      hpieces
    simpa using hall

/-- The actions that a row is meant for; a row without a scope is meant for all. -/
def meantFor (row : FallbackMode) (actionId : String) : Bool :=
  let scope := row.scope.filter (· ≠ "")
  scope.isEmpty || scope.contains actionId

/-- In a piece of its group a row is meant for the actions of its scope. -/
theorem filter_meantFor {piece : List String} (h : piece ⊆ group) :
    piece.filter (meantFor row) = inScope (reshapeScope group row) piece := by
  refine List.filter_congr fun a ha => ?_
  unfold meantFor reshapeScope
  dsimp only
  split_ifs with hempty
  · rw [hempty, Bool.true_or]
    exact (List.contains_iff_mem.2 (h ha)).symm
  · rw [Bool.eq_false_of_not_eq_true hempty, Bool.false_or]

/-- **What reshaping honours.**  When every row has a size, reshaping ends and keeps the actions
and their order.  While every row leaves the cuts of the rows before it, no piece holds more
actions that a row is meant for than the row allows. -/
theorem reshapeGroups_honours {groups : List (List String)} {rows : List FallbackMode}
    (hsizes : ∀ r ∈ rows, reshapes r.mode = true → ∃ size, chunkSize r = .ok size) :
    ∃ result, reshapeGroupsForFallbacks groups rows = .ok result ∧
      result.flatten = groups.flatten ∧
      ((∀ group ∈ groups, RunLeavesCuts group [] [group] rows) →
        ∀ row ∈ rows, reshapes row.mode = true → ∀ size, chunkSize row = .ok size →
          ∀ piece ∈ result, (piece.filter (meantFor row)).length ≤ size) := by
  have hgroup := fun group => flatten_reshapeGroup group hsizes
  obtain ⟨pieces, hpieces⟩ := exists_mapM_ok (l := groups) fun group _ =>
    (hgroup group).imp fun _ h => h.1
  have hflat : ∀ group parts, reshapeGroup rows group = .ok parts → parts.flatten = group := by
    intro group parts hparts
    obtain ⟨parts', hparts', h⟩ := hgroup group
    rw [Except.ok.inj (hparts.symm.trans hparts'), h]
  refine ⟨pieces.flatten, by rw [reshapeGroupsForFallbacks, hpieces]; rfl, ?_, ?_⟩
  · rw [List.flatten_flatten, map_eq_of_mapM_ok hflat hpieces]
  · intro hrun row hrow hmode size hsize piece hpiece
    obtain ⟨parts, hparts, hmem⟩ := List.mem_flatten.1 hpiece
    obtain ⟨group, hg, hreshape⟩ := mem_of_mapM_ok hpieces parts hparts
    have hsub : piece ⊆ group := by
      rw [← hflat group parts hreshape]
      exact (List.sublist_flatten_of_mem hmem).subset
    rw [filter_meantFor hsub]
    exact honoured_foldlM (hrun group hg) nofun hsizes hreshape row hrow hmode size hsize piece hmem

/-- A row that lets `size` of the four actions stay together. -/
def shrinkRow (size : ℤ) : FallbackMode where
  mode := "shrink_batch"
  scope := ["a", "b", "c", "d"]
  params := [("new_max_batch_size", .int size)]

theorem chunkSize_shrinkRow : ∀ row ∈ [shrinkRow 3, shrinkRow 2],
    reshapes row.mode = true → ∃ size, chunkSize row = .ok size := by
  intro row hrow _
  rcases List.mem_pair.1 hrow with rfl | rfl
  · exact ⟨3, by decide +kernel⟩
  · exact ⟨2, by decide +kernel⟩

/-- With the smaller size last, both rows are honoured. -/
theorem reshapeGroups_honours_shrinking :
    ∃ result, reshapeGroupsForFallbacks [["a", "b", "c", "d"]] [shrinkRow 3, shrinkRow 2] =
      .ok result ∧ ∀ piece ∈ result, (piece.filter (meantFor (shrinkRow 2))).length ≤ 2 := by
  obtain ⟨result, hresult, -, hhonours⟩ :=
    @reshapeGroups_honours [["a", "b", "c", "d"]] _ chunkSize_shrinkRow
  refine ⟨result, hresult, hhonours (fun group _ => ⟨fun _ size hsize => .inr nofun,
    fun next _ => ⟨fun _ size hsize => .inr fun r hr _ size' hr' => ?_, fun _ _ => trivial⟩⟩)
    (shrinkRow 2) (by simp) (by decide +kernel) 2 (by decide +kernel)⟩
  have h2 : chunkSize (shrinkRow 2) = .ok 2 := by decide +kernel
  have h3 : chunkSize (shrinkRow 3) = .ok 3 := by decide +kernel
  rw [List.nil_append, List.mem_singleton] at hr
  rw [hr, h3] at hr'
  rw [h2] at hsize
  rw [← Except.ok.inj hsize, ← Except.ok.inj hr']
  decide

/-- With the larger size last, three actions stay together that the first row cut apart. -/
theorem reshapeGroups_rejoins :
    ∃ result, reshapeGroupsForFallbacks [["a", "b", "c", "d"]] [shrinkRow 2, shrinkRow 3] =
      .ok result ∧ reshapes (shrinkRow 2).mode = true ∧ chunkSize (shrinkRow 2) = .ok 2 ∧
        ∃ piece ∈ result, ¬ (piece.filter (meantFor (shrinkRow 2))).length ≤ 2 :=
  ⟨[["a", "b", "c"], ["d"]], by decide +kernel, by decide +kernel, by decide +kernel,
    ["a", "b", "c"], by simp, by decide +kernel⟩

end FloWeaver.Runner
