import FloWeaver.Scheduler.TrustCompression

/-!
# What the compressed plan covers

Compression merges rows by what they say and by the lane family of their scope.  A merged row says
what its members say over all their actions, and its scope is again of their family, so that
compressing once more changes nothing.  Parameters are compared in their frozen form, in which an
empty list and an empty dict are the same; there the first row speaks for the others.

* `scopeFamily_mergeScopes` — scopes of one family form a scope of that family.
* `sameGuards_mergedGuards` — the guards over an action are kept.
* `ParamsKept`, `sameFallbacks_iff` — when the fallbacks over the actions are kept.
* `compressBatch_compressBatch` — compressing once more changes nothing.
* `compressPlanForTrust_coverage` — all of it for a plan.
* `frozenParams_collide` — the fallbacks of two rows that freeze alike.
-/

namespace FloWeaver.Scheduler

open Py MergeByKey

/-! ## Lane families -/

/-- The lanes of a scope. -/
def lanesOf (lanes : List (String × String)) (scope : List String) : List String :=
  ((scope.filter (strip · ≠ "")).map fun a =>
    (lanes.lookup (strip a)).getD "UNKNOWN").filter (· ≠ "")

/-- The family of some lanes. -/
def familyOf (found : List String) : String :=
  match found.dedup with
  | [] => "UNKNOWN"
  | [lane] => lane
  | several => if several.all (startsWith · "WRITEBACK") then "WRITEBACK" else "MIXED"

theorem scopeFamily_eq (lanes : List (String × String)) (scope : List String) :
    scopeFamily lanes scope = familyOf (lanesOf lanes scope) := rfl

/-- Two different lanes occur. -/
def Several (found : List String) : Prop := ∃ x ∈ found, ∃ y ∈ found, x ≠ y

theorem familyOf_single {found : List String} {lane : String} (h : ∀ x, x ∈ found ↔ x = lane) :
    familyOf found = lane := by
  have hdedup : found.dedup = [lane] := by
    refine List.perm_singleton.1 ((List.perm_ext_iff_of_nodup (List.nodup_dedup _)
      (List.nodup_singleton _)).2 fun x => ?_)
    rw [List.mem_dedup, List.mem_singleton, h]
  rw [familyOf, hdedup]

theorem familyOf_several {found : List String} (h : Several found) :
    familyOf found =
      if found.all (startsWith · "WRITEBACK") then "WRITEBACK" else "MIXED" := by
  obtain ⟨x, hx, y, hy, hne⟩ := h
  have hall : found.dedup.all (startsWith · "WRITEBACK") =
      found.all (startsWith · "WRITEBACK") := by
    rw [Bool.eq_iff_iff, List.all_eq_true, List.all_eq_true]
    simp only [List.mem_dedup]
  have hx := List.mem_dedup.2 hx
  have hy := List.mem_dedup.2 hy
  rw [← hall, familyOf]
  cases hdedup : found.dedup with
  | nil => simp [hdedup] at hx
  | cons lane rest =>
    cases rest with
    | nil =>
      rw [hdedup, List.mem_singleton] at hx hy
      exact absurd (hx.trans hy.symm) hne
    | cons other rest => rfl

/-- No lane, one lane, or several. -/
theorem lanes_cases (found : List String) :
    found = [] ∨ (∃ lane, ∀ x, x ∈ found ↔ x = lane) ∨ Several found := by
  cases found with
  | nil => exact .inl rfl
  | cons lane rest =>
    by_cases h : ∀ x ∈ rest, x = lane
    · refine .inr (.inl ⟨lane, fun x => ⟨fun hx => ?_, fun hx => hx ▸ List.mem_cons_self⟩⟩)
      exact (List.mem_cons.1 hx).elim id (h x)
    · push Not at h
      obtain ⟨x, hx, hne⟩ := h
      exact .inr (.inr ⟨x, List.mem_cons_of_mem _ hx, lane, List.mem_cons_self, hne⟩)

theorem Several.mono {found more : List String} (h : Several found) (hsub : found ⊆ more) :
    Several more := by
  obtain ⟨x, hx, y, hy, hne⟩ := h
  exact ⟨x, hsub hx, y, hsub hy, hne⟩

/-- The family depends on the set of the lanes only. -/
theorem familyOf_congr {found other : List String} (h : ∀ x, x ∈ found ↔ x ∈ other) :
    familyOf found = familyOf other := by
  rcases lanes_cases found with rfl | ⟨lane, hlane⟩ | hseveral
  · rw [List.eq_nil_iff_forall_not_mem.2 fun x hx => List.not_mem_nil ((h x).2 hx)]
  · rw [familyOf_single hlane, familyOf_single fun x => (h x).symm.trans (hlane x)]
  · rw [familyOf_several hseveral, familyOf_several (hseveral.mono fun x hx => (h x).1 hx)]
    have hall : found.all (startsWith · "WRITEBACK") = other.all (startsWith · "WRITEBACK") := by
      rw [Bool.eq_iff_iff, List.all_eq_true, List.all_eq_true]
      exact forall_congr' fun x => by rw [h x]
    rw [hall]

/-- The lanes of the family of writebacks are writebacks. -/
theorem all_of_familyOf {found : List String} (h : familyOf found = "WRITEBACK") :
    found.all (startsWith · "WRITEBACK") = true := by
  rcases lanes_cases found with rfl | ⟨lane, hlane⟩ | hseveral
  · rfl
  · rw [familyOf_single hlane] at h
    refine List.all_eq_true.2 fun x hx => ?_
    rw [(hlane x).1 hx, h]
    decide +kernel
  · rw [familyOf_several hseveral] at h
    split_ifs at h with hall
    · exact hall
    · exact absurd h (by decide +kernel)

theorem familyOf_append_several {found other : List String} (h : familyOf found = familyOf other)
    (hseveral : Several found) : familyOf (found ++ other) = familyOf found := by
  rw [familyOf_several (hseveral.mono (List.subset_append_left _ _)), List.all_append]
  have hfound := familyOf_several hseveral
  split_ifs at hfound with hall
  · rw [hall, all_of_familyOf (h.symm.trans hfound), hfound]
    rfl
  · rw [Bool.eq_false_of_not_eq_true hall, hfound]
    rfl

/-- Lanes of one family are together of that family. -/
theorem familyOf_append {found other : List String} (h : familyOf found = familyOf other) :
    familyOf (found ++ other) = familyOf found := by
  rcases lanes_cases found with rfl | ⟨lane, hlane⟩ | hseveral
  · exact h.symm
  · rcases lanes_cases other with rfl | ⟨lane', hlane'⟩ | hseveral
    · rw [List.append_nil]
    · have hsame : lane = lane' := by
        rwa [familyOf_single hlane, familyOf_single hlane'] at h
      rw [familyOf_single hlane]
      refine familyOf_single fun x => ?_
      rw [List.mem_append, hlane, hlane', hsame, or_self]
    · have hswap : familyOf (found ++ other) = familyOf (other ++ found) :=
        familyOf_congr fun x => by rw [List.mem_append, List.mem_append, or_comm]
      rw [hswap, familyOf_append_several h.symm hseveral, h]
  · exact familyOf_append_several h hseveral

/-- Scopes of one family form a scope of that family. -/
theorem scopeFamily_mergeScopes {lanes : List (String × String)} {scope other : List String}
    (h : scopeFamily lanes scope = scopeFamily lanes other) :
    scopeFamily lanes (mergeScopes scope other) = scopeFamily lanes scope := by
  have hlanes : familyOf (lanesOf lanes scope) = familyOf (lanesOf lanes other) := h
  rw [scopeFamily_eq, scopeFamily_eq, ← familyOf_append hlanes]
  refine familyOf_congr fun x => ?_
  simp only [lanesOf, mergeScopes, List.mem_append, List.mem_filter, List.mem_map, mem_sortedSet]
  constructor
  · rintro ⟨⟨a, ⟨ha | ha, hne⟩, rfl⟩, hx⟩
    · exact .inl ⟨⟨a, ⟨ha, hne⟩, rfl⟩, hx⟩
    · exact .inr ⟨⟨a, ⟨ha, hne⟩, rfl⟩, hx⟩
  · rintro (⟨⟨a, ⟨ha, hne⟩, rfl⟩, hx⟩ | ⟨⟨a, ⟨ha, hne⟩, rfl⟩, hx⟩)
    · exact ⟨⟨a, ⟨.inl ha, hne⟩, rfl⟩, hx⟩
    · exact ⟨⟨a, ⟨.inr ha, hne⟩, rfl⟩, hx⟩

/-! ## Rows in normal form -/

/-- A merged scope: sorted, without empty names, and of its family. -/
structure NormalScope (lanes : List (String × String)) (family : String) (scope : List String) :
    Prop where
  sorted : sortedStr scope = scope
  named : ∀ a ∈ scope, a ≠ ""
  family : scopeFamily lanes scope = family

theorem sortedStr_sortedStr (l : List String) : sortedStr (sortedStr l) = sortedStr l := by
  unfold sortedStr
  exact (List.pairwise_insertionSort _ l).insertionSort_eq

theorem NormalScope.merge {lanes : List (String × String)} {family : String}
    {scope other : List String} (h : NormalScope lanes family scope)
    (h' : NormalScope lanes family other) : NormalScope lanes family (mergeScopes scope other) where
  sorted := sortedStr_sortedStr _
  named a ha := by
    rw [mergeScopes, mem_sortedSet, List.mem_append] at ha
    exact ha.elim (h.named a) (h'.named a)
  family := (scopeFamily_mergeScopes (h.family.trans h'.family.symm)).trans h.family

/-- A scope as it is read. -/
theorem normalScope_of_sortedScope {lanes : List (String × String)} {row : Dict}
    {scope : List String} (h : sortedScope row = .ok scope) :
    NormalScope lanes (scopeFamily lanes scope) scope := by
  obtain ⟨tokens, -, h⟩ := bind_eq_ok.1 h
  obtain rfl := pure_eq_ok.1 h
  refine ⟨sortedStr_sortedStr _, fun a ha => ?_, rfl⟩
  simpa using (List.mem_filter.1 (mem_sortedStr.1 ha)).2

theorem rowScope_strList {row : Dict} {scope : List String}
    (hrow : row.getD "scope" (.list []) = strList scope) : rowScope row = .ok scope := by
  rw [rowScope, hrow, strList, Val.needItems]
  show Except.ok ((scope.map Val.str).map Val.pyStr) = _
  rw [List.map_map]
  exact congrArg Except.ok (List.map_id scope)

/-- The scope of a written row is read back. -/
theorem sortedScope_of_scope {row : Dict} {lanes : List (String × String)} {family : String}
    {scope : List String} (hrow : row.getD "scope" (.list []) = strList scope)
    (h : NormalScope lanes family scope) : sortedScope row = .ok scope := by
  have hfilter : scope.filter (· ≠ "") = scope :=
    List.filter_eq_self.2 fun a ha => by simpa using h.named a ha
  unfold sortedScope
  rw [rowScope_strList hrow]
  show Except.ok (sortedStr (scope.filter (· ≠ ""))) = _
  rw [hfilter, h.sorted]

/-! ## What the rows cover -/

/-- The scope of a row names an action. -/
def RowNames (row : Dict) (a : String) : Prop := ∃ tokens, rowScope row = .ok tokens ∧ a ∈ tokens

/-- Over an action, each side has a row that agrees with a row of the other. -/
def CoversSame (agrees : Dict → Dict → Prop) (rows rows' : List Dict) (a : String) : Prop :=
  (∀ row ∈ rows, RowNames row a → ∃ row' ∈ rows', RowNames row' a ∧ agrees row row') ∧
    ∀ row' ∈ rows', RowNames row' a → ∃ row ∈ rows, RowNames row a ∧ agrees row row'

theorem rowNames_iff {row : Dict} {scope : List String} (h : sortedScope row = .ok scope)
    {a : String} (ha : a ≠ "") : RowNames row a ↔ a ∈ scope := by
  obtain ⟨tokens, htokens, h⟩ := bind_eq_ok.1 h
  obtain rfl := pure_eq_ok.1 h
  have hmem : a ∈ sortedStr (tokens.filter (· ≠ "")) ↔ a ∈ tokens := by simp [ha]
  rw [hmem]
  constructor
  · rintro ⟨tokens', htokens', hmem⟩
    rwa [Except.ok.inj (htokens.symm.trans htokens')]
  · exact fun hmem => ⟨tokens, htokens, hmem⟩

section Merged

variable {κ : Type} {read : Dict → Except PyErr (κ × List String)}
  {write : κ × List String → Dict} {same : κ → κ → Bool} {family : κ → String}
  {lanes : List (String × String)} {rows : List Dict} {reads groups : List (κ × List String)}

/-- A row is read with its scope, and under the family of that scope. -/
def ReadsScope (lanes : List (String × String)) (read : Dict → Except PyErr (κ × List String))
    (family : κ → String) : Prop :=
  ∀ row r, read row = .ok r → sortedScope row = .ok r.2 ∧ family r.1 = scopeFamily lanes r.2

/-- The merged rows are in normal form. -/
theorem normalScope_mergeRows (hscope : ReadsScope lanes read family)
    (hfamily : ∀ k k', same k k' = true → family k = family k')
    (h : rows.mapM read = .ok reads) :
    ∀ g ∈ mergeRows same mergeScopes reads, NormalScope lanes (family g.1) g.2 := by
  have hreads : ∀ r ∈ reads, NormalScope lanes (family r.1) r.2 := by
    intro r hr
    obtain ⟨row, -, hrow⟩ := mem_of_mapM_ok h r hr
    obtain ⟨hsorted, heq⟩ := hscope row r hrow
    exact heq ▸ normalScope_of_sortedScope hsorted
  refine forall_mem_mergeRows (P := fun k scope => NormalScope lanes (family k) scope) hreads
    fun key scope hkey r hr hsame => hkey.merge ?_
  exact hfamily key r.1 hsame ▸ hreads r hr

/-- What was written is read back. -/
theorem mapM_read_write (h : ∀ g ∈ groups, read (write g) = .ok g) :
    (groups.map write).mapM read = .ok groups := by
  induction groups with
  | nil => rfl
  | cons g groups ih =>
    obtain ⟨hg, hrest⟩ := List.forall_mem_cons.1 h
    rw [List.map_cons, List.mapM_cons, hg, ih hrest]
    rfl

variable (hrefl : ∀ key, same key key = true)
  (htrans : ∀ a b c, same a b = true → same b c = true → same a c = true)

include hrefl htrans in
/-- Merged rows cover what their members and the leaders of these say. -/
theorem coversSame_mergeRows {agrees : Dict → Dict → Prop} {agreesKey : κ → κ → Prop}
    (hscope : ReadsScope lanes read family)
    (hwrite : ∀ g : κ × List String, rowScope (write g) = .ok g.2)
    (hagrees : ∀ row r g, read row = .ok r → (agrees row (write g) ↔ agreesKey r.1 g.1))
    (h : rows.mapM read = .ok reads) :
    ∀ a, a ≠ "" → (CoversSame agrees rows ((mergeRows same mergeScopes reads).map write) a ↔
      (∀ r ∈ reads, a ∈ r.2 →
        ∃ s ∈ reads, a ∈ s.2 ∧ agreesKey r.1 (leader same (reads.map (·.1)) s.1)) ∧
      ∀ s ∈ reads, a ∈ s.2 →
        ∃ r ∈ reads, a ∈ r.2 ∧ agreesKey r.1 (leader same (reads.map (·.1)) s.1)) := by
  intro a ha
  have hmembers : ∀ (r s : List String) (a : String),
      a ∈ mergeScopes r s ↔ a ∈ r ∨ a ∈ s := fun r s a => by simp [mergeScopes]
  have hmerged (key : κ) := covers_mergeRows hrefl htrans hmembers reads key a
  have hnames (g : κ × List String) : RowNames (write g) a ↔ a ∈ g.2 := by
    simp [RowNames, hwrite]
  have hread {row : Dict} {r : κ × List String} (hr : read row = .ok r) :
      RowNames row a ↔ a ∈ r.2 := rowNames_iff (hscope row r hr).1 ha
  refine and_congr ⟨fun hall r hr har => ?_, fun hall row hrow hnamed => ?_⟩
    ⟨fun hall s hs has => ?_, fun hall row' hrow' hnamed => ?_⟩
  · obtain ⟨row, hrow, hr⟩ := mem_of_mapM_ok h r hr
    obtain ⟨_, hwritten, hnamed, hagree⟩ := hall row hrow ((hread hr).2 har)
    obtain ⟨g, hg, rfl⟩ := List.mem_map.1 hwritten
    obtain ⟨s, hs, hlead, has⟩ := (hmerged g.1).1 ⟨g, hg, rfl, (hnames g).1 hnamed⟩
    exact ⟨s, hs, has, hlead ▸ (hagrees row r g hr).1 hagree⟩
  · obtain ⟨r, hr, hread'⟩ := mem_mapM_of_ok h hrow
    obtain ⟨s, hs, has, hagree⟩ := hall r hr ((hread hread').1 hnamed)
    obtain ⟨g, hg, hkey, hag⟩ := (hmerged _).2 ⟨s, hs, rfl, has⟩
    exact ⟨write g, List.mem_map_of_mem hg, (hnames g).2 hag,
      (hagrees row r g hread').2 (hkey ▸ hagree)⟩
  · obtain ⟨g, hg, hkey, hag⟩ := (hmerged _).2 ⟨s, hs, rfl, has⟩
    obtain ⟨row, hrow, hnamed, hagree⟩ := hall _ (List.mem_map_of_mem hg) ((hnames g).2 hag)
    obtain ⟨r, hr, hread'⟩ := mem_mapM_of_ok h hrow
    exact ⟨r, hr, (hread hread').1 hnamed, hkey ▸ (hagrees row r g hread').1 hagree⟩
  · obtain ⟨g, hg, rfl⟩ := List.mem_map.1 hrow'
    obtain ⟨s, hs, hlead, has⟩ := (hmerged g.1).1 ⟨g, hg, rfl, (hnames g).1 hnamed⟩
    obtain ⟨r, hr, har, hagree⟩ := hall s hs has
    obtain ⟨row, hrow, hr⟩ := mem_of_mapM_ok h r hr
    exact ⟨row, hrow, (hread hr).2 har, (hagrees row r g hr).2 (hlead ▸ hagree)⟩

end Merged

/-! ## Guards -/

section Guards

variable {lanes : List (String × String)} {rows : List Dict}
  {groups : List (GuardKey × List String)}

/-- Two guards with the same kind, expression and enforcement. -/
def GuardKey.Agrees (k k' : GuardKey) : Prop :=
  k.kind = k'.kind ∧ k.expr = k'.expr ∧ k.enforced = k'.enforced

def SameGuard (row row' : Dict) : Prop :=
  rowText row "kind" "" = rowText row' "kind" "" ∧
    rowText row "expr" "true" = rowText row' "expr" "true" ∧
    (row.getD "enforced" (.bool false)).truthy = (row'.getD "enforced" (.bool false)).truthy

theorem GuardKey.same_refl (k : GuardKey) : k.same k = true := decide_eq_true rfl

theorem GuardKey.same_trans (a b c : GuardKey) (hab : a.same b = true) (hbc : b.same c = true) :
    a.same c = true :=
  decide_eq_true ((of_decide_eq_true hab).trans (of_decide_eq_true hbc))

theorem readGuard_eq_ok {row : Dict} {g : GuardKey × List String} :
    readGuard lanes row = .ok g ↔ sortedScope row = .ok g.2 ∧
      g.1 = { kind := rowText row "kind" "", expr := rowText row "expr" "true"
              enforced := (row.getD "enforced" (.bool false)).truthy
              family := scopeFamily lanes g.2 } := by
  obtain ⟨key, scope⟩ := g
  rw [readGuard, bind_eq_ok]
  constructor
  · rintro ⟨scope', hscope, h⟩
    obtain ⟨rfl, rfl⟩ := Prod.mk.inj (pure_eq_ok.1 h)
    exact ⟨hscope, rfl⟩
  · rintro ⟨hscope, hkey⟩
    exact ⟨scope, hscope, pure_eq_ok.2 (Prod.ext hkey.symm rfl)⟩

theorem readsScope_readGuard :
    ReadsScope lanes (readGuard lanes) GuardKey.family := fun row r h => by
  obtain ⟨hscope, hkey⟩ := readGuard_eq_ok.1 h
  exact ⟨hscope, by rw [hkey]⟩

theorem normalScope_mergedGuards (h : mergedGuards lanes rows = .ok groups) :
    ∀ g ∈ groups, NormalScope lanes g.1.family g.2 := by
  obtain ⟨reads, hreads, h⟩ := bind_eq_ok.1 h
  obtain rfl := pure_eq_ok.1 h
  refine normalScope_mergeRows readsScope_readGuard (fun k k' hsame => ?_) hreads
  rw [of_decide_eq_true hsame]

theorem readGuard_guardDict {g : GuardKey × List String} (h : NormalScope lanes g.1.family g.2) :
    readGuard lanes (guardDict g) = .ok g := by
  refine readGuard_eq_ok.2 ⟨sortedScope_of_scope rfl h, ?_⟩
  obtain ⟨⟨kind, expr, enforced, family⟩, scope⟩ := g
  rw [h.family]
  rfl

/-- Merging the guards once more changes nothing. -/
theorem mergedGuards_guardDict (h : mergedGuards lanes rows = .ok groups) :
    mergedGuards lanes (groups.map guardDict) = .ok groups := by
  have hread := mapM_read_write fun g hg => readGuard_guardDict (normalScope_mergedGuards h g hg)
  obtain ⟨reads, -, h⟩ := bind_eq_ok.1 h
  obtain rfl := pure_eq_ok.1 h
  exact bind_eq_ok.2 ⟨_, hread, pure_eq_ok.2 (mergeRows_mergeRows reads)⟩

/-- The guards over an action are kept. -/
theorem sameGuards_mergedGuards (h : mergedGuards lanes rows = .ok groups) {a : String}
    (ha : a ≠ "") : CoversSame SameGuard rows (groups.map guardDict) a := by
  have hnormal := normalScope_mergedGuards h
  obtain ⟨reads, hreads, h⟩ := bind_eq_ok.1 h
  obtain rfl := pure_eq_ok.1 h
  have hlead (k : GuardKey) : leader GuardKey.same (reads.map (·.1)) k = k :=
    of_decide_eq_true (same_leader GuardKey.same_refl _ k)
  have hagrees : ∀ row (r g : GuardKey × List String), readGuard lanes row = .ok r →
      (SameGuard row (guardDict g) ↔ r.1.Agrees g.1) :=
    fun row r g hr => by rw [(readGuard_eq_ok.1 hr).2]; rfl
  refine (coversSame_mergeRows GuardKey.same_refl GuardKey.same_trans readsScope_readGuard
    (fun g => rowScope_strList rfl) hagrees hreads a ha).2
    ⟨fun r hr har => ⟨r, hr, har, ?_⟩, fun r hr har => ⟨r, hr, har, ?_⟩⟩ <;>
  · rw [hlead]
    exact ⟨rfl, rfl, rfl⟩

end Guards

/-! ## Fallbacks -/

section Fallbacks

variable {lanes : List (String × String)} {rows : List Dict}
  {reads groups : List (FallbackKey × List String)}

/-- Equal parameters. -/
def sameParams (params params' : Dict) : Bool :=
  (Val.dict params).eqv (.dict params') && (Val.dict params').eqv (.dict params)

/-- Two fallbacks with the same kind, action and parameters. -/
def FallbackKey.Agrees (k k' : FallbackKey) : Prop :=
  k.kind = k'.kind ∧ k.action = k'.action ∧ sameParams k.params k'.params = true

def SameFallbackRow (row row' : Dict) : Prop :=
  rowText row "kind" "" = rowText row' "kind" "" ∧
    rowText row "action" "" = rowText row' "action" "" ∧
    sameParams (rowParams row) (rowParams row') = true

theorem FallbackKey.same_iff {k k' : FallbackKey} :
    k.same k' = true ↔ k.kind = k'.kind ∧ k.action = k'.action ∧
      (Val.dict k.params).freeze.eqv (Val.dict k'.params).freeze = true ∧ k.family = k'.family := by
  simp only [FallbackKey.same, Bool.and_eq_true_iff, decide_eq_true_eq, and_assoc]

theorem FallbackKey.same_refl (k : FallbackKey) : k.same k = true :=
  FallbackKey.same_iff.2 ⟨rfl, rfl, Val.eqv_refl _ (Val.dictFree_freeze _), rfl⟩

theorem FallbackKey.same_trans (a b c : FallbackKey) (hab : a.same b = true)
    (hbc : b.same c = true) : a.same c = true := by
  obtain ⟨hkind, haction, hparams, hfamily⟩ := FallbackKey.same_iff.1 hab
  obtain ⟨hkind', haction', hparams', hfamily'⟩ := FallbackKey.same_iff.1 hbc
  exact FallbackKey.same_iff.2 ⟨hkind.trans hkind', haction.trans haction',
    Val.eqv_trans _ _ _ (Val.dictFree_freeze _) hparams hparams', hfamily.trans hfamily'⟩

theorem readFallback_eq_ok {row : Dict} {g : FallbackKey × List String} :
    readFallback lanes row = .ok g ↔ sortedScope row = .ok g.2 ∧
      g.1 = { kind := rowText row "kind" "", action := rowText row "action" ""
              params := rowParams row, family := scopeFamily lanes g.2 } := by
  obtain ⟨key, scope⟩ := g
  rw [readFallback, bind_eq_ok]
  constructor
  · rintro ⟨scope', hscope, h⟩
    obtain ⟨rfl, rfl⟩ := Prod.mk.inj (pure_eq_ok.1 h)
    exact ⟨hscope, rfl⟩
  · rintro ⟨hscope, hkey⟩
    exact ⟨scope, hscope, pure_eq_ok.2 (Prod.ext hkey.symm rfl)⟩

theorem readsScope_readFallback :
    ReadsScope lanes (readFallback lanes) FallbackKey.family := fun row r h => by
  obtain ⟨hscope, hkey⟩ := readFallback_eq_ok.1 h
  exact ⟨hscope, by rw [hkey]⟩

theorem normalScope_mergedFallbacks (h : mergedFallbacks lanes rows = .ok groups) :
    ∀ g ∈ groups, NormalScope lanes g.1.family g.2 := by
  obtain ⟨reads, hreads, h⟩ := bind_eq_ok.1 h
  obtain rfl := pure_eq_ok.1 h
  exact normalScope_mergeRows readsScope_readFallback
    (fun k k' hsame => (FallbackKey.same_iff.1 hsame).2.2.2) hreads

theorem readFallback_fallbackDict {g : FallbackKey × List String}
    (h : NormalScope lanes g.1.family g.2) : readFallback lanes (fallbackDict g) = .ok g := by
  refine readFallback_eq_ok.2 ⟨sortedScope_of_scope rfl h, ?_⟩
  obtain ⟨⟨kind, action, params, family⟩, scope⟩ := g
  rw [h.family]
  rfl

/-- Merging the fallbacks once more changes nothing. -/
theorem mergedFallbacks_fallbackDict (h : mergedFallbacks lanes rows = .ok groups) :
    mergedFallbacks lanes (groups.map fallbackDict) = .ok groups := by
  have hread := mapM_read_write fun g hg =>
    readFallback_fallbackDict (normalScope_mergedFallbacks h g hg)
  obtain ⟨reads, -, h⟩ := bind_eq_ok.1 h
  obtain rfl := pure_eq_ok.1 h
  exact bind_eq_ok.2 ⟨_, hread, pure_eq_ok.2 (mergeRows_mergeRows reads)⟩

/-- The first row with a key, which speaks for all of them. -/
def firstKey (reads : List (FallbackKey × List String)) (key : FallbackKey) : FallbackKey :=
  leader FallbackKey.same (reads.map (·.1)) key

/-- **Nothing is lost where parameters freeze alike**: the actions of a row that is spoken for by
other parameters have its own parameters from another row, and those of the first row too. -/
def ParamsKept (reads : List (FallbackKey × List String)) : Prop :=
  ∀ r ∈ reads, sameParams r.1.params (firstKey reads r.1).params = false → ∀ a ∈ r.2,
    (∃ s ∈ reads, a ∈ s.2 ∧ r.1.Agrees (firstKey reads s.1)) ∧
      ∃ s ∈ reads, a ∈ s.2 ∧ s.1.Agrees (firstKey reads r.1)

/-- When the fallbacks over the actions are kept. -/
theorem sameFallbacks_iff (hreads : rows.mapM (readFallback lanes) = .ok reads)
    (h : mergedFallbacks lanes rows = .ok groups) :
    (∀ a, a ≠ "" → CoversSame SameFallbackRow rows (groups.map fallbackDict) a) ↔
      ParamsKept reads := by
  obtain ⟨reads', hreads', h⟩ := bind_eq_ok.1 h
  obtain rfl := Except.ok.inj (hreads'.symm.trans hreads)
  obtain rfl := pure_eq_ok.1 h
  have hlead (k : FallbackKey) := FallbackKey.same_iff.1
    (same_leader FallbackKey.same_refl (reads'.map (·.1)) k)
  have hagrees : ∀ row (r g : FallbackKey × List String), readFallback lanes row = .ok r →
      (SameFallbackRow row (fallbackDict g) ↔ r.1.Agrees g.1) :=
    fun row r g hr => by rw [(readFallback_eq_ok.1 hr).2]; rfl
  have hcovers := coversSame_mergeRows FallbackKey.same_refl FallbackKey.same_trans
    readsScope_readFallback (fun g => rowScope_strList rfl) hagrees hreads
  have hnamed : ∀ r ∈ reads', ∀ a ∈ r.2, a ≠ "" := fun r hr => by
    obtain ⟨row, -, hrow⟩ := mem_of_mapM_ok hreads r hr
    have hnormal : NormalScope lanes (scopeFamily lanes r.2) r.2 :=
      normalScope_of_sortedScope (readFallback_eq_ok.1 hrow).1
    exact hnormal.named
  constructor
  · intro hall r hr _ a har
    obtain ⟨hkept, hfrom⟩ := (hcovers a (hnamed r hr a har)).1 (hall a (hnamed r hr a har))
    exact ⟨hkept r hr har, hfrom r hr har⟩
  · -- a row with the parameters of the first one is kept by itself
    refine fun hkept a ha => (hcovers a ha).2 ⟨fun r hr har => ?_, fun r hr har => ?_⟩
    · cases hsame : sameParams r.1.params (firstKey reads' r.1).params with
      | true => exact ⟨r, hr, har, (hlead r.1).1.symm, (hlead r.1).2.1.symm, hsame⟩
      | false => exact (hkept r hr hsame a har).1
    · cases hsame : sameParams r.1.params (firstKey reads' r.1).params with
      | true => exact ⟨r, hr, har, (hlead r.1).1.symm, (hlead r.1).2.1.symm, hsame⟩
      | false => exact (hkept r hr hsame a har).2

end Fallbacks

/-! ## Batches -/

section Batches

variable {lanes : List (String × String)} {batch compressed : Batch}

theorem uniqueConstraints_of_eq (h : compressed.constraints = uniqueConstraints batch) :
    uniqueConstraints compressed = uniqueConstraints batch := by
  have hfilter : compressed.constraints.filter (strip · ≠ "") = uniqueConstraints batch := by
    rw [h]
    exact List.filter_eq_self.2 fun s hs => (List.mem_filter.1 (mem_sortedSet.1 hs)).2
  have hnodup : (uniqueConstraints batch).Nodup := nodup_sortedSet _
  rw [uniqueConstraints, hfilter, sortedSet, hnodup.dedup]
  exact sortedStr_sortedStr _

theorem set_set (d : Dict) (key : String) (value value' : Val) :
    (d.set key value).set key value' = d.set key value' := by
  induction d with
  | nil => simp [Dict.set]
  | cons row d ih =>
    rw [Dict.set, Dict.set]
    split_ifs with hrow
    · rw [Dict.set, if_pos rfl]
    · rw [Dict.set, if_neg hrow, ih]

theorem compressBatch_eq_ok (h : compressBatch lanes batch = .ok compressed) :
    ∃ guards fallbacks, mergedGuards lanes batch.guards = .ok guards ∧
      mergedFallbacks lanes batch.fallback = .ok fallbacks ∧
      compressed = { batch with
        constraints := uniqueConstraints batch
        ratePolicy := batch.ratePolicy.set "trust_policy_blocks"
          (.list (policyBlocks lanes guards fallbacks))
        guards := guards.map guardDict
        fallback := fallbacks.map fallbackDict } := by
  obtain ⟨guards, hguards, h⟩ := bind_eq_ok.1 h
  obtain ⟨fallbacks, hfallbacks, h⟩ := bind_eq_ok.1 h
  exact ⟨guards, fallbacks, hguards, hfallbacks, (pure_eq_ok.1 h).symm⟩

/-- Compressing a batch once more changes nothing. -/
theorem compressBatch_compressBatch (h : compressBatch lanes batch = .ok compressed) :
    compressBatch lanes compressed = .ok compressed := by
  obtain ⟨guards, fallbacks, hguards, hfallbacks, hcompressed⟩ := compressBatch_eq_ok h
  have hconstraints : uniqueConstraints compressed = uniqueConstraints batch :=
    uniqueConstraints_of_eq (by rw [hcompressed])
  have hguards' : mergedGuards lanes compressed.guards = .ok guards := by
    rw [hcompressed]
    exact mergedGuards_guardDict hguards
  have hfallbacks' : mergedFallbacks lanes compressed.fallback = .ok fallbacks := by
    rw [hcompressed]
    exact mergedFallbacks_fallbackDict hfallbacks
  refine bind_eq_ok.2 ⟨guards, hguards', bind_eq_ok.2 ⟨fallbacks, hfallbacks', pure_eq_ok.2 ?_⟩⟩
  rw [hconstraints, hcompressed, set_set]

/-- What is kept of a batch. -/
structure BatchKept (batch compressed : Batch) : Prop where
  batchId : compressed.batchId = batch.batchId
  parallelGroups : compressed.parallelGroups = batch.parallelGroups
  guards : ∀ a, a ≠ "" → CoversSame SameGuard batch.guards compressed.guards a
  fallback : ∀ a, a ≠ "" → CoversSame SameFallbackRow batch.fallback compressed.fallback a

/-- The fallback rows of a batch lose nothing to rows whose parameters freeze alike. -/
def FallbacksKept (lanes : List (String × String)) (batch : Batch) : Prop :=
  ∀ reads, batch.fallback.mapM (readFallback lanes) = .ok reads → ParamsKept reads

/-- When all of a batch is kept. -/
theorem batchKept_iff (h : compressBatch lanes batch = .ok compressed) :
    BatchKept batch compressed ↔ FallbacksKept lanes batch := by
  obtain ⟨guards, fallbacks, hguards, hfallbacks, rfl⟩ := compressBatch_eq_ok h
  obtain ⟨reads, hreads, -⟩ := bind_eq_ok.1 hfallbacks
  have hiff := sameFallbacks_iff hreads hfallbacks
  constructor
  · intro hkept reads' hreads'
    obtain rfl := Except.ok.inj (hreads.symm.trans hreads')
    exact hiff.1 hkept.fallback
  · exact fun hkept =>
      { batchId := rfl
        parallelGroups := rfl
        guards := fun a ha => sameGuards_mergedGuards hguards ha
        fallback := hiff.2 (hkept reads hreads) }

end Batches

/-! ## Plans -/

section Plans

variable {plan compressed : MetaPlan}

/-- A plan whose rows have scopes and whose notes are dicts. -/
structure Readable (plan : MetaPlan) : Prop where
  lanes : ∃ lanes, actionLanes plan.planMeta = .ok lanes
  scopes : ∀ batch ∈ plan.orderedBatches, ∀ row ∈ batch.guards ++ batch.fallback,
    ∃ tokens, rowScope row = .ok tokens
  mssus : ∃ rows, ((plan.planMeta.getD "action_to_mssus" (.dict [])).or (.dict [])).needDict =
    .ok rows ∧ ∀ row ∈ rows, ∃ n, needLen row.2 = .ok n

/-- What is kept of a plan. -/
structure PlanKept (plan compressed : MetaPlan) : Prop where
  batches : List.Forall₂ BatchKept plan.orderedBatches compressed.orderedBatches
  again : ∃ again, compressPlanForTrust compressed = .ok again ∧
    again.orderedBatches = compressed.orderedBatches

theorem compressPlanForTrust_eq_ok (h : compressPlanForTrust plan = .ok compressed) :
    ∃ lanes, actionLanes plan.planMeta = .ok lanes ∧
      plan.orderedBatches.mapM (compressBatch lanes) = .ok compressed.orderedBatches ∧
      compressedMeta plan.planMeta plan.orderedBatches compressed.orderedBatches =
        .ok compressed.planMeta := by
  obtain ⟨lanes, hlanes, h⟩ := bind_eq_ok.1 h
  obtain ⟨batches, hbatches, h⟩ := bind_eq_ok.1 h
  obtain ⟨planMeta, hmeta, h⟩ := bind_eq_ok.1 h
  obtain rfl := pure_eq_ok.1 h
  exact ⟨lanes, hlanes, hbatches, hmeta⟩

/-- Blocks can be collected from compressed batches. -/
theorem trustBlocks_compressBatch {lanes : List (String × String)} {batch batch' : Batch}
    (h : compressBatch lanes batch = .ok batch') : ∃ blocks, trustBlocks batch' = .ok blocks := by
  obtain ⟨guards, fallbacks, -, -, rfl⟩ := compressBatch_eq_ok h
  refine ⟨_, bind_eq_ok.2 ⟨policyBlocks lanes guards fallbacks, ?_, rfl⟩⟩
  rw [Dict.getD, Dict.get?_set, if_pos rfl]
  rfl

theorem exists_compressedMeta {planMeta : Dict} {lanes : List (String × String)}
    {batches batches' : List Batch}
    (hmssus : ∃ rows, ((planMeta.getD "action_to_mssus" (.dict [])).or (.dict [])).needDict =
      .ok rows ∧ ∀ row ∈ rows, ∃ n, needLen row.2 = .ok n)
    (h : batches.mapM (compressBatch lanes) = .ok batches') :
    ∃ planMeta', compressedMeta planMeta batches batches' = .ok planMeta' := by
  obtain ⟨rows, hrows, hlen⟩ := hmssus
  obtain ⟨counts, hcounts⟩ : ∃ counts, (rows.mapM fun row => do
      return (row.1, Val.int (← needLen row.2)) : Except PyErr (List (String × Val))) =
        .ok counts := by
    refine exists_mapM_ok fun row hrow => ?_
    obtain ⟨n, hn⟩ := hlen row hrow
    exact ⟨(row.1, .int n), bind_eq_ok.2 ⟨n, hn, rfl⟩⟩
  obtain ⟨blocks, hblocks⟩ : ∃ blocks, batches'.mapM trustBlocks = .ok blocks :=
    exists_mapM_ok fun batch' hbatch' => by
      obtain ⟨batch, -, hbatch⟩ := mem_of_mapM_ok h batch' hbatch'
      exact trustBlocks_compressBatch hbatch
  exact ⟨_, bind_eq_ok.2 ⟨rows, hrows, bind_eq_ok.2 ⟨counts, hcounts, bind_eq_ok.2
    ⟨blocks, hblocks, rfl⟩⟩⟩⟩

/-- A readable plan is compressed. -/
theorem Readable.exists_compressed (h : Readable plan) :
    ∃ compressed, compressPlanForTrust plan = .ok compressed := by
  obtain ⟨lanes, hlanes⟩ := h.lanes
  have hread {batch : Batch} (hbatch : batch ∈ plan.orderedBatches) {row : Dict}
      (hrow : row ∈ batch.guards ++ batch.fallback) : ∃ scope, sortedScope row = .ok scope := by
    obtain ⟨tokens, htokens⟩ := h.scopes batch hbatch row hrow
    exact ⟨_, bind_eq_ok.2 ⟨tokens, htokens, rfl⟩⟩
  obtain ⟨batches, hbatches⟩ : ∃ batches,
      plan.orderedBatches.mapM (compressBatch lanes) = .ok batches := by
    refine exists_mapM_ok fun batch hbatch => ?_
    obtain ⟨guards, hguards⟩ : ∃ guards, batch.guards.mapM (readGuard lanes) = .ok guards :=
      exists_mapM_ok fun row hrow => by
        obtain ⟨scope, hscope⟩ := hread hbatch (List.mem_append_left _ hrow)
        exact ⟨_, bind_eq_ok.2 ⟨scope, hscope, rfl⟩⟩
    obtain ⟨fallbacks, hfallbacks⟩ : ∃ fallbacks,
        batch.fallback.mapM (readFallback lanes) = .ok fallbacks :=
      exists_mapM_ok fun row hrow => by
        obtain ⟨scope, hscope⟩ := hread hbatch (List.mem_append_right _ hrow)
        exact ⟨_, bind_eq_ok.2 ⟨scope, hscope, rfl⟩⟩
    exact ⟨_, bind_eq_ok.2 ⟨_, bind_eq_ok.2 ⟨guards, hguards, rfl⟩, bind_eq_ok.2
      ⟨_, bind_eq_ok.2 ⟨fallbacks, hfallbacks, rfl⟩, rfl⟩⟩⟩
  obtain ⟨planMeta, hmeta⟩ := exists_compressedMeta h.mssus hbatches
  exact ⟨⟨⟨batches⟩, planMeta⟩, bind_eq_ok.2 ⟨lanes, hlanes, bind_eq_ok.2 ⟨batches, hbatches,
    bind_eq_ok.2 ⟨planMeta, hmeta, rfl⟩⟩⟩⟩

/-- The lanes are noted in the compressed plan too, and no MSSUs. -/
theorem compressedMeta_notes {planMeta planMeta' : Dict} {batches batches' : List Batch}
    (h : compressedMeta planMeta batches batches' = .ok planMeta') :
    planMeta'.getD "action_lanes" (.dict []) = planMeta.getD "action_lanes" (.dict []) ∧
      planMeta'.getD "action_to_mssus" (.dict []) = .dict [] := by
  obtain ⟨rows, -, h⟩ := bind_eq_ok.1 h
  obtain ⟨counts, -, h⟩ := bind_eq_ok.1 h
  obtain ⟨blocks, -, h⟩ := bind_eq_ok.1 h
  obtain rfl := pure_eq_ok.1 h
  constructor
  · simp [Dict.getD, Dict.get?]
  · cases planMeta.get? "objectives" <;> simp [Dict.getD, Dict.get?]

/-- Compressing a plan once more leaves its batches. -/
theorem compressPlanForTrust_again (h : compressPlanForTrust plan = .ok compressed) :
    ∃ again, compressPlanForTrust compressed = .ok again ∧
      again.orderedBatches = compressed.orderedBatches := by
  obtain ⟨lanes, hlanes, hbatches, hmeta⟩ := compressPlanForTrust_eq_ok h
  obtain ⟨hnoted, hmssus⟩ := compressedMeta_notes hmeta
  have hlanes' : actionLanes compressed.planMeta = .ok lanes := by
    rw [actionLanes, hnoted]
    exact hlanes
  have hbatches' : compressed.orderedBatches.mapM (compressBatch lanes) =
      .ok compressed.orderedBatches := by
    have hself : ∀ batch ∈ compressed.orderedBatches, compressBatch lanes batch = .ok batch :=
      fun batch' hbatch' => by
        obtain ⟨batch, -, hbatch⟩ := mem_of_mapM_ok hbatches batch' hbatch'
        exact compressBatch_compressBatch hbatch
    generalize compressed.orderedBatches = l at hself
    induction l with
    | nil => rfl
    | cons batch l ih =>
      obtain ⟨hbatch, hrest⟩ := List.forall_mem_cons.1 hself
      rw [List.mapM_cons, hbatch, ih hrest]
      rfl
  have hnone : ((compressed.planMeta.getD "action_to_mssus" (.dict [])).or (.dict [])).needDict =
      .ok [] := by
    rw [hmssus]
    rfl
  obtain ⟨planMeta, hmeta'⟩ := exists_compressedMeta ⟨[], hnone, by simp⟩ hbatches'
  exact ⟨⟨⟨compressed.orderedBatches⟩, planMeta⟩, bind_eq_ok.2 ⟨lanes, hlanes', bind_eq_ok.2
    ⟨_, hbatches', bind_eq_ok.2 ⟨planMeta, hmeta', rfl⟩⟩⟩, rfl⟩

theorem forall₂_batchKept_iff {lanes : List (String × String)} {batches batches' : List Batch}
    (h : List.Forall₂ (fun batch batch' => compressBatch lanes batch = .ok batch')
      batches batches') :
    List.Forall₂ BatchKept batches batches' ↔ ∀ batch ∈ batches, FallbacksKept lanes batch := by
  induction h with
  | nil => simp
  | cons hbatch _ ih => rw [List.forall₂_cons, ih, batchKept_iff hbatch, List.forall_mem_cons]

/-- **What every action is covered by is kept**, with the groups of the batches, exactly where no
fallback is lost to a row whose parameters freeze alike. -/
theorem compressPlanForTrust_coverage (hplan : Readable plan) :
    ∃ compressed, compressPlanForTrust plan = .ok compressed ∧
      (PlanKept plan compressed ↔ ∀ lanes, actionLanes plan.planMeta = .ok lanes →
        ∀ batch ∈ plan.orderedBatches, FallbacksKept lanes batch) := by
  obtain ⟨compressed, h⟩ := hplan.exists_compressed
  obtain ⟨lanes, hlanes, hbatches, -⟩ := compressPlanForTrust_eq_ok h
  have hiff := forall₂_batchKept_iff (forall₂_of_mapM_ok hbatches)
  refine ⟨compressed, h, fun hkept lanes' hlanes' => ?_, fun hkept =>
    ⟨hiff.2 (hkept lanes hlanes), compressPlanForTrust_again h⟩⟩
  obtain rfl := Except.ok.inj (hlanes.symm.trans hlanes')
  exact hiff.1 hkept.batches

end Plans

/-! ## Two fallbacks over one action -/

/-- A fallback row over the action `a` with one parameter. -/
def paramRow (x : Val) : Dict :=
  [("kind", .str "SOFT_RATE_LIMIT"), ("scope", strList ["a"]), ("action", .str "throttle"),
    ("params", .dict [("x", x)])]

def paramKey (x : Val) : FallbackKey :=
  { kind := "SOFT_RATE_LIMIT", action := "throttle", params := [("x", x)]
    family := scopeFamily [("a", "BLE")] ["a"] }

/-- A plan of one batch with two rows over one action. -/
def twoRowPlan (x y : Val) : MetaPlan :=
  { orderedBatches := [{ batchId := "B1", parallelGroups := [["a"]]
                         fallback := [paramRow x, paramRow y] }]
    planMeta := [("action_lanes", .dict [("a", .str "BLE")])] }

theorem rowScope_paramRow (x : Val) : rowScope (paramRow x) = .ok ["a"] := rowScope_strList rfl

theorem actionLanes_twoRowPlan (x y : Val) :
    actionLanes (twoRowPlan x y).planMeta = .ok [("a", "BLE")] := rfl

theorem readable_twoRowPlan (x y : Val) : Readable (twoRowPlan x y) where
  lanes := ⟨_, actionLanes_twoRowPlan x y⟩
  scopes batch hbatch row hrow := by
    obtain rfl := List.mem_singleton.1 hbatch
    have hrow : row = paramRow x ∨ row = paramRow y := by simpa using hrow
    rcases hrow with rfl | rfl <;> exact ⟨_, rowScope_paramRow _⟩
  mssus := ⟨[], rfl, by simp⟩

theorem readFallback_paramRow (x : Val) :
    readFallback [("a", "BLE")] (paramRow x) = .ok (paramKey x, ["a"]) := by
  have hnormal : NormalScope [("a", "BLE")] (scopeFamily [("a", "BLE")] ["a"]) ["a"] :=
    ⟨rfl, by simp, rfl⟩
  exact readFallback_eq_ok.2 ⟨sortedScope_of_scope rfl hnormal, rfl⟩

/-- The second of two rows that differ but freeze alike is gone. -/
theorem not_planKept_twoRowPlan {x y : Val}
    (hsame : (paramKey x).same (paramKey y) = true)
    (hdiffer : sameParams (paramKey y).params (paramKey x).params = false)
    {compressed : MetaPlan} (h : compressPlanForTrust (twoRowPlan x y) = .ok compressed) :
    ¬ PlanKept (twoRowPlan x y) compressed := by
  intro hkept
  obtain ⟨lanes, hlanes, hbatches, -⟩ := compressPlanForTrust_eq_ok h
  obtain rfl := Except.ok.inj (hlanes.symm.trans (actionLanes_twoRowPlan x y))
  have hfallbacks := (forall₂_batchKept_iff (forall₂_of_mapM_ok hbatches)).1 hkept.batches _
    List.mem_cons_self
  have hreads : [paramRow x, paramRow y].mapM (readFallback [("a", "BLE")]) =
      .ok [(paramKey x, ["a"]), (paramKey y, ["a"])] := by
    rw [List.mapM_cons, List.mapM_cons, readFallback_paramRow, readFallback_paramRow]
    rfl
  have hfirst : ∀ r ∈ [(paramKey x, ["a"]), (paramKey y, ["a"])],
      firstKey [(paramKey x, ["a"]), (paramKey y, ["a"])] r.1 = paramKey x := by
    intro r hr
    have hr : (paramKey x).same r.1 = true := by
      have hr : r = (paramKey x, ["a"]) ∨ r = (paramKey y, ["a"]) := by simpa using hr
      rcases hr with rfl | rfl
      · exact FallbackKey.same_refl _
      · exact hsame
    simp [firstKey, leader, hr]
  have hy : (paramKey y, ["a"]) ∈ [(paramKey x, ["a"]), (paramKey y, ["a"])] := by simp
  obtain ⟨⟨s, hs, -, -, -, hparams⟩, -⟩ := hfallbacks _ hreads (paramKey y, ["a"]) hy
    (by rw [hfirst _ hy]; exact hdiffer) "a" List.mem_cons_self
  rw [hfirst s hs, hdiffer] at hparams
  exact Bool.false_ne_true hparams

theorem compressPlanForTrust_coverage_twoRows :
    Readable (twoRowPlan (.int 1) (.int 2)) ∧ ∃ compressed,
      compressPlanForTrust (twoRowPlan (.int 1) (.int 2)) = .ok compressed ∧
        (PlanKept (twoRowPlan (.int 1) (.int 2)) compressed ↔
          ∀ lanes, actionLanes (twoRowPlan (.int 1) (.int 2)).planMeta = .ok lanes →
            ∀ batch ∈ (twoRowPlan (.int 1) (.int 2)).orderedBatches, FallbacksKept lanes batch) :=
  ⟨readable_twoRowPlan _ _, compressPlanForTrust_coverage (readable_twoRowPlan _ _)⟩

/-- An empty dict and an empty list freeze alike; the second row is gone. -/
theorem frozenParams_collide :
    Readable (twoRowPlan (.dict []) (.list [])) ∧
      ∀ compressed, compressPlanForTrust (twoRowPlan (.dict []) (.list [])) = .ok compressed →
        ¬ PlanKept (twoRowPlan (.dict []) (.list [])) compressed :=
  ⟨readable_twoRowPlan _ _, fun _ h =>
    not_planKept_twoRowPlan (by decide +kernel) (by decide +kernel) h⟩

end FloWeaver.Scheduler
