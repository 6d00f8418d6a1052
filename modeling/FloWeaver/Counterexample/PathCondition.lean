import FloWeaver.Counterexample.State

/-!
# Consistent path conditions

A path condition is consistent when no clause comes with its negation.  It stays so when what the
environment decides agrees with it and every open guard is decided for the first time.

* `Consistent` — no clause together with its negation.
* `DecidesAfresh` — every open guard of some guards is new.
* `DecidesAfresh.consistent` — then the path condition with their clauses is consistent.
-/

namespace FloWeaver.Counterexample

open Py Ir

/-! ## Clauses and negations -/

/-- No clause together with its negation. -/
def Consistent (clauses : List String) : Prop := ∀ clause ∈ clauses, negated clause ∉ clauses

instance (clauses : List String) : Decidable (Consistent clauses) := by
  unfold Consistent
  infer_instance

theorem toList_negated (clause : String) :
    (negated clause).toList = 'N' :: (['O', 'T', '('] ++ clause.toList ++ [')']) := by
  simp [negated, String.toList_append]

theorem negated_injective {a b : String} (h : negated a = negated b) : a = b := by
  have hlist := congrArg String.toList h
  rw [toList_negated, toList_negated, List.cons.injEq, List.append_left_inj,
    List.append_right_inj] at hlist
  exact String.toList_inj.1 hlist.2

theorem strip_negated (clause : String) : strip (negated clause) = negated clause := by
  rw [strip, toList_negated, stripL_cons_append (by decide) (by decide), ← toList_negated,
    String.ofList_toList]

/-- A text that starts neither with a space nor like a negation. -/
def Plain (s : String) : Prop :=
  ∃ c cs, s.toList = c :: cs ∧ isSpace c = false ∧ c ≠ 'N'

theorem Plain.strip_ne_negated {s : String} (h : Plain s) (clause : String) :
    strip s ≠ negated clause := by
  obtain ⟨c, cs, hs, hspace, hc⟩ := h
  intro he
  have hhead := congrArg (fun t : String => t.toList.head?) he
  simp only [strip, String.toList_ofList, hs, head?_stripL_cons hspace, toList_negated,
    List.head?_cons, Option.some.injEq] at hhead
  exact hc hhead

theorem Plain.ne_negated {s : String} (h : Plain s) (clause : String) : s ≠ negated clause := by
  intro he
  refine h.strip_ne_negated clause ?_
  rw [he, strip_negated]

/-- A text that starts with a plain one is plain. -/
theorem Plain.append {s : String} (h : Plain s) (t : String) : Plain (s ++ t) := by
  obtain ⟨c, cs, hs, hc⟩ := h
  exact ⟨c, cs ++ t.toList, by rw [String.toList_append, hs, List.cons_append], hc⟩

/-! ## What guards decide -/

/-- The clauses of the guards that the environment decides. -/
def knownClauses (atoms : List GuardAtom) : List String :=
  atoms.filterMap fun atom => atom.known.map atom.clause

/-- The clauses of the open guards, as they are stored. -/
def openClauses (atoms : List GuardAtom) (clauses : List String) : List String :=
  ((atoms.zip clauses).filter fun row => row.1.known.isNone).map fun row => strip row.2

section Decides

variable {atoms : List GuardAtom} {clauses : List String}

theorem Decides.mem (h : Decides atoms clauses) {clause : String} (hc : clause ∈ clauses) :
    clause ∈ knownClauses atoms ∨ strip clause ∈ openClauses atoms clauses := by
  induction h with
  | nil => cases hc
  | @cons atom c atoms clauses hhead _ ih =>
    obtain ⟨applies, hknown, rfl⟩ := hhead
    rcases List.mem_cons.1 hc with rfl | hc
    · cases hk : atom.known with
      | none => exact .inr (by simp [openClauses, hk])
      | some known =>
        obtain rfl := hknown known hk
        exact .inl (by simp [knownClauses, hk])
    · rcases ih hc with h | h
      · refine .inl ?_
        rw [knownClauses, List.filterMap_cons]
        cases atom.known.map atom.clause with
        | none => exact h
        | some _ => exact List.mem_cons_of_mem _ h
      · refine .inr ?_
        rw [openClauses, List.zip_cons_cons, List.filter_cons]
        split_ifs
        · exact List.mem_cons_of_mem _ h
        · exact h

/-- An open guard stores its clause or the negation. -/
theorem Decides.mem_openClauses (h : Decides atoms clauses) {clause : String}
    (hc : clause ∈ openClauses atoms clauses) :
    ∃ atom ∈ atoms, atom.known = none ∧
      (clause = strip atom.positive ∨ clause = negated atom.positive) := by
  obtain ⟨row, hrow, rfl⟩ := List.mem_map.1 hc
  obtain ⟨hzip, hopen⟩ := List.mem_filter.1 hrow
  obtain ⟨-, hall⟩ := List.forall₂_iff_zip.1 h
  obtain ⟨applies, -, hclause⟩ := hall hzip
  refine ⟨row.1, (List.of_mem_zip hzip).1, Option.isNone_iff_eq_none.1 hopen, ?_⟩
  rw [hclause]
  cases applies with
  | true => exact .inl rfl
  | false => exact .inr (strip_negated _)

end Decides

/-! ## Open guards that are new -/

/-- Two open guards do not decide the same clause. -/
def Apart (a b : GuardAtom) : Prop :=
  a.known = none → b.known = none → strip a.positive ≠ b.positive ∧ strip b.positive ≠ a.positive

/-- What the environment and its branch decide agrees with the path condition.  No open guard is
decided there already, and none is decided twice. -/
structure DecidesAfresh (pathCondition baseClauses : List String) (atoms : List GuardAtom) :
    Prop where
  agrees : Consistent (extendCondition pathCondition (baseClauses ++ knownClauses atoms))
  new : ∀ atom ∈ atoms, atom.known = none →
    ∀ clause ∈ extendCondition pathCondition (baseClauses ++ knownClauses atoms),
      clause ≠ atom.positive ∧ clause ≠ negated (strip atom.positive) ∧
        clause ≠ negated (negated atom.positive)
  once : atoms.Pairwise Apart

section Afresh

variable {pathCondition baseClauses clauses : List String} {atoms : List GuardAtom}

/-- Two clauses of open guards that are apart do not contradict each other. -/
theorem Apart.not_contradict {a b : GuardAtom} (h : Apart a b) (ha : a.known = none)
    (hb : b.known = none) (hplain : Plain b.positive) {x y : String}
    (hx : x = strip a.positive ∨ x = negated a.positive)
    (hy : y = strip b.positive ∨ y = negated b.positive) : y ≠ negated x := by
  intro he
  rcases hy with rfl | rfl
  · exact hplain.strip_ne_negated x he
  · have hxb := negated_injective he
    rcases hx with rfl | rfl
    · exact (h ha hb).1 hxb.symm
    · exact hplain.ne_negated _ hxb

theorem Decides.consistent_openClauses (h : Decides atoms clauses)
    (hplain : ∀ atom ∈ atoms, Plain atom.positive) (honce : atoms.Pairwise Apart) :
    Consistent (openClauses atoms clauses) := by
  induction h with
  | nil => exact fun clause hc => absurd hc List.not_mem_nil
  | @cons atom c atoms clauses hhead htail ih =>
    have hrest := ih (fun a ha => hplain a (List.mem_cons_of_mem _ ha)) (List.pairwise_cons.1 honce).2
    cases hk : atom.known with
    | some known => simpa [openClauses, hk] using hrest
    | none =>
      have hopen : openClauses (atom :: atoms) (c :: clauses) =
          strip c :: openClauses atoms clauses := by simp [openClauses, hk]
      have hstored : strip c = strip atom.positive ∨ strip c = negated atom.positive := by
        obtain ⟨applies, -, rfl⟩ := hhead
        cases applies with
        | true => exact .inl rfl
        | false => exact .inr (strip_negated _)
      have hself : strip c ≠ negated (strip c) := by
        rcases hstored with hs | hs
        · rw [hs]
          exact (hplain atom List.mem_cons_self).strip_ne_negated _
        · rw [hs]
          exact fun he => (hplain atom List.mem_cons_self).ne_negated _ (negated_injective he)
      rw [hopen]
      intro x hx hneg
      rcases List.mem_cons.1 hx with rfl | hx
      · rcases List.mem_cons.1 hneg with he | hy
        · exact hself he.symm
        · obtain ⟨b, hb, hbk, hby⟩ := Decides.mem_openClauses htail hy
          exact ((List.pairwise_cons.1 honce).1 b hb).not_contradict hk hbk
            (hplain b (List.mem_cons_of_mem _ hb)) hstored hby rfl
      · rcases List.mem_cons.1 hneg with he | hy
        · obtain ⟨b, hb, hbk, hbx⟩ := Decides.mem_openClauses htail hx
          have hapart : Apart b atom := fun h h' =>
            (((List.pairwise_cons.1 honce).1 b hb) h' h).symm
          exact hapart.not_contradict hbk hk (hplain atom List.mem_cons_self) hbx hstored he.symm
        · exact hrest x hx hy

theorem mem_extendCondition {clause : String} :
    clause ∈ extendCondition pathCondition clauses ↔
      clause ∈ pathCondition ∨ ∃ raw ∈ clauses, strip raw = clause ∧ clause ≠ "" := by
  rw [extendCondition, List.mem_append, List.mem_filter, List.mem_map, decide_eq_true_eq]
  constructor
  · rintro (h | ⟨⟨raw, hraw, rfl⟩, hne⟩)
    · exact .inl h
    · exact .inr ⟨raw, hraw, rfl, hne⟩
  · rintro (h | ⟨raw, hraw, rfl, hne⟩)
    · exact .inl h
    · exact .inr ⟨⟨raw, hraw, rfl⟩, hne⟩

/-- Every stored clause is decided by the environment, or comes from an open guard. -/
theorem Decides.mem_stored (h : Decides atoms clauses) {clause : String}
    (hc : clause ∈ extendCondition pathCondition (baseClauses ++ clauses)) :
    clause ∈ extendCondition pathCondition (baseClauses ++ knownClauses atoms) ∨
      clause ∈ openClauses atoms clauses := by
  rcases mem_extendCondition.1 hc with hc | ⟨raw, hraw, rfl, hne⟩
  · exact .inl (mem_extendCondition.2 (.inl hc))
  · rcases List.mem_append.1 hraw with hbase | hraw
    · exact .inl (mem_extendCondition.2 (.inr ⟨raw, List.mem_append_left _ hbase, rfl, hne⟩))
    · rcases h.mem hraw with hknown | hopen
      · exact .inl (mem_extendCondition.2 (.inr ⟨raw, List.mem_append_right _ hknown, rfl, hne⟩))
      · exact .inr hopen

/-- **Guards that are decided afresh keep a path condition consistent.** -/
theorem DecidesAfresh.consistent (h : DecidesAfresh pathCondition baseClauses atoms)
    (hplain : ∀ atom ∈ atoms, Plain atom.positive) (hdecides : Decides atoms clauses) :
    Consistent (extendCondition pathCondition (baseClauses ++ clauses)) := by
  intro x hx hneg
  rcases hdecides.mem_stored hx with hx | hx
  · rcases hdecides.mem_stored hneg with hneg | hneg
    · exact h.agrees x hx hneg
    · obtain ⟨atom, hmem, hopen, he | he⟩ := hdecides.mem_openClauses hneg
      · exact (hplain atom hmem).strip_ne_negated x he.symm
      · exact (h.new atom hmem hopen x hx).1 (negated_injective he)
  · rcases hdecides.mem_stored hneg with hneg | hneg
    · obtain ⟨atom, hmem, hopen, rfl | rfl⟩ := hdecides.mem_openClauses hx
      · exact (h.new atom hmem hopen _ hneg).2.1 rfl
      · exact (h.new atom hmem hopen _ hneg).2.2 rfl
    · exact hdecides.consistent_openClauses hplain h.once x hx hneg

end Afresh

/-! ## The options decide the guards -/

section Options

variable {program : IRProgram} {env : EnvState}

theorem decides_of_mem_decideGuard {options : List GuardOption} {done : List GuardAtom}
    {atom : GuardAtom} (h : ∀ option ∈ options, Decides done option.2) :
    ∀ option ∈ decideGuard options atom, Decides (done ++ [atom]) option.2 := by
  intro option hoption
  rw [decideGuard] at hoption
  cases hk : atom.known with
  | some known =>
    rw [hk] at hoption
    obtain ⟨prev, hprev, rfl⟩ := List.mem_map.1 hoption
    refine (h prev hprev).append (.cons ⟨known, fun k hk' => ?_, rfl⟩ .nil)
    rw [hk] at hk'
    exact (Option.some.inj hk').symm
  | none =>
    rw [hk] at hoption
    obtain ⟨prev, hprev, hoption⟩ := List.mem_flatMap.1 hoption
    have hfree : ∀ applies, ∀ k ∈ atom.known, k = applies := by simp [hk]
    rcases List.mem_pair.1 hoption with rfl | rfl
    · exact (h prev hprev).append (.cons ⟨true, hfree true, rfl⟩ .nil)
    · exact (h prev hprev).append (.cons ⟨false, hfree false, rfl⟩ .nil)

theorem decides_of_mem_guardOptions {atoms : List GuardAtom} :
    ∀ option ∈ guardOptions atoms, Decides atoms option.2 := by
  have hrun : ∀ (atoms done : List GuardAtom) (options : List GuardOption),
      (∀ option ∈ options, Decides done option.2) →
        ∀ option ∈ atoms.foldl decideGuard options, Decides (done ++ atoms) option.2 := by
    intro atoms
    induction atoms with
    | nil =>
      intro done options h
      rwa [List.append_nil]
    | cons atom rest ih =>
      intro done options h
      rw [List.foldl_cons, List.append_cons]
      exact ih (done ++ [atom]) _ (decides_of_mem_decideGuard h)
  refine hrun atoms [] [(true, [])] fun option hoption => ?_
  rw [List.mem_singleton.1 hoption]
  exact .nil

theorem decides_of_mem_combined {groups : List (List GuardAtom)} :
    ∀ option ∈ combined (groups.map guardOptions), Decides groups.flatten option.2 := by
  induction groups with
  | nil =>
    intro option hoption
    rw [List.mem_singleton.1 hoption]
    exact .nil
  | cons atoms rest ih =>
    intro option hoption
    obtain ⟨first, hfirst, hoption⟩ := List.mem_flatMap.1 hoption
    obtain ⟨other, hother, rfl⟩ := List.mem_map.1 hoption
    exact (decides_of_mem_guardOptions first hfirst).append (ih other hother)

/-- The guards of a node. -/
def nodeGuards (env : EnvState) (node : IRNode) : Except PyErr (List GuardAtom) := do
  return (← nodeGuardGroups node env).flatten

/-- The guards of the nodes of a segment. -/
def segmentGuards (program : IRProgram) (env : EnvState) (nodeIds : List String) :
    Except PyErr (List GuardAtom) := do
  return (← nodeIds.mapM fun nodeId => program.node nodeId >>= nodeGuards env).flatten

theorem decides_of_nodeGuardOptions {node : IRNode} {options : List GuardOption}
    (h : nodeGuardOptions node env = .ok options) :
    ∃ atoms, nodeGuards env node = .ok atoms ∧ ∀ option ∈ options, Decides atoms option.2 := by
  obtain ⟨groups, hgroups, h⟩ := bind_eq_ok.1 h
  obtain rfl := pure_eq_ok.1 h
  refine ⟨groups.flatten, bind_eq_ok.2 ⟨groups, hgroups, rfl⟩, fun option hoption => ?_⟩
  exact decides_of_mem_combined option (List.mem_eraseDups.1 hoption)

/-- Every way through a segment decides the guards of its nodes. -/
theorem decides_of_executionOptions {nodeIds : List String} {options : List ExecutionOption}
    (h : executionOptions program nodeIds env = .ok options) :
    ∃ atoms, segmentGuards program env nodeIds = .ok atoms ∧
      ∀ option ∈ options, Decides atoms option.2 := by
  have hrun : ∀ (nodeIds : List String) (done : List GuardAtom) (options out : List ExecutionOption),
      (∀ option ∈ options, Decides done option.2) →
      nodeIds.foldlM (executeNode program env) options = .ok out →
        ∃ atoms, segmentGuards program env nodeIds = .ok atoms ∧
          ∀ option ∈ out, Decides (done ++ atoms) option.2 := by
    intro nodeIds
    induction nodeIds with
    | nil =>
      intro done options out hoptions hout
      obtain rfl := pure_eq_ok.1 hout
      exact ⟨[], rfl, by rwa [List.append_nil]⟩
    | cons nodeId rest ih =>
      intro done options out hoptions hout
      rw [List.foldlM_cons, bind_eq_ok] at hout
      obtain ⟨next, hnext, hout⟩ := hout
      obtain ⟨node, hnode, hnext⟩ := bind_eq_ok.1 hnext
      obtain ⟨nodeOptions, hnodeOptions, hnext⟩ := bind_eq_ok.1 hnext
      obtain rfl := pure_eq_ok.1 hnext
      obtain ⟨atoms, hatoms, hdecides⟩ := decides_of_nodeGuardOptions hnodeOptions
      obtain ⟨more, hmore, hall⟩ := ih (done ++ atoms) _ out (fun option hoption => by
        obtain ⟨prev, hprev, hoption⟩ := List.mem_flatMap.1 hoption
        obtain ⟨guards, hguards, rfl⟩ := List.mem_map.1 hoption
        exact (hoptions prev hprev).append (hdecides guards hguards)) hout
      refine ⟨atoms ++ more, ?_, by rwa [← List.append_assoc]⟩
      obtain ⟨lists, hlists, hmore⟩ := bind_eq_ok.1 hmore
      obtain rfl := pure_eq_ok.1 hmore
      refine bind_eq_ok.2 ⟨atoms :: lists, ?_, rfl⟩
      rw [List.mapM_cons]
      exact bind_eq_ok.2 ⟨atoms, bind_eq_ok.2 ⟨node, hnode, hatoms⟩,
        bind_eq_ok.2 ⟨lists, hlists, rfl⟩⟩
  obtain ⟨found, hfound, h⟩ := bind_eq_ok.1 h
  obtain rfl := pure_eq_ok.1 h
  obtain ⟨atoms, hatoms, hall⟩ := hrun nodeIds [] [([], [])] found (fun option hoption => by
    rw [List.mem_singleton.1 hoption]
    exact .nil) hfound
  exact ⟨atoms, hatoms, fun option hoption => hall option (List.mem_eraseDups.1 hoption)⟩

/-- The guards of a node start with their kind. -/
theorem plain_of_nodeGuards {node : IRNode} {atoms : List GuardAtom}
    (h : nodeGuards env node = .ok atoms) : ∀ atom ∈ atoms, Plain atom.positive := by
  have hmapping : ∀ (pre : String) (values guards : Dict), Plain pre →
      ∀ atom ∈ mappingGuards pre values guards, Plain atom.positive := by
    intro pre values guards hpre atom hatom
    obtain ⟨row, -, rfl⟩ := List.mem_map.1 hatom
    exact (((hpre.append _).append _).append _).append _
  obtain ⟨groups, hgroups, h⟩ := bind_eq_ok.1 h
  obtain rfl := pure_eq_ok.1 h
  obtain ⟨requestParams, -, hgroups⟩ := bind_eq_ok.1 hgroups
  obtain ⟨deviceResults, -, hgroups⟩ := bind_eq_ok.1 hgroups
  obtain ⟨toggles, -, hgroups⟩ := bind_eq_ok.1 hgroups
  obtain rfl := pure_eq_ok.1 hgroups
  intro atom hatom
  simp only [List.flatten_cons, List.flatten_nil, List.append_nil, List.mem_append] at hatom
  rcases hatom with h | h | h | h
  · exact hmapping _ _ _ ⟨'r', "equest_params".toList, by decide, by decide, by decide⟩ atom h
  · exact hmapping _ _ _ ⟨'d', "evice_results".toList, by decide, by decide, by decide⟩ atom h
  · exact hmapping _ _ _ ⟨'t', "oggles".toList, by decide, by decide, by decide⟩ atom h
  · obtain ⟨name, -, rfl⟩ := List.mem_map.1 h
    have hpre : Plain "framework_event:" := ⟨'f', "ramework_event:".toList, by decide, by decide, by decide⟩
    exact hpre.append name

theorem plain_of_segmentGuards {nodeIds : List String} {atoms : List GuardAtom}
    (h : segmentGuards program env nodeIds = .ok atoms) : ∀ atom ∈ atoms, Plain atom.positive := by
  obtain ⟨lists, hlists, h⟩ := bind_eq_ok.1 h
  obtain rfl := pure_eq_ok.1 h
  intro atom hatom
  obtain ⟨list, hlist, hatom⟩ := List.mem_flatten.1 hatom
  obtain ⟨nodeId, -, hguards⟩ := mem_of_mapM_ok hlists list hlist
  obtain ⟨node, -, hguards⟩ := bind_eq_ok.1 hguards
  exact plain_of_nodeGuards hguards atom hatom

end Options

end FloWeaver.Counterexample
