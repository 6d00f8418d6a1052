import FloWeaver.Lib.Outcome
import FloWeaver.Profile.Gate
import Mathlib.Algebra.Order.Pi
import Mathlib.Algebra.Order.Ring.Rat
import Mathlib.Data.List.Flatten
import Mathlib.Data.List.Perm.Subperm

/-!
# More evidence disables no rule

A bank that grows by items under fresh ids leaves the rows that a rule cites as they are, and every
count of the support goes up.  The checks ask for counts that are large enough, so what passed them
passes again.

* `ExtendsFresh` — a bank with further items under ids that the other one does not have.
* `supportCounts_within` — the counts go up.
* `citedRows_eq` — the rows that are cited stay.
* `matchabilityReasons_mono`, `modalityGate_mono` — a check that passed passes again.
* `runDeterministicGate_mono` — the rules that are enabled stay enabled.
-/

namespace FloWeaver.Profile

open Py

/-- A bank extends another one by items under fresh ids; the old items keep their order. -/
structure ExtendsFresh (bank bank' : EvidenceBank) : Prop where
  docs : bank'.docs.filter (bank.byId.keys.contains ·.evidenceId) = bank.docs
  code : bank'.code.filter (bank.byId.keys.contains ·.evidenceId) = bank.code
  tests : bank'.tests.filter (bank.byId.keys.contains ·.evidenceId) = bank.tests

variable {bank bank' : EvidenceBank} {rule : CitedRule}

/-! ## What grows -/

theorem supportRows_sublist (h : ExtendsFresh bank bank') :
    (supportRows bank).Sublist (supportRows bank') := by
  have hdocs : bank.docs.Sublist bank'.docs := h.docs ▸ List.filter_sublist
  have hcode : bank.code.Sublist bank'.code := h.code ▸ List.filter_sublist
  have htests : bank.tests.Sublist bank'.tests := h.tests ▸ List.filter_sublist
  exact ((hcode.map _).append ((htests.filter _).map _)).append ((hdocs.flatMap _).map _)

theorem CodeEvidence.amount_nonneg (item : CodeEvidence) : 0 ≤ item.amount := by
  have hfrequency : (0 : ℚ) ≤ item.frequency := by
    exact_mod_cast zero_le_one.trans item.frequency_pos
  have hweight : (0 : ℚ) ≤ (codeSignalWeight.lookup (upper item.signalStrength)).getD 1 := by
    have hweights : ∀ row ∈ codeSignalWeight, 0 ≤ row.2 := by decide +kernel
    cases hlookup : codeSignalWeight.lookup (upper item.signalStrength) with
    | none => exact zero_le_one
    | some weight => exact hweights (upper item.signalStrength, weight) (mem_of_lookup hlookup)
  intro channel
  cases channel with
  | code => exact mul_nonneg hfrequency hweight
  | codeStrong =>
    simp only [amount]
    split_ifs
    · exact hfrequency
    · exact le_rfl
  | test | doc => exact le_rfl

theorem TestEvidence.amount_nonneg (item : TestEvidence) : 0 ≤ item.amount := by
  intro channel
  cases channel with
  | test => exact Int.cast_nonneg (zero_le_one.trans item.frequency_pos)
  | code | doc | codeStrong => exact le_rfl

theorem docAmount_nonneg : 0 ≤ docAmount := by
  intro channel
  cases channel with
  | doc => exact zero_le_one
  | code | test | codeStrong => exact le_rfl

theorem supportRows_nonneg : ∀ row ∈ supportRows bank, 0 ≤ row.2 := by
  intro row hrow
  simp only [supportRows, List.mem_append, List.mem_map] at hrow
  obtain (⟨item, -, rfl⟩ | ⟨item, -, rfl⟩) | ⟨marker, -, rfl⟩ := hrow
  · exact item.amount_nonneg
  · exact item.amount_nonneg
  · exact docAmount_nonneg

theorem supportCounts_within (h : ExtendsFresh bank bank') :
    (supportCounts bank).Within (supportCounts bank') :=
  OrderedDict.within_foldl_bump ⟨fun _ hkey => hkey, fun _ => le_rfl⟩ (supportRows_sublist h)
    supportRows_nonneg

/-! ## What stays -/

/-- The rows under the ids of the old bank are those of the old bank. -/
theorem byId_get? (h : ExtendsFresh bank bank') {evidenceId : String}
    (hid : evidenceId ∈ bank.byId.keys) :
    bank'.byId.get? evidenceId = bank.byId.get? evidenceId := by
  have hrows : bank.docs.map (fun doc => (doc.evidenceId, doc.row)) ++
      bank.code.map (fun code => (code.evidenceId, code.row)) ++
      bank.tests.map (fun test => (test.evidenceId, test.row)) =
    (bank'.docs.map (fun doc => (doc.evidenceId, doc.row)) ++
      bank'.code.map (fun code => (code.evidenceId, code.row)) ++
      bank'.tests.map (fun test => (test.evidenceId, test.row))).filter
        (bank.byId.keys.contains ·.1) := by
    rw [List.filter_append, List.filter_append, List.filter_map, List.filter_map, List.filter_map]
    conv_lhs => rw [← h.docs, ← h.code, ← h.tests]
    rfl
  conv_rhs => rw [EvidenceBank.byId, hrows]
  exact (OrderedDict.get?_ofList_filter _ _ (List.contains_iff_mem.2 hid)).symm

theorem mem_byId_keys (h : ExtendsFresh bank bank') {evidenceId : String}
    (hid : evidenceId ∈ bank.byId.keys) : evidenceId ∈ bank'.byId.keys := by
  rw [← OrderedDict.get?_isSome_iff, byId_get? h hid]
  exact OrderedDict.get?_isSome_iff.2 hid

/-- A rule whose evidence is all known cites the same rows. -/
theorem citedRows_eq (h : ExtendsFresh bank bank')
    (hids : ∀ evidenceId ∈ rule.evidenceIds, evidenceId ∈ bank.byId.keys) :
    citedRows rule bank'.byId = citedRows rule bank.byId :=
  List.filterMap_congr fun evidenceId hid => byId_get? h (hids evidenceId hid)

/-! ## The checks on the counts -/

section Checks

variable {counts counts' : Counts} (h : counts.Within counts')

include h

theorem evidenceThresholdMet_mono {marker : String} (hmet : evidenceThresholdMet counts marker) :
    evidenceThresholdMet counts' marker := by
  have hstore := h.values "CLOUD_SESSION_STORE" .codeStrong
  have huse := h.values "CLOUD_SESSION_USE" .codeStrong
  have hbucket := h.values marker
  have hcode := hbucket .code
  have hstrong := hbucket .codeStrong
  have htest := hbucket .test
  have hdoc := hbucket .doc
  simp only [evidenceThresholdMet] at hmet ⊢
  split_ifs at hmet ⊢
  · simp only [Bool.and_eq_true, decide_eq_true_eq] at hmet ⊢
    exact ⟨hmet.1.trans hstore, hmet.2.trans huse⟩
  · simp only [Bool.and_eq_true, Bool.or_eq_true, decide_eq_true_eq] at hmet ⊢
    grind
  · simp only [Bool.and_eq_true, Bool.or_eq_true, decide_eq_true_eq] at hmet ⊢
    grind

theorem availableMarkers_mono {marker : String} (hmem : marker ∈ availableMarkers counts) :
    marker ∈ availableMarkers counts' := by
  rw [availableMarkers, List.mem_filter] at hmem ⊢
  exact ⟨h.keys marker hmem.1, evidenceThresholdMet_mono h hmem.2⟩

theorem aggregateMarkerAvailable_mono {marker : String}
    (havailable : aggregateMarkerAvailable counts marker) :
    aggregateMarkerAvailable counts' marker := by
  have hany : ∀ p : String → Bool, (availableMarkers counts).any p →
      (availableMarkers counts').any p := by
    intro p hp
    obtain ⟨m, hm, hpm⟩ := List.any_eq_true.1 hp
    exact List.any_eq_true.2 ⟨m, availableMarkers_mono h hm, hpm⟩
  simp only [aggregateMarkerAvailable] at havailable ⊢
  split_ifs at havailable ⊢
  · exact hany _ havailable
  · exact hany _ havailable
  · exact List.contains_iff_mem.2 (availableMarkers_mono h (List.contains_iff_mem.1 havailable))

theorem patternReasons_mono (hnone : patternReasons counts rule = []) :
    patternReasons counts' rule = [] := by
  have havailable := @aggregateMarkerAvailable_mono _ _ h (dominantPattern rule)
  have hmet := @evidenceThresholdMet_mono _ _ h (dominantPattern rule)
  simp only [patternReasons] at hnone ⊢
  split_ifs at hnone ⊢ <;> simp_all

theorem hintReasons_mono {marker : String} (hnone : hintReasons counts marker = []) :
    hintReasons counts' marker = [] := by
  have havailable := @aggregateMarkerAvailable_mono _ _ h marker
  have hmet := @evidenceThresholdMet_mono _ _ h marker
  simp only [hintReasons] at hnone ⊢
  split_ifs at hnone ⊢ <;> simp_all

theorem sessionReasons_mono (hnone : sessionReasons counts rule = []) :
    sessionReasons counts' rule = [] := by
  simp only [sessionReasons] at hnone ⊢
  split_ifs at hnone ⊢
  · rw [List.flatMap_eq_nil_iff] at hnone ⊢
    intro marker hmarker
    have hstrong := h.values marker .codeStrong
    have := hnone marker hmarker
    split_ifs at this ⊢ with hold hnew
    · exact absurd (hstrong.trans_lt hold) hnew
    · rfl
  · rfl

theorem matchabilityReasons_mono (hnone : matchabilityReasons counts rule = []) :
    matchabilityReasons counts' rule = [] := by
  simp only [matchabilityReasons, List.append_eq_nil_iff, List.flatMap_eq_nil_iff,
    List.eraseDups_cons, ite_eq_left_iff, reduceCtorEq, imp_false, not_not] at hnone ⊢
  obtain ⟨⟨hpattern, hhints⟩, hsession⟩ := hnone
  exact ⟨⟨patternReasons_mono h hpattern,
    fun marker hmarker => hintReasons_mono h (hhints marker hmarker)⟩,
    sessionReasons_mono h hsession⟩

/-! ## The checks on the modalities -/

theorem markerModalities_subset (marker : String) :
    markerModalities counts marker ⊆ markerModalities counts' marker := by
  have hkeys : relatedKeys counts marker ⊆ relatedKeys counts' marker := by
    have hfilter : ∀ p : String → Bool, counts.keys.filter p ⊆ counts'.keys.filter p := by
      intro p key hkey
      rw [List.mem_filter] at hkey ⊢
      exact ⟨h.keys key hkey.1, hkey.2⟩
    simp only [relatedKeys]
    split_ifs
    · exact hfilter _
    · exact hfilter _
    · exact List.Subset.refl _
  intro modality hmodality
  obtain ⟨key, hkey, hmem⟩ := List.mem_flatMap.1 hmodality
  refine List.mem_flatMap.2 ⟨key, hkeys hkey, ?_⟩
  have hcode := h.values key .code
  have htest := h.values key .test
  have hdoc := h.values key .doc
  simp only [List.mem_append] at hmem ⊢
  refine hmem.imp (Or.imp ?_ ?_) ?_ <;> split_ifs <;> grind

variable {index index' : OrderedDict String EvidenceRow}

theorem strongCodeOnlyProtocolSupport_mono (hrows : citedRows rule index' = citedRows rule index)
    (hstrong : strongCodeOnlyProtocolSupport counts rule index) :
    strongCodeOnlyProtocolSupport counts' rule index' := by
  simp only [strongCodeOnlyProtocolSupport, hrows, Bool.and_eq_true, decide_eq_true_eq] at hstrong ⊢
  refine ⟨hstrong.1, hstrong.2.trans (List.countP_mono_left fun marker _ hsupport => ?_)⟩
  have hstrong := h.values marker .codeStrong
  have hcode := h.values marker .code
  simp only [Bool.or_eq_true, decide_eq_true_eq] at hsupport ⊢
  exact hsupport.imp (·.trans hstrong) (·.trans hcode)

theorem modalityGate_mono (hrows : citedRows rule index' = citedRows rule index)
    (hnone : modalityGate counts rule index = []) : modalityGate counts' rule index' = [] := by
  have hsubset : ruleModalities counts rule index ⊆ ruleModalities counts' rule index' := by
    rw [ruleModalities, ruleModalities, hrows]
    exact List.append_subset.2 ⟨List.subset_append_left _ _, fun modality hmodality => by
      obtain ⟨marker, hmarker, hmem⟩ := List.mem_flatMap.1 hmodality
      exact List.mem_append_right _
        (List.mem_flatMap.2 ⟨marker, hmarker, markerModalities_subset h marker hmem⟩)⟩
  have hlength : (ruleModalities counts rule index).dedup.length ≤
      (ruleModalities counts' rule index').dedup.length :=
    ((List.nodup_dedup _).subperm (by simpa [List.subset_def] using hsubset)).length_le
  have hsupport : strongCodeOnlyProtocolSupport counts rule index →
      strongCodeOnlyProtocolSupport counts' rule index' := strongCodeOnlyProtocolSupport_mono h hrows
  have hcode := @hsubset "code"
  simp only [modalityGate] at hnone ⊢
  split_ifs at hnone ⊢ <;> simp_all
  omega

end Checks

/-! ## The gate -/

theorem semanticLevelGate_eq {index index' : OrderedDict String EvidenceRow}
    (hrows : citedRows rule index' = citedRows rule index) :
    semanticLevelGate rule index' = semanticLevelGate rule index := by
  rw [semanticLevelGate, semanticLevelGate, hrows]

/-- A rule that nothing speaks against is not spoken against by more evidence. -/
theorem ruleReasons_mono (h : ExtendsFresh bank bank') (hnone : ruleReasons bank rule = .ok []) :
    ruleReasons bank' rule = .ok [] := by
  have hwithin := supportCounts_within h
  simp only [ruleReasons] at hnone ⊢
  cases heffect : effectKindReasons rule with
  | error e => rw [heffect] at hnone; cases hnone
  | ok effect =>
    rw [heffect] at hnone
    obtain hnone := Except.ok.inj hnone
    simp only [List.append_eq_nil_iff] at hnone
    obtain ⟨⟨⟨⟨⟨⟨⟨hidentity, hmissing⟩, hunknown⟩, hmatch⟩, rfl⟩, hspecific⟩, hmodality⟩, hlevel⟩ :=
      hnone
    have hids : ∀ evidenceId ∈ rule.evidenceIds, evidenceId ∈ bank.byId.keys := by
      simpa using hunknown
    have hrows := citedRows_eq h hids
    have hknown : rule.evidenceIds.any (!bank'.byId.keys.contains ·) = false := by
      simpa using fun evidenceId hid => mem_byId_keys h (hids evidenceId hid)
    show Except.ok _ = Except.ok _
    rw [hidentity, hmissing, hknown, matchabilityReasons_mono hwithin hmatch, hspecific,
      modalityGate_mono hwithin hrows hmodality, semanticLevelGate_eq hrows, hlevel]
    rfl

/-- Whether the effect of a rule has a hash does not depend on the evidence. -/
theorem ruleReasons_sameOutcome (rule : CitedRule) :
    SameOutcome (fun _ _ => True) (ruleReasons bank rule) (ruleReasons bank' rule) := by
  simp only [ruleReasons]
  exact (SameOutcome.of_eq rfl).bind fun _ _ _ => .returns trivial

/-- One step of the two runs: what one enables, the other enables too. -/
theorem gateRule_mono (h : ExtendsFresh bank bank') {decision decision' : GateDecision}
    (hsub : decision.enabled.Sublist decision'.enabled) (rule : CitedRule) :
    SameOutcome (fun d d' => d.enabled.Sublist d'.enabled) (gateRule bank decision rule)
      (gateRule bank' decision' rule) := by
  refine (ruleReasons_sameOutcome rule).attach.bind ?_
  rintro reasons reasons' ⟨-, hreasons, hreasons'⟩
  by_cases hnone : reasons = []
  · subst hnone
    rw [ruleReasons_mono h hreasons] at hreasons'
    obtain rfl := Except.ok.inj hreasons'
    exact .returns (hsub.append (List.Sublist.refl _))
  · rw [if_neg hnone]
    split_ifs
    · exact .returns (hsub.trans (List.sublist_append_left _ _))
    · exact .returns hsub

/-- More evidence disables no rule. -/
theorem runDeterministicGate_mono (h : ExtendsFresh bank bank') {rules : List CitedRule}
    {decision : GateDecision} (hrun : runDeterministicGate rules bank = .ok decision) :
    ∃ decision', runDeterministicGate rules bank' = .ok decision' ∧
      decision.enabled.Sublist decision'.enabled := by
  have hsame : SameOutcome (fun d d' => d.enabled.Sublist d'.enabled)
      (runDeterministicGate rules bank) (runDeterministicGate rules bank') :=
    SameOutcome.foldlM (fun rule _ _ _ hsub => gateRule_mono h hsub rule) (List.Sublist.refl [])
  rw [hrun] at hsame
  cases hrun' : runDeterministicGate rules bank' with
  | error e => rw [hrun'] at hsame; cases hsame
  | ok decision' =>
    rw [hrun'] at hsame
    cases hsame with
    | returns hsub => exact ⟨decision', rfl, hsub⟩

/-- A rule on batched cloud calls, with code and a test behind it. -/
def batchRule : CitedRule where
  ruleId := "rule_protocol_batch"
  title := "batch the calls"
  category := "protocol"
  markerHints := ["CLOUD_BATCH_CALL"]
  evidenceIds := ["code_1", "test_1"]
  effect := [("kind", .str "ordering_or_constraint")]

def batchBank : EvidenceBank where
  code := [{ evidenceId := "code_1", pattern := "batch", typedAnchor := "CLOUD_BATCH_CALL" }]
  tests := [{ evidenceId := "test_1", pattern := "TEST_BATCH_CALL" }]

/-- The same bank with a sentence and with weak code in front. -/
def largerBank : EvidenceBank where
  docs := [{ evidenceId := "doc_1", sourcePath := "docs/diagnostics.md" }]
  code := { evidenceId := "code_2", pattern := "TEXT", signalStrength := "TEXT_WEAK" } ::
    batchBank.code
  tests := batchBank.tests

theorem runDeterministicGate_mono_batch :
    ∃ decision decision', runDeterministicGate [batchRule] batchBank = .ok decision ∧
      runDeterministicGate [batchRule] largerBank = .ok decision' ∧
      decision.enabled.length = 1 ∧ decision.enabled.Sublist decision'.enabled := by
  have hlength : (runDeterministicGate [batchRule] batchBank).toOption.map (·.enabled.length) =
      some 1 := by decide +kernel
  cases hrun : runDeterministicGate [batchRule] batchBank with
  | error e => rw [hrun] at hlength; cases hlength
  | ok decision =>
    rw [hrun] at hlength
    have hids : batchBank.byId.keys = ["code_1", "test_1"] := by decide +kernel
    have hextends : ExtendsFresh batchBank largerBank :=
      { docs := by rw [hids]; rfl, code := by rw [hids]; rfl, tests := by rw [hids]; rfl }
    obtain ⟨decision', hrun', hsub⟩ := runDeterministicGate_mono hextends hrun
    exact ⟨decision, decision', rfl, hrun', Option.some.inj hlength, hsub⟩

end FloWeaver.Profile
