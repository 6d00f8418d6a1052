import FloWeaver.Profile.GateMonotone
import Mathlib.Algebra.BigOperators.Pi
import Mathlib.Algebra.Order.BigOperators.Group.List
import Mathlib.Algebra.Order.Ring.Rat

/-!
# The evidence for a detector

The builder of the profile installs a detector for a marker of a protocol when there is evidence
for the marker.  It counts the evidence a second time, with tables of its own: it trims the anchors
of the code, it reads a test by its pattern alone, and it is strict about one marker more.

* `detectorCounts`, `markerSupported` — what the builder counts and asks for.
* `Reading`, `Reading.counts` — a tally that reads the evidence in a given way.
* `SameSupport` — no evidence that is read differently decides on a marker.
* `detectors_agree_iff` — that is when the builder and the gate agree on every marker.
-/

namespace FloWeaver.Profile

open Py

/-! ## The builder -/

/-- The markers for which the builder has a detector. -/
def protocolDetectorTemplates : List String :=
  ["BLE_CONNECT", "BLE_DISCONNECT", "BLE_GATT_OP", "BLE_SCAN", "BLE_RETRY_OR_TIMEOUT",
    "CLOUD_HTTP_CALL", "CLOUD_TOKEN_REFRESH", "CLOUD_429_CHECK", "CLOUD_BACKOFF_SLEEP",
    "CLOUD_SESSION_REUSE", "CLOUD_BATCH_CALL", "LOCAL_API_READ"]

def detectorStrictMarkers : List String :=
  ["CLOUD_429_CHECK", "CLOUD_BACKOFF_SLEEP", "CLOUD_BATCH_CALL", "CLOUD_SESSION_REUSE",
    "LOCAL_API_READ"]

/-- The marker of a code pattern, trimmed. -/
def CodeEvidence.detectorMarker (item : CodeEvidence) : String :=
  upper (strip (firstText [item.effectiveTypedAnchor.getD "", item.typedAnchor, item.pattern]))

/-- The marker that the pattern of a test hints at. -/
def TestEvidence.detectorMarker (item : TestEvidence) : String :=
  (testToMarkerHint.lookup (upper (strip item.pattern))).getD ""

/-- How a tally reads the evidence: the marker of a code pattern, and that of a test. -/
structure Reading where
  code : CodeEvidence → String
  test : TestEvidence → String

def gateReading : Reading := ⟨CodeEvidence.marker, TestEvidence.marker⟩

def detectorReading : Reading := ⟨CodeEvidence.detectorMarker, TestEvidence.detectorMarker⟩

/-- The amounts that the evidence adds up under its markers. -/
def Reading.rows (reading : Reading) (bank : EvidenceBank) : List (String × (Channel → ℚ)) :=
  bank.code.map (fun item => (reading.code item, item.amount)) ++
    (bank.tests.filter (reading.test · ≠ "")).map (fun item => (reading.test item, item.amount)) ++
    (bank.docs.flatMap docMarkers).map (fun marker => (marker, docAmount))

def Reading.counts (reading : Reading) (bank : EvidenceBank) : Counts :=
  (reading.rows bank).foldl OrderedDict.bump .empty

def detectorCounts (bank : EvidenceBank) : Counts := detectorReading.counts bank

/-- The gate counts in the same way what it reads. -/
theorem supportCounts_eq (bank : EvidenceBank) : supportCounts bank = gateReading.counts bank := rfl

/-- Is there enough evidence for the detector of a marker? -/
def markerSupported (counts : Counts) (marker : String) : Bool :=
  let bucket := counts.valueAt marker
  let store := counts.valueAt "CLOUD_SESSION_STORE"
  let use := counts.valueAt "CLOUD_SESSION_USE"
  if marker = "CLOUD_SESSION_REUSE" then 1 ≤ store .codeStrong && 1 ≤ use .codeStrong
  else if detectorStrictMarkers.contains marker then
    (1 ≤ bucket .codeStrong && 1 ≤ bucket .test) || 2 ≤ bucket .code ||
      (1 ≤ bucket .codeStrong && 1 ≤ bucket .doc) || (1 ≤ bucket .test && 1 ≤ bucket .doc) ||
      2 ≤ bucket .doc
  else
    1 ≤ bucket .codeStrong || 1 ≤ bucket .code || (1 ≤ bucket .codeStrong && 1 ≤ bucket .test)

/-! ## Amounts -/

/-- Amounts that are nothing or one at least add up to one when one of them is not nothing. -/
theorem one_le_sum_iff {α : Type*} {f : α → ℚ} {l : List α} (h : ∀ a ∈ l, f a = 0 ∨ 1 ≤ f a) :
    1 ≤ (l.map f).sum ↔ ∃ a ∈ l, f a ≠ 0 := by
  constructor
  · intro hsum
    by_contra hnone
    push Not at hnone
    have hzero : (l.map f).sum = 0 :=
      List.sum_eq_zero fun x hx => by
        obtain ⟨a, ha, rfl⟩ := List.mem_map.1 hx
        exact hnone a ha
    rw [hzero] at hsum
    exact absurd hsum (by norm_num)
  · rintro ⟨a, ha, hne⟩
    have hnonneg : ∀ x ∈ l.map f, 0 ≤ x := by
      intro x hx
      obtain ⟨b, hb, rfl⟩ := List.mem_map.1 hx
      rcases h b hb with hb | hb
      · exact hb.ge
      · exact zero_le_one.trans hb
    exact ((h a ha).resolve_left hne).trans
      (List.single_le_sum hnonneg _ (List.mem_map_of_mem ha))

theorem CodeEvidence.one_le_frequency (item : CodeEvidence) : (1 : ℚ) ≤ item.frequency := by
  exact_mod_cast item.frequency_pos

theorem TestEvidence.one_le_frequency (item : TestEvidence) : (1 : ℚ) ≤ item.frequency := by
  exact_mod_cast item.frequency_pos

/-! ## Tallies -/

/-- How often the documents count for a marker. -/
def docCount (bank : EvidenceBank) (marker : String) : ℕ :=
  (bank.docs.flatMap docMarkers).count marker

namespace Reading

variable (reading : Reading) (bank : EvidenceBank) (marker : String)

/-- The code that is read as a marker. -/
def codeOf : List CodeEvidence := bank.code.filter (reading.code · = marker)

/-- Some code that is read as the marker is more than a weak text match. -/
def Strong : Prop := ∃ item ∈ reading.codeOf bank marker, upper item.signalStrength ≠ "TEXT_WEAK"

/-- A test is read as the marker. -/
def Tested : Prop := ∃ item ∈ bank.tests, reading.test item = marker

/-- What the code that is read as the marker weighs. -/
def weight : ℚ := ((reading.codeOf bank marker).map (·.amount .code)).sum

theorem counts_apply (h : marker ≠ "") (channel : Channel) :
    (reading.counts bank).valueAt marker channel =
      ((reading.codeOf bank marker).map (·.amount channel)).sum +
        ((bank.tests.filter (reading.test · = marker)).map (·.amount channel)).sum +
        docCount bank marker * docAmount channel := by
  have htests : (bank.tests.filter (reading.test · ≠ "")).filter (reading.test · = marker) =
      bank.tests.filter (reading.test · = marker) := by
    rw [List.filter_filter]
    refine List.filter_congr fun item _ => ?_
    by_cases hm : reading.test item = marker
    · simp [hm, h]
    · simp [hm]
  have hdocs : (((bank.docs.flatMap docMarkers).filter fun other => other = marker).map
      fun _ => docAmount).sum = docCount bank marker • docAmount := by
    rw [List.map_const', List.sum_replicate, ← List.countP_eq_length_filter]
    rfl
  have hempty : (OrderedDict.empty : Counts).valueAt marker = 0 := rfl
  rw [counts, OrderedDict.valueAt_foldl_bump, hempty, zero_add, rows, List.map_append,
    List.map_append, List.sum_append, List.sum_append, OrderedDict.sum_map_ite_key,
    OrderedDict.sum_map_ite_key, OrderedDict.sum_map_ite_key, htests, hdocs, Pi.add_apply,
    Pi.add_apply, Pi.list_sum_apply, Pi.list_sum_apply, List.map_map, List.map_map, Pi.smul_apply,
    nsmul_eq_mul]
  rfl

theorem counts_code (h : marker ≠ "") :
    (reading.counts bank).valueAt marker .code = reading.weight bank marker := by
  rw [counts_apply _ _ _ h]
  simp [TestEvidence.amount, docAmount, weight]

theorem one_le_counts_codeStrong (h : marker ≠ "") :
    1 ≤ (reading.counts bank).valueAt marker .codeStrong ↔ reading.Strong bank marker := by
  have hcode : (reading.counts bank).valueAt marker .codeStrong =
      ((reading.codeOf bank marker).map (·.amount .codeStrong)).sum := by
    rw [counts_apply _ _ _ h]
    simp [TestEvidence.amount, docAmount]
  rw [hcode, one_le_sum_iff]
  · refine exists_congr fun item => and_congr_right fun _ => ?_
    have hpos : (item.frequency : ℚ) ≠ 0 := (zero_lt_one.trans_le item.one_le_frequency).ne'
    by_cases hweak : upper item.signalStrength = "TEXT_WEAK"
    · simp [CodeEvidence.amount, hweak]
    · simp [CodeEvidence.amount, hweak, hpos]
  · intro item _
    rw [CodeEvidence.amount]
    split_ifs
    · exact Or.inr item.one_le_frequency
    · exact Or.inl rfl

theorem one_le_counts_test (h : marker ≠ "") :
    1 ≤ (reading.counts bank).valueAt marker .test ↔ reading.Tested bank marker := by
  have htest : (reading.counts bank).valueAt marker .test =
      ((bank.tests.filter (reading.test · = marker)).map (·.amount .test)).sum := by
    rw [counts_apply _ _ _ h]
    simp [CodeEvidence.amount, docAmount]
  rw [htest, one_le_sum_iff fun item _ => Or.inr item.one_le_frequency]
  simp only [List.mem_filter, decide_eq_true_eq, Tested]
  refine exists_congr fun item => and_iff_left ?_
  exact (zero_lt_one.trans_le item.one_le_frequency).ne'

theorem counts_doc (h : marker ≠ "") :
    (reading.counts bank).valueAt marker .doc = docCount bank marker := by
  rw [counts_apply _ _ _ h]
  simp [CodeEvidence.amount, TestEvidence.amount, docAmount]

/-- Code alone is enough for a marker that nothing has to confirm. -/
def Suffices : Prop := reading.Strong bank marker ∨ 1 ≤ reading.weight bank marker

/-- A strict marker needs strong code and a test, much code, or documents. -/
def Confirmed : Prop :=
  (reading.Strong bank marker ∧ reading.Tested bank marker) ∨ 2 ≤ reading.weight bank marker ∨
    (reading.Strong bank marker ∧ 1 ≤ docCount bank marker) ∨
    (reading.Tested bank marker ∧ 1 ≤ docCount bank marker) ∨ 2 ≤ docCount bank marker

end Reading

/-! ## What is asked for -/

section Thresholds

variable (bank : EvidenceBank) {marker : String}

/-- The markers that nothing has to confirm. -/
def plainProtocolMarkers : List String :=
  ["BLE_CONNECT", "BLE_DISCONNECT", "BLE_GATT_OP", "BLE_SCAN", "BLE_RETRY_OR_TIMEOUT",
    "CLOUD_HTTP_CALL", "CLOUD_TOKEN_REFRESH"]

/-- The markers about which both sides are strict. -/
def confirmedProtocolMarkers : List String :=
  ["CLOUD_429_CHECK", "CLOUD_BACKOFF_SLEEP", "CLOUD_BATCH_CALL"]

theorem strict_iff (reading : Reading) (h : marker ≠ "") :
    ((decide (1 ≤ (reading.counts bank).valueAt marker .codeStrong) &&
        decide (1 ≤ (reading.counts bank).valueAt marker .test)) ||
      decide (2 ≤ (reading.counts bank).valueAt marker .code) ||
      (decide (1 ≤ (reading.counts bank).valueAt marker .codeStrong) &&
        decide (1 ≤ (reading.counts bank).valueAt marker .doc)) ||
      (decide (1 ≤ (reading.counts bank).valueAt marker .test) &&
        decide (1 ≤ (reading.counts bank).valueAt marker .doc)) ||
      decide (2 ≤ (reading.counts bank).valueAt marker .doc)) = true ↔
      reading.Confirmed bank marker := by
  simp only [Bool.or_eq_true, Bool.and_eq_true, decide_eq_true_eq, or_assoc]
  rw [reading.one_le_counts_codeStrong bank marker h, reading.one_le_counts_test bank marker h,
    reading.counts_code bank marker h, reading.counts_doc bank marker h, Nat.one_le_cast,
    Nat.ofNat_le_cast]
  rfl

theorem lenient_iff (reading : Reading) (h : marker ≠ "") :
    (decide (1 ≤ (reading.counts bank).valueAt marker .codeStrong) ||
      decide (1 ≤ (reading.counts bank).valueAt marker .code) ||
      (decide (1 ≤ (reading.counts bank).valueAt marker .codeStrong) &&
        decide (1 ≤ (reading.counts bank).valueAt marker .test))) = true ↔
      reading.Suffices bank marker := by
  simp only [Bool.or_eq_true, Bool.and_eq_true, decide_eq_true_eq]
  rw [reading.one_le_counts_codeStrong bank marker h, reading.counts_code bank marker h]
  refine or_iff_left_of_imp fun hstrong => Or.inl hstrong.1

theorem session_iff (reading : Reading) :
    (decide (1 ≤ (reading.counts bank).valueAt "CLOUD_SESSION_STORE" .codeStrong) &&
      decide (1 ≤ (reading.counts bank).valueAt "CLOUD_SESSION_USE" .codeStrong)) = true ↔
      reading.Strong bank "CLOUD_SESSION_STORE" ∧ reading.Strong bank "CLOUD_SESSION_USE" := by
  rw [Bool.and_eq_true, decide_eq_true_eq, decide_eq_true_eq,
    reading.one_le_counts_codeStrong bank _ (by decide),
    reading.one_le_counts_codeStrong bank _ (by decide)]

/-- What a tally asks for with given strict markers. -/
def Reading.Enough (reading : Reading) (strict : List String) (marker : String) : Prop :=
  if marker = "CLOUD_SESSION_REUSE" then
    reading.Strong bank "CLOUD_SESSION_STORE" ∧ reading.Strong bank "CLOUD_SESSION_USE"
  else if strict.contains marker then reading.Confirmed bank marker
  else reading.Suffices bank marker

theorem evidenceThresholdMet_iff (h : marker ≠ "") :
    evidenceThresholdMet (supportCounts bank) marker = true ↔
      gateReading.Enough bank strictProtocolThresholdMarkers marker := by
  rw [evidenceThresholdMet, Reading.Enough, supportCounts_eq]
  split_ifs
  · exact session_iff bank gateReading
  · exact strict_iff bank gateReading h
  · exact lenient_iff bank gateReading h

theorem markerSupported_iff (h : marker ≠ "") :
    markerSupported (detectorCounts bank) marker = true ↔
      detectorReading.Enough bank detectorStrictMarkers marker := by
  rw [markerSupported, Reading.Enough, detectorCounts]
  split_ifs
  · exact session_iff bank detectorReading
  · exact strict_iff bank detectorReading h
  · exact lenient_iff bank detectorReading h

end Thresholds

/-! ## What the readings share -/

section Readings

variable {bank : EvidenceBank} {marker : String}

/-- Trimming takes no code away from a marker that is trimmed itself. -/
theorem codeOf_sublist (h : strip marker = marker) :
    (gateReading.codeOf bank marker).Sublist (detectorReading.codeOf bank marker) := by
  refine List.monotone_filter_right _ fun item hitem => ?_
  have hmarker : item.marker = marker := of_decide_eq_true hitem
  rw [CodeEvidence.marker] at hmarker
  refine decide_eq_true ?_
  show item.detectorMarker = marker
  rw [CodeEvidence.detectorMarker, ← strip_upper, hmarker, h]

theorem strong_of_gate (h : strip marker = marker) (hstrong : gateReading.Strong bank marker) :
    detectorReading.Strong bank marker := by
  obtain ⟨item, hitem, hstrong⟩ := hstrong
  exact ⟨item, (codeOf_sublist h).mem hitem, hstrong⟩

theorem suffices_of_gate (h : strip marker = marker) (hcode : gateReading.Suffices bank marker) :
    detectorReading.Suffices bank marker := by
  refine hcode.imp (strong_of_gate h) fun hweight => hweight.trans ?_
  refine ((codeOf_sublist h).map _).sum_le_sum fun x hx => ?_
  obtain ⟨item, -, rfl⟩ := List.mem_map.1 hx
  exact item.amount_nonneg .code

/-- No document counts for the local interface. -/
theorem docCount_local : docCount bank "LOCAL_API_READ" = 0 := by
  have htable : ∀ entry ∈ docPolicyMarkerSupport, "LOCAL_API_READ" ∉ entry.2 := by decide +kernel
  rw [docCount, List.count_eq_zero, List.mem_flatMap]
  rintro ⟨row, -, hrow⟩
  have hlookup : "LOCAL_API_READ" ∉
      (docPolicyMarkerSupport.lookup (upper row.typedAnchor)).getD [] := by
    cases hmarkers : docPolicyMarkerSupport.lookup (upper row.typedAnchor) with
    | none => exact List.not_mem_nil
    | some markers => exact htable _ (mem_of_lookup hmarkers)
  have hif : ∀ (b : Bool) (markers : List String), "LOCAL_API_READ" ∉ markers →
      "LOCAL_API_READ" ∉ if b then markers else [] := by
    intro b markers hmarkers
    cases b
    · exact List.not_mem_nil
    · exact hmarkers
  simp only [docMarkers, List.mem_append] at hrow
  rcases hrow with ((hrow | hrow) | hrow) | hrow
  · exact hlookup hrow
  · exact hif _ _ (by decide) hrow
  · exact hif _ _ (by decide) hrow
  · refine hif _ _ ?_ hrow
    rw [List.mem_append, List.mem_append, not_or, not_or]
    exact ⟨⟨hif _ _ (by decide), hif _ _ (by decide)⟩, hif _ _ (by decide)⟩

/-- No test hints at the local interface. -/
theorem not_tested_local : ¬ detectorReading.Tested bank "LOCAL_API_READ" := by
  have htable : ∀ entry ∈ testToMarkerHint, entry.2 ≠ "LOCAL_API_READ" := by decide +kernel
  rintro ⟨item, -, hitem⟩
  simp only [detectorReading, TestEvidence.detectorMarker] at hitem
  cases hmarker : testToMarkerHint.lookup (upper (strip item.pattern)) with
  | none =>
    rw [hmarker] at hitem
    exact absurd hitem (by decide)
  | some marker =>
    rw [hmarker] at hitem
    exact htable _ (mem_of_lookup hmarker) hitem

end Readings

/-! ## Agreement -/

/-- No evidence that the two sides read differently decides on a marker. -/
structure SameSupport (bank : EvidenceBank) : Prop where
  /-- No anchor with blanks around it makes the code enough. -/
  plain : ∀ marker ∈ plainProtocolMarkers, detectorReading.Suffices bank marker →
    gateReading.Suffices bank marker
  /-- The code for the local interface weighs two as soon as it is enough for the gate. -/
  localRead : gateReading.Suffices bank "LOCAL_API_READ" ↔
    2 ≤ detectorReading.weight bank "LOCAL_API_READ"
  /-- No anchor with blanks around it completes the code of a session. -/
  session : detectorReading.Strong bank "CLOUD_SESSION_STORE" →
    detectorReading.Strong bank "CLOUD_SESSION_USE" →
    gateReading.Strong bank "CLOUD_SESSION_STORE" ∧ gateReading.Strong bank "CLOUD_SESSION_USE"
  /-- Without documents it is the code, or strong code and a test, on both sides. -/
  undocumented : ∀ marker ∈ confirmedProtocolMarkers, docCount bank marker = 0 →
    (((gateReading.Strong bank marker ∧ gateReading.Tested bank marker) ∨
        2 ≤ gateReading.weight bank marker) ↔
      ((detectorReading.Strong bank marker ∧ detectorReading.Tested bank marker) ∨
        2 ≤ detectorReading.weight bank marker))
  /-- With one document it is the code, or a test, on both sides. -/
  documentedOnce : ∀ marker ∈ confirmedProtocolMarkers, docCount bank marker = 1 →
    ((gateReading.Strong bank marker ∨ gateReading.Tested bank marker ∨
        2 ≤ gateReading.weight bank marker) ↔
      (detectorReading.Strong bank marker ∨ detectorReading.Tested bank marker ∨
        2 ≤ detectorReading.weight bank marker))

variable {bank : EvidenceBank}

theorem confirmed_local_iff :
    detectorReading.Confirmed bank "LOCAL_API_READ" ↔
      2 ≤ detectorReading.weight bank "LOCAL_API_READ" := by
  rw [Reading.Confirmed, docCount_local]
  simp [not_tested_local]

theorem Reading.confirmed_of_docCount_eq_zero {reading : Reading} {marker : String}
    (h : docCount bank marker = 0) : reading.Confirmed bank marker ↔
      (reading.Strong bank marker ∧ reading.Tested bank marker) ∨
        2 ≤ reading.weight bank marker := by
  rw [Confirmed, h]
  simp

theorem Reading.confirmed_of_docCount_eq_one {reading : Reading} {marker : String}
    (h : docCount bank marker = 1) : reading.Confirmed bank marker ↔
      reading.Strong bank marker ∨ reading.Tested bank marker ∨
        2 ≤ reading.weight bank marker := by
  rw [Confirmed, h]
  simp only [le_refl, and_true]
  constructor
  · rintro (⟨hstrong, -⟩ | hweight | hstrong | htested | hdocs)
    · exact Or.inl hstrong
    · exact Or.inr (Or.inr hweight)
    · exact Or.inl hstrong
    · exact Or.inr (Or.inl htested)
    · omega
  · rintro (hstrong | htested | hweight)
    · exact Or.inr (Or.inr (Or.inl hstrong))
    · exact Or.inr (Or.inr (Or.inr (Or.inl htested)))
    · exact Or.inr (Or.inl hweight)

theorem Reading.confirmed_of_two_le {reading : Reading} {marker : String}
    (h : 2 ≤ docCount bank marker) : reading.Confirmed bank marker :=
  Or.inr (Or.inr (Or.inr (Or.inr h)))

/-- The markers for which there are templates, by what is asked for. -/
theorem forall_templates_iff {P : String → Prop} :
    (∀ marker ∈ protocolDetectorTemplates, P marker) ↔
      (∀ marker ∈ plainProtocolMarkers, P marker) ∧
        (∀ marker ∈ confirmedProtocolMarkers, P marker) ∧ P "CLOUD_SESSION_REUSE" ∧
        P "LOCAL_API_READ" := by
  simp only [protocolDetectorTemplates, plainProtocolMarkers, confirmedProtocolMarkers,
    List.forall_mem_cons]
  tauto

theorem enough_session (reading : Reading) (strict : List String) :
    reading.Enough bank strict "CLOUD_SESSION_REUSE" ↔
      reading.Strong bank "CLOUD_SESSION_STORE" ∧ reading.Strong bank "CLOUD_SESSION_USE" := by
  rw [Reading.Enough, if_pos rfl]

theorem enough_strict {strict : List String} {marker : String} (reading : Reading)
    (hsession : marker ≠ "CLOUD_SESSION_REUSE") (h : strict.contains marker = true) :
    reading.Enough bank strict marker ↔ reading.Confirmed bank marker := by
  rw [Reading.Enough, if_neg hsession, if_pos h]

theorem enough_lenient {strict : List String} {marker : String} (reading : Reading)
    (hsession : marker ≠ "CLOUD_SESSION_REUSE") (h : strict.contains marker = false) :
    reading.Enough bank strict marker ↔ reading.Suffices bank marker := by
  rw [Reading.Enough, if_neg hsession, h]
  rfl

theorem agree_plain_iff {marker : String} (h : marker ∈ plainProtocolMarkers) :
    (gateReading.Enough bank strictProtocolThresholdMarkers marker ↔
        detectorReading.Enough bank detectorStrictMarkers marker) ↔
      (detectorReading.Suffices bank marker → gateReading.Suffices bank marker) := by
  have htable : ∀ marker ∈ plainProtocolMarkers, marker ≠ "CLOUD_SESSION_REUSE" ∧
      strictProtocolThresholdMarkers.contains marker = false ∧
      detectorStrictMarkers.contains marker = false ∧ strip marker = marker := by decide +kernel
  obtain ⟨hsession, hgate, hdetector, hstrip⟩ := htable marker h
  rw [enough_lenient gateReading hsession hgate, enough_lenient detectorReading hsession hdetector]
  exact ⟨fun hiff => hiff.2, fun hcode => ⟨suffices_of_gate hstrip, hcode⟩⟩

theorem agree_confirmed_iff {marker : String} (h : marker ∈ confirmedProtocolMarkers) :
    (gateReading.Enough bank strictProtocolThresholdMarkers marker ↔
        detectorReading.Enough bank detectorStrictMarkers marker) ↔
      (gateReading.Confirmed bank marker ↔ detectorReading.Confirmed bank marker) := by
  have htable : ∀ marker ∈ confirmedProtocolMarkers, marker ≠ "CLOUD_SESSION_REUSE" ∧
      strictProtocolThresholdMarkers.contains marker = true ∧
      detectorStrictMarkers.contains marker = true := by decide +kernel
  obtain ⟨hsession, hgate, hdetector⟩ := htable marker h
  rw [enough_strict gateReading hsession hgate, enough_strict detectorReading hsession hdetector]

/-- A session that is supported for the gate is supported for the builder. -/
theorem agree_session_iff :
    (gateReading.Enough bank strictProtocolThresholdMarkers "CLOUD_SESSION_REUSE" ↔
        detectorReading.Enough bank detectorStrictMarkers "CLOUD_SESSION_REUSE") ↔
      (detectorReading.Strong bank "CLOUD_SESSION_STORE" →
        detectorReading.Strong bank "CLOUD_SESSION_USE" →
        gateReading.Strong bank "CLOUD_SESSION_STORE" ∧
          gateReading.Strong bank "CLOUD_SESSION_USE") := by
  have hstore : strip "CLOUD_SESSION_STORE" = "CLOUD_SESSION_STORE" := by decide +kernel
  have huse : strip "CLOUD_SESSION_USE" = "CLOUD_SESSION_USE" := by decide +kernel
  rw [enough_session, enough_session]
  refine ⟨fun hiff hs hu => hiff.2 ⟨hs, hu⟩, fun hboth => ⟨?_, fun h => hboth h.1 h.2⟩⟩
  exact And.imp (strong_of_gate hstore) (strong_of_gate huse)

theorem agree_local_iff :
    (gateReading.Enough bank strictProtocolThresholdMarkers "LOCAL_API_READ" ↔
        detectorReading.Enough bank detectorStrictMarkers "LOCAL_API_READ") ↔
      (gateReading.Suffices bank "LOCAL_API_READ" ↔
        2 ≤ detectorReading.weight bank "LOCAL_API_READ") := by
  rw [enough_lenient gateReading (by decide) (by decide +kernel),
    enough_strict detectorReading (by decide) (by decide +kernel), confirmed_local_iff]

/-- The gate and the builder agree on every marker exactly when no evidence that they read
differently decides. -/
theorem detectors_agree_iff (bank : EvidenceBank) :
    (∀ marker ∈ protocolDetectorTemplates, evidenceThresholdMet (supportCounts bank) marker = true ↔
      markerSupported (detectorCounts bank) marker = true) ↔ SameSupport bank := by
  have hnonempty : ∀ marker ∈ protocolDetectorTemplates, marker ≠ "" := by decide +kernel
  have henough : (∀ marker ∈ protocolDetectorTemplates,
      (evidenceThresholdMet (supportCounts bank) marker = true ↔
        markerSupported (detectorCounts bank) marker = true)) ↔
      ∀ marker ∈ protocolDetectorTemplates,
        (gateReading.Enough bank strictProtocolThresholdMarkers marker ↔
          detectorReading.Enough bank detectorStrictMarkers marker) := by
    refine forall₂_congr fun marker hmarker => ?_
    rw [evidenceThresholdMet_iff bank (hnonempty marker hmarker),
      markerSupported_iff bank (hnonempty marker hmarker)]
  rw [henough, forall_templates_iff, agree_session_iff, agree_local_iff]
  constructor
  · rintro ⟨hplain, hconfirmed, hsession, hlocal⟩
    refine ⟨fun marker h => (agree_plain_iff h).1 (hplain marker h), hlocal, hsession,
      fun marker h hdocs => ?_, fun marker h hdocs => ?_⟩
    · rw [← Reading.confirmed_of_docCount_eq_zero hdocs,
        ← Reading.confirmed_of_docCount_eq_zero hdocs]
      exact (agree_confirmed_iff h).1 (hconfirmed marker h)
    · rw [← Reading.confirmed_of_docCount_eq_one hdocs,
        ← Reading.confirmed_of_docCount_eq_one hdocs]
      exact (agree_confirmed_iff h).1 (hconfirmed marker h)
  · intro hsame
    refine ⟨fun marker h => (agree_plain_iff h).2 (hsame.plain marker h),
      fun marker h => (agree_confirmed_iff h).2 ?_, hsame.session, hsame.localRead⟩
    -- with two documents both sides are content, with fewer the rest decides
    rcases Nat.lt_or_ge (docCount bank marker) 2 with hdocs | hdocs
    · obtain hdocs | hdocs : docCount bank marker = 0 ∨ docCount bank marker = 1 := by omega
      · rw [Reading.confirmed_of_docCount_eq_zero hdocs, Reading.confirmed_of_docCount_eq_zero hdocs]
        exact hsame.undocumented marker h hdocs
      · rw [Reading.confirmed_of_docCount_eq_one hdocs, Reading.confirmed_of_docCount_eq_one hdocs]
        exact hsame.documentedOnce marker h hdocs
    · exact iff_of_true (Reading.confirmed_of_two_le hdocs) (Reading.confirmed_of_two_le hdocs)

/-- One strong match at the local interface is enough for the gate, and not for a detector. -/
def localReadBank : EvidenceBank where
  code := batchBank.code.map fun item =>
    { item with pattern := "LOCAL_API_READ", typedAnchor := "LOCAL_API_READ" }

theorem detectors_disagree :
    ¬ ∀ bank : EvidenceBank, ∀ marker ∈ protocolDetectorTemplates,
      evidenceThresholdMet (supportCounts bank) marker = true ↔
        markerSupported (detectorCounts bank) marker = true := by
  intro hall
  have hiff := hall localReadBank "LOCAL_API_READ" (by decide)
  have hgate : evidenceThresholdMet (supportCounts localReadBank) "LOCAL_API_READ" = true := by
    decide +kernel
  have hdetector : markerSupported (detectorCounts localReadBank) "LOCAL_API_READ" = false := by
    decide +kernel
  rw [hgate, hdetector] at hiff
  simp at hiff

end FloWeaver.Profile
