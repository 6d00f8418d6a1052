import FloWeaver.Micro.Candidates

/-!
# The choice among the corridors is greedy

The loop over the pool is a greedy selection by saving, and conflicts do not depend on the order of
the two candidates.  So nothing is lost, those that are accepted go together, and a candidate gives
way only to one that saves as much.

* `candidateConflictReasons_swap` — two candidates conflict in both orders, for the same reasons.
* `selects_of_foldlM` — the loop is a greedy selection.
* `resolveCombinedCandidates_correct` — what a decision is.
-/

namespace FloWeaver.Micro

open Py

/-! ## Conflicts are mutual -/

theorem meets_comm (left right : List String) : meets left right = meets right left := by
  rw [Bool.eq_iff_iff]
  simp only [meets, List.any_eq_true, List.contains_iff_mem]
  exact ⟨fun ⟨a, ha, hb⟩ => ⟨a, hb, ha⟩, fun ⟨a, ha, hb⟩ => ⟨a, hb, ha⟩⟩

theorem head?_le_getLast?_batchOrdinals {batchIds : List String} {first last : ℤ}
    (hfirst : (batchOrdinals batchIds).head? = some first)
    (hlast : (batchOrdinals batchIds).getLast? = some last) : first ≤ last := by
  have hsorted : (batchOrdinals batchIds).Pairwise (· ≤ ·) := pairwise_sortedBy id _
  cases hordinals : batchOrdinals batchIds with
  | nil => rw [hordinals] at hfirst; cases hfirst
  | cons x rest =>
    rw [hordinals] at hfirst hlast hsorted
    obtain rfl := Option.some.inj hfirst
    rcases List.mem_cons.1 (List.mem_of_getLast? hlast) with rfl | hmem
    · exact le_rfl
    · exact (List.pairwise_cons.1 hsorted).1 last hmem

theorem rangesAdjacentOrOverlap_comm (left right : List String) (gapThreshold : ℤ) :
    rangesAdjacentOrOverlap left right gapThreshold =
      rangesAdjacentOrOverlap right left gapThreshold := by
  cases hlf : (batchOrdinals left).head? <;> cases hll : (batchOrdinals left).getLast? <;>
    cases hrf : (batchOrdinals right).head? <;> cases hrl : (batchOrdinals right).getLast? <;>
    simp only [rangesAdjacentOrOverlap, hlf, hll, hrf, hrl]
  have hleft := head?_le_getLast?_batchOrdinals hlf hll
  have hright := head?_le_getLast?_batchOrdinals hrf hrl
  simp only [Bool.and_eq_true, decide_eq_true_eq]
  split_ifs <;> first | rfl | omega

variable {left right candidate : CombinedCandidate} {policy : CombinedMicroRefinementPolicy}

/-- The texts of a domain, or else it is nothing to go through. -/
theorem domainTexts_cases (candidate : CombinedCandidate) (domain : String) :
    (∃ texts, domainTexts candidate domain = .ok texts) ∨
      domainTexts candidate domain = .error .typeError := by
  rw [domainTexts]
  cases candidate.resourceDomains.getD domain (.list []) with
  | list | str | dict => exact .inl ⟨_, rfl⟩
  | none | bool | int | float => exact .inr rfl

theorem domainsMeet_comm (left right : CombinedCandidate) (domain : String) :
    domainsMeet left right domain = domainsMeet right left domain := by
  rw [domainsMeet, domainsMeet]
  obtain ⟨l, hl⟩ | hl := domainTexts_cases left domain <;>
    obtain ⟨r, hr⟩ | hr := domainTexts_cases right domain <;> rw [hl, hr]
  · exact congrArg Except.ok (meets_comm l r)
  · rfl
  · rfl

/-- Two candidates conflict in both orders, for the same reasons. -/
theorem candidateConflictReasons_swap (left right : CombinedCandidate)
    (policy : CombinedMicroRefinementPolicy) :
    candidateConflictReasons left right policy = candidateConflictReasons right left policy := by
  have hdomains : candidateResourceDomainConflictReasons left right policy =
      candidateResourceDomainConflictReasons right left policy := by
    by_cases hsource : left.source = right.source
    · simp only [candidateResourceDomainConflictReasons, hsource,
        rangesAdjacentOrOverlap_comm left.batchIds, domainsMeet_comm left right]
    · rw [candidateResourceDomainConflictReasons, candidateResourceDomainConflictReasons,
        if_pos hsource, if_pos (Ne.symm hsource)]
  rw [candidateConflictReasons, candidateConflictReasons, hdomains, meets_comm left.batchIds,
    meets_comm left.actionIds]

/-! ## The loop is a greedy selection -/

/-- Two candidates go together. -/
def Clear (policy : CombinedMicroRefinementPolicy) (left right : CombinedCandidate) : Prop :=
  candidateConflictReasons left right policy = .ok []

/-- Two candidates do not go together. -/
def Clash (policy : CombinedMicroRefinementPolicy) (left right : CombinedCandidate) : Prop :=
  ∃ reasons, reasons ≠ [] ∧ candidateConflictReasons left right policy = .ok reasons

/-- A candidate that is compared with others: validated as far as this counts, and faster. -/
def Eligible (policy : CombinedMicroRefinementPolicy) (candidate : CombinedCandidate) : Prop :=
  (policy.requireComponentValidation → candidate.validationPassed) ∧ 0 < candidate.latencySavedMs

theorem Clear.symm (h : Clear policy left right) : Clear policy right left :=
  (candidateConflictReasons_swap right left policy).trans h

theorem firstWinner_none {accepted : List CombinedCandidate}
    (h : firstWinner policy candidate accepted = .ok none) :
    ∀ existing ∈ accepted, Clear policy existing candidate := by
  induction accepted with
  | nil => simp
  | cons existing rest ih =>
    rw [firstWinner] at h
    cases hreasons : candidateConflictReasons existing candidate policy with
    | error e => rw [hreasons] at h; cases h
    | ok reasons =>
      rw [hreasons] at h
      change (if reasons = [] then _ else _) = _ at h
      split_ifs at h with hnone
      · subst hnone
        exact List.forall_mem_cons.2 ⟨hreasons, ih h⟩
      · cases h

theorem firstWinner_some {accepted : List CombinedCandidate} {winner : CombinedCandidate}
    {reasons : List String}
    (h : firstWinner policy candidate accepted = .ok (some (winner, reasons))) :
    winner ∈ accepted ∧ Clash policy winner candidate := by
  induction accepted with
  | nil => cases h
  | cons existing rest ih =>
    rw [firstWinner] at h
    cases hreasons : candidateConflictReasons existing candidate policy with
    | error e => rw [hreasons] at h; cases h
    | ok found =>
      rw [hreasons] at h
      change (if found = [] then _ else _) = _ at h
      split_ifs at h with hnone
      · obtain ⟨hmem, hclash⟩ := ih h
        exact ⟨List.mem_cons_of_mem _ hmem, hclash⟩
      · obtain ⟨rfl, rfl⟩ : existing = winner ∧ found = reasons := by
          simpa using Option.some.inj (Except.ok.inj h)
        exact ⟨List.mem_cons_self, found, hnone, hreasons⟩

/-- One step takes the candidate or leaves it, as a greedy selection does. -/
theorem selects_step {seen : List CombinedCandidate} {decision next : CombinedDecision}
    (h : Greedy.Selects (Eligible policy) (Clear policy) (Clash policy) seen decision.accepted
      decision.rejected)
    (hstep : resolveCandidate policy decision candidate = .ok next) :
    Greedy.Selects (Eligible policy) (Clear policy) (Clash policy) (seen ++ [candidate])
      next.accepted next.rejected := by
  rw [resolveCandidate] at hstep
  split_ifs at hstep with hvalid hsaving
  · obtain rfl := Except.ok.inj hstep
    refine h.unfit fun helig => ?_
    rw [Bool.and_eq_true, Bool.not_eq_true'] at hvalid
    exact absurd (helig.1 hvalid.1) (by simp [hvalid.2])
  · obtain rfl := Except.ok.inj hstep
    exact h.unfit fun helig => helig.2.not_ge hsaving
  · have helig : Eligible policy candidate := by
      refine ⟨fun hrequire => ?_, lt_of_not_ge hsaving⟩
      simpa [hrequire] using hvalid
    cases hwinner : firstWinner policy candidate decision.accepted with
    | error e => rw [hwinner] at hstep; cases hstep
    | ok found =>
      rw [hwinner] at hstep
      cases found with
      | none =>
        obtain rfl := Except.ok.inj hstep
        exact h.take helig (firstWinner_none hwinner)
      | some found =>
        obtain rfl := Except.ok.inj hstep
        obtain ⟨hmem, hclash⟩ := firstWinner_some hwinner
        exact h.beaten hmem hclash

/-- The loop over the pool is a greedy selection. -/
theorem selects_of_foldlM {pool seen : List CombinedCandidate} {decision final : CombinedDecision}
    (h : Greedy.Selects (Eligible policy) (Clear policy) (Clash policy) seen decision.accepted
      decision.rejected)
    (hrun : pool.foldlM (resolveCandidate policy) decision = .ok final) :
    Greedy.Selects (Eligible policy) (Clear policy) (Clash policy) (seen ++ pool) final.accepted
      final.rejected := by
  induction pool generalizing seen decision with
  | nil =>
    obtain rfl := Except.ok.inj hrun
    rwa [List.append_nil]
  | cons candidate rest ih =>
    rw [List.foldlM_cons] at hrun
    cases hstep : resolveCandidate policy decision candidate with
    | error e => rw [hstep] at hrun; cases hrun
    | ok next =>
      rw [hstep] at hrun
      simpa using ih (selects_step h hstep) hrun

/-! ## The loop returns -/

/-- The resource domains that are compared are lists, texts or dicts. -/
def DomainsReadable (candidate : CombinedCandidate) : Prop :=
  ∀ domain ∈ ["session_groups", "device_ids", "host_keys", "endpoint_keys"],
    ∃ items, (candidate.resourceDomains.getD domain (.list [])).needItems = .ok items

theorem DomainsReadable.normalize (h : DomainsReadable candidate) :
    DomainsReadable (normalizeCandidate candidate) := by
  have hsame : (normalizeCandidate candidate).resourceDomains = candidate.resourceDomains := by
    simp only [CombinedCandidate.resourceDomains, normalizeCandidate]
  intro domain hdomain
  rw [hsame]
  exact h domain hdomain

theorem exists_domainsMeet (hleft : DomainsReadable left) (hright : DomainsReadable right)
    {domain : String}
    (hdomain : domain ∈ ["session_groups", "device_ids", "host_keys", "endpoint_keys"]) :
    ∃ found, domainsMeet left right domain = .ok found := by
  obtain ⟨l, hl⟩ := hleft domain hdomain
  obtain ⟨r, hr⟩ := hright domain hdomain
  rw [domainsMeet, domainTexts, domainTexts, hl, hr]
  exact ⟨_, rfl⟩

theorem exists_candidateConflictReasons (policy : CombinedMicroRefinementPolicy)
    (hleft : DomainsReadable left) (hright : DomainsReadable right) :
    ∃ reasons, candidateConflictReasons left right policy = .ok reasons := by
  obtain ⟨sessions, hsessions⟩ : ∃ found, domainsMeet left right "session_groups" = .ok found :=
    exists_domainsMeet hleft hright (by simp)
  obtain ⟨devices, hdevices⟩ : ∃ found, domainsMeet left right "device_ids" = .ok found :=
    exists_domainsMeet hleft hright (by simp)
  obtain ⟨hosts, hhosts⟩ : ∃ found, domainsMeet left right "host_keys" = .ok found :=
    exists_domainsMeet hleft hright (by simp)
  obtain ⟨endpoints, hendpoints⟩ : ∃ found, domainsMeet left right "endpoint_keys" = .ok found :=
    exists_domainsMeet hleft hright (by simp)
  have hdomains : ∃ domains,
      candidateResourceDomainConflictReasons left right policy = .ok domains := by
    simp only [candidateResourceDomainConflictReasons, hsessions, hdevices, hhosts, hendpoints]
    refine exists_ite_ok ⟨_, rfl⟩ (exists_ite_ok ⟨_, rfl⟩ ?_)
    -- each of the three kinds of domains is compared or not
    refine exists_ite_ok ?_ ?_ <;> refine exists_ite_ok ?_ ?_ <;>
      exact exists_ite_ok ⟨_, rfl⟩ ⟨_, rfl⟩
  exact exists_bind_ok hdomains fun domains _ => ⟨_, rfl⟩

theorem exists_firstWinner (policy : CombinedMicroRefinementPolicy) {accepted : List CombinedCandidate}
    (haccepted : ∀ existing ∈ accepted, DomainsReadable existing)
    (hcandidate : DomainsReadable candidate) :
    ∃ found, firstWinner policy candidate accepted = .ok found := by
  induction accepted with
  | nil => exact ⟨none, rfl⟩
  | cons existing rest ih =>
    obtain ⟨hexisting, hrest⟩ := List.forall_mem_cons.1 haccepted
    obtain ⟨reasons, hreasons⟩ := exists_candidateConflictReasons policy hexisting
      hcandidate
    obtain ⟨found, hfound⟩ := ih hrest
    rw [firstWinner, hreasons]
    change ∃ found, (if reasons = [] then _ else _) = _
    split_ifs
    · exact ⟨found, hfound⟩
    · exact ⟨_, rfl⟩

theorem exists_resolveCandidate (policy : CombinedMicroRefinementPolicy) {decision : CombinedDecision}
    (haccepted : ∀ existing ∈ decision.accepted, DomainsReadable existing)
    (hcandidate : DomainsReadable candidate) :
    ∃ next, resolveCandidate policy decision candidate = .ok next ∧
      ∀ existing ∈ next.accepted, DomainsReadable existing := by
  rw [resolveCandidate]
  split_ifs
  · exact ⟨_, rfl, haccepted⟩
  · exact ⟨_, rfl, haccepted⟩
  · obtain ⟨found, hfound⟩ := exists_firstWinner policy haccepted hcandidate
    rw [hfound]
    cases found with
    | none =>
      refine ⟨_, rfl, fun existing hmem => ?_⟩
      rcases List.mem_append.1 hmem with hmem | hmem
      · exact haccepted existing hmem
      · exact List.mem_singleton.1 hmem ▸ hcandidate
    | some found => exact ⟨_, rfl, haccepted⟩

theorem exists_foldlM (policy : CombinedMicroRefinementPolicy) {pool : List CombinedCandidate} {decision : CombinedDecision}
    (haccepted : ∀ existing ∈ decision.accepted, DomainsReadable existing)
    (hpool : ∀ candidate ∈ pool, DomainsReadable candidate) :
    ∃ final, pool.foldlM (resolveCandidate policy) decision = .ok final := by
  induction pool generalizing decision with
  | nil => exact ⟨decision, rfl⟩
  | cons candidate rest ih =>
    obtain ⟨hcandidate, hrest⟩ := List.forall_mem_cons.1 hpool
    obtain ⟨next, hnext, haccepted⟩ := exists_resolveCandidate policy haccepted
      hcandidate
    rw [List.foldlM_cons, hnext]
    exact ih haccepted hrest

/-! ## The decision -/

variable {ble api : List CombinedCandidate}

/-- Candidates that are told apart by source and corridor come in one order only. -/
theorem candidatePool_eq_of_perm {ble' api' : List CombinedCandidate}
    (hkeys : ((ble ++ api).map fun row => (normalizeCandidate row).key).Nodup)
    (h : (ble' ++ api').Perm (ble ++ api)) : candidatePool ble' api' = candidatePool ble api := by
  refine (sortedBy_eq_of_perm (h.map normalizeCandidate).symm fun a ha b hb hab => ?_).symm
  have hnodup : (((ble ++ api).map normalizeCandidate).map CombinedCandidate.key).Nodup := by
    rwa [List.map_map]
  exact List.inj_on_of_nodup_map hnodup ha hb (congrArg (fun k => (ofLex k).2) hab)

/-- The savings of the pool go down. -/
theorem pairwise_candidatePool (ble api : List CombinedCandidate) :
    (candidatePool ble api).Pairwise fun a b => b.latencySavedMs ≤ a.latencySavedMs := by
  refine (pairwise_sortedBy _ _).imp fun hle => ?_
  rcases Prod.Lex.toLex_le_toLex.1 hle with hlt | ⟨heq, -⟩ <;> omega

/-- A decision takes apart what was proposed: those that are accepted are faster and go together,
and one that was validated and faster gives way only to one that saves as much. -/
theorem resolveCombinedCandidates_correct
    (hkeys : ((ble ++ api).map fun row => (normalizeCandidate row).key).Nodup)
    (policy : CombinedMicroRefinementPolicy) :
    (∀ ble' api', (ble' ++ api').Perm (ble ++ api) →
      resolveCombinedCandidates policy ble' api' = resolveCombinedCandidates policy ble api) ∧
    ((∀ row ∈ ble ++ api, DomainsReadable row) →
      ∃ decision, resolveCombinedCandidates policy ble api = .ok decision) ∧
    ∀ decision, resolveCombinedCandidates policy ble api = .ok decision →
      (decision.accepted ++ decision.rejected).Perm ((ble ++ api).map normalizeCandidate) ∧
      (∀ row ∈ decision.accepted, 0 < row.latencySavedMs) ∧
      decision.accepted.Pairwise (fun a b => Clear policy a b ∧ Clear policy b a) ∧
      ∀ row ∈ decision.rejected, row.validationPassed → 0 < row.latencySavedMs →
        ∃ winner ∈ decision.accepted, Clash policy winner row ∧
          row.latencySavedMs ≤ winner.latencySavedMs := by
  refine ⟨fun ble' api' h => ?_, fun hreadable => ?_, fun decision hdecision => ?_⟩
  · rw [resolveCombinedCandidates, resolveCombinedCandidates, candidatePool_eq_of_perm hkeys h]
  · have hpool : ∀ row ∈ candidatePool ble api, DomainsReadable row := by
      intro row hrow
      obtain ⟨candidate, hmem, rfl⟩ := List.mem_map.1 (mem_sortedBy.1 hrow)
      exact (hreadable candidate hmem).normalize
    have hempty : ∀ row ∈ ({} : CombinedDecision).accepted, DomainsReadable row := by simp
    obtain ⟨final, hfinal⟩ := exists_foldlM policy hempty hpool
    rw [resolveCombinedCandidates, hfinal]
    exact ⟨_, rfl⟩
  · rw [resolveCombinedCandidates] at hdecision
    cases hfinal : (candidatePool ble api).foldlM (resolveCandidate policy) {} with
    | error e => rw [hfinal] at hdecision; cases hdecision
    | ok final =>
      rw [hfinal] at hdecision
      obtain rfl := Except.ok.inj hdecision
      have hselects := selects_of_foldlM .start hfinal
      rw [List.nil_append] at hselects
      have haccepted := sortedBy_perm CombinedCandidate.key final.accepted
      have hrejected := sortedBy_perm CombinedCandidate.key final.rejected
      have hpairwise : final.accepted.Pairwise fun a b => Clear policy a b ∧ Clear policy b a :=
        hselects.pairwise_clear.imp fun hclear => ⟨hclear, hclear.symm⟩
      refine ⟨?_, fun row hrow => ?_, ?_, fun row hrow hvalid hsaving => ?_⟩
      · exact ((haccepted.append hrejected).trans hselects.perm).trans (sortedBy_perm _ _)
      · exact (hselects.eligible_of_taken row (haccepted.mem_iff.1 hrow)).2
      · exact (haccepted.pairwise_iff fun hab => ⟨hab.2, hab.1⟩).2 hpairwise
      · obtain ⟨winner, hwinner, hclash⟩ := hselects.exists_clash (pairwise_candidatePool ble api)
          row (hrejected.mem_iff.1 hrow) ⟨fun _ => hvalid, hsaving⟩
        exact ⟨winner, haccepted.mem_iff.2 hwinner, hclash⟩

/-- Two corridors on the same batch. -/
def coverCorridor (corridorId actionId : String) : CombinedCandidate where
  source := "BLE"
  corridorId := corridorId
  batchIds := ["batch_1"]
  actionIds := [actionId]
  latencySavedMs := 100
  validationPassed := true

theorem resolveCombinedCandidates_correct_cover :
    (∃ decision, resolveCombinedCandidates {} [coverCorridor "c1" "open"]
      [coverCorridor "c2" "close"] = .ok decision ∧
      (decision.accepted ++ decision.rejected).Perm
        (([coverCorridor "c1" "open"] ++ [coverCorridor "c2" "close"]).map normalizeCandidate)) ∧
    resolveCombinedCandidates {} [coverCorridor "c2" "close"] [coverCorridor "c1" "open"] =
      resolveCombinedCandidates {} [coverCorridor "c1" "open"] [coverCorridor "c2" "close"] := by
  have hkeys : (([coverCorridor "c1" "open"] ++ [coverCorridor "c2" "close"]).map
      fun row => (normalizeCandidate row).key).Nodup := by decide +kernel
  obtain ⟨horder, hreturns, hdecision⟩ := resolveCombinedCandidates_correct hkeys {}
  have hreadable : ∀ row ∈ [coverCorridor "c1" "open"] ++ [coverCorridor "c2" "close"],
      DomainsReadable row := by
    intro row hrow domain hdomain
    have hempty : row.resourceDomains = [] := by
      simp only [List.cons_append, List.nil_append, List.mem_cons, List.not_mem_nil, or_false]
        at hrow
      rcases hrow with rfl | rfl <;> rfl
    rw [hempty]
    exact ⟨[], rfl⟩
  obtain ⟨decision, hok⟩ := hreturns hreadable
  exact ⟨⟨decision, hok, (hdecision decision hok).1⟩, horder _ _ (List.Perm.swap _ _ _)⟩

/-- Two corridors whose ids differ by a blank: the one that is listed first is accepted. -/
theorem resolveCombinedCandidates_blank_order :
    (([coverCorridor "c1" "open"] ++ [coverCorridor "c1 " "close"]).map
      fun row => (row.source, row.corridorId)).Nodup ∧
    resolveCombinedCandidates {} [coverCorridor "c1" "open", coverCorridor "c1 " "close"] [] ≠
      resolveCombinedCandidates {} [coverCorridor "c1 " "close", coverCorridor "c1" "open"] [] := by
  refine ⟨by decide, fun h => ?_⟩
  have haccepted := congrArg (fun outcome => outcome.toOption.map
    fun decision : CombinedDecision => decision.accepted.map (·.actionIds)) h
  exact absurd haccepted (by decide +kernel)

end FloWeaver.Micro
