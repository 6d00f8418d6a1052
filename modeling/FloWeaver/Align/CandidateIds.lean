import FloWeaver.Align.CandidateFacts
import FloWeaver.Align.Soundness

/-!
# Candidate ids

The id of a candidate joins the ids of its nodes with `->`, `=>` and commas.  When no node id has a
`>` or a comma, it tells the candidate.

* `PlainIds` — node ids without these characters.
* `join_injective` — a joined list of texts without commas.
* `idsTellApart_of_plainIds` — the candidates of two versions with plain ids.
-/

namespace FloWeaver.Align

open Py Ir

/-- No node id has a character that the ids of the candidates use. -/
def PlainIds (program : IRProgram) : Prop :=
  ∀ n ∈ program.order, '>' ∉ n.toList ∧ ',' ∉ n.toList

/-! ## Texts -/

theorem toList_join_cons (p q : String) (ps : List String) :
    (join "," (p :: q :: ps)).toList = p.toList ++ ',' :: (join "," (q :: ps)).toList := by
  simp [join]

/-- What stands before and after the first mark of a text. -/
theorem firstMark_inj {c : Char} {a b a' b' : List Char} (ha : c ∉ a) (ha' : c ∉ a')
    (h : a ++ c :: b = a' ++ c :: b') : a = a' ∧ b = b' := by
  induction a generalizing a' with
  | nil =>
    cases a' with
    | nil => exact ⟨rfl, (List.cons.inj h).2⟩
    | cons x a' => exact absurd ((List.cons.inj h).1 ▸ List.mem_cons_self) ha'
  | cons x a ih =>
    cases a' with
    | nil => exact absurd ((List.cons.inj h).1 ▸ List.mem_cons_self) ha
    | cons x' a' =>
      obtain ⟨rfl, hrest⟩ := List.cons.inj h
      obtain ⟨rfl, rfl⟩ := ih (fun hc => ha (List.mem_cons_of_mem _ hc))
        (fun hc => ha' (List.mem_cons_of_mem _ hc)) hrest
      exact ⟨rfl, rfl⟩

/-- A list of texts without commas can be read from its joined text. -/
theorem join_injective {l m : List String} (hl : l ≠ []) (hm : m ≠ [])
    (hcommaL : ∀ p ∈ l, ',' ∉ p.toList) (hcommaM : ∀ p ∈ m, ',' ∉ p.toList)
    (h : join "," l = join "," m) : l = m := by
  have h := congrArg String.toList h
  induction l generalizing m with
  | nil => exact absurd rfl hl
  | cons p ps ih =>
    obtain ⟨hp, hps⟩ := List.forall_mem_cons.1 hcommaL
    cases m with
    | nil => exact absurd rfl hm
    | cons q qs =>
      obtain ⟨hq, hqs⟩ := List.forall_mem_cons.1 hcommaM
      cases ps with
      | nil =>
        cases qs with
        | nil => rw [show p = q from String.toList_injective h]
        | cons q' qs =>
          rw [toList_join_cons] at h
          exact absurd (by rw [show p.toList = _ from h]; simp) hp
      | cons p' ps =>
        cases qs with
        | nil =>
          rw [toList_join_cons] at h
          exact absurd (by rw [show q.toList = _ from h.symm]; simp) hq
        | cons q' qs =>
          rw [toList_join_cons, toList_join_cons] at h
          obtain ⟨hhead, hrest⟩ := firstMark_inj hp hq h
          rw [String.toList_injective hhead, ih (List.cons_ne_nil _ _) (List.cons_ne_nil _ _) hps
            hqs (String.toList_injective hrest) hrest]

theorem not_mem_join {c : Char} (hc : c ≠ ',') {l : List String} (h : ∀ p ∈ l, c ∉ p.toList) :
    c ∉ (join "," l).toList := by
  induction l with
  | nil => simp [join]
  | cons p ps ih =>
    obtain ⟨hp, hps⟩ := List.forall_mem_cons.1 h
    cases ps with
    | nil => exact hp
    | cons q qs =>
      rw [toList_join_cons, List.mem_append, List.mem_cons, not_or, not_or]
      exact ⟨hp, hc, ih hps⟩

/-- What stands before and after the first arrow of a text. -/
theorem arrow_inj {a b a' b' : List Char} {c : Char} (hc : c ≠ '>') (ha : '>' ∉ a) (ha' : '>' ∉ a')
    (h : a ++ c :: '>' :: b = a' ++ c :: '>' :: b') : a = a' ∧ b = b' := by
  have h : (a ++ [c]) ++ '>' :: b = (a' ++ [c]) ++ '>' :: b' := by simpa using h
  have hnot : ∀ {x : List Char}, '>' ∉ x → '>' ∉ x ++ [c] := fun hx => by
    simp [hx, hc.symm]
  obtain ⟨hleft, hright⟩ := firstMark_inj (hnot ha) (hnot ha') h
  exact ⟨List.append_cancel_right hleft, hright⟩

/-- What stands before and after the last colon of a text. -/
theorem lastColon_inj {a b a' b' : List Char} (hb : ':' ∉ b) (hb' : ':' ∉ b')
    (h : a ++ ':' :: b = a' ++ ':' :: b') : a = a' ∧ b = b' := by
  have hreverse : b.reverse ++ ':' :: a.reverse = b'.reverse ++ ':' :: a'.reverse := by
    simpa using congrArg List.reverse h
  obtain ⟨hright, hleft⟩ :=
    firstMark_inj (mt List.mem_reverse.1 hb) (mt List.mem_reverse.1 hb') hreverse
  exact ⟨List.reverse_injective hleft, List.reverse_injective hright⟩

/-! ## Candidates -/

variable {baselineIr optimizedIr : IRProgram} {schema : CounterexampleObservationSchema}
variable {model : ResourceModel} {config : AlignmentConfig}

/-- Two pairs with one id are the same pair. -/
theorem FitsPair.eq_of_id {p q : CandidatePair} (hb : PlainIds baselineIr)
    (hp : FitsPair baselineIr optimizedIr schema model config p)
    (hq : FitsPair baselineIr optimizedIr schema model config q)
    (h : candidateId (.pair p) = candidateId (.pair q)) : p = q := by
  have h := congrArg String.toList h
  simp only [candidateId, hp.relation, hq.relation, String.toList_append, List.append_assoc,
    List.append_cancel_left_eq] at h
  obtain ⟨hbaseline, hrest⟩ := arrow_inj (by decide) (hb _ hp.baseline).1 (hb _ hq.baseline).1 h
  have hoptimized : p.optimizedNodeId.toList = q.optimizedNodeId.toList :=
    List.append_cancel_right hrest
  have hmade := hp.made
  rw [String.toList_injective hbaseline, String.toList_injective hoptimized, hq.made] at hmade
  exact (Option.some.inj (Except.ok.inj hmade)).symm

theorem not_mem_of_isInfix {program : IRProgram} (h : PlainIds program) {ids : List String}
    (hids : ids <:+: program.order) : ∀ n ∈ ids, '>' ∉ n.toList ∧ ',' ∉ n.toList :=
  fun n hn => h n (hids.subset hn)

/-- Two blocks with one id have the same nodes and the same relation. -/
theorem FitsBlock.key_eq_of_id {b c : CandidateBlock} (hbaseline : PlainIds baselineIr)
    (hoptimized : PlainIds optimizedIr) (hb : FitsBlock baselineIr optimizedIr b)
    (hc : FitsBlock baselineIr optimizedIr c)
    (h : candidateId (.block b) = candidateId (.block c)) : blockKey b = blockKey c := by
  have hbB := not_mem_of_isInfix hbaseline hb.baseline
  have hcB := not_mem_of_isInfix hbaseline hc.baseline
  have hbO := not_mem_of_isInfix hoptimized hb.optimized
  have hcO := not_mem_of_isInfix hoptimized hc.optimized
  have hcolon : ∀ relation ∈ blockRelations, ':' ∉ relation.toList := by decide +kernel
  have h := congrArg String.toList h
  simp only [candidateId, String.toList_append, List.append_assoc,
    List.append_cancel_left_eq] at h
  obtain ⟨hleft, hrest⟩ := arrow_inj (by decide)
    (not_mem_join (by decide) fun n hn => (hbB n hn).1)
    (not_mem_join (by decide) fun n hn => (hcB n hn).1) h
  obtain ⟨hright, hrelation⟩ :=
    lastColon_inj (hcolon _ hb.relation) (hcolon _ hc.relation) hrest
  have hrelation := String.toList_injective hrelation
  have hO : b.optimizedNodeIds = c.optimizedNodeIds :=
    join_injective hb.optimized_ne_nil hc.optimized_ne_nil (fun n hn => (hbO n hn).2)
      (fun n hn => (hcO n hn).2) (String.toList_injective hright)
  have hB : b.baselineNodeIds = c.baselineNodeIds := by
    by_cases hnil : b.baselineNodeIds = []
    · -- both are stutters
      rw [hnil, hc.baseline_eq_nil.2 (hrelation ▸ hb.baseline_eq_nil.1 hnil)]
    · have hnil' : c.baselineNodeIds ≠ [] := fun hc' =>
        hnil (hb.baseline_eq_nil.2 (hrelation.trans (hc.baseline_eq_nil.1 hc')))
      exact join_injective hnil hnil' (fun n hn => (hbB n hn).2) (fun n hn => (hcB n hn).2)
        (String.toList_injective hleft)
  rw [blockKey, blockKey, hB, hO, hrelation]

/-- A pair and a block have different ids. -/
theorem candidateId_pair_ne_block (p : CandidatePair) (b : CandidateBlock) :
    candidateId (.pair p) ≠ candidateId (.block b) := by
  intro h
  have h := congrArg (fun s : String => s.toList.head?) h
  simp [candidateId] at h

/-- The candidates of two versions with plain ids. -/
theorem idsTellApart_of_plainIds {pairs : List CandidatePair} {blocks : List CandidateBlock}
    (hbaseline : PlainIds baselineIr) (hoptimized : PlainIds optimizedIr)
    (hpairs : ∀ p ∈ pairs, FitsPair baselineIr optimizedIr schema model config p)
    (hblocks : ∀ b ∈ blocks, FitsBlock baselineIr optimizedIr b)
    (hkeys : (blocks.map blockKey).Nodup) : IdsTellApart (allCandidates pairs blocks) := by
  intro c hc d hd hid
  rw [allCandidates, List.mem_append, List.mem_map, List.mem_map] at hc hd
  rcases hc with ⟨b, hb, rfl⟩ | ⟨p, hp, rfl⟩
  · rcases hd with ⟨b', hb', rfl⟩ | ⟨p', hp', rfl⟩
    · have hkey := (hblocks b hb).key_eq_of_id hbaseline hoptimized (hblocks b' hb') hid
      rw [List.inj_on_of_nodup_map hkeys hb hb' hkey]
    · exact absurd hid.symm (candidateId_pair_ne_block p' b)
  · rcases hd with ⟨b', hb', rfl⟩ | ⟨p', hp', rfl⟩
    · exact absurd hid (candidateId_pair_ne_block p b')
    · rw [(hpairs p hp).eq_of_id hbaseline (hpairs p' hp') hid]

end FloWeaver.Align
