import FloWeaver.Lib.Outcome
import FloWeaver.Scheduler.PolicyUpdates
import Mathlib.Algebra.Order.Field.Basic
import Mathlib.Algebra.Order.Field.Rat
import Mathlib.Algebra.Order.Group.Multiset
import Mathlib.Tactic.Linarith

/-!
# The order of the soft constraints

The derived policy is read through its components, each of which is touched by a few updates only.
Where the updates of a component commute, the order of the soft constraints does not matter for it.
Two components are left: the rate, which one constraint may cap and another divide, and the batch
rules, which a fallback drops or shrinks as far as they have been collected.

* `View` — a component, and the effect of an update on it.
* `RateClash`, `BatchClash` — two constraints whose order matters for the rate and for the rules.
* `derivePolicyFromConstraints_perm` — for permuted constraints the policies agree, in the rate and
  in the batch rules where no two constraints clash.
* `derivePolicyFromConstraints_order` — the order does matter where they do.
-/

namespace FloWeaver.Scheduler

open Py

deriving instance DecidableEq for Limit

/-! ## Components -/

/-- A component of the derived policy, and what an update does to it. -/
structure View (σ : Type) where
  get : DerivedConstraintPolicy → σ
  effect : σ → Update → σ
  get_apply (d : DerivedConstraintPolicy) (u : Update) : get (u.apply d) = effect (get d) u

namespace View

variable {σ : Type} (v : View σ)

theorem get_applyAll (us : List Update) (d : DerivedConstraintPolicy) :
    v.get (applyAll us d) = us.foldl v.effect (v.get d) := by
  induction us generalizing d with
  | nil => rfl
  | cons u us ih => rw [applyAll_cons, ih, v.get_apply, List.foldl_cons]

/-- Blocks of updates may be permuted when they commute on the component. -/
theorem get_applyAll_perm {bs bs' : List (List Update)} (h : bs.Perm bs')
    (hc : bs.Pairwise fun b c => ∀ u ∈ b, ∀ w ∈ c, Commutes v.effect u w)
    (d : DerivedConstraintPolicy) :
    v.get (applyAll bs.flatten d) = v.get (applyAll bs'.flatten d) := by
  rw [v.get_applyAll, v.get_applyAll, foldl_flatten_perm h hc]

/-- Two policies that agree on the component do so behind the same updates. -/
theorem get_applyAll_congr {d d' : DerivedConstraintPolicy} (h : v.get d = v.get d')
    (us : List Update) : v.get (applyAll us d) = v.get (applyAll us d') := by
  rw [v.get_applyAll, v.get_applyAll, h]

end View

def Limit.get (d : DerivedConstraintPolicy) : Limit → ℤ
  | .total => d.totalLimit
  | .ble => d.bleLimit
  | .cloud => d.cloudLimit
  | .localNet => d.localLimit
  | .unknown => d.unknownLimit
  | .burst => d.rateLimitBurst
  | .window => d.rateLimitWindowMs

theorem Limit.get_lower (limit other : Limit) (n : ℤ) (d : DerivedConstraintPolicy) :
    other.get (limit.lower n d) =
      if limit = other then lowerLimit (other.get d) n else other.get d := by
  cases limit <;> cases other <;> rfl

def limitView (limit : Limit) : View ℤ where
  get d := limit.get d
  effect x
    | .cap other n => if other = limit then lowerLimit x n else x
    | _ => x
  get_apply d u := by
    cases u with
    | cap other n => exact Limit.get_lower other limit n d
    | _ => cases limit <;> rfl

def rateView : View ℚ where
  get := DerivedConstraintPolicy.maxQps
  effect x
    | .capQps qps => min x qps
    | .divideQps factor => backOff x factor
    | _ => x
  get_apply d u := by
    cases u with
    | cap limit n => cases limit <;> rfl
    | _ => rfl

def reuseView : View Bool where
  get := DerivedConstraintPolicy.reuseEnabled
  effect x
    | .disableReuse => false
    | _ => x
  get_apply d u := by
    cases u with
    | cap limit n => cases limit <;> rfl
    | _ => rfl

def reuseWindowView : View ℤ where
  get := DerivedConstraintPolicy.reuseWindowMs
  effect x
    | .raiseReuse ms => max x ms
    | _ => x
  get_apply d u := by
    cases u with
    | cap limit n => cases limit <;> rfl
    | _ => rfl

def gapView (pair : String × String) : View (Option ℤ) where
  get d := d.minGapPairs.get? pair
  effect x
    | .addGap other ms => if pair = other then some (max (x.getD 0) ms) else x
    | _ => x
  get_apply d u := by
    cases u with
    | cap limit n => cases limit <;> rfl
    | addGap other ms =>
      rw [Update.apply, OrderedDict.get?_set]
      split_ifs with h
      · subst h
        exact (if_pos rfl).symm
      · exact (if_neg h).symm
    | _ => rfl

def orderView (pair : String × String) : View Prop where
  get d := pair ∈ d.softOrderPairs
  effect x
    | .addOrder other => pair = other ∨ x
    | _ => x
  get_apply d u := by
    cases u with
    | cap limit n => cases limit <;> rfl
    | addOrder other => exact propext List.mem_insert_iff
    | _ => rfl

/-- The session rules, in any order. -/
def sessionView : View (Multiset SessionRule) where
  get d := d.sessionRules
  effect x
    | .addSession rule => x + {rule}
    | _ => x
  get_apply d u := by
    cases u with
    | cap limit n => cases limit <;> rfl
    | _ => rfl

/-- The batch rules, in any order. -/
def batchView : View (Multiset BatchRule) where
  get d := d.batchRules
  effect x
    | .addBatch rule => x + {rule}
    | .clearBatch => 0
    | .shrinkBatch => x.map shrinkRule
    | _ => x
  get_apply d u := by
    cases u with
    | cap limit n => cases limit <;> rfl
    | _ => rfl

/-- Whether a constraint of a kind was met. -/
def metView (kind : String) : View Bool where
  get d := d.activeConstraints.any fun row => upper (strip row.kind) = kind
  effect x
    | .note row => x || upper (strip row.kind) = kind
    | _ => x
  get_apply d u := by
    cases u with
    | cap limit n => cases limit <;> rfl
    | note row => simp [Update.apply]
    | _ => rfl

/-! ## Updates that commute -/

theorem lowerLimit_comm (x m n : ℤ) :
    lowerLimit (lowerLimit x m) n = lowerLimit (lowerLimit x n) m := by
  unfold lowerLimit
  omega

theorem commutes_limitView (limit : Limit) (u w : Update) :
    Commutes (limitView limit).effect u w := by
  intro x
  cases u with
  | cap other n =>
    cases w with
    | cap other' m =>
      dsimp only [limitView]
      split_ifs
      · exact lowerLimit_comm x n m
      all_goals rfl
    | _ => rfl
  | _ => cases w <;> rfl

theorem commutes_reuseView (u w : Update) : Commutes reuseView.effect u w := by
  intro x
  cases u <;> cases w <;> rfl

theorem commutes_reuseWindowView (u w : Update) : Commutes reuseWindowView.effect u w := by
  intro x
  cases u with
  | raiseReuse ms =>
    cases w with
    | raiseReuse ms' => exact max_right_comm x ms ms'
    | _ => rfl
  | _ => cases w <;> rfl

theorem commutes_gapView (pair : String × String) (u w : Update) :
    Commutes (gapView pair).effect u w := by
  intro x
  cases u with
  | addGap other ms =>
    cases w with
    | addGap other' ms' =>
      dsimp only [gapView]
      split_ifs
      · exact congrArg some (max_right_comm (x.getD 0) ms ms')
      all_goals rfl
    | _ => rfl
  | _ => cases w <;> rfl

theorem commutes_orderView (pair : String × String) (u w : Update) :
    Commutes (orderView pair).effect u w := by
  intro x
  cases u with
  | addOrder other =>
    cases w with
    | addOrder other' => exact propext or_left_comm
    | _ => rfl
  | _ => cases w <;> rfl

theorem commutes_sessionView (u w : Update) : Commutes sessionView.effect u w := by
  intro x
  cases u with
  | addSession rule =>
    cases w with
    | addSession rule' => exact add_right_comm x {rule} {rule'}
    | _ => rfl
  | _ => cases w <;> rfl

theorem commutes_metView (kind : String) (u w : Update) :
    Commutes (metView kind).effect u w := by
  intro x
  cases u with
  | note row =>
    cases w with
    | note row' => exact Bool.or_right_comm x _ _
    | _ => rfl
  | _ => cases w <;> rfl

/-! ## The rate -/

/-- A rate of one tenth or less is not divided. -/
theorem backOff_of_le {x : ℚ} (h : x ≤ 1 / 10) (factor : ℚ) : backOff x factor = x :=
  min_eq_left (h.trans (le_max_left _ _))

/-- A larger rate is divided, but not below one tenth. -/
theorem backOff_of_ge {x : ℚ} (h : 1 / 10 ≤ x) (factor : ℚ) :
    backOff x factor = max (1 / 10) (x / max 1 factor) := by
  refine min_eq_right (max_le h ?_)
  exact div_le_self (by linarith) (le_max_left _ _)

/-- A factor of at most one leaves the rate as it is. -/
theorem backOff_of_factor_le {factor : ℚ} (h : factor ≤ 1) (x : ℚ) : backOff x factor = x := by
  rw [backOff, max_eq_left h, div_one]
  exact min_eq_left (le_max_right _ _)

/-- Two divisions in a row divide by the product. -/
theorem backOff_backOff {x : ℚ} (h : 1 / 10 ≤ x) (factor factor' : ℚ) :
    backOff (backOff x factor) factor' =
      max (1 / 10) (x / (max 1 factor * max 1 factor')) := by
  have hpos : 0 < max 1 factor' := lt_of_lt_of_le one_pos (le_max_left _ _)
  rw [backOff_of_ge h, backOff_of_ge (le_max_left _ _), ← max_div_div_right hpos.le,
    ← max_assoc]
  have hsmall : (1 / 10 : ℚ) / max 1 factor' ≤ 1 / 10 :=
    div_le_self (by norm_num) (le_max_left _ _)
  rw [max_eq_left hsmall, div_div]

theorem backOff_comm (x factor factor' : ℚ) :
    backOff (backOff x factor) factor' = backOff (backOff x factor') factor := by
  rcases le_total x (1 / 10) with h | h
  · rw [backOff_of_le h, backOff_of_le h, backOff_of_le h]
  · rw [backOff_backOff h, backOff_backOff h, mul_comm]

/-- Of two updates neither caps the rate that the other divides. -/
theorem commutes_rateView {u w : Update}
    (h : ∀ qps factor, u = .capQps qps → w = .divideQps factor → factor ≤ 1)
    (h' : ∀ qps factor, w = .capQps qps → u = .divideQps factor → factor ≤ 1) :
    Commutes rateView.effect u w := by
  cases u with
  | capQps qps =>
    cases w with
    | capQps qps' => exact fun x => min_right_comm x qps qps'
    | divideQps factor =>
      exact Commutes.of_right_eq (backOff_of_factor_le (h qps factor rfl rfl))
    | _ => exact fun x => rfl
  | divideQps factor =>
    cases w with
    | capQps qps => exact Commutes.of_left_eq (backOff_of_factor_le (h' qps factor rfl rfl))
    | divideQps factor' => exact fun x => backOff_comm x factor factor'
    | _ => exact fun x => rfl
  | _ => cases w <;> exact fun x => rfl

/-! ## The batch rules -/

/-- Of two updates neither adds a batch rule that the other drops or changes. -/
theorem commutes_batchView {u w : Update}
    (h : ∀ rule, u = .addBatch rule → w ≠ .clearBatch ∧ (w = .shrinkBatch → shrinkRule rule = rule))
    (h' : ∀ rule, w = .addBatch rule →
      u ≠ .clearBatch ∧ (u = .shrinkBatch → shrinkRule rule = rule)) :
    Commutes batchView.effect u w := by
  cases u with
  | addBatch rule =>
    cases w with
    | addBatch rule' => exact fun x => add_right_comm x {rule} {rule'}
    | clearBatch => exact absurd rfl (h rule rfl).1
    | shrinkBatch =>
      intro x
      show (x + {rule}).map shrinkRule = x.map shrinkRule + {rule}
      rw [Multiset.map_add, Multiset.map_singleton, (h rule rfl).2 rfl]
    | _ => exact fun x => rfl
  | clearBatch =>
    cases w with
    | addBatch rule => exact absurd rfl (h' rule rfl).1
    | _ => exact fun x => rfl
  | shrinkBatch =>
    cases w with
    | addBatch rule =>
      intro x
      show x.map shrinkRule + {rule} = (x + {rule}).map shrinkRule
      rw [Multiset.map_add, Multiset.map_singleton, (h' rule rfl).2 rfl]
    | _ => exact fun x => rfl
  | _ => cases w <;> exact fun x => rfl

/-! ## Clashes -/

/-- An update is among those of a constraint. -/
def Updates (metrics : Dict) (latency : ℤ) (constraint : SoftConstraint) (u : Update) : Prop :=
  ∃ us, stepUpdates metrics latency constraint = .ok us ∧ u ∈ us

/-- One of two constraints caps the rate and the other divides it. -/
def RateClash (metrics : Dict) (latency : ℤ) (c c' : SoftConstraint) : Prop :=
  ∃ qps factor, 1 < factor ∧
    (Updates metrics latency c (.capQps qps) ∧ Updates metrics latency c' (.divideQps factor) ∨
      Updates metrics latency c' (.capQps qps) ∧ Updates metrics latency c (.divideQps factor))

/-- A constraint drops or changes a batch rule that has been collected. -/
def Spoils (metrics : Dict) (latency : ℤ) (constraint : SoftConstraint) (rule : BatchRule) :
    Prop :=
  Updates metrics latency constraint .clearBatch ∨
    Updates metrics latency constraint .shrinkBatch ∧ shrinkRule rule ≠ rule

/-- One of two constraints adds a batch rule and the other drops or changes it. -/
def BatchClash (metrics : Dict) (latency : ℤ) (c c' : SoftConstraint) : Prop :=
  ∃ rule,
    Updates metrics latency c (.addBatch rule) ∧ Spoils metrics latency c' rule ∨
      Updates metrics latency c' (.addBatch rule) ∧ Spoils metrics latency c rule

variable {metrics : Dict} {latency : ℤ}

/-- What holds of any two constraints holds of any two blocks of their updates. -/
theorem pairwise_blocks {R : SoftConstraint → SoftConstraint → Prop}
    {S : List Update → List Update → Prop} {constraints : List SoftConstraint}
    {blocks : List (List Update)}
    (hblocks : constraints.mapM (stepUpdates metrics latency) = .ok blocks)
    (hRS : ∀ c c' b b', stepUpdates metrics latency c = .ok b →
      stepUpdates metrics latency c' = .ok b' → R c c' → S b b')
    (h : constraints.Pairwise R) : blocks.Pairwise S := by
  induction h generalizing blocks with
  | nil =>
    cases hblocks
    exact .nil
  | @cons c constraints hc _ ih =>
    rw [List.mapM_cons, bind_eq_ok] at hblocks
    obtain ⟨b, hb, hblocks⟩ := hblocks
    obtain ⟨rest, hrest, hblocks⟩ := bind_eq_ok.1 hblocks
    obtain rfl := pure_eq_ok.1 hblocks
    refine .cons (fun b' hb' => ?_) (ih hrest)
    obtain ⟨c', hc', hcb'⟩ := mem_of_mapM_ok hrest b' hb'
    exact hRS c c' b b' hb hcb' (hc c' hc')

theorem commutes_rateView_blocks {c c' : SoftConstraint} {b b' : List Update}
    (hb : stepUpdates metrics latency c = .ok b) (hb' : stepUpdates metrics latency c' = .ok b')
    (h : ¬RateClash metrics latency c c') :
    ∀ u ∈ b, ∀ w ∈ b', Commutes rateView.effect u w := by
  intro u hu w hw
  apply commutes_rateView
  · rintro qps factor rfl rfl
    by_contra hfactor
    exact h ⟨qps, factor, not_le.mp hfactor, .inl ⟨⟨b, hb, hu⟩, ⟨b', hb', hw⟩⟩⟩
  · rintro qps factor rfl rfl
    by_contra hfactor
    exact h ⟨qps, factor, not_le.mp hfactor, .inr ⟨⟨b', hb', hw⟩, ⟨b, hb, hu⟩⟩⟩

theorem commutes_batchView_blocks {c c' : SoftConstraint} {b b' : List Update}
    (hb : stepUpdates metrics latency c = .ok b) (hb' : stepUpdates metrics latency c' = .ok b')
    (h : ¬BatchClash metrics latency c c') :
    ∀ u ∈ b, ∀ w ∈ b', Commutes batchView.effect u w := by
  intro u hu w hw
  apply commutes_batchView
  · rintro rule rfl
    refine ⟨?_, fun hshrink => ?_⟩
    · rintro rfl
      exact h ⟨rule, .inl ⟨⟨b, hb, hu⟩, .inl ⟨b', hb', hw⟩⟩⟩
    · subst hshrink
      by_contra hne
      exact h ⟨rule, .inl ⟨⟨b, hb, hu⟩, .inr ⟨⟨b', hb', hw⟩, hne⟩⟩⟩
  · rintro rule rfl
    refine ⟨?_, fun hshrink => ?_⟩
    · rintro rfl
      exact h ⟨rule, .inr ⟨⟨b', hb', hw⟩, .inl ⟨b, hb, hu⟩⟩⟩
    · subst hshrink
      by_contra hne
      exact h ⟨rule, .inr ⟨⟨b', hb', hw⟩, .inr ⟨⟨b, hb, hu⟩, hne⟩⟩⟩

/-! ## Batch rules come with a note -/

theorem addBatch_notMem_fallbackUpdates (rule : BatchRule) (modeL : String) :
    .addBatch rule ∉ fallbackUpdates modeL := by
  have hserial : .addBatch rule ∉ (if contains modeL "serialize_local_api_reads" then
      [Update.cap .localNet 1] else if contains modeL "reduce_parallelism" ||
        contains modeL "serialize" then [.cap .total 1] else []) := by
    split_ifs <;> simp
  simp [fallbackUpdates, hserial, -Bool.or_eq_true]

theorem addBatch_notMem_triggerUpdates {mode kind : String} {scope : List String} {params : Dict}
    {us : List Update} (h : triggerUpdates mode scope params kind = .ok us) (rule : BatchRule) :
    .addBatch rule ∉ us := by
  obtain ⟨effective, -, h⟩ := bind_eq_ok.1 h
  obtain rfl := pure_eq_ok.1 h
  simp [addBatch_notMem_fallbackUpdates]

theorem addBatch_notMem_afterUpdates {constraint : SoftConstraint} {mode : String} {params : Dict}
    {active onInactive : Bool} {us : List Update}
    (h : afterUpdates constraint mode params active onInactive = .ok us) (rule : BatchRule) :
    .addBatch rule ∉ us := by
  unfold afterUpdates at h
  split_ifs at h
  · exact addBatch_notMem_triggerUpdates h rule
  · cases h
    exact List.not_mem_nil

/-- Only a batch group adds a batch rule. -/
theorem kind_of_addBatch {constraint : SoftConstraint} {params : Dict} {active : Bool}
    {us : List Update} (h : constraintUpdates latency constraint params active = .ok us)
    {rule : BatchRule} (hrule : .addBatch rule ∈ us) :
    constraint.kind = SoftConstraintKind.batchGroup := by
  by_contra hkind
  unfold constraintUpdates at h
  dsimp only at h
  split_ifs at h
  · obtain ⟨limit, -, h⟩ := bind_eq_ok.1 h
    split_ifs at h <;> obtain rfl := pure_eq_ok.1 h <;> simp at hrule
  · obtain rfl := pure_eq_ok.1 h
    unfold noOverlapUpdates at hrule
    split_ifs at hrule <;> simp at hrule
  · obtain rfl := pure_eq_ok.1 h
    simp [rateLimitUpdates] at hrule
  · unfold backoffUpdates at h
    split_ifs at h
    · obtain ⟨factor, -, h⟩ := bind_eq_ok.1 h
      obtain rfl := pure_eq_ok.1 h
      simp at hrule
    · obtain rfl := pure_eq_ok.1 h
      simp at hrule
  · obtain ⟨window, -, h⟩ := bind_eq_ok.1 h
    obtain rfl := pure_eq_ok.1 h
    simp at hrule
  · obtain ⟨gap, -, h⟩ := bind_eq_ok.1 h
    obtain rfl := pure_eq_ok.1 h
    simp at hrule
  · obtain rfl := pure_eq_ok.1 h
    simp at hrule
  · obtain rfl := pure_eq_ok.1 h
    simp at hrule

theorem kind_of_addBatch_finish {constraint : SoftConstraint} {mode : String} {params : Dict}
    {active onInactive : Bool} {us : List Update}
    (h : finishUpdates latency constraint mode active onInactive params = .ok us)
    {rule : BatchRule} (hrule : .addBatch rule ∈ us) :
    constraint.kind = SoftConstraintKind.batchGroup := by
  obtain ⟨first, hfirst, h⟩ := bind_eq_ok.1 h
  obtain ⟨second, hsecond, h⟩ := bind_eq_ok.1 h
  obtain rfl := pure_eq_ok.1 h
  rcases List.mem_append.1 hrule with hrule | hrule
  · exact kind_of_addBatch hfirst hrule
  · exact absurd hrule (addBatch_notMem_afterUpdates hsecond rule)

/-- A constraint that adds a batch rule is a batch group, and is noted. -/
theorem noted_of_addBatch {constraint : SoftConstraint} {us : List Update} {rule : BatchRule}
    (h : stepUpdates metrics latency constraint = .ok us) (hrule : .addBatch rule ∈ us) :
    ∃ row, .note row ∈ us ∧ row.kind = SoftConstraintKind.batchGroup := by
  obtain ⟨mode, -, h⟩ := bind_eq_ok.1 h
  obtain ⟨active, -, h⟩ := bind_eq_ok.1 h
  dsimp only at h
  split_ifs at h
  · obtain ⟨vs, hvs, h⟩ := bind_eq_ok.1 h
    obtain rfl := pure_eq_ok.1 h
    have hmem : .addBatch rule ∈ vs := by simpa using hrule
    exact ⟨_, List.mem_cons_self, kind_of_addBatch_finish hvs hmem⟩
  · obtain ⟨params, -, h⟩ := bind_eq_ok.1 h
    obtain ⟨first, hfirst, h⟩ := bind_eq_ok.1 h
    obtain ⟨vs, hvs, h⟩ := bind_eq_ok.1 h
    obtain rfl := pure_eq_ok.1 h
    have hmem : .addBatch rule ∈ vs := by
      simpa [addBatch_notMem_triggerUpdates hfirst rule] using hrule
    exact ⟨_, List.mem_cons_self, kind_of_addBatch_finish hvs hmem⟩
  · obtain ⟨params, -, h⟩ := bind_eq_ok.1 h
    obtain ⟨first, hfirst, h⟩ := bind_eq_ok.1 h
    obtain rfl := pure_eq_ok.1 h
    exact absurd (by simpa using hrule) (addBatch_notMem_triggerUpdates hfirst rule)
  · obtain rfl := pure_eq_ok.1 h
    simp at hrule

theorem batchRules_applyAll_eq_nil {us : List Update} {d : DerivedConstraintPolicy}
    (h : ∀ rule, .addBatch rule ∉ us) (hd : d.batchRules = []) :
    (applyAll us d).batchRules = [] := by
  induction us generalizing d with
  | nil => exact hd
  | cons u us ih =>
    rw [applyAll_cons]
    refine ih (fun rule hrule => h rule (List.mem_cons_of_mem u hrule)) ?_
    cases u with
    | addBatch rule => exact absurd List.mem_cons_self (h rule)
    | cap limit n => cases limit <;> exact hd
    | shrinkBatch => exact List.map_eq_nil_iff.2 hd
    | clearBatch => rfl
    | _ => exact hd

theorem met_of_note {us : List Update} {d : DerivedConstraintPolicy} {kind : String}
    {row : ActiveConstraint} (h : .note row ∈ us) (hrow : upper (strip row.kind) = kind) :
    (metView kind).get (applyAll us d) = true := by
  rw [View.get_applyAll]
  obtain ⟨before, after, rfl⟩ := List.append_of_mem h
  rw [List.foldl_append, List.foldl_cons]
  -- once a constraint of the kind is noted it stays so
  have hkeep : ∀ vs : List Update, vs.foldl (metView kind).effect true = true := by
    intro vs
    induction vs with
    | nil => rfl
    | cons v vs ih => cases v <;> exact ih
  have hnow : ∀ x, (metView kind).effect x (.note row) = true := by
    intro x
    simp [metView, hrow]
  rw [hnow, hkeep]

/-- Where no batch group was met there are no batch rules. -/
theorem batchRules_eq_nil_of_not_met {constraints : List SoftConstraint}
    {blocks : List (List Update)} {d : DerivedConstraintPolicy}
    (hblocks : constraints.mapM (stepUpdates metrics latency) = .ok blocks)
    (hd : d.batchRules = [])
    (hmet : (metView SoftConstraintKind.batchGroup).get (applyAll blocks.flatten d) = false) :
    (applyAll blocks.flatten d).batchRules = [] := by
  refine batchRules_applyAll_eq_nil (fun rule hrule => ?_) hd
  obtain ⟨b, hb, hruleb⟩ := List.mem_flatten.1 hrule
  obtain ⟨c, -, hcb⟩ := mem_of_mapM_ok hblocks b hb
  obtain ⟨row, hrow, hkind⟩ := noted_of_addBatch hcb hruleb
  have hname : upper (strip row.kind) = SoftConstraintKind.batchGroup := by
    rw [hkind]
    decide +kernel
  rw [met_of_note (List.mem_flatten.2 ⟨b, hb, hrow⟩) hname] at hmet
  cases hmet

/-! ## The whole policy -/

/-- Two policies agree in their limits, their reuse, their pairs and, in any order, their session
rules. -/
structure SamePolicy (d d' : DerivedConstraintPolicy) : Prop where
  limits : ∀ limit : Limit, limit.get d = limit.get d'
  reuseEnabled : d.reuseEnabled = d'.reuseEnabled
  reuseWindowMs : d.reuseWindowMs = d'.reuseWindowMs
  minGapPairs : ∀ pair, d.minGapPairs.get? pair = d'.minGapPairs.get? pair
  softOrderPairs : ∀ pair, pair ∈ d.softOrderPairs ↔ pair ∈ d'.softOrderPairs
  sessionRules : d.sessionRules.Perm d'.sessionRules

theorem samePolicy_of_views {d d' : DerivedConstraintPolicy}
    (h : ∀ {σ : Type} (v : View σ), (∀ u w, Commutes v.effect u w) → v.get d = v.get d') :
    SamePolicy d d' where
  limits limit := h (limitView limit) (commutes_limitView limit)
  reuseEnabled := h reuseView commutes_reuseView
  reuseWindowMs := h reuseWindowView commutes_reuseWindowView
  minGapPairs pair := h (gapView pair) (commutes_gapView pair)
  softOrderPairs pair := iff_of_eq (h (orderView pair) (commutes_orderView pair))
  sessionRules := Multiset.coe_eq_coe.1 (h sessionView commutes_sessionView)

/-- The final clamps keep the agreement. -/
theorem SamePolicy.clamp {d d' : DerivedConstraintPolicy} (h : SamePolicy d d')
    (policy : SchedulerPolicy) :
    SamePolicy (clampLimits policy d) (clampLimits policy d') where
  limits limit := by
    have htotal : d.totalLimit = d'.totalLimit := h.limits .total
    have hlimit := h.limits limit
    cases limit <;> simp only [Limit.get, clampLimits] at hlimit ⊢ <;> rw [hlimit]
    all_goals rw [htotal]
  reuseEnabled := h.reuseEnabled
  reuseWindowMs := h.reuseWindowMs
  minGapPairs := h.minGapPairs
  softOrderPairs := h.softOrderPairs
  sessionRules := h.sessionRules

/-- The derived policy is that of the updates of the given constraints, and then of those of the
inferred ones. -/
theorem derivePolicyFromConstraints_eq (policy : SchedulerPolicy)
    (constraints : List SoftConstraint) (metrics : Dict) (target : OptimizationTarget) :
    derivePolicyFromConstraints policy constraints metrics target = (do
      let latency := latencyBudget metrics target
      let given ← constraints.mapM (stepUpdates metrics latency)
      let d := applyAll given.flatten (initialDerived policy latency)
      let inferred ← (autoConstraints target d).mapM (autoUpdates metrics latency)
      return clampLimits policy (applyAll inferred.flatten d)) := by
  unfold derivePolicyFromConstraints
  dsimp only
  have hgiven := performs_foldlM (@performs_deriveStep (latencyBudget metrics target) metrics)
    constraints (initialDerived policy (latencyBudget metrics target)) rfl
  dsimp only at hgiven
  rw [hgiven]
  cases constraints.mapM (stepUpdates metrics (latencyBudget metrics target)) with
  | error e => rfl
  | ok given =>
    have hinferred := performs_foldlM
      (@performs_autoStep (latencyBudget metrics target) metrics)
      (autoConstraints target
        (applyAll given.flatten (initialDerived policy (latencyBudget metrics target))))
      (applyAll given.flatten (initialDerived policy (latencyBudget metrics target)))
      (latencyBudgetMs_applyAll _ _)
    dsimp only at hinferred
    show (_ >>= fun d => Except.ok (clampLimits policy d)) = _
    rw [hinferred]
    dsimp only [bind, Except.bind]
    cases (autoConstraints target (applyAll given.flatten (initialDerived policy
      (latencyBudget metrics target)))).mapM
        (autoUpdates metrics (latencyBudget metrics target)) with
    | error e => rfl
    | ok inferred => rfl

/-- The same rules are inferred, whatever the order of the given constraints. -/
theorem autoConstraints_perm {constraints constraints' : List SoftConstraint}
    {blocks blocks' : List (List Update)} {d : DerivedConstraintPolicy}
    (hblocks : constraints.mapM (stepUpdates metrics latency) = .ok blocks)
    (hblocks' : constraints'.mapM (stepUpdates metrics latency) = .ok blocks')
    (hperm : blocks.Perm blocks') (hd : d.batchRules = []) (target : OptimizationTarget) :
    autoConstraints target (applyAll blocks.flatten d) =
      autoConstraints target (applyAll blocks'.flatten d) := by
  have hmet : ∀ kind, (metView kind).get (applyAll blocks.flatten d) =
      (metView kind).get (applyAll blocks'.flatten d) := fun kind =>
    (metView kind).get_applyAll_perm hperm
      (List.pairwise_of_forall fun _ _ u _ w _ => commutes_metView kind u w) d
  have hsession : (applyAll blocks.flatten d).sessionRules.Perm
      (applyAll blocks'.flatten d).sessionRules :=
    Multiset.coe_eq_coe.1 (sessionView.get_applyAll_perm hperm
      (List.pairwise_of_forall fun _ _ u _ w _ => commutes_sessionView u w) d)
  have hbatch : (!(metView SoftConstraintKind.batchGroup).get (applyAll blocks.flatten d) &&
      (applyAll blocks.flatten d).batchRules.isEmpty) =
      (!(metView SoftConstraintKind.batchGroup).get (applyAll blocks'.flatten d) &&
        (applyAll blocks'.flatten d).batchRules.isEmpty) := by
    rw [← hmet]
    cases hnone : (metView SoftConstraintKind.batchGroup).get (applyAll blocks.flatten d) with
    | true => rfl
    | false =>
      rw [batchRules_eq_nil_of_not_met hblocks hd hnone,
        batchRules_eq_nil_of_not_met hblocks' hd ((hmet _).symm.trans hnone)]
  have hmetSession := hmet SoftConstraintKind.sameSessionGroup
  simp only [metView] at hbatch hmetSession
  unfold autoConstraints
  simp only [hbatch, hmetSession, hsession.isEmpty_eq]

/-- **The derived policy does not depend on the order of the soft constraints**, in the rate and
in the batch rules as far as no two constraints clash. -/
theorem derivePolicyFromConstraints_perm (policy : SchedulerPolicy) (metrics : Dict)
    (target : OptimizationTarget) {constraints constraints' : List SoftConstraint}
    (h : constraints.Perm constraints') :
    SameOutcome
      (fun d d' => SamePolicy d d' ∧
        (constraints.Pairwise (fun c c' => ¬RateClash metrics (latencyBudget metrics target) c c') →
          d.maxQps = d'.maxQps) ∧
        (constraints.Pairwise (fun c c' => ¬BatchClash metrics (latencyBudget metrics target) c c') →
          d.batchRules.Perm d'.batchRules))
      (derivePolicyFromConstraints policy constraints metrics target)
      (derivePolicyFromConstraints policy constraints' metrics target) := by
  rw [derivePolicyFromConstraints_eq, derivePolicyFromConstraints_eq]
  refine (mapM_perm _ h).attach.bind ?_
  rintro given given' ⟨hperm, hgiven, hgiven'⟩
  dsimp only
  rw [autoConstraints_perm hgiven hgiven' hperm rfl target]
  refine (SameOutcome.of_eq rfl).bind ?_
  rintro inferred _ rfl
  refine .returns ⟨SamePolicy.clamp (samePolicy_of_views fun v hv => ?_) policy, fun hrate => ?_,
    fun hbatch => ?_⟩
  · exact v.get_applyAll_congr (v.get_applyAll_perm hperm
      (List.pairwise_of_forall fun _ _ u _ w _ => hv u w) _) _
  · have hblocks := pairwise_blocks hgiven (fun _ _ _ _ => commutes_rateView_blocks) hrate
    exact congrArg (max (1 / 10)) (rateView.get_applyAll_congr
      (rateView.get_applyAll_perm hperm hblocks _) inferred.flatten)
  · have hblocks := pairwise_blocks hgiven (fun _ _ _ _ => commutes_batchView_blocks) hbatch
    exact Multiset.coe_eq_coe.1 (batchView.get_applyAll_congr
      (batchView.get_applyAll_perm hperm hblocks _) inferred.flatten)

/-! ## Orders that matter, and one that does not -/

/-- A constraint on two actions that always holds. -/
def heldSample (kind : String) (params : Dict) (fallback : String) : SoftConstraint :=
  { kind, scope := ["a", "b"], params, guard := "true", fallback }

def cappingSample : SoftConstraint :=
  heldSample SoftConstraintKind.rateLimit [("max_qps", .int 2)] ""

def dividingSample : SoftConstraint :=
  heldSample SoftConstraintKind.backoffWindow [("factor", .int 2)] ""

def groupingSample : SoftConstraint := heldSample SoftConstraintKind.batchGroup [] ""

def orderingSample (fallback : String) : SoftConstraint :=
  heldSample SoftConstraintKind.softOrder [] fallback

/-- The rate, or the batch sizes, that the default policy ends up with. -/
def derivedSample (constraints : List SoftConstraint) : Option DerivedConstraintPolicy :=
  (derivePolicyFromConstraints {} constraints [] {}).toOption

/-- The order matters for a cap and a division of the rate, and for a batch rule and a fallback
that drops or shrinks it. -/
theorem derivePolicyFromConstraints_order :
    (derivedSample [cappingSample, dividingSample]).map (·.maxQps) = some 1 ∧
      (derivedSample [dividingSample, cappingSample]).map (·.maxQps) = some 2 ∧
      (derivedSample [groupingSample, orderingSample "disable_batching"]).map
        (·.batchRules.map (·.maxBatchSize)) = some [] ∧
      (derivedSample [orderingSample "disable_batching", groupingSample]).map
        (·.batchRules.map (·.maxBatchSize)) = some [20] ∧
      (derivedSample [groupingSample, orderingSample "shrink_batch"]).map
        (·.batchRules.map (·.maxBatchSize)) = some [4] ∧
      (derivedSample [orderingSample "shrink_batch", groupingSample]).map
        (·.batchRules.map (·.maxBatchSize)) = some [20] := by
  decide +kernel

/-- A constraint that only orders its actions clashes with no other. -/
def onlyOrders (metrics : Dict) (latency : ℤ) (constraint : SoftConstraint) : Bool :=
  match stepUpdates metrics latency constraint with
  | .ok us => us.all fun
    | .note _ | .addOrder _ => true
    | _ => false
  | .error _ => false

theorem cases_of_onlyOrders {constraint : SoftConstraint} {u : Update}
    (h : onlyOrders metrics latency constraint = true) (hu : Updates metrics latency constraint u) :
    (∃ row, u = .note row) ∨ ∃ pair, u = .addOrder pair := by
  obtain ⟨us, hus, hmem⟩ := hu
  rw [onlyOrders, hus] at h
  have hu := List.all_eq_true.1 h u hmem
  cases u with
  | note row => exact .inl ⟨row, rfl⟩
  | addOrder pair => exact .inr ⟨pair, rfl⟩
  | _ => cases hu

theorem not_rateClash_of_onlyOrders {c c' : SoftConstraint}
    (h : onlyOrders metrics latency c' = true) : ¬RateClash metrics latency c c' := by
  rintro ⟨qps, factor, -, ⟨-, hu⟩ | ⟨hu, -⟩⟩ <;>
    rcases cases_of_onlyOrders h hu with ⟨_, hu⟩ | ⟨_, hu⟩ <;> cases hu

theorem not_batchClash_of_onlyOrders {c c' : SoftConstraint}
    (h : onlyOrders metrics latency c' = true) : ¬BatchClash metrics latency c c' := by
  rintro ⟨rule, ⟨-, hu | ⟨hu, -⟩⟩ | ⟨hu, -⟩⟩ <;>
    rcases cases_of_onlyOrders h hu with ⟨_, hu⟩ | ⟨_, hu⟩ <;> cases hu

/-- A cap on the rate and a soft order may come in either order. -/
theorem derivePolicyFromConstraints_perm_pair :
    SameOutcome
      (fun d d' => SamePolicy d d' ∧ d.maxQps = d'.maxQps ∧ d.batchRules.Perm d'.batchRules)
      (derivePolicyFromConstraints {} [cappingSample, orderingSample ""] [] {})
      (derivePolicyFromConstraints {} [orderingSample "", cappingSample] [] {}) := by
  have horders : onlyOrders [] (latencyBudget [] {}) (orderingSample "") = true := by
    decide +kernel
  refine (derivePolicyFromConstraints_perm {} [] {} (.swap _ _ [])).mono ?_
  rintro d d' ⟨hsame, hrate, hbatch⟩
  exact ⟨hsame, hrate (List.pairwise_pair.2 (not_rateClash_of_onlyOrders horders)),
    hbatch (List.pairwise_pair.2 (not_batchClash_of_onlyOrders horders))⟩

end FloWeaver.Scheduler
