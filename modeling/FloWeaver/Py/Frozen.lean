import FloWeaver.Py.Val

/-!
# Frozen values

Freezing turns dicts into lists, so that values can be compared as keys.  Between values without
dicts Python's `==` is reflexive and transitive.

* `Val.dictFree_freeze` — a frozen value has no dict.
* `Val.eqv_refl`, `Val.eqv_trans` — equality of values without dicts.
-/

namespace FloWeaver.Py

mutual

/-- No dict occurs in a value. -/
def Val.dictFree : Val → Bool
  | .list items => dictFreeItems items
  | .dict _ => false
  | _ => true

def dictFreeItems : List Val → Bool
  | [] => true
  | v :: vs => v.dictFree && dictFreeItems vs

end

theorem dictFreeItems_iff {items : List Val} :
    dictFreeItems items = true ↔ ∀ v ∈ items, v.dictFree = true := by
  induction items with
  | nil => simp [dictFreeItems]
  | cons v vs ih => rw [dictFreeItems, Bool.and_eq_true_iff, ih, List.forall_mem_cons]

/-! ## Freezing -/

mutual

theorem Val.dictFree_freeze : ∀ v : Val, v.freeze.dictFree = true
  | .none | .bool _ | .int _ | .float _ _ | .str _ => rfl
  | .list items => by
      rw [Val.freeze, Val.dictFree]
      exact dictFreeItems_iff.2 (dictFree_freezeItems items)
  | .dict rows => by
      rw [Val.freeze, Val.dictFree]
      refine dictFreeItems_iff.2 fun v hv => ?_
      obtain ⟨row, hrow, rfl⟩ := List.mem_map.1 hv
      have hvalue := dictFree_freezeRows rows row (List.mem_insertionSort _ |>.1 hrow)
      rw [Val.dictFree, dictFreeItems, dictFreeItems, dictFreeItems, hvalue]
      rfl

theorem dictFree_freezeItems : ∀ items : List Val, ∀ v ∈ freezeItems items, v.dictFree = true
  | [] => by simp [freezeItems]
  | v :: vs => List.forall_mem_cons.2 ⟨v.dictFree_freeze, dictFree_freezeItems vs⟩

theorem dictFree_freezeRow : ∀ row : String × Val, (freezeRow row).2.dictFree = true
  | (_, v) => v.dictFree_freeze

theorem dictFree_freezeRows : ∀ rows : List (String × Val),
    ∀ row ∈ freezeRows rows, row.2.dictFree = true
  | [] => by simp [freezeRows]
  | row :: rows => List.forall_mem_cons.2 ⟨dictFree_freezeRow row, dictFree_freezeRows rows⟩

end

/-! ## Equality -/

namespace Val

theorem eqv_none_left {b : Val} : Val.none.eqv b = true ↔ b = .none := by
  cases b <;> simp [eqv, isNumber]

theorem eqv_str_left {s : String} {b : Val} : (Val.str s).eqv b = true ↔ b = .str s := by
  cases b <;> simp [eqv, isNumber, eq_comm]

theorem eqv_list_left {items : List Val} {b : Val} :
    (Val.list items).eqv b = true ↔ ∃ others, b = .list others ∧ eqvItems items others = true := by
  cases b <;> simp [eqv, isNumber]

/-- A number equals the numbers of its value. -/
theorem eqv_number_left {a b : Val} (h : a.isNumber = true) :
    a.eqv b = true ↔ b.isNumber = true ∧ a.number = b.number := by
  cases a <;> try cases h
  all_goals cases b <;> simp [eqv, isNumber]

theorem eqv_trans_number {a b c : Val} (h : a.isNumber = true) (hab : a.eqv b = true)
    (hbc : b.eqv c = true) : a.eqv c = true := by
  obtain ⟨hb, hab⟩ := (eqv_number_left h).1 hab
  obtain ⟨hc, hbc⟩ := (eqv_number_left hb).1 hbc
  exact (eqv_number_left h).2 ⟨hc, hab.trans hbc⟩

end Val

theorem eqvItems_cons_left {x : Val} {xs ys : List Val} :
    eqvItems (x :: xs) ys = true ↔
      ∃ y rest, ys = y :: rest ∧ x.eqv y = true ∧ eqvItems xs rest = true := by
  cases ys with
  | nil => simp [eqvItems]
  | cons y rest =>
    rw [eqvItems, Bool.and_eq_true_iff]
    constructor
    · rintro ⟨hxy, hrest⟩
      exact ⟨y, rest, rfl, hxy, hrest⟩
    · rintro ⟨y', rest', heq, hxy, hrest⟩
      obtain ⟨rfl, rfl⟩ := List.cons.inj heq
      exact ⟨hxy, hrest⟩

theorem eqvItems_nil_left {ys : List Val} : eqvItems [] ys = true ↔ ys = [] := by
  cases ys <;> simp [eqvItems]

mutual

theorem Val.eqv_refl : ∀ v : Val, v.dictFree = true → v.eqv v = true
  | .none, _ => Val.eqv_none_left.2 rfl
  | .bool _, _ | .int _, _ | .float _ _, _ => (Val.eqv_number_left rfl).2 ⟨rfl, rfl⟩
  | .str _, _ => Val.eqv_str_left.2 rfl
  | .list items, h => Val.eqv_list_left.2 ⟨items, rfl, eqvItems_refl items h⟩

theorem eqvItems_refl : ∀ items : List Val, dictFreeItems items = true →
    eqvItems items items = true
  | [], _ => eqvItems_nil_left.2 rfl
  | v :: vs, h => by
      obtain ⟨hv, hvs⟩ := Bool.and_eq_true_iff.1 h
      rw [eqvItems, v.eqv_refl hv, eqvItems_refl vs hvs]
      rfl

end

mutual

theorem Val.eqv_trans : ∀ a b c : Val, a.dictFree = true → a.eqv b = true → b.eqv c = true →
    a.eqv c = true
  | .none, b, c, _, hab, hbc => by
      obtain rfl := Val.eqv_none_left.1 hab
      exact hbc
  | .bool x, b, c, _, hab, hbc => Val.eqv_trans_number rfl hab hbc
  | .int x, b, c, _, hab, hbc => Val.eqv_trans_number rfl hab hbc
  | .float x text, b, c, _, hab, hbc => Val.eqv_trans_number rfl hab hbc
  | .str s, b, c, _, hab, hbc => by
      obtain rfl := Val.eqv_str_left.1 hab
      exact hbc
  | .list items, b, c, h, hab, hbc => by
      obtain ⟨others, rfl, hitems⟩ := Val.eqv_list_left.1 hab
      obtain ⟨more, rfl, hothers⟩ := Val.eqv_list_left.1 hbc
      exact Val.eqv_list_left.2 ⟨more, rfl, eqvItems_trans items others more h hitems hothers⟩

theorem eqvItems_trans : ∀ xs ys zs : List Val, dictFreeItems xs = true →
    eqvItems xs ys = true → eqvItems ys zs = true → eqvItems xs zs = true
  | [], ys, zs, _, hxy, hyz => by
      obtain rfl := eqvItems_nil_left.1 hxy
      exact hyz
  | x :: xs, ys, zs, h, hxy, hyz => by
      rw [dictFreeItems, Bool.and_eq_true_iff] at h
      obtain ⟨y, ys, rfl, hxy, hxys⟩ := eqvItems_cons_left.1 hxy
      obtain ⟨z, zs, rfl, hyz, hyzs⟩ := eqvItems_cons_left.1 hyz
      exact eqvItems_cons_left.2 ⟨z, zs, rfl, Val.eqv_trans x y z h.1 hxy hyz,
        eqvItems_trans xs ys zs h.2 hxys hyzs⟩

end

end FloWeaver.Py
