import FloWeaver.Py.Str
import Mathlib.Data.Rat.Floor
import Mathlib.Algebra.Order.Field.Rat

/-!
# Python values

Actions, parameters and metrics reach the program as decoded JSON: nested dicts and
lists of numbers, strings and booleans.  `Val` is such a value and `Dict` an association
list in insertion order.  A float is a rational number with the text `str` prints for it;
infinities and NaN are left out.

* `Val.truthy`, `Val.pyStr`, `Val.toInt`, `Val.toFloat` — `bool`, `str`, `int` and `float`.
* `Dict.get`, `Dict.set` — reading with `None` as the default, and writing in place.
* `Val.freeze`, `Val.eqv` — the hashable form of a value and Python's `==`.
-/

namespace FloWeaver.Py

/-- The exceptions the conversions raise. -/
inductive PyErr where
  | valueError
  | typeError
  | attributeError
  | keyError
  | indexError
deriving DecidableEq, Repr

/-- A sequence of two computations succeeds when both do. -/
theorem bind_eq_ok {ε α β : Type} {x : Except ε α} {g : α → Except ε β} {b : β} :
    (x >>= g) = .ok b ↔ ∃ a, x = .ok a ∧ g a = .ok b := by
  cases x <;> simp [bind, Except.bind]

theorem bind_eq_error {ε α β : Type} {x : Except ε α} {g : α → Except ε β} {e : ε} :
    (x >>= g) = .error e ↔ x = .error e ∨ ∃ a, x = .ok a ∧ g a = .error e := by
  cases x <;> simp [bind, Except.bind]

theorem pure_eq_ok {ε α : Type} {a b : α} : (pure a : Except ε α) = .ok b ↔ a = b := by
  simp [pure, Except.pure]

/-- A sequence returns when its first part does and every continuation does. -/
theorem exists_bind_ok {ε α β : Type} {x : Except ε α} {f : α → Except ε β}
    (hx : ∃ a, x = .ok a) (hf : ∀ a, x = .ok a → ∃ b, f a = .ok b) : ∃ b, x >>= f = .ok b := by
  obtain ⟨a, ha⟩ := hx
  obtain ⟨b, hb⟩ := hf a ha
  exact ⟨b, bind_eq_ok.2 ⟨a, ha, hb⟩⟩

theorem exists_ite_ok {ε α : Type} {p : Prop} [Decidable p] {x y : Except ε α}
    (hx : ∃ a, x = .ok a) (hy : ∃ a, y = .ok a) : ∃ a, (if p then x else y) = .ok a := by
  split_ifs
  · exact hx
  · exact hy

/-- A value of a run, from what the run shows. -/
theorem exists_ok_of_shows {ε α β : Type} {x : Except ε α} {f : α → β} {b : β}
    (h : x.toOption.map f = some b) : ∃ a, x = .ok a ∧ f a = b := by
  cases x with
  | error e => simp [Except.toOption] at h
  | ok a => exact ⟨a, rfl, Option.some.inj h⟩

/-- Every result of a list of computations comes from one of them. -/
theorem mem_of_mapM_ok {ε α β : Type} {g : α → Except ε β} {l : List α} {bs : List β}
    (h : l.mapM g = .ok bs) : ∀ b ∈ bs, ∃ a ∈ l, g a = .ok b := by
  induction l generalizing bs with
  | nil =>
    obtain rfl := pure_eq_ok.1 (List.mapM_nil (f := g) ▸ h)
    simp
  | cons a l ih =>
    rw [List.mapM_cons, bind_eq_ok] at h
    obtain ⟨b, hb, h⟩ := h
    obtain ⟨rest, hrest, h⟩ := bind_eq_ok.1 h
    obtain rfl := pure_eq_ok.1 h
    intro x hx
    rcases List.mem_cons.1 hx with rfl | hx
    · exact ⟨a, by simp, hb⟩
    · obtain ⟨y, hy, hyx⟩ := ih hrest x hx
      exact ⟨y, by simp [hy], hyx⟩

/-- Each of a list of computations gives one of the results. -/
theorem mem_mapM_of_ok {ε α β : Type} {f : α → Except ε β} {l : List α} {bs : List β}
    (h : l.mapM f = .ok bs) {a : α} (ha : a ∈ l) : ∃ b ∈ bs, f a = .ok b := by
  induction l generalizing bs with
  | nil => simp at ha
  | cons x l ih =>
    rw [List.mapM_cons, bind_eq_ok] at h
    obtain ⟨b, hb, h⟩ := h
    obtain ⟨rest, hrest, h⟩ := bind_eq_ok.1 h
    obtain rfl := pure_eq_ok.1 h
    rcases List.mem_cons.1 ha with rfl | ha
    · exact ⟨b, List.mem_cons_self, hb⟩
    · obtain ⟨c, hc, hac⟩ := ih hrest ha
      exact ⟨c, List.mem_cons_of_mem _ hc, hac⟩

/-- A computation over a list fails where one of its elements does. -/
theorem error_of_mapM {ε α β : Type} {f : α → Except ε β} {l : List α} {e : ε}
    (h : l.mapM f = .error e) : ∃ a ∈ l, f a = .error e := by
  induction l with
  | nil => cases h
  | cons a rest ih =>
    rw [List.mapM_cons, bind_eq_error] at h
    rcases h with h | ⟨b, -, h⟩
    · exact ⟨a, List.mem_cons_self, h⟩
    · rcases bind_eq_error.1 h with h | ⟨bs, -, h⟩
      · obtain ⟨c, hc, hce⟩ := ih h
        exact ⟨c, List.mem_cons_of_mem _ hc, hce⟩
      · cases h

theorem error_of_foldlM {ε α β : Type} {f : β → α → Except ε β} {l : List α} {b : β} {e : ε}
    (h : l.foldlM f b = .error e) : ∃ b a, f b a = .error e := by
  induction l generalizing b with
  | nil => cases h
  | cons a rest ih =>
    rw [List.foldlM_cons, bind_eq_error] at h
    rcases h with h | ⟨c, -, h⟩
    · exact ⟨b, a, h⟩
    · exact ih h

theorem exists_mapM_ok {ε α β : Type} {f : α → Except ε β} {l : List α}
    (h : ∀ a ∈ l, ∃ b, f a = .ok b) : ∃ bs, l.mapM f = .ok bs := by
  induction l with
  | nil => exact ⟨[], rfl⟩
  | cons a l ih =>
    obtain ⟨b, hb⟩ := h a List.mem_cons_self
    obtain ⟨bs, hbs⟩ := ih fun x hx => h x (List.mem_cons_of_mem _ hx)
    exact ⟨b :: bs, by rw [List.mapM_cons, hb, hbs]; rfl⟩

theorem exists_filterAuxM_ok {ε α : Type} {f : α → Except ε Bool} {l : List α}
    (h : ∀ a ∈ l, ∃ b, f a = .ok b) (acc : List α) : ∃ m, l.filterAuxM f acc = .ok m := by
  induction l generalizing acc with
  | nil => exact ⟨acc, rfl⟩
  | cons a l ih =>
    obtain ⟨b, hb⟩ := h a List.mem_cons_self
    obtain ⟨m, hm⟩ := ih (fun x hx => h x (List.mem_cons_of_mem _ hx)) (bif b then a :: acc else acc)
    exact ⟨m, bind_eq_ok.2 ⟨b, hb, hm⟩⟩

/-- A filter succeeds when every test does. -/
theorem exists_filterM_ok {ε α : Type} {f : α → Except ε Bool} {l : List α}
    (h : ∀ a ∈ l, ∃ b, f a = .ok b) : ∃ m, l.filterM f = .ok m := by
  obtain ⟨acc, hacc⟩ := exists_filterAuxM_ok h []
  exact ⟨acc.reverse, bind_eq_ok.2 ⟨acc, hacc, rfl⟩⟩

/-- A loop succeeds when every step does. -/
theorem exists_foldlM_ok {ε α β : Type} {f : β → α → Except ε β} {l : List α}
    (h : ∀ b, ∀ a ∈ l, ∃ b', f b a = .ok b') (b : β) : ∃ b', l.foldlM f b = .ok b' := by
  induction l generalizing b with
  | nil => exact ⟨b, rfl⟩
  | cons a l ih =>
    obtain ⟨c, hc⟩ := h b a List.mem_cons_self
    obtain ⟨b', hb'⟩ := ih (fun b x hx => h b x (List.mem_cons_of_mem _ hx)) c
    exact ⟨b', bind_eq_ok.2 ⟨c, hc, hb'⟩⟩

/-- The results of a list of computations, one for one. -/
theorem forall₂_of_mapM_ok {ε α β : Type} {f : α → Except ε β} {l : List α} {bs : List β}
    (h : l.mapM f = .ok bs) : List.Forall₂ (fun a b => f a = .ok b) l bs := by
  induction l generalizing bs with
  | nil =>
    obtain rfl := pure_eq_ok.1 (List.mapM_nil (f := f) ▸ h)
    exact .nil
  | cons a l ih =>
    rw [List.mapM_cons, bind_eq_ok] at h
    obtain ⟨b, hb, h⟩ := h
    obtain ⟨rest, hrest, h⟩ := bind_eq_ok.1 h
    obtain rfl := pure_eq_ok.1 h
    exact .cons hb (ih hrest)

theorem filterAuxM_eq_filter {ε α : Type} {f : α → Except ε Bool} {g : α → Bool} {l acc m : List α}
    (hfg : ∀ a ∈ l, ∀ b, f a = .ok b → b = g a) (h : l.filterAuxM f acc = .ok m) :
    m = (l.filter g).reverse ++ acc := by
  induction l generalizing acc with
  | nil => exact (pure_eq_ok.1 h).symm
  | cons a l ih =>
    obtain ⟨keep, hkeep, h⟩ := bind_eq_ok.1 h
    rw [ih (fun x hx => hfg x (List.mem_cons_of_mem _ hx)) h, List.filter_cons,
      ← hfg a List.mem_cons_self keep hkeep]
    cases keep <;> simp

/-- A filter that may fail keeps what a total one keeps. -/
theorem filterM_eq_filter {ε α : Type} {f : α → Except ε Bool} {g : α → Bool} {l m : List α}
    (hfg : ∀ a ∈ l, ∀ b, f a = .ok b → b = g a) (h : l.filterM f = .ok m) : m = l.filter g := by
  obtain ⟨acc, hacc, h⟩ := bind_eq_ok.1 h
  rw [← pure_eq_ok.1 h, filterAuxM_eq_filter hfg hacc, List.append_nil, List.reverse_reverse]

/-- A filter keeps only what it is given. -/
theorem mem_of_filterM_ok {ε α : Type} {f : α → Except ε Bool} {l m : List α}
    (h : l.filterM f = .ok m) {a : α} (ha : a ∈ m) : a ∈ l := by
  have hfilter := filterM_eq_filter (g := fun a => (f a).toOption.getD false)
    (fun a _ b hb => by rw [hb]; rfl) h
  rw [hfilter] at ha
  exact (List.mem_filter.1 ha).1

/-- What every step of a loop keeps, the loop keeps. -/
theorem foldlM_ok_induction {ε α β : Type} {f : β → α → Except ε β} {P : β → Prop} {l : List α}
    {b b' : β} (hb : P b) (hstep : ∀ b a b', a ∈ l → P b → f b a = .ok b' → P b')
    (h : l.foldlM f b = .ok b') : P b' := by
  induction l generalizing b with
  | nil => exact pure_eq_ok.1 h ▸ hb
  | cons a l ih =>
    rw [List.foldlM_cons, bind_eq_ok] at h
    obtain ⟨c, hc, h⟩ := h
    exact ih (hstep b a c List.mem_cons_self hb hc)
      (fun b a b' ha => hstep b a b' (List.mem_cons_of_mem _ ha)) h

/-- What the results tell of the elements they come from. -/
theorem map_eq_of_mapM_ok {ε α β : Type} {f : α → Except ε β} {g : β → α} {l : List α}
    {bs : List β} (hg : ∀ a b, f a = .ok b → g b = a) (h : l.mapM f = .ok bs) : bs.map g = l := by
  have hpairs := forall₂_of_mapM_ok h
  clear h
  induction hpairs with
  | nil => rfl
  | cons hab _ ih => rw [List.map_cons, hg _ _ hab, ih]

/-- A search that meets an element with the property finds it. -/
theorem eq_true_of_anyM_ok {ε α : Type} {f : α → Except ε Bool} {l : List α} {b : Bool} {a : α}
    (h : l.anyM f = .ok b) (ha : a ∈ l) (hf : f a = .ok true) : b = true := by
  induction l with
  | nil => cases ha
  | cons x l ih =>
    obtain ⟨found, hx, h⟩ := bind_eq_ok.1 h
    cases found with
    | true => exact (pure_eq_ok.1 h).symm
    | false =>
      rcases List.mem_cons.1 ha with rfl | ha
      · exact absurd (Except.ok.inj (hx.symm.trans hf)) Bool.false_ne_true
      · exact ih h ha

/-- What is looked up in a table is in the table. -/
theorem mem_of_lookup {κ υ : Type*} [DecidableEq κ] {table : List (κ × υ)} {key : κ} {value : υ}
    (h : table.lookup key = some value) : (key, value) ∈ table := by
  obtain ⟨before, after, rfl, -⟩ := List.lookup_eq_some_iff.1 h
  exact List.mem_append_right _ List.mem_cons_self

/-- A table with one row for each key gives what is in the row. -/
theorem lookup_of_mem {κ υ : Type*} [DecidableEq κ] {table : List (κ × υ)}
    (hnodup : (table.map Prod.fst).Nodup) {row : κ × υ} (hrow : row ∈ table) :
    table.lookup row.1 = some row.2 := by
  obtain ⟨before, after, rfl⟩ := List.append_of_mem hrow
  refine List.lookup_eq_some_iff.2 ⟨before, after, rfl, fun other hother => ?_⟩
  rw [List.map_append, List.nodup_append] at hnodup
  have hne := hnodup.2.2 other.1 (List.mem_map_of_mem hother) row.1 List.mem_cons_self
  simpa using hne.symm

/-- A Python value. -/
inductive Val where
  | none
  | bool (b : Bool)
  | int (i : ℤ)
  | float (value : ℚ) (text : String)
  | str (s : String)
  | list (items : List Val)
  | dict (rows : List (String × Val))

instance : Inhabited Val := ⟨.none⟩

/-- A dict with string keys, in insertion order. -/
abbrev Dict := List (String × Val)

/-! ## Dicts -/

namespace Dict

def get? (d : Dict) (key : String) : Option Val := (d.find? (fun row => row.1 = key)).map (·.2)

/-- `d.get(key)`. -/
def get (d : Dict) (key : String) : Val := (d.get? key).getD .none

/-- `d.get(key, default)`. -/
def getD (d : Dict) (key : String) (default : Val) : Val := (d.get? key).getD default

/-- `d[key] = value`. -/
def set : Dict → String → Val → Dict
  | [], key, value => [(key, value)]
  | row :: rows, key, value =>
      if row.1 = key then (key, value) :: rows else row :: set rows key value

/-- `d.update(rows)`. -/
def update (d rows : Dict) : Dict := rows.foldl (fun d row => set d row.1 row.2) d

theorem get?_cons (row : String × Val) (d : Dict) (k : String) :
    get? (row :: d) k = if row.1 = k then some row.2 else get? d k := by
  by_cases h : row.1 = k <;> simp [get?, h]

theorem get?_set (d : Dict) (key : String) (value : Val) (k : String) :
    (d.set key value).get? k = if key = k then some value else d.get? k := by
  induction d with
  | nil => exact get?_cons (key, value) [] k
  | cons row rows ih =>
    rw [set]
    by_cases hrow : row.1 = key
    · subst hrow
      rw [if_pos rfl, get?_cons, get?_cons]
      split_ifs <;> rfl
    · rw [if_neg hrow, get?_cons, get?_cons, ih]
      split_ifs with h1 h2
      · exact absurd (h1.trans h2.symm) hrow
      · rfl
      · rfl
      · rfl

theorem mem_keys_set {d : Dict} {key : String} {value : Val} {k : String} :
    k ∈ (d.set key value).map (·.1) ↔ k ∈ d.map (·.1) ∨ k = key := by
  induction d with
  | nil => simp [set]
  | cons row rows ih =>
    rw [set]
    split_ifs with hrow
    · rw [List.map_cons, List.map_cons, List.mem_cons, List.mem_cons, hrow]
      tauto
    · rw [List.map_cons, List.map_cons, List.mem_cons, List.mem_cons, ih, or_assoc]

theorem nodup_keys_set {d : Dict} (key : String) (value : Val) (h : (d.map (·.1)).Nodup) :
    ((d.set key value).map (·.1)).Nodup := by
  induction d with
  | nil => simp [set]
  | cons row rows ih =>
    rw [List.map_cons, List.nodup_cons] at h
    rw [set]
    split_ifs with hrow
    · rw [List.map_cons, List.nodup_cons, ← hrow]
      exact h
    · rw [List.map_cons, List.nodup_cons, mem_keys_set, not_or]
      exact ⟨⟨h.1, hrow⟩, ih h.2⟩

end Dict

/-! ## Printing -/

/-- One character of `repr` of a string quoted with `quote`. -/
def reprChar (quote : Char) (c : Char) : List Char :=
  if c = quote ∨ c = '\\' then ['\\', c]
  else if c = '\n' then ['\\', 'n']
  else if c = '\r' then ['\\', 'r']
  else if c = '\t' then ['\\', 't']
  else if c.toNat < 32 ∨ c.toNat = 127 then
    ['\\', 'x', Nat.digitChar (c.toNat / 16), Nat.digitChar (c.toNat % 16)]
  else [c]

/-- `repr` of a string. -/
def reprStr (s : String) : String :=
  let quote := if s.toList.contains '\'' && !s.toList.contains '"' then '"' else '\''
  String.ofList (quote :: s.toList.flatMap (reprChar quote) ++ [quote])

mutual

/-- `repr` of a value. -/
def Val.repr : Val → String
  | .none => "None"
  | .bool b => if b then "True" else "False"
  | .int i => toString i
  | .float _ text => text
  | .str s => reprStr s
  | .list items => "[" ++ join ", " (reprItems items) ++ "]"
  | .dict rows => "\x7b" ++ join ", " (reprRows rows) ++ "\x7d"

def reprItems : List Val → List String
  | [] => []
  | v :: vs => v.repr :: reprItems vs

def reprRow : String × Val → String
  | (key, v) => reprStr key ++ ": " ++ v.repr

def reprRows : List (String × Val) → List String
  | [] => []
  | row :: rows => reprRow row :: reprRows rows

end

namespace Val

/-- `str(v)`. -/
def pyStr : Val → String
  | .str s => s
  | v => v.repr

/-! ## Tests and conversions -/

/-- `bool(v)`. -/
def truthy : Val → Bool
  | .none => false
  | .bool b => b
  | .int i => i ≠ 0
  | .float q _ => q ≠ 0
  | .str s => s ≠ ""
  | .list items => !items.isEmpty
  | .dict rows => !rows.isEmpty

/-- `a or b`. -/
def or (a b : Val) : Val := if a.truthy then a else b

/-- `isinstance(v, (int, float))`; a `bool` is an `int`. -/
def isNumber : Val → Bool
  | .bool _ | .int _ | .float _ _ => true
  | _ => false

/-- `isinstance(v, int)`. -/
def isInt : Val → Bool
  | .bool _ | .int _ => true
  | _ => false

/-- `v if isinstance(v, dict) else {}`. -/
def asDict : Val → Dict
  | .dict rows => rows
  | _ => []

/-- The dict whose `get` is called; anything else has no such attribute. -/
def needDict : Val → Except PyErr Dict
  | .dict rows => .ok rows
  | _ => .error .attributeError

/-- The items of a list, and the characters or keys of the other iterables. -/
def needItems : Val → Except PyErr (List Val)
  | .list items => .ok items
  | .str s => .ok (s.toList.map (fun c => .str (String.ofList [c])))
  | .dict rows => .ok (rows.map (fun row => .str row.1))
  | _ => .error .typeError

end Val

/-! ## Numerals -/

def isDigit (c : Char) : Bool := '0' ≤ c && c ≤ '9'

/-- The value of a digit sequence in which single underscores may separate digits. -/
def readDigits : List Char → Option ℕ
  | cs => go none cs
where
  /-- `acc` is what was read so far, `none` before a digit that must come. -/
  go : Option ℕ → List Char → Option ℕ
    | acc, [] => acc
    | acc, c :: cs =>
        if isDigit c then go (some (acc.getD 0 * 10 + (c.toNat - '0'.toNat))) cs
        else if c = '_' then
          match acc, cs with
          | some n, d :: ds =>
              if isDigit d then go (some (n * 10 + (d.toNat - '0'.toNat))) ds else none
          | _, _ => none
        else none

/-- A sign and what follows it. -/
def readSign : List Char → Bool × List Char
  | '-' :: cs => (true, cs)
  | '+' :: cs => (false, cs)
  | cs => (false, cs)

/-- `int(s)` for a string. -/
def readInt (s : String) : Option ℤ :=
  let (neg, cs) := readSign (stripL s.toList)
  (readDigits cs).map (fun n => if neg then -(n : ℤ) else n)

/-- A decimal fraction: digits, and more digits after a point. -/
def readDecimal (cs : List Char) : Option ℚ :=
  match splitOnceL ['.'] cs with
  | none => (readDigits cs).map (fun n => (n : ℚ))
  | some (whole, frac) =>
      let digits := (frac.filter (· ≠ '_')).length
      match whole, frac with
      | [], [] => none
      | [], _ => (readDigits frac).map (fun n => (n : ℚ) / 10 ^ digits)
      | _, [] => (readDigits whole).map (fun n => (n : ℚ))
      | _, _ => do
          let w ← readDigits whole
          let f ← readDigits frac
          pure ((w : ℚ) + (f : ℚ) / 10 ^ digits)

/-- `float(s)` for a string. -/
def readFloat (s : String) : Option ℚ :=
  let (neg, cs) := readSign (stripL s.toList)
  let value :=
    match splitOnceL ['e'] (lowerL cs) with
    | none => readDecimal cs
    | some (mantissa, exponent) => do
        let m ← readDecimal mantissa
        let (negExp, es) := readSign exponent
        let e ← readDigits es
        pure (if negExp then m / 10 ^ e else m * 10 ^ e)
  value.map (fun q => if neg then -q else q)

namespace Val

/-- `int(q)`: the fraction is cut off. -/
def truncate (q : ℚ) : ℤ := q.num.tdiv q.den

/-- `round(q)`: the nearest integer, of two that are equally near the even one. -/
def roundHalfEven (q : ℚ) : ℤ :=
  let below := ⌊q⌋
  if q - below < 1 / 2 then below
  else if 1 / 2 < q - below then below + 1
  else if below % 2 = 0 then below
  else below + 1

/-- `int(v)`. -/
def toInt : Val → Except PyErr ℤ
  | .bool b => .ok (if b then 1 else 0)
  | .int i => .ok i
  | .float q _ => .ok (truncate q)
  | .str s => (readInt s).elim (.error .valueError) .ok
  | _ => .error .typeError

/-- `float(v)`. -/
def toFloat : Val → Except PyErr ℚ
  | .bool b => .ok (if b then 1 else 0)
  | .int i => .ok i
  | .float q _ => .ok q
  | .str s => (readFloat s).elim (.error .valueError) .ok
  | _ => .error .typeError

/-- The value of a number; the callers have tested `isNumber`. -/
def number : Val → ℚ
  | .bool b => if b then 1 else 0
  | .int i => i
  | .float q _ => q
  | _ => 0

/-- `int` of a number. -/
def numberInt (v : Val) : ℤ := truncate v.number

end Val

/-! ## Equality -/

mutual

/-- Python's `==`. -/
def Val.eqv : Val → Val → Bool
  | .none, .none => true
  | .str a, .str b => a = b
  | .list xs, .list ys => eqvItems xs ys
  | .dict xs, .dict ys => xs.length = ys.length && eqvRows xs ys
  | a, b => a.isNumber && b.isNumber && a.number = b.number

def eqvItems : List Val → List Val → Bool
  | [], [] => true
  | x :: xs, y :: ys => x.eqv y && eqvItems xs ys
  | _, _ => false

def eqvRow : String × Val → List (String × Val) → Bool
  | (key, v), ys => ((Dict.get? ys key).map v.eqv).getD false

def eqvRows : List (String × Val) → List (String × Val) → Bool
  | [], _ => true
  | row :: rows, ys => eqvRow row ys && eqvRows rows ys

end

mutual

/-- `_freeze_value`: dicts become sorted lists of pairs. -/
def Val.freeze : Val → Val
  | .list items => .list (freezeItems items)
  | .dict rows => .list (((freezeRows rows).insertionSort (fun a b => a.1 ≤ b.1)).map
      (fun row => .list [.str row.1, row.2]))
  | v => v

def freezeItems : List Val → List Val
  | [] => []
  | v :: vs => v.freeze :: freezeItems vs

def freezeRow : String × Val → String × Val
  | (key, v) => (key, v.freeze)

def freezeRows : List (String × Val) → List (String × Val)
  | [] => []
  | row :: rows => freezeRow row :: freezeRows rows

end

end FloWeaver.Py
