import BtApiSecurity.Py.Dict
import BtApiSecurity.Py.Number

/-!
# Values

The built-in Python values that `json.dumps` accepts, with their truth value,
their `==`, and the key order of `sort_keys=True`. `Value.isJson` singles out
those that `json.loads` can return.
-/

namespace BtApiSecurity.Py

inductive Key where
  | str (s : String)
  | int (i : Int)
  | float (x : PyFloat)
  | bool (b : Bool)
  | none
  deriving DecidableEq

inductive Value where
  | none
  | bool (b : Bool)
  | int (i : Int)
  | float (x : PyFloat)
  | str (s : String)
  | list (xs : List Value)
  | tuple (xs : List Value)
  | dict (items : List (Key × Value))
  deriving Inhabited

/-! ### Induction -/

@[elab_as_elim]
theorem Value.induct {P : Value → Prop} (none : P .none) (bool : ∀ b, P (.bool b))
    (int : ∀ i, P (.int i)) (float : ∀ x, P (.float x)) (str : ∀ s, P (.str s))
    (list : ∀ xs, (∀ x ∈ xs, P x) → P (.list xs)) (tuple : ∀ xs, (∀ x ∈ xs, P x) → P (.tuple xs))
    (dict : ∀ items, (∀ item ∈ items, P item.2) → P (.dict items)) (v : Value) : P v :=
  @Value.rec P (fun xs => ∀ x ∈ xs, P x) (fun items => ∀ item ∈ items, P item.2)
    (fun item => P item.2) none bool int float str list tuple dict
    (by simp) (fun _ _ first rest => List.forall_mem_cons.mpr ⟨first, rest⟩)
    (by simp) (fun _ _ first rest => List.forall_mem_cons.mpr ⟨first, rest⟩)
    (fun _ _ value => value) v

abbrev Value.record (fields : List (String × Value)) : Value :=
  .dict (fields.map fun field => (.str field.1, field.2))

def Value.truthy : Value → Bool
  | .none => false
  | .bool b => b
  | .int i => i ≠ 0
  | .float (.finite d) => d.digits ≠ []
  | .float _ => true
  | .str s => s ≠ ""
  | .list xs => !xs.isEmpty
  | .tuple xs => !xs.isEmpty
  | .dict items => !items.isEmpty

/-! ### Numbers and equality -/

/-- Where a number stands: `-∞`, a rational, or `+∞`. -/
inductive Extended where
  | bottom
  | rat (q : Rat)
  | top
  deriving DecidableEq

def PyFloat.extended : PyFloat → Option Extended
  | .nan => .none
  | .infinite true => some .bottom
  | .infinite false => some .top
  | .finite d => some (.rat d.toRat)

def Key.extended : Key → Option Extended
  | .int i => some (.rat i)
  | .bool b => some (.rat (if b then 1 else 0))
  | .float x => x.extended
  | _ => .none

def Value.extended : Value → Option Extended
  | .int i => some (.rat i)
  | .bool b => some (.rat (if b then 1 else 0))
  | .float x => x.extended
  | _ => .none

/-- Two numbers are equal when they stand at one place, of whatever types; `nan` equals nothing. -/
def sameNumber (x y : Option Extended) : Bool := x.isSome && x == y

def Key.pyEq : Key → Key → Bool
  | .str s, .str t => s == t
  | .none, .none => true
  | k, l => sameNumber k.extended l.extended

mutual

def Value.pyEq : Value → Value → Bool
  | .str s, w => match w with | .str t => s == t | _ => false
  | .none, w => match w with | .none => true | _ => false
  | .list xs, w => match w with | .list ys => pyEqAll xs ys | _ => false
  | .tuple xs, w => match w with | .tuple ys => pyEqAll xs ys | _ => false
  | .dict xs, w => match w with | .dict ys => xs.length == ys.length && pyEqItems xs ys | _ => false
  | .bool b, w => sameNumber (some (.rat (if b then 1 else 0))) w.extended
  | .int i, w => sameNumber (some (.rat i)) w.extended
  | .float x, w => sameNumber x.extended w.extended

def pyEqAll : List Value → List Value → Bool
  | [], ys => ys.isEmpty
  | x :: xs, ys => match ys with | [] => false | y :: ys => x.pyEq y && pyEqAll xs ys

/-- Every item on the left has an equal one on the right, in whatever order. -/
def pyEqItems : List (Key × Value) → List (Key × Value) → Bool
  | [], _ => true
  | (k, x) :: xs, ys => ys.any (fun item => k.pyEq item.1 && x.pyEq item.2) && pyEqItems xs ys

end

@[simp] theorem Value.pyEq_str (s t : String) : (Value.str s).pyEq (.str t) = (s == t) := by
  simp [Value.pyEq]

theorem Value.str_pyEq {v : Value} {t : String} : (Value.str t).pyEq v = true ↔ v = .str t := by
  cases v with
  | str s => rw [Value.pyEq_str, beq_iff_eq, Value.str.injEq, eq_comm]
  | _ => simp [Value.pyEq]

theorem Value.pyEq_eq_str {v : Value} {t : String} : v.pyEq (.str t) = true ↔ v = .str t := by
  cases v with
  | str s => rw [Value.pyEq_str, beq_iff_eq, Value.str.injEq]
  | float x => cases place : x.extended <;> simp [Value.pyEq, sameNumber, Value.extended, place]
  | _ => simp [Value.pyEq, sameNumber, Value.extended]

/-! ### Order -/

def Extended.le : Extended → Extended → Bool
  | .bottom, _ => true
  | _, .top => true
  | .rat p, .rat q => p ≤ q
  | _, _ => false

/-- `x <= y` between numbers; `nan` is on no side of anything. -/
def numberLe : Option Extended → Option Extended → Bool
  | some x, some y => x.le y
  | _, _ => false

/-- `x < y` between numbers. -/
def numberLt : Option Extended → Option Extended → Bool
  | some x, some y => !y.le x
  | _, _ => false

def Value.isNumber : Value → Bool
  | .int _ | .bool _ | .float _ => true
  | _ => false

/-- `v >= x` for a float; `none` is the `TypeError`. -/
def Value.geFloat? (v : Value) (x : PyFloat) : Option Bool :=
  if v.isNumber then some (numberLe x.extended v.extended) else .none

def numbersLt? (x : Option Extended) (w : Value) : Option Bool :=
  if w.isNumber then some (numberLt x w.extended) else .none

mutual

/-- `v < w`; `none` is the `TypeError`. -/
def Value.lt? : Value → Value → Option Bool
  | .str s, w => match w with | .str t => some (s < t) | _ => .none
  | .list xs, w => match w with | .list ys => ltAll? xs ys | _ => .none
  | .tuple xs, w => match w with | .tuple ys => ltAll? xs ys | _ => .none
  | .none, _ | .dict _, _ => .none
  | .bool b, w => numbersLt? (some (.rat (if b then 1 else 0))) w
  | .int i, w => numbersLt? (some (.rat i)) w
  | .float x, w => numbersLt? x.extended w

/-- The first two that differ decide. -/
def ltAll? : List Value → List Value → Option Bool
  | [], ys => some !ys.isEmpty
  | x :: xs, ys =>
    match ys with
    | [] => some false
    | y :: ys => if x.pyEq y then ltAll? xs ys else x.lt? y

end

theorem Value.lt?_float (x y : PyFloat) :
    (Value.float x).lt? (.float y) = some (numberLt x.extended y.extended) := by
  simp [Value.lt?, numbersLt?, Value.isNumber, Value.extended]

/-! ### Sorted keys -/

def Key.le : Key → Key → Bool
  | .str s, .str t => s ≤ t
  | k, l =>
    match k.extended, l.extended with
    | some p, some q => p.le q
    | _, _ => true

def Key.isStr : Key → Bool
  | .str _ => true
  | _ => false

def Key.isNumber : Key → Bool
  | .int _ | .float _ | .bool _ => true
  | _ => false

def comparable (keys : List Key) : Bool :=
  keys.length ≤ 1 || keys.all Key.isStr || keys.all Key.isNumber

mutual

/-- `sort_keys=True` raises a `TypeError` where this is false. -/
def Value.sortable : Value → Bool
  | .list xs | .tuple xs => sortableAll xs
  | .dict items => comparable (items.map Prod.fst) && sortableItems items
  | _ => true

def sortableAll : List Value → Bool
  | [] => true
  | x :: xs => x.sortable && sortableAll xs

def sortableItems : List (Key × Value) → Bool
  | [] => true
  | (_, x) :: xs => x.sortable && sortableItems xs

end

mutual

def Value.sortKeys : Value → Value
  | .list xs => .list (sortKeysAll xs)
  | .tuple xs => .tuple (sortKeysAll xs)
  | .dict items => .dict ((sortKeysItems items).mergeSort fun x y => x.1.le y.1)
  | v => v

def sortKeysAll : List Value → List Value
  | [] => []
  | x :: xs => x.sortKeys :: sortKeysAll xs

def sortKeysItems : List (Key × Value) → List (Key × Value)
  | [] => []
  | (k, x) :: xs => (k, x.sortKeys) :: sortKeysItems xs

end

/-! ### JSON values -/

mutual

/-- What `json.loads` returns: no tuples, and string keys that are distinct. -/
def Value.isJson : Value → Bool
  | .list xs => isJsonAll xs
  | .tuple _ => false
  | .dict items =>
    (items.map Prod.fst).all Key.isStr && decide (items.map Prod.fst).Nodup && isJsonItems items
  | _ => true

def isJsonAll : List Value → Bool
  | [] => true
  | x :: xs => x.isJson && isJsonAll xs

def isJsonItems : List (Key × Value) → Bool
  | [] => true
  | (_, x) :: xs => x.isJson && isJsonItems xs

end

theorem isJsonAll_iff {xs : List Value} : isJsonAll xs = true ↔ ∀ x ∈ xs, x.isJson = true := by
  induction xs with
  | nil => simp [isJsonAll]
  | cons x xs ih => simp [isJsonAll, ih]

theorem isJsonItems_iff {items : List (Key × Value)} :
    isJsonItems items = true ↔ ∀ item ∈ items, item.2.isJson = true := by
  induction items with
  | nil => simp [isJsonItems]
  | cons item items ih => simp [isJsonItems, ih]

theorem isJson_dict {items : List (Key × Value)} :
    (Value.dict items).isJson = true ↔
      (∀ item ∈ items, item.1.isStr = true) ∧ (items.map Prod.fst).Nodup ∧
        ∀ item ∈ items, item.2.isJson = true := by
  simp [Value.isJson, isJsonItems_iff, and_assoc]

theorem isJson_fromPairs {pairs : List (Key × Value)}
    (keys : ∀ pair ∈ pairs, pair.1.isStr = true) (json : ∀ pair ∈ pairs, pair.2.isJson = true) :
    (Value.dict (fromPairs pairs)).isJson = true :=
  isJson_dict.mpr ⟨fun _ h => keys _ (mem_fromPairs h), nodup_fromPairs pairs,
    fun _ h => json _ (mem_fromPairs h)⟩

mutual

theorem Value.sortable_of_isJson : ∀ {v : Value}, v.isJson = true → v.sortable = true
  | .none, _ | .bool _, _ | .int _, _ | .float _, _ | .str _, _ => rfl
  | .list xs, h => by
    simp only [Value.isJson] at h
    simp only [Value.sortable]
    exact sortableAll_of_isJson h
  | .dict items, h => by
    simp only [Value.isJson, Bool.and_eq_true] at h
    simp only [Value.sortable, comparable, Bool.and_eq_true, Bool.or_eq_true]
    exact ⟨Or.inl (Or.inr h.1.1), sortableItems_of_isJson h.2⟩

theorem sortableAll_of_isJson : ∀ {xs : List Value}, isJsonAll xs = true → sortableAll xs = true
  | [], _ => rfl
  | x :: xs, h => by
    simp only [isJsonAll, Bool.and_eq_true] at h
    simp only [sortableAll, Bool.and_eq_true]
    exact ⟨x.sortable_of_isJson h.1, sortableAll_of_isJson h.2⟩

theorem sortableItems_of_isJson :
    ∀ {items : List (Key × Value)}, isJsonItems items = true → sortableItems items = true
  | [], _ => rfl
  | (_, x) :: xs, h => by
    simp only [isJsonItems, Bool.and_eq_true] at h
    simp only [sortableItems, Bool.and_eq_true]
    exact ⟨x.sortable_of_isJson h.1, sortableItems_of_isJson h.2⟩

end

end BtApiSecurity.Py
