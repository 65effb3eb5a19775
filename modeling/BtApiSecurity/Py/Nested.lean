import BtApiSecurity.Py.Value
import Mathlib.Data.List.Forall2

/-!
# Strings inside values

Values nest lists, tuples and dictionaries over strings and other scalars. A
relation of strings is carried over to values of one shape, and a string is found by
the keys and indices that lead to it.
-/

namespace BtApiSecurity.Py

mutual

/-- All strings of a value but for keys. -/
def Value.strings : Value → List String
  | .str s => [s]
  | .list xs => stringsAll xs
  | .tuple xs => stringsAll xs
  | .dict items => stringsItems items
  | .none | .bool _ | .int _ | .float _ => []

def stringsAll : List Value → List String
  | [] => []
  | x :: xs => x.strings ++ stringsAll xs

def stringsItems : List (Key × Value) → List String
  | [] => []
  | (_, x) :: items => x.strings ++ stringsItems items

end

mutual

/-- The strings of a value that are in a tuple, at whatever depth. -/
def Value.tupleStrings : Value → List String
  | .tuple xs => stringsAll xs
  | .list xs => tupleStringsAll xs
  | .dict items => tupleStringsItems items
  | .none | .bool _ | .int _ | .float _ | .str _ => []

def tupleStringsAll : List Value → List String
  | [] => []
  | x :: xs => x.tupleStrings ++ tupleStringsAll xs

def tupleStringsItems : List (Key × Value) → List String
  | [] => []
  | (_, x) :: items => x.tupleStrings ++ tupleStringsItems items

end

mutual

/-- The same nesting with the same keys and the same other scalars, and related strings. -/
def Value.Leafwise (R : String → String → Prop) : Value → Value → Prop
  | .str s, w => ∃ t, w = .str t ∧ R s t
  | .list xs, w => ∃ ys, w = .list ys ∧ LeafwiseAll R xs ys
  | .tuple xs, w => ∃ ys, w = .tuple ys ∧ LeafwiseAll R xs ys
  | .dict items, w => ∃ items', w = .dict items' ∧ LeafwiseItems R items items'
  | .none, w => w = .none
  | .bool b, w => w = .bool b
  | .int i, w => w = .int i
  | .float x, w => w = .float x

def LeafwiseAll (R : String → String → Prop) : List Value → List Value → Prop
  | [], ys => ys = []
  | x :: xs, ys => ∃ y ys', ys = y :: ys' ∧ x.Leafwise R y ∧ LeafwiseAll R xs ys'

def LeafwiseItems (R : String → String → Prop) : List (Key × Value) → List (Key × Value) → Prop
  | [], items' => items' = []
  | (k, x) :: items, items' =>
    ∃ y rest, items' = (k, y) :: rest ∧ x.Leafwise R y ∧ LeafwiseItems R items rest

end

variable {R : String → String → Prop}

/-! ### One list at a time -/

theorem mem_stringsAll {xs : List Value} {s : String} : s ∈ stringsAll xs ↔ ∃ x ∈ xs, s ∈ x.strings := by
  induction xs with
  | nil => simp [stringsAll]
  | cons x xs ih => simp [stringsAll, ih]

theorem mem_stringsItems {items : List (Key × Value)} {s : String} :
    s ∈ stringsItems items ↔ ∃ item ∈ items, s ∈ item.2.strings := by
  induction items with
  | nil => simp [stringsItems]
  | cons item items ih => simp [stringsItems, ih]

theorem mem_tupleStringsAll {xs : List Value} {s : String} :
    s ∈ tupleStringsAll xs ↔ ∃ x ∈ xs, s ∈ x.tupleStrings := by
  induction xs with
  | nil => simp [tupleStringsAll]
  | cons x xs ih => simp [tupleStringsAll, ih]

theorem mem_tupleStringsItems {items : List (Key × Value)} {s : String} :
    s ∈ tupleStringsItems items ↔ ∃ item ∈ items, s ∈ item.2.tupleStrings := by
  induction items with
  | nil => simp [tupleStringsItems]
  | cons item items ih => simp [tupleStringsItems, ih]

/-- An image of a list, element by element. -/
theorem leafwiseAll_map (xs : List Value) (f : Value → Value) :
    LeafwiseAll R xs (xs.map f) ↔ ∀ x ∈ xs, x.Leafwise R (f x) := by
  induction xs with
  | nil => simp [LeafwiseAll]
  | cons x xs ih => simp [LeafwiseAll, ih]

theorem leafwiseItems_map (items : List (Key × Value)) (f : Value → Value) :
    LeafwiseItems R items (items.map fun item => (item.1, f item.2)) ↔
      ∀ item ∈ items, item.2.Leafwise R (f item.2) := by
  induction items with
  | nil => simp [LeafwiseItems]
  | cons item items ih => simp [LeafwiseItems, ih]

/-! ### A value and itself -/

theorem leafwise_list {xs ys : List Value} :
    (Value.list xs).Leafwise R (.list ys) ↔ LeafwiseAll R xs ys := by
  simp [Value.Leafwise]

theorem leafwise_tuple {xs ys : List Value} :
    (Value.tuple xs).Leafwise R (.tuple ys) ↔ LeafwiseAll R xs ys := by
  simp [Value.Leafwise]

theorem leafwise_dict {items items' : List (Key × Value)} :
    (Value.dict items).Leafwise R (.dict items') ↔ LeafwiseItems R items items' := by
  simp [Value.Leafwise]

/-- Of a list each element is asked, and of an element each string. -/
theorem forall_strings {α : Type} {xs : List α} {strings : α → List String} {P : String → Prop} :
    (∀ s, (∃ x ∈ xs, s ∈ strings x) → P s) ↔ ∀ x ∈ xs, ∀ s ∈ strings x, P s := by
  constructor
  · intro each x member s inside
    exact each s ⟨x, member, inside⟩
  · rintro each s ⟨x, member, inside⟩
    exact each x member s inside

/-- A value is related to itself, if each of its strings is. -/
theorem Value.leafwise_self (v : Value) : v.Leafwise R v ↔ ∀ s ∈ v.strings, R s s := by
  induction v using Value.induct with
  | none | bool | int | float | str => simp [Leafwise, strings]
  | list xs ih =>
    have each := leafwiseAll_map (R := R) xs id
    rw [List.map_id] at each
    simp only [leafwise_list, each, strings, mem_stringsAll, forall_strings]
    exact forall₂_congr ih
  | tuple xs ih =>
    have each := leafwiseAll_map (R := R) xs id
    rw [List.map_id] at each
    simp only [leafwise_tuple, each, strings, mem_stringsAll, forall_strings]
    exact forall₂_congr ih
  | dict items ih =>
    have each := leafwiseItems_map (R := R) items id
    rw [show items.map (fun item => (item.1, id item.2)) = items from List.map_id items] at each
    simp only [leafwise_dict, each, strings, mem_stringsItems, forall_strings]
    exact forall₂_congr ih

/-! ### Positions -/

inductive Place where
  | key (k : Key)
  | index (i : Nat)
  deriving DecidableEq

/-- The value at the end of a path through dictionaries and lists. -/
def Value.at : List Place → Value → Option Value
  | [], v => some v
  | .key k :: path, .dict items => (find k items).bind (Value.at path)
  | .index i :: path, .list xs => xs[i]?.bind (Value.at path)
  | _ :: _, _ => .none

end BtApiSecurity.Py
