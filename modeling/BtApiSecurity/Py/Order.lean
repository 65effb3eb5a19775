import Mathlib.Data.String.Basic
import BtApiSecurity.Py.Value

/-!
# Comparing and sorting

`<` between Python values never holds both ways, also where `nan` makes it no
order. Sorting by such a comparison puts no element directly before one that has
to stand in front of it.
-/

namespace BtApiSecurity.Py

/-! ### Numbers -/

theorem Extended.le_total (x y : Extended) : x.le y = true ∨ y.le x = true := by
  cases x <;> cases y <;> simp [Extended.le, Rat.le_total]

theorem Extended.le_trans {x y z : Extended} (xy : x.le y = true) (yz : y.le z = true) :
    x.le z = true := by
  cases x <;> cases y <;> cases z <;> simp_all [Extended.le]
  exact xy.trans yz

theorem numberLt_asymm {x y : Option Extended} (less : numberLt x y = true) : numberLt y x = false := by
  cases x with
  | none => cases less
  | some x =>
    cases y with
    | none => cases less
    | some y =>
      have not_le : y.le x = false := by simpa [numberLt] using less
      simpa [numberLt, not_le] using x.le_total y

theorem isSome_of_numberLe {x y : Option Extended} (le : numberLe x y = true) :
    x.isSome = true ∧ y.isSome = true := by
  cases x with
  | none => cases le
  | some x =>
    cases y with
    | none => cases le
    | some y => exact ⟨rfl, rfl⟩

theorem numberLt_of_le {x y : Option Extended} (le : numberLe x y = true) : numberLt y x = false := by
  cases x with
  | none => cases le
  | some x =>
    cases y with
    | none => cases le
    | some y => simpa [numberLe, numberLt] using le

theorem numberLe_of_not_lt {x y : Option Extended} (hx : x.isSome = true) (hy : y.isSome = true)
    (not_lt : numberLt y x = false) : numberLe x y = true := by
  obtain ⟨x, rfl⟩ := Option.isSome_iff_exists.mp hx
  obtain ⟨y, rfl⟩ := Option.isSome_iff_exists.mp hy
  simpa [numberLe, numberLt] using not_lt

theorem numberLe_trans {x y z : Option Extended} (xy : numberLe x y = true)
    (yz : numberLe y z = true) : numberLe x z = true := by
  obtain ⟨x, rfl⟩ := Option.isSome_iff_exists.mp (isSome_of_numberLe xy).1
  obtain ⟨y, rfl⟩ := Option.isSome_iff_exists.mp (isSome_of_numberLe xy).2
  obtain ⟨z, rfl⟩ := Option.isSome_iff_exists.mp (isSome_of_numberLe yz).2
  exact Extended.le_trans xy yz

theorem numberLt_of_same {x y : Option Extended} (same : sameNumber x y = true) :
    numberLt y x = false := by
  simp only [sameNumber, Bool.and_eq_true, beq_iff_eq] at same
  obtain ⟨number, rfl⟩ := same
  obtain ⟨x, rfl⟩ := Option.isSome_iff_exists.mp number
  simpa [numberLt] using x.le_total x

/-! ### Values -/

theorem pyEq_of_number {x : Value} (number : x.isNumber = true) (y : Value) :
    x.pyEq y = sameNumber x.extended y.extended := by
  cases x with
  | bool | int | float => simp [Value.pyEq, Value.extended]
  | _ => cases number

theorem lt_of_number {x : Value} (number : x.isNumber = true) (y : Value) :
    x.lt? y = numbersLt? x.extended y := by
  cases x with
  | bool | int | float => simp [Value.lt?, Value.extended]
  | _ => cases number

theorem isNumber_of_extended {x : Value} (place : x.extended.isSome = true) : x.isNumber = true := by
  cases x with
  | bool | int | float => rfl
  | _ => cases place

theorem isNumber_of_numbersLt {p : Option Extended} {y : Value} {b : Bool}
    (compared : numbersLt? p y = some b) : y.isNumber = true ∧ b = numberLt p y.extended := by
  unfold numbersLt? at compared
  split at compared
  · rename_i number
    exact ⟨number, (Option.some.inj compared).symm⟩
  · cases compared

/-- What is on one side of a number is a number, and not on its other side. -/
theorem lt_float_of_le {v : Value} {x : PyFloat} (le : numberLe x.extended v.extended = true) :
    v.lt? (.float x) = some false := by
  rw [lt_of_number (isNumber_of_extended (isSome_of_numberLe le).2)]
  exact congrArg some (numberLt_of_le le)

theorem float_lt_of_ge {v : Value} {x : PyFloat} (le : numberLe v.extended x.extended = true) :
    (Value.float x).lt? v = some false := by
  rw [lt_of_number rfl, numbersLt?, if_pos (isNumber_of_extended (isSome_of_numberLe le).1)]
  exact congrArg some (numberLt_of_le le)

/-- Of two places a number is on one side or the other. -/
theorem le_of_not_lt_float {v : Value} {x : PyFloat} (number : v.extended.isSome = true)
    (place : x.extended.isSome = true) (not_less : v.lt? (.float x) = some false) :
    numberLe x.extended v.extended = true := by
  rw [lt_of_number (isNumber_of_extended number)] at not_less
  exact numberLe_of_not_lt place number (isNumber_of_numbersLt not_less).2.symm

theorem ge_of_not_float_lt {v : Value} {x : PyFloat} (number : v.extended.isSome = true)
    (place : x.extended.isSome = true) (not_less : (Value.float x).lt? v = some false) :
    numberLe v.extended x.extended = true := by
  rw [lt_of_number rfl] at not_less
  exact numberLe_of_not_lt number place (isNumber_of_numbersLt not_less).2.symm

/-- Equal values are not less than each other. -/
def NotBelow (x : Value) : Prop := ∀ y, x.pyEq y = true → y.lt? x ≠ some true

theorem notBelow_number {x : Value} (number : x.isNumber = true) : NotBelow x := by
  intro y same less
  rw [pyEq_of_number number] at same
  have place : y.extended.isSome = true := by
    simp only [sameNumber, Bool.and_eq_true, beq_iff_eq] at same
    exact same.2 ▸ same.1
  rw [lt_of_number (isNumber_of_extended place)] at less
  have below := (isNumber_of_numbersLt less).2
  rw [numberLt_of_same same] at below
  cases below

theorem notBelow_all {xs : List Value} (each : ∀ x ∈ xs, NotBelow x) :
    ∀ {ys}, pyEqAll xs ys = true → ltAll? ys xs ≠ some true := by
  induction xs with
  | nil =>
    intro ys same
    cases ys with
    | nil => simp [ltAll?]
    | cons y ys => simp [pyEqAll] at same
  | cons x xs ih =>
    intro ys same
    cases ys with
    | nil => simp [pyEqAll] at same
    | cons y ys =>
      obtain ⟨first, rest⟩ := List.forall_mem_cons.mp each
      simp only [pyEqAll, Bool.and_eq_true] at same
      rw [ltAll?]
      split
      · exact ih rest same.2
      · exact first y same.1

theorem notBelow (x : Value) : NotBelow x := by
  induction x using Value.induct with
  | none =>
    intro y same
    cases y <;> simp_all [Value.pyEq, Value.lt?]
  | bool | int | float => exact notBelow_number rfl
  | str s =>
    intro y same
    obtain rfl := Value.str_pyEq.mp same
    simp [Value.lt?]
  | list xs ih =>
    intro y same
    cases y with
    | list ys =>
      rw [Value.pyEq] at same
      rw [Value.lt?]
      exact notBelow_all ih same
    | _ => simp [Value.pyEq] at same
  | tuple xs ih =>
    intro y same
    cases y with
    | tuple ys =>
      rw [Value.pyEq] at same
      rw [Value.lt?]
      exact notBelow_all ih same
    | _ => simp [Value.pyEq] at same
  | dict items =>
    intro y same
    cases y <;> simp_all [Value.pyEq, Value.lt?]

/-- `x < y` and `y < x` do not both hold. -/
def Asymmetric (x : Value) : Prop := ∀ y, x.lt? y = some true → y.lt? x ≠ some true

theorem asymmetric_number {x : Value} (number : x.isNumber = true) : Asymmetric x := by
  intro y less greater
  rw [lt_of_number number] at less
  obtain ⟨other, below⟩ := isNumber_of_numbersLt less
  rw [lt_of_number other] at greater
  have above := (isNumber_of_numbersLt greater).2
  rw [numberLt_asymm below.symm] at above
  cases above

theorem asymmetric_all {xs : List Value} (each : ∀ x ∈ xs, Asymmetric x) :
    ∀ {ys}, ltAll? xs ys = some true → ltAll? ys xs ≠ some true := by
  induction xs with
  | nil =>
    intro ys less
    cases ys with
    | nil => simp [ltAll?] at less
    | cons y ys => simp [ltAll?]
  | cons x xs ih =>
    intro ys less greater
    cases ys with
    | nil => simp [ltAll?] at less
    | cons y ys =>
      obtain ⟨first, rest⟩ := List.forall_mem_cons.mp each
      rw [ltAll?] at less greater
      -- the first two that differ decide, on either side
      split at less
      · rename_i same
        split at greater
        · exact ih rest less greater
        · exact notBelow x y same greater
      · split at greater
        · rename_i same
          exact notBelow y x same less
        · exact first y less greater

theorem lt_asymm (x : Value) : Asymmetric x := by
  induction x using Value.induct with
  | none | dict => exact fun y less => by simp [Value.lt?] at less
  | bool | int | float => exact asymmetric_number rfl
  | str s =>
    intro y less
    cases y with
    | str t =>
      simp only [Value.lt?, Option.some.injEq, decide_eq_true_eq] at less
      intro greater
      simp only [Value.lt?, Option.some.injEq, decide_eq_true_eq] at greater
      exact less.not_gt greater
    | _ => simp [Value.lt?] at less
  | list xs ih =>
    intro y less
    cases y with
    | list ys =>
      rw [Value.lt?] at less ⊢
      exact asymmetric_all ih less
    | _ => simp [Value.lt?] at less
  | tuple xs ih =>
    intro y less
    cases y with
    | tuple ys =>
      rw [Value.lt?] at less ⊢
      exact asymmetric_all ih less
    | _ => simp [Value.lt?] at less

/-! ### Sorting -/

section
variable {α : Type*} {le : α → α → Bool}

theorem isChain_merge (total : ∀ a b, le a b = true ∨ le b a = true) {xs ys : List α}
    (first : xs.IsChain (le · ·)) (second : ys.IsChain (le · ·)) :
    (xs.merge ys le).IsChain (le · ·) := by
  induction xs generalizing ys with
  | nil => simpa using second
  | cons x xs ihx =>
    induction ys with
    | nil => simpa using first
    | cons y ys ihy =>
      have head : ∀ {xs ys : List α}, ∀ z ∈ (xs.merge ys le).head?, z ∈ xs.head? ∨ z ∈ ys.head? := by
        intro xs ys z
        cases xs with
        | nil => simp
        | cons x xs =>
          cases ys with
          | nil => simp
          | cons y ys =>
            rw [List.cons_merge_cons]
            split
            · exact .inl
            · exact .inr
      obtain ⟨after_x, rest_x⟩ := List.isChain_cons.mp first
      obtain ⟨after_y, rest_y⟩ := List.isChain_cons.mp second
      rw [List.cons_merge_cons]
      split
      · rename_i below
        refine List.isChain_cons.mpr ⟨?_, ihx rest_x second⟩
        intro z at_head
        rcases head z at_head with in_xs | in_ys
        · exact after_x z in_xs
        · obtain rfl := Option.some.inj in_ys
          exact below
      · rename_i not_below
        refine List.isChain_cons.mpr ⟨?_, ihy rest_y⟩
        intro z at_head
        rcases head z at_head with in_xs | in_ys
        · obtain rfl := Option.some.inj in_xs
          exact (total x y).resolve_left not_below
        · exact after_y z in_ys

/-- Without transitivity the result is still in order from each element to the next. -/
theorem isChain_mergeSort (total : ∀ a b, le a b = true ∨ le b a = true) :
    ∀ xs : List α, (xs.mergeSort le).IsChain (le · ·)
  | [] => by simp
  | [a] => by simp
  | a :: b :: xs => by
    rw [List.mergeSort]
    exact isChain_merge total (isChain_mergeSort total _) (isChain_mergeSort total _)
termination_by xs => xs.length

end

end BtApiSecurity.Py
