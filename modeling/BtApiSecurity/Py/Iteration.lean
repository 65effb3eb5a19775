import Mathlib.Data.List.Basic

/-!
# Loops over a list that changes

A `for` loop over a list takes the element at the next index of the list as it
stands. An element that is removed in front of that index moves the others, and the
next one is never visited. How often each element is visited follows from what the
loop body adds, cuts off and skips.
-/

namespace BtApiSecurity.Py

variable {α : Type*} [DecidableEq α]

/-- `xs.append(x)`, and `if x in xs: xs.remove(x)`. -/
inductive Edit (α : Type*) where
  | append (x : α)
  | remove (x : α)
  deriving DecidableEq

def Edit.apply (xs : List α) : Edit α → List α
  | .append x => xs ++ [x]
  | .remove x => xs.erase x

def edited (xs : List α) (edits : List (Edit α)) : List α := edits.foldl Edit.apply xs

/-- The elements that the loop visits from index `i` on, and the list at its end. In its turns the body
makes the given edits, and none after these turns. -/
def visit (i : Nat) (xs : List α) : List (List (Edit α)) → List α × List α
  | [] => (xs.drop i, xs)
  | body :: bodies =>
    match xs[i]? with
    | none => ([], xs)
    | some x => (x :: (visit (i + 1) (edited xs body) bodies).1, (visit (i + 1) (edited xs body) bodies).2)

/-! ### What an edit does to the elements ahead -/

namespace Edit

/-- What is appended, where the loop will still come to it. -/
def adds (i : Nat) (xs : List α) : Edit α → List α
  | .append x => if i ≤ xs.length then [x] else []
  | .remove _ => []

/-- What is removed before the loop came to it. -/
def cuts (i : Nat) (xs : List α) : Edit α → List α
  | .append _ => []
  | .remove x => if i ≤ xs.idxOf x ∧ x ∈ xs then [x] else []

/-- What the loop passes over, as something in front of it is removed. -/
def skips (i : Nat) (xs : List α) : Edit α → List α
  | .append _ => []
  | .remove x => if xs.idxOf x < i then xs[i]?.toList else []

end Edit

/-- What such edits come to, one after the other. -/
def along (note : Nat → List α → Edit α → List α) (i : Nat) (xs : List α) : List (Edit α) → List α
  | [] => []
  | edit :: edits => note i xs edit ++ along note i (edit.apply xs) edits

/-- And in a whole loop: in the turn at index `i` the loop goes on at `i + 1`. -/
def during (note : Nat → List α → Edit α → List α) (i : Nat) (xs : List α) :
    List (List (Edit α)) → List α
  | [] => []
  | body :: bodies =>
    match xs[i]? with
    | none => []
    | some _ => along note (i + 1) xs body ++ during note (i + 1) (edited xs body) bodies

/-! ### The balance -/

theorem drop_erase_of_idxOf_lt {x : α} {xs : List α} {i : Nat} (before : xs.idxOf x < i) :
    (xs.erase x).drop i = xs.drop (i + 1) := by
  induction xs generalizing i with
  | nil => simp
  | cons y ys ih =>
    by_cases here : y = x
    · subst here
      simp
    · rw [List.idxOf_cons_ne ys here] at before
      cases i with
      | zero => omega
      | succ i =>
        rw [List.erase_cons_tail (by simpa using here), List.drop_succ_cons, List.drop_succ_cons]
        exact ih (Nat.lt_of_succ_lt_succ before)

theorem drop_erase_of_le_idxOf {x : α} {xs : List α} {i : Nat} (ahead : i ≤ xs.idxOf x) :
    (xs.erase x).drop i = (xs.drop i).erase x := by
  induction xs generalizing i with
  | nil => simp
  | cons y ys ih =>
    cases i with
    | zero => rfl
    | succ i =>
      have here : y ≠ x := by
        rintro rfl
        simp at ahead
      rw [List.idxOf_cons_ne ys here] at ahead
      rw [List.erase_cons_tail (by simpa using here), List.drop_succ_cons, List.drop_succ_cons]
      exact ih (Nat.le_of_succ_le_succ ahead)

theorem mem_drop_of_le_idxOf {x : α} {xs : List α} {i : Nat} (present : x ∈ xs)
    (ahead : i ≤ xs.idxOf x) : x ∈ xs.drop i := by
  have whole : x ∈ xs.take i ++ xs.drop i := by rwa [List.take_append_drop]
  refine (List.mem_append.mp whole).resolve_left fun taken => ?_
  have place : xs.idxOf x = (xs.take i).idxOf x := by
    conv_lhs => rw [← List.take_append_drop i xs]
    exact List.idxOf_append_of_mem taken
  have inside := List.idxOf_lt_length_of_mem taken
  rw [List.length_take] at inside
  omega

/-- One edit. -/
theorem edit_balance (i : Nat) (xs : List α) (edit : Edit α) (x : α) :
    ((edit.apply xs).drop i).count x + (edit.skips i xs).count x + (edit.cuts i xs).count x =
      (xs.drop i).count x + (edit.adds i xs).count x := by
  cases edit with
  | append y =>
    by_cases room : i ≤ xs.length
    · simp [Edit.apply, Edit.skips, Edit.cuts, Edit.adds, room, List.drop_append_of_le_length]
    · have behind : (xs ++ [y]).drop i = [] := by
        apply List.drop_eq_nil_of_le
        rw [List.length_append, List.length_singleton]
        omega
      have nothing : xs.drop i = [] := List.drop_eq_nil_of_le (by omega)
      simp [Edit.apply, Edit.skips, Edit.cuts, Edit.adds, room, behind, nothing]
  | remove y =>
    by_cases before : xs.idxOf y < i
    · have next : xs.drop i = xs[i]?.toList ++ xs.drop (i + 1) := List.drop_eq_getElem?_toList_append
      have not_ahead : ¬i ≤ xs.idxOf y := by omega
      simp only [Edit.apply, Edit.skips, Edit.cuts, Edit.adds, before, not_ahead, false_and, if_true,
        if_false, drop_erase_of_idxOf_lt before, next, List.count_append, List.count_nil]
      omega
    · have ahead : i ≤ xs.idxOf y := by omega
      simp only [Edit.apply, Edit.skips, Edit.cuts, Edit.adds, before, ahead, true_and, if_false,
        drop_erase_of_le_idxOf ahead, List.count_nil]
      by_cases present : y ∈ xs
      · have taken := (List.perm_cons_erase (mem_drop_of_le_idxOf present ahead)).count_eq x
        rw [List.count_cons] at taken
        rw [if_pos present, List.count_singleton, taken]
        rfl
      · have absent : y ∉ xs.drop i := fun h => present (List.mem_of_mem_drop h)
        rw [if_neg present, List.erase_of_not_mem absent]
        rfl

theorem edits_balance (i : Nat) (xs : List α) (edits : List (Edit α)) (x : α) :
    ((edited xs edits).drop i).count x + (along Edit.skips i xs edits).count x +
        (along Edit.cuts i xs edits).count x =
      (xs.drop i).count x + (along Edit.adds i xs edits).count x := by
  induction edits generalizing xs with
  | nil => rfl
  | cons edit edits ih =>
    have first := edit_balance i xs edit x
    have rest := ih (edit.apply xs)
    simp only [edited, List.foldl_cons, along, List.count_append] at rest ⊢
    omega

/-- An element is visited, skipped and cut off as often as it was ahead and is added. -/
theorem visit_balance (i : Nat) (xs : List α) (bodies : List (List (Edit α))) (x : α) :
    (visit i xs bodies).1.count x + (during Edit.skips i xs bodies).count x +
        (during Edit.cuts i xs bodies).count x =
      (xs.drop i).count x + (during Edit.adds i xs bodies).count x := by
  induction bodies generalizing i xs with
  | nil => rfl
  | cons body bodies ih =>
    unfold visit during
    cases here : xs[i]? with
    | none => simp [List.drop_eq_nil_of_le (List.getElem?_eq_none_iff.mp here)]
    | some y =>
      have turn := edits_balance (i + 1) xs body x
      have rest := ih (i + 1) (edited xs body)
      have next : xs.drop i = xs[i]?.toList ++ xs.drop (i + 1) := List.drop_eq_getElem?_toList_append
      rw [next, here]
      simp only [List.count_append, List.count_cons, Option.toList_some, List.count_nil]
      omega

/-- Only what the body removes is cut off. -/
theorem remove_mem_of_cut {i : Nat} {xs : List α} {edits : List (Edit α)} {x : α}
    (cut : x ∈ along Edit.cuts i xs edits) : Edit.remove x ∈ edits := by
  induction edits generalizing xs with
  | nil => cases cut
  | cons edit edits ih =>
    rcases List.mem_append.mp cut with here | later
    · cases edit with
      | append y => cases here
      | remove y =>
        simp only [Edit.cuts] at here
        split at here
        · rw [List.mem_singleton.mp here]
          exact List.mem_cons_self
        · cases here
    · exact List.mem_cons_of_mem _ (ih later)

end BtApiSecurity.Py
