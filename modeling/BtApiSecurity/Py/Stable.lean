import Mathlib.Order.Lattice

/-!
# Stable sorting

`list.sort` keeps the elements with one key in their order. What it makes of a list
is determined by the elements of each key, so it does not matter which lists were
sorted on the way.
-/

namespace BtApiSecurity.Py

variable {α β : Type*} [LinearOrder β] (key : α → β)

/-- `sorted(xs, key=key, reverse=True)`. -/
def sortReverse (xs : List α) : List α := xs.mergeSort fun x y => key y ≤ key x

/-- The elements with one key, in their order. -/
def withKey (k : β) (xs : List α) : List α := xs.filter fun x => key x = k

/-- The two lists differ at most in the order of elements with different keys. -/
def SameByKey (xs ys : List α) : Prop := ∀ k, withKey key k xs = withKey key k ys

def Descending (xs : List α) : Prop := xs.Pairwise fun x y => key y ≤ key x

variable {key} {xs ys zs ws : List α}

theorem SameByKey.refl (xs : List α) : SameByKey key xs xs := fun _ => rfl

theorem SameByKey.symm (same : SameByKey key xs ys) : SameByKey key ys xs := fun k => (same k).symm

theorem SameByKey.trans (same : SameByKey key xs ys) (same' : SameByKey key ys zs) : SameByKey key xs zs :=
  fun k => (same k).trans (same' k)

theorem SameByKey.append (same : SameByKey key xs ys) (same' : SameByKey key zs ws) :
    SameByKey key (xs ++ zs) (ys ++ ws) := by
  intro k
  have left := same k
  have right := same' k
  rw [withKey] at left right ⊢
  rw [List.filter_append, left, right]
  exact (List.filter_append ..).symm

theorem SameByKey.filter (same : SameByKey key xs ys) (p : α → Bool) :
    SameByKey key (xs.filter p) (ys.filter p) := by
  intro k
  have swapped : ∀ l : List α, withKey key k (l.filter p) = (withKey key k l).filter p := by
    intro l
    rw [withKey, withKey, List.filter_filter, List.filter_filter]
    simp only [Bool.and_comm]
  rw [swapped, swapped, same k]

/-- Elements may change in anything but their keys. -/
theorem SameByKey.map (same : SameByKey key xs ys) {f : α → α} (keeps : ∀ x, key (f x) = key x) :
    SameByKey key (xs.map f) (ys.map f) := by
  intro k
  have moved : ∀ l : List α, withKey key k (l.map f) = (withKey key k l).map f := by
    intro l
    rw [withKey, withKey, List.filter_map]
    simp only [Function.comp_def, keeps]
  rw [moved, moved, same k]

theorem mem_of_sameByKey (same : SameByKey key xs ys) {x : α} (member : x ∈ xs) : x ∈ ys := by
  have here : x ∈ withKey key (key x) xs := List.mem_filter.mpr ⟨member, decide_eq_true rfl⟩
  rw [same (key x)] at here
  exact (List.mem_filter.mp here).1

/-! ### Sorting -/

section
variable (key)

theorem descends_trans (x y z : α) (first : decide (key y ≤ key x) = true)
    (second : decide (key z ≤ key y) = true) : decide (key z ≤ key x) = true :=
  decide_eq_true (le_trans (of_decide_eq_true second) (of_decide_eq_true first))

theorem descends_total (x y : α) : (decide (key y ≤ key x) || decide (key x ≤ key y)) = true := by
  rw [Bool.or_eq_true, decide_eq_true_iff, decide_eq_true_iff]
  exact le_total (key y) (key x)

end

theorem descending_sortReverse (xs : List α) : Descending key (sortReverse key xs) :=
  (List.pairwise_mergeSort (descends_trans key) (descends_total key) xs).imp of_decide_eq_true

theorem perm_sortReverse (xs : List α) : (sortReverse key xs).Perm xs := List.mergeSort_perm xs _

/-- The elements with one key are a sorted sublist, which a stable sort keeps. -/
theorem sameByKey_sortReverse (xs : List α) : SameByKey key (sortReverse key xs) xs := by
  intro k
  have equal : (withKey key k xs).Pairwise fun x y => decide (key y ≤ key x) = true := by
    apply List.pairwise_of_forall_mem_list
    intro x member y member'
    have here := of_decide_eq_true (List.mem_filter.mp member).2
    have there := of_decide_eq_true (List.mem_filter.mp member').2
    rw [here, there]
    exact decide_eq_true le_rfl
  have kept : (withKey key k xs).Sublist (sortReverse key xs) :=
    List.sublist_mergeSort (descends_trans key) (descends_total key) equal List.filter_sublist
  have again : (withKey key k xs).filter (fun x => key x = k) = withKey key k xs := by
    rw [withKey, List.filter_filter]
    simp only [Bool.and_self]
  have within := kept.filter fun x => decide (key x = k)
  rw [again] at within
  exact (within.eq_of_length ((perm_sortReverse xs).filter _).length_eq.symm).symm

/-- Of the lists with the same elements of each key one is in order. -/
theorem eq_of_descending (sorted : Descending key xs) (sorted' : Descending key ys)
    (same : SameByKey key xs ys) : xs = ys := by
  induction xs generalizing ys with
  | nil =>
    cases ys with
    | nil => rfl
    | cons y ys => exact absurd (mem_of_sameByKey same.symm List.mem_cons_self) (List.not_mem_nil)
  | cons x xs ih =>
    cases ys with
    | nil => exact absurd (mem_of_sameByKey same List.mem_cons_self) (List.not_mem_nil)
    | cons y ys =>
      obtain ⟨first, rest⟩ := List.pairwise_cons.mp sorted
      obtain ⟨first', rest'⟩ := List.pairwise_cons.mp sorted'
      have equal : key y = key x := by
        apply le_antisymm
        · rcases List.mem_cons.mp (mem_of_sameByKey same.symm List.mem_cons_self) with rfl | later
          · rfl
          · exact first y later
        · rcases List.mem_cons.mp (mem_of_sameByKey same List.mem_cons_self) with rfl | later
          · rfl
          · exact first' x later
      have heads := same (key x)
      rw [withKey, withKey, List.filter_cons, List.filter_cons, if_pos (decide_eq_true rfl),
        if_pos (decide_eq_true equal)] at heads
      obtain ⟨rfl, -⟩ := List.cons.inj heads
      refine congrArg _ (ih rest rest' ?_)
      intro k
      have whole := same k
      rw [withKey, withKey, List.filter_cons, List.filter_cons] at whole
      split at whole
      · exact (List.cons.inj whole).2
      · exact whole

theorem sortReverse_congr (same : SameByKey key xs ys) : sortReverse key xs = sortReverse key ys :=
  eq_of_descending (descending_sortReverse xs) (descending_sortReverse ys)
    ((sameByKey_sortReverse xs).trans (same.trans (sameByKey_sortReverse ys).symm))

theorem SameByKey.perm (same : SameByKey key xs ys) : xs.Perm ys := by
  have sorted : (sortReverse key xs).Perm xs := perm_sortReverse xs
  rw [sortReverse_congr same] at sorted
  exact sorted.symm.trans (perm_sortReverse ys)

end BtApiSecurity.Py
