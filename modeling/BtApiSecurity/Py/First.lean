import Mathlib.Data.List.Nodup

/-!
# The first of its key

A loop that looks for an element by its key changes the first that it finds and stops
there. Where the keys are distinct this is the element with the key.
-/

namespace BtApiSecurity.Py

variable {α κ β : Type*} {key : α → κ} {f : α → α} {k : κ}

theorem key_ne_of_distinct {x : α} {before after : List α}
    (distinct : ((before ++ x :: after).map key).Nodup) : ∀ y ∈ before, key y ≠ key x := by
  rw [List.map_append, List.nodup_append] at distinct
  obtain ⟨-, -, apart⟩ := distinct
  intro y member
  exact apart (key y) (List.mem_map_of_mem member) (key x) List.mem_cons_self

variable [DecidableEq κ]

/-- The first element with the key is changed. -/
def markFirst (key : α → κ) (f : α → α) (k : κ) : List α → Option (List α)
  | [] => none
  | x :: xs => if key x = k then some (f x :: xs) else (markFirst key f k xs).map (x :: ·)

theorem markFirst_of_absent {xs : List α} (absent : k ∉ xs.map key) : markFirst key f k xs = none := by
  induction xs with
  | nil => rfl
  | cons x xs ih =>
    rw [List.map_cons, List.mem_cons, not_or] at absent
    rw [markFirst, if_neg (Ne.symm absent.1), ih absent.2]
    rfl

theorem markFirst_of_first {x : α} {before after : List α} (first : ∀ y ∈ before, key y ≠ key x) :
    markFirst key f (key x) (before ++ x :: after) = some (before ++ f x :: after) := by
  induction before with
  | nil => rw [List.nil_append, markFirst, if_pos rfl]; rfl
  | cons y before ih =>
    obtain ⟨other, rest⟩ := List.forall_mem_cons.mp first
    rw [List.cons_append, markFirst, if_neg other, ih rest]
    rfl

/-- What the change leaves of each element is left of the list. -/
theorem map_markFirst {g : α → β} (keeps : ∀ x, g (f x) = g x) {xs marked : List α}
    (mark : markFirst key f k xs = some marked) : marked.map g = xs.map g := by
  induction xs generalizing marked with
  | nil => cases mark
  | cons x xs ih =>
    unfold markFirst at mark
    split at mark
    · cases mark
      rw [List.map_cons, List.map_cons, keeps]
    · obtain ⟨rest, markRest, rfl⟩ := Option.map_eq_some_iff.mp mark
      rw [List.map_cons, List.map_cons, ih markRest]

/-! ### With distinct keys -/

theorem map_mark_of_absent {xs : List α} (absent : k ∉ xs.map key) :
    (xs.map fun x => if key x = k then f x else x) = xs := by
  apply (List.map_congr_left ?_).trans (List.map_id' xs)
  intro x member
  apply if_neg
  rintro rfl
  exact absent (List.mem_map_of_mem member)

/-- With a key of its own exactly this element is changed. -/
theorem map_mark_split {x : α} {before after : List α}
    (distinct : ((before ++ x :: after).map key).Nodup) :
    ((before ++ x :: after).map fun y => if key y = key x then f y else y) = before ++ f x :: after := by
  have earlier : key x ∉ before.map key := by
    intro member
    obtain ⟨y, member, same⟩ := List.mem_map.mp member
    exact key_ne_of_distinct distinct y member same
  rw [List.map_append, List.map_cons, List.nodup_append, List.nodup_cons] at distinct
  obtain ⟨-, ⟨later, -⟩, -⟩ := distinct
  rw [List.map_append, List.map_cons, if_pos rfl, map_mark_of_absent earlier, map_mark_of_absent later]

theorem markFirst_of_distinct {xs : List α} (distinct : (xs.map key).Nodup) (present : k ∈ xs.map key) :
    markFirst key f k xs = some (xs.map fun x => if key x = k then f x else x) := by
  obtain ⟨x, member, rfl⟩ := List.mem_map.mp present
  obtain ⟨before, after, rfl⟩ := List.append_of_mem member
  rw [markFirst_of_first (key_ne_of_distinct distinct), map_mark_split distinct]

end BtApiSecurity.Py
