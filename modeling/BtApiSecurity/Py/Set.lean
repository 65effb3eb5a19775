import Mathlib.Data.List.Nodup

/-!
# Sets

A Python `set`, as the list of its elements in the order in which it happens to
be iterated.
-/

namespace BtApiSecurity.Py

universe u
variable {α : Type u}

structure PySet (α : Type u) where
  items : List α
  nodup : items.Nodup

namespace PySet

instance : Membership α (PySet α) := ⟨fun s x => x ∈ s.items⟩

@[simp] theorem mem_items {s : PySet α} {x : α} : x ∈ s.items ↔ x ∈ s := Iff.rfl

def empty : PySet α := ⟨[], List.nodup_nil⟩

@[simp] theorem not_mem_empty (x : α) : x ∉ (empty : PySet α) := List.not_mem_nil

/-! ### Iteration order -/

/-- The same set, iterated in whatever order. -/
def Same (s t : PySet α) : Prop := ∀ x, x ∈ s ↔ x ∈ t

theorem Same.refl (s : PySet α) : s.Same s := fun _ => Iff.rfl

def front (p : α → Bool) (s : PySet α) : PySet α :=
  ⟨s.items.filter p ++ s.items.filter (!p ·), by
    refine List.nodup_append.mpr ⟨s.nodup.filter _, s.nodup.filter _, ?_⟩
    intro x hx y hy same
    simp only [List.mem_filter, Bool.not_eq_true'] at hx hy
    simp [← same, hx.2] at hy⟩

theorem same_front (p : α → Bool) (s : PySet α) : s.Same (s.front p) := by
  intro x
  change x ∈ s.items ↔ x ∈ s.items.filter p ++ s.items.filter (!p ·)
  cases h : p x <;> simp [h]

/-- A loop that adds what `P` names to a set. -/
theorem mem_foldl {β : Type*} {f : PySet α → β → PySet α} {P : β → α → Prop}
    (step : ∀ s b x, x ∈ f s b ↔ x ∈ s ∨ P b x) (s : PySet α) (bs : List β) (x : α) :
    x ∈ bs.foldl f s ↔ x ∈ s ∨ ∃ b ∈ bs, P b x := by
  induction bs generalizing s with
  | nil => simp
  | cons b bs ih =>
    rw [List.foldl_cons, ih, step, or_assoc]
    simp

/-! ### Operations -/

variable [DecidableEq α]

instance (s : PySet α) (x : α) : Decidable (x ∈ s) := inferInstanceAs (Decidable (x ∈ s.items))

def add (s : PySet α) (x : α) : PySet α := ⟨s.items.insert x, s.nodup.insert⟩

def discard (s : PySet α) (x : α) : PySet α := ⟨s.items.erase x, s.nodup.erase x⟩

def update (s : PySet α) (xs : List α) : PySet α := xs.foldl add s

@[simp] theorem mem_add {s : PySet α} {x y : α} : y ∈ s.add x ↔ y = x ∨ y ∈ s :=
  List.mem_insert_iff

@[simp] theorem mem_discard {s : PySet α} {x y : α} : y ∈ s.discard x ↔ y ≠ x ∧ y ∈ s :=
  s.nodup.mem_erase_iff

@[simp] theorem mem_update {s : PySet α} {xs : List α} {y : α} :
    y ∈ s.update xs ↔ y ∈ s ∨ y ∈ xs := by
  have added : ∀ (s : PySet α) x y, y ∈ s.add x ↔ y ∈ s ∨ y = x := by simp [or_comm]
  unfold update
  rw [mem_foldl added]
  simp

end PySet

end BtApiSecurity.Py
