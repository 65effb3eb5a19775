import Mathlib.Data.Finset.Lattice.Fold
import Mathlib.Data.Fintype.Card

/-!
# First appearances

The values of a stream of draws in the order in which each of them comes up first. From
a finite set a stream that leaves nothing out brings up everything within finitely many
draws.
-/

namespace BtApiSecurity.Py

variable {α : Type*} [DecidableEq α] {draws : Nat → α} {n : Nat} {v : α}

/-- The value of the draw did not come up before. -/
def IsFirst (draws : Nat → α) (n : Nat) : Prop := ∀ m < n, draws m ≠ draws n

instance (draws : Nat → α) (n : Nat) : Decidable (IsFirst draws n) :=
  inferInstanceAs (Decidable (∀ m < n, draws m ≠ draws n))

/-- The values of the first `n` draws, each where it comes up first. -/
def firsts (draws : Nat → α) (n : Nat) : List α :=
  ((List.range n).filter fun k => IsFirst draws k).map draws

theorem firsts_succ (draws : Nat → α) (n : Nat) :
    firsts draws (n + 1) = firsts draws n ++ if IsFirst draws n then [draws n] else [] := by
  rw [firsts, List.range_succ, List.filter_append, List.map_append, List.filter_singleton]
  by_cases first : IsFirst draws n
  · rw [if_pos first, decide_eq_true first]
    rfl
  · rw [if_neg first, decide_eq_false first]
    rfl

theorem mem_firsts : v ∈ firsts draws n ↔ ∃ m < n, draws m = v := by
  induction n with
  | zero => exact iff_of_false List.not_mem_nil (by rintro ⟨m, before, -⟩; omega)
  | succ n ih =>
    rw [firsts_succ, List.mem_append, ih]
    constructor
    · intro member
      rcases member with ⟨m, before, here⟩ | new
      · exact ⟨m, Nat.lt_succ_of_lt before, here⟩
      · split at new
        · exact ⟨n, Nat.lt_succ_self n, (List.mem_singleton.mp new).symm⟩
        · cases new
    · intro drawn
      obtain ⟨m, before, here⟩ := drawn
      by_cases earlier : m < n
      · exact .inl ⟨m, earlier, here⟩
      · obtain rfl : m = n := by omega
        by_cases first : IsFirst draws m
        · rw [if_pos first, here]
          exact .inr List.mem_cons_self
        · simp only [IsFirst, not_forall, not_not] at first
          obtain ⟨k, before_m, same⟩ := first
          exact .inl ⟨k, before_m, same.trans here⟩

theorem isFirst_iff : IsFirst draws n ↔ draws n ∉ firsts draws n := by
  rw [mem_firsts]
  constructor
  · intro first earlier
    obtain ⟨m, before, same⟩ := earlier
    exact first m before same
  · intro new m before same
    exact new ⟨m, before, same⟩

theorem nodup_firsts (draws : Nat → α) (n : Nat) : (firsts draws n).Nodup := by
  induction n with
  | zero => exact List.nodup_nil
  | succ n ih =>
    rw [firsts_succ]
    split
    · rename_i first
      refine List.nodup_append.mpr ⟨ih, List.nodup_singleton _, ?_⟩
      intro v member w single same
      rw [same, List.mem_singleton.mp single] at member
      exact isFirst_iff.mp first member
    · rwa [List.append_nil]

section
variable [Fintype α]

theorem length_firsts_le (draws : Nat → α) (n : Nat) : (firsts draws n).length ≤ Fintype.card α :=
  (nodup_firsts draws n).length_le_card

/-- Everything has come up at some point. -/
theorem exists_length_firsts (all : ∀ v, ∃ n, draws n = v) : ∃ n, (firsts draws n).length = Fintype.card α := by
  obtain ⟨place, at_place⟩ := Classical.axiomOfChoice all
  have bound : ∀ v, place v ≤ Finset.univ.sup place := fun v => Finset.le_sup (Finset.mem_univ v)
  refine ⟨Finset.univ.sup place + 1, le_antisymm (length_firsts_le draws _) ?_⟩
  rw [← List.toFinset_card_of_nodup (nodup_firsts draws _), ← Finset.card_univ]
  apply Finset.card_le_card
  intro v _
  rw [List.mem_toFinset, mem_firsts]
  exact ⟨place v, Nat.lt_succ_of_le (bound v), at_place v⟩

end

end BtApiSecurity.Py
