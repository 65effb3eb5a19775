import Mathlib.Algebra.Order.Ring.Rat
import Mathlib.Data.List.Basic
import Mathlib.Tactic.Linarith

/-!
# Sliding windows

Times are noted in order and counted as long as they are recent. A list that is pruned,
or a queue that forgets its oldest entries, counts like the whole history within its bounds.
-/

namespace BtApiSecurity.Py

variable {τ : Type*}

/-- The last entries of a list, as a `deque` with a `maxlen` keeps them. -/
def lastOf (maxlen : Nat) (xs : List τ) : List τ := xs.drop (xs.length - maxlen)

/-- The times that count at `now`: a later time counts longer. -/
structure Window (τ : Type*) [Preorder τ] where
  covers : τ → τ → Bool
  newer : ∀ {now t t'}, covers now t = true → t ≤ t' → covers now t' = true
  before : ∀ {now now' t}, covers now' t = true → now ≤ now' → covers now t = true

theorem recent_newer (d : Rat) {now t t' : Rat} (recent : decide (now - t < d) = true) (le : t ≤ t') :
    decide (now - t' < d) = true := by
  rw [decide_eq_true_eq] at recent ⊢
  linarith only [recent, le]

theorem recent_before (d : Rat) {now now' t : Rat} (recent : decide (now' - t < d) = true)
    (le : now ≤ now') : decide (now - t < d) = true := by
  rw [decide_eq_true_eq] at recent ⊢
  linarith only [recent, le]

/-- The times less than `d` ago. -/
def Window.lasting (d : Rat) : Window Rat :=
  ⟨fun now t => decide (now - t < d), recent_newer d, recent_before d⟩

namespace Window

variable [Preorder τ] {w : Window τ} {now now' : τ} {times : List τ}

/-- What was pruned earlier would not count any more. -/
theorem filter_filter (le : now ≤ now') (times : List τ) :
    (times.filter (w.covers now)).filter (w.covers now') = times.filter (w.covers now') := by
  rw [List.filter_filter]
  apply List.filter_congr
  intro t _
  cases late : w.covers now' t with
  | false => rfl
  | true => rw [w.before late le]; rfl

/-- The newest entries of a queue count first. -/
theorem count_lastOf (sorted : times.Pairwise (· ≤ ·)) (n : Nat) (now : τ) :
    (lastOf n times).countP (w.covers now) = min n (times.countP (w.covers now)) := by
  obtain ⟨front, split⟩ : ∃ k, k = times.length - n := ⟨_, rfl⟩
  have counts : times.countP (w.covers now) =
      (times.take front).countP (w.covers now) + (times.drop front).countP (w.covers now) := by
    rw [← List.countP_append, List.take_append_drop]
  rw [lastOf, ← split]
  have kept : (times.drop front).length = times.length - front := List.length_drop
  have bound := List.countP_le_length (p := w.covers now) (l := times.drop front)
  by_cases any : ∃ t ∈ times.take front, w.covers now t = true
  · obtain ⟨t, old, recent⟩ := any
    have full : (times.drop front).countP (w.covers now) = (times.drop front).length := by
      apply List.countP_eq_length.mpr
      intro t' new
      apply w.newer recent
      rw [← List.take_append_drop front times] at sorted
      exact (List.pairwise_append.mp sorted).2.2 t old t' new
    have nonempty : 0 < (times.take front).length := List.length_pos_of_mem old
    rw [List.length_take] at nonempty
    omega
  · have none : (times.take front).countP (w.covers now) = 0 := by
      apply List.countP_eq_zero.mpr
      intro t old recent
      exact any ⟨t, old, recent⟩
    omega

/-- A queue of at least one entry has a recent one, if the history has. -/
theorem any_lastOf (sorted : times.Pairwise (· ≤ ·)) {n : Nat} (positive : 0 < n) (now : τ) :
    (lastOf n times).any (w.covers now) = times.any (w.covers now) := by
  have counts := count_lastOf (w := w) sorted n now
  have any_iff : ∀ xs : List τ, xs.any (w.covers now) = true ↔ 0 < xs.countP (w.covers now) := by
    intro xs
    rw [List.countP_pos_iff, List.any_eq_true]
  rw [Bool.eq_iff_iff, any_iff, any_iff, counts]
  omega

end Window

/-! ### A queue grows -/

theorem lastOf_append (maxlen : Nat) (xs : List τ) (x : τ) :
    lastOf maxlen (lastOf maxlen xs ++ [x]) = lastOf maxlen (xs ++ [x]) := by
  unfold lastOf
  have last : (xs ++ [x]).drop (xs.length - maxlen) = xs.drop (xs.length - maxlen) ++ [x] := by
    apply List.drop_append_of_le_length
    omega
  rw [← last, List.drop_drop]
  congr 1
  simp only [List.length_drop, List.length_append, List.length_singleton]
  omega

end BtApiSecurity.Py
