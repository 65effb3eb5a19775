import BtApiSecurity.Machine

/-!
# Leaving inputs out

Some inputs of a run are hidden from a second machine. Where a hidden step keeps
a state related to the one it is compared with, and a shown step answers as the
second machine does, the whole run answers its shown inputs as that machine does
when it never sees the others. What counts of an answer is given by a view.
-/

namespace BtApiSecurity
open Machine

variable {σ : Type*} {σ' : Type*} {ι : Type*} {ο : Type*} {α : Type*}

/-- The conditions under which hidden inputs can be left out. -/
structure Unwinding (step : σ → ι → σ × ο) (step' : σ' → ι → σ' × ο) (hidden : ι → Bool)
    (view : ι → ο → α) where
  Related : σ → σ' → Prop
  hidden_step : ∀ s s' i, Related s s' → hidden i = true → Related (step s i).1 s'
  shown_step : ∀ s s' i, Related s s' → hidden i = false → Related (step s i).1 (step' s' i).1
  shown_output : ∀ s s' i, Related s s' → hidden i = false →
    view i (step s i).2 = view i (step' s' i).2

/-- The inputs that stay. -/
def shown (hidden : ι → Bool) (is : List ι) : List ι := is.filter fun i => !hidden i

/-- What a history answered to the inputs that stay, as far as the view goes. -/
def answers (hidden : ι → Bool) (view : ι → ο → α) (history : List (Entry σ ι ο)) : List (ι × α) :=
  (history.filter fun e => !hidden e.input).map fun e => (e.input, view e.input e.output)

section Lists

variable {hidden : ι → Bool} {view : ι → ο → α} {i : ι} {is : List ι}
variable {step : σ → ι → σ × ο} {s : σ}

theorem shown_hidden (seen : hidden i = true) : shown hidden (i :: is) = shown hidden is :=
  List.filter_cons_of_neg (by simp [seen])

theorem shown_shown (seen : hidden i = false) : shown hidden (i :: is) = i :: shown hidden is :=
  List.filter_cons_of_pos (by simp [seen])

theorem answers_hidden (seen : hidden i = true) :
    answers hidden view (trace step s (i :: is)) =
      answers hidden view (trace step (step s i).1 is) := by
  rw [trace, answers, List.filter_cons_of_neg (by simp [entry, seen])]
  rfl

theorem answers_shown (seen : hidden i = false) :
    answers hidden view (trace step s (i :: is)) =
      (i, view i (step s i).2) :: answers hidden view (trace step (step s i).1 is) := by
  rw [trace, answers, List.filter_cons_of_pos (by simp [entry, seen])]
  rfl

end Lists

namespace Unwinding

variable {step : σ → ι → σ × ο} {step' : σ' → ι → σ' × ο} {hidden : ι → Bool} {view : ι → ο → α}
variable (U : Unwinding step step' hidden view) {s : σ} {s' : σ'}

theorem related_run (related : U.Related s s') (is : List ι) :
    U.Related (run step s is) (run step' s' (shown hidden is)) := by
  induction is generalizing s s' with
  | nil => exact related
  | cons i is ih =>
    cases seen : hidden i with
    | true =>
      rw [shown_hidden seen]
      exact ih (U.hidden_step s s' i related seen)
    | false =>
      rw [shown_shown seen]
      exact ih (U.shown_step s s' i related seen)

theorem answers_run (related : U.Related s s') (is : List ι) :
    answers hidden view (trace step s is) =
      answers hidden view (trace step' s' (shown hidden is)) := by
  induction is generalizing s s' with
  | nil => rfl
  | cons i is ih =>
    cases seen : hidden i with
    | true =>
      rw [answers_hidden seen, shown_hidden seen]
      exact ih (U.hidden_step s s' i related seen)
    | false =>
      rw [shown_shown seen, answers_shown seen, answers_shown seen, U.shown_output s s' i related seen]
      exact congrArg _ (ih (U.shown_step s s' i related seen))

end Unwinding

end BtApiSecurity
