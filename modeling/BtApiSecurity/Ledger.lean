import BtApiSecurity.Machine

/-!
# Ledgers

A step may issue a record under a key, and may end a key. A record stands from
the step that issues it until one that ends its key; a machine may drop it
earlier only when it is no longer current.
-/

namespace BtApiSecurity
open Machine

variable {σ : Type*} {ι : Type*} {ο : Type*} {κ : Type*} {ρ : Type*} {τ : Type*} [LE τ]

/-! ### What lasts -/

section Lasting

variable {ε : Type*} {made unmade : ε → Prop} {history : List ε}

/-- One of the entries made it, and none since has unmade it. -/
def Lasting (made unmade : ε → Prop) (history : List ε) : Prop :=
  ∃ l d l', history = l ++ d :: l' ∧ made d ∧ ∀ e ∈ l', ¬unmade e

/-- As `Lasting`, where the entries before have a say in what makes it. -/
def LastingFrom (made : List ε → ε → Prop) (unmade : ε → Prop) (history : List ε) : Prop :=
  ∃ l d l', history = l ++ d :: l' ∧ made l d ∧ ∀ e ∈ l', ¬unmade e

theorem lastingFrom_nil {made : List ε → ε → Prop} : ¬LastingFrom made unmade [] := by
  intro h
  obtain ⟨l, d, l', split, -⟩ := h
  simp at split

theorem lastingFrom_snoc {made : List ε → ε → Prop} {e : ε} :
    LastingFrom made unmade (history ++ [e]) ↔
      made history e ∨ LastingFrom made unmade history ∧ ¬unmade e := by
  constructor
  · intro h
    obtain ⟨l, d, l', split, issued, lasting⟩ := h
    rcases List.eq_nil_or_concat l' with rfl | ⟨l₂, last, rfl⟩
    · obtain ⟨rfl, same⟩ := List.append_inj' split rfl
      obtain rfl : e = d := by simpa using same
      exact .inl issued
    · have split' : history ++ [e] = (l ++ d :: l₂) ++ [last] := by simpa using split
      obtain ⟨rfl, same⟩ := List.append_inj' split' rfl
      obtain rfl : e = last := by simpa using same
      refine .inr ⟨⟨l, d, l₂, rfl, issued, ?_⟩, lasting e (by simp)⟩
      intro x mem
      exact lasting x (by simp [mem])
  · intro h
    rcases h with issued | ⟨⟨l, d, l', rfl, issued, lasting⟩, kept⟩
    · exact ⟨history, e, [], rfl, issued, by simp⟩
    · refine ⟨l, d, l' ++ [e], by simp, issued, ?_⟩
      intro x mem
      rcases List.mem_append.mp mem with mem | mem
      · exact lasting x mem
      · obtain rfl := List.mem_singleton.mp mem
        exact kept

theorem lasting_nil : ¬Lasting made unmade [] := lastingFrom_nil

theorem lasting_snoc {e : ε} :
    Lasting made unmade (history ++ [e]) ↔ made e ∨ Lasting made unmade history ∧ ¬unmade e :=
  lastingFrom_snoc

/-- What each step of a run makes, and keeps unless it unmakes it, holds as long as the history says. -/
theorem lastingFrom_run {step : σ → ι → σ × ο} {P : σ → Prop}
    {made : List (Entry σ ι ο) → Entry σ ι ο → Prop} {unmade : Entry σ ι ο → Prop} {s : σ} (start : ¬P s)
    (steps : ∀ is i, P (step (run step s is) i).1 ↔ made (trace step s is) (entry step (run step s is) i) ∨
      P (run step s is) ∧ ¬unmade (entry step (run step s is) i)) (is : List ι) :
    P (run step s is) ↔ LastingFrom made unmade (trace step s is) := by
  induction is using List.reverseRecOn with
  | nil => exact iff_of_false start lastingFrom_nil
  | append_singleton is i ih =>
    rw [trace_append, trace, trace, lastingFrom_snoc, run_append, run_cons, run_nil, steps, ih]

theorem lasting_run {step : σ → ι → σ × ο} {P : σ → Prop} {made unmade : Entry σ ι ο → Prop} {s : σ}
    (start : ¬P s) (steps : ∀ s i, P (step s i).1 ↔ made (entry step s i) ∨ P s ∧ ¬unmade (entry step s i))
    (is : List ι) : P (run step s is) ↔ Lasting made unmade (trace step s is) :=
  lastingFrom_run start (fun is i => steps (run step s is) i) is

end Lasting

/-! ### Ledgers -/

/-- The rules that a machine keeps for its records. -/
structure Ledger (step : σ → ι → σ × ο) (κ ρ τ : Type*) [LE τ] where
  Inv : σ → Prop
  clock : ι → τ
  current : ρ → τ → Prop
  stands : σ → κ → ρ → Prop
  issued : Entry σ ι ο → κ → ρ → Prop
  ended : Entry σ ι ο → κ → Prop
  inv_step : ∀ s i, Inv s → Inv (step s i).1
  current_before : ∀ r t t', t ≤ t' → current r t' → current r t
  stands_issued : ∀ s i k r, Inv s → issued (entry step s i) k r → stands (step s i).1 k r
  stands_kept : ∀ s i k r, Inv s → stands s k r → current r (clock i) →
    ¬ended (entry step s i) k → stands (step s i).1 k r
  stands_born : ∀ s i k r, Inv s → stands (step s i).1 k r →
    issued (entry step s i) k r ∨ stands s k r ∧ ¬ended (entry step s i) k

namespace Ledger

variable {step : σ → ι → σ × ο} (L : Ledger step κ ρ τ)
variable {s : σ} {is : List ι} {k : κ} {r : ρ} {now : τ}

/-- The history issues the record, and does not end its key after that. -/
def Standing (history : List (Entry σ ι ο)) (k : κ) (r : ρ) : Prop :=
  ∃ l d l', history = l ++ d :: l' ∧ L.issued d k r ∧ ∀ e ∈ l', ¬L.ended e k

theorem standing_nil : ¬L.Standing [] k r := lasting_nil

theorem standing_snoc {history : List (Entry σ ι ο)} {e : Entry σ ι ο} :
    L.Standing (history ++ [e]) k r ↔
      L.issued e k r ∨ L.Standing history k r ∧ ¬L.ended e k := lasting_snoc

theorem inv_run (inv : L.Inv s) (is : List ι) : L.Inv (run step s is) :=
  run_invariant inv L.inv_step

/-- A record stands only if the history issued it and did not end its key since. -/
theorem standing_of_stands (inv : L.Inv s) (none : ∀ k r, ¬L.stands s k r)
    (stands : L.stands (run step s is) k r) : L.Standing (trace step s is) k r := by
  induction is using List.reverseRecOn with
  | nil => exact absurd stands (none k r)
  | append_singleton is i ih =>
    rw [trace_append, trace, trace, standing_snoc]
    rw [run_append, run_cons, run_nil] at stands
    rcases L.stands_born _ i k r (L.inv_run inv is) stands with issued | ⟨before, kept⟩
    · exact .inl issued
    · exact .inr ⟨ih before, kept⟩

/-- What the history issued and did not end stands for as long as it is current. -/
theorem stands_of_standing (inv : L.Inv s) (past : ∀ i ∈ is, L.clock i ≤ now)
    (current : L.current r now) (standing : L.Standing (trace step s is) k r) :
    L.stands (run step s is) k r := by
  induction is using List.reverseRecOn with
  | nil => exact absurd standing L.standing_nil
  | append_singleton is i ih =>
    rw [trace_append, trace, trace, standing_snoc] at standing
    rw [run_append, run_cons, run_nil]
    have here := L.inv_run inv is
    rcases standing with issued | ⟨before, kept⟩
    · exact L.stands_issued _ i k r here issued
    · have stood := ih (fun j mem => past j (List.mem_append_left [i] mem)) before
      have yet := L.current_before r (L.clock i) now (past i (by simp)) current
      exact L.stands_kept _ i k r here stood yet kept

end Ledger

end BtApiSecurity
