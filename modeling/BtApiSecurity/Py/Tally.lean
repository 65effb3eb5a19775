import Mathlib.Algebra.GroupWithZero.Nat
import Mathlib.Data.List.Induction
import Mathlib.Data.List.Nodup

/-!
# Counting

Counts kept by key in the order in which the keys came up. The keys are compared by
a test that need not be equality, as `==` between Python values is not.
-/

namespace BtApiSecurity.Py

variable {κ : Type*} {same : κ → κ → Bool} {k k' : κ}

/-- `counts[k] = counts.get(k, 0) + 1`. -/
def bump (same : κ → κ → Bool) (k : κ) : List (κ × Nat) → List (κ × Nat)
  | [] => [(k, 1)]
  | entry :: counts =>
    if same entry.1 k then (entry.1, entry.2 + 1) :: counts else entry :: bump same k counts

/-- `counts.get(k, 0)`. -/
def countOf (same : κ → κ → Bool) (k : κ) (counts : List (κ × Nat)) : Nat :=
  (counts.find? fun entry => same entry.1 k).elim 0 Prod.snd

/-- All counts together. -/
def sumOf (counts : List (κ × Nat)) : Nat := (counts.map Prod.snd).sum

/-- Only `k` itself counts as `k`. -/
def Exact (same : κ → κ → Bool) (k : κ) : Prop := ∀ l, same l k = true ↔ l = k

theorem exact_beq [DecidableEq κ] (k : κ) : Exact (· == ·) k := fun _ => beq_iff_eq

theorem sumOf_bump (same : κ → κ → Bool) (k : κ) (counts : List (κ × Nat)) :
    sumOf (bump same k counts) = sumOf counts + 1 := by
  induction counts with
  | nil => rfl
  | cons entry counts ih =>
    unfold bump
    simp only [sumOf] at ih ⊢
    split
    · simp only [List.map_cons, List.sum_cons]
      omega
    · simp only [List.map_cons, List.sum_cons, ih]
      omega

variable [DecidableEq κ]

theorem countOf_cons (exact : Exact same k) (entry : κ × Nat) (counts : List (κ × Nat)) :
    countOf same k (entry :: counts) = if entry.1 = k then entry.2 else countOf same k counts := by
  unfold countOf
  rw [List.find?_cons]
  by_cases this : entry.1 = k
  · rw [if_pos this, (exact entry.1).mpr this]
    rfl
  · rw [if_neg this, Bool.eq_false_iff.mpr fun h => this ((exact entry.1).mp h)]

theorem countOf_bump (here : Exact same k) (there : Exact same k') (counts : List (κ × Nat)) :
    countOf same k' (bump same k counts) = countOf same k' counts + if k = k' then 1 else 0 := by
  induction counts with
  | nil =>
    rw [bump, countOf_cons there]
    split <;> rfl
  | cons entry counts ih =>
    unfold bump
    by_cases known : entry.1 = k
    · rw [if_pos ((here _).mpr known), countOf_cons there, countOf_cons there, known]
      split <;> rfl
    · rw [if_neg fun h => known ((here _).mp h), countOf_cons there, countOf_cons there, ih]
      by_cases asked : entry.1 = k'
      · have other : k ≠ k' := fun h => known (asked.trans h.symm)
        rw [if_pos asked, if_pos asked, if_neg other, Nat.add_zero]
      · rw [if_neg asked, if_neg asked]

/-! ### A whole list of keys -/

/-- Each key once, in the order in which the keys come up, with the number of times that it does. -/
def perKey (keys : List κ) : List (κ × Nat) := keys.eraseDups.map fun k => (k, keys.count k)

theorem eraseDups_snoc (keys : List κ) (k : κ) :
    (keys ++ [k]).eraseDups = if k ∈ keys then keys.eraseDups else keys.eraseDups ++ [k] := by
  rw [List.eraseDups_append, List.removeAll]
  by_cases known : k ∈ keys
  · simp [known]
  · simp [known, List.eraseDups_cons]

theorem nodup_eraseDups (keys : List κ) : keys.eraseDups.Nodup := by
  induction keys using List.reverseRecOn with
  | nil => exact .nil
  | append_singleton keys k ih =>
    rw [eraseDups_snoc]
    split
    · exact ih
    · rename_i new
      rw [← List.concat_eq_append]
      exact List.Nodup.concat (fun h => new (List.mem_eraseDups.mp h)) ih

theorem bump_of_absent {keys : List κ} (absent : k ∉ keys) (count : κ → Nat) :
    bump (· == ·) k (keys.map fun l => (l, count l)) = (keys.map fun l => (l, count l)) ++ [(k, 1)] := by
  induction keys with
  | nil => rfl
  | cons l keys ih =>
    obtain ⟨other, rest⟩ := not_or.mp (fun h => absent (List.mem_cons.mpr h))
    rw [List.map_cons, bump, if_neg (by simpa using Ne.symm other), ih rest]
    rfl

theorem bump_of_present {keys : List κ} (distinct : keys.Nodup) (present : k ∈ keys) (count : κ → Nat) :
    bump (· == ·) k (keys.map fun l => (l, count l)) =
      keys.map fun l => (l, count l + if k = l then 1 else 0) := by
  obtain ⟨before, after, rfl⟩ := List.append_of_mem present
  induction before with
  | nil =>
    obtain ⟨absent, -⟩ := List.nodup_cons.mp distinct
    have rest : ∀ l ∈ after, k ≠ l := fun l member same => absent (same ▸ member)
    rw [List.nil_append, List.map_cons, bump, if_pos (beq_self_eq_true k), List.map_cons, if_pos rfl]
    refine congrArg _ (List.map_congr_left fun l member => ?_)
    rw [if_neg (rest l member), Nat.add_zero]
  | cons l before ih =>
    obtain ⟨absent, distinct⟩ := List.nodup_cons.mp distinct
    have other : k ≠ l := by
      rintro rfl
      exact absent (List.mem_append_right _ List.mem_cons_self)
    rw [List.cons_append, List.map_cons, bump, if_neg (by simpa using Ne.symm other),
      ih distinct (List.mem_append_right _ List.mem_cons_self), List.map_cons, if_neg other, Nat.add_zero]

theorem foldl_bump (keys : List κ) :
    keys.foldl (fun counts k => bump (· == ·) k counts) [] = perKey keys := by
  induction keys using List.reverseRecOn with
  | nil => rfl
  | append_singleton keys k ih =>
    rw [List.foldl_append, ih, List.foldl_cons, List.foldl_nil, perKey, perKey, eraseDups_snoc]
    have counted : ∀ l, (keys ++ [k]).count l = keys.count l + if k = l then 1 else 0 := by
      intro l
      rw [List.count_append, List.count_singleton]
      simp only [beq_iff_eq]
    simp only [counted]
    by_cases known : k ∈ keys
    · rw [if_pos known, bump_of_present (nodup_eraseDups keys) (List.mem_eraseDups.mpr known)]
    · rw [if_neg known, bump_of_absent (fun h => known (List.mem_eraseDups.mp h)), List.map_append,
        List.map_singleton, if_pos rfl, List.count_eq_zero_of_not_mem known]
      refine congrArg (· ++ _) (List.map_congr_left fun l member => ?_)
      rw [if_neg fun same : k = l => known (same ▸ List.mem_eraseDups.mp member), Nat.add_zero]

end BtApiSecurity.Py
