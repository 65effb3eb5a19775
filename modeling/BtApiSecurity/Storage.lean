import BtApiSecurity.Machine
import BtApiSecurity.Py.Dict

/-!
# Tables that a run fills

A step stores an object in a table and returns it, or leaves the table alone; its input says
which. The table grows with every object if and only if the keys are new and distinct,
and then no object is ever lost.
-/

namespace BtApiSecurity.Machine
open Py

variable {σ ι ο κ α : Type*} [DecidableEq κ]

def storing (key : α → κ) (object : Option α) (d : Dict κ α) : Dict κ α :=
  match object with
  | some x => d.set (key x) x
  | none => d

/-- The step returns an object exactly where it stores it, under its key. -/
structure Stores (step : σ → ι → σ × ο) (table : σ → Dict κ α) (key : α → κ) (returned : α → ο)
    (stored : ι → Option α) : Prop where
  state : ∀ s i, table (step s i).1 = storing key (stored i) (table s)
  reply : ∀ s i x, (step s i).2 = returned x ↔ stored i = some x

def storedKeys (key : α → κ) (stored : ι → Option α) (is : List ι) : List κ := (is.filterMap stored).map key

variable {step : σ → ι → σ × ο} {table : σ → Dict κ α} {key : α → κ} {returned : α → ο} {stored : ι → Option α}
  {s : σ} {is : List ι} {i : ι} {k : κ} {x : α}

omit [DecidableEq κ] in
theorem storedKeys_cons_none (nothing : stored i = none) (is : List ι) :
    storedKeys key stored (i :: is) = storedKeys key stored is := by
  rw [storedKeys, List.filterMap_cons, nothing, storedKeys]

omit [DecidableEq κ] in
theorem storedKeys_cons_some (here : stored i = some x) (is : List ι) :
    storedKeys key stored (i :: is) = key x :: storedKeys key stored is := by
  rw [storedKeys, List.filterMap_cons, here, storedKeys, List.map_cons]

/-- A key that nothing is stored under keeps its object. -/
theorem get?_run (stores : Stores step table key returned stored) (absent : k ∉ storedKeys key stored is) :
    (table (run step s is)).get? k = (table s).get? k := by
  induction is generalizing s with
  | nil => rfl
  | cons i is ih =>
    cases here : stored i with
    | none =>
      rw [storedKeys_cons_none here] at absent
      rw [run_cons, ih absent, stores.state s i, here, storing]
    | some y =>
      rw [storedKeys_cons_some here, List.mem_cons, not_or] at absent
      rw [run_cons, ih absent.2, stores.state s i, here, storing, Dict.get?_set_of_ne _ _ (Ne.symm absent.1)]

/-- With distinct keys everything that was returned is found. -/
theorem found_of_distinct (stores : Stores step table key returned stored)
    (distinct : (storedKeys key stored is).Nodup) {e : Entry σ ι ο} (member : e ∈ trace step s is)
    (returns : e.output = returned x) : (table (run step s is)).get? (key x) = some x := by
  induction is generalizing s with
  | nil => cases member
  | cons i is ih =>
    rcases List.mem_cons.mp member with rfl | later
    · have here : stored i = some x := (stores.reply s i x).mp returns
      rw [storedKeys_cons_some here, List.nodup_cons] at distinct
      rw [run_cons, get?_run stores distinct.1, stores.state s i, here, storing, Dict.get?_set_self]
    · refine ih ?_ later
      cases first : stored i with
      | none => rwa [storedKeys_cons_none first] at distinct
      | some y =>
        rw [storedKeys_cons_some first, List.nodup_cons] at distinct
        exact distinct.2

/-- An object that the step returns is one more in the table. -/
def Counted (table : σ → Dict κ α) (returned : α → ο) (e : Entry σ ι ο) : Prop :=
  ∀ x, e.output = returned x → (table e.post).entries.length = (table e.pre).entries.length + 1

theorem counted_none (stores : Stores step table key returned stored) (nothing : stored i = none) :
    Counted table returned (entry step s i) := by
  intro x returns
  cases nothing.symm.trans ((stores.reply s i x).mp returns)

theorem counted_some (stores : Stores step table key returned stored) (here : stored i = some x) :
    Counted table returned (entry step s i) ↔ (table s).get? (key x) = none := by
  rw [← Dict.length_set_iff (table s) (key x) x]
  have after : table (step s i).1 = (table s).set (key x) x := by rw [stores.state s i, here, storing]
  constructor
  · intro counted
    rw [← after]
    exact counted x ((stores.reply s i x).mpr here)
  · intro longer _ _
    rw [← after] at longer
    exact longer

theorem counted_iff (stores : Stores step table key returned stored) (s : σ) (is : List ι) :
    (∀ e ∈ trace step s is, Counted table returned e) ↔
      (storedKeys key stored is).Nodup ∧ ∀ k ∈ storedKeys key stored is, (table s).get? k = none := by
  induction is generalizing s with
  | nil => exact iff_of_true nofun ⟨List.nodup_nil, nofun⟩
  | cons i is ih =>
    rw [trace, List.forall_mem_cons, ih (step s i).1, stores.state s i]
    cases here : stored i with
    | none =>
      rw [storedKeys_cons_none here, storing]
      exact and_iff_right (counted_none stores here)
    | some y =>
      rw [storedKeys_cons_some here, List.nodup_cons, List.forall_mem_cons, counted_some stores here, storing]
      constructor
      · intro both
        obtain ⟨fresh, distinct, later⟩ := both
        refine ⟨⟨?_, distinct⟩, fresh, ?_⟩
        · intro again
          have gone := later (key y) again
          rw [Dict.get?_set_self] at gone
          cases gone
        · intro k member
          have gone := later k member
          rw [Dict.get?_set] at gone
          split at gone
          · cases gone
          · exact gone
      · intro both
        obtain ⟨⟨new, distinct⟩, fresh, later⟩ := both
        refine ⟨fresh, distinct, ?_⟩
        intro k member
        have other : key y ≠ k := by
          rintro rfl
          exact new member
        rw [Dict.get?_set_of_ne _ _ other]
        exact later k member

/-- A table that has none of the keys yet counts everything, if and only if the keys are distinct. -/
theorem counted_iff_nodup (stores : Stores step table key returned stored)
    (new : ∀ k ∈ storedKeys key stored is, (table s).get? k = none) :
    (∀ e ∈ trace step s is, Counted table returned e) ↔ (storedKeys key stored is).Nodup :=
  (counted_iff stores s is).trans (and_iff_left new)

end BtApiSecurity.Machine
