import Mathlib.Algebra.GroupWithZero.Nat
import Mathlib.Data.List.Basic
import Mathlib.Data.List.Nodup

/-!
# Dictionaries

A Python `dict`: pairs in insertion order, with pairwise distinct keys. Assigning
to a key that is there keeps its place; a new key goes to the end.
-/

namespace BtApiSecurity.Py

universe u v
variable {κ : Type u} {α : Type v} [DecidableEq κ]

/-! ### Pairs -/

def find (k : κ) : List (κ × α) → Option α
  | [] => none
  | (k', x) :: rest => if k' = k then some x else find k rest

def put (k : κ) (x : α) : List (κ × α) → List (κ × α)
  | [] => [(k, x)]
  | (k', y) :: rest => if k' = k then (k', x) :: rest else (k', y) :: put k x rest

/-- `dict(pairs)`: of two pairs with one key the later value wins, at the earlier place. -/
def fromPairs (pairs : List (κ × α)) : List (κ × α) :=
  pairs.foldl (fun entries pair => put pair.1 pair.2 entries) []

theorem find_put (k k' : κ) (x : α) (entries : List (κ × α)) :
    find k' (put k x entries) = if k = k' then some x else find k' entries := by
  induction entries with
  | nil => simp [put, find]
  | cons entry rest ih =>
    obtain ⟨key, y⟩ := entry
    by_cases same : key = k
    · subst key
      by_cases equal : k = k' <;> simp [put, find, equal]
    · by_cases equal : key = k'
      · subst key
        simp [put, find, same, Ne.symm same]
      · simp [put, find, same, equal, ih]

theorem put_put (k : κ) (x y : α) (entries : List (κ × α)) :
    put k y (put k x entries) = put k y entries := by
  induction entries with
  | nil => simp [put]
  | cons entry rest ih =>
    by_cases same : entry.1 = k <;> simp [put, same, ih]

theorem mem_of_find {k : κ} {x : α} {entries : List (κ × α)} (h : find k entries = some x) :
    (k, x) ∈ entries := by
  induction entries with
  | nil => simp [find] at h
  | cons entry rest ih =>
    obtain ⟨key, y⟩ := entry
    by_cases same : key = k
    · subst key
      simp [find] at h
      simp [h]
    · simp only [find, if_neg same] at h
      exact List.mem_cons_of_mem _ (ih h)

theorem find_of_mem {k : κ} {x : α} {entries : List (κ × α)}
    (nodup : (entries.map Prod.fst).Nodup) (h : (k, x) ∈ entries) : find k entries = some x := by
  induction entries with
  | nil => simp at h
  | cons entry rest ih =>
    obtain ⟨key, y⟩ := entry
    simp only [List.map_cons, List.nodup_cons] at nodup
    rcases List.mem_cons.mp h with head | tail
    · cases head
      simp [find]
    · have different : key ≠ k := by
        rintro rfl
        exact nodup.1 (List.mem_map.mpr ⟨_, tail, rfl⟩)
      simp [find, different, ih nodup.2 tail]

theorem put_of_not_mem {k : κ} (x : α) {entries : List (κ × α)} (h : k ∉ entries.map Prod.fst) :
    put k x entries = entries ++ [(k, x)] := by
  induction entries with
  | nil => rfl
  | cons entry rest ih =>
    obtain ⟨key, y⟩ := entry
    simp only [List.map_cons, List.mem_cons, not_or] at h
    simp [put, Ne.symm h.1, ih h.2]

theorem put_append {k : κ} (x : α) {done rest : List (κ × α)} (h : k ∉ done.map Prod.fst) :
    put k x (done ++ rest) = done ++ put k x rest := by
  induction done with
  | nil => rfl
  | cons entry done ih =>
    obtain ⟨key, y⟩ := entry
    simp only [List.map_cons, List.mem_cons, not_or] at h
    rw [List.cons_append, put, if_neg (Ne.symm h.1), ih h.2, List.cons_append]

/-- A view of the entries does not see a value replaced by one that looks the same. -/
theorem map_put_of_same {β : Type*} {g : κ × α → β} {k : κ} {x y : α} {entries : List (κ × α)}
    (found : find k entries = some y) (same : g (k, x) = g (k, y)) :
    (put k x entries).map g = entries.map g := by
  induction entries with
  | nil => cases found
  | cons entry rest ih =>
    obtain ⟨key, z⟩ := entry
    by_cases here : key = k
    · rw [find, if_pos here] at found
      rw [put, if_pos here, List.map_cons, List.map_cons, here, same, ← Option.some.inj found]
    · rw [find, if_neg here] at found
      rw [put, if_neg here, List.map_cons, List.map_cons, ih found]

theorem keys_put (k : κ) (x : α) (entries : List (κ × α)) :
    (put k x entries).map Prod.fst =
      if k ∈ entries.map Prod.fst then entries.map Prod.fst else entries.map Prod.fst ++ [k] := by
  induction entries with
  | nil => simp [put]
  | cons entry rest ih =>
    obtain ⟨key, y⟩ := entry
    by_cases same : key = k
    · simp [put, same]
    · simp only [put, if_neg same, List.map_cons, ih, List.mem_cons, Ne.symm same, false_or]
      split <;> simp

theorem nodup_put {k : κ} {x : α} {entries : List (κ × α)}
    (nodup : (entries.map Prod.fst).Nodup) : ((put k x entries).map Prod.fst).Nodup := by
  rw [keys_put]
  split
  · exact nodup
  · rename_i absent
    exact List.nodup_append.mpr ⟨nodup, by simp, by
      intro a ha b hb
      obtain rfl := List.mem_singleton.mp hb
      rintro rfl
      exact absent ha⟩

theorem fromPairs_of_nodup {pairs : List (κ × α)} (nodup : (pairs.map Prod.fst).Nodup) :
    fromPairs pairs = pairs := by
  have folded : ∀ (rest before : List (κ × α)), ((before ++ rest).map Prod.fst).Nodup →
      rest.foldl (fun entries pair => put pair.1 pair.2 entries) before = before ++ rest := by
    intro rest
    induction rest with
    | nil => simp
    | cons pair rest ih =>
      intro before distinct
      have absent : pair.1 ∉ before.map Prod.fst := by
        rw [List.map_append, List.nodup_append] at distinct
        intro present
        exact distinct.2.2 _ present _ (by simp) rfl
      rw [List.foldl_cons, put_of_not_mem _ absent, ih _ (by simpa using distinct)]
      simp
  exact folded pairs [] nodup

theorem nodup_fromPairs (pairs : List (κ × α)) : ((fromPairs pairs).map Prod.fst).Nodup := by
  have folded : ∀ (rest before : List (κ × α)), (before.map Prod.fst).Nodup →
      ((rest.foldl (fun entries pair => put pair.1 pair.2 entries) before).map Prod.fst).Nodup := by
    intro rest
    induction rest with
    | nil => exact fun _ distinct => distinct
    | cons pair rest ih => exact fun _ distinct => ih _ (nodup_put distinct)
  apply folded pairs []
  simp

theorem mem_put {k : κ} {x : α} {entries : List (κ × α)} {e : κ × α}
    (h : e ∈ put k x entries) : e = (k, x) ∨ e ∈ entries := by
  induction entries with
  | nil => exact .inl (by simpa [put] using h)
  | cons entry rest ih =>
    obtain ⟨key, y⟩ := entry
    by_cases same : key = k
    · subst key
      rcases (by simpa [put] using h : e = (k, x) ∨ e ∈ rest) with here | there
      · exact .inl here
      · exact .inr (by simp [there])
    · rcases (by simpa [put, same] using h : e = (key, y) ∨ e ∈ put k x rest) with rfl | there
      · exact .inr (by simp)
      · apply (ih there).imp_right
        simp +contextual

theorem mem_fromPairs {pairs : List (κ × α)} {e : κ × α}
    (h : e ∈ fromPairs pairs) : e ∈ pairs := by
  have folded : ∀ (rest before : List (κ × α)),
      e ∈ rest.foldl (fun entries pair => put pair.1 pair.2 entries) before → e ∈ before ∨ e ∈ rest := by
    intro rest
    induction rest with
    | nil => exact fun _ here => .inl here
    | cons pair rest ih =>
      intro before here
      rcases ih _ here with put | there
      · rcases mem_put put with rfl | old
        · exact .inr (by simp)
        · exact .inl old
      · exact .inr (by simp [there])
  simpa using folded pairs [] h

/-! ### What a lost pair weighs -/

section
variable (f : κ × α → Nat)

theorem sum_put_of_mem {k : κ} (x : α) {entries : List (κ × α)} (positive : ∀ e, 0 < f e)
    (present : k ∈ entries.map Prod.fst) :
    ((put k x entries).map f).sum < (entries.map f).sum + f (k, x) := by
  induction entries with
  | nil => cases present
  | cons entry rest ih =>
    obtain ⟨key, y⟩ := entry
    have entry_positive := positive (key, y)
    by_cases same : key = k
    · subst key
      simp only [put, if_true, List.map_cons, List.sum_cons]
      omega
    · have later : k ∈ rest.map Prod.fst := by
        rcases List.mem_cons.mp present with here | later
        · exact absurd here.symm same
        · exact later
      simp only [put, same, if_false, List.map_cons, List.sum_cons]
      have tail := ih later
      omega

theorem sum_put_of_not_mem {k : κ} (x : α) {entries : List (κ × α)}
    (absent : k ∉ entries.map Prod.fst) :
    ((put k x entries).map f).sum = (entries.map f).sum + f (k, x) := by
  rw [put_of_not_mem x absent]
  simp

/-- Of pairs with positive weights `dict(pairs)` weighs less, unless the keys are distinct. -/
theorem sum_fromPairs (positive : ∀ e, 0 < f e) (pairs : List (κ × α)) :
    ((fromPairs pairs).map f).sum ≤ (pairs.map f).sum ∧
      (((fromPairs pairs).map f).sum = (pairs.map f).sum → (pairs.map Prod.fst).Nodup) := by
  have folded : ∀ (rest before : List (κ × α)), (before.map Prod.fst).Nodup →
      ((rest.foldl (fun entries pair => put pair.1 pair.2 entries) before).map f).sum ≤
          (before.map f).sum + (rest.map f).sum ∧
        (((rest.foldl (fun entries pair => put pair.1 pair.2 entries) before).map f).sum =
          (before.map f).sum + (rest.map f).sum → ((before ++ rest).map Prod.fst).Nodup) := by
    intro rest
    induction rest with
    | nil => intro before distinct; simpa using distinct
    | cons pair rest ih =>
      intro before distinct
      obtain ⟨k, x⟩ := pair
      obtain ⟨bound, exact_sum⟩ := ih (put k x before) (nodup_put distinct)
      simp only [List.foldl_cons, List.map_cons, List.sum_cons]
      by_cases present : k ∈ before.map Prod.fst
      · have lighter := sum_put_of_mem f x positive present
        exact ⟨by omega, fun same => by omega⟩
      · have added := sum_put_of_not_mem f x present
        refine ⟨by omega, ?_⟩
        intro same
        have nodup := exact_sum (by omega)
        rw [put_of_not_mem _ present] at nodup
        simpa using nodup
  simpa [fromPairs] using folded pairs [] (by simp)

end

/-- Assigning to a key trades the weight of the old value for that of the new one. -/
theorem sum_values_put (w : α → Nat) (k : κ) (x : α) (entries : List (κ × α)) :
    ((put k x entries).map (w ·.2)).sum + (find k entries).elim 0 w =
      (entries.map (w ·.2)).sum + w x := by
  induction entries with
  | nil => simp [put, find]
  | cons entry rest ih =>
    obtain ⟨key, y⟩ := entry
    by_cases same : key = k
    · simp only [put, find, if_pos same, List.map_cons, List.sum_cons, Option.elim_some]
      omega
    · simp only [put, find, if_neg same, List.map_cons, List.sum_cons]
      omega

/-! ### Dictionaries -/

structure Dict (κ : Type u) (α : Type v) where
  entries : List (κ × α)
  nodup : (entries.map Prod.fst).Nodup

namespace Dict

def empty : Dict κ α := ⟨[], by simp⟩

def get? (d : Dict κ α) (k : κ) : Option α := find k d.entries

def set (d : Dict κ α) (k : κ) (x : α) : Dict κ α := ⟨put k x d.entries, nodup_put d.nodup⟩

def filter (d : Dict κ α) (p : κ → α → Bool) : Dict κ α :=
  ⟨d.entries.filter fun e => p e.1 e.2, d.nodup.sublist (List.filter_sublist.map _)⟩

def map {β : Type*} (d : Dict κ α) (f : α → β) : Dict κ β :=
  ⟨d.entries.map fun e => (e.1, f e.2), by simpa [Function.comp_def] using d.nodup⟩

/-- `d.pop(k, None)`. -/
def erase (d : Dict κ α) (k : κ) : Dict κ α := d.filter fun k' _ => k' ≠ k

def values (d : Dict κ α) : List α := d.entries.map Prod.snd

@[simp] theorem get?_empty (k : κ) : (empty : Dict κ α).get? k = none := rfl

theorem get?_set (d : Dict κ α) (k k' : κ) (x : α) :
    (d.set k x).get? k' = if k = k' then some x else d.get? k' := find_put k k' x d.entries

@[simp] theorem get?_set_self (d : Dict κ α) (k : κ) (x : α) : (d.set k x).get? k = some x := by
  simp [get?_set]

theorem get?_set_some {d : Dict κ α} {k k' : κ} {x y : α} (h : (d.set k x).get? k' = some y) :
    (k = k' ∧ x = y) ∨ d.get? k' = some y := by
  rw [get?_set] at h
  split at h
  · rename_i same
    exact .inl ⟨same, Option.some.inj h⟩
  · exact .inr h

theorem get?_set_of_ne (d : Dict κ α) {k k' : κ} (x : α) (h : k ≠ k') :
    (d.set k x).get? k' = d.get? k' := by
  simp [get?_set, h]

@[simp] theorem set_set (d : Dict κ α) (k : κ) (x y : α) : (d.set k x).set k y = d.set k y := by
  simp [set, put_put]

theorem mem_entries (d : Dict κ α) {k : κ} {x : α} : (k, x) ∈ d.entries ↔ d.get? k = some x :=
  ⟨find_of_mem d.nodup, mem_of_find⟩

theorem map_set_of_same {β : Type*} {g : κ × α → β} {d : Dict κ α} {k : κ} {x y : α}
    (found : d.get? k = some y) (same : g (k, x) = g (k, y)) :
    (d.set k x).entries.map g = d.entries.map g :=
  map_put_of_same found same

theorem entries_set_of_absent {d : Dict κ α} {k : κ} (absent : d.get? k = none) (x : α) :
    (d.set k x).entries = d.entries ++ [(k, x)] := by
  apply put_of_not_mem
  intro member
  obtain ⟨⟨key, y⟩, present, rfl⟩ := List.mem_map.mp member
  rw [(mem_entries d).mp present] at absent
  cases absent

/-- The dictionary grows by a key that is new, and by no other. -/
theorem length_set_iff (d : Dict κ α) (k : κ) (x : α) :
    (d.set k x).entries.length = d.entries.length + 1 ↔ d.get? k = none := by
  have keys := congrArg List.length (keys_put k x d.entries)
  rw [List.length_map] at keys
  cases found : d.get? k with
  | none =>
    rw [entries_set_of_absent found, List.length_append, List.length_singleton]
    exact iff_of_true rfl rfl
  | some y =>
    have present : k ∈ d.entries.map Prod.fst := List.mem_map_of_mem ((mem_entries d).mpr found)
    rw [if_pos present, List.length_map] at keys
    refine iff_of_false ?_ (by intro same; cases same)
    rw [set, keys]
    omega

variable {done rest : List (κ × α)}

/-- Assigning to a key that is there changes the value at its place. -/
theorem entries_set_of_split {d : Dict κ α} {k : κ} {x : α} (y : α)
    (split : d.entries = done ++ (k, x) :: rest) : (d.set k y).entries = done ++ (k, y) :: rest := by
  have nodup := d.nodup
  rw [split, List.map_append, List.nodup_append] at nodup
  have absent : k ∉ done.map Prod.fst := fun earlier => nodup.2.2 k earlier k List.mem_cons_self rfl
  change put k y d.entries = _
  rw [split, put_append y absent, put, if_pos rfl]

omit [DecidableEq κ] in
theorem ext_entries {d d' : Dict κ α} (same : d.entries = d'.entries) : d = d' := by
  cases d
  cases d'
  rw [mk.injEq]
  exact same

theorem get?_filter (d : Dict κ α) (p : κ → α → Bool) (k : κ) :
    (d.filter p).get? k = (d.get? k).filter (p k) := by
  apply Option.ext
  intro x
  rw [← mem_entries, Option.filter_eq_some_iff, ← mem_entries, filter, List.mem_filter]

theorem get?_filter_some {d : Dict κ α} {p : κ → α → Bool} {k : κ} {x : α}
    (h : (d.filter p).get? k = some x) : d.get? k = some x := by
  rw [get?_filter, Option.filter_eq_some_iff] at h
  exact h.1

omit [DecidableEq κ] in
theorem filter_filter (d : Dict κ α) (p : κ → α → Bool) : (d.filter p).filter p = d.filter p := by
  simp [filter, List.filter_filter]

theorem get?_erase (d : Dict κ α) (k k' : κ) :
    (d.erase k).get? k' = if k = k' then none else d.get? k' := by
  unfold erase
  rw [get?_filter]
  by_cases same : k = k'
  · simp [same]
  · cases d.get? k' <;> simp [same, Ne.symm same]

@[simp] theorem get?_erase_self (d : Dict κ α) (k : κ) : (d.erase k).get? k = none := by
  simp [get?_erase]

theorem get?_erase_of_ne (d : Dict κ α) {k k' : κ} (h : k ≠ k') :
    (d.erase k).get? k' = d.get? k' := by
  simp [get?_erase, h]

@[simp] theorem erase_set (d : Dict κ α) (k : κ) (x : α) : (d.set k x).erase k = d.erase k := by
  have kept : ∀ entries : List (κ × α),
      (put k x entries).filter (fun e => e.1 ≠ k) = entries.filter fun e => e.1 ≠ k := by
    intro entries
    induction entries with
    | nil => simp [put]
    | cons entry rest ih =>
      by_cases same : entry.1 = k
      · simp [put, same]
      · rw [put, if_neg same, List.filter_cons, List.filter_cons, ih]
  simp only [set, erase, filter, mk.injEq]
  exact kept d.entries

theorem set_of_get? {d : Dict κ α} {k : κ} {x : α} (found : d.get? k = some x) : d.set k x = d := by
  obtain ⟨done, rest, split⟩ := List.append_of_mem ((mem_entries d).mpr found)
  exact ext_entries ((entries_set_of_split x split).trans split.symm)

theorem erase_of_absent {d : Dict κ α} {k : κ} (absent : d.get? k = none) : d.erase k = d := by
  apply ext_entries
  apply List.filter_eq_self.mpr
  intro e member
  have different : e.1 ≠ k := by
    rintro rfl
    rw [(mem_entries d).mp member] at absent
    cases absent
  simpa using different

theorem erase_set_of_ne (d : Dict κ α) {k k' : κ} (x : α) (h : k ≠ k') :
    (d.set k x).erase k' = (d.erase k').set k x := by
  have moved : ∀ entries : List (κ × α), (put k x entries).filter (fun e => e.1 ≠ k') =
      put k x (entries.filter fun e => e.1 ≠ k') := by
    intro entries
    induction entries with
    | nil => simp [put, h]
    | cons entry rest ih =>
      by_cases same : entry.1 = k
      · simp [put, same, h]
      · rw [put, if_neg same, List.filter_cons, List.filter_cons, ih]
        by_cases gone : entry.1 = k' <;> simp [put, same, gone]
  exact ext_entries (moved d.entries)

theorem erase_erase_comm (d : Dict κ α) (k k' : κ) : (d.erase k).erase k' = (d.erase k').erase k := by
  apply ext_entries
  simp only [erase, filter, List.filter_filter]
  congr 1
  funext e
  exact Bool.and_comm _ _

@[simp] theorem get?_map {β : Type*} (d : Dict κ α) (f : α → β) (k : κ) :
    (d.map f).get? k = (d.get? k).map f := by
  obtain ⟨entries, _⟩ := d
  simp only [map, get?]
  induction entries with
  | nil => rfl
  | cons entry rest ih =>
    by_cases same : entry.1 = k
    · simp [find, same]
    · simp [find, same, ih (by simp_all)]

/-! ### Thinned dictionaries -/

/-- `d'` is `d` without some of the entries that are not alive. -/
def Thinned (alive : α → Prop) (d d' : Dict κ α) : Prop :=
  ∀ k, d'.get? k = d.get? k ∨ d'.get? k = none ∧ ∃ x, d.get? k = some x ∧ ¬alive x

variable {alive : α → Prop} {d d' : Dict κ α} {k : κ} {x : α}

theorem Thinned.get?_iff (h : Thinned alive d d') (living : alive x) :
    d'.get? k = some x ↔ d.get? k = some x := by
  rcases h k with same | ⟨absent, y, present, dead⟩
  · rw [same]
  · rw [absent, present]
    simp only [reduceCtorEq, Option.some.injEq, false_iff]
    rintro rfl
    exact dead living

theorem Thinned.get?_some (h : Thinned alive d d') (found : d'.get? k = some x) :
    d.get? k = some x := by
  rcases h k with same | ⟨absent, -⟩
  · exact same ▸ found
  · rw [absent] at found
    cases found

theorem Thinned.set (h : Thinned alive d d') (k : κ) (x : α) : Thinned alive (d.set k x) (d'.set k x) := by
  intro k'
  by_cases same : k = k'
  · subst same
    simp
  · simpa only [get?_set_of_ne _ _ same] using h k'

theorem Thinned.set_dead (h : Thinned alive d d') (absent : d'.get? k = none) (dead : ¬alive x) :
    Thinned alive (d.set k x) d' := by
  intro k'
  by_cases same : k = k'
  · subst same
    exact .inr ⟨absent, x, get?_set_self d k x, dead⟩
  · simpa only [get?_set_of_ne _ _ same] using h k'

theorem Thinned.erase (h : Thinned alive d d') (k : κ) : Thinned alive (d.erase k) (d'.erase k) := by
  intro k'
  by_cases same : k = k'
  · subst same
    simp
  · simpa only [get?_erase_of_ne _ same] using h k'

theorem Thinned.erase_absent (h : Thinned alive d d') (absent : d'.get? k = none) :
    Thinned alive (d.erase k) d' := by
  intro k'
  by_cases same : k = k'
  · subst same
    simp [absent]
  · simpa only [get?_erase_of_ne _ same] using h k'

theorem Thinned.filter (h : Thinned alive d d') (p : κ → α → Bool) :
    Thinned alive (d.filter p) (d'.filter p) := by
  intro k
  rw [get?_filter, get?_filter]
  rcases h k with same | ⟨absent, x, present, dead⟩
  · rw [same]
    exact .inl rfl
  · rw [absent, present]
    by_cases kept : p k x = true
    · exact .inr ⟨rfl, x, by simp [kept], dead⟩
    · exact .inl (by simp [Option.filter, kept])

theorem thinned_filter (d : Dict κ α) {p : α → Bool} (removes : ∀ x, alive x → p x = true) :
    Thinned alive d (d.filter fun _ x => p x) := by
  intro k
  rw [get?_filter]
  cases found : d.get? k with
  | none => exact .inl rfl
  | some x =>
    by_cases kept : p x = true
    · exact .inl (by simp [kept])
    · refine .inr ⟨by simp [kept], x, rfl, ?_⟩
      exact fun living => kept (removes x living)

/-! ### What holds of every value -/

def Every (d : Dict κ α) (p : κ → α → Prop) : Prop := ∀ k x, d.get? k = some x → p k x

variable {p q : κ → α → Prop}

theorem every_empty : (empty : Dict κ α).Every p := by
  intro k x found
  cases found

theorem Every.mono (every : d.Every p) (weaker : ∀ k x, p k x → q k x) : d.Every q :=
  fun k x found => weaker k x (every k x found)

theorem Every.set (every : d.Every p) (holds : p k x) : (d.set k x).Every p := by
  intro k' x' found
  rcases get?_set_some found with ⟨rfl, rfl⟩ | before
  · exact holds
  · exact every k' x' before

theorem Every.filter (every : d.Every p) (keep : κ → α → Bool) : (d.filter keep).Every p :=
  fun k x found => every k x (get?_filter_some found)

theorem Every.erase (every : d.Every p) (k : κ) : (d.erase k).Every p := every.filter _

end Dict

end BtApiSecurity.Py
