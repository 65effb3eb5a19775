import BtApiSecurity.Audit.Verifier

/-!
# Searching a log

`search_events` reads the lines from the first on, stops at the limit, and sorts
what it found with the newest in front.
-/

namespace BtApiSecurity.Audit
open Py

variable {env : Env} {draws : Nat → Draw}

/-! ### Filters -/

/-- `None`, an empty string and a zero filter nothing. -/
structure Filters where
  eventType : Option EventType := none
  userId : Option String := none
  startTime : Option PyFloat := none
  endTime : Option PyFloat := none

namespace Filters

def matchesType (filters : Filters) (e : AuditEvent) : Bool :=
  match filters.eventType, e.eventType with
  | none, _ => true
  | some t, .member t' => t = t'
  | some _, .other _ => false

def matchesUser (filters : Filters) (e : AuditEvent) : Bool :=
  match filters.userId with
  | none => true
  | some user => user = "" || e.userId.pyEq (.str user)

def tooEarly (filters : Filters) (e : AuditEvent) : Option Bool :=
  match filters.startTime with
  | none => some false
  | some start => if (Value.float start).truthy then e.timestamp.lt? (.float start) else some false

def tooLate (filters : Filters) (e : AuditEvent) : Option Bool :=
  match filters.endTime with
  | none => some false
  | some finish => if (Value.float finish).truthy then (Value.float finish).lt? e.timestamp else some false

/-- `none` is the `TypeError` of a timestamp that is no number. -/
def passes (filters : Filters) (e : AuditEvent) : Option Bool :=
  if !filters.matchesType e || !filters.matchesUser e then some false
  else do
    if ← filters.tooEarly e then return false
    return !(← filters.tooLate e)

end Filters

/-! ### Searching -/

/-- The limit is looked at after an event was added. -/
def matching (env : Env) (draws : Nat → Draw) (filters : Filters) (limit : Int) (number : Nat)
    (found : List AuditEvent) : List (List Char) → List AuditEvent
  | [] => found
  | l :: ls =>
    if stripChars l = [] then matching env draws filters limit (number + 1) found ls
    else
      match AuditEvent.ofLine env (draws number) (stripChars l) with
      | none => matching env draws filters limit (number + 1) found ls
      | some e =>
        if filters.passes e = some true then
          if limit ≤ (found ++ [e]).length then found ++ [e]
          else matching env draws filters limit (number + 1) (found ++ [e]) ls
        else matching env draws filters limit (number + 1) found ls

/-- `results.sort(key=timestamp, reverse=True)`; `none` is the `TypeError`. -/
def sortNewest (found : List AuditEvent) : Option (List AuditEvent) :=
  if found.Pairwise fun e f => (e.timestamp.lt? f.timestamp).isSome = true then
    some (found.mergeSort fun e f => e.timestamp.lt? f.timestamp != some true)
  else none

def searchEvents (env : Env) (draws : Nat → Draw) (filters : Filters) (limit : Int)
    (file : Option (List Char)) : Option (List AuditEvent) :=
  match file with
  | none => some []
  | some text => sortNewest (matching env draws filters limit 1 [] (fileLines text))

/-! ### What is found -/

/-- The events that the filters let through, in the order of the lines. -/
def selected (env : Env) (draws : Nat → Draw) (filters : Filters) (number : Nat)
    (ls : List (List Char)) : List AuditEvent :=
  (decoded env draws number ls).reduceOption.filter fun e => filters.passes e = some true

theorem length_selected (filters : Filters) (number : Nat) (ls : List (List Char)) :
    (selected env draws filters number ls).length ≤ ls.length := by
  induction ls generalizing number with
  | nil => exact Nat.le_refl 0
  | cons l ls ih =>
    have later := ih (number + 1)
    unfold selected at later ⊢
    rw [decoded]
    split
    · exact Nat.le_succ_of_le later
    · cases AuditEvent.ofLine env (draws number) (stripChars l) with
      | none => exact Nat.le_succ_of_le later
      | some e =>
        rw [List.reduceOption_cons_of_some, List.filter_cons]
        split
        · exact Nat.succ_le_succ later
        · exact Nat.le_succ_of_le later

/-- The scan takes what the filters let through until the limit is reached, but one event in any
case. -/
theorem matching_eq {filters : Filters} {limit : Nat} {number : Nat} {found : List AuditEvent}
    {ls : List (List Char)} (room : found.length < max limit 1) :
    matching env draws filters limit number found ls =
      found ++ (selected env draws filters number ls).take (max limit 1 - found.length) := by
  induction ls generalizing number found with
  | nil => simp [matching, selected, decoded, List.reduceOption]
  | cons l ls ih =>
    unfold matching
    split
    · rename_i blank
      rw [ih room, selected, selected, decoded, if_pos blank]
    · rename_i solid
      split
      · rename_i malformed
        rw [ih room, selected, selected, decoded, if_neg solid, malformed]
        rfl
      · rename_i e read
        split
        · rename_i pass
          have here : selected env draws filters number (l :: ls) =
              e :: selected env draws filters (number + 1) ls := by
            rw [selected, decoded, if_neg solid, read, List.reduceOption_cons_of_some,
              List.filter_cons_of_pos (by simpa using pass)]
            rfl
          rw [here]
          split
          · rename_i full
            have last : max limit 1 - found.length = 1 := by
              simp only [List.length_append, List.length_cons, List.length_nil] at full
              omega
            rw [last, List.take_succ_cons, List.take_zero]
          · rename_i more
            simp only [List.length_append, List.length_cons, List.length_nil] at more
            have next : max limit 1 - found.length = max limit 1 - (found ++ [e]).length + 1 := by
              simp only [List.length_append, List.length_cons, List.length_nil]
              omega
            rw [next, List.take_succ_cons, ih, List.append_assoc, List.singleton_append]
            simp only [List.length_append, List.length_cons, List.length_nil]
            omega
        · rename_i fails
          have here : selected env draws filters number (l :: ls) =
              selected env draws filters (number + 1) ls := by
            rw [selected, decoded, if_neg solid, read, List.reduceOption_cons_of_some,
              List.filter_cons_of_neg (by simpa using fails)]
            rfl
          rw [here, ih room]

/-- Events with times can be sorted, and sorting loses none. -/
theorem sortNewest_of_times {found : List AuditEvent}
    (times : ∀ e ∈ found, ∃ x, e.timestamp = .float x) :
    ∃ sorted, sortNewest found = some sorted ∧ sorted.Perm found := by
  refine ⟨_, if_pos ?_, List.mergeSort_perm _ _⟩
  refine List.Pairwise.imp_of_mem (fun {e f} he hf _ => ?_) (List.pairwise_of_forall fun _ _ => trivial)
  obtain ⟨x, hx⟩ := times e he
  obtain ⟨y, hy⟩ := times f hf
  rw [hx, hy, Value.lt?_float]
  rfl

/-- With a limit that covers all lines, whatever the filters let through is found. -/
theorem searchEvents_of_long (filters : Filters) {limit : Int} {text : List Char}
    (long : ((fileLines text).length : Nat) ≤ limit)
    (times : ∀ e ∈ storedEvents env draws text, ∃ x, e.timestamp = .float x) :
    ∃ found, searchEvents env draws filters limit (some text) = some found ∧
      ∀ e, e ∈ found ↔ e ∈ storedEvents env draws text ∧ filters.passes e = some true := by
  have scanned : matching env draws filters limit 1 [] (fileLines text) =
      selected env draws filters 1 (fileLines text) := by
    obtain ⟨n, rfl⟩ := Int.eq_ofNat_of_zero_le (Int.le_trans (Int.natCast_nonneg _) long)
    have short : (selected env draws filters 1 (fileLines text)).length ≤ (fileLines text).length :=
      length_selected filters 1 (fileLines text)
    rw [matching_eq (by simp), List.nil_append, List.take_of_length_le]
    simp only [List.length_nil]
    omega
  have member : ∀ e, e ∈ selected env draws filters 1 (fileLines text) ↔
      e ∈ storedEvents env draws text ∧ filters.passes e = some true := by
    intro e
    simp [selected, storedEvents]
  obtain ⟨sorted, here, perm⟩ := sortNewest_of_times fun e h => times e ((member e).mp h).1
  refine ⟨sorted, ?_, fun e => perm.mem_iff.trans (member e)⟩
  rw [searchEvents, scanned, here]

end BtApiSecurity.Audit
