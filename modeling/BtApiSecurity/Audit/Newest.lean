import BtApiSecurity.Audit.Chain
import BtApiSecurity.Audit.Search
import BtApiSecurity.Py.Order

/-!
# The newest matches

What a search should return are the newest of the stored events that satisfy every
filter that is given. It returns the first ones in the file that its own tests
let through.
-/

namespace BtApiSecurity.Audit
open Py

variable {env : Env} {draws : Nat → Draw} {filters : Filters} {k : Nat} {text : List Char}

/-- Every filter that is not `None` is satisfied. -/
def Filters.satisfies (filters : Filters) (e : AuditEvent) : Bool :=
  filters.matchesType e && filters.userId.all (fun user => e.userId.pyEq (.str user)) &&
    filters.startTime.all (fun start => numberLe start.extended e.timestamp.extended) &&
      filters.endTime.all fun finish => numberLe e.timestamp.extended finish.extended

/-- `f` is newer than `e`. -/
def Newer (f e : AuditEvent) : Prop := e.timestamp.lt? f.timestamp = some true

/-- The stored events that a search is about. -/
def wanted (env : Env) (draws : Nat → Draw) (filters : Filters) (text : List Char) : List AuditEvent :=
  (storedEvents env draws text).filter filters.satisfies

/-- As many of the matches as the limit allows, the newest first, and none that is left out is newer
than one that is returned. -/
def ReturnsNewest (env : Env) (draws : Nat → Draw) (filters : Filters) (k : Nat) (text : List Char) :
    Prop :=
  ∃ returned rest, searchEvents env draws filters k (some text) = some returned ∧
    (wanted env draws filters text).Perm (returned ++ rest) ∧
    returned.length = min k (wanted env draws filters text).length ∧
    returned.IsChain (fun e f => ¬Newer f e) ∧ ∀ e ∈ returned, ∀ f ∈ rest, ¬Newer f e

/-- The tests of the search let through, in the order of the file. -/
def candidates (env : Env) (draws : Nat → Draw) (filters : Filters) (text : List Char) :
    List AuditEvent :=
  selected env draws filters 1 (fileLines text)

/-- The first `k` candidates are the newest matches. -/
structure FirstAreNewest (filters : Filters) (k : Nat) (candidates : List AuditEvent) : Prop where
  limit : k = 0 → candidates = []
  satisfying : ∀ e ∈ candidates.take k, filters.satisfies e = true
  newest : ∀ e ∈ candidates.take k, ∀ f ∈ candidates.drop k, filters.satisfies f = true → ¬Newer f e
  comparable : (candidates.take k).Pairwise fun e f => (e.timestamp.lt? f.timestamp).isSome = true

/-! ### Matches and candidates -/

/-- The tests of the search are no stricter than the filters. -/
theorem passes_of_satisfies {e : AuditEvent} (satisfied : filters.satisfies e = true) :
    filters.passes e = some true := by
  simp only [Filters.satisfies, Bool.and_eq_true] at satisfied
  obtain ⟨⟨⟨type, user⟩, early⟩, late⟩ := satisfied
  have matched : filters.matchesUser e = true := by
    unfold Filters.matchesUser
    cases given : filters.userId with
    | none => rfl
    | some u => simpa [given] using Or.inr (by simpa [given] using user)
  have begun : filters.tooEarly e = some false := by
    unfold Filters.tooEarly
    cases given : filters.startTime with
    | none => rfl
    | some start =>
      rw [given] at early
      simp only [lt_float_of_le early, ite_self]
  have open_end : filters.tooLate e = some false := by
    unfold Filters.tooLate
    cases given : filters.endTime with
    | none => rfl
    | some finish =>
      rw [given] at late
      simp only [float_lt_of_ge late, ite_self]
  simp [Filters.passes, type, matched, begun, open_end]

theorem wanted_eq (env : Env) (draws : Nat → Draw) (filters : Filters) (text : List Char) :
    wanted env draws filters text = (candidates env draws filters text).filter filters.satisfies := by
  rw [wanted, candidates, selected, List.filter_filter, storedEvents]
  apply List.filter_congr
  intro e _
  cases satisfied : filters.satisfies e with
  | false => rfl
  | true => simp [passes_of_satisfies satisfied]

theorem searchEvents_eq (env : Env) (draws : Nat → Draw) (filters : Filters) (k : Nat)
    (text : List Char) : searchEvents env draws filters k (some text) =
      sortNewest ((candidates env draws filters text).take (max k 1)) := by
  have scanned : matching env draws filters k 1 [] (fileLines text) =
      [] ++ (selected env draws filters 1 (fileLines text)).take (max k 1) :=
    matching_eq (by simp)
  rw [searchEvents, scanned]
  rfl

/-! ### Sorting -/

theorem sortNewest_some {found sorted : List AuditEvent} (ok : sortNewest found = some sorted) :
    found.Pairwise (fun e f => (e.timestamp.lt? f.timestamp).isSome = true) ∧ sorted.Perm found ∧
      sorted.IsChain fun e f => ¬Newer f e := by
  unfold sortNewest at ok
  split at ok
  · rename_i comparable
    obtain rfl := Option.some.inj ok
    refine ⟨comparable, List.mergeSort_perm _ _, ?_⟩
    have total : ∀ e f : AuditEvent, (e.timestamp.lt? f.timestamp != some true) = true ∨
        (f.timestamp.lt? e.timestamp != some true) = true := by
      intro e f
      by_cases newer : e.timestamp.lt? f.timestamp = some true
      · exact .inr (by simpa using lt_asymm e.timestamp f.timestamp newer)
      · exact .inl (by simpa using newer)
    exact (isChain_mergeSort total found).imp fun e f before => by simpa [Newer] using before
  · cases ok

theorem sortNewest_isSome {found : List AuditEvent}
    (comparable : found.Pairwise fun e f => (e.timestamp.lt? f.timestamp).isSome = true) :
    ∃ sorted, sortNewest found = some sorted :=
  ⟨_, if_pos comparable⟩

/-- Both are times, and `f` is not the later one. -/
def NotOlder (e f : AuditEvent) : Prop :=
  numberLe f.timestamp.extended e.timestamp.extended = true

/-- Where all timestamps are numbers and none is `nan`, no event comes before a newer one. -/
theorem pairwise_of_isChain {events : List AuditEvent}
    (numbers : ∀ e ∈ events, e.timestamp.extended.isSome = true)
    (sorted : events.IsChain fun e f => ¬Newer f e) : events.Pairwise fun e f => ¬Newer f e := by
  have transitive : Trans NotOlder NotOlder NotOlder :=
    ⟨fun first second => numberLe_trans second first⟩
  have chain : events.IsChain NotOlder := by
    refine sorted.imp_of_mem_imp fun e f he hf not_newer => ?_
    rw [Newer, lt_of_number (isNumber_of_extended (numbers e he)), numbersLt?,
      if_pos (isNumber_of_extended (numbers f hf)), Option.some.injEq, Bool.not_eq_true] at not_newer
    exact numberLe_of_not_lt (numbers f hf) (numbers e he) not_newer
  refine (List.isChain_iff_pairwise.mp chain).imp fun le newer => ?_
  have less := (isNumber_of_numbersLt ((lt_of_number
    (isNumber_of_extended (isSome_of_numberLe le).2) _).symm.trans newer)).2
  rw [numberLt_of_le le] at less
  cases less

/-! ### The exact condition -/

theorem wanted_parts (cs : List AuditEvent) : cs.filter filters.satisfies =
    (cs.take k).filter filters.satisfies ++ (cs.drop k).filter filters.satisfies := by
  rw [← List.filter_append, List.take_append_drop]

theorem firstAreNewest_of_returns (returns : ReturnsNewest env draws filters k text) :
    FirstAreNewest filters k (candidates env draws filters text) := by
  unfold ReturnsNewest at returns
  rw [searchEvents_eq, wanted_eq] at returns
  generalize candidates env draws filters text = cs at returns
  obtain ⟨returned, rest, found, perm, count, -, newest⟩ := returns
  obtain ⟨comparable, same, -⟩ := sortNewest_some found
  have lengths := same.length_eq
  rw [List.length_take] at lengths
  cases k with
  | zero =>
    have none_left : cs = [] := by
      apply List.length_eq_zero_iff.mp
      omega
    exact ⟨fun _ => none_left, by simp, by simp, by simp⟩
  | succ k =>
    rw [Nat.max_eq_left (Nat.le_add_left 1 k)] at comparable same
    have satisfying : ∀ e ∈ cs.take (k + 1), filters.satisfies e = true := by
      intro e member
      have among := perm.mem_iff.mpr (List.mem_append_left rest (same.mem_iff.mpr member))
      exact (List.mem_filter.mp among).2
    refine ⟨nofun, satisfying, ?_, comparable⟩
    intro e first f later satisfied
    have left_out : rest.Perm ((cs.drop (k + 1)).filter filters.satisfies) := by
      rw [wanted_parts cs, List.filter_eq_self.mpr satisfying] at perm
      exact (List.perm_append_left_iff _).mp ((same.append_right rest).symm.trans perm.symm)
    exact newest e (same.mem_iff.mpr first) f
      (left_out.mem_iff.mpr (List.mem_filter.mpr ⟨later, satisfied⟩))

theorem returns_of_firstAreNewest
    (first : FirstAreNewest filters k (candidates env draws filters text)) :
    ReturnsNewest env draws filters k text := by
  unfold ReturnsNewest
  rw [searchEvents_eq, wanted_eq]
  generalize candidates env draws filters text = cs at first
  obtain ⟨limit, satisfying, newest, comparable⟩ := first
  cases k with
  | zero =>
    obtain rfl := limit rfl
    exact ⟨[], [], by simp [sortNewest], by simp, by simp, by simp, by simp⟩
  | succ k =>
    rw [Nat.max_eq_left (Nat.le_add_left 1 k)]
    obtain ⟨sorted, found⟩ := sortNewest_isSome comparable
    obtain ⟨-, same, chain⟩ := sortNewest_some found
    refine ⟨sorted, (cs.drop (k + 1)).filter filters.satisfies, found, ?_, ?_, chain, ?_⟩
    · rw [wanted_parts cs, List.filter_eq_self.mpr satisfying]
      exact same.symm.append_right _
    · have later : ((cs.drop (k + 1)).filter filters.satisfies).length ≤ cs.length - (k + 1) := by
        rw [← List.length_drop]
        exact List.length_filter_le ..
      rw [same.length_eq, wanted_parts cs, List.filter_eq_self.mpr satisfying, List.length_append,
        List.length_take]
      omega
    · intro e member f left_out
      obtain ⟨later, satisfied⟩ := List.mem_filter.mp left_out
      exact newest e (same.mem_iff.mp member) f later satisfied

/-- The search returns the newest matches, if and only if those are the first candidates. -/
theorem returnsNewest_iff (env : Env) (draws : Nat → Draw) (filters : Filters) (k : Nat)
    (text : List Char) : ReturnsNewest env draws filters k text ↔
      FirstAreNewest filters k (candidates env draws filters text) :=
  ⟨firstAreNewest_of_returns, returns_of_firstAreNewest⟩

def timeLine (digit : Char) : List Char :=
  dumps (.record [("timestamp", .float (.finite (.ofLiteral ⟨false, [digit], ['0'], none⟩)))])

/-- Two events, the second one newer. -/
def twoLines : List Char := timeLine '1' ++ '\n' :: timeLine '2'

theorem first_is_not_newest : ¬∀ (env : Env) (draws : Nat → Draw) (filters : Filters) (k : Nat)
    (text : List Char), ReturnsNewest env draws filters k text := by
  intro returns
  have first := firstAreNewest_of_returns (returns sampleEnv (fun _ => ⟨"", .nan⟩) {} 1 twoLines)
  have times : (candidates sampleEnv (fun _ => ⟨"", .nan⟩) {} twoLines).map
      (fun e => e.timestamp.extended) = [some (.rat 1), some (.rat 2)] := by
    decide +kernel
  generalize candidates sampleEnv (fun _ => ⟨"", .nan⟩) {} twoLines = cs at first times
  obtain ⟨e, f, rfl, older, newer⟩ : ∃ e f, cs = [e, f] ∧ e.timestamp.extended = some (.rat 1) ∧
      f.timestamp.extended = some (.rat 2) := by
    simpa [List.map_eq_cons_iff] using times
  apply first.newest e (by simp) f (by simp) rfl
  rw [Newer, lt_of_number (isNumber_of_extended (by rw [older]; rfl)), numbersLt?,
    if_pos (isNumber_of_extended (by rw [newer]; rfl)), older, newer]
  decide +kernel

end BtApiSecurity.Audit
