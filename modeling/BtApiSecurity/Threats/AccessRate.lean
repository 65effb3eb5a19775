import BtApiSecurity.Threats.Steps
import Mathlib.Data.List.Induction

/-!
# The rate of accesses to data

The accesses kept for a user are pruned at every call. Under a clock that does not go
back they count as all accesses of the user would.
-/

namespace BtApiSecurity.Threats.ThreatDetector
open Py Machine

variable {env : Env} {s : ThreatDetector}

/-- When the call of `i` notes an access of the user. -/
def accessTime (userId : String) (i : Input) : Option Time :=
  match i.call with
  | .detectSuspiciousAccessPattern accessing _ _ => if accessing = userId then some i.now else none
  | _ => none

def accesses (userId : String) (is : List Input) : List Time := is.filterMap (accessTime userId)

/-- How many accesses of the user there were later than an hour before `t`. -/
def accessesSince (userId : String) (is : List Input) (t : Time) : Nat :=
  (accesses userId is).countP fun t' => t - 3600 < t'

/-! ### What is kept -/

def hour : Window Rat := .lasting 3600

theorem accessesOf_noteAccess (s : ThreatDetector) (userId other : String) (now : Time) :
    (s.noteAccess userId now).accessesOf other =
      if userId = other then (s.accessesOf userId ++ [now]).filter (hour.covers now)
      else s.accessesOf other := by
  simp only [accessesOf, noteAccess, Dict.get?_set]
  split
  · rfl
  · rfl

theorem accessesOf_step (env : Env) (s : ThreatDetector) (i : Input) (userId : String) :
    (step env s i).1.accessesOf userId =
      (accessTime userId i).elim (s.accessesOf userId)
        fun now => (s.accessesOf userId ++ [now]).filter (hour.covers now) := by
  have kept : (step env s i).1.accessesOf userId = (noted s i).accessesOf userId := by
    rw [step_noted]
    rfl
  rw [kept]
  obtain ⟨clock, call⟩ := i
  cases call with
  | detectSuspiciousAccessPattern accessing resource ipAddress =>
    simp only [noted, accessTime]
    rw [accessesOf_noteAccess]
    by_cases same : accessing = userId
    · rw [if_pos same, if_pos same, same]
      rfl
    · rw [if_neg same, if_neg same]
      rfl
  | _ => rfl

theorem accesses_append (userId : String) (is : List Input) (i : Input) :
    accesses userId (is ++ [i]) = accesses userId is ++ (accessTime userId i).toList := by
  rw [accesses, List.filterMap_append, List.filterMap_cons]
  cases accessTime userId i with
  | none => rfl
  | some now => rfl

theorem accessTime_eq_now {userId : String} {i : Input} {t : Time}
    (noted : accessTime userId i = some t) : t = i.now := by
  unfold accessTime at noted
  split at noted
  · split at noted
    · exact (Option.some.inj noted).symm
    · cases noted
  · cases noted

/-- From the last call on, what is kept counts like everything that was noted. -/
theorem kept_accesses (env : Env) (thresholds : Dict String Rat) (userId : String) {is : List Input}
    (ascending : AscendingClock is) {t : Time} (late : ∀ i ∈ is, i.now ≤ t) :
    ((run (step env) (new thresholds) is).accessesOf userId).filter (hour.covers t) =
      (accesses userId is).filter (hour.covers t) := by
  induction is using List.reverseRecOn generalizing t with
  | nil => rfl
  | append_singleton is i ih =>
    obtain ⟨before, last⟩ := ascending_append ascending
    have past : ∀ j ∈ is, j.now ≤ t := fun j member => late j (List.mem_append_left _ member)
    rw [run_append, run_cons, run_nil, accessesOf_step, accesses_append]
    cases noted : accessTime userId i with
    | none =>
      rw [Option.elim_none, Option.toList_none, List.append_nil]
      exact ih before past
    | some now =>
      have le : now ≤ t := by
        rw [accessTime_eq_now noted]
        exact late i (by simp)
      rw [Option.elim_some, Option.toList_some, hour.filter_filter le, List.filter_append,
        List.filter_append, ih before past]

/-! ### The rate -/

theorem accessesSince_eq (userId : String) (is : List Input) (t : Time) :
    accessesSince userId is t = ((accesses userId is).filter (hour.covers t)).length := by
  rw [accessesSince, ← List.countP_eq_length_filter]
  apply List.countP_congr
  intro t' _
  simp only [hour, Window.lasting, decide_eq_true_eq]
  constructor
  · intro later
    linarith only [later]
  · intro recent
    linarith only [recent]

theorem length_accessesOf (env : Env) (thresholds : Dict String Rat) {before : List Input} {i : Input}
    {userId resource ipAddress : String} (ascending : AscendingClock (before ++ [i]))
    (call : i.call = .detectSuspiciousAccessPattern userId resource ipAddress) :
    (((run (step env) (new thresholds) before).noteAccess userId i.now).accessesOf userId).length =
      accessesSince userId (before ++ [i]) i.now := by
  obtain ⟨earlier, last⟩ := ascending_append ascending
  have noted : accessTime userId i = some i.now := by rw [accessTime, call]; exact if_pos rfl
  rw [accessesOf_noteAccess, if_pos rfl, accessesSince_eq, accesses_append, noted, List.filter_append,
    List.filter_append, kept_accesses env thresholds userId earlier last]
  rfl

theorem access_count_accessEvent (clock : Clock) (userId resource ipAddress : String) (n : Nat) :
    (accessEvent clock userId resource ipAddress n).details.get? "access_count" = some (count n) := rfl

/-- An access is reported, if and only if the user had more accesses in the last hour than the
threshold, and the event has their number. -/
theorem access_rate_exact (env : Env) (thresholds : Dict String Rat) {limit : Rat}
    (set : thresholds.get? "data_access_threshold" = some limit) {before : List Input} {i : Input}
    (ascending : AscendingClock (before ++ [i])) {userId resource ipAddress : String}
    (call : i.call = .detectSuspiciousAccessPattern userId resource ipAddress) :
    if limit < accessesSince userId (before ++ [i]) i.now then
      ∃ event, (step env (run (step env) (new thresholds) before) i).2 = .ok (.event (some event)) ∧
        event.details.get? "access_count" = some (count (accessesSince userId (before ++ [i]) i.now))
    else (step env (run (step env) (new thresholds) before) i).2 = .ok (.event none) := by
  have set' := set
  rw [← thresholds_run env thresholds before] at set'
  have performs : perform env i.clock i.call =
      Reply.event <$> detectSuspiciousAccessPattern i.clock userId resource ipAddress := by
    rw [call]
    rfl
  have reply := reply_of_ending performs
    (run_detectSuspiciousAccessPattern i.clock userId resource ipAddress set')
  have rate := length_accessesOf env thresholds ascending call
  rw [Input.now] at rate
  rw [rate] at reply
  rw [reply, Input.now]
  split
  · exact ⟨_, rfl, access_count_accessEvent _ _ _ _ _⟩
  · rfl

def accessAt (t : Time) : Input := ⟨fun _ => t, .detectSuspiciousAccessPattern "ann" "orders" "10.0.0.1"⟩

theorem second_access_reported : ∃ event,
    (step ⟨fun _ => none⟩ (run (step ⟨fun _ => none⟩) (new (Dict.empty.set "data_access_threshold" 1))
      [accessAt 0]) (accessAt 3599)).2 = .ok (.event (some event)) ∧
      event.details.get? "access_count" = some (count 2) := by
  have two : accessesSince "ann" ([accessAt 0] ++ [accessAt 3599]) (accessAt 3599).now = 2 := by
    decide +kernel
  have ascending : AscendingClock ([accessAt 0] ++ [accessAt 3599]) := by
    unfold AscendingClock
    decide +kernel
  have reports := access_rate_exact ⟨fun _ => none⟩ (Dict.empty.set "data_access_threshold" 1)
    (Dict.get?_set_self _ _ _) ascending rfl
  rw [two, if_pos (by decide +kernel)] at reports
  exact reports

end BtApiSecurity.Threats.ThreatDetector
