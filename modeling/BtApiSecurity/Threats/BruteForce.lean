import BtApiSecurity.Py.Text
import BtApiSecurity.Threats.Steps
import Mathlib.Data.List.Induction
import Mathlib.Data.List.Dedup

/-!
# Failed logins in a row

A failed login is kept under a text glued from user and address, and the hundred newest
of a text are kept. Calls for other users or addresses count where their texts say so.
-/

namespace BtApiSecurity.Threats.ThreatDetector
open Py Machine

variable {env : Env} {s : ThreatDetector}

/-- A call of `detect_failed_login`. -/
structure Attempt where
  userId : String
  ipAddress : String
  time : Time

def Attempt.key (a : Attempt) : String := loginKey a.userId a.ipAddress

def Attempt.since (t : Time) (a : Attempt) : Bool := t - 300 < a.time

def attempt (i : Input) : Option Attempt :=
  match i.call with
  | .detectFailedLogin userId ipAddress => some ⟨userId, ipAddress, i.now⟩
  | _ => none

theorem attempt_time {i : Input} {a : Attempt} (is_attempt : attempt i = some a) : a.time = i.now := by
  unfold attempt at is_attempt
  split at is_attempt
  · cases is_attempt
    rfl
  · cases is_attempt

def attempts (is : List Input) : List Attempt := is.filterMap attempt

/-! ### What the history says -/

/-- How many attempts there were for exactly this user and this address. -/
def failuresSince (userId ipAddress : String) (is : List Input) (t : Time) : Nat :=
  (attempts is).countP fun a => a.userId = userId && a.ipAddress = ipAddress && a.since t

/-- How many attempts there were for the same text. -/
def gluedSince (key : String) (is : List Input) (t : Time) : Nat :=
  (attempts is).countP fun a => a.key = key && a.since t

/-- The users with an attempt for exactly this address. -/
def usersSince (ipAddress : String) (is : List Input) (t : Time) : List String :=
  (((attempts is).filter fun a => a.ipAddress = ipAddress && a.since t).map (·.userId)).dedup

def endsWithIp (ipAddress key : String) : Bool := (":" ++ ipAddress).toList.isSuffixOf key.toList

/-- The texts of attempts that end like this address. -/
def keysSince (ipAddress : String) (is : List Input) (t : Time) : List String :=
  (((attempts is).filter fun a => endsWithIp ipAddress a.key && a.since t).map (·.key)).dedup

/-! ### What is kept -/

def fiveMinutes : Window Rat := .lasting 300

theorem covers_fiveMinutes (t : Time) (a : Attempt) : fiveMinutes.covers t a.time = a.since t := by
  rw [Attempt.since, Bool.eq_iff_iff, decide_eq_true_eq, fiveMinutes, Window.lasting, decide_eq_true_eq]
  constructor
  · intro recent
    linarith only [recent]
  · intro later
    linarith only [later]

def timesOf (key : String) (is : List Input) : List Time :=
  ((attempts is).filter fun a => a.key = key).map (·.time)

theorem attempts_append (is : List Input) (i : Input) :
    attempts (is ++ [i]) = attempts is ++ (attempt i).toList := by
  rw [attempts, List.filterMap_append, List.filterMap_cons]
  cases attempt i with
  | none => rfl
  | some a => rfl

theorem failuresOf_track (s : ThreatDetector) (key other : String) (now : Time) :
    (s.track key now).failuresOf other =
      if key = other then lastOf 100 (s.failuresOf key ++ [now]) else s.failuresOf other := by
  simp only [failuresOf, track, Dict.get?_set]
  split
  · rfl
  · rfl

theorem failuresOf_step (env : Env) (s : ThreatDetector) (i : Input) (key : String) :
    (step env s i).1.failuresOf key = (noted s i).failuresOf key := by
  rw [step_noted]
  rfl

theorem timesOf_append (key : String) (is : List Input) (i : Input) :
    timesOf key (is ++ [i]) = timesOf key is ++
      ((attempt i).toList.filter fun a => a.key = key).map (·.time) := by
  rw [timesOf, attempts_append, List.filter_append, List.map_append]
  rfl

theorem failuresOf_noted {is : List Input} (i : Input) (key : String)
    (kept : ∀ key, s.failuresOf key = lastOf 100 (timesOf key is)) :
    (noted s i).failuresOf key = lastOf 100 (timesOf key (is ++ [i])) := by
  rw [timesOf_append]
  obtain ⟨clock, call⟩ := i
  cases call with
  | detectFailedLogin userId ipAddress =>
    rw [noted, failuresOf_track, attempt, Option.toList_some, List.filter_singleton]
    by_cases same : loginKey userId ipAddress = key
    · rw [if_pos same, same, kept key, lastOf_append]
      simp [Attempt.key, same]
    · rw [if_neg same, kept key]
      simp [Attempt.key, same]
  | _ =>
    refine (kept key).trans ?_
    rw [attempt, Option.toList_none, List.filter_nil, List.map_nil, List.append_nil]

theorem failuresOf_run (env : Env) (thresholds : Dict String Rat) (is : List Input) (key : String) :
    (run (step env) (new thresholds) is).failuresOf key = lastOf 100 (timesOf key is) := by
  induction is using List.reverseRecOn generalizing key with
  | nil => rfl
  | append_singleton is i ih =>
    rw [run_append, run_cons, run_nil, failuresOf_step]
    exact failuresOf_noted i key ih

/-! ### What is counted -/

theorem mem_timesOf {key : String} {is : List Input} {t : Time} :
    t ∈ timesOf key is ↔ ∃ a ∈ attempts is, a.key = key ∧ a.time = t := by
  simp only [timesOf, List.mem_map, List.mem_filter, decide_eq_true_eq, and_assoc]

theorem sorted_timesOf (key : String) {is : List Input} (ascending : AscendingClock is) :
    (timesOf key is).Pairwise (· ≤ ·) := by
  have attempts_sorted : (attempts is).Pairwise fun a b => a.time ≤ b.time := by
    rw [attempts, List.pairwise_filterMap]
    refine (List.pairwise_map.mp ascending).imp ?_
    intro i j le a ha b hb
    rw [attempt_time ha, attempt_time hb]
    exact le
  exact List.pairwise_map.mpr (attempts_sorted.filter _)

/-- The queue counts up to a hundred. -/
theorem recent_lastOf (key : String) {is : List Input} (ascending : AscendingClock is) (t : Time) :
    recent t 300 (lastOf 100 (timesOf key is)) = min 100 (gluedSince key is t) := by
  refine (fiveMinutes.count_lastOf (sorted_timesOf key ascending) 100 t).trans ?_
  rw [gluedSince, timesOf, List.countP_map, List.countP_filter]
  congr 1
  apply List.countP_congr
  intro a _
  rw [Function.comp_apply, covers_fiveMinutes, Bool.and_comm]

theorem mem_keysSince {ipAddress key : String} {is : List Input} {t : Time} :
    key ∈ keysSince ipAddress is t ↔
      endsWithIp ipAddress key = true ∧ ∃ a ∈ attempts is, a.key = key ∧ a.since t = true := by
  simp only [keysSince, List.mem_dedup, List.mem_map, List.mem_filter, Bool.and_eq_true]
  constructor
  · intro counted
    obtain ⟨a, ⟨member, ends, since⟩, rfl⟩ := counted
    exact ⟨ends, a, member, rfl, since⟩
  · intro counted
    obtain ⟨ends, a, member, rfl, since⟩ := counted
    exact ⟨a, ⟨member, ends, since⟩, rfl⟩

theorem any_failuresOf {is : List Input} (ascending : AscendingClock is)
    (kept : ∀ key, s.failuresOf key = lastOf 100 (timesOf key is)) (key : String) (t : Time) :
    ((s.failuresOf key).any fun t' => t - t' < 300) = true ↔
      ∃ a ∈ attempts is, a.key = key ∧ a.since t = true := by
  have any := fiveMinutes.any_lastOf (sorted_timesOf key ascending) (n := 100) (by decide) t
  rw [kept key]
  refine (Bool.eq_iff_iff.mp any).trans ?_
  simp only [List.any_eq_true, mem_timesOf]
  constructor
  · intro counted
    obtain ⟨_, ⟨a, member, same, rfl⟩, recent⟩ := counted
    exact ⟨a, member, same, (covers_fiveMinutes t a).symm.trans recent⟩
  · intro counted
    obtain ⟨a, member, same, since⟩ := counted
    exact ⟨a.time, ⟨a, member, same, rfl⟩, (covers_fiveMinutes t a).trans since⟩

/-- An entry of the dictionary is what is kept for its key. -/
theorem mem_failedLogins {p : List Time → Bool} (nothing : p [] = false) (key : String) :
    (∃ times, (key, times) ∈ s.failedLogins.entries ∧ p times = true) ↔ p (s.failuresOf key) = true := by
  unfold failuresOf
  simp only [Dict.mem_entries]
  cases s.failedLogins.get? key with
  | none => simp [nothing]
  | some times => simp

/-- What `ipFailures` counts are the texts of the history. -/
theorem ipFailures_eq {is : List Input} (ascending : AscendingClock is)
    (kept : ∀ key, s.failuresOf key = lastOf 100 (timesOf key is)) (ipAddress : String) (t : Time) :
    s.ipFailures ipAddress t = (keysSince ipAddress is t).length := by
  let counts (entry : String × List Time) : Bool :=
    endsWithIp ipAddress entry.1 && entry.2.any fun t' => t - t' < 300
  have counted : s.ipFailures ipAddress t = ((s.failedLogins.entries.filter counts).map Prod.fst).length := by
    rw [List.length_map, ← List.countP_eq_length_filter]
    rfl
  have distinct : ((s.failedLogins.entries.filter counts).map Prod.fst).Nodup :=
    s.failedLogins.nodup.sublist (List.Sublist.map _ List.filter_sublist)
  have same : ∀ key, key ∈ (s.failedLogins.entries.filter counts).map Prod.fst ↔
      key ∈ keysSince ipAddress is t := by
    intro key
    rw [mem_keysSince, ← any_failuresOf ascending kept, ← Bool.and_eq_true,
      ← mem_failedLogins (p := fun times => endsWithIp ipAddress key && times.any fun t' => t - t' < 300)
        (by simp) key]
    simp only [List.mem_map, List.mem_filter, Prod.exists, exists_and_right, exists_eq_right, counts]
  rw [counted]
  exact ((List.perm_ext_iff_of_nodup distinct (List.nodup_dedup _)).mpr same).length_eq

/-! ### The detection -/

/-- There is an event, if and only if the attempts of exactly this user from exactly this address reach
the limit, and its level is high, if and only if more than ten users failed from this address. -/
structure ExactWindow (limit : Rat) (userId ipAddress : String) (is : List Input) (t : Time)
    (reply : Except DetectorError Reply) : Prop where
  event : (∃ event, reply = .ok (.event (some event))) ↔ limit ≤ failuresSince userId ipAddress is t
  level : ∀ event, reply = .ok (.event (some event)) →
    (event.level = .high ↔ 10 < (usersSince ipAddress is t).length)

/-- The attempts do not reach a limit above a hundred, attempts of others do not lift the count of
the text to the limit, and texts of others do not lift the count of users over ten. -/
structure Unaffected (limit : Rat) (userId ipAddress : String) (is : List Input) (t : Time) : Prop where
  small : limit ≤ failuresSince userId ipAddress is t → limit ≤ 100
  own : limit ≤ 100 → limit ≤ gluedSince (loginKey userId ipAddress) is t →
    limit ≤ failuresSince userId ipAddress is t
  users : limit ≤ 100 → limit ≤ gluedSince (loginKey userId ipAddress) is t →
    10 < (keysSince ipAddress is t).length → 10 < (usersSince ipAddress is t).length

theorem failuresSince_le_gluedSince (userId ipAddress : String) (is : List Input) (t : Time) :
    failuresSince userId ipAddress is t ≤ gluedSince (loginKey userId ipAddress) is t := by
  apply List.countP_mono_left
  intro a _ own
  simp only [Bool.and_eq_true, decide_eq_true_eq] at own ⊢
  obtain ⟨⟨user, ip⟩, since⟩ := own
  exact ⟨by rw [Attempt.key, user, ip], since⟩

theorem endsWithIp_loginKey (userId ipAddress : String) :
    endsWithIp ipAddress (loginKey userId ipAddress) = true := by
  have glued : (loginKey userId ipAddress).toList = userId.toList ++ (":" ++ ipAddress).toList := by
    rw [loginKey, String.append_assoc, String.toList_append]
  rw [endsWithIp, List.isSuffixOf_iff_suffix, glued]
  exact List.suffix_append _ _

theorem loginKey_injective (ipAddress : String) : Function.Injective fun userId => loginKey userId ipAddress := by
  intro a b same
  have lists := congrArg String.toList same
  simp only [loginKey, String.toList_append] at lists
  exact String.toList_inj.mp (List.append_cancel_right (List.append_cancel_right lists))

theorem users_le_keys (ipAddress : String) (is : List Input) (t : Time) :
    (usersSince ipAddress is t).length ≤ (keysSince ipAddress is t).length := by
  have distinct : ((usersSince ipAddress is t).map fun userId => loginKey userId ipAddress).Nodup :=
    (List.nodup_dedup _).map (loginKey_injective ipAddress)
  have contained : (usersSince ipAddress is t).map (fun userId => loginKey userId ipAddress) ⊆
      keysSince ipAddress is t := by
    intro key member
    simp only [usersSince, List.mem_map, List.mem_dedup, List.mem_filter, Bool.and_eq_true,
      decide_eq_true_eq] at member
    obtain ⟨_, ⟨a, ⟨member, ip, since⟩, rfl⟩, rfl⟩ := member
    rw [mem_keysSince]
    refine ⟨endsWithIp_loginKey _ _, a, member, ?_, since⟩
    rw [Attempt.key, ip]
  have le := (distinct.subperm contained).length_le
  rwa [List.length_map] at le

theorem reply_failedLogin (env : Env) (thresholds : Dict String Rat) {limit : Rat}
    (set : thresholds.get? "failed_login_threshold" = some limit) {before : List Input} {i : Input}
    (ascending : AscendingClock (before ++ [i])) {userId ipAddress : String}
    (call : i.call = .detectFailedLogin userId ipAddress) :
    let failures := min 100 (gluedSince (loginKey userId ipAddress) (before ++ [i]) i.now)
    (step env (run (step env) (new thresholds) before) i).2 =
      .ok (.event (if limit ≤ failures then some (failedLoginEvent i.clock userId ipAddress failures
        (keysSince ipAddress (before ++ [i]) i.now).length) else none)) := by
  have set' := set
  rw [← thresholds_run env thresholds before] at set'
  have performs : perform env i.clock i.call =
      Reply.event <$> detectFailedLogin i.clock userId ipAddress := by
    rw [call]
    rfl
  have kept := failuresOf_run env thresholds before
  have tracked : noted (run (step env) (new thresholds) before) i =
      (run (step env) (new thresholds) before).track (loginKey userId ipAddress) (i.clock 0) := by
    rw [noted, call]
    rfl
  have kept' := fun key => failuresOf_noted i key kept
  rw [tracked] at kept'
  have reply := reply_of_ending performs (run_detectFailedLogin i.clock userId ipAddress set')
  rw [kept', ipFailures_eq ascending kept', recent_lastOf _ ascending] at reply
  exact reply

theorem level_failedLoginEvent (clock : Clock) (userId ipAddress : String) (failures keys : Nat) :
    (failedLoginEvent clock userId ipAddress failures keys).level = .high ↔ 10 < keys := by
  rw [failedLoginEvent, newEvent]
  split
  · rename_i many
    exact iff_of_true rfl many
  · rename_i few
    exact iff_of_false nofun few

theorem exactWindow_of_event {limit : Rat} {userId ipAddress : String} {is : List Input} {t : Time}
    {reply : Except DetectorError Reply} {event : ThreatEvent} (small : limit ≤ 100)
    (reached : limit ≤ gluedSince (loginKey userId ipAddress) is t)
    (replies : reply = .ok (.event (some event)))
    (high : event.level = .high ↔ 10 < (keysSince ipAddress is t).length) :
    ExactWindow limit userId ipAddress is t reply ↔ Unaffected limit userId ipAddress is t := by
  constructor
  · intro holds
    refine ⟨fun _ => small, fun _ _ => holds.event.mp ⟨event, replies⟩, ?_⟩
    intro _ _ many
    exact (holds.level event replies).mp (high.mpr many)
  · intro clear
    refine ⟨iff_of_true ⟨event, replies⟩ (clear.own small reached), ?_⟩
    intro other returned
    rw [replies] at returned
    cases returned
    rw [high]
    exact ⟨clear.users small reached, (users_le_keys ipAddress is t).trans_lt'⟩

theorem exactWindow_of_nothing {limit : Rat} {userId ipAddress : String} {is : List Input} {t : Time}
    {reply : Except DetectorError Reply}
    (short : ¬(limit ≤ 100 ∧ limit ≤ gluedSince (loginKey userId ipAddress) is t))
    (replies : reply = .ok (.event none)) :
    ExactWindow limit userId ipAddress is t reply ↔ Unaffected limit userId ipAddress is t := by
  have none_returned : ¬∃ event, reply = .ok (.event (some event)) := by
    intro reported
    obtain ⟨event, returned⟩ := reported
    rw [replies] at returned
    cases returned
  constructor
  · intro holds
    have few : ¬limit ≤ failuresSince userId ipAddress is t := fun own => none_returned (holds.event.mpr own)
    exact ⟨fun own => absurd own few, fun small reached => absurd ⟨small, reached⟩ short,
      fun small reached => absurd ⟨small, reached⟩ short⟩
  · intro clear
    refine ⟨iff_of_false none_returned ?_, fun event returned => absurd ⟨event, returned⟩ none_returned⟩
    intro own
    have glued : (failuresSince userId ipAddress is t : Rat) ≤ gluedSince (loginKey userId ipAddress) is t :=
      Nat.cast_le.mpr (failuresSince_le_gluedSince userId ipAddress is t)
    exact short ⟨clear.small own, own.trans glued⟩

/-- A call at the end of a run. -/
theorem exactWindow_iff (env : Env) (thresholds : Dict String Rat) {limit : Rat}
    (set : thresholds.get? "failed_login_threshold" = some limit) {before : List Input} {i : Input}
    (ascending : AscendingClock (before ++ [i])) {userId ipAddress : String}
    (call : i.call = .detectFailedLogin userId ipAddress) :
    ExactWindow limit userId ipAddress (before ++ [i]) i.now
        (step env (run (step env) (new thresholds) before) i).2 ↔
      Unaffected limit userId ipAddress (before ++ [i]) i.now := by
  have replies := reply_failedLogin env thresholds set ascending call
  have reaches : limit ≤ (min 100 (gluedSince (loginKey userId ipAddress) (before ++ [i]) i.now) : Nat) ↔
      limit ≤ 100 ∧ limit ≤ gluedSince (loginKey userId ipAddress) (before ++ [i]) i.now := by
    rw [Nat.cast_min, le_min_iff]
    rfl
  by_cases finds : limit ≤ 100 ∧ limit ≤ gluedSince (loginKey userId ipAddress) (before ++ [i]) i.now
  · simp only [if_pos (reaches.mpr finds)] at replies
    exact exactWindow_of_event finds.1 finds.2 replies (level_failedLoginEvent _ _ _ _ _)
  · simp only [if_neg (mt reaches.mp finds)] at replies
    exact exactWindow_of_nothing finds replies

/-! ### Addresses without colons -/

def NoColon (ipAddress : String) : Prop := ':' ∉ ipAddress.toList

theorem toList_loginKey (userId ipAddress : String) :
    (loginKey userId ipAddress).toList = userId.toList ++ ':' :: ipAddress.toList := by
  rw [loginKey, String.toList_append, String.toList_append, List.append_assoc]
  rfl

theorem loginKey_eq {userId userId' ipAddress ipAddress' : String} (plain : NoColon ipAddress)
    (plain' : NoColon ipAddress') (same : loginKey userId ipAddress = loginKey userId' ipAddress') :
    userId = userId' ∧ ipAddress = ipAddress' := by
  have lists := congrArg String.toList same
  rw [toList_loginKey, toList_loginKey] at lists
  obtain ⟨users, ips⟩ := last_separator plain plain' lists
  exact ⟨String.toList_inj.mp users, String.toList_inj.mp ips⟩

theorem endsWithIp_eq {userId ipAddress ipAddress' : String} (plain : NoColon ipAddress)
    (plain' : NoColon ipAddress') (ends : endsWithIp ipAddress' (loginKey userId ipAddress) = true) :
    ipAddress = ipAddress' := by
  rw [endsWithIp, List.isSuffixOf_iff_suffix, toList_loginKey] at ends
  obtain ⟨front, lists⟩ := ends
  rw [String.toList_append] at lists
  obtain ⟨-, ips⟩ := last_separator plain' plain lists
  exact String.toList_inj.mp ips.symm

/-- Where no address has a colon, as with IPv4, only a limit above a hundred is missed. -/
theorem unaffected_of_plain {limit : Rat} {userId ipAddress : String} {is : List Input} (t : Time)
    (small : limit ≤ 100) (plain : NoColon ipAddress) (all_plain : ∀ a ∈ attempts is, NoColon a.ipAddress) :
    Unaffected limit userId ipAddress is t := by
  have own : gluedSince (loginKey userId ipAddress) is t ≤ failuresSince userId ipAddress is t := by
    apply List.countP_mono_left
    intro a member glued
    simp only [Bool.and_eq_true, decide_eq_true_eq] at glued ⊢
    exact ⟨loginKey_eq (all_plain a member) plain glued.1, glued.2⟩
  have users : (keysSince ipAddress is t).length ≤ (usersSince ipAddress is t).length := by
    have contained : keysSince ipAddress is t ⊆
        (usersSince ipAddress is t).map fun userId => loginKey userId ipAddress := by
      intro key counted
      obtain ⟨ends, a, member, rfl, since⟩ := mem_keysSince.mp counted
      have ip := endsWithIp_eq (all_plain a member) plain ends
      simp only [usersSince, List.mem_map, List.mem_dedup, List.mem_filter, Bool.and_eq_true,
        decide_eq_true_eq]
      refine ⟨a.userId, ⟨a, ⟨member, ip, since⟩, rfl⟩, ?_⟩
      rw [Attempt.key, ip]
    have le := ((List.nodup_dedup _).subperm contained).length_le
    rwa [List.length_map] at le
  refine ⟨fun _ => small, ?_, fun _ _ many => many.trans_le users⟩
  intro _ reached
  exact reached.trans (Nat.cast_le.mpr own)

/-! ### Runs -/

/-- In a run under a clock that does not go back every call of `detect_failed_login` detects what it
should, if and only if nothing else affects one of them. -/
theorem brute_force_exact_iff (env : Env) (thresholds : Dict String Rat) {limit : Rat}
    (set : thresholds.get? "failed_login_threshold" = some limit) {is : List Input}
    (ascending : AscendingClock is) :
    (∀ before i after userId ipAddress, is = before ++ i :: after →
        i.call = .detectFailedLogin userId ipAddress →
          ExactWindow limit userId ipAddress (before ++ [i]) i.now
            (step env (run (step env) (new thresholds) before) i).2) ↔
      ∀ before i after userId ipAddress, is = before ++ i :: after →
        i.call = .detectFailedLogin userId ipAddress →
          Unaffected limit userId ipAddress (before ++ [i]) i.now := by
  have each : ∀ before i after userId ipAddress, is = before ++ i :: after →
      i.call = .detectFailedLogin userId ipAddress →
        (ExactWindow limit userId ipAddress (before ++ [i]) i.now
            (step env (run (step env) (new thresholds) before) i).2 ↔
          Unaffected limit userId ipAddress (before ++ [i]) i.now) := by
    rintro before i after userId ipAddress rfl call
    have front : AscendingClock (before ++ [i]) := by
      rw [AscendingClock, List.append_cons, List.map_append] at ascending
      exact (List.pairwise_append.mp ascending).1
    exact exactWindow_iff env thresholds set front call
  constructor
  · intro holds before i after userId ipAddress split call
    exact (each before i after userId ipAddress split call).mp (holds _ _ _ _ _ split call)
  · intro clear before i after userId ipAddress split call
    exact (each before i after userId ipAddress split call).mpr (clear _ _ _ _ _ split call)

def failureAt (t : Time) (userId ipAddress : String) : Input := ⟨fun _ => t, .detectFailedLogin userId ipAddress⟩

def twoFailures : Dict String Rat := Dict.empty.set "failed_login_threshold" 2

def plainRun : List Input := [failureAt 0 "ann" "10.0.0.1", failureAt 1 "ann" "10.0.0.1"]

theorem plain_of_mem {i : Input} (member : i ∈ plainRun) {userId ipAddress : String}
    (call : i.call = .detectFailedLogin userId ipAddress) : NoColon ipAddress := by
  have plain : NoColon "10.0.0.1" := by
    unfold NoColon
    decide +kernel
  simp only [plainRun, List.mem_cons, List.not_mem_nil, or_false] at member
  rcases member with rfl | rfl
  · cases call
    exact plain
  · cases call
    exact plain

theorem plain_run_exact : AscendingClock plainRun ∧
    ∀ before i after userId ipAddress, plainRun = before ++ i :: after →
      i.call = .detectFailedLogin userId ipAddress →
        ExactWindow 2 userId ipAddress (before ++ [i]) i.now
          (step ⟨fun _ => none⟩ (run (step ⟨fun _ => none⟩) (new twoFailures) before) i).2 := by
  have ascending : AscendingClock plainRun := by
    unfold AscendingClock
    decide +kernel
  refine ⟨ascending,
    (brute_force_exact_iff ⟨fun _ => none⟩ twoFailures (Dict.get?_set_self _ _ _) ascending).mpr ?_⟩
  intro before i after userId ipAddress split call
  have inside : ∀ j ∈ before ++ [i], j ∈ plainRun := by
    intro j member
    rw [split, List.append_cons]
    exact List.mem_append_left after member
  refine unaffected_of_plain i.now (by decide +kernel) (plain_of_mem (inside i (by simp)) call) ?_
  intro a attempted
  obtain ⟨j, member, is_attempt⟩ := List.mem_filterMap.mp attempted
  unfold attempt at is_attempt
  split at is_attempt
  · rename_i call
    cases is_attempt
    exact plain_of_mem (inside j member) call
  · cases is_attempt

/-- The user `ann:2001` from `db8::1` has the text of `ann` from `2001:db8::1`. -/
theorem glued_attempts_reported : ¬∀ (env : Env) (thresholds : Dict String Rat) (limit : Rat), 0 < limit →
    thresholds.get? "failed_login_threshold" = some limit → ∀ is, AscendingClock is →
      ∀ before i after userId ipAddress, is = before ++ i :: after →
        i.call = .detectFailedLogin userId ipAddress →
          ExactWindow limit userId ipAddress (before ++ [i]) i.now
            (step env (run (step env) (new thresholds) before) i).2 := by
  intro holds
  have ascending : AscendingClock
      ([failureAt 0 "ann:2001" "db8::1"] ++ [failureAt 1 "ann" "2001:db8::1"]) := by
    unfold AscendingClock
    decide +kernel
  have window := holds ⟨fun _ => none⟩ twoFailures 2 (by decide +kernel) (Dict.get?_set_self _ _ _) _ ascending
    [failureAt 0 "ann:2001" "db8::1"] (failureAt 1 "ann" "2001:db8::1") [] "ann" "2001:db8::1" rfl rfl
  have clear := (exactWindow_iff _ twoFailures (Dict.get?_set_self _ _ _) ascending rfl).mp window
  have reached := clear.own (by decide +kernel) (by decide +kernel)
  revert reached
  decide +kernel

end BtApiSecurity.Threats.ThreatDetector
