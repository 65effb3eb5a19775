import BtApiSecurity.Access.Steps

/-!
# Locks

A user has one `locked_until` and one counter, which every lock, unlock, login and
session overwrites. A ledger keeps what the history says: every lock since the
last unlock, and the failures since the last success.
-/

namespace BtApiSecurity.Access
open Py Machine

/-- Failed logins since the last success, and the ends of the locks since the last unlock, the
latest lock first. -/
structure Ledger where
  failures : Nat
  locks : List Time

def Ledger.empty : Ledger := ⟨0, []⟩

namespace AccessControlManager

/-- A step that returned, as far as it is about `u`. -/
def record (u : String) (ledger : Ledger) (e : Event) : Ledger :=
  match e.output with
  | .error _ => ledger
  | .ok _ =>
    match e.input.call with
    | .lockUser userId duration =>
      if userId = u ∧ (e.pre.getUser u).isSome then
        { ledger with locks := (e.input.now + duration) :: ledger.locks }
      else ledger
    | .recordLoginAttempt userId false =>
      if userId = u ∧ (e.pre.getUser u).isSome then
        { failures := ledger.failures + 1
          locks := if 3 ≤ ledger.failures + 1 then (e.input.now + 900) :: ledger.locks
            else ledger.locks }
      else ledger
    | .recordLoginAttempt userId true | .createSession userId _ =>
      if userId = u then { ledger with failures := 0 } else ledger
    | .unlockUser userId => if userId = u then .empty else ledger
    | _ => ledger

def ledger (u : String) (history : List Event) : Ledger := history.foldl (record u) .empty

/-- The record of the user shows the count and the latest lock of the ledger. -/
def Records (u : String) (ledger : Ledger) (m : AccessControlManager) : Prop :=
  match m.getUser u with
  | none => ledger = .empty
  | some user =>
    user.failedLoginAttempts = ledger.failures ∧ user.lockedUntil = ledger.locks.head?

variable {env : Env} {m : AccessControlManager} {u userId : String} {L : Ledger} {f : User → User}

theorem records_found {user : User} (inv : Records u L m) (found : m.getUser u = some user) :
    user.failedLoginAttempts = L.failures ∧ user.lockedUntil = L.locks.head? := by
  unfold Records at inv
  rw [found] at inv
  exact inv

theorem records_congr {m' : AccessControlManager} (same : m'.getUser u = m.getUser u)
    (inv : Records u L m) : Records u L m' := by
  unfold Records at inv ⊢
  rw [same]
  exact inv

theorem records_other (other : userId ≠ u) (inv : Records u L m) :
    Records u L (m.withUser userId f) :=
  records_congr (by rw [withUser_getUser, if_neg other]) inv

theorem records_absent (absent : m.getUser userId = none) (inv : Records u L m) :
    Records u L (m.withUser userId f) := by
  rw [withUser, absent]
  exact inv

/-- The record and the ledger change alike. -/
theorem records_present {L' : Ledger} {user : User} (found : m.getUser u = some user)
    (inv : Records u L m)
    (changed : user.failedLoginAttempts = L.failures → user.lockedUntil = L.locks.head? →
      (f user).failedLoginAttempts = L'.failures ∧ (f user).lockedUntil = L'.locks.head?) :
    Records u L' (m.withUser u f) := by
  obtain ⟨failures, lock⟩ := records_found inv found
  unfold Records
  rw [withUser_getUser, if_pos rfl, found]
  exact changed failures lock

/-- A reset also clears the ledger of a user who does not exist. -/
theorem records_reset {L' : Ledger} (inv : Records u L m) (empty : L = .empty → L' = .empty)
    (changed : ∀ user : User, user.lockedUntil = L.locks.head? →
      (f user).failedLoginAttempts = L'.failures ∧ (f user).lockedUntil = L'.locks.head?) :
    Records u L' (m.withUser u f) := by
  cases found : m.getUser u with
  | none =>
    apply records_absent found
    unfold Records at inv ⊢
    rw [found] at inv ⊢
    exact empty inv
  | some user => exact records_present found inv fun _ lock => changed user lock

theorem records_kept (inv : Records u L m)
    (kept : ∀ user, (f user).failedLoginAttempts = user.failedLoginAttempts ∧
      (f user).lockedUntil = user.lockedUntil) : Records u L (m.withUser userId f) := by
  by_cases same : userId = u
  · subst same
    cases found : m.getUser userId with
    | none => exact records_absent found inv
    | some user =>
      apply records_present found inv
      intro failures lock
      exact ⟨(kept user).1.trans failures, (kept user).2.trans lock⟩
  · exact records_other same inv

/-- A call of the user resets the ledger, and a call of another user changes nothing. -/
theorem records_restored {L' : Ledger} (inv : Records u L m) (empty : L = .empty → L' = .empty)
    (changed : ∀ user : User, user.lockedUntil = L.locks.head? →
      (f user).failedLoginAttempts = L'.failures ∧ (f user).lockedUntil = L'.locks.head?) :
    Records u (if userId = u then L' else L) (m.withUser userId f) := by
  split
  · rename_i same
    subst same
    exact records_reset inv empty changed
  · rename_i other
    exact records_other other inv

/-- A call is noted in the ledger of a user who exists. -/
theorem records_noted {L' : Ledger} (inv : Records u L m)
    (changed : ∀ user : User, user.failedLoginAttempts = L.failures →
      user.lockedUntil = L.locks.head? →
      (f user).failedLoginAttempts = L'.failures ∧ (f user).lockedUntil = L'.locks.head?) :
    Records u (if userId = u ∧ (m.getUser u).isSome then L' else L) (m.withUser userId f) := by
  by_cases same : userId = u
  · subst same
    cases found : m.getUser userId with
    | none =>
      simp only [Option.isSome_none, Bool.false_eq_true, and_false, if_false]
      exact records_absent found inv
    | some user =>
      simp only [Option.isSome_some, and_self, if_true]
      exact records_present found inv (changed user)
  · simp only [same, false_and, if_false]
    exact records_other same inv

theorem records_step (i : Input) (inv : Records u L m) :
    Records u (record u L (entry (step env) m i)) (step env m i).1 := by
  have outcome := step_outcome env m i
  obtain ⟨now, call⟩ := i
  unfold entry
  generalize (step env m ⟨now, call⟩).1 = post at outcome ⊢
  generalize (step env m ⟨now, call⟩).2 = reply at outcome ⊢
  cases outcome with
  | raised => exact inv
  | answered _ _ reads =>
    cases call with
    | checkPermission => exact inv
    | requirePermission => exact inv
    | _ => cases reads
  | @userCreated userId _ _ _ user absent unlocked fresh =>
    by_cases same : userId = u
    · subst same
      unfold Records at inv ⊢
      rw [absent] at inv
      obtain rfl : L = .empty := inv
      rw [getUser, Dict.get?_set_self]
      exact ⟨fresh, unlocked⟩
    · exact records_congr (Dict.get?_set_of_ne _ _ same) inv
  | roleCreated => exact inv
  | roleAssigned => exact records_kept inv fun _ => ⟨rfl, rfl⟩
  | roleRevoked => exact records_kept inv fun _ => ⟨rfl, rfl⟩
  | activitySet => exact records_kept inv fun _ => ⟨rfl, rfl⟩
  | permissionAdded => exact records_congr withRole_getUser inv
  | permissionRemoved => exact records_congr withRole_getUser inv
  | @sessionCreated userId _ _ context =>
    have inv : Records u L (m.withSession (env.uuid m.drawn) context) := inv
    refine records_restored inv (fun empty => ?_) fun user lock => ⟨rfl, lock⟩
    rw [empty]
    rfl
  | sessionLookedUp => exact inv
  | sessionRevoked => exact inv
  | locked => exact records_noted inv fun user failures _ => ⟨failures, rfl⟩
  | unlocked => exact records_restored inv (fun _ => rfl) fun user _ => ⟨rfl, rfl⟩
  | loginSucceeded =>
    refine records_restored inv (fun empty => ?_) fun user lock => ⟨rfl, lock⟩
    rw [empty]
    rfl
  | loginFailed =>
    refine records_noted inv fun user failures lock => ?_
    simp only [User.failLogin, failures, lock, true_and]
    split <;> rfl

/-! ### Locks that are replaced -/

/-- The end of the lock that a call imposes on `u`. -/
def newLock (u : String) (user : User) (i : Input) : Option Time :=
  match i.call with
  | .lockUser userId duration => if userId = u then some (i.now + duration) else none
  | .recordLoginAttempt userId false =>
    if userId = u ∧ 3 ≤ user.failedLoginAttempts + 1 then some (i.now + 900) else none
  | _ => none

/-- A lock that the step imposes on `u` does not end before the one that is in force. -/
def KeepsLock (u : String) (e : Event) : Prop :=
  ∀ user ∈ e.pre.getUser u, ∀ current ∈ user.lockedUntil, e.input.now < current →
    ∀ expiry ∈ newLock u user e.input, current ≤ expiry

instance (u : String) (e : Event) : Decidable (KeepsLock u e) :=
  inferInstanceAs (Decidable (∀ user ∈ e.pre.getUser u, ∀ current ∈ user.lockedUntil,
    e.input.now < current → ∀ expiry ∈ newLock u user e.input, current ≤ expiry))

theorem newLock_returns {user : User} {i : Input} {expiry : Time}
    (imposed : newLock u user i = some expiry) : (step env m i).2 = .ok .done := by
  obtain ⟨now, call⟩ := i
  cases call with
  | lockUser => rfl
  | recordLoginAttempt userId success =>
    cases success with
    | true => cases imposed
    | false => simp only [step, perform, Method.run_map, run_recordLoginAttempt_failed]
  | _ => cases imposed

theorem record_imposed {e : Event} {user : User} {expiry : Time} {reply : Reply}
    (found : e.pre.getUser u = some user) (counted : user.failedLoginAttempts = L.failures)
    (returned : e.output = .ok reply) (imposed : newLock u user e.input = some expiry) :
    (record u L e).locks = expiry :: L.locks := by
  obtain ⟨pre, ⟨now, call⟩, output, post⟩ := e
  subst returned
  cases call with
  | lockUser userId duration =>
    simp only [newLock, Option.ite_none_right_eq_some, Option.some.injEq] at imposed
    obtain ⟨rfl, rfl⟩ := imposed
    simp [record, found]
  | recordLoginAttempt userId success =>
    cases success with
    | true => cases imposed
    | false =>
      simp only [newLock, Option.ite_none_right_eq_some, Option.some.injEq] at imposed
      obtain ⟨⟨rfl, third⟩, rfl⟩ := imposed
      rw [counted] at third
      simp [record, found, third]
  | _ => cases imposed

/-- A step leaves the locks, lifts all of them, or imposes one. -/
theorem record_locks (e : Event)
    (counted : ∀ user, e.pre.getUser u = some user → user.failedLoginAttempts = L.failures) :
    (record u L e).locks = L.locks ∨ (record u L e).locks = [] ∨
    ∃ user expiry, e.pre.getUser u = some user ∧ newLock u user e.input = some expiry ∧
      (record u L e).locks = expiry :: L.locks := by
  obtain ⟨pre, ⟨now, call⟩, output, post⟩ := e
  cases output with
  | error => exact .inl rfl
  | ok reply =>
    cases call with
    | lockUser userId duration =>
      simp only [record]
      split
      · rename_i about
        obtain ⟨rfl, present⟩ := about
        obtain ⟨user, found⟩ := Option.isSome_iff_exists.mp present
        exact .inr (.inr ⟨user, now + duration, found, by simp [newLock], rfl⟩)
      · exact .inl rfl
    | recordLoginAttempt userId success =>
      cases success with
      | true =>
        simp only [record]
        split <;> exact .inl rfl
      | false =>
        simp only [record]
        split
        · rename_i about
          obtain ⟨rfl, present⟩ := about
          obtain ⟨user, found⟩ := Option.isSome_iff_exists.mp present
          by_cases third : 3 ≤ L.failures + 1
          · refine .inr (.inr ⟨user, now + 900, found, ?_, ?_⟩)
            · simp [newLock, counted user found, third]
            · simp [third]
          · simp [third]
        · exact .inl rfl
    | createSession userId attrs =>
      simp only [record]
      split <;> exact .inl rfl
    | unlockUser userId =>
      simp only [record]
      split
      · exact .inr (.inl rfl)
      · exact .inl rfl
    | _ => exact .inl rfl

/-- Every lock of the ledger has run out, or ends no later than the latest. -/
def Led (history : List Event) (locks : List Time) : Prop :=
  ∀ expiry ∈ locks, (∃ latest ∈ locks.head?, expiry ≤ latest) ∨
    ∃ e ∈ history, expiry ≤ e.input.now

theorem led_record {history : List Event} {e : Event} (inv : Records u L e.pre)
    (keeps : KeepsLock u e) (led : Led history L.locks) :
    Led (history ++ [e]) (record u L e).locks := by
  have earlier : ∀ expiry, (∃ d ∈ history, expiry ≤ d.input.now) →
      ∃ d ∈ history ++ [e], expiry ≤ d.input.now := by
    rintro expiry ⟨d, member, past⟩
    exact ⟨d, List.mem_append_left _ member, past⟩
  rcases record_locks e fun user found => (records_found inv found).1 with same | none |
    ⟨user, expiry, found, imposed, locks⟩
  · rw [same]
    intro expiry member
    exact (led expiry member).imp_right (earlier expiry)
  · rw [none]
    intro expiry member
    cases member
  · rw [locks]
    intro other member
    rcases List.mem_cons.mp member with rfl | old
    · exact .inl ⟨other, rfl, le_rfl⟩
    · rcases led other old with ⟨latest, head, le⟩ | past
      · -- the lock in force may only be replaced by a longer one
        rw [← (records_found inv found).2] at head
        by_cases running : e.input.now < latest
        · exact .inl ⟨expiry, rfl, le.trans (keeps user found latest head running expiry imposed)⟩
        · exact .inr ⟨e, by simp, le.trans (not_lt.mp running)⟩
      · exact .inr (earlier other past)

/-- The ledger is recorded, and led by its latest lock as long as every step keeps locks. -/
structure Kept (u : String) (history : List Event) (m : AccessControlManager) : Prop where
  records : Records u (ledger u history) m
  led : (∀ e ∈ history, KeepsLock u e) → Led history (ledger u history).locks

theorem kept_run (env : Env) (start : Time) (u : String) (is : List Input) :
    Kept u (trace (step env) (new env start) is) (run (step env) (new env start) is) := by
  apply history_invariant
  · exact ⟨rfl, fun _ _ member => nomatch member⟩
  · intro history m i inv
    have ledger_eq : ledger u (history ++ [entry (step env) m i]) =
        record u (ledger u history) (entry (step env) m i) := by
      rw [ledger, List.foldl_append]
      rfl
    refine ⟨?_, ?_⟩
    · rw [ledger_eq]
      exact records_step i inv.records
    · intro keeps
      rw [ledger_eq]
      apply led_record inv.records (keeps _ (by simp))
      exact inv.led fun e member => keeps e (List.mem_append_left _ member)

/-! ### Locked users -/

def Locked (m : AccessControlManager) (u : String) (t : Time) : Prop :=
  ∃ user, m.getUser u = some user ∧ user.isLocked t = true

instance (m : AccessControlManager) (u : String) (t : Time) : Decidable (Locked m u t) :=
  decidable_of_iff ((m.getUser u).any (·.isLocked t) = true) (Option.any_eq_true _ _)

/-- No request of the user is granted, and no session is created. -/
def ShutOut (env : Env) (m : AccessControlManager) (u : String) (t : Time) : Prop :=
  (∀ resource action level context,
    m.checkPermission env t u resource action level context = .ok false) ∧
  ∀ attrs, ∃ error, (step env m ⟨t, .createSession u attrs⟩).2 = .error error

theorem shutOut_of_locked {t : Time} (locked : Locked m u t) : ShutOut env m u t := by
  obtain ⟨user, found, locked⟩ := locked
  refine ⟨?_, ?_⟩
  · intro resource action level context
    simp [checkPermission, found, locked]
  · intro attrs
    have outcome := step_outcome env m ⟨t, .createSession u attrs⟩
    generalize (step env m ⟨t, .createSession u attrs⟩).1 = post at outcome
    generalize (step env m ⟨t, .createSession u attrs⟩).2 = reply at outcome ⊢
    cases outcome with
    | raised _ error => exact ⟨error, rfl⟩
    | answered _ _ reads => cases reads
    | sessionCreated found' _ unlocked =>
      obtain rfl := Option.some.inj (found.symm.trans found')
      exact absurd (locked.symm.trans unlocked) (by decide)

theorem locked_iff_head (inv : Records u L m) {t : Time} :
    Locked m u t ↔ ∃ latest ∈ L.locks.head?, t < latest := by
  unfold Locked
  cases found : m.getUser u with
  | none =>
    unfold Records at inv
    rw [found] at inv
    obtain rfl : L = .empty := inv
    simp [Ledger.empty]
  | some user =>
    rw [← (records_found inv found).2]
    simp only [Option.some.injEq, exists_eq_left', User.isLocked]
    cases user.lockedUntil with
    | none => simp
    | some latest => simp

/-- At `t` the user is locked, and so shut out, exactly when a lock imposed since the last unlock
has not run out. -/
def LocksHold (env : Env) (u : String) (history : List Event) (m : AccessControlManager)
    (t : Time) : Prop :=
  (Locked m u t ↔ ∃ expiry ∈ (ledger u history).locks, t < expiry) ∧
    (Locked m u t → ShutOut env m u t)

theorem locksHold_of_led {history : List Event} {t : Time} (inv : Records u (ledger u history) m)
    (led : Led history (ledger u history).locks) (latest : ∀ e ∈ history, e.input.now ≤ t) :
    LocksHold env u history m t := by
  refine ⟨?_, shutOut_of_locked⟩
  rw [locked_iff_head inv]
  constructor
  · rintro ⟨expiry, head, running⟩
    exact ⟨expiry, List.mem_of_head? head, running⟩
  · rintro ⟨expiry, member, running⟩
    rcases led expiry member with ⟨last, head, le⟩ | ⟨e, past, le⟩
    · exact ⟨last, head, running.trans_le le⟩
    · exact absurd (running.trans_le (le.trans (latest e past))) (lt_irrefl t)

/-- A step that replaces a lock in force by a shorter one breaks the rule when the shorter one has
run out. -/
theorem keepsLock_of_locksHold {before : List Input} {i : Input} {start : Time}
    (ordered : ∀ j ∈ before, j.now ≤ i.now)
    (hold : ∀ t, (∀ j ∈ before ++ [i], j.now ≤ t) →
      LocksHold env u (trace (step env) (new env start) (before ++ [i]))
        (run (step env) (new env start) (before ++ [i])) t) :
    KeepsLock u (entry (step env) (run (step env) (new env start) before) i) := by
  intro user found current lock running expiry imposed
  have records' := (kept_run env start u (before ++ [i])).records
  have counted := records_found (kept_run env start u before).records found
  have current_mem : current ∈ (ledger u (trace (step env) (new env start) before)).locks :=
    List.mem_of_head? (counted.2 ▸ lock)
  have locks : (ledger u (trace (step env) (new env start) (before ++ [i]))).locks =
      expiry :: (ledger u (trace (step env) (new env start) before)).locks := by
    rw [trace_append, ledger, List.foldl_append]
    exact record_imposed found counted.1 (newLock_returns imposed) imposed
  by_contra shorter
  rw [not_le] at shorter
  have latest : ∀ j ∈ before ++ [i], j.now ≤ max i.now expiry := by
    intro j member
    rcases List.mem_append.mp member with early | last
    · exact (ordered j early).trans (le_max_left _ _)
    · obtain rfl := List.mem_singleton.mp last
      exact le_max_left _ _
  have listed : ∃ expiry' ∈ (ledger u (trace (step env) (new env start) (before ++ [i]))).locks,
      max i.now expiry < expiry' := by
    refine ⟨current, ?_, max_lt running shorter⟩
    rw [locks]
    exact List.mem_cons_of_mem _ current_mem
  obtain ⟨last, head, later⟩ :=
    (locked_iff_head records').mp ((hold _ latest).1.mpr listed)
  rw [locks] at head
  obtain rfl := Option.some.inj head
  exact absurd later (not_lt.mpr (le_max_right _ _))

/-- In a run with a non-decreasing clock, a user is locked in every state exactly as the history
says, if and only if no step replaces a lock in force by a shorter one. -/
theorem locks_hold_iff (env : Env) (start : Time) (u : String) (is : List Input)
    (ordered : is.Pairwise fun i j => i.now ≤ j.now) :
    (∀ before after, is = before ++ after → ∀ t, (∀ i ∈ before, i.now ≤ t) →
      LocksHold env u (trace (step env) (new env start) before)
        (run (step env) (new env start) before) t) ↔
      ∀ e ∈ trace (step env) (new env start) is, KeepsLock u e := by
  constructor
  · intro hold e member
    obtain ⟨l, l', split⟩ := List.append_of_mem member
    obtain ⟨before, after, rfl, -, is_entry, -⟩ := trace_split split
    rw [is_entry]
    apply keepsLock_of_locksHold
    · intro j early
      exact (List.pairwise_append.mp ordered).2.2 j early _ (by simp)
    · exact hold (before ++ [e.input]) after (by simp)
  · rintro keeps before after rfl t latest
    have inv := kept_run env start u before
    have kept : ∀ e ∈ trace (step env) (new env start) before, KeepsLock u e := by
      intro e member
      apply keeps
      rw [trace_append]
      exact List.mem_append_left _ member
    apply locksHold_of_led inv.records (inv.led kept)
    intro e member
    exact latest _ (input_mem_of_mem member)

/-- Three failures, and then a longer lock. -/
def lengthenedRun : List Input :=
  [⟨0, .createUser "ann" "Ann" "ann@example.org" .empty⟩,
    ⟨1, .recordLoginAttempt "ann" false⟩,
    ⟨2, .recordLoginAttempt "ann" false⟩,
    ⟨3, .recordLoginAttempt "ann" false⟩,
    ⟨4, .lockUser "ann" 86400⟩]

theorem lengthenedRun_holds :
    LocksHold sampleEnv "ann" (trace (step sampleEnv) (new sampleEnv 0) lengthenedRun)
      (run (step sampleEnv) (new sampleEnv 0) lengthenedRun) 1000 :=
  (locks_hold_iff sampleEnv 0 "ann" lengthenedRun (by decide +kernel)).mpr (by decide +kernel)
    lengthenedRun [] rfl 1000 (by decide +kernel)

/-- The same locks the other way round: three failures cut a long lock short. -/
def shortenedRun : List Input :=
  [⟨0, .createUser "ann" "Ann" "ann@example.org" .empty⟩,
    ⟨1, .lockUser "ann" 86400⟩,
    ⟨2, .recordLoginAttempt "ann" false⟩,
    ⟨3, .recordLoginAttempt "ann" false⟩,
    ⟨4, .recordLoginAttempt "ann" false⟩]

theorem shortenedRun_unlocks :
    (∀ i ∈ shortenedRun, i.now ≤ 1000) ∧ shortenedRun.Pairwise (fun i j => i.now ≤ j.now) ∧
    ¬LocksHold sampleEnv "ann" (trace (step sampleEnv) (new sampleEnv 0) shortenedRun)
      (run (step sampleEnv) (new sampleEnv 0) shortenedRun) 1000 := by
  refine ⟨by decide +kernel, by decide +kernel, ?_⟩
  rintro ⟨locked, -⟩
  have unlocked : ¬Locked (run (step sampleEnv) (new sampleEnv 0) shortenedRun) "ann" 1000 := by
    decide +kernel
  have listed : ∃ expiry ∈ (ledger "ann"
      (trace (step sampleEnv) (new sampleEnv 0) shortenedRun)).locks, 1000 < expiry := by
    decide +kernel
  exact unlocked (locked.mpr listed)

end AccessControlManager

end BtApiSecurity.Access
