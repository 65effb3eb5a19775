import BtApiSecurity.Access.Steps

/-!
# Sessions

The stored contexts are the sessions that the history opened and has not revoked.
Whether the user of a session is in standing is asked when it is created and
never again.
-/

namespace BtApiSecurity.Access.AccessControlManager
open Py Machine

/-- The user of session `sessionId` after a step, `owner` having been its user before. -/
def sessionAfter (sessionId : String) (owner : Option String) (e : Event) : Option String :=
  match e.input.call, e.output with
  | .createSession userId _, .ok (.session created) => if created = sessionId then some userId else owner
  | .revokeSession revoked, .ok _ => if revoked = sessionId then none else owner
  | _, _ => owner

/-- The user for whom the history has opened the session, and not revoked it since. -/
def openFor (history : List Event) (sessionId : String) : Option String :=
  history.foldl (sessionAfter sessionId) none

def Standing (m : AccessControlManager) (userId : String) (t : Time) : Prop :=
  ∃ user, m.getUser userId = some user ∧ user.isActive = true ∧ user.isLocked t = false

theorem standing_iff {m : AccessControlManager} {userId : String} {t : Time} :
    (m.getUser userId).any (fun user => user.isActive && !user.isLocked t) = true ↔
      Standing m userId t := by
  simp [Standing, Option.any_eq_true]

instance (m : AccessControlManager) (userId : String) (t : Time) : Decidable (Standing m userId t) :=
  decidable_of_iff _ standing_iff

/-- The step is no `validate_session` that returns a context, or the session is open and its user
is active and not locked at that moment. -/
def ReturnsStanding (history : List Event) (e : Event) : Prop :=
  ∀ sessionId context, e.input.call = .validateSession sessionId →
    e.output = .ok (.context (some context)) →
    openFor history sessionId = some context.userId ∧ Standing e.pre context.userId e.input.now

/-- The step is no `validate_session` of an open session, or the user of the session is active and
not locked at that moment. -/
def AsksStanding (history : List Event) (e : Event) : Prop :=
  ∀ sessionId userId, e.input.call = .validateSession sessionId →
    openFor history sessionId = some userId → Standing e.pre userId e.input.now

/-! ### Stored contexts are open sessions -/

def SessionsOpen (history : List Event) (m : AccessControlManager) : Prop :=
  ∀ sessionId, (m.sessionContexts.get? sessionId).map (·.userId) = openFor history sessionId

variable {env : Env} {m : AccessControlManager}

theorem sessionContexts_step (i : Input) (sessionId : String) :
    ((step env m i).1.sessionContexts.get? sessionId).map (·.userId) =
      sessionAfter sessionId ((m.sessionContexts.get? sessionId).map (·.userId))
        (entry (step env) m i) := by
  have outcome := step_outcome env m i
  obtain ⟨now, call⟩ := i
  unfold entry
  generalize (step env m ⟨now, call⟩).1 = post at outcome ⊢
  generalize (step env m ⟨now, call⟩).2 = reply at outcome ⊢
  cases outcome with
  | raised => cases call <;> rfl
  | answered _ _ reads =>
    cases call with
    | checkPermission => rfl
    | requirePermission => rfl
    | _ => cases reads
  | sessionCreated _ _ _ of_user =>
    simp only [withUser_sessionContexts, withSession, sessionAfter, Dict.get?_set]
    split
    · exact congrArg some of_user
    · rfl
  | sessionRevoked =>
    simp only [sessionAfter, Dict.get?_erase]
    split <;> rfl
  | roleAssigned | roleRevoked | activitySet | permissionAdded | permissionRemoved | locked | unlocked
  | loginSucceeded | loginFailed => simp [sessionAfter]
  | _ => rfl

theorem sessionsOpen_step (history : List Event) (m : AccessControlManager) (i : Input)
    (inv : SessionsOpen history m) :
    SessionsOpen (history ++ [entry (step env) m i]) (step env m i).1 := by
  intro sessionId
  rw [sessionContexts_step, inv sessionId, openFor, openFor, List.foldl_append]
  rfl

theorem sessionsOpen_new (start : Time) : SessionsOpen [] (new env start) := fun _ => rfl

/-! ### Validation -/

theorem returnsStanding_iff {history : List Event} {i : Input} (inv : SessionsOpen history m) :
    ReturnsStanding history (entry (step env) m i) ↔ AsksStanding history (entry (step env) m i) := by
  obtain ⟨now, call⟩ := i
  constructor
  · rintro returns sessionId userId rfl is_open
    rw [← inv sessionId, Option.map_eq_some_iff] at is_open
    obtain ⟨context, stored, rfl⟩ := is_open
    have output : (step env m ⟨now, .validateSession sessionId⟩).2 = .ok (.context (some context)) := by
      rw [← stored]
      rfl
    exact (returns sessionId context rfl output).2
  · rintro asks sessionId context rfl output
    have stored : m.sessionContexts.get? sessionId = some context := by
      have same : Except.ok (.context (m.validateSession sessionId)) =
        Except.ok (ε := AccessError) (Reply.context (some context)) := output
      simpa [validateSession] using same
    have is_open : openFor history sessionId = some context.userId := by
      rw [← inv sessionId, stored, Option.map_some]
    exact ⟨is_open, asks sessionId context.userId rfl is_open⟩

/-- In every run, each `validate_session` that returns a context does so for an open session of a
user in standing exactly when each that is given an open session finds its user in standing. -/
theorem validated_sessions_standing_iff (env : Env) (start : Time) (is : List Input) :
    (∀ l e l', trace (step env) (new env start) is = l ++ e :: l' → ReturnsStanding l e) ↔
      ∀ l e l', trace (step env) (new env start) is = l ++ e :: l' → AsksStanding l e := by
  apply forall₄_congr
  intro l e l' split
  have inv : SessionsOpen l e.pre :=
    history_split SessionsOpen (sessionsOpen_new start) sessionsOpen_step split
  have member : e ∈ trace (step env) (new env start) is := by
    rw [split]
    exact List.mem_append_right l List.mem_cons_self
  rw [entry_of_mem member]
  exact returnsStanding_iff inv

/-- Ann is locked while her session is open. -/
def lockedSessionRun : List Input :=
  [⟨0, .createUser "ann" "Ann" "ann@example.org" .empty⟩,
    ⟨1, .createSession "ann" {}⟩,
    ⟨2, .lockUser "ann" 900⟩]

theorem lockedSession_returned :
    ¬ReturnsStanding (trace (step sampleEnv) (new sampleEnv 0) lockedSessionRun)
      (entry (step sampleEnv) (run (step sampleEnv) (new sampleEnv 0) lockedSessionRun)
        ⟨3, .validateSession "uuuu"⟩) := by
  intro returns
  have stored : ((run (step sampleEnv) (new sampleEnv 0) lockedSessionRun).sessionContexts.get?
      "uuuu").map (·.userId) = some "ann" := by decide +kernel
  obtain ⟨context, found, user⟩ := Option.map_eq_some_iff.mp stored
  have output : (step sampleEnv (run (step sampleEnv) (new sampleEnv 0) lockedSessionRun)
      ⟨3, .validateSession "uuuu"⟩).2 = .ok (.context (some context)) := by
    rw [← found]
    rfl
  have standing := (returns "uuuu" context rfl output).2
  rw [user] at standing
  have locked : ¬Standing (run (step sampleEnv) (new sampleEnv 0) lockedSessionRun) "ann" 3 := by
    decide +kernel
  exact locked standing

end BtApiSecurity.Access.AccessControlManager
