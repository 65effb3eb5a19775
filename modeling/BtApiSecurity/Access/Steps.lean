import BtApiSecurity.Access.Control
import BtApiSecurity.Machine

/-!
# The access control manager as a machine

Every call either raises and leaves the manager as it was, or does one of the
things listed in `Outcome`. Someone who holds a user's record sets its
`is_active`; someone who holds a role's record changes its permissions.
-/

namespace BtApiSecurity.Access
open Py

namespace AccessControlManager

inductive Call where
  | createUser (userId username email : String) (attributes : Dict String Value)
  | createRole (name description : String) (attributes : Dict String Value)
  | assignRole (userId roleName : String)
  | revokeRole (userId roleName : String)
  | setActive (userId : String) (active : Bool)
  | addPermission (roleName : String) (permission : Permission)
  | removePermission (roleName : String) (permission : Permission)
  | checkPermission (userId : String) (resource : Resource) (action : String)
      (level : PermissionLevel) (context : Option AccessContext)
  | requirePermission (userId : String) (resource : Resource) (action : String)
      (level : PermissionLevel) (context : Option AccessContext)
  | createSession (userId : String) (attrs : SessionAttrs)
  | validateSession (sessionId : String)
  | revokeSession (sessionId : String)
  | lockUser (userId : String) (duration : Time)
  | unlockUser (userId : String)
  | recordLoginAttempt (userId : String) (success : Bool)

inductive Reply where
  | user (u : User)
  | role (r : Role)
  | done
  | granted (answer : Bool)
  | session (sessionId : String)
  | context (found : Option SessionContext)

structure Input where
  now : Time
  call : Call

variable (env : Env)

def perform (now : Time) : Call → M Reply
  | .createUser userId username email attributes =>
    Reply.user <$> createUser now userId username email attributes
  | .createRole name description attributes =>
    Reply.role <$> createRole env now name description attributes
  | .assignRole userId roleName => (fun _ => Reply.done) <$> assignRole userId roleName
  | .revokeRole userId roleName => (fun _ => Reply.done) <$> revokeRole userId roleName
  | .setActive userId active =>
    (fun _ => Reply.done) <$> modifyUser userId fun user => { user with isActive := active }
  | .addPermission roleName permission =>
    (fun _ => Reply.done) <$> modifyRole roleName (·.addPermission permission)
  | .removePermission roleName permission =>
    (fun _ => Reply.done) <$> modifyRole roleName (·.removePermission permission)
  | .checkPermission userId resource action level context => do
    let m ← .read
    Reply.granted <$> .check (m.checkPermission env now userId resource action level context)
  | .requirePermission userId resource action level context => do
    let m ← .read
    (fun _ => Reply.done) <$>
      .check (m.requirePermission env now userId resource action level context)
  | .createSession userId attrs => Reply.session <$> createSession env now userId attrs
  | .validateSession sessionId => do
    let m ← .read
    return .context (m.validateSession sessionId)
  | .revokeSession sessionId => (fun _ => Reply.done) <$> revokeSession sessionId
  | .lockUser userId duration => (fun _ => Reply.done) <$> lockUser now userId duration
  | .unlockUser userId => (fun _ => Reply.done) <$> unlockUser userId
  | .recordLoginAttempt userId success =>
    (fun _ => Reply.done) <$> recordLoginAttempt now userId success

def step (m : AccessControlManager) (i : Input) :
    AccessControlManager × Except AccessError Reply :=
  (((perform env i.now i.call).run m).2, ((perform env i.now i.call).run m).1)

abbrev Event := Machine.Entry AccessControlManager Input (Except AccessError Reply)

/-! ### Changes of one record -/

def withUser (m : AccessControlManager) (userId : String) (f : User → User) :
    AccessControlManager :=
  match m.getUser userId with
  | none => m
  | some user => { m with users := m.users.set userId (f user) }

def withRole (m : AccessControlManager) (name : String) (f : Role → Role) : AccessControlManager :=
  match m.getRole name with
  | none => m
  | some role => { m with roles := m.roles.set name (f role) }

variable {env} {m : AccessControlManager} {now : Time} {u userId : String} {f g : User → User}

theorem run_modifyUser : (modifyUser userId f).run m = (.ok ⟨⟩, m.withUser userId f) := rfl

@[simp] theorem withUser_sessionContexts :
    (m.withUser userId f).sessionContexts = m.sessionContexts := by
  unfold withUser
  split <;> rfl

@[simp] theorem withRole_sessionContexts {name : String} {f : Role → Role} :
    (m.withRole name f).sessionContexts = m.sessionContexts := by
  unfold withRole
  split <;> rfl

@[simp] theorem withRole_getUser {name : String} {f : Role → Role} :
    (m.withRole name f).getUser u = m.getUser u := by
  unfold withRole
  split <;> rfl

theorem withUser_getUser :
    (m.withUser userId f).getUser u = if userId = u then (m.getUser u).map f else m.getUser u := by
  unfold withUser
  by_cases same : userId = u
  · subst same
    cases found : m.getUser userId with
    | none => simpa using found
    | some user => simp [getUser]
  · simp only [if_neg same]
    cases m.getUser userId with
    | none => rfl
    | some user => exact Dict.get?_set_of_ne _ _ same

theorem withUser_getRole {name : String} : (m.withUser userId f).getRole name = m.getRole name := by
  unfold withUser
  split <;> rfl

theorem withRole_getRole {name other : String} {g : Role → Role} :
    (m.withRole name g).getRole other =
      if name = other then (m.getRole other).map g else m.getRole other := by
  unfold withRole
  by_cases same : name = other
  · subst same
    cases found : m.getRole name with
    | none => simpa using found
    | some role => simp [getRole]
  · simp only [if_neg same]
    cases m.getRole name with
    | none => rfl
    | some role => exact Dict.get?_set_of_ne _ _ same

theorem withUser_withUser : (m.withUser userId f).withUser userId g =
    m.withUser userId fun user => g (f user) := by
  cases found : m.getUser userId with
  | none =>
    have kept : ∀ h, m.withUser userId h = m := by
      intro h
      rw [withUser, found]
    rw [kept, kept, kept]
  | some user =>
    have changed : ∀ h, m.withUser userId h = { m with users := m.users.set userId (h user) } := by
      intro h
      rw [withUser, found]
    rw [changed, changed, withUser]
    simp [getUser]

end AccessControlManager

/-- A failed login: the third in a row and every further one lock the account. -/
def User.failLogin (now : Time) (user : User) : User :=
  { user with
    failedLoginAttempts := user.failedLoginAttempts + 1
    lockedUntil := if 3 ≤ user.failedLoginAttempts + 1 then some (now + 900) else user.lockedUntil }

namespace AccessControlManager

variable (env : Env) (m : AccessControlManager) (now : Time)

def Call.reads : Call → Bool
  | .checkPermission .. | .requirePermission .. => true
  | _ => false

def withSession (sessionId : String) (context : SessionContext) : AccessControlManager :=
  { m with sessionContexts := m.sessionContexts.set sessionId context, drawn := m.drawn + 1 }

/-- What a call may do: the manager after it, and what it returned or raised. -/
inductive Outcome : Call → AccessControlManager → Except AccessError Reply → Prop
  | raised (call : Call) (error : AccessError) : Outcome call m (.error error)
  | answered (call : Call) (reply : Reply) (reads : call.reads = true) : Outcome call m (.ok reply)
  | userCreated {userId username email : String} {attributes : Dict String Value} {user : User}
      (absent : m.getUser userId = none) (unlocked : user.lockedUntil = none)
      (fresh : user.failedLoginAttempts = 0) :
      Outcome (.createUser userId username email attributes)
        { m with users := m.users.set userId user } (.ok (.user user))
  | roleCreated {name description : String} {attributes : Dict String Value} {role : Role} :
      Outcome (.createRole name description attributes)
        { m with roles := m.roles.set name role, drawn := m.drawn + 1 } (.ok (.role role))
  | roleAssigned {userId roleName : String} :
      Outcome (.assignRole userId roleName)
        (m.withUser userId fun user => { user with roles := user.roles.add roleName }) (.ok .done)
  | roleRevoked {userId roleName : String} :
      Outcome (.revokeRole userId roleName)
        (m.withUser userId fun user => { user with roles := user.roles.discard roleName }) (.ok .done)
  | activitySet {userId : String} {active : Bool} :
      Outcome (.setActive userId active)
        (m.withUser userId fun user => { user with isActive := active }) (.ok .done)
  | permissionAdded {roleName : String} {permission : Permission} :
      Outcome (.addPermission roleName permission)
        (m.withRole roleName (·.addPermission permission)) (.ok .done)
  | permissionRemoved {roleName : String} {permission : Permission} :
      Outcome (.removePermission roleName permission)
        (m.withRole roleName (·.removePermission permission)) (.ok .done)
  | sessionCreated {userId : String} {attrs : SessionAttrs} {user : User} {context : SessionContext}
      (found : m.getUser userId = some user) (active : user.isActive = true)
      (unlocked : user.isLocked now = false) (of_user : context.userId = userId) :
      Outcome (.createSession userId attrs)
        ((m.withSession (env.uuid m.drawn) context).withUser userId fun user =>
          { user with lastLogin := some now, failedLoginAttempts := 0 })
        (.ok (.session (env.uuid m.drawn)))
  | sessionLookedUp {sessionId : String} :
      Outcome (.validateSession sessionId) m (.ok (.context (m.validateSession sessionId)))
  | sessionRevoked {sessionId : String} :
      Outcome (.revokeSession sessionId)
        { m with sessionContexts := m.sessionContexts.erase sessionId } (.ok .done)
  | locked {userId : String} {duration : Time} :
      Outcome (.lockUser userId duration)
        (m.withUser userId fun user => { user with lockedUntil := some (now + duration) })
        (.ok .done)
  | unlocked {userId : String} :
      Outcome (.unlockUser userId)
        (m.withUser userId fun user => { user with lockedUntil := none, failedLoginAttempts := 0 })
        (.ok .done)
  | loginSucceeded {userId : String} :
      Outcome (.recordLoginAttempt userId true)
        (m.withUser userId fun user => { user with failedLoginAttempts := 0 }) (.ok .done)
  | loginFailed {userId : String} :
      Outcome (.recordLoginAttempt userId false) (m.withUser userId (User.failLogin now)) (.ok .done)

variable {env m now}

theorem run_createSession {userId : String} {attrs : SessionAttrs} :
    Outcome env m now (.createSession userId attrs)
      ((perform env now (.createSession userId attrs)).run m).2
      ((perform env now (.createSession userId attrs)).run m).1 := by
  simp only [perform, createSession, Method.run_map, Method.run_bind, Method.run_read,
    Method.run_check]
  cases found : m.getUser userId with
  | none => exact .raised _ _
  | some user =>
    by_cases standing : user.isActive = true ∧ user.isLocked now = false
    · simp only [orRaise_some, ensure, standing, and_self, if_true]
      exact .sessionCreated found standing.1 standing.2 rfl
    · simp only [orRaise_some, ensure, standing, if_false]
      exact .raised _ _

theorem run_recordLoginAttempt_failed {userId : String} :
    (recordLoginAttempt now userId false).run m = (.ok ⟨⟩, m.withUser userId (User.failLogin now)) := by
  simp only [recordLoginAttempt, Bool.false_eq_true, if_false, Method.run_bind, run_modifyUser,
    Method.run_read, withUser_getUser, if_true]
  cases found : m.getUser userId with
  | none => simp [withUser, found]
  | some user =>
    by_cases third : 3 ≤ user.failedLoginAttempts + 1
    · simp only [Option.map_some, Option.any_some, third, decide_true, if_true, lockUser,
        run_modifyUser, withUser_withUser]
      simp [withUser, found, User.failLogin, third]
    · simp [withUser, found, User.failLogin, third]

theorem step_outcome (env : Env) (m : AccessControlManager) (i : Input) :
    Outcome env m i.now i.call (step env m i).1 (step env m i).2 := by
  obtain ⟨now, call⟩ := i
  show Outcome env m now call ((perform env now call).run m).2 ((perform env now call).run m).1
  cases call with
  | createUser userId username email attributes =>
    simp only [perform, createUser, Method.run_map, Method.run_bind, Method.run_read,
      Method.run_check]
    cases found : m.getUser userId with
    | none => exact .userCreated found rfl rfl
    | some user => exact .raised _ _
  | createRole name description attributes =>
    simp only [perform, createRole, Method.run_map, Method.run_bind, Method.run_read,
      Method.run_check]
    cases m.getRole name with
    | none => exact .roleCreated
    | some role => exact .raised _ _
  | assignRole userId roleName =>
    simp only [perform, assignRole, Method.run_map, Method.run_bind, Method.run_read,
      Method.run_check, run_modifyUser]
    cases m.getUser userId with
    | none => exact .raised _ _
    | some user =>
      cases m.getRole roleName with
      | none => exact .raised _ _
      | some role => exact .roleAssigned
  | revokeRole userId roleName =>
    simp only [perform, revokeRole, Method.run_map, Method.run_bind, Method.run_read,
      Method.run_check, run_modifyUser]
    cases m.getUser userId with
    | none => exact .raised _ _
    | some user => exact .roleRevoked
  | setActive => exact .activitySet
  | addPermission => exact .permissionAdded
  | removePermission => exact .permissionRemoved
  | checkPermission userId resource action level context =>
    simp only [perform, Method.run_map, Method.run_bind, Method.run_read, Method.run_check]
    cases m.checkPermission env now userId resource action level context with
    | error e => exact .raised _ _
    | ok answer => exact .answered _ _ rfl
  | requirePermission userId resource action level context =>
    simp only [perform, Method.run_map, Method.run_bind, Method.run_read, Method.run_check]
    cases m.requirePermission env now userId resource action level context with
    | error e => exact .raised _ _
    | ok answer => exact .answered _ _ rfl
  | createSession => exact run_createSession
  | validateSession => exact .sessionLookedUp
  | revokeSession => exact .sessionRevoked
  | lockUser => exact .locked
  | unlockUser => exact .unlocked
  | recordLoginAttempt userId success =>
    cases success with
    | true => exact .loginSucceeded
    | false =>
      simp only [perform, Method.run_map, run_recordLoginAttempt_failed]
      exact .loginFailed

end AccessControlManager

end BtApiSecurity.Access
