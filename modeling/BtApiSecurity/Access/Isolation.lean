import BtApiSecurity.Access.Steps
import BtApiSecurity.Noninterference

/-!
# Users apart

The manager keeps the users in one table, beside the roles that all of them share.
What it decides about a user depends on the calls about that user and on the calls
about roles, and on no call about anybody else.
-/

namespace BtApiSecurity.Access.AccessControlManager
open Py Machine

variable {env : Env} {m m' : AccessControlManager} {u v : String} {now : Time} {f : User → User}

/-- The user a call is about. -/
def Call.user : Call → Option String
  | .createUser u .. | .assignRole u _ | .revokeRole u _ | .setActive u _ | .checkPermission u ..
  | .requirePermission u .. | .createSession u _ | .lockUser u _ | .unlockUser u
  | .recordLoginAttempt u _ => some u
  | .createRole .. | .addPermission .. | .removePermission .. | .validateSession _
  | .revokeSession _ => none

def aboutOthers (u : String) (i : Input) : Bool := i.call.user.any (· ≠ u)

/-- What a permission check says; nothing of other answers. -/
def verdict (i : Input) (output : Except AccessError Reply) : Option (Except AccessError Reply) :=
  match i.call with
  | .checkPermission .. | .requirePermission .. => some output
  | _ => none

/-- Two managers with one record of `u`, and roles with the same permissions. -/
structure Alike (u : String) (m m' : AccessControlManager) : Prop where
  user : m.getUser u = m'.getUser u
  roles : ∀ name, (m.getRole name).map (·.permissions) = (m'.getRole name).map (·.permissions)

/-! ### Frames -/

theorem Alike.withUser (h : Alike u m m') (v : String) (f : User → User) :
    Alike u (m.withUser v f) (m'.withUser v f) := by
  refine ⟨?_, fun name => ?_⟩
  · rw [withUser_getUser, withUser_getUser, h.user]
  · rw [withUser_getRole, withUser_getRole, h.roles]

theorem Alike.withOther (h : Alike u m m') (other : v ≠ u) (f : User → User) :
    Alike u (m.withUser v f) m' := by
  refine ⟨?_, fun name => ?_⟩
  · rw [withUser_getUser, if_neg other, h.user]
  · rw [withUser_getRole, h.roles]

theorem Alike.withRole (h : Alike u m m') (name : String) {g : Role → Role}
    (change : PySet Permission → PySet Permission)
    (changes : ∀ role, (g role).permissions = change role.permissions) :
    Alike u (m.withRole name g) (m'.withRole name g) := by
  refine ⟨?_, fun other => ?_⟩
  · rw [withRole_getUser, withRole_getUser, h.user]
  · have seen : ∀ found : Option Role, (found.map g).map (·.permissions) =
        (found.map (·.permissions)).map change := by
      intro found
      cases found with
      | none => rfl
      | some role => exact congrArg some (changes role)
    rw [withRole_getRole, withRole_getRole]
    split
    · rw [seen, seen, h.roles]
    · exact h.roles other

/-! ### Decisions -/

theorem roleGrants_congr (h : Alike u m m') (name : String) (resource : Resource) (action : String)
    (level : PermissionLevel) :
    (m.getRole name).any (fun role => role.hasPermission resource action level) =
      (m'.getRole name).any fun role => role.hasPermission resource action level := by
  have seen : ∀ found : Option Role,
      found.any (fun role => role.hasPermission resource action level) =
        (found.map (·.permissions)).any
          fun permissions => scanPermissions resource action level permissions.items := by
    intro found
    cases found <;> rfl
  rw [seen, seen, h.roles]

theorem checkPermission_congr (h : Alike u m m') (resource : Resource) (action : String)
    (level : PermissionLevel) (context : Option AccessContext) :
    m.checkPermission env now u resource action level context =
      m'.checkPermission env now u resource action level context := by
  unfold checkPermission
  rw [h.user]
  simp only [roleGrants_congr h]

theorem requirePermission_congr (h : Alike u m m') (resource : Resource) (action : String)
    (level : PermissionLevel) (context : Option AccessContext) :
    m.requirePermission env now u resource action level context =
      m'.requirePermission env now u resource action level context := by
  unfold requirePermission
  rw [checkPermission_congr h]

/-! ### Steps -/

theorem alike_hidden {i : Input} (h : Alike u m m') (hidden : aboutOthers u i = true) :
    Alike u (step env m i).1 m' := by
  have outcome := step_outcome env m i
  obtain ⟨now, call⟩ := i
  obtain ⟨v, about, other⟩ : ∃ v, call.user = some v ∧ v ≠ u := by
    simpa [aboutOthers, Option.any_eq_true] using hidden
  generalize (step env m ⟨now, call⟩).1 = post at outcome ⊢
  generalize (step env m ⟨now, call⟩).2 = reply at outcome
  cases outcome with
  | raised | answered => exact h
  | userCreated =>
    obtain rfl := Option.some.inj about
    exact ⟨(Dict.get?_set_of_ne _ _ other).trans h.user, h.roles⟩
  | roleAssigned | roleRevoked | activitySet | locked | unlocked | loginSucceeded | loginFailed =>
    obtain rfl := Option.some.inj about
    exact h.withOther other _
  | @sessionCreated _ _ _ context =>
    obtain rfl := Option.some.inj about
    have opened : Alike u (m.withSession (env.uuid m.drawn) context) m' := ⟨h.user, h.roles⟩
    exact opened.withOther other _
  | roleCreated | permissionAdded | permissionRemoved | sessionLookedUp | sessionRevoked => cases about

theorem createRole_alike (h : Alike u m m') (name description : String)
    (attributes : Dict String Value) :
    Alike u (step env m ⟨now, .createRole name description attributes⟩).1
      (step env m' ⟨now, .createRole name description attributes⟩).1 := by
  have known : (m.getRole name).isNone = (m'.getRole name).isNone := by
    have same := congrArg Option.isNone (h.roles name)
    simpa only [Option.isNone_map] using same
  simp only [step, perform, createRole, Method.run_map, Method.run_bind, Method.run_read,
    Method.run_check, ← known]
  cases (m.getRole name).isNone with
  | false => exact h
  | true =>
    refine ⟨h.user, fun other => ?_⟩
    show ((m.roles.set name _).get? other).map _ = ((m'.roles.set name _).get? other).map _
    rw [Dict.get?_set, Dict.get?_set]
    split
    · rfl
    · exact h.roles other

theorem createUser_alike (h : Alike u m m') (username email : String) (attributes : Dict String Value) :
    Alike u (step env m ⟨now, .createUser u username email attributes⟩).1
      (step env m' ⟨now, .createUser u username email attributes⟩).1 := by
  simp only [step, perform, createUser, Method.run_map, Method.run_bind, Method.run_read,
    Method.run_check, ← h.user]
  cases (m.getUser u).isNone with
  | false => exact h
  | true => exact ⟨(Dict.get?_set_self _ _ _).trans (Dict.get?_set_self _ _ _).symm, h.roles⟩

/-- Both managers know the role, or neither does. -/
theorem assignRole_alike (h : Alike u m m') (roleName : String) :
    Alike u (step env m ⟨now, .assignRole u roleName⟩).1 (step env m' ⟨now, .assignRole u roleName⟩).1 := by
  have known : (m.getRole roleName).isSome = (m'.getRole roleName).isSome := by
    have same := congrArg Option.isSome (h.roles roleName)
    simpa only [Option.isSome_map] using same
  simp only [step, perform, assignRole, Method.run_map, Method.run_bind, Method.run_read,
    Method.run_check, run_modifyUser, ← h.user]
  cases m.getUser u with
  | none => exact h
  | some user =>
    cases found : m.getRole roleName with
    | none =>
      have absent : m'.getRole roleName = none := by simpa [found] using known.symm
      rw [absent]
      exact h
    | some role =>
      obtain ⟨role', present⟩ := Option.isSome_iff_exists.mp (known.symm.trans (by simp [found]))
      rw [present]
      exact h.withUser _ _

theorem revokeRole_alike (h : Alike u m m') (roleName : String) :
    Alike u (step env m ⟨now, .revokeRole u roleName⟩).1 (step env m' ⟨now, .revokeRole u roleName⟩).1 := by
  simp only [step, perform, revokeRole, Method.run_map, Method.run_bind, Method.run_read,
    Method.run_check, run_modifyUser, ← h.user]
  cases m.getUser u with
  | none => exact h
  | some user => exact h.withUser _ _

theorem createSession_alike (h : Alike u m m') (attrs : SessionAttrs) :
    Alike u (step env m ⟨now, .createSession u attrs⟩).1 (step env m' ⟨now, .createSession u attrs⟩).1 := by
  simp only [step, perform, createSession, Method.run_map_snd, Method.run_bind, Method.run_read,
    Method.run_check, ← h.user]
  cases m.getUser u with
  | none => exact h
  | some user =>
    by_cases standing : user.isActive = true ∧ user.isLocked now = false
    · simp only [orRaise_some, ensure, standing, and_self, if_true]
      have opened : ∀ context, Alike u (m.withSession (env.uuid m.drawn) context)
          (m'.withSession (env.uuid m'.drawn) context) := fun _ => ⟨h.user, h.roles⟩
      exact (opened _).withUser _ _
    · simp only [orRaise_some, ensure, standing, if_false]
      exact h

theorem recordLoginAttempt_alike (h : Alike u m m') (success : Bool) :
    Alike u (step env m ⟨now, .recordLoginAttempt u success⟩).1
      (step env m' ⟨now, .recordLoginAttempt u success⟩).1 := by
  cases success with
  | true => exact h.withUser _ _
  | false =>
    simp only [step, perform, Method.run_map, run_recordLoginAttempt_failed]
    exact h.withUser _ _

theorem alike_own (h : Alike u m m') {call : Call} (own : call.user = some u) :
    Alike u (step env m ⟨now, call⟩).1 (step env m' ⟨now, call⟩).1 := by
  cases call with
  | createRole | addPermission | removePermission | validateSession | revokeSession => cases own
  | createUser _ username email attributes =>
    obtain rfl := Option.some.inj own
    exact createUser_alike h username email attributes
  | assignRole _ roleName =>
    obtain rfl := Option.some.inj own
    exact assignRole_alike h roleName
  | revokeRole _ roleName =>
    obtain rfl := Option.some.inj own
    exact revokeRole_alike h roleName
  | createSession _ attrs =>
    obtain rfl := Option.some.inj own
    exact createSession_alike h attrs
  | recordLoginAttempt _ success =>
    obtain rfl := Option.some.inj own
    exact recordLoginAttempt_alike h success
  | setActive | lockUser | unlockUser => exact h.withUser _ _
  | checkPermission | requirePermission =>
    simp only [step, perform, Method.run_bind, Method.run_read, Method.run_map_snd, Method.run_check]
    exact h

theorem alike_shared (h : Alike u m m') {call : Call} (shared : call.user = none) :
    Alike u (step env m ⟨now, call⟩).1 (step env m' ⟨now, call⟩).1 := by
  cases call with
  | createRole name description attributes => exact createRole_alike h name description attributes
  | addPermission name permission =>
    exact h.withRole name (·.add permission) fun _ => rfl
  | removePermission name permission =>
    exact h.withRole name (·.discard permission) fun _ => rfl
  | validateSession => exact h
  | revokeSession => exact ⟨h.user, h.roles⟩
  | _ => cases shared

theorem alike_shown {i : Input} (h : Alike u m m') (stays : aboutOthers u i = false) :
    Alike u (step env m i).1 (step env m' i).1 := by
  obtain ⟨now, call⟩ := i
  cases about : call.user with
  | none => exact alike_shared h about
  | some v =>
    have same : v = u := by simpa [aboutOthers, about] using stays
    exact alike_own h (same ▸ about)

theorem verdict_alike {i : Input} (h : Alike u m m') (stays : aboutOthers u i = false) :
    verdict i (step env m i).2 = verdict i (step env m' i).2 := by
  obtain ⟨now, call⟩ := i
  cases call with
  | checkPermission v resource action level context =>
    obtain rfl : v = u := by simpa [aboutOthers, Call.user] using stays
    simp only [step, perform, verdict, Method.run_bind, Method.run_read, Method.run_map,
      Method.run_check, checkPermission_congr h]
    cases m'.checkPermission env now v resource action level context <;> rfl
  | requirePermission v resource action level context =>
    obtain rfl : v = u := by simpa [aboutOthers, Call.user] using stays
    simp only [step, perform, verdict, Method.run_bind, Method.run_read, Method.run_map,
      Method.run_check, requirePermission_congr h]
    cases m'.requirePermission env now v resource action level context <;> rfl
  | _ => rfl

/-- The manager beside one that hears of no user but `u`. -/
def userUnwinding (env : Env) (u : String) :
    Unwinding (step env) (step env) (aboutOthers u) verdict where
  Related := Alike u
  hidden_step _ _ _ h hidden := alike_hidden h hidden
  shown_step _ _ _ h stays := alike_shown h stays
  shown_output _ _ _ h stays := verdict_alike h stays

/-- What is recorded of a user and every permission check about that user come out as in the run
without any call about another user. -/
theorem users_independent (env : Env) (start : Time) (is : List Input) (u : String) :
    (run (step env) (new env start) is).getUser u =
        (run (step env) (new env start) (shown (aboutOthers u) is)).getUser u ∧
      answers (aboutOthers u) verdict (trace (step env) (new env start) is) =
        answers (aboutOthers u) verdict
          (trace (step env) (new env start) (shown (aboutOthers u) is)) := by
  let U := userUnwinding env u
  have related : U.Related (new env start) (new env start) := ⟨rfl, fun _ => rfl⟩
  exact ⟨(U.related_run related is).user, U.answers_run related is⟩

end BtApiSecurity.Access.AccessControlManager
