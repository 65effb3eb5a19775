import BtApiSecurity.Access.Lockout
import BtApiSecurity.Access.Restrictions
import BtApiSecurity.Ledger

/-!
# Permissions and the history

What `check_permission` decides is a matter of the calls made so far: the roles that a
user was given and has kept, the last call that set its activity, its latest lock,
and the attributes it was created with.
-/

namespace BtApiSecurity.Access.AccessControlManager
open Py Machine

variable {env : Env} {m : AccessControlManager} {u r : String} {now : Time}

/-! ### What calls do to a user -/

/-- What permission checks read of a user, but for the lock. -/
structure Profile where
  roles : PySet String
  isActive : Bool
  attributes : Dict String Value

def profileOf (user : User) : Profile := ⟨user.roles, user.isActive, user.attributes⟩

def profile (m : AccessControlManager) (u : String) : Option Profile := (m.getUser u).map profileOf

/-- The profile of `u` after a step, `p` having been the one before. -/
def profileAfter (u : String) (p : Option Profile) (e : Event) : Option Profile :=
  match e.output, e.input.call with
  | .error _, _ => p
  | .ok _, .createUser v _ _ attributes =>
    if v = u then some ⟨PySet.empty.add "trader", true, attributes⟩ else p
  | .ok _, .assignRole v role =>
    if v = u then p.map fun p => { p with roles := p.roles.add role } else p
  | .ok _, .revokeRole v role =>
    if v = u then p.map fun p => { p with roles := p.roles.discard role } else p
  | .ok _, .setActive v active => if v = u then p.map fun p => { p with isActive := active } else p
  | .ok _, _ => p

theorem profile_withUser {v : String} {f : User → User} {g : Profile → Profile}
    (seen : ∀ user, profileOf (f user) = g (profileOf user)) :
    (m.withUser v f).profile u = if v = u then (m.profile u).map g else m.profile u := by
  rw [profile, withUser_getUser]
  split
  · rw [profile]
    cases m.getUser u with
    | none => rfl
    | some user => exact congrArg some (seen user)
  · rfl

theorem profile_unseen {v : String} {f : User → User} (seen : ∀ user, profileOf (f user) = profileOf user) :
    (m.withUser v f).profile u = m.profile u := by
  rw [profile_withUser (g := id) seen]
  simp

theorem profile_createUser (env : Env) (v username email : String) (attributes : Dict String Value) :
    (step env m ⟨now, .createUser v username email attributes⟩).1.profile u =
      profileAfter u (m.profile u) (entry (step env) m ⟨now, .createUser v username email attributes⟩) := by
  simp only [entry, step, perform, createUser, Method.run_map, Method.run_bind, Method.run_read,
    Method.run_check]
  cases (m.getUser v).isNone with
  | false => rfl
  | true =>
    show ((m.users.set v _).get? u).map profileOf = if v = u then _ else m.profile u
    rw [Dict.get?_set]
    split <;> rfl

theorem profile_step (env : Env) (m : AccessControlManager) (i : Input) (u : String) :
    (step env m i).1.profile u = profileAfter u (m.profile u) (entry (step env) m i) := by
  have outcome := step_outcome env m i
  obtain ⟨now, call⟩ := i
  by_cases creates : ∃ v username email attributes, call = .createUser v username email attributes
  · obtain ⟨v, username, email, attributes, rfl⟩ := creates
    exact profile_createUser env v username email attributes
  · rw [entry]
    generalize (step env m ⟨now, call⟩).1 = post at outcome ⊢
    generalize (step env m ⟨now, call⟩).2 = reply at outcome ⊢
    cases outcome with
    | raised => rfl
    | answered _ _ reads => cases call <;> first | rfl | cases reads
    | userCreated => exact absurd ⟨_, _, _, _, rfl⟩ creates
    | roleCreated | sessionLookedUp | sessionRevoked => rfl
    | roleAssigned | roleRevoked | activitySet => exact profile_withUser fun _ => rfl
    | permissionAdded | permissionRemoved =>
      rw [profile, withRole_getUser]
      rfl
    | @sessionCreated _ _ _ context =>
      exact profile_unseen (m := m.withSession (env.uuid m.drawn) context) fun _ => rfl
    | locked | unlocked | loginSucceeded | loginFailed => exact profile_unseen fun _ => rfl

theorem found_of_returned {v role : String} {call : Call} {reply : Reply}
    (membership : call = .assignRole v role ∨ call = .revokeRole v role)
    (returned : (step env m ⟨now, call⟩).2 = .ok reply) : ∃ p, m.profile v = some p := by
  cases found : m.getUser v with
  | none =>
    rcases membership with rfl | rfl <;>
      simp [step, perform, assignRole, revokeRole, Method.run_map, Method.run_bind, Method.run_read,
        Method.run_check, found] at returned
  | some user => exact ⟨profileOf user, by rw [profile, found]; rfl⟩

theorem absent_of_created {v username email : String} {attributes : Dict String Value} {reply : Reply}
    (returned : (step env m ⟨now, .createUser v username email attributes⟩).2 = .ok reply) :
    m.profile v = none := by
  simp only [step, perform, createUser, Method.run_map, Method.run_bind, Method.run_read,
    Method.run_check] at returned
  cases found : m.getUser v with
  | none => rw [profile, found]; rfl
  | some user =>
    rw [found] at returned
    cases returned

/-! ### The entries that count -/

/-- The call created the user with these attributes. -/
def Creates (u : String) (attributes : Dict String Value) (e : Event) : Prop :=
  (∃ reply, e.output = .ok reply) ∧
    ∃ username email, e.input.call = .createUser u username email attributes

def Assigns (u r : String) (e : Event) : Prop :=
  (∃ reply, e.output = .ok reply) ∧ e.input.call = .assignRole u r

def Revokes (u r : String) (e : Event) : Prop :=
  (∃ reply, e.output = .ok reply) ∧ e.input.call = .revokeRole u r

/-- The activity of the user, who was there, was set. -/
def SetsActive (u : String) (active : Bool) (e : Event) : Prop :=
  e.input.call = .setActive u active ∧ ∃ p, e.pre.profile u = some p

def Touches (u : String) (e : Event) : Prop :=
  (∃ attributes, Creates u attributes e) ∨ (∃ r, Assigns u r e ∨ Revokes u r e) ∨
    ∃ active, SetsActive u active e

/-- What an entry does to the profile of `u`. -/
inductive Effect (u : String) (e : Event) : Prop
  | kept (same : e.post.profile u = e.pre.profile u) (untouched : ¬Touches u e)
  | created {attributes : Dict String Value} (creates : Creates u attributes e)
      (before : e.pre.profile u = none)
      (after : e.post.profile u = some ⟨PySet.empty.add "trader", true, attributes⟩)
  | assigned {p : Profile} {role : String} (assigns : Assigns u role e)
      (before : e.pre.profile u = some p)
      (after : e.post.profile u = some { p with roles := p.roles.add role })
  | revoked {p : Profile} {role : String} (revokes : Revokes u role e)
      (before : e.pre.profile u = some p)
      (after : e.post.profile u = some { p with roles := p.roles.discard role })
  | activitySet {p : Profile} {active : Bool} (sets : SetsActive u active e)
      (before : e.pre.profile u = some p) (after : e.post.profile u = some { p with isActive := active })

theorem untouched (env : Env) (m : AccessControlManager) (i : Input)
    (touches : ¬Touches u (entry (step env) m i)) :
    profileAfter u (m.profile u) (entry (step env) m i) = m.profile u := by
  obtain ⟨now, call⟩ := i
  cases output : (step env m ⟨now, call⟩).2 with
  | error e => simp [profileAfter, entry, output]
  | ok reply =>
    simp only [Touches, Creates, Assigns, Revokes, SetsActive, entry, output, not_or, not_exists] at touches
    cases call with
    | createUser v =>
      have other : v ≠ u := by
        rintro rfl
        exact touches.1 _ ⟨⟨reply, rfl⟩, _, _, rfl⟩
      simp [profileAfter, entry, output, other]
    | assignRole v =>
      have other : v ≠ u := by
        rintro rfl
        exact (touches.2.1 _).1 ⟨⟨reply, rfl⟩, rfl⟩
      simp [profileAfter, entry, output, other]
    | revokeRole v =>
      have other : v ≠ u := by
        rintro rfl
        exact (touches.2.1 _).2 ⟨⟨reply, rfl⟩, rfl⟩
      simp [profileAfter, entry, output, other]
    | setActive v =>
      cases found : m.profile u with
      | none => simp [profileAfter, entry, output]
      | some p =>
        have other : v ≠ u := by
          rintro rfl
          exact touches.2.2 _ ⟨rfl, p, found⟩
        simp [profileAfter, entry, output, other]
    | _ => simp [profileAfter, entry, output]

theorem effect_step (env : Env) (m : AccessControlManager) (i : Input) (u : String) :
    Effect u (entry (step env) m i) := by
  have after := profile_step env m i u
  by_cases touched : Touches u (entry (step env) m i)
  · obtain ⟨now, call⟩ := i
    rcases touched with ⟨attributes, creates⟩ | ⟨r, assigns | revokes⟩ | ⟨active, sets⟩
    · have call_made := creates
      obtain ⟨⟨reply, output⟩, username, email, called⟩ := call_made
      obtain rfl : call = _ := called
      rw [entry_output] at output
      refine .created creates (absent_of_created output) (after.trans ?_)
      simp [profileAfter, entry, output]
    · have call_made := assigns
      obtain ⟨⟨reply, output⟩, called⟩ := call_made
      obtain rfl : call = _ := called
      rw [entry_output] at output
      obtain ⟨p, found⟩ := found_of_returned (.inl rfl) output
      refine .assigned assigns found (after.trans ?_)
      simp [profileAfter, entry, output, found]
    · have call_made := revokes
      obtain ⟨⟨reply, output⟩, called⟩ := call_made
      obtain rfl : call = _ := called
      rw [entry_output] at output
      obtain ⟨p, found⟩ := found_of_returned (.inr rfl) output
      refine .revoked revokes found (after.trans ?_)
      simp [profileAfter, entry, output, found]
    · have call_made := sets
      obtain ⟨called, p, found⟩ := call_made
      obtain rfl : call = _ := called
      have output : (step env m ⟨now, .setActive u active⟩).2 = .ok .done := rfl
      change m.profile u = some p at found
      refine .activitySet sets found (after.trans ?_)
      simp [profileAfter, entry, output, found]
  · exact .kept (after.trans (untouched env m i touched)) touched

/-! ### Ledgers -/

def GivesRole (u r : String) (e : Event) : Prop :=
  (∃ attributes, Creates u attributes e) ∧ r = "trader" ∨ Assigns u r e

def Holds (u r : String) (m : AccessControlManager) : Prop := ∃ p ∈ m.profile u, r ∈ p.roles

variable {e : Event}

theorem holds_effect (effect : Effect u e) :
    Holds u r e.post ↔ GivesRole u r e ∨ Holds u r e.pre ∧ ¬Revokes u r e := by
  cases effect with
  | kept same untouched =>
    rw [Touches, not_or, not_or] at untouched
    simp only [not_exists, not_or] at untouched
    simp [Holds, same, GivesRole, untouched]
  | created creates before after =>
    have created : ∃ attributes, Creates u attributes e := ⟨_, creates⟩
    obtain ⟨_, _, _, called⟩ := creates
    simp [Holds, before, after, GivesRole, Assigns, called, created]
  | assigned assigns before after =>
    obtain ⟨returned, called⟩ := assigns
    simp [Holds, before, after, GivesRole, Creates, Assigns, Revokes, called, returned, eq_comm]
  | revoked revokes before after =>
    obtain ⟨returned, called⟩ := revokes
    simp [Holds, before, after, GivesRole, Creates, Assigns, Revokes, called, returned, and_comm, eq_comm]
  | activitySet sets before after =>
    obtain ⟨called, _⟩ := sets
    simp [Holds, before, after, GivesRole, Creates, Assigns, Revokes, called]

/-- The user was given the role, and has not lost it since. -/
def MemberOf (history : List Event) (u r : String) : Prop := Lasting (GivesRole u r) (Revokes u r) history

theorem holds_run (env : Env) (start : Time) (is : List Input) (u r : String) :
    Holds u r (run (step env) (new env start) is) ↔ MemberOf (trace (step env) (new env start) is) u r :=
  lasting_run (by rintro ⟨_, ⟨⟩, _⟩) (fun m i => holds_effect (effect_step env m i u)) is

variable {resource : Resource} {action : String} {level : PermissionLevel} {context : Option AccessContext}

end BtApiSecurity.Access.AccessControlManager
