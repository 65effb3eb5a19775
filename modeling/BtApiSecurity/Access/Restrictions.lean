import BtApiSecurity.Access.Control

/-!
# Attribute restrictions

Two attribute rules only ever deny: one by the address of the request, one by the
day of the week. Neither is asked once a role, or the rule for one's own trading
accounts, has granted the request.
-/

namespace BtApiSecurity.Access
open Py

/-- A role of the user grants the request. -/
def AccessControlManager.GrantedByRole (m : AccessControlManager) (user : User) (resource : Resource)
    (action : String) (level : PermissionLevel) : Prop :=
  ∃ name ∈ user.roles, ∃ role, m.getRole name = some role ∧
    role.hasPermission resource action level = true

/-- The rule for one's own trading accounts grants the request: business hours. -/
def GrantedToOwner (env : Env) (user : User) (resource : Resource) (context : AccessContext) : Prop :=
  resource = .tradingAccounts ∧ (user.attributes.get? "account_owner").isSome ∧
    9 ≤ env.localHour context.timestamp ∧ env.localHour context.timestamp ≤ 17

/-- The address is asked for, and `allowed_ips` is not a container that it may be in. -/
def AddressUnaskable (user : User) (resource : Resource) (context : AccessContext) : Prop :=
  resource ∈ [Resource.apiKeys, .securityConfig] ∧
    ∃ allowed, user.attributes.get? "allowed_ips" = some allowed ∧
      containsIp allowed context.ipAddress = none

/-- The request is about keys or security settings, and its address is not an allowed one. -/
def RestrictedByAddress (user : User) (resource : Resource) (context : AccessContext) : Prop :=
  resource ∈ [Resource.apiKeys, .securityConfig] ∧
    ∃ allowed, user.attributes.get? "allowed_ips" = some allowed ∧
      containsIp allowed context.ipAddress ≠ some true

/-- The request is an administrative one at the weekend. -/
def RestrictedByDay (env : Env) (level : PermissionLevel) (context : AccessContext) : Prop :=
  .admin ≤ level ∧ 5 ≤ env.localWeekday context.timestamp

def Restricted (env : Env) (user : User) (resource : Resource) (level : PermissionLevel)
    (context : AccessContext) : Prop :=
  RestrictedByAddress user resource context ∨ RestrictedByDay env level context

namespace AccessControlManager

variable {env : Env} {m : AccessControlManager} {user : User} {now : Time} {userId action : String}
variable {resource : Resource} {level : PermissionLevel} {context : AccessContext}

theorem checkAbacRules_of_owner (owner : GrantedToOwner env user resource context) :
    checkAbacRules env user resource level context = .ok true := by
  unfold checkAbacRules
  exact if_pos owner

theorem deny_whatever (ipAllowed : Bool) :
    (if ipAllowed = false then return false
      else if .admin ≤ level ∧ 5 ≤ env.localWeekday context.timestamp then return false
      else return false : Except AccessError Bool) = .ok false := by
  split
  · rfl
  · split <;> rfl

theorem checkAbacRules_of_unaskable (unaskable : AddressUnaskable user resource context) :
    checkAbacRules env user resource level context = .error .typeError := by
  obtain ⟨sensitive, allowed, present, unsupported⟩ := unaskable
  have other : ¬GrantedToOwner env user resource context := by
    rintro ⟨rfl, -⟩
    simp at sensitive
  refine (if_neg other).trans ?_
  simp only [present, sensitive, if_true, unsupported, orRaise_none, error_bind]

/-- Past the rule for owners, the attribute rules deny whatever they are asked. -/
theorem checkAbacRules_denies (owner : ¬GrantedToOwner env user resource context)
    (askable : ¬AddressUnaskable user resource context) :
    checkAbacRules env user resource level context = .ok false := by
  refine (if_neg owner).trans ?_
  cases present : user.attributes.get? "allowed_ips" with
  | none => exact deny_whatever true
  | some allowed =>
    by_cases sensitive : resource ∈ [Resource.apiKeys, .securityConfig]
    · cases asked : containsIp allowed context.ipAddress with
      | none => exact absurd ⟨sensitive, allowed, present, asked⟩ askable
      | some ipAllowed =>
        simp only [sensitive, if_true, asked, orRaise_some, ok_bind]
        exact deny_whatever ipAllowed
    · simp only [sensitive, if_false, ok_bind]
      exact deny_whatever true

theorem checkAbacRules_false_iff (level : PermissionLevel) : checkAbacRules env user resource level context = .ok false ↔
    ¬GrantedToOwner env user resource context ∧ ¬AddressUnaskable user resource context := by
  constructor
  · intro denied
    constructor
    · intro owner
      rw [checkAbacRules_of_owner owner] at denied
      cases denied
    · intro unaskable
      rw [checkAbacRules_of_unaskable unaskable] at denied
      cases denied
  · rintro ⟨owner, askable⟩
    exact checkAbacRules_denies owner askable

theorem grantedByRole_iff : m.GrantedByRole user resource action level ↔
    (user.roles.items.any fun roleName =>
      (m.getRole roleName).any fun role => role.hasPermission resource action level) = true := by
  simp only [GrantedByRole, List.any_eq_true, Option.any_eq_true]
  rfl

/-- Nothing grants the request, restricted or not. -/
def DeniedAnyway (env : Env) (m : AccessControlManager) (now : Time) (user : User)
    (resource : Resource) (action : String) (level : PermissionLevel) (context : AccessContext) :
    Prop :=
  user.isActive = false ∨ user.isLocked now = true ∨
    ¬m.GrantedByRole user resource action level ∧ ¬GrantedToOwner env user resource context ∧
      ¬AddressUnaskable user resource context

theorem checkPermission_false_iff (found : m.getUser userId = some user) :
    m.checkPermission env now userId resource action level (some context) = .ok false ↔
      DeniedAnyway env m now user resource action level context := by
  simp only [checkPermission, found, DeniedAnyway]
  by_cases standing : user.isActive = false ∨ user.isLocked now = true
  · simp only [standing, if_true, true_iff]
    exact standing.elim .inl (.inr ∘ .inl)
  · rw [if_neg standing]
    rw [not_or] at standing
    simp only [standing.1, standing.2, ← checkAbacRules_false_iff level]
    by_cases granted : m.GrantedByRole user resource action level
    · rw [if_pos (grantedByRole_iff.mp granted)]
      simp [granted]
    · rw [if_neg fun any => granted (grantedByRole_iff.mpr any)]
      simp [granted]

/-- A restriction denies exactly those requests that nothing would have granted. -/
theorem restrictions_override_iff (env : Env) (m : AccessControlManager) (now : Time)
    (userId : String) (resource : Resource) (action : String) (level : PermissionLevel)
    (context : AccessContext) :
    (∀ user, m.getUser userId = some user → Restricted env user resource level context →
      m.checkPermission env now userId resource action level (some context) = .ok false) ↔
    ∀ user, m.getUser userId = some user → Restricted env user resource level context →
      DeniedAnyway env m now user resource action level context := by
  constructor
  · intro denied user found restricted
    exact (checkPermission_false_iff found).mp (denied user found restricted)
  · intro denied user found restricted
    exact (checkPermission_false_iff found).mpr (denied user found restricted)

/-- Ann administers everything, from one address only. -/
def administrator : AccessControlManager :=
  let setup : M Unit := do
    let _ ← createUser 0 "ann" "Ann" "ann@example.org"
      (Dict.empty.set "allowed_ips" (.list [.str "10.0.0.1"]))
    assignRole "ann" "super_admin"
  (setup.run (new sampleEnv 0)).2

def remoteContext (user : User) : AccessContext :=
  { user, resource := .apiKeys, action := "read", ipAddress := some "192.0.2.1", userAgent := none
    timestamp := 1, sessionId := none, requestId := none }

/-- From any other address she still reads the keys. -/
theorem administrator_granted :
    ∃ user, administrator.getUser "ann" = some user ∧
      Restricted sampleEnv user .apiKeys .admin (remoteContext user) ∧
      administrator.checkPermission sampleEnv 1 "ann" .apiKeys "read" .admin
        (some (remoteContext user)) ≠ .ok false := by
  have refused : (administrator.getUser "ann").any (fun user =>
      (user.attributes.get? "allowed_ips").any fun allowed =>
        containsIp allowed (some "192.0.2.1") != some true) = true := by decide +kernel
  obtain ⟨user, found, refused⟩ := (Option.any_eq_true _ _).mp refused
  obtain ⟨allowed, present, refused⟩ := (Option.any_eq_true _ _).mp refused
  refine ⟨user, found, .inl ⟨by simp, allowed, present, by simpa [remoteContext] using refused⟩, ?_⟩
  have granted : (administrator.getUser "ann").any (fun user =>
      user.isActive && !user.isLocked 1 && user.roles.items.any fun roleName =>
        (administrator.getRole roleName).any fun role =>
          role.hasPermission .apiKeys "read" .admin) = true := by decide +kernel
  rw [found, Option.any_some, Bool.and_eq_true, Bool.and_eq_true, Bool.not_eq_true'] at granted
  obtain ⟨⟨active, unlocked⟩, granted⟩ := granted
  rw [Ne, checkPermission_false_iff found]
  rintro (inactive | locked | ⟨none, -⟩)
  · exact absurd (active.symm.trans inactive) (by decide)
  · exact absurd (locked.symm.trans unlocked) (by decide)
  · exact none (grantedByRole_iff.mpr granted)

end AccessControlManager

end BtApiSecurity.Access
