import BtApiSecurity.Py.Method
import BtApiSecurity.Py.Set
import BtApiSecurity.Py.Tally
import BtApiSecurity.Py.Value

/-!
# The identity manager

Identities with their passwords and status, and the groups they belong to. The
manager keeps the groups of an identity in a table of its own.
-/

namespace BtApiSecurity.Identities
open Py

inductive IdentityProvider where
  | «local»
  | ldap
  | saml
  | openidConnect
  | activeDirectory
  deriving DecidableEq

inductive UserStatus where
  | active
  | inactive
  | suspended
  | locked
  deriving DecidableEq

def IdentityProvider.value : IdentityProvider → String
  | .local => "local"
  | .ldap => "ldap"
  | .saml => "saml"
  | .openidConnect => "openid_connect"
  | .activeDirectory => "active_directory"

def UserStatus.value : UserStatus → String
  | .active => "active"
  | .inactive => "inactive"
  | .suspended => "suspended"
  | .locked => "locked"

/-- An attribute of an identity: what the caller gave, or a time that the manager noted. -/
inductive Attribute where
  | value (v : Value)
  | time (t : Time)

def Attribute.truthy : Attribute → Bool
  | .value v => v.truthy
  | .time t => t ≠ 0

structure Identity where
  identityId : String
  username : String
  email : String
  fullName : String
  department : Option String := none
  title : Option String := none
  managerId : Option String := none
  groups : PySet String := .empty
  attributes : Dict String Attribute := .empty
  provider : IdentityProvider := .local
  status : UserStatus := .active
  createdAt : Time
  lastLogin : Option Time := none
  passwordChanged : Option Time := none

structure Group where
  groupId : String
  name : String
  description : String
  members : PySet String := .empty
  parentGroups : PySet String := .empty
  createdAt : Time

/-- `ldapUsers` are the users that the LDAP configuration names, none where there is none. -/
structure IdentityManager where
  ldapUsers : List String
  identities : Dict String Identity
  groups : Dict String Group
  userGroups : Dict String (PySet String)
  drawn : Nat

inductive IdentityError where
  | importError (message : String)
  | keyError (key : String)
  | attributeError
  | bcrypt
  deriving DecidableEq

/-- What the manager takes from elsewhere: `uuid4`, and `bcrypt` where it is installed. Hashing
draws a salt; `none` is what `bcrypt` raises. -/
structure Env where
  uuid4 : Nat → String
  bcryptAvailable : Bool
  hashpw : Nat → String → Option String
  checkpw : String → String → Option Bool

namespace IdentityManager

abbrev M := Method IdentityManager IdentityError

def defaultGroups (now : Time) : List Group :=
  [{ groupId := "traders", name := "Traders", description := "Trading desk users", createdAt := now },
    { groupId := "administrators", name := "Administrators", description := "System administrators"
      createdAt := now },
    { groupId := "auditors", name := "Auditors", description := "Compliance and audit users"
      createdAt := now }]

def new (now : Time) (ldapUsers : List String) : IdentityManager :=
  { ldapUsers
    identities := .empty
    groups := (defaultGroups now).foldl (fun groups group => groups.set group.groupId group) .empty
    userGroups := .empty
    drawn := 0 }

variable (env : Env)

def draw {α : Type} (stream : Nat → α) : M α := do
  let s ← .read
  .update fun s => { s with drawn := s.drawn + 1 }
  return stream s.drawn

def storeIdentity (identityId : String) (identity : Identity) : M Unit :=
  .update fun s => { s with identities := s.identities.set identityId identity }

/-! ### Identities and passwords -/

def hashPassword (password : String) : M String := do
  .check (ensure (env.bcryptAvailable = true) (.importError
    "bcrypt is required for password hashing. Install with: pip install bcrypt"))
  let hashed ← draw fun salt => env.hashpw salt password
  .check (orRaise hashed .bcrypt)

def createIdentity (now : Time) (username email fullName : String) (password : Option String)
    (provider : IdentityProvider) (attributes : Dict String Attribute) : M Identity := do
  let identityId ← draw env.uuid4
  let identity : Identity :=
    { identityId, username, email, fullName, provider, attributes, createdAt := now }
  .update fun s =>
    { s with
      identities := s.identities.set identityId identity
      userGroups := s.userGroups.set identityId .empty }
  if provider = .local ∧ password.any (· ≠ "") then
    let hashed ← hashPassword env (password.getD "")
    let identity :=
      { identity with
        attributes := identity.attributes.set "password_hash" (.value (.str hashed))
        passwordChanged := some now }
    storeIdentity identityId identity
    return identity
  else return identity

def verifyPassword (s : IdentityManager) (identityId password : String) : Except IdentityError Bool :=
  match s.identities.get? identityId with
  | none => .ok false
  | some identity =>
    if identity.provider ≠ .local then .ok false
    else
      match identity.attributes.get? "password_hash" with
      | none => .ok false
      | some passwordHash =>
        if passwordHash.truthy = false then .ok false
        else do
          ensure (env.bcryptAvailable = true) (.importError
            "bcrypt is required for password verification. Install with: pip install bcrypt")
          match passwordHash with
          | .value (.str text) => orRaise (env.checkpw password text) .bcrypt
          | _ => .error .attributeError

def authenticateLdap (s : IdentityManager) (username : String) : Bool := s.ldapUsers.contains username

def authenticateUser (now : Time) (username password : String) (provider : IdentityProvider) :
    M (Option Identity) := do
  let s ← .read
  match s.identities.entries.find? fun (_, i) => i.username = username && i.provider = provider with
  | none => return none
  | some (key, identity) =>
    if identity.status ≠ .active then return none
    else
      let verified ← match provider with
        | .local => .check (s.verifyPassword env identity.identityId password)
        | .ldap => pure (s.authenticateLdap username)
        | _ => pure false
      if verified then
        let identity := { identity with lastLogin := some now }
        storeIdentity key identity
        return some identity
      else return none

/-! ### Groups -/

def createGroup (now : Time) (name description : String) (parentGroupIds : Option (PySet String)) :
    M Group := do
  let groupId ← draw env.uuid4
  let group : Group :=
    { groupId, name, description, parentGroups := parentGroupIds.getD .empty, createdAt := now }
  .update fun s => { s with groups := s.groups.set groupId group }
  return group

/-- The common part of adding to and removing from a group: first the members of the group, then
the groups of the user. -/
def changeMembership (change : PySet String → String → PySet String) (identityId groupId : String) :
    M Bool := do
  let s ← .read
  match s.identities.get? identityId, s.groups.get? groupId with
  | some _, some group =>
    .update fun s =>
      { s with
        groups := s.groups.set groupId { group with members := change group.members identityId } }
    let groups ← .check (orRaise (s.userGroups.get? identityId) (.keyError identityId))
    .update fun s => { s with userGroups := s.userGroups.set identityId (change groups groupId) }
    return true
  | _, _ => return false

def addUserToGroup (identityId groupId : String) : M Bool :=
  changeMembership PySet.add identityId groupId

def removeUserFromGroup (identityId groupId : String) : M Bool :=
  changeMembership PySet.discard identityId groupId

def getUserGroups (s : IdentityManager) (identityId : String) : PySet String :=
  (s.userGroups.get? identityId).getD .empty

def getGroupMembers (s : IdentityManager) (groupId : String) : PySet String :=
  match s.groups.get? groupId with
  | some group => group.members
  | none => .empty

/-! ### Status -/

def modifyIdentity (identityId : String) (f : Identity → Identity) : M Bool := do
  let s ← .read
  match s.identities.get? identityId with
  | none => return false
  | some identity =>
    storeIdentity identityId (f identity)
    return true

/-- The common part of suspending and locking. -/
def mark (status : UserStatus) (reasonKey timeKey : String) (now : Time) (identityId reason : String) :
    M Bool :=
  modifyIdentity identityId fun identity =>
    { identity with
      status
      attributes := (identity.attributes.set reasonKey (.value (.str reason))).set timeKey (.time now) }

def suspendUser (now : Time) (identityId reason : String) : M Bool :=
  mark .suspended "suspension_reason" "suspended_at" now identityId reason

def activateUser (identityId : String) : M Bool :=
  modifyIdentity identityId fun identity =>
    { identity with
      status := .active
      attributes := (identity.attributes.erase "suspension_reason").erase "suspended_at" }

def lockUser (now : Time) (identityId reason : String) : M Bool :=
  mark .locked "lock_reason" "locked_at" now identityId reason

/-! ### Summary -/

structure IdentitySummary where
  totalIdentities : Nat
  totalGroups : Nat
  byStatus : List (String × Nat)
  byProvider : List (String × Nat)
  providers : List IdentityProvider

/-- The providers are those that the manager was configured with. -/
def getIdentitySummary (providers : List IdentityProvider) (s : IdentityManager) : IdentitySummary :=
  let counts (name : Identity → String) : List (String × Nat) :=
    s.identities.values.foldl (fun counts identity => bump (· == ·) (name identity) counts) []
  { totalIdentities := s.identities.entries.length
    totalGroups := s.groups.entries.length
    byStatus := counts (·.status.value)
    byProvider := counts (·.provider.value)
    providers }

/-! ### The manager as a machine -/

inductive Call where
  | createIdentity (username email fullName : String) (password : Option String)
      (provider : IdentityProvider) (attributes : Dict String Attribute)
  | authenticateUser (username password : String) (provider : IdentityProvider)
  | createGroup (name description : String) (parentGroupIds : Option (PySet String))
  | addUserToGroup (identityId groupId : String)
  | removeUserFromGroup (identityId groupId : String)
  | suspendUser (identityId reason : String)
  | activateUser (identityId : String)
  | lockUser (identityId reason : String)

inductive Reply where
  | identity (i : Identity)
  | group (g : Group)
  | answer (b : Bool)
  | found (i : Option Identity)

structure Input where
  now : Time
  call : Call

def perform (now : Time) : Call → M Reply
  | .createIdentity username email fullName password provider attributes =>
    Reply.identity <$> createIdentity env now username email fullName password provider attributes
  | .authenticateUser username password provider =>
    Reply.found <$> authenticateUser env now username password provider
  | .createGroup name description parentGroupIds =>
    Reply.group <$> createGroup env now name description parentGroupIds
  | .addUserToGroup identityId groupId => Reply.answer <$> addUserToGroup identityId groupId
  | .removeUserFromGroup identityId groupId => Reply.answer <$> removeUserFromGroup identityId groupId
  | .suspendUser identityId reason => Reply.answer <$> suspendUser now identityId reason
  | .activateUser identityId => Reply.answer <$> activateUser identityId
  | .lockUser identityId reason => Reply.answer <$> lockUser now identityId reason

def step (s : IdentityManager) (i : Input) : IdentityManager × Except IdentityError Reply :=
  (((perform env i.now i.call).run s).2, ((perform env i.now i.call).run s).1)

end IdentityManager

end BtApiSecurity.Identities
