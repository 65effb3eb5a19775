import Mathlib.Data.String.Basic
import BtApiSecurity.Py.Method
import BtApiSecurity.Py.Set
import BtApiSecurity.Py.Value

/-!
# The access control manager

Roles, users, permission checks and sessions. A set is kept in one of the orders
in which it may be iterated.
-/

namespace BtApiSecurity.Access
open Py

inductive AccessError where
  | valueError (message : String)
  | typeError
  | accessDenied (userId resource action reason : String)
  deriving DecidableEq

def deniedMessage (userId resource action reason : String) : String :=
  "Access denied for user " ++ userId ++ " to " ++ action ++ " " ++ resource ++
    if reason = "" then "" else ": " ++ reason

inductive PermissionLevel where
  | none
  | read
  | write
  | delete
  | admin
  | superAdmin
  deriving DecidableEq

def PermissionLevel.value : PermissionLevel → Nat
  | .none => 0
  | .read => 1
  | .write => 2
  | .delete => 4
  | .admin => 8
  | .superAdmin => 16

instance : LE PermissionLevel := ⟨fun l m => l.value ≤ m.value⟩

instance (l m : PermissionLevel) : Decidable (l ≤ m) :=
  inferInstanceAs (Decidable (l.value ≤ m.value))

inductive Resource where
  | exchangeConfig
  | tradingAccounts
  | orderManagement
  | marketData
  | userAccounts
  | auditLogs
  | securityConfig
  | apiKeys
  | balanceData
  | positionData
  | tradeHistory
  deriving DecidableEq

def Resource.all : List Resource :=
  [.exchangeConfig, .tradingAccounts, .orderManagement, .marketData, .userAccounts, .auditLogs,
    .securityConfig, .apiKeys, .balanceData, .positionData, .tradeHistory]

def Resource.value : Resource → String
  | .exchangeConfig => "exchange_config"
  | .tradingAccounts => "trading_accounts"
  | .orderManagement => "order_management"
  | .marketData => "market_data"
  | .userAccounts => "user_accounts"
  | .auditLogs => "audit_logs"
  | .securityConfig => "security_config"
  | .apiKeys => "api_keys"
  | .balanceData => "balance_data"
  | .positionData => "position_data"
  | .tradeHistory => "trade_history"

structure Permission where
  resource : Resource
  action : String
  level : PermissionLevel
  deriving DecidableEq

def Permission.actionMatch (perm : Permission) (action : String) : Bool :=
  let plain := perm.action == "*" || perm.action == action
  let written := if !plain && perm.action == "write" then
    ["create", "update", "modify", "write"].contains action else plain
  if !written && perm.action == "read" then ["read", "view", "list"].contains action else written

structure Role where
  name : String
  description : String
  permissions : PySet Permission := .empty
  attributes : Dict String Value := .empty
  isSystemRole : Bool := false
  createdAt : Time
  id : String

def Role.addPermission (role : Role) (permission : Permission) : Role :=
  { role with permissions := role.permissions.add permission }

def Role.removePermission (role : Role) (permission : Permission) : Role :=
  { role with permissions := role.permissions.discard permission }

/-- The loop of `has_permission`. -/
def scanPermissions (resource : Resource) (action : String) (level : PermissionLevel) :
    List Permission → Bool
  | [] => false
  | perm :: rest =>
    if perm.resource = resource ∧ perm.actionMatch action = true then decide (level ≤ perm.level)
    else scanPermissions resource action level rest

def Role.hasPermission (role : Role) (resource : Resource) (action : String)
    (level : PermissionLevel) : Bool :=
  scanPermissions resource action level role.permissions.items

structure User where
  userId : String
  username : String
  email : String
  roles : PySet String := .empty
  attributes : Dict String Value := .empty
  isActive : Bool := true
  createdAt : Time
  lastLogin : Option Time := none
  failedLoginAttempts : Nat := 0
  lockedUntil : Option Time := none

def User.isLocked (user : User) (now : Time) : Bool :=
  match user.lockedUntil with
  | none => false
  | some lockedUntil => now < lockedUntil

/-- An `AccessContext`; `user` is the user as it is when the context is looked at. -/
structure AccessContext where
  user : User
  resource : Resource
  action : String
  ipAddress : Option String
  userAgent : Option String
  timestamp : Time
  sessionId : Option String
  requestId : Option String

/-- A stored context, which refers to a user of the manager. -/
structure SessionContext where
  userId : String
  resource : Resource
  action : String
  ipAddress : Option String
  userAgent : Option String
  timestamp : Time
  sessionId : Option String
  requestId : Option String

structure SessionAttrs where
  ipAddress : Option String := none
  userAgent : Option String := none
  timestamp : Option Time := none
  sessionId : Option String := none
  requestId : Option String := none

structure AccessControlManager where
  users : Dict String User
  roles : Dict String Role
  sessionContexts : Dict String SessionContext
  drawn : Nat

/-- What the manager takes from elsewhere: `uuid4` and the local calendar. -/
structure Env where
  uuid : Nat → String
  localHour : Time → Nat
  localWeekday : Time → Nat

/-- `ip in container`; `none` is a `TypeError`. -/
def containsIp (container : Value) (ip : Option String) : Option Bool :=
  let item := match ip with | some text => Value.str text | none => .none
  match container with
  | .str text => ip.map fun part => decide (part.toList <:+: text.toList)
  | .list xs | .tuple xs => some (xs.any fun x => item.pyEq x)
  | .dict items =>
    let key := match ip with | some text => Key.str text | none => .none
    some (items.any fun entry => key.pyEq entry.1)
  | _ => none

namespace AccessControlManager

abbrev M := Method AccessControlManager AccessError

def grantAll (role : Role) (permissions : List Permission) : Role :=
  permissions.foldl Role.addPermission role

def new (env : Env) (now : Time) : AccessControlManager :=
  let superAdmin := grantAll
    { name := "super_admin", description := "Full system access", isSystemRole := true
      createdAt := now, id := env.uuid 0 }
    (Resource.all.map fun resource => ⟨resource, "*", .superAdmin⟩)
  let trader := grantAll
    { name := "trader", description := "Trading access only", isSystemRole := true
      createdAt := now, id := env.uuid 1 }
    ([Resource.marketData, .orderManagement, .balanceData, .positionData, .tradeHistory].flatMap
      fun resource => ["read", "write"].map fun action => ⟨resource, action, .write⟩)
  let auditor := grantAll
    { name := "auditor", description := "Audit and compliance access", isSystemRole := true
      createdAt := now, id := env.uuid 2 }
    ([Resource.auditLogs, .tradeHistory, .orderManagement].map fun resource =>
      ⟨resource, "read", .read⟩)
  { users := .empty
    roles := ((Dict.empty.set "super_admin" superAdmin).set "trader" trader).set "auditor" auditor
    sessionContexts := .empty
    drawn := 3 }

def getUser (m : AccessControlManager) (userId : String) : Option User := m.users.get? userId

def getRole (m : AccessControlManager) (name : String) : Option Role := m.roles.get? name

variable (env : Env)

def drawUuid : M String := do
  let m ← .read
  .update fun m => { m with drawn := m.drawn + 1 }
  return env.uuid m.drawn

/-! ### Users and roles -/

def createUser (now : Time) (userId username email : String) (attributes : Dict String Value) :
    M User := do
  let m ← .read
  .check (ensure (m.getUser userId).isNone (.valueError ("User " ++ userId ++ " already exists")))
  let user : User :=
    { userId, username, email, roles := PySet.empty.add "trader", attributes, createdAt := now }
  .update fun m => { m with users := m.users.set userId user }
  return user

def createRole (now : Time) (name description : String) (attributes : Dict String Value) :
    M Role := do
  let m ← .read
  .check (ensure (m.getRole name).isNone (.valueError ("Role " ++ name ++ " already exists")))
  let id ← drawUuid env
  let role : Role := { name, description, attributes, createdAt := now, id }
  .update fun m => { m with roles := m.roles.set name role }
  return role

def modifyUser (userId : String) (f : User → User) : M Unit :=
  .update fun m =>
    match m.getUser userId with
    | none => m
    | some user => { m with users := m.users.set userId (f user) }

def modifyRole (name : String) (f : Role → Role) : M Unit :=
  .update fun m =>
    match m.getRole name with
    | none => m
    | some role => { m with roles := m.roles.set name (f role) }

def assignRole (userId roleName : String) : M Unit := do
  let m ← .read
  let _ ← .check (orRaise (m.getUser userId) (.valueError ("User " ++ userId ++ " not found")))
  let _ ← .check (orRaise (m.getRole roleName) (.valueError ("Role " ++ roleName ++ " not found")))
  modifyUser userId fun user => { user with roles := user.roles.add roleName }

def revokeRole (userId roleName : String) : M Unit := do
  let m ← .read
  let _ ← .check (orRaise (m.getUser userId) (.valueError ("User " ++ userId ++ " not found")))
  modifyUser userId fun user => { user with roles := user.roles.discard roleName }

/-! ### Permission checks -/

def checkAbacRules (user : User) (resource : Resource) (level : PermissionLevel)
    (context : AccessContext) : Except AccessError Bool := do
  let hour := env.localHour context.timestamp
  if resource = .tradingAccounts ∧ (user.attributes.get? "account_owner").isSome ∧
      9 ≤ hour ∧ hour ≤ 17 then
    return true
  else
    let ipAllowed ← match user.attributes.get? "allowed_ips" with
      | some allowed =>
        if resource ∈ [Resource.apiKeys, .securityConfig] then
          orRaise (containsIp allowed context.ipAddress) .typeError
        else .ok true
      | none => .ok true
    if ipAllowed = false then return false
    else if .admin ≤ level ∧ 5 ≤ env.localWeekday context.timestamp then return false
    else return false

def checkPermission (m : AccessControlManager) (now : Time) (userId : String) (resource : Resource)
    (action : String) (level : PermissionLevel) (context : Option AccessContext) :
    Except AccessError Bool :=
  match m.getUser userId with
  | none => .ok false
  | some user =>
    if user.isActive = false ∨ user.isLocked now = true then .ok false
    else if user.roles.items.any fun roleName =>
        (m.getRole roleName).any fun role => role.hasPermission resource action level then
      .ok true
    else
      match context with
      | none => .ok false
      | some context => checkAbacRules env user resource level context

def requirePermission (m : AccessControlManager) (now : Time) (userId : String)
    (resource : Resource) (action : String) (level : PermissionLevel)
    (context : Option AccessContext) : Except AccessError Unit := do
  let granted ← m.checkPermission env now userId resource action level context
  let reason := if context.any fun c => c.user.isLocked now then "Account is locked"
    else "Insufficient permissions"
  ensure (granted = true) (.accessDenied userId resource.value action reason)

def getUserPermissions (m : AccessControlManager) (userId : String) : PySet Permission :=
  match m.getUser userId with
  | none => .empty
  | some user =>
    user.roles.items.foldl
      (fun permissions roleName =>
        match m.getRole roleName with
        | none => permissions
        | some role => permissions.update role.permissions.items)
      .empty

/-! ### Sessions and locks -/

def createSession (now : Time) (userId : String) (attrs : SessionAttrs) : M String := do
  let m ← .read
  let user ← .check
    (orRaise (m.getUser userId) (.valueError ("User " ++ userId ++ " not found")))
  .check (ensure (user.isActive = true ∧ user.isLocked now = false)
    (.accessDenied userId "session" "create" "Account inactive or locked"))
  let sessionId ← drawUuid env
  let context : SessionContext :=
    { userId, resource := .userAccounts, action := "create_session", ipAddress := attrs.ipAddress
      userAgent := attrs.userAgent, timestamp := attrs.timestamp.getD now
      sessionId := attrs.sessionId, requestId := attrs.requestId }
  .update fun m => { m with sessionContexts := m.sessionContexts.set sessionId context }
  modifyUser userId fun user => { user with lastLogin := some now, failedLoginAttempts := 0 }
  return sessionId

def validateSession (m : AccessControlManager) (sessionId : String) : Option SessionContext :=
  m.sessionContexts.get? sessionId

def revokeSession (sessionId : String) : M Unit :=
  .update fun m => { m with sessionContexts := m.sessionContexts.erase sessionId }

def lockUser (now : Time) (userId : String) (duration : Time) : M Unit :=
  modifyUser userId fun user => { user with lockedUntil := some (now + duration) }

def unlockUser (userId : String) : M Unit :=
  modifyUser userId fun user => { user with lockedUntil := none, failedLoginAttempts := 0 }

def recordLoginAttempt (now : Time) (userId : String) (success : Bool) : M Unit := do
  if success then modifyUser userId fun user => { user with failedLoginAttempts := 0 }
  else
    modifyUser userId fun user => { user with failedLoginAttempts := user.failedLoginAttempts + 1 }
    let m ← .read
    if (m.getUser userId).any fun user => 3 ≤ user.failedLoginAttempts then lockUser now userId 900
    else return ()

/-! ### A manager to run -/

/-- The identifiers `u`, `uu`, …; it is always noon on a Monday. -/
def sampleEnv : Env :=
  { uuid n := String.ofList (List.replicate (n + 1) 'u')
    localHour _ := 12
    localWeekday _ := 0 }

end AccessControlManager

end BtApiSecurity.Access
