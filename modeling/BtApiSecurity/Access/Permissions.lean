import BtApiSecurity.Access.Steps

/-!
# What a permission check answers

A check means to ask whether some permission of the user suffices. A role answers
with the first permission that applies, in the order in which its set happens to
be iterated, so a further permission can hide one that suffices.
-/

namespace BtApiSecurity.Access
open Py

structure Request where
  resource : Resource
  action : String
  level : PermissionLevel

def Covers (pattern action : String) : Prop :=
  pattern = "*" ∨ pattern = action ∨
    (pattern = "write" ∧ action ∈ ["create", "update", "modify", "write"]) ∨
    pattern = "read" ∧ action ∈ ["read", "view", "list"]

instance (pattern action : String) : Decidable (Covers pattern action) :=
  inferInstanceAs (Decidable (_ ∨ _ ∨ _ ∨ _))

def Permission.Applies (perm : Permission) (r : Request) : Prop :=
  perm.resource = r.resource ∧ Covers perm.action r.action

instance (perm : Permission) (r : Request) : Decidable (perm.Applies r) :=
  inferInstanceAs (Decidable (_ ∧ _))

/-- The permission alone justifies the request. -/
def Permission.Suffices (perm : Permission) (r : Request) : Prop :=
  perm.Applies r ∧ r.level ≤ perm.level

/-- Every permission of the role that applies suffices, and one does. -/
def Role.Uniform (role : Role) (r : Request) : Prop :=
  (∃ perm ∈ role.permissions, perm.Applies r) ∧
    ∀ perm ∈ role.permissions, perm.Applies r → perm.Suffices r

theorem actionMatch_iff (perm : Permission) (action : String) :
    perm.actionMatch action = true ↔ Covers perm.action action := by
  by_cases plain : perm.action = "*" ∨ perm.action = action
  · have matched : (perm.action == "*" || perm.action == action) = true := by simpa using plain
    simp only [Permission.actionMatch, matched, Bool.not_true, Bool.false_and, Bool.false_eq_true,
      if_false, true_iff]
    exact plain.elim .inl (.inr ∘ .inl)
  · have missed : (perm.action == "*" || perm.action == action) = false := by simpa using plain
    rw [not_or] at plain
    by_cases write : perm.action = "write"
    · have other : ¬"write" = action := write ▸ plain.2
      simp [Permission.actionMatch, Covers, write, other]
    · simp [Permission.actionMatch, Covers, missed, plain, write]

/-! ### One role -/

theorem scanPermissions_eq (r : Request) (perms : List Permission) :
    scanPermissions r.resource r.action r.level perms =
      (perms.find? fun perm => perm.Applies r).any fun perm => r.level ≤ perm.level := by
  induction perms with
  | nil => rfl
  | cons perm rest ih =>
    simp only [scanPermissions, actionMatch_iff, List.find?_cons]
    by_cases applies : perm.Applies r
    · simp [applies, show perm.resource = r.resource ∧ Covers perm.action r.action from applies]
    · simp [applies, show ¬(perm.resource = r.resource ∧ Covers perm.action r.action) from applies, ih]

theorem hasPermission_of_uniform {role : Role} {r : Request} (uniform : role.Uniform r) :
    role.hasPermission r.resource r.action r.level = true := by
  obtain ⟨⟨perm, mem, applies⟩, all⟩ := uniform
  unfold Role.hasPermission
  rw [scanPermissions_eq]
  cases first : role.permissions.items.find? fun perm => perm.Applies r with
  | none => exact absurd (by simpa using applies) (List.find?_eq_none.mp first perm mem)
  | some found =>
    have applies' : found.Applies r := by simpa using List.find?_some first
    simpa using (all found (List.mem_of_find?_eq_some first) applies').2

theorem hasPermission_suffices {role : Role} {r : Request}
    (granted : role.hasPermission r.resource r.action r.level = true) :
    ∃ perm ∈ role.permissions, perm.Suffices r := by
  unfold Role.hasPermission at granted
  rw [scanPermissions_eq] at granted
  obtain ⟨perm, first, level⟩ := (Option.any_eq_true _ _).mp granted
  exact ⟨perm, List.mem_of_find?_eq_some first, by simpa using List.find?_some first,
    by simpa using level⟩

/-- The order that asks the permissions that apply and do not suffice first. -/
def Role.adverse (role : Role) (r : Request) : Role :=
  { role with
    permissions := role.permissions.front fun perm => perm.Applies r ∧ ¬r.level ≤ perm.level }

theorem uniform_of_adverse {role : Role} {r : Request}
    (granted : (role.adverse r).hasPermission r.resource r.action r.level = true) :
    role.Uniform r := by
  obtain ⟨perm, mem, applies, level⟩ := hasPermission_suffices granted
  refine ⟨⟨perm, (role.permissions.same_front _ perm).mpr mem, applies⟩, ?_⟩
  intro other mem' applies'
  by_contra insufficient
  have low : ¬r.level ≤ other.level := fun high => insufficient ⟨applies', high⟩
  unfold Role.hasPermission at granted
  rw [scanPermissions_eq, Role.adverse, PySet.front, List.find?_append] at granted
  cases first : (role.permissions.items.filter fun perm =>
      decide (perm.Applies r ∧ ¬r.level ≤ perm.level)).find? fun perm => perm.Applies r with
  | none =>
    have absent := List.find?_eq_none.mp first other
      (List.mem_filter.mpr ⟨mem', by simpa using ⟨applies', low⟩⟩)
    apply absent
    simpa using applies'
  | some found =>
    have unfit := (List.mem_filter.mp (List.mem_of_find?_eq_some first)).2
    simp only [first, Option.some_or, Option.any_some, decide_eq_true_eq] at granted unfit
    exact unfit.2 granted

theorem uniform_of_none {role : Role} {r : Request} (none : r.level = .none) :
    role.Uniform r ↔ ∃ perm ∈ role.permissions, perm.Applies r := by
  refine ⟨fun uniform => uniform.1, fun applies => ⟨applies, fun perm _ applies => ⟨applies, ?_⟩⟩⟩
  rw [none]
  exact Nat.zero_le _

/-- A role that has it as well answers no when it happens to be asked first. -/
def Request.hiding (r : Request) : Permission := ⟨r.resource, "*", .none⟩

theorem not_uniform_of_hiding {role : Role} {r : Request} (level : r.level ≠ .none)
    (mem : r.hiding ∈ role.permissions) : ¬role.Uniform r := by
  intro uniform
  have low : r.level ≤ PermissionLevel.none := (uniform.2 _ mem ⟨rfl, .inl rfl⟩).2
  apply level
  cases named : r.level <;> rw [named] at low <;> first | rfl | exact absurd low (by decide)

/-! ### All roles of a user -/

/-- The same manager, its sets of roles and permissions iterated in whatever order. -/
structure Reordered (m m' : AccessControlManager) : Prop where
  users : ∀ userId, Option.Rel
    (fun u u' => u' = { u with roles := u'.roles } ∧ u.roles.Same u'.roles)
    (m.users.get? userId) (m'.users.get? userId)
  roles : ∀ name, Option.Rel
    (fun role role' => role' = { role with permissions := role'.permissions } ∧
      role.permissions.Same role'.permissions)
    (m.roles.get? name) (m'.roles.get? name)

namespace AccessControlManager

/-- Some permission of the user suffices. -/
def Entitled (m : AccessControlManager) (userId : String) (r : Request) : Prop :=
  ∃ perm ∈ m.getUserPermissions userId, perm.Suffices r

def HasUniformRole (m : AccessControlManager) (userId : String) (r : Request) : Prop :=
  ∃ user, m.getUser userId = some user ∧
    ∃ name ∈ user.roles, ∃ role, m.getRole name = some role ∧ role.Uniform r

variable {m m' : AccessControlManager} {userId : String} {user : User} {r : Request}

theorem mem_getUserPermissions (found : m.getUser userId = some user) {perm : Permission} :
    perm ∈ m.getUserPermissions userId ↔
      ∃ name ∈ user.roles, ∃ role, m.getRole name = some role ∧ perm ∈ role.permissions := by
  unfold getUserPermissions
  rw [found]
  refine (PySet.mem_foldl (P := fun name perm => ∃ role, m.getRole name = some role ∧
    perm ∈ role.permissions) ?_ .empty user.roles.items perm).trans (by simp)
  intro permissions name perm
  cases known : m.getRole name with
  | none => simp
  | some role => simp

theorem checkPermission_iff {env : Env} {now : Time} (found : m.getUser userId = some user)
    (active : user.isActive = true) (unlocked : user.isLocked now = false) :
    m.checkPermission env now userId r.resource r.action r.level none = .ok true ↔
      ∃ name ∈ user.roles, ∃ role, m.getRole name = some role ∧
        role.hasPermission r.resource r.action r.level = true := by
  simp only [checkPermission, found, active, unlocked, Bool.true_eq_false, Bool.false_eq_true,
    or_self, if_false]
  split
  · rename_i granted
    simp only [true_iff]
    obtain ⟨name, mem, role⟩ := List.any_eq_true.mp granted
    obtain ⟨role, known, has⟩ := (Option.any_eq_true _ _).mp role
    exact ⟨name, mem, role, known, has⟩
  · rename_i denied
    simp only [Except.ok.injEq, Bool.false_eq_true, false_iff]
    rintro ⟨name, mem, role, known, has⟩
    exact denied (List.any_eq_true.mpr ⟨name, mem, by simp [known, has]⟩)

def adverse (m : AccessControlManager) (r : Request) : AccessControlManager :=
  { m with roles := m.roles.map fun role => role.adverse r }

theorem reordered_adverse (m : AccessControlManager) (r : Request) : Reordered m (m.adverse r) where
  users userId := by
    show Option.Rel _ (m.users.get? userId) (m.users.get? userId)
    cases m.users.get? userId with
    | none => exact .none
    | some u => exact .some ⟨rfl, PySet.Same.refl _⟩
  roles name := by
    unfold adverse
    rw [Dict.get?_map]
    cases m.roles.get? name with
    | none => exact .none
    | some role => exact .some ⟨rfl, PySet.same_front _ _⟩

theorem rel_left {α β : Type*} {R : α → β → Prop} {a : Option α} {b : Option β} {x : α}
    (related : Option.Rel R a b) (left : a = some x) : ∃ y, b = some y ∧ R x y := by
  subst left
  cases related with
  | some holds => exact ⟨_, rfl, holds⟩

theorem rel_right {α β : Type*} {R : α → β → Prop} {a : Option α} {b : Option β} {y : β}
    (related : Option.Rel R a b) (right : b = some y) : ∃ x, a = some x ∧ R x y := by
  subst right
  cases related with
  | some holds => exact ⟨_, rfl, holds⟩

theorem uniform_same {role role' : Role} (same : role.permissions.Same role'.permissions)
    (uniform : role.Uniform r) : role'.Uniform r := by
  obtain ⟨⟨perm, mem, applies⟩, all⟩ := uniform
  exact ⟨⟨perm, (same perm).mp mem, applies⟩, fun other mem' => all other ((same other).mpr mem')⟩

theorem checkPermission_of_uniform {env : Env} {now : Time} (found : m.getUser userId = some user)
    (active : user.isActive = true) (unlocked : user.isLocked now = false)
    (uniform : m.HasUniformRole userId r) (same : Reordered m m') :
    m'.checkPermission env now userId r.resource r.action r.level none = .ok true := by
  obtain ⟨user₀, found₀, name, mem, role, known, uniform⟩ := uniform
  obtain rfl := Option.some.inj (found.symm.trans found₀)
  obtain ⟨user', found', record, roles⟩ := rel_left (same.users userId) found
  obtain ⟨role', known', -, permissions⟩ := rel_left (same.roles name) known
  have active' : user'.isActive = true := by rw [record]; exact active
  have unlocked' : user'.isLocked now = false := by rw [record]; exact unlocked
  exact (checkPermission_iff found' active' unlocked').mpr
    ⟨name, (roles name).mp mem, role', known',
      hasPermission_of_uniform (uniform_same permissions uniform)⟩

theorem entitled_of_checkPermission {env : Env} {now : Time} (found : m.getUser userId = some user)
    (active : user.isActive = true) (unlocked : user.isLocked now = false) (same : Reordered m m')
    (granted : m'.checkPermission env now userId r.resource r.action r.level none = .ok true) :
    m.Entitled userId r := by
  obtain ⟨user', found', record, roles⟩ := rel_left (same.users userId) found
  have active' : user'.isActive = true := by rw [record]; exact active
  have unlocked' : user'.isLocked now = false := by rw [record]; exact unlocked
  obtain ⟨name, mem, role', known', has⟩ := (checkPermission_iff found' active' unlocked').mp granted
  obtain ⟨role, known, -, permissions⟩ := rel_right (same.roles name) known'
  obtain ⟨perm, mem', suffices'⟩ := hasPermission_suffices has
  exact ⟨perm, (mem_getUserPermissions found).mpr
    ⟨name, (roles name).mpr mem, role, known, (permissions perm).mpr mem'⟩, suffices'⟩

theorem reordered_refl (m : AccessControlManager) : Reordered m m where
  users userId := by
    cases m.users.get? userId with
    | none => exact .none
    | some user => exact .some ⟨rfl, PySet.Same.refl _⟩
  roles name := by
    cases m.roles.get? name with
    | none => exact .none
    | some role => exact .some ⟨rfl, PySet.Same.refl _⟩

theorem uniformRole_of_granted {env : Env} {now : Time} (found : m.getUser userId = some user)
    (active : user.isActive = true) (unlocked : user.isLocked now = false)
    (granted : ∀ m', Reordered m m' →
      m'.checkPermission env now userId r.resource r.action r.level none = .ok true) :
    m.HasUniformRole userId r := by
  obtain ⟨name, mem, role', known', has⟩ := (checkPermission_iff (m := m.adverse r) found active
    unlocked).mp (granted _ (reordered_adverse m r))
  unfold AccessControlManager.getRole at known'
  rw [adverse, Dict.get?_map, Option.map_eq_some_iff] at known'
  obtain ⟨role, known, rfl⟩ := known'
  exact ⟨user, found, name, mem, role, known, uniform_of_adverse has⟩

theorem exact_in_every_order_iff {env : Env} {now : Time} (found : m.getUser userId = some user)
    (active : user.isActive = true) (unlocked : user.isLocked now = false) :
    (∀ m', Reordered m m' →
      (m'.checkPermission env now userId r.resource r.action r.level none = .ok true ↔
        m.Entitled userId r)) ↔
      (m.Entitled userId r → m.HasUniformRole userId r) := by
  constructor
  · intro exact_answer entitled
    exact uniformRole_of_granted found active unlocked fun m' same => (exact_answer m' same).mpr entitled
  · intro uniform m' same
    exact ⟨entitled_of_checkPermission found active unlocked same,
      fun entitled => checkPermission_of_uniform found active unlocked (uniform entitled) same⟩

/-! ### Granting more -/

inductive Grant where
  | permission (roleName : String) (perm : Permission)
  | role (userId roleName : String)

def grant (m : AccessControlManager) : Grant → AccessControlManager
  | .permission roleName perm => ((modifyRole roleName (·.addPermission perm)).run m).2
  | .role userId roleName => ((assignRole userId roleName).run m).2

/-- Two roles of the user would each do on their own. -/
def HasSpareRole (m : AccessControlManager) (userId : String) (r : Request) : Prop :=
  ∃ user, m.getUser userId = some user ∧ ∃ name ∈ user.roles, ∃ other ∈ user.roles, name ≠ other ∧
    (∃ role, m.getRole name = some role ∧ role.Uniform r) ∧
    ∃ role, m.getRole other = some role ∧ role.Uniform r

/-- Some granted permission suffices, in every order of the sets, and a grant takes nothing away. -/
structure MeansSuffices (env : Env) (now : Time) (m : AccessControlManager) (userId : String)
    (r : Request) : Prop where
  exact : ∀ m', Reordered m m' →
    (m'.checkPermission env now userId r.resource r.action r.level none = .ok true ↔
      m.Entitled userId r)
  kept : ∀ m' g m'', Reordered m m' →
    m'.checkPermission env now userId r.resource r.action r.level none = .ok true →
    Reordered (m'.grant g) m'' →
    m''.checkPermission env now userId r.resource r.action r.level none = .ok true

theorem grant_permission (m : AccessControlManager) (roleName : String) (perm : Permission) :
    m.grant (.permission roleName perm) = m.withRole roleName (·.addPermission perm) := rfl

theorem grant_role (m : AccessControlManager) (userId roleName : String) :
    m.grant (.role userId roleName) = m ∨ m.grant (.role userId roleName) =
      m.withUser userId fun user => { user with roles := user.roles.add roleName } := by
  simp only [grant, assignRole, Method.run_bind, Method.run_read, Method.run_check, run_modifyUser]
  cases m.getUser userId with
  | none => exact .inl rfl
  | some user =>
    cases m.getRole roleName with
    | none => exact .inl rfl
    | some role => exact .inr rfl

theorem getUser_grant (found : m.getUser userId = some user) (g : Grant) :
    ∃ roles, (m.grant g).getUser userId = some { user with roles } ∧
      ∀ name ∈ user.roles, name ∈ roles := by
  cases g with
  | permission roleName perm =>
    rw [grant_permission, withRole_getUser]
    exact ⟨_, found, fun _ mem => mem⟩
  | role granted roleName =>
    obtain same | added := grant_role m granted roleName
    · rw [same]
      exact ⟨_, found, fun _ mem => mem⟩
    · rw [added, withUser_getUser, found]
      by_cases self : granted = userId
      · rw [if_pos self]
        exact ⟨_, rfl, fun name mem => PySet.mem_add.mpr (.inr mem)⟩
      · rw [if_neg self]
        exact ⟨_, rfl, fun _ mem => mem⟩

theorem getRole_grant {name : String} {role : Role} (known : m.getRole name = some role)
    (g : Grant) : ∃ permissions, (m.grant g).getRole name = some { role with permissions } ∧
      (∀ perm ∈ role.permissions, perm ∈ permissions) ∧
      ((∀ perm, g ≠ .permission name perm) → permissions = role.permissions) := by
  cases g with
  | permission roleName perm =>
    rw [grant_permission, withRole_getRole, known]
    by_cases same : roleName = name
    · subst same
      rw [if_pos rfl]
      exact ⟨_, rfl, fun other mem => PySet.mem_add.mpr (.inr mem),
        fun elsewhere => absurd rfl (elsewhere perm)⟩
    · rw [if_neg same]
      exact ⟨_, rfl, fun _ mem => mem, fun _ => rfl⟩
  | role granted roleName =>
    have unchanged : (m.grant (.role granted roleName)).getRole name = some role := by
      obtain same | added := grant_role m granted roleName
      · rw [same, known]
      · rw [added, withUser_getRole, known]
    exact ⟨_, unchanged, fun _ mem => mem, fun _ => rfl⟩

/-- A grant spoils one role at most. -/
theorem uniformRole_of_spareRole (spare : m.HasSpareRole userId r) (g : Grant) :
    (m.grant g).HasUniformRole userId r := by
  obtain ⟨user, found, name, mem, other, mem', distinct, one, two⟩ := spare
  obtain ⟨roles, found', kept⟩ := getUser_grant found g
  have survives : ∀ name ∈ user.roles, (∀ perm, g ≠ .permission name perm) →
      (∃ role, m.getRole name = some role ∧ role.Uniform r) →
      (m.grant g).HasUniformRole userId r := by
    rintro name mem elsewhere ⟨role, known, uniform⟩
    obtain ⟨permissions, known', -, same⟩ := getRole_grant known g
    refine ⟨_, found', name, kept name mem, _, known', ?_⟩
    rw [same elsewhere]
    exact uniform
  by_cases spoilt : ∃ perm, g = .permission name perm
  · obtain ⟨perm, rfl⟩ := spoilt
    refine survives other mem' (fun perm' same => ?_) two
    injection same with same
    exact distinct same
  · exact survives name mem (fun perm same => spoilt ⟨perm, same⟩) one

theorem uniformRole_of_none (none : r.level = .none) (uniform : m.HasUniformRole userId r)
    (g : Grant) : (m.grant g).HasUniformRole userId r := by
  obtain ⟨user, found, name, mem, role, known, uniform⟩ := uniform
  obtain ⟨⟨perm, mem', applies⟩, -⟩ := uniform
  obtain ⟨roles, found', kept⟩ := getUser_grant found g
  obtain ⟨permissions, known', grown, -⟩ := getRole_grant known g
  exact ⟨_, found', name, kept name mem, _, known',
    (uniform_of_none none).mpr ⟨perm, grown perm mem', applies⟩⟩

theorem uniformRole_of_entitled (found : m.getUser userId = some user) (none : r.level = .none)
    (entitled : m.Entitled userId r) : m.HasUniformRole userId r := by
  obtain ⟨perm, mem, suffices'⟩ := entitled
  obtain ⟨name, mem', role, known, has⟩ := (mem_getUserPermissions found).mp mem
  exact ⟨user, found, name, mem', role, known,
    (uniform_of_none none).mpr ⟨perm, has, suffices'.1⟩⟩

theorem HasSpareRole.uniformRole (spare : m.HasSpareRole userId r) :
    m.HasUniformRole userId r := by
  obtain ⟨user, found, name, mem, -, -, -, role, -⟩ := spare
  exact ⟨user, found, name, mem, role⟩

theorem uniformRole_same (uniform : m.HasUniformRole userId r) (same : Reordered m m') :
    m'.HasUniformRole userId r := by
  obtain ⟨user, found, name, mem, role, known, uniform⟩ := uniform
  obtain ⟨user', found', -, roles⟩ := rel_left (same.users userId) found
  obtain ⟨role', known', -, permissions⟩ := rel_left (same.roles name) known
  exact ⟨user', found', name, (roles name).mp mem, role', known', uniform_same permissions uniform⟩

theorem spareRole_same (spare : m.HasSpareRole userId r) (same : Reordered m m') :
    m'.HasSpareRole userId r := by
  obtain ⟨user, found, name, mem, other, mem', distinct, one, two⟩ := spare
  obtain ⟨user', found', -, roles⟩ := rel_left (same.users userId) found
  have still : ∀ name, (∃ role, m.getRole name = some role ∧ role.Uniform r) →
      ∃ role, m'.getRole name = some role ∧ role.Uniform r := by
    rintro name ⟨role, known, uniform⟩
    obtain ⟨role', known', -, permissions⟩ := rel_left (same.roles name) known
    exact ⟨role', known', uniform_same permissions uniform⟩
  exact ⟨user', found', name, (roles name).mp mem, other, (roles other).mp mem', distinct,
    still name one, still other two⟩

/-- Hiding one role that would do leaves another exactly when there were two. -/
theorem spareRole_of_hidden {name : String} {role : Role} (found : m.getUser userId = some user)
    (mem : name ∈ user.roles) (known : m.getRole name = some role) (uniform : role.Uniform r)
    (level : r.level ≠ .none)
    (left : (m.grant (.permission name r.hiding)).HasUniformRole userId r) :
    m.HasSpareRole userId r := by
  obtain ⟨user', found', other, mem', role', known', uniform'⟩ := left
  rw [grant_permission, withRole_getUser, found, Option.some.injEq] at found'
  subst found'
  rw [grant_permission, withRole_getRole] at known'
  by_cases same : name = other
  · rw [if_pos same, Option.map_eq_some_iff] at known'
    obtain ⟨hidden, -, rfl⟩ := known'
    exact absurd uniform' (not_uniform_of_hiding level (PySet.mem_add.mpr (.inl rfl)))
  · rw [if_neg same] at known'
    exact ⟨user, found, name, mem, other, mem', same, ⟨role, known, uniform⟩, role', known', uniform'⟩

/-- Checks mean that some permission suffices exactly when a user who has one that does has two
roles whose permissions that apply all suffice, or asks for the level that all have. -/
theorem check_permission_iff_in_every_order {env : Env} {now : Time}
    (found : m.getUser userId = some user) (active : user.isActive = true)
    (unlocked : user.isLocked now = false) (r : Request) :
    m.MeansSuffices env now userId r ↔
      (m.Entitled userId r → r.level = .none ∨ m.HasSpareRole userId r) := by
  constructor
  · intro means entitled
    by_cases level : r.level = .none
    · exact .inl level
    obtain ⟨user₀, found₀, name, mem, role, known, uniform⟩ :=
      (exact_in_every_order_iff found active unlocked).mp means.exact entitled
    obtain rfl := Option.some.inj (found.symm.trans found₀)
    have granted := (means.exact m (reordered_refl m)).mpr entitled
    obtain ⟨roles, found', -⟩ := getUser_grant found (.permission name r.hiding)
    have left := uniformRole_of_granted found' active unlocked fun m'' =>
      means.kept m _ m'' (reordered_refl m) granted
    exact .inr (spareRole_of_hidden found mem known uniform level left)
  · intro spare
    refine ⟨(exact_in_every_order_iff found active unlocked).mpr fun entitled => ?_, ?_⟩
    · obtain level | spare := spare entitled
      · exact uniformRole_of_entitled found level entitled
      · exact spare.uniformRole
    · intro m' g m'' same granted same'
      have entitled := entitled_of_checkPermission found active unlocked same granted
      obtain ⟨user', found₁, record, -⟩ := rel_left (same.users userId) found
      obtain ⟨roles, found₂, -⟩ := getUser_grant found₁ g
      have active' : user'.isActive = true := by rw [record]; exact active
      have unlocked' : user'.isLocked now = false := by rw [record]; exact unlocked
      refine checkPermission_of_uniform found₂ active' unlocked' ?_ same'
      obtain level | spare := spare entitled
      · exact uniformRole_of_none level
          (uniformRole_same (uniformRole_of_entitled found level entitled) same) g
      · exact uniformRole_of_spareRole (spareRole_same spare same) g

/-- Ann's role reads every API key and writes some; reading is asked first. -/
def deskManager : AccessControlManager :=
  let setup : M Unit := do
    let _ ← createUser 0 "ann" "Ann" "ann@example.org" .empty
    let _ ← createRole sampleEnv 0 "desk" "API keys" .empty
    modifyRole "desk" (·.addPermission ⟨.apiKeys, "write", .write⟩)
    modifyRole "desk" (·.addPermission ⟨.apiKeys, "*", .read⟩)
    assignRole "ann" "desk"
  (setup.run (new sampleEnv 0)).2

theorem deskManager_user : ∃ user, deskManager.getUser "ann" = some user ∧ user.isActive = true ∧
    user.isLocked 1 = false := by
  have present : (deskManager.getUser "ann").any
      (fun user => user.isActive && !user.isLocked 1) = true := by decide +kernel
  obtain ⟨user, found, standing⟩ := (Option.any_eq_true _ _).mp present
  simp only [Bool.and_eq_true, Bool.not_eq_true'] at standing
  exact ⟨user, found, standing⟩

theorem deskManager_reads :
    deskManager.MeansSuffices sampleEnv 1 "ann" ⟨.apiKeys, "read", .read⟩ ↔
      (deskManager.Entitled "ann" ⟨.apiKeys, "read", .read⟩ →
        PermissionLevel.read = .none ∨
          deskManager.HasSpareRole "ann" ⟨.apiKeys, "read", .read⟩) := by
  obtain ⟨user, found, active, unlocked⟩ := deskManager_user
  exact check_permission_iff_in_every_order found active unlocked ⟨.apiKeys, "read", .read⟩

theorem deskManager_denies_write :
    ¬∀ (m : AccessControlManager) userId user, m.getUser userId = some user →
      user.isActive = true → user.isLocked 1 = false → ∀ r : Request,
      (m.checkPermission sampleEnv 1 userId r.resource r.action r.level none = .ok true ↔
        m.Entitled userId r) := by
  intro exact_answer
  obtain ⟨user, found, active, unlocked⟩ := deskManager_user
  have answer := exact_answer _ _ user found active unlocked ⟨.apiKeys, "write", .write⟩
  have entitled : deskManager.Entitled "ann" ⟨.apiKeys, "write", .write⟩ :=
    ⟨⟨.apiKeys, "write", .write⟩, by decide +kernel, by decide, by decide⟩
  have denied : deskManager.checkPermission sampleEnv 1 "ann" .apiKeys "write" .write none =
      .ok false := by decide +kernel
  exact absurd (denied.symm.trans (answer.mpr entitled)) (by decide)

end AccessControlManager

end BtApiSecurity.Access
