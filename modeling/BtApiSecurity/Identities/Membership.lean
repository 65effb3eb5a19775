import BtApiSecurity.Identities.Manager
import BtApiSecurity.Machine

/-!
# Who belongs to which group

Membership is kept three times: with the group, in a table by identity, and in a
field of the identity that no operation writes.
-/

namespace BtApiSecurity.Identities
open Py Machine

/-- `uuid4` returns no id twice, and none of the ids of the default groups. -/
structure Env.Unique (env : Env) : Prop where
  distinct : Function.Injective env.uuid4
  apart : ∀ n, env.uuid4 n ∉ ["traders", "administrators", "auditors"]

namespace IdentityManager

variable {env : Env} {s : IdentityManager} {i g : String}

abbrev Event := Machine.Entry IdentityManager Input (Except IdentityError Reply)

structure TablesAgree (s : IdentityManager) : Prop where
  agree : ∀ i g, g ∈ s.getUserGroups i ↔ i ∈ s.getGroupMembers g
  exist : ∀ i g, i ∈ s.getGroupMembers g →
    (s.identities.get? i).isSome = true ∧ (s.groups.get? g).isSome = true

structure OneTruth (s : IdentityManager) : Prop extends TablesAgree s where
  field : ∀ i g identity, s.identities.get? i = some identity →
    (g ∈ identity.groups ↔ i ∈ s.getGroupMembers g)

/-- The call adds an identity that exists to a group that exists. -/
def Adds (e : Event) : Prop :=
  ∃ i g, e.input.call = .addUserToGroup i g ∧ (e.pre.identities.get? i).isSome = true ∧
    (e.pre.groups.get? g).isSome = true

/-! ### How an authentication ends -/

/-- What authentication asks of the identity that it found. -/
def credentials (env : Env) (s : IdentityManager) (identity : Identity) (username password : String) :
    IdentityProvider → Except IdentityError Bool
  | .local => s.verifyPassword env identity.identityId password
  | .ldap => .ok (s.authenticateLdap username)
  | _ => .ok false

/-- The entry that authentication looks at. -/
def named (s : IdentityManager) (username : String) (provider : IdentityProvider) : Option (String × Identity) :=
  s.identities.entries.find? fun (_, i) => i.username = username && i.provider = provider

/-- The ways in which an authentication can end. -/
inductive Authenticated (env : Env) (s : IdentityManager) (now : Time) (username password : String)
    (provider : IdentityProvider) (t : IdentityManager) (reply : Except IdentityError (Option Identity)) :
    Prop
  | refused (unverified : ∀ key identity, s.named username provider = some (key, identity) →
        identity.status = .active → s.credentials env identity username password provider ≠ .ok true)
      (state : t = s) (nobody : ∀ j, reply ≠ .ok (some j))
  | returned (key : String) (identity : Identity) (first : s.named username provider = some (key, identity))
      (found : s.identities.get? key = some identity) (active : identity.status = .active)
      (verified : s.credentials env identity username password provider = .ok true)
      (state : t = { s with identities := s.identities.set key { identity with lastLogin := some now } })
      (returns : reply = .ok (some { identity with lastLogin := some now }))

theorem authenticated (env : Env) (s : IdentityManager) (now : Time) (username password : String)
    (provider : IdentityProvider) :
    Authenticated env s now username password provider
      ((authenticateUser env now username password provider).run s).2
      ((authenticateUser env now username password provider).run s).1 := by
  simp only [authenticateUser, Method.run_bind, Method.run_read]
  cases first : s.named username provider with
  | none =>
    rw [named] at first
    rw [first]
    exact .refused (by rw [named, first]; intro key identity same; cases same) rfl
      (by intro j same; cases same)
  | some entry =>
    obtain ⟨key, identity⟩ := entry
    have found := (Dict.mem_entries _).mp (List.mem_of_find?_eq_some first)
    have unverified : (identity.status = .active →
          s.credentials env identity username password provider ≠ .ok true) →
        ∀ key identity, s.named username provider = some (key, identity) → identity.status = .active →
          s.credentials env identity username password provider ≠ .ok true := by
      intro fails key' identity' same
      obtain ⟨-, rfl⟩ := Prod.mk.inj (Option.some.inj (first.symm.trans same))
      exact fails
    have checked : ∀ verified, s.credentials env identity username password provider = .ok verified →
        identity.status = .active →
        let ends := (if verified then do
            storeIdentity key { identity with lastLogin := some now }
            return some { identity with lastLogin := some now }
          else return none : M (Option Identity)).run s
        Authenticated env s now username password provider ends.2 ends.1 := by
      intro verified credentials active
      cases verified with
      | false =>
        refine .refused (unverified fun _ => ?_) rfl (by intro j same; cases same)
        rw [credentials]
        intro same
        cases same
      | true => exact .returned key identity first found active credentials rfl rfl
    rw [named] at first
    rw [first]
    by_cases active : identity.status = .active
    · simp only [if_neg (not_not_intro active)]
      cases provider with
      | «local» =>
        simp only [Method.run_bind, Method.run_check]
        cases answer : s.verifyPassword env identity.identityId password with
        | error e =>
          refine .refused (unverified fun _ => ?_) rfl (by intro j same; cases same)
          rw [credentials, answer]
          intro same
          cases same
        | ok verified => exact checked verified answer active
      | ldap => exact checked _ rfl active
      | _ => exact checked false rfl active
    · simp only [if_pos active]
      exact .refused (unverified fun here => absurd here active) rfl (by intro j same; cases same)

theorem returns_iff {now : Time} {username password : String} {provider : IdentityProvider} {j : Identity} :
    (step env s ⟨now, .authenticateUser username password provider⟩).2 = .ok (.found (some j)) ↔
      ∃ key identity, s.named username provider = some (key, identity) ∧ identity.status = .active ∧
        s.credentials env identity username password provider = .ok true ∧
        j = { identity with lastLogin := some now } := by
  simp only [step, perform, Method.run_map]
  have ends := authenticated env s now username password provider
  generalize (authenticateUser env now username password provider).run s = final at ends ⊢
  obtain ⟨reply, t⟩ := final
  constructor
  · intro logs_in
    cases ends with
    | refused unverified state nobody =>
      cases reply with
      | error e => cases logs_in
      | ok j' =>
        obtain rfl : j' = some j := Reply.found.inj (Except.ok.inj logs_in)
        exact absurd rfl (nobody j)
    | returned key identity first found active verified state returns =>
      subst returns
      exact ⟨key, identity, first, active, verified,
        (Option.some.inj (Reply.found.inj (Except.ok.inj logs_in))).symm⟩
  · intro logs_in
    obtain ⟨key, identity, first, active, verified, rfl⟩ := logs_in
    cases ends with
    | refused unverified state nobody => exact absurd verified (unverified key identity first active)
    | returned key' identity' first' found active' verified' state returns =>
      obtain ⟨-, rfl⟩ := Prod.mk.inj (Option.some.inj (first.symm.trans first'))
      subst returns
      rfl

/-! ### One step -/

/-- The identities have the `groups` fields they had. -/
def SameFields (s t : IdentityManager) : Prop :=
  ∀ id, (t.identities.get? id).map (·.groups) = (s.identities.get? id).map (·.groups)

def toggle (add : Bool) (xs : PySet String) (x : String) : PySet String :=
  if add then xs.add x else xs.discard x

def changed (s : IdentityManager) (add : Bool) (i g : String) (group : Group)
    (groups : PySet String) : IdentityManager :=
  { s with
    groups := s.groups.set g { group with members := toggle add group.members i }
    userGroups := s.userGroups.set i (toggle add groups g) }

/-- What a step does to the three records of membership. -/
inductive Effect (env : Env) (s : IdentityManager) (call : Call) (t : IdentityManager) : Prop
  | kept (fields : SameFields s t) (groups : t.groups = s.groups)
      (userGroups : t.userGroups = s.userGroups) (drawn : s.drawn ≤ t.drawn)
  | created (fields : ∀ id, (t.identities.get? id).map (·.groups) =
        if env.uuid4 s.drawn = id then some .empty else (s.identities.get? id).map (·.groups))
      (groups : t.groups = s.groups)
      (userGroups : t.userGroups = s.userGroups.set (env.uuid4 s.drawn) .empty)
      (drawn : s.drawn < t.drawn)
  | grouped (group : Group) (members : group.members = .empty)
      (shape : t = { s with groups := s.groups.set (env.uuid4 s.drawn) group, drawn := s.drawn + 1 })
  | changed (add : Bool) (i g : String)
      (is_call : call = if add then .addUserToGroup i g else .removeUserFromGroup i g)
      (identity : (s.identities.get? i).isSome = true) (group : Group)
      (found : s.groups.get? g = some group) (groups : PySet String)
      (tracked : s.userGroups.get? i = some groups) (shape : t = s.changed add i g group groups)
  | untracked (i : String) (identity : (s.identities.get? i).isSome = true)
      (absent : s.userGroups.get? i = none)

theorem mem_toggle {add : Bool} {xs : PySet String} {x y : String} :
    y ∈ toggle add xs x ↔ if y = x then add = true else y ∈ xs := by
  cases add with
  | true =>
    show y ∈ xs.add x ↔ _
    rw [PySet.mem_add]
    split
    · simp [*]
    · simp [*]
  | false =>
    show y ∈ xs.discard x ↔ _
    rw [PySet.mem_discard]
    split
    · simp [*]
    · simp [*]

theorem sameFields_refl (s : IdentityManager) : SameFields s s := fun _ => rfl

theorem sameFields_set {identity new : Identity} (found : s.identities.get? i = some identity)
    (same : new.groups = identity.groups) :
    SameFields s { s with identities := s.identities.set i new } := by
  intro id
  show ((s.identities.set i new).get? id).map (·.groups) = _
  rw [Dict.get?_set]
  split
  · rename_i here
    rw [← here, found]
    exact congrArg some same
  · rfl

theorem effect_modifyIdentity {call : Call} {f : Identity → Identity}
    (same : ∀ identity, (f identity).groups = identity.groups) :
    Effect env s call ((modifyIdentity i f).run s).2 := by
  simp only [modifyIdentity, Method.run_bind, Method.run_read]
  cases found : s.identities.get? i with
  | none => exact .kept (sameFields_refl s) rfl rfl (Nat.le_refl _)
  | some identity => exact .kept (sameFields_set found (same identity)) rfl rfl (Nat.le_refl _)

theorem identities_changeMembership (change : PySet String → String → PySet String) (id g : String) :
    ((changeMembership change id g).run s).2.identities = s.identities := by
  simp only [changeMembership, Method.run_bind, Method.run_read]
  split
  · simp only [Method.run_bind, Method.run_update, Method.run_check]
    cases s.userGroups.get? id with
    | none => rfl
    | some groups => rfl
  · rfl

theorem effect_changeMembership {call : Call} (add : Bool)
    (is_call : call = if add then .addUserToGroup i g else .removeUserFromGroup i g) :
    Effect env s call ((changeMembership (toggle add) i g).run s).2 := by
  simp only [changeMembership, Method.run_bind, Method.run_read]
  cases identity : s.identities.get? i with
  | none => exact .kept (sameFields_refl s) rfl rfl (Nat.le_refl _)
  | some _ =>
    cases found : s.groups.get? g with
    | none => exact .kept (sameFields_refl s) rfl rfl (Nat.le_refl _)
    | some group =>
      simp only [Method.run_bind, Method.run_update, Method.run_check]
      cases tracked : s.userGroups.get? i with
      | none => exact .untracked i (by rw [identity]; rfl) tracked
      | some groups =>
        exact .changed add i g is_call (by rw [identity]; rfl) group found groups tracked rfl

theorem hashPassword_drawn (env : Env) (s : IdentityManager) (password : String) :
    ∃ result drawn, s.drawn ≤ drawn ∧
      (hashPassword env password).run s = (result, { s with drawn }) := by
  simp only [hashPassword, draw, Method.run_bind, Method.run_check, Method.run_read,
    Method.run_update, Method.run_pure]
  cases ensure (env.bcryptAvailable = true) (IdentityError.importError _) with
  | error e => exact ⟨_, s.drawn, Nat.le_refl _, rfl⟩
  | ok _ => exact ⟨_, s.drawn + 1, Nat.le_succ _, rfl⟩

theorem effect_createIdentity {call : Call} {now : Time} {username email fullName : String}
    {password : Option String} {provider : IdentityProvider} {attributes : Dict String Attribute} :
    Effect env s call
      ((createIdentity env now username email fullName password provider attributes).run s).2 := by
  have fields : ∀ (identity : Identity), identity.groups = .empty → ∀ id,
      ((s.identities.set (env.uuid4 s.drawn) identity).get? id).map (·.groups) =
        if env.uuid4 s.drawn = id then some .empty else (s.identities.get? id).map (·.groups) := by
    intro identity empty id
    rw [Dict.get?_set]
    split
    · exact congrArg some empty
    · rfl
  simp only [createIdentity, draw, Method.run_bind, Method.run_read, Method.run_update,
    Method.run_pure]
  split
  · simp only [Method.run_bind]
    obtain ⟨result, drawn, later, run⟩ := hashPassword_drawn env
      { s with
        identities := s.identities.set (env.uuid4 s.drawn)
          { identityId := env.uuid4 s.drawn, username, email, fullName, provider, attributes
            createdAt := now }
        userGroups := s.userGroups.set (env.uuid4 s.drawn) .empty
        drawn := s.drawn + 1 } (password.getD "")
    rw [run]
    cases result with
    | error e => exact .created (fields _ rfl) rfl rfl later
    | ok hashed =>
      refine .created (fun id => ?_) rfl rfl later
      show (((s.identities.set (env.uuid4 s.drawn) _).set (env.uuid4 s.drawn) _).get? id).map _ = _
      rw [Dict.set_set]
      exact fields _ rfl id
  · exact .created (fields _ rfl) rfl rfl (Nat.lt_succ_self _)

theorem effect_authenticateUser {call : Call} {now : Time} {username password : String}
    {provider : IdentityProvider} :
    Effect env s call ((authenticateUser env now username password provider).run s).2 := by
  cases authenticated env s now username password provider with
  | refused unverified state nobody =>
    rw [state]
    exact .kept (sameFields_refl s) rfl rfl (Nat.le_refl _)
  | returned key identity first found active verified state returns =>
    rw [state]
    exact .kept (sameFields_set found rfl) rfl rfl (Nat.le_refl _)

theorem step_effect (env : Env) (s : IdentityManager) (input : Input) :
    Effect env s input.call (step env s input).1 := by
  obtain ⟨now, call⟩ := input
  show Effect env s call ((perform env now call).run s).2
  cases call with
  | createIdentity =>
    rw [perform, Method.run_map_snd]
    exact effect_createIdentity
  | authenticateUser =>
    rw [perform, Method.run_map_snd]
    exact effect_authenticateUser
  | createGroup name description parents => exact .grouped _ rfl rfl
  | addUserToGroup =>
    rw [perform, Method.run_map_snd]
    exact effect_changeMembership true rfl
  | removeUserFromGroup =>
    rw [perform, Method.run_map_snd]
    exact effect_changeMembership false rfl
  | suspendUser | activateUser | lockUser =>
    rw [perform, Method.run_map_snd]
    exact effect_modifyIdentity fun _ => rfl

/-! ### The two tables -/

theorem getUserGroups_set {t : IdentityManager} {groups : PySet String}
    (shape : t.userGroups = s.userGroups.set i groups) (id : String) :
    t.getUserGroups id = if i = id then groups else s.getUserGroups id := by
  unfold getUserGroups
  rw [shape, Dict.get?_set]
  split
  · rfl
  · rfl

theorem getGroupMembers_set {t : IdentityManager} {group : Group}
    (shape : t.groups = s.groups.set g group) (id : String) :
    t.getGroupMembers id = if g = id then group.members else s.getGroupMembers id := by
  unfold getGroupMembers
  rw [shape, Dict.get?_set]
  by_cases same : g = id
  · rw [if_pos same, if_pos same]
  · rw [if_neg same, if_neg same]

theorem getGroupMembers_same {t : IdentityManager} (groups : t.groups = s.groups) (id : String) :
    t.getGroupMembers id = s.getGroupMembers id := by
  unfold getGroupMembers
  rw [groups]

theorem isSome_of_fields {t : IdentityManager} (fields : SameFields s t) (id : String) :
    (t.identities.get? id).isSome = (s.identities.get? id).isSome := by
  have same := congrArg Option.isSome (fields id)
  rwa [Option.isSome_map, Option.isSome_map] at same

theorem agree_changed {add : Bool} {group : Group} {groups : PySet String} (inv : TablesAgree s)
    (identity : (s.identities.get? i).isSome = true) (found : s.groups.get? g = some group)
    (tracked : s.userGroups.get? i = some groups) : TablesAgree (s.changed add i g group groups) := by
  have groups_of : s.getUserGroups i = groups := by rw [getUserGroups, tracked]; rfl
  have members_of : s.getGroupMembers g = group.members := by rw [getGroupMembers, found]
  constructor
  · intro i' g'
    rw [getUserGroups_set (s := s) rfl, getGroupMembers_set (s := s) rfl]
    by_cases here : i = i'
    · subst here
      by_cases there : g = g'
      · subst there
        rw [if_pos rfl, if_pos rfl, mem_toggle, mem_toggle, if_pos rfl, if_pos rfl]
      · rw [if_pos rfl, if_neg there, mem_toggle, if_neg (Ne.symm there), ← groups_of]
        exact inv.agree i g'
    · by_cases there : g = g'
      · subst there
        rw [if_neg here, if_pos rfl, mem_toggle, if_neg (Ne.symm here), ← members_of]
        exact inv.agree i' g
      · rw [if_neg here, if_neg there]
        exact inv.agree i' g'
  · intro i' g' member
    rw [getGroupMembers_set (s := s) rfl] at member
    show (s.identities.get? i').isSome = true ∧ ((s.groups.set g _).get? g').isSome = true
    rw [Dict.get?_set]
    split at member
    · rename_i there
      rw [if_pos there]
      rw [mem_toggle] at member
      split at member
      · rename_i here
        exact ⟨here ▸ identity, rfl⟩
      · rw [← members_of] at member
        exact ⟨(inv.exist i' g member).1, rfl⟩
    · rename_i there
      rw [if_neg there]
      exact inv.exist i' g' member

/-- What every reachable manager satisfies. -/
structure Kept (env : Env) (s : IdentityManager) : Prop where
  tables : TablesAgree s
  tracked : ∀ i, (s.identities.get? i).isSome = true → (s.userGroups.get? i).isSome = true
  drawn : ∀ i, (s.identities.get? i).isSome = true → ∃ n < s.drawn, i = env.uuid4 n
  groups : ∀ g, (s.groups.get? g).isSome = true →
    g ∈ ["traders", "administrators", "auditors"] ∨ ∃ n < s.drawn, g = env.uuid4 n
  fields : ∀ i identity, s.identities.get? i = some identity → identity.groups = .empty

theorem fields_step {t : IdentityManager} (inv : Kept env s)
    (shape : ∀ id, (t.identities.get? id).map (·.groups) = some .empty ∨
      (t.identities.get? id).map (·.groups) = (s.identities.get? id).map (·.groups))
    {identity : Identity} (found : t.identities.get? i = some identity) : identity.groups = .empty := by
  have here := shape i
  rw [found] at here
  rcases here with empty | same
  · exact Option.some.inj empty
  · obtain ⟨old, before, groups⟩ := Option.map_eq_some_iff.mp same.symm
    exact groups.symm.trans (inv.fields i old before)

theorem kept_created {t : IdentityManager} (unique : env.Unique) (inv : Kept env s)
    (fields : ∀ id, (t.identities.get? id).map (·.groups) =
      if env.uuid4 s.drawn = id then some .empty else (s.identities.get? id).map (·.groups))
    (groups : t.groups = s.groups)
    (userGroups : t.userGroups = s.userGroups.set (env.uuid4 s.drawn) .empty)
    (later : s.drawn < t.drawn) : Kept env t := by
  have fresh : ¬(s.identities.get? (env.uuid4 s.drawn)).isSome = true := by
    intro present
    obtain ⟨n, before, same⟩ := inv.drawn _ present
    have equal := unique.distinct same
    omega
  have there : ∀ id, (t.identities.get? id).isSome = true ↔
      env.uuid4 s.drawn = id ∨ (s.identities.get? id).isSome = true := by
    intro id
    have same := congrArg Option.isSome (fields id)
    rw [Option.isSome_map] at same
    rw [same]
    split
    · simp [*]
    · simp [*]
  refine ⟨⟨fun i g => ?_, fun i g member => ?_⟩, fun i present => ?_, fun i present => ?_,
    fun g present => ?_, fun i identity found => ?_⟩
  · rw [getUserGroups_set userGroups, getGroupMembers_same groups]
    split
    · rename_i here
      subst here
      constructor
      · intro member
        exact absurd member (PySet.not_mem_empty g)
      · intro member
        exact absurd (inv.tables.exist _ g member).1 fresh
    · exact inv.tables.agree i g
  · rw [getGroupMembers_same groups] at member
    obtain ⟨identity, group⟩ := inv.tables.exist i g member
    exact ⟨(there i).mpr (.inr identity), groups ▸ group⟩
  · rw [userGroups, Dict.get?_set]
    split
    · rfl
    · rename_i other
      exact inv.tracked i (((there i).mp present).resolve_left other)
  · rcases (there i).mp present with here | before
    · exact ⟨s.drawn, later, here.symm⟩
    · obtain ⟨n, earlier, same⟩ := inv.drawn i before
      exact ⟨n, by omega, same⟩
  · rw [groups] at present
    rcases inv.groups g present with given | ⟨n, earlier, same⟩
    · exact .inl given
    · exact .inr ⟨n, by omega, same⟩
  · refine fields_step inv (fun id => ?_) found
    rw [fields id]
    split
    · exact .inl rfl
    · exact .inr rfl

theorem kept_grouped (unique : env.Unique) (inv : Kept env s) {group : Group}
    (members : group.members = .empty) :
    Kept env { s with groups := s.groups.set (env.uuid4 s.drawn) group, drawn := s.drawn + 1 } := by
  have fresh : ¬(s.groups.get? (env.uuid4 s.drawn)).isSome = true := by
    intro present
    rcases inv.groups _ present with given | ⟨n, before, same⟩
    · exact unique.apart s.drawn given
    · have equal := unique.distinct same
      omega
  have members_set := fun id => getGroupMembers_set (s := s)
    (t := { s with groups := s.groups.set (env.uuid4 s.drawn) group, drawn := s.drawn + 1 }) rfl id
  refine ⟨⟨fun i g => ?_, fun i g member => ?_⟩, inv.tracked, fun i present => ?_,
    fun g present => ?_, inv.fields⟩
  · rw [members_set]
    show g ∈ s.getUserGroups i ↔ _
    rw [inv.tables.agree i g]
    split
    · rename_i here
      subst here
      constructor
      · intro member
        exact absurd (inv.tables.exist i _ member).2 fresh
      · intro member
        rw [members] at member
        exact absurd member (PySet.not_mem_empty i)
    · exact Iff.rfl
  · rw [members_set] at member
    show _ ∧ ((s.groups.set (env.uuid4 s.drawn) group).get? g).isSome = true
    rw [Dict.get?_set]
    split at member
    · rw [members] at member
      exact absurd member (PySet.not_mem_empty i)
    · rename_i other
      rw [if_neg other]
      exact inv.tables.exist i g member
  · obtain ⟨n, earlier, same⟩ := inv.drawn i present
    exact ⟨n, by show n < s.drawn + 1; omega, same⟩
  · rw [Dict.get?_set] at present
    split at present
    · rename_i here
      exact .inr ⟨s.drawn, Nat.lt_succ_self _, here.symm⟩
    · rcases inv.groups g present with given | ⟨n, earlier, same⟩
      · exact .inl given
      · exact .inr ⟨n, by show n < s.drawn + 1; omega, same⟩

theorem kept_changed {add : Bool} {group : Group} {groups : PySet String} (inv : Kept env s)
    (identity : (s.identities.get? i).isSome = true) (found : s.groups.get? g = some group)
    (tracked : s.userGroups.get? i = some groups) : Kept env (s.changed add i g group groups) := by
  refine ⟨agree_changed inv.tables identity found tracked, fun i' present => ?_, inv.drawn,
    fun g' present => ?_, inv.fields⟩
  · show ((s.userGroups.set i _).get? i').isSome = true
    rw [Dict.get?_set]
    split
    · rfl
    · exact inv.tracked i' present
  · have shape : ((s.groups.set g _).get? g').isSome = true := present
    rw [Dict.get?_set] at shape
    split at shape
    · rename_i here
      exact inv.groups g' (by rw [← here, found]; rfl)
    · exact inv.groups g' shape

theorem kept_step (unique : env.Unique) (inv : Kept env s) (input : Input) :
    Kept env (step env s input).1 := by
  have effect := step_effect env s input
  generalize (step env s input).1 = t at effect ⊢
  cases effect with
  | kept fields groups userGroups drawn =>
    have user := fun id => congrArg (fun tracked : Dict String (PySet String) =>
      (tracked.get? id).getD .empty) userGroups
    refine ⟨⟨fun i g => ?_, fun i g member => ?_⟩, fun i present => ?_, fun i present => ?_,
      fun g present => ?_, fun i identity found => fields_step inv (fun id => .inr (fields id)) found⟩
    · rw [getGroupMembers_same groups, show t.getUserGroups i = _ from user i]
      exact inv.tables.agree i g
    · rw [getGroupMembers_same groups] at member
      obtain ⟨identity, group⟩ := inv.tables.exist i g member
      exact ⟨by rw [isSome_of_fields fields, identity], groups ▸ group⟩
    · rw [isSome_of_fields fields] at present
      rw [userGroups]
      exact inv.tracked i present
    · rw [isSome_of_fields fields] at present
      obtain ⟨n, earlier, same⟩ := inv.drawn i present
      exact ⟨n, by omega, same⟩
    · rw [groups] at present
      rcases inv.groups g present with given | ⟨n, earlier, same⟩
      · exact .inl given
      · exact .inr ⟨n, by omega, same⟩
  | created fields groups userGroups drawn => exact kept_created unique inv fields groups userGroups drawn
  | grouped group members shape => exact shape ▸ kept_grouped unique inv members
  | changed add i g _ identity group found groups tracked shape =>
    exact shape ▸ kept_changed inv identity found tracked
  | untracked i identity absent =>
    have present := inv.tracked i identity
    rw [absent] at present
    cases present

theorem group_new {now : Time} {ldapUsers : List String} {group : Group}
    (found : (new now ldapUsers).groups.get? g = some group) :
    group.members = .empty ∧ g ∈ ["traders", "administrators", "auditors"] := by
  rcases Dict.get?_set_some found with ⟨rfl, rfl⟩ | found
  · exact ⟨rfl, by simp⟩
  · rcases Dict.get?_set_some found with ⟨rfl, rfl⟩ | found
    · exact ⟨rfl, by simp⟩
    · rcases Dict.get?_set_some found with ⟨rfl, rfl⟩ | found
      · exact ⟨rfl, by simp⟩
      · cases found

def Memberless (s : IdentityManager) : Prop := ∀ i g, i ∉ s.getGroupMembers g

theorem memberless_new (now : Time) (ldapUsers : List String) : Memberless (new now ldapUsers) := by
  intro i g member
  unfold getGroupMembers at member
  split at member
  · rename_i found
    rw [(group_new found).1] at member
    exact PySet.not_mem_empty i member
  · exact PySet.not_mem_empty i member

theorem kept_new (env : Env) (now : Time) (ldapUsers : List String) : Kept env (new now ldapUsers) where
  tables :=
    { agree i g := ⟨fun member => absurd member (PySet.not_mem_empty g),
        fun member => absurd member (memberless_new now ldapUsers i g)⟩
      exist i g member := absurd member (memberless_new now ldapUsers i g) }
  tracked i present := by cases present
  drawn i present := by cases present
  groups g present := by
    obtain ⟨group, found⟩ := Option.isSome_iff_exists.mp present
    exact .inl (group_new found).2
  fields i identity found := by cases found

/-! ### Runs -/

theorem kept_run (unique : env.Unique) (now : Time) (ldapUsers : List String) (is : List Input) :
    Kept env (run (step env) (new now ldapUsers) is) :=
  run_invariant (kept_new env now ldapUsers) fun _ input inv => kept_step unique inv input

theorem memberless_step {input : Input} (unadded : ¬Adds (entry (step env) s input))
    (memberless : Memberless s) (inv : Kept env s) : Memberless (step env s input).1 := by
  intro i g
  have effect := step_effect env s input
  have absent := memberless i g
  cases effect with
  | kept _ groups => rwa [getGroupMembers_same groups]
  | created _ groups => rwa [getGroupMembers_same groups]
  | grouped group members shape =>
    rw [shape, getGroupMembers_set (s := s) rfl]
    split
    · rw [members]
      exact PySet.not_mem_empty i
    · exact absent
  | changed add i' g' is_call identity group found groups tracked shape =>
    have members_of : s.getGroupMembers g' = group.members := by rw [getGroupMembers, found]
    rw [shape, getGroupMembers_set (s := s) rfl]
    split
    · rw [mem_toggle]
      split
      · rintro rfl
        exact unadded ⟨i', g', is_call, identity, by rw [entry, found]; rfl⟩
      · rw [← members_of]
        exact memberless i g'
    · exact absent
  | untracked i' identity none =>
    have present := inv.tracked i' identity
    rw [none] at present
    cases present

theorem step_added {now : Time} {identity : Identity} {group : Group} {groups : PySet String}
    (present : s.identities.get? i = some identity) (found : s.groups.get? g = some group)
    (tracked : s.userGroups.get? i = some groups) :
    (step env s ⟨now, .addUserToGroup i g⟩).1 = s.changed true i g group groups := by
  show ((perform env now (.addUserToGroup i g)).run s).2 = _
  rw [perform, Method.run_map_snd]
  simp only [addUserToGroup, changeMembership, Method.run_bind, Method.run_read, present, found,
    Method.run_update, Method.run_check, tracked]
  rfl

theorem member_added {input : Input} (inv : Kept env s) (adds : Adds (entry (step env) s input)) :
    ∃ i g, i ∈ (step env s input).1.getGroupMembers g := by
  obtain ⟨now, call⟩ := input
  obtain ⟨i, g, called, present, grouped⟩ := adds
  obtain rfl : call = .addUserToGroup i g := called
  obtain ⟨groups, tracked⟩ := Option.isSome_iff_exists.mp (inv.tracked i present)
  obtain ⟨identity, present⟩ : ∃ identity, s.identities.get? i = some identity :=
    Option.isSome_iff_exists.mp present
  obtain ⟨group, found⟩ : ∃ group, s.groups.get? g = some group := Option.isSome_iff_exists.mp grouped
  refine ⟨i, g, ?_⟩
  rw [step_added present found tracked, getGroupMembers_set (s := s) rfl, if_pos rfl, mem_toggle, if_pos rfl]

/-- Since the field of an identity stays empty, it is right only where nobody is in a group. -/
theorem oneTruth_iff (inv : Kept env s) : OneTruth s ↔ Memberless s := by
  constructor
  · intro truth i g member
    obtain ⟨identity, present⟩ : ∃ identity, s.identities.get? i = some identity :=
      Option.isSome_iff_exists.mp (inv.tables.exist i g member).1
    have listed := (truth.field i g identity present).mpr member
    rw [inv.fields i identity present] at listed
    exact PySet.not_mem_empty g listed
  · intro memberless
    refine ⟨inv.tables, fun i g identity found => ?_⟩
    rw [inv.fields i identity found]
    exact iff_of_false (PySet.not_mem_empty g) (memberless i g)

/-- In every run the groups of a user and the members of a group agree; the field of the identity
agrees with them as long as nobody is added to a group. -/
theorem membership_one_truth_iff (unique : env.Unique) (now : Time) (ldapUsers : List String)
    (is : List Input) :
    (∀ before after, is = before ++ after → TablesAgree (run (step env) (new now ldapUsers) before)) ∧
    ((∀ before after, is = before ++ after → OneTruth (run (step env) (new now ldapUsers) before)) ↔
      ∀ e ∈ trace (step env) (new now ldapUsers) is, ¬Adds e) := by
  refine ⟨fun before _ _ => (kept_run unique now ldapUsers before).tables, ?_⟩
  simp only [fun before => oneTruth_iff (kept_run unique now ldapUsers before)]
  refine states_iff (memberless_new now ldapUsers) ?_
  intro e mem memberless
  have inv := pre_invariant (kept_new env now ldapUsers) (fun _ input inv => kept_step unique inv input) mem
  rw [entry_of_mem mem] at inv memberless ⊢
  constructor
  · intro still adds
    obtain ⟨i, g, member⟩ := member_added inv adds
    exact still i g member
  · intro quiet
    exact memberless_step quiet memberless inv

/-! ### Ann joins the traders -/

def uuidPrefix : String := "00000000-0000-4000-8000-00000000000"

/-- Identifiers that number the draws, and a `bcrypt` that hashes by putting a `$` in front. -/
def sampleEnv : Env :=
  { uuid4 n := uuidPrefix ++ String.ofList (natChars n)
    bcryptAvailable := true
    hashpw _ password := some ("$" ++ password)
    checkpw password hashed := some ("$" ++ password == hashed) }

theorem sampleEnv_unique : sampleEnv.Unique where
  distinct := by
    intro n m same
    have digits := String.ofList_injective ((String.append_right_inj uuidPrefix).mp same)
    rw [← charsNat_natChars n, digits, charsNat_natChars]
  apart := by
    intro n given
    have short : ∀ name ∈ ["traders", "administrators", "auditors"], name.length < 35 := by decide
    have long : uuidPrefix.length = 35 := by decide
    have here := short _ given
    rw [sampleEnv, String.length_append, long] at here
    omega

def joiningRun : List Input :=
  [⟨0, .createIdentity "ann" "ann@example.com" "Ann" none .local .empty⟩,
    ⟨1, .addUserToGroup "00000000-0000-4000-8000-000000000000" "traders"⟩]

theorem joiningRun_one_truth_iff :
    (∀ before after, joiningRun = before ++ after →
      TablesAgree (run (step sampleEnv) (new 0 []) before)) ∧
    ((∀ before after, joiningRun = before ++ after →
      OneTruth (run (step sampleEnv) (new 0 []) before)) ↔
      ∀ e ∈ trace (step sampleEnv) (new 0 []) joiningRun, ¬Adds e) :=
  membership_one_truth_iff sampleEnv_unique 0 [] joiningRun

theorem joiningRun_field_stays_empty :
    ¬∀ before after, joiningRun = before ++ after →
      OneTruth (run (step sampleEnv) (new 0 []) before) := by
  intro truth
  have reached := truth joiningRun [] rfl
  have facts : ((run (step sampleEnv) (new 0 []) joiningRun).identities.get?
        "00000000-0000-4000-8000-000000000000").map (·.groups.items) = some [] ∧
      "00000000-0000-4000-8000-000000000000" ∈
        (run (step sampleEnv) (new 0 []) joiningRun).getGroupMembers "traders" := by decide +kernel
  obtain ⟨fields, member⟩ := facts
  obtain ⟨identity, found, empty⟩ := Option.map_eq_some_iff.mp fields
  have listed : "traders" ∈ identity.groups.items := (reached.field _ _ identity found).mpr member
  rw [empty] at listed
  cases listed

end IdentityManager

end BtApiSecurity.Identities
