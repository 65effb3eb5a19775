import BtApiSecurity.Identities.Membership

/-!
# Creating an identity

The identity is stored before its password is hashed. Where the hashing raises, it
stays stored without a password.
-/

namespace BtApiSecurity.Identities.IdentityManager
open Py Machine

variable {env : Env} {s : IdentityManager} {now : Time}

/-- What a call of `create_identity` is given. -/
structure Request where
  username : String
  email : String
  fullName : String
  password : Option String
  provider : IdentityProvider
  attributes : Dict String Attribute

def Request.call (r : Request) : Call :=
  .createIdentity r.username r.email r.fullName r.password r.provider r.attributes

/-- The password that the call hashes. -/
def Request.hashes (r : Request) : Option String :=
  if r.provider = .local then r.password.filter (· ≠ "") else none

/-- The identity that is stored first. -/
def Request.identity (r : Request) (identityId : String) (now : Time) : Identity :=
  { identityId, username := r.username, email := r.email, fullName := r.fullName
    provider := r.provider, attributes := r.attributes, createdAt := now }

def withHash (identity : Identity) (hashed : String) (now : Time) : Identity :=
  { identity with
    attributes := identity.attributes.set "password_hash" (.value (.str hashed))
    passwordChanged := some now }

/-- The manager that has drawn an id and stored the identity under it. -/
def withIdentity (env : Env) (s : IdentityManager) (identity : Identity) (drawn : Nat) : IdentityManager :=
  { s with
    identities := s.identities.set (env.uuid4 s.drawn) identity
    userGroups := s.userGroups.set (env.uuid4 s.drawn) .empty
    drawn := s.drawn + drawn }

/-! ### How a creation ends -/

/-- The ways in which a creation can end. -/
inductive Created (env : Env) (s : IdentityManager) (now : Time) (r : Request)
    (t : IdentityManager) (reply : Except IdentityError Reply) : Prop where
  | plain (unhashed : r.hashes = none)
      (state : t = withIdentity env s (r.identity (env.uuid4 s.drawn) now) 1)
      (returns : reply = .ok (.identity (r.identity (env.uuid4 s.drawn) now)))
  | hashed (password hash : String) (hashes : r.hashes = some password)
      (available : env.bcryptAvailable = true) (hashed : env.hashpw (s.drawn + 1) password = some hash)
      (state : t = withIdentity env s (withHash (r.identity (env.uuid4 s.drawn) now) hash now) 2)
      (returns : reply = .ok (.identity (withHash (r.identity (env.uuid4 s.drawn) now) hash now)))
  | raised (password : String) (error : IdentityError) (drawn : Nat) (hashes : r.hashes = some password)
      (fails : env.bcryptAvailable = true → env.hashpw (s.drawn + 1) password = none)
      (state : t = withIdentity env s (r.identity (env.uuid4 s.drawn) now) drawn)
      (raises : reply = .error error)

theorem hashes_none {r : Request} (unhashed : r.hashes = none) :
    ¬(r.provider = .local ∧ r.password.any (· ≠ "") = true) := by
  intro both
  obtain ⟨is_local, given⟩ := both
  rw [Request.hashes, if_pos is_local] at unhashed
  cases password : r.password with
  | none =>
    rw [password] at given
    cases given
  | some p =>
    rw [password, Option.any_some] at given
    rw [password, Option.filter_some, given] at unhashed
    cases unhashed

theorem hashes_some {r : Request} {password : String} (hashes : r.hashes = some password) :
    r.provider = .local ∧ r.password = some password ∧ password ≠ "" := by
  unfold Request.hashes at hashes
  split at hashes
  · rename_i is_local
    obtain ⟨given, nonempty⟩ := Option.filter_eq_some_iff.mp hashes
    exact ⟨is_local, given, of_decide_eq_true nonempty⟩
  · cases hashes

theorem hashes_iff {r : Request} {password : String} (hashes : r.hashes = some password) :
    r.provider = .local ∧ r.password.any (· ≠ "") = true := by
  obtain ⟨is_local, given, nonempty⟩ := hashes_some hashes
  refine ⟨is_local, ?_⟩
  rw [given, Option.any_some]
  exact decide_eq_true nonempty

/-- Hashing draws a salt, where it gets as far. -/
theorem run_hashPassword (env : Env) (s : IdentityManager) (identity : Identity) (password : String) :
    (hashPassword env password).run (withIdentity env s identity 1) =
      if env.bcryptAvailable = true then
        (orRaise (env.hashpw (s.drawn + 1) password) .bcrypt, withIdentity env s identity 2)
      else (.error (.importError
        "bcrypt is required for password hashing. Install with: pip install bcrypt"),
        withIdentity env s identity 1) := by
  simp only [hashPassword, draw, Method.run_bind, Method.run_check, Method.run_read, Method.run_update,
    Method.run_pure, ensure]
  by_cases available : env.bcryptAvailable = true
  · rw [if_pos available, if_pos available]
    rfl
  · rw [if_neg available, if_neg available]

theorem step_plain {r : Request} (unhashed : r.hashes = none) : step env s ⟨now, r.call⟩ =
    (withIdentity env s (r.identity (env.uuid4 s.drawn) now) 1,
      .ok (.identity (r.identity (env.uuid4 s.drawn) now))) := by
  simp only [step, perform, Request.call, Method.run_map, createIdentity, draw, Method.run_bind,
    Method.run_read, Method.run_update, Method.run_pure, if_neg (hashes_none unhashed)]
  rfl

theorem step_hashed {r : Request} {password hash : String} (hashes : r.hashes = some password)
    (run : (hashPassword env password).run (withIdentity env s (r.identity (env.uuid4 s.drawn) now) 1) =
      (.ok hash, withIdentity env s (r.identity (env.uuid4 s.drawn) now) 2)) :
    step env s ⟨now, r.call⟩ =
      (withIdentity env s (withHash (r.identity (env.uuid4 s.drawn) now) hash now) 2,
        .ok (.identity (withHash (r.identity (env.uuid4 s.drawn) now) hash now))) := by
  have given : r.password.getD "" = password := by rw [(hashes_some hashes).2.1, Option.getD_some]
  unfold withIdentity Request.identity at run
  simp only [step, perform, Request.call, Method.run_map, createIdentity, draw, Method.run_bind,
    Method.run_read, Method.run_update, Method.run_pure, if_pos (hashes_iff hashes), given, run,
    storeIdentity, Dict.set_set]
  rfl

theorem step_raised {r : Request} {password : String} {error : IdentityError} {t : IdentityManager}
    (hashes : r.hashes = some password)
    (run : (hashPassword env password).run (withIdentity env s (r.identity (env.uuid4 s.drawn) now) 1) =
      (.error error, t)) : step env s ⟨now, r.call⟩ = (t, .error error) := by
  have given : r.password.getD "" = password := by rw [(hashes_some hashes).2.1, Option.getD_some]
  unfold withIdentity Request.identity at run
  simp only [step, perform, Request.call, Method.run_map, createIdentity, draw, Method.run_bind,
    Method.run_read, Method.run_update, Method.run_pure, if_pos (hashes_iff hashes), given, run]

theorem created_step (env : Env) (s : IdentityManager) (now : Time) (r : Request) :
    Created env s now r (step env s ⟨now, r.call⟩).1 (step env s ⟨now, r.call⟩).2 := by
  cases hashes : r.hashes with
  | none =>
    rw [step_plain hashes]
    exact .plain hashes rfl rfl
  | some password =>
    have run := run_hashPassword env s (r.identity (env.uuid4 s.drawn) now) password
    by_cases available : env.bcryptAvailable = true
    · rw [if_pos available] at run
      cases hashed : env.hashpw (s.drawn + 1) password with
      | none =>
        rw [hashed] at run
        rw [step_raised hashes run]
        exact .raised password _ 2 hashes (fun _ => hashed) rfl rfl
      | some hash =>
        rw [hashed] at run
        rw [step_hashed hashes run]
        exact .hashed password hash hashes available hashed rfl rfl
    · rw [if_neg available] at run
      rw [step_raised hashes run]
      exact .raised password _ 1 hashes (fun h => absurd h available) rfl rfl

/-! ### All or nothing -/

/-- A creation that raises leaves the identities, the table of groups and the summary alone. -/
def Atomic (env : Env) (s : IdentityManager) (now : Time) (r : Request) : Prop :=
  ∀ error, (step env s ⟨now, r.call⟩).2 = .error error →
    (step env s ⟨now, r.call⟩).1.identities = s.identities ∧
      (step env s ⟨now, r.call⟩).1.userGroups = s.userGroups ∧
      ∀ providers, (step env s ⟨now, r.call⟩).1.getIdentitySummary providers = s.getIdentitySummary providers

/-- Nothing is hashed, or the hashing succeeds. -/
def Hashes (env : Env) (s : IdentityManager) (r : Request) : Prop :=
  ∀ password, r.hashes = some password →
    env.bcryptAvailable = true ∧ ∃ hash, env.hashpw (s.drawn + 1) password = some hash

theorem atomic_of_hashes {r : Request} (succeeds : Hashes env s r) : Atomic env s now r := by
  have ends := created_step env s now r
  intro error raises
  cases ends with
  | plain unhashed state returns =>
    rw [returns] at raises
    cases raises
  | hashed password hash hashes available hashed state returns =>
    rw [returns] at raises
    cases raises
  | raised password error drawn hashes fails state raised =>
    obtain ⟨available, hash, hashed⟩ := succeeds password hashes
    rw [fails available] at hashed
    cases hashed

theorem hashes_of_atomic {r : Request} (fresh : s.identities.get? (env.uuid4 s.drawn) = none)
    (atomic : Atomic env s now r) : Hashes env s r := by
  intro password' hashes'
  have ends := created_step env s now r
  unfold Atomic at atomic
  generalize (step env s ⟨now, r.call⟩).1 = t at ends atomic
  cases ends with
  | plain unhashed state returns =>
    rw [unhashed] at hashes'
    cases hashes'
  | hashed password hash hashes available hashed state returns =>
    obtain rfl := Option.some.inj (hashes.symm.trans hashes')
    exact ⟨available, hash, hashed⟩
  | raised password error drawn hashes fails state raises =>
    have same := congrArg (fun d => d.get? (env.uuid4 s.drawn)) (atomic error raises).1
    simp only [state, withIdentity, Dict.get?_set_self, fresh] at same
    cases same

/-- A creation under an id that is not taken is all or nothing, if and only if it has no password
that cannot be hashed. -/
theorem creation_atomic_iff (env : Env) (s : IdentityManager)
    (fresh : s.identities.get? (env.uuid4 s.drawn) = none) (now : Time) (r : Request) :
    Atomic env s now r ↔ Hashes env s r :=
  ⟨hashes_of_atomic fresh, atomic_of_hashes⟩

/-- An installation without `bcrypt`. -/
def withoutBcrypt : Env :=
  { uuid4 n := intText n, bcryptAvailable := false, hashpw _ _ := none, checkpw _ _ := none }

def annRequest : Request := ⟨"ann", "ann@example.com", "Ann", some "secret", .local, .empty⟩

theorem not_hashes_withoutBcrypt (s : IdentityManager) : ¬Hashes withoutBcrypt s annRequest := by
  intro succeeds
  obtain ⟨available, -⟩ := succeeds "secret" (by decide)
  cases available

theorem creation_atomic_new : ¬Atomic withoutBcrypt (new 0 []) 1 annRequest := by
  rw [creation_atomic_iff withoutBcrypt (new 0 []) rfl 1 annRequest]
  exact not_hashes_withoutBcrypt _

theorem creation_halfway_stored : ¬∀ (env : Env) (s : IdentityManager),
    s.identities.get? (env.uuid4 s.drawn) = none → ∀ now r, Atomic env s now r := by
  intro holds
  exact not_hashes_withoutBcrypt _ (hashes_of_atomic rfl (holds withoutBcrypt (new 0 []) rfl 1 annRequest))

end BtApiSecurity.Identities.IdentityManager
