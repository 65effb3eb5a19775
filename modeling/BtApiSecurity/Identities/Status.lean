import BtApiSecurity.Identities.Creation

/-!
# Status and its metadata

Suspending and locking note a reason and a time among the attributes. Activating
clears what a suspension noted, and leaves what a lock noted.
-/

namespace BtApiSecurity.Identities
open Py Machine

/-- The attributes that belong to a status. -/
def UserStatus.metadata : UserStatus → List String
  | .suspended => ["suspension_reason", "suspended_at"]
  | .locked => ["lock_reason", "locked_at"]
  | _ => []

/-- An attribute of a status is there in this status and in no other. -/
def Identity.Agrees (i : Identity) : Prop :=
  ∀ status : UserStatus, ∀ key ∈ status.metadata, (i.attributes.get? key).isSome ↔ i.status = status

namespace IdentityManager

variable {env : Env} {s : IdentityManager} {now : Time} {identity : Identity}

def Synced (s : IdentityManager) : Prop :=
  ∀ id identity, s.identities.get? id = some identity → identity.Agrees

/-- An identity is created without attributes of a status. -/
def Plain : Call → Prop
  | .createIdentity _ _ _ _ _ attributes =>
    ∀ status : UserStatus, ∀ key ∈ status.metadata, attributes.get? key = none
  | _ => True

/-- The identity whose status a call writes, with the status whose attributes the call does not look
at. -/
def overlooks : Call → Option (String × UserStatus)
  | .suspendUser id _ => some (id, .locked)
  | .activateUser id => some (id, .locked)
  | .lockUser id _ => some (id, .suspended)
  | _ => none

/-- The call does not find the identity in the status that it overlooks. -/
def Leaves (e : Event) : Prop :=
  ∀ id status identity, overlooks e.input.call = some (id, status) →
    e.pre.identities.get? id = some identity → identity.status ≠ status

/-! ### One identity -/

theorem agrees_write {status other : UserStatus} {attributes : Dict String Attribute}
    (agrees : identity.Agrees) (apart : status ≠ other) (nonempty : other.metadata ≠ [])
    (written : ∀ status', status' ≠ other → ∀ key ∈ status'.metadata,
      (attributes.get? key).isSome ↔ status = status')
    (kept : ∀ key ∈ other.metadata, attributes.get? key = identity.attributes.get? key) :
    { identity with status, attributes }.Agrees ↔ identity.status ≠ other := by
  constructor
  · intro after here
    obtain ⟨key, member⟩ := List.exists_mem_of_ne_nil _ nonempty
    have present := (agrees other key member).mpr here
    rw [← kept key member] at present
    exact apart ((after other key member).mp present)
  · intro left status' key member
    by_cases same : status' = other
    · subst same
      show (attributes.get? key).isSome ↔ status = status'
      rw [kept key member]
      exact iff_of_false (fun present => left ((agrees status' key member).mp present)) apart
    · exact written status' same key member

/-- Suspending and locking are one write: the pair of the new status is set, the other pair kept. -/
theorem agrees_mark {status other : UserStatus} {reasonKey timeKey reason : String}
    (agrees : identity.Agrees) (own : status.metadata = [reasonKey, timeKey])
    (only : ∀ status', status' ≠ other → status' ≠ status → status'.metadata = [])
    (apart : status ≠ other) (nonempty : other.metadata ≠ [])
    (disjoint : ∀ key ∈ other.metadata, reasonKey ≠ key ∧ timeKey ≠ key) :
    { identity with
        status
        attributes := (identity.attributes.set reasonKey (.value (.str reason))).set timeKey
          (.time now) }.Agrees ↔ identity.status ≠ other := by
  apply agrees_write agrees apart nonempty
  · intro status' left key member
    by_cases same : status' = status
    · subst same
      apply iff_of_true _ rfl
      rw [own] at member
      rw [Dict.get?_set, Dict.get?_set]
      split
      · rfl
      · rename_i later
        have first : key = reasonKey := by
          rcases List.mem_pair.mp member with rfl | rfl
          · rfl
          · exact absurd rfl later
        rw [if_pos first.symm]
        rfl
    · rw [only status' left same] at member
      cases member
  · intro key member
    obtain ⟨reason_apart, time_apart⟩ := disjoint key member
    rw [Dict.get?_set_of_ne _ _ time_apart, Dict.get?_set_of_ne _ _ reason_apart]

theorem agrees_activated (agrees : identity.Agrees) :
    { identity with
        status := .active
        attributes := (identity.attributes.erase "suspension_reason").erase "suspended_at" }.Agrees ↔
      identity.status ≠ .locked := by
  apply agrees_write agrees (by decide) (by decide)
  · intro status' left key member
    cases status' with
    | active => cases member
    | inactive => cases member
    | locked => exact absurd rfl left
    | suspended =>
      refine iff_of_false ?_ (by decide)
      rcases List.mem_pair.mp member with rfl | rfl
      · rw [Dict.get?_erase_of_ne _ (by decide), Dict.get?_erase_self]
        decide
      · rw [Dict.get?_erase_self]
        decide
  · intro key member
    rcases List.mem_pair.mp member with rfl | rfl
    · rw [Dict.get?_erase_of_ne _ (by decide), Dict.get?_erase_of_ne _ (by decide)]
    · rw [Dict.get?_erase_of_ne _ (by decide), Dict.get?_erase_of_ne _ (by decide)]

theorem agrees_active (active : identity.status = .active)
    (absent : ∀ status : UserStatus, ∀ key ∈ status.metadata, identity.attributes.get? key = none) :
    identity.Agrees := by
  intro status key member
  rw [absent status key member, active]
  refine iff_of_false (by decide) ?_
  rintro rfl
  cases member

/-! ### One step -/

theorem synced_set {id : String} (synced : Synced s) (agrees : identity.Agrees) {t : IdentityManager}
    (stored : t.identities = s.identities.set id identity) : Synced t := by
  intro id' identity' found
  rw [stored] at found
  rcases Dict.get?_set_some found with ⟨-, rfl⟩ | old
  · exact agrees
  · exact synced id' identity' old

theorem synced_modifyIdentity {id : String} {f : Identity → Identity} (synced : Synced s) :
    Synced ((modifyIdentity id f).run s).2 ↔
      ∀ identity, s.identities.get? id = some identity → (f identity).Agrees := by
  simp only [modifyIdentity, Method.run_bind, Method.run_read]
  cases found : s.identities.get? id with
  | none => exact iff_of_true synced (by intro _ same; cases same)
  | some identity =>
    constructor
    · intro after identity' same
      cases same
      exact after id (f identity) (Dict.get?_set_self _ _ _)
    · intro agrees
      exact synced_set synced (agrees identity rfl) rfl

theorem synced_created {drawn : Nat} (synced : Synced s) (agrees : identity.Agrees) :
    Synced (withIdentity env s identity drawn) :=
  synced_set synced agrees rfl

theorem agrees_withHash {hashed : String} (active : identity.status = .active)
    (absent : ∀ status : UserStatus, ∀ key ∈ status.metadata, identity.attributes.get? key = none) :
    (withHash identity hashed now).Agrees := by
  have written : (withHash identity hashed now).status = .active := active
  apply agrees_active written
  intro status key member
  have apart : "password_hash" ≠ key := by
    rintro rfl
    cases status with
    | active | inactive => cases member
    | suspended => exact absurd member (by decide)
    | locked => exact absurd member (by decide)
  exact (Dict.get?_set_of_ne _ _ apart).trans (absent status key member)

theorem synced_unchanged {t : IdentityManager} (synced : Synced s) (same : t.identities = s.identities) :
    Synced t := by
  intro id identity found
  rw [same] at found
  exact synced id identity found

theorem leaves_of_none {e : Event} (other : overlooks e.input.call = none) : Leaves e := by
  intro id status identity here
  rw [other] at here
  cases here

theorem leaves_iff {e : Event} {id : String} {status : UserStatus}
    (here : overlooks e.input.call = some (id, status)) :
    Leaves e ↔ ∀ identity, e.pre.identities.get? id = some identity → identity.status ≠ status := by
  constructor
  · intro leaves identity found
    exact leaves id status identity here found
  · intro left id' status' identity here' found
    obtain ⟨rfl, rfl⟩ := Prod.mk.inj (Option.some.inj (here.symm.trans here'))
    exact left identity found

theorem synced_createIdentity (synced : Synced s) (request : Request)
    (absent : ∀ status : UserStatus, ∀ key ∈ status.metadata, request.attributes.get? key = none) :
    Synced (step env s ⟨now, request.call⟩).1 := by
  have ends := created_step env s now request
  generalize (step env s ⟨now, request.call⟩).2 = reply at ends
  generalize (step env s ⟨now, request.call⟩).1 = t at ends ⊢
  cases ends with
  | plain unhashed state returns => exact state ▸ synced_created synced (agrees_active rfl absent)
  | hashed password hash hashes available hashed state returns =>
    exact state ▸ synced_created synced (agrees_withHash rfl absent)
  | raised password error drawn hashes fails state raises =>
    exact state ▸ synced_created synced (agrees_active rfl absent)

theorem synced_authenticateUser (synced : Synced s) (username password : String) (provider : IdentityProvider) :
    Synced ((authenticateUser env now username password provider).run s).2 := by
  cases authenticated env s now username password provider with
  | refused unverified state nobody =>
    rw [state]
    exact synced
  | returned key identity first found active verified state returns =>
    rw [state]
    have agrees : Identity.Agrees { identity with lastLogin := some now } := synced key identity found
    exact synced_set synced agrees rfl

/-- A call that writes the status of one identity and overlooks another status. -/
theorem synced_writes {i : Input} {id : String} {status : UserStatus} {f : Identity → Identity}
    (synced : Synced s) (here : overlooks i.call = some (id, status))
    (writes : ∀ identity, identity.Agrees → ((f identity).Agrees ↔ identity.status ≠ status)) :
    Synced ((modifyIdentity id f).run s).2 ↔ Leaves (entry (step env) s i) := by
  rw [leaves_iff here, synced_modifyIdentity synced]
  exact forall_congr' fun identity => imp_congr_right fun found => writes identity (synced id identity found)

/-- A step keeps the attributes in step with the status, if and only if it leaves no status that it
overlooks. -/
theorem synced_step (synced : Synced s) (i : Input) (plain : Plain i.call) :
    Synced (step env s i).1 ↔ Leaves (entry (step env) s i) := by
  obtain ⟨now, call⟩ := i
  cases call with
  | createIdentity username email fullName password provider attributes =>
    let request : Request := ⟨username, email, fullName, password, provider, attributes⟩
    have created : Synced (step env s ⟨now, request.call⟩).1 := synced_createIdentity synced request plain
    exact iff_of_true created (leaves_of_none rfl)
  | authenticateUser username password provider =>
    rw [step, perform, Method.run_map_snd]
    exact iff_of_true (synced_authenticateUser synced username password provider) (leaves_of_none rfl)
  | createGroup name description parents => exact iff_of_true synced (leaves_of_none rfl)
  | addUserToGroup id g =>
    rw [step, perform, Method.run_map_snd]
    exact iff_of_true (synced_unchanged synced (identities_changeMembership _ id g)) (leaves_of_none rfl)
  | removeUserFromGroup id g =>
    rw [step, perform, Method.run_map_snd]
    exact iff_of_true (synced_unchanged synced (identities_changeMembership _ id g)) (leaves_of_none rfl)
  | suspendUser id reason =>
    rw [step, perform, Method.run_map_snd]
    refine synced_writes synced rfl fun identity agrees => ?_
    apply agrees_mark agrees rfl
    · intro status other own
      cases status with
      | active | inactive => rfl
      | suspended => exact absurd rfl own
      | locked => exact absurd rfl other
    · decide
    · decide
    · decide
  | activateUser id =>
    rw [step, perform, Method.run_map_snd]
    exact synced_writes synced rfl fun identity agrees => agrees_activated agrees
  | lockUser id reason =>
    rw [step, perform, Method.run_map_snd]
    refine synced_writes synced rfl fun identity agrees => ?_
    apply agrees_mark agrees rfl
    · intro status other own
      cases status with
      | active | inactive => rfl
      | suspended => exact absurd rfl other
      | locked => exact absurd rfl own
    · decide
    · decide
    · decide

/-! ### Runs -/

/-- An authentication that returns an identity returns an active one. -/
def ReturnsActive (e : Event) : Prop :=
  ∀ username password provider j, e.input.call = .authenticateUser username password provider →
    e.output = .ok (.found (some j)) → j.status = .active

theorem returnsActive_entry (i : Input) : ReturnsActive (entry (step env) s i) := by
  obtain ⟨now, call⟩ := i
  intro username password provider j is_call returns
  obtain rfl : call = .authenticateUser username password provider := is_call
  obtain ⟨key, identity, -, active, -, rfl⟩ := returns_iff.mp returns
  exact active

/-- In every state of a run the attributes of a status are those of the identities in this status, if
and only if no step suspends or activates an identity that is locked, or locks one that is suspended. -/
theorem status_metadata_iff (env : Env) (now : Time) (ldapUsers : List String) (is : List Input)
    (plain : ∀ i ∈ is, Plain i.call) :
    ((∀ before after, is = before ++ after → Synced (run (step env) (new now ldapUsers) before)) ∧
      ∀ e ∈ trace (step env) (new now ldapUsers) is, ReturnsActive e) ↔
      ∀ e ∈ trace (step env) (new now ldapUsers) is, Leaves e := by
  have active : ∀ e ∈ trace (step env) (new now ldapUsers) is, ReturnsActive e := by
    intro e mem
    rw [entry_of_mem mem]
    exact returnsActive_entry e.input
  refine (and_iff_left active).trans (states_iff ?_ ?_)
  · intro id identity found
    cases found
  · intro e mem synced
    rw [entry_of_mem mem]
    exact synced_step synced e.input (plain e.input (input_mem_of_mem mem))

/-! ### Ann is locked and activated -/

def lockedRun : List Input :=
  [⟨0, .createIdentity "ann" "ann@example.com" "Ann" none .local .empty⟩,
    ⟨1, .lockUser "00000000-0000-4000-8000-000000000000" "fraud"⟩,
    ⟨2, .activateUser "00000000-0000-4000-8000-000000000000"⟩]

theorem lockedRun_plain : ∀ i ∈ lockedRun, Plain i.call := by
  rw [lockedRun, List.forall_mem_cons, List.forall_mem_cons, List.forall_mem_singleton]
  exact ⟨fun _ _ _ => rfl, trivial, trivial⟩

theorem lockedRun_status_iff :
    ((∀ before after, lockedRun = before ++ after → Synced (run (step sampleEnv) (new 0 []) before)) ∧
      ∀ e ∈ trace (step sampleEnv) (new 0 []) lockedRun, ReturnsActive e) ↔
      ∀ e ∈ trace (step sampleEnv) (new 0 []) lockedRun, Leaves e :=
  status_metadata_iff sampleEnv 0 [] lockedRun lockedRun_plain

/-- Ann is active again, and her lock is still noted. -/
theorem activated_keeps_lock : ¬∀ (env : Env) (now : Time) (ldapUsers : List String) (is : List Input),
    (∀ i ∈ is, Plain i.call) → ∀ before after, is = before ++ after →
      Synced (run (step env) (new now ldapUsers) before) := by
  intro holds
  have reached := holds sampleEnv 0 [] lockedRun lockedRun_plain lockedRun [] rfl
  have facts : ((run (step sampleEnv) (new 0 []) lockedRun).identities.get?
      "00000000-0000-4000-8000-000000000000").map
        (fun ann => (ann.status, (ann.attributes.get? "lock_reason").isSome,
          (ann.attributes.get? "locked_at").isSome)) = some (.active, true, true) := by decide +kernel
  obtain ⟨ann, found, seen⟩ := Option.map_eq_some_iff.mp facts
  obtain ⟨active, rest⟩ := Prod.mk.inj seen
  have noted := (Prod.mk.inj rest).1
  have locked := (reached _ ann found .locked "lock_reason" (by decide)).mp noted
  rw [active] at locked
  cases locked

end IdentityManager

end BtApiSecurity.Identities
