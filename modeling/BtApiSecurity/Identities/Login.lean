import BtApiSecurity.Identities.Creation

/-!
# Logging in under a username

Authentication takes the first identity with the username. The table of identities
only grows, and nothing keeps two of them from having one username.
-/

namespace BtApiSecurity.Identities

/-- What `bcrypt` makes of a password is not empty, and is right for this password only. -/
structure Env.Checks (env : Env) : Prop where
  nonempty : ∀ n p h, env.hashpw n p = some h → h ≠ ""
  checks : ∀ n p h q, env.hashpw n p = some h → (env.checkpw q h = some true ↔ q = p)

namespace IdentityManager
open Py Machine

variable {env : Env} {s : IdentityManager}

/-- What authentication reads of an entry of the table, but for the status. -/
structure Card where
  key : String
  identityId : String
  username : String
  provider : IdentityProvider
  hash : Option Attribute

def card (entry : String × Identity) : Card :=
  ⟨entry.1, entry.2.identityId, entry.2.username, entry.2.provider, entry.2.attributes.get? "password_hash"⟩

theorem card_eq (key : String) (identity : Identity) (status : UserStatus)
    (attributes : Dict String Attribute)
    (hash : attributes.get? "password_hash" = identity.attributes.get? "password_hash") :
    card (key, { identity with status, attributes }) = card (key, identity) :=
  congrArg (Card.mk key identity.identityId identity.username identity.provider) hash

def cards (s : IdentityManager) : List Card := s.identities.entries.map card

def Card.answersTo (username : String) (c : Card) : Bool :=
  c.username = username && c.provider = .local

/-! ### The table only grows -/

theorem cards_modifyIdentity {id : String} {f : Identity → Identity}
    (same : ∀ key identity, card (key, f identity) = card (key, identity)) :
    cards ((modifyIdentity id f).run s).2 = cards s := by
  simp only [modifyIdentity, Method.run_bind, Method.run_read]
  cases found : s.identities.get? id with
  | none => rfl
  | some identity => exact Dict.map_set_of_same found (same id identity)

theorem cards_changeMembership (change : PySet String → String → PySet String) (id g : String) :
    cards ((changeMembership change id g).run s).2 = cards s := by
  rw [cards, identities_changeMembership]
  rfl

theorem cards_withIdentity {identity : Identity} {drawn : Nat}
    (fresh : s.identities.get? (env.uuid4 s.drawn) = none) :
    cards (withIdentity env s identity drawn) = cards s ++ [card (env.uuid4 s.drawn, identity)] := by
  rw [cards, withIdentity, Dict.entries_set_of_absent fresh, List.map_append]
  rfl

theorem cards_authenticateUser {now : Time} {username password : String} {provider : IdentityProvider} :
    cards ((authenticateUser env now username password provider).run s).2 = cards s := by
  cases authenticated env s now username password provider with
  | refused unverified state nobody => rw [state]
  | returned key identity first found active verified state returns =>
    rw [state]
    exact Dict.map_set_of_same found rfl

theorem fresh_of_kept (unique : env.Unique) (inv : Kept env s) :
    s.identities.get? (env.uuid4 s.drawn) = none := by
  cases present : s.identities.get? (env.uuid4 s.drawn) with
  | none => rfl
  | some identity =>
    obtain ⟨n, before, same⟩ := inv.drawn _ (by rw [present]; rfl)
    have equal := unique.distinct same
    omega

/-- The entries of `s` are still there, and further ones are stored under their own ids. -/
def Grows (s t : IdentityManager) : Prop :=
  ∃ added, cards t = cards s ++ added ∧ ∀ c ∈ added, c.key = c.identityId

theorem grows_of_same {t : IdentityManager} (same : cards t = cards s) : Grows s t :=
  ⟨[], same.trans (List.append_nil _).symm, by simp⟩

theorem Grows.trans {t u : IdentityManager} (first : Grows s t) (second : Grows t u) : Grows s u := by
  obtain ⟨added, split, keyed⟩ := first
  obtain ⟨added', split', keyed'⟩ := second
  refine ⟨added ++ added', ?_, ?_⟩
  · rw [split', split, List.append_assoc]
  · intro c member
    rcases List.mem_append.mp member with earlier | later
    · exact keyed c earlier
    · exact keyed' c later

theorem grows_withIdentity {identity : Identity} {drawn : Nat}
    (fresh : s.identities.get? (env.uuid4 s.drawn) = none) (own : identity.identityId = env.uuid4 s.drawn) :
    Grows s (withIdentity env s identity drawn) := by
  refine ⟨_, cards_withIdentity fresh, ?_⟩
  intro c member
  rw [List.mem_singleton.mp member]
  exact own.symm

theorem grows_step (unique : env.Unique) (inv : Kept env s) (i : Input) : Grows s (step env s i).1 := by
  obtain ⟨now, call⟩ := i
  cases call with
  | createIdentity username email fullName password provider attributes =>
    have fresh := fresh_of_kept unique inv
    have ends := created_step env s now ⟨username, email, fullName, password, provider, attributes⟩
    generalize (step env s ⟨now, Request.call _⟩).2 = reply at ends
    change Grows s (step env s ⟨now, Request.call ⟨username, email, fullName, password, provider, attributes⟩⟩).1
    generalize (step env s ⟨now, Request.call _⟩).1 = t at ends ⊢
    cases ends with
    | plain unhashed state returns => exact state ▸ grows_withIdentity fresh rfl
    | hashed password hash hashes available hashed state returns => exact state ▸ grows_withIdentity fresh rfl
    | raised password error drawn hashes fails state raises => exact state ▸ grows_withIdentity fresh rfl
  | authenticateUser username password provider =>
    rw [step, perform, Method.run_map_snd]
    exact grows_of_same cards_authenticateUser
  | createGroup name description parents => exact grows_of_same rfl
  | addUserToGroup id g =>
    rw [step, perform, Method.run_map_snd]
    exact grows_of_same (cards_changeMembership PySet.add id g)
  | removeUserFromGroup id g =>
    rw [step, perform, Method.run_map_snd]
    exact grows_of_same (cards_changeMembership PySet.discard id g)
  | suspendUser id reason =>
    rw [step, perform, Method.run_map_snd]
    refine grows_of_same (cards_modifyIdentity fun key identity => card_eq key identity _ _ ?_)
    rw [Dict.get?_set_of_ne _ _ (by decide), Dict.get?_set_of_ne _ _ (by decide)]
  | activateUser id =>
    rw [step, perform, Method.run_map_snd]
    refine grows_of_same (cards_modifyIdentity fun key identity => card_eq key identity _ _ ?_)
    rw [Dict.get?_erase_of_ne _ (by decide), Dict.get?_erase_of_ne _ (by decide)]
  | lockUser id reason =>
    rw [step, perform, Method.run_map_snd]
    refine grows_of_same (cards_modifyIdentity fun key identity => card_eq key identity _ _ ?_)
    rw [Dict.get?_set_of_ne _ _ (by decide), Dict.get?_set_of_ne _ _ (by decide)]

theorem grows_run (unique : env.Unique) (inv : Kept env s) (is : List Input) :
    Grows s (run (step env) s is) := by
  induction is generalizing s with
  | nil => exact grows_of_same rfl
  | cons i is ih => exact (grows_step unique inv i).trans (ih (kept_step unique inv i))

theorem keyed_run (unique : env.Unique) (now : Time) (ldapUsers : List String) (is : List Input) :
    ∀ c ∈ cards (run (step env) (new now ldapUsers) is), c.key = c.identityId := by
  obtain ⟨added, split, keyed⟩ := grows_run unique (kept_new env now ldapUsers) is
  rw [split]
  exact keyed

/-! ### Who is found -/

/-- The entry that authentication of a local user looks at. -/
def localNamed (username : String) (s : IdentityManager) : Option (String × Identity) :=
  s.identities.entries.find? fun (_, i) => i.username = username && i.provider = .local

theorem find_cards (username : String) (s : IdentityManager) :
    (cards s).find? (Card.answersTo username) = (localNamed username s).map card := by
  rw [cards, List.find?_map]
  rfl

/-- What authentication of a local user returns. -/
theorem authenticates_iff {now : Time} {username password : String} {j : Identity} :
    (step env s ⟨now, .authenticateUser username password .local⟩).2 = .ok (.found (some j)) ↔
      ∃ key identity, localNamed username s = some (key, identity) ∧ identity.status = .active ∧
        s.verifyPassword env identity.identityId password = .ok true ∧
        j = { identity with lastLogin := some now } :=
  returns_iff

theorem verifyPassword_hashed {id h : String} {identity : Identity} (password : String)
    (found : s.identities.get? id = some identity) (is_local : identity.provider = .local)
    (hash : identity.attributes.get? "password_hash" = some (.value (.str h))) (nonempty : h ≠ "")
    (available : env.bcryptAvailable = true) :
    s.verifyPassword env id password = orRaise (env.checkpw password h) .bcrypt := by
  have truthy : (Attribute.value (.str h)).truthy = true := decide_eq_true nonempty
  simp only [verifyPassword, found, is_local, ne_eq, not_true, if_false, hash, truthy, Bool.true_eq_false,
    ensure, available, if_true]
  rfl

/-! ### Logging in -/

/-- The identity logs in with its password and with no other. -/
structure LogsIn (env : Env) (s : IdentityManager) (now : Time) (i : Identity) (password : String) :
    Prop where
  own : ∃ j, (step env s ⟨now, .authenticateUser i.username password .local⟩).2 = .ok (.found (some j)) ∧
    j.identityId = i.identityId
  others : ∀ other, other ≠ password → ∀ j,
    (step env s ⟨now, .authenticateUser i.username other .local⟩).2 = .ok (.found (some j)) →
      j.identityId ≠ i.identityId

def UsernameTaken (s : IdentityManager) (username : String) : Prop :=
  ∃ key identity, s.identities.get? key = some identity ∧ identity.username = username ∧
    identity.provider = .local

theorem usernameTaken_iff {username : String} :
    UsernameTaken s username ↔ ∃ c ∈ cards s, c.answersTo username = true := by
  simp only [UsernameTaken, cards, List.mem_map, Card.answersTo, Bool.and_eq_true, decide_eq_true_eq]
  constructor
  · intro taken
    obtain ⟨key, identity, found, same, is_local⟩ := taken
    exact ⟨_, ⟨(key, identity), (Dict.mem_entries _).mpr found, rfl⟩, same, is_local⟩
  · intro answering
    obtain ⟨_, ⟨⟨key, identity⟩, member, rfl⟩, same, is_local⟩ := answering
    exact ⟨key, identity, (Dict.mem_entries _).mp member, same, is_local⟩

theorem localNamed_of_free {pre : IdentityManager} {username : String} {c : Card} {rest : List Card}
    (split : cards s = cards pre ++ c :: rest) (free : ¬UsernameTaken pre username)
    (answers : c.answersTo username = true) :
    ∃ key identity, localNamed username s = some (key, identity) ∧ card (key, identity) = c := by
  have before : (cards pre).find? (Card.answersTo username) = none := by
    rw [List.find?_eq_none]
    intro d member answers
    exact free (usernameTaken_iff.mpr ⟨d, member, answers⟩)
  have first := find_cards username s
  rw [split, List.find?_append, before, Option.none_or, List.find?_cons_of_pos answers] at first
  obtain ⟨⟨key, identity⟩, found, same⟩ := Option.map_eq_some_iff.mp first.symm
  exact ⟨key, identity, found, same⟩

theorem localNamed_of_taken {pre : IdentityManager} {username : String} {rest : List Card}
    (split : cards s = cards pre ++ rest) (taken : UsernameTaken pre username) :
    ∃ key identity, localNamed username s = some (key, identity) ∧ card (key, identity) ∈ cards pre := by
  obtain ⟨d, member, answers⟩ := usernameTaken_iff.mp taken
  have some_before : ((cards pre).find? (Card.answersTo username)).isSome = true :=
    List.find?_isSome.mpr ⟨d, member, answers⟩
  obtain ⟨c, found⟩ := Option.isSome_iff_exists.mp some_before
  have first := find_cards username s
  rw [split, List.find?_append, found, Option.some_or] at first
  obtain ⟨⟨key, identity⟩, named, same⟩ := Option.map_eq_some_iff.mp first.symm
  exact ⟨key, identity, named, same ▸ List.mem_of_find?_eq_some found⟩

/-- What is known of an identity that was created with a password, once it is stored. -/
structure Stored (env : Env) (pre s : IdentityManager) (i : Identity) (password : String) : Prop where
  entry : ∃ rest, cards s = cards pre ++ card (i.identityId, i) :: rest
  fresh : pre.identities.get? i.identityId = none
  is_local : i.provider = .local
  hashed : ∃ n h, env.hashpw n password = some h ∧
    i.attributes.get? "password_hash" = some (.value (.str h))
  available : env.bcryptAvailable = true

theorem logsIn_of_free {pre : IdentityManager} {i : Identity} {password : String} {now : Time}
    (checks : env.Checks) (stored : Stored env pre s i password)
    (active : ∃ j, s.identities.get? i.identityId = some j ∧ j.status = .active)
    (free : ¬UsernameTaken pre i.username) : LogsIn env s now i password := by
  obtain ⟨rest, split⟩ := stored.entry
  obtain ⟨n, h, hashed, kept⟩ := stored.hashed
  have answers : (card (i.identityId, i)).answersTo i.username = true := by
    simp [card, Card.answersTo, stored.is_local]
  obtain ⟨key, identity, named, same⟩ := localNamed_of_free split free answers
  obtain ⟨is_key, own, -, is_local, hash⟩ := Card.mk.inj same
  obtain rfl : key = i.identityId := is_key
  have found : s.identities.get? i.identityId = some identity :=
    (Dict.mem_entries _).mp (List.mem_of_find?_eq_some named)
  have verified := fun q => verifyPassword_hashed q found (is_local.trans stored.is_local)
    (hash.trans kept) (checks.nonempty n password h hashed) stored.available
  rw [← own] at verified
  obtain ⟨j, there, active⟩ := active
  obtain rfl := Option.some.inj (found.symm.trans there)
  refine ⟨⟨{ identity with lastLogin := some now }, authenticates_iff.mpr ?_, own⟩, ?_⟩
  · have right : env.checkpw password h = some true := (checks.checks n password h password hashed).mpr rfl
    refine ⟨i.identityId, identity, named, active, ?_, rfl⟩
    rw [verified, right]
    rfl
  · intro other different j returns
    obtain ⟨key', identity', named', -, passed, -⟩ := authenticates_iff.mp returns
    obtain ⟨-, rfl⟩ := Prod.mk.inj (Option.some.inj (named.symm.trans named'))
    rw [verified, orRaise_ok] at passed
    exact absurd ((checks.checks n password h other hashed).mp passed) different

theorem taken_not_logsIn {pre : IdentityManager} {i : Identity} {password : String} {now : Time}
    (stored : Stored env pre s i password) (keyed : ∀ c ∈ cards pre, c.key = c.identityId)
    (taken : UsernameTaken pre i.username) : ¬LogsIn env s now i password := by
  intro logs_in
  obtain ⟨⟨j, returns, same⟩, -⟩ := logs_in
  obtain ⟨rest, split⟩ := stored.entry
  obtain ⟨key, identity, named, earlier⟩ := localNamed_of_taken split taken
  obtain ⟨key', identity', named', -, -, rfl⟩ := authenticates_iff.mp returns
  obtain ⟨rfl, rfl⟩ := Prod.mk.inj (Option.some.inj (named.symm.trans named'))
  have own : key = identity.identityId := keyed _ earlier
  obtain ⟨⟨key', old⟩, member, is_card⟩ := List.mem_map.mp earlier
  obtain rfl : key' = key := congrArg Card.key is_card
  have present := (Dict.mem_entries _).mp member
  rw [own, show identity.identityId = i.identityId from same, stored.fresh] at present
  cases present

/-! ### Runs -/

/-- What a creation with a password leaves behind. -/
theorem stored_created {now : Time} {r : Request} {password : String} {i : Identity}
    (fresh : s.identities.get? (env.uuid4 s.drawn) = none) (hashes : r.hashes = some password)
    (created : (step env s ⟨now, r.call⟩).2 = .ok (.identity i)) :
    Stored env s (step env s ⟨now, r.call⟩).1 i password := by
  have ends := created_step env s now r
  generalize (step env s ⟨now, r.call⟩).1 = t at ends ⊢
  rw [created] at ends
  cases ends with
  | plain unhashed => cases hashes.symm.trans unhashed
  | hashed password' h hashes' available hashed state returns =>
    obtain rfl := Option.some.inj (hashes.symm.trans hashes')
    obtain rfl := Reply.identity.inj (Except.ok.inj returns)
    refine ⟨⟨[], ?_⟩, fresh, (hashes_some hashes).1, ⟨_, h, hashed, Dict.get?_set_self _ _ _⟩, available⟩
    rw [state, cards_withIdentity fresh]
    rfl
  | raised password error drawn hashes fails state raises => cases raises

theorem Stored.grows {pre t : IdentityManager} {i : Identity} {password : String}
    (stored : Stored env pre s i password) (grows : Grows s t) : Stored env pre t i password := by
  obtain ⟨rest, split⟩ := stored.entry
  obtain ⟨added, split', -⟩ := grows
  refine ⟨⟨rest ++ added, ?_⟩, stored.fresh, stored.is_local, stored.hashed, stored.available⟩
  rw [split', split, List.append_assoc, List.cons_append]

theorem stored_run (unique : env.Unique) {now : Time} {ldapUsers : List String} {is : List Input}
    {l l' : List Event} {e : Event} (split : trace (step env) (new now ldapUsers) is = l ++ e :: l')
    {r : Request} (call : e.input.call = r.call) {password : String} (hashes : r.hashes = some password)
    {i : Identity} (created : e.output = .ok (.identity i)) :
    Stored env e.pre (run (step env) (new now ldapUsers) is) i password ∧
      ∀ c ∈ cards e.pre, c.key = c.identityId := by
  obtain ⟨before, after, rfl, -, is_entry, -⟩ := trace_split split
  have is_pre : e.pre = run (step env) (new now ldapUsers) before := congrArg Entry.pre is_entry
  have inv := kept_run unique now ldapUsers before
  have is_input : e.input = ⟨e.input.now, r.call⟩ := by rw [← call]
  have output := congrArg Entry.output is_entry
  rw [created, entry_output, is_input] at output
  have stored := stored_created (fresh_of_kept unique inv) hashes output.symm
  rw [← is_input] at stored
  rw [is_pre, run_append, run_cons]
  exact ⟨stored.grows (grows_run unique (kept_step unique inv e.input) after),
    keyed_run unique now ldapUsers before⟩

/-- In every run an identity that was created with a local password and is active logs in as itself, if
and only if its username was not taken at its creation. -/
theorem login_iff (unique : env.Unique) (checks : env.Checks) {now : Time} {ldapUsers : List String}
    {is : List Input} {l l' : List Event} {e : Event}
    (split : trace (step env) (new now ldapUsers) is = l ++ e :: l') {r : Request}
    (call : e.input.call = r.call) {password : String} (hashes : r.hashes = some password) {i : Identity}
    (created : e.output = .ok (.identity i))
    (active : ∃ j, (run (step env) (new now ldapUsers) is).identities.get? i.identityId = some j ∧
      j.status = .active) (time : Time) :
    LogsIn env (run (step env) (new now ldapUsers) is) time i password ↔
      ¬UsernameTaken e.pre i.username := by
  obtain ⟨stored, keyed⟩ := stored_run unique split call hashes created
  constructor
  · intro works taken
    exact taken_not_logsIn stored keyed taken works
  · exact logsIn_of_free checks stored active

/-! ### Ann twice -/

theorem sampleEnv_checks : sampleEnv.Checks where
  nonempty n p h hashed := by
    obtain rfl : "$" ++ p = h := Option.some.inj hashed
    intro empty
    have lengths := congrArg String.length empty
    rw [String.length_append] at lengths
    exact absurd lengths (by simp)
  checks n p h q hashed := by
    obtain rfl : "$" ++ p = h := Option.some.inj hashed
    show some ("$" ++ q == "$" ++ p) = some true ↔ q = p
    rw [Option.some.injEq, beq_iff_eq, String.append_right_inj]

def annWith (password : String) : Request :=
  ⟨"ann", "ann@example.com", "Ann", some password, .local, .empty⟩

theorem hashes_annWith {password : String} (nonempty : password ≠ "") :
    (annWith password).hashes = some password := by
  rw [Request.hashes, if_pos (show (annWith password).provider = .local from rfl)]
  exact Option.filter_some_pos (decide_eq_true nonempty)

theorem step_annWith {password : String} (now : Time) (nonempty : password ≠ "") :
    step sampleEnv s ⟨now, (annWith password).call⟩ =
      (withIdentity sampleEnv s (withHash ((annWith password).identity (sampleEnv.uuid4 s.drawn) now)
          ("$" ++ password) now) 2,
        .ok (.identity (withHash ((annWith password).identity (sampleEnv.uuid4 s.drawn) now)
          ("$" ++ password) now))) := by
  exact step_hashed (hashes_annWith nonempty) (run_hashPassword sampleEnv s _ password)

def annCreated (s : IdentityManager) (now : Time) (password : String) : Identity :=
  withHash ((annWith password).identity (sampleEnv.uuid4 s.drawn) now) ("$" ++ password) now

theorem active_annCreated {now : Time} {password : String} (nonempty : password ≠ "") :
    ∃ j, (step sampleEnv s ⟨now, (annWith password).call⟩).1.identities.get?
      (annCreated s now password).identityId = some j ∧ j.status = .active := by
  rw [step_annWith now nonempty]
  exact ⟨_, Dict.get?_set_self _ _ _, rfl⟩

theorem ann_logs_in : LogsIn sampleEnv (run (step sampleEnv) (new 0 []) [⟨0, (annWith "one").call⟩]) 1
    (annCreated (new 0 []) 0 "one") "one" := by
  have split : trace (step sampleEnv) (new 0 []) [⟨0, (annWith "one").call⟩] =
    [] ++ entry (step sampleEnv) (new 0 []) ⟨0, (annWith "one").call⟩ :: [] := rfl
  refine (login_iff sampleEnv_unique sampleEnv_checks split rfl (hashes_annWith (by decide)) ?_
    (active_annCreated (by decide)) 1).mpr ?_
  · rw [entry_output, step_annWith 0 (by decide)]
    rfl
  · intro taken
    obtain ⟨key, identity, found, -⟩ := taken
    cases found

/-- The second of two identities with one username. -/
theorem second_ann_locked_out : ¬∀ (env : Env), env.Unique → env.Checks → ∀ now ldapUsers is l l' (e : Event),
    trace (step env) (new now ldapUsers) is = l ++ e :: l' → ∀ r : Request, e.input.call = r.call →
      ∀ password, r.hashes = some password → ∀ i, e.output = .ok (.identity i) →
        (∃ j, (run (step env) (new now ldapUsers) is).identities.get? i.identityId = some j ∧
          j.status = .active) →
        ∀ time, LogsIn env (run (step env) (new now ldapUsers) is) time i password := by
  intro holds
  let first := (step sampleEnv (new 0 []) ⟨0, (annWith "one").call⟩).1
  have split : trace (step sampleEnv) (new 0 []) [⟨0, (annWith "one").call⟩, ⟨1, (annWith "two").call⟩] =
    [entry (step sampleEnv) (new 0 []) ⟨0, (annWith "one").call⟩] ++
      entry (step sampleEnv) first ⟨1, (annWith "two").call⟩ :: [] := rfl
  have created : (entry (step sampleEnv) first ⟨1, (annWith "two").call⟩).output =
      .ok (.identity (annCreated first 1 "two")) := by
    rw [entry_output, step_annWith 1 (by decide)]
    rfl
  have hashes := @hashes_annWith "two" (by decide)
  obtain ⟨stored, keyed⟩ := stored_run sampleEnv_unique split rfl hashes created
  refine taken_not_logsIn stored keyed ?_ (holds sampleEnv sampleEnv_unique sampleEnv_checks _ _ _ _ _ _
    split _ rfl _ hashes _ created (active_annCreated (by decide)) 2)
  have earlier : first = _ := congrArg Prod.fst (step_annWith 0 (by decide))
  rw [entry_pre, earlier]
  exact ⟨_, _, Dict.get?_set_self _ _ _, rfl, rfl⟩

end IdentityManager

end BtApiSecurity.Identities
