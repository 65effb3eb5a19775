import BtApiSecurity.Mfa.Steps

/-!
# Whose WebAuthn credential it is

A credential carries the handle of the user who registered it. Authentication
looks a credential up by its id alone, and registration stores under the id alone.
-/

namespace BtApiSecurity.Mfa.MFAProvider
open Py Machine

variable {env : Env} {s : MFAProvider} {now : Time}

/-! ### What a run says about credentials -/

/-- The user for whom the call registered a credential, and the key of the credential. -/
def registration (env : Env) (e : Event) : Option (String × String) :=
  match e.input.call, e.output with
  | .verifyWebauthnRegistration userId data, .ok (.answer true) => do
    let challenge ← e.pre.webauthnChallenges.get? userId
    let credential ← registrationRecord env e.pre e.input.now userId challenge data
    return (userId, credentialKey credential.credentialId)
  | _, _ => none

def registrant (env : Env) (history : List Event) (key : String) : Option String :=
  history.foldl
    (fun owner e =>
      match registration env e with
      | some (userId, key') => if key' = key then some userId else owner
      | none => owner)
    none

/-- Authentication: the credential that an accepted assertion names was registered for the user.
Registration: what is registered to another user stays as it is. -/
structure OwnersRespected (env : Env) (history : List Event) (e : Event) : Prop where
  authentication : ∀ u data key, e.input.call = .verifyWebauthnAuthentication u data →
    e.output = .ok (.answer true) → namedCredential data = some key →
    registrant env history key = some u
  registration : ∀ v data, e.input.call = .verifyWebauthnRegistration v data →
    e.output = .ok (.answer true) → ∀ u, u ≠ v → ∀ key credential,
    e.pre.webauthnCredentials.get? key = some credential →
    credential.userHandle = encodeUtf8 u → e.post.webauthnCredentials.get? key = some credential

/-- An assertion that passes the checks names a credential with the handle of the user, and
a registration that passes them finds none with another handle under its id. -/
structure HandlesAgree (env : Env) (e : Event) : Prop where
  authentication : ∀ u data challenge key credential signCount,
    e.input.call = .verifyWebauthnAuthentication u data →
    e.pre.webauthnChallenges.get? (authKey u) = some challenge →
    ¬challenge.expiresAt < e.input.now →
    assertionRecord env e.pre challenge data = some (key, credential, signCount) →
    credential.userHandle = encodeUtf8 u
  registration : ∀ v data challenge credential old,
    e.input.call = .verifyWebauthnRegistration v data →
    e.pre.webauthnChallenges.get? v = some challenge → ¬challenge.expiresAt < e.input.now →
    registrationRecord env e.pre e.input.now v challenge data = some credential →
    e.pre.webauthnCredentials.get? (credentialKey credential.credentialId) = some old →
    old.userHandle = encodeUtf8 v

/-! ### Steps -/

theorem registrationRecord_handle {userId : String} {challenge : Challenge} {data : CredentialData}
    {credential : WebAuthnCredential}
    (h : registrationRecord env s now userId challenge data = some credential) :
    credential.userHandle = encodeUtf8 userId := by
  simp only [registrationRecord, Option.bind_eq_bind, Option.bind_eq_some_iff] at h
  obtain ⟨_, -, h⟩ := h
  split at h
  · obtain ⟨_, -, h⟩ := Option.bind_eq_some_iff.mp h
    obtain ⟨_, -, h⟩ := Option.bind_eq_some_iff.mp h
    split at h
    · cases h
      rfl
    · cases h
  · cases h

theorem assertionRecord_named {challenge : Challenge} {data : AssertionData} {key : String}
    {credential : WebAuthnCredential} {signCount : Nat}
    (h : assertionRecord env s challenge data = some (key, credential, signCount)) :
    namedCredential data = some key ∧ s.webauthnCredentials.get? key = some credential := by
  simp only [assertionRecord, Option.bind_eq_bind, Option.bind_eq_some_iff] at h
  obtain ⟨_, -, h⟩ := h
  split at h
  · simp only [Option.bind_eq_some_iff] at h
    obtain ⟨_, -, key', named, credential', found, _, -, _, -, h⟩ := h
    split at h
    · cases h
      exact ⟨named, found⟩
    · cases h
  · cases h

theorem step_registered {userId : String} {data : CredentialData} {challenge : Challenge}
    {credential : WebAuthnCredential} (pending : s.webauthnChallenges.get? userId = some challenge)
    (timely : ¬challenge.expiresAt < now)
    (accepted : registrationRecord env s now userId challenge data = some credential) :
    step env s ⟨now, .verifyWebauthnRegistration userId data⟩ =
      (s.registered now userId credential, .ok (.answer true)) := by
  simp only [step, perform, verifyWebauthnRegistration, Method.run_map, Method.run_bind,
    Method.run_read, pending, timely, if_false, accepted]
  rfl

theorem step_authenticated {userId key : String} {data : AssertionData} {challenge : Challenge}
    {credential : WebAuthnCredential} {signCount : Nat}
    (pending : s.webauthnChallenges.get? (authKey userId) = some challenge)
    (timely : ¬challenge.expiresAt < now)
    (accepted : assertionRecord env s challenge data = some (key, credential, signCount)) :
    (step env s ⟨now, .verifyWebauthnAuthentication userId data⟩).2 = .ok (.answer true) := by
  simp only [step, perform, verifyWebauthnAuthentication, Method.run_map, Method.run_bind,
    Method.run_read, pending, timely, if_false, accepted]
  cases s.mfaConfigs.get? userId <;> rfl

theorem registrant_append (history : List Event) (e : Event) (key : String) :
    registrant env (history ++ [e]) key =
      match registration env e with
      | some (userId, key') => if key' = key then some userId else registrant env history key
      | none => registrant env history key := by
  simp only [registrant, List.foldl_append, List.foldl_cons, List.foldl_nil]

inductive CredentialEffect (env : Env) (s : MFAProvider) (e : Event) : Prop
  | kept (none_registered : registration env e = none)
      (same : ∀ key credential, e.post.webauthnCredentials.get? key = some credential →
        ∃ old, s.webauthnCredentials.get? key = some old ∧ credential.userHandle = old.userHandle)
  | stored (userId : String) (credential : WebAuthnCredential)
      (is_registered : registration env e =
        some (userId, credentialKey credential.credentialId))
      (handle : credential.userHandle = encodeUtf8 userId)
      (set : e.post.webauthnCredentials =
        s.webauthnCredentials.set (credentialKey credential.credentialId) credential)

theorem credential_effect (env : Env) (s : MFAProvider) (i : Input) :
    CredentialEffect env s (entry (step env) s i) := by
  have outcome := step_outcome env s i
  obtain ⟨now, call⟩ := i
  unfold entry
  generalize (step env s ⟨now, call⟩).1 = post at outcome ⊢
  generalize (step env s ⟨now, call⟩).2 = reply at outcome ⊢
  cases outcome with
  | stopped => exact .kept (by cases call <;> rfl) fun _ credential found => ⟨credential, found, rfl⟩
  | refused => exact .kept (by cases call <;> rfl) fun _ credential found => ⟨credential, found, rfl⟩
  | answered _ _ reads =>
    exact .kept (by cases call <;> first | rfl | cases reads)
      fun _ credential found => ⟨credential, found, rfl⟩
  | @registered v data challenge credential pending _ accepted =>
    exact .stored v credential (by simp [registration, pending, accepted])
      (registrationRecord_handle accepted) rfl
  | @authenticated v key data challenge old signCount _ _ accepted =>
    refine .kept rfl fun key' credential found => ?_
    rcases Dict.get?_set_some found with ⟨rfl, rfl⟩ | before
    · exact ⟨old, (assertionRecord_named accepted).2, rfl⟩
    · exact ⟨credential, before, rfl⟩
  | @disabled v code config =>
    refine .kept rfl fun key credential found => ⟨credential, ?_, rfl⟩
    unfold MFAProvider.disabled at found
    cases named : config.credentialId with
    | none => simpa [named] using found
    | some other =>
      rw [named] at found
      exact Dict.get?_filter_some found
  | _ => exact .kept rfl fun _ credential found => ⟨credential, found, rfl⟩

/-- A stored credential has the handle of the user who last registered one under its key. -/
def HandlesRecorded (env : Env) (history : List Event) (s : MFAProvider) : Prop :=
  ∀ key credential, s.webauthnCredentials.get? key = some credential →
    ∃ u, registrant env history key = some u ∧ credential.userHandle = encodeUtf8 u

theorem handlesRecorded_step {history : List Event} (i : Input)
    (inv : HandlesRecorded env history s) :
    HandlesRecorded env (history ++ [entry (step env) s i]) (step env s i).1 := by
  intro key credential found
  rw [registrant_append]
  cases credential_effect env s i with
  | kept none_registered same =>
    obtain ⟨old, before, handle⟩ := same key credential found
    obtain ⟨u, last, owned⟩ := inv key old before
    rw [none_registered]
    exact ⟨u, last, handle.trans owned⟩
  | stored v new is_registered handle set =>
    rw [is_registered]
    rw [show (step env s i).1.webauthnCredentials = _ from set] at found
    rcases Dict.get?_set_some found with ⟨rfl, rfl⟩ | before
    · exact ⟨v, if_pos rfl, handle⟩
    · by_cases same : credentialKey new.credentialId = key
      · rw [same, Dict.get?_set_self] at found
        exact ⟨v, if_pos same, Option.some.inj found ▸ handle⟩
      · obtain ⟨u, last, owned⟩ := inv key credential before
        exact ⟨u, (if_neg same).trans last, owned⟩

theorem handlesRecorded_run (env : Env) (settings : Settings) (is : List Input) :
    HandlesRecorded env (trace (step env) (new settings) is) (run (step env) (new settings) is) :=
  history_invariant (by simp [HandlesRecorded, new]) fun _ _ i inv => handlesRecorded_step i inv

theorem handlesAgree_of_respected {history : List Event} (inv : HandlesRecorded env history s)
    {i : Input} (respected : OwnersRespected env history (entry (step env) s i)) :
    HandlesAgree env (entry (step env) s i) := by
  obtain ⟨now, call⟩ := i
  constructor
  · rintro u data challenge key credential signCount (rfl : call = _) pending timely accepted
    obtain ⟨named, found⟩ := assertionRecord_named accepted
    have last := respected.authentication u data key rfl (step_authenticated pending timely accepted)
      named
    obtain ⟨w, last', handle⟩ := inv key credential found
    rw [handle, Option.some.inj (last'.symm.trans last)]
  · rintro v data challenge credential old (rfl : call = _) pending timely accepted found
    obtain ⟨w, -, handle⟩ := inv _ old found
    by_cases same : w = v
    · rw [handle, same]
    · have stored : step env s ⟨now, .verifyWebauthnRegistration v data⟩ = _ :=
        step_registered pending timely accepted
      have untouched := respected.registration v data rfl (by rw [entry, stored]) w same _ old found
        handle
      unfold entry at untouched
      rw [stored, MFAProvider.registered] at untouched
      simp only [Dict.get?_set_self] at untouched
      exact Option.some.inj untouched ▸ registrationRecord_handle accepted

theorem respected_of_handlesAgree {history : List Event} (inv : HandlesRecorded env history s)
    {i : Input} (agree : HandlesAgree env (entry (step env) s i)) :
    OwnersRespected env history (entry (step env) s i) := by
  have outcome := step_outcome env s i
  obtain ⟨now, call⟩ := i
  rw [entry] at agree ⊢
  generalize (step env s ⟨now, call⟩).1 = post at outcome agree ⊢
  generalize (step env s ⟨now, call⟩).2 = reply at outcome agree ⊢
  constructor
  · rintro u data key (rfl : call = _) (rfl : reply = _) named
    cases outcome with
    | answered _ _ reads => cases reads
    | authenticated pending timely accepted =>
      obtain ⟨named', found⟩ := assertionRecord_named accepted
      obtain rfl := Option.some.inj (named.symm.trans named')
      have handle := agree.authentication u data _ _ _ _ rfl pending timely accepted
      obtain ⟨w, last, handle'⟩ := inv key _ found
      rw [last, encodeUtf8_injective (handle'.symm.trans handle)]
  · rintro v data (rfl : call = _) (rfl : reply = _) u other key credential found handle
    cases outcome with
    | answered _ _ reads => cases reads
    | @registered _ _ _ new pending timely accepted =>
      by_cases same : credentialKey new.credentialId = key
      · have handle' := agree.registration v data _ _ credential rfl pending timely accepted
          (same ▸ found)
        exact absurd (encodeUtf8_injective (handle.symm.trans handle')) other
      · exact (Dict.get?_set_of_ne _ _ same).trans found

/-- In a run, every accepted assertion names a credential registered for the user and no
registration touches the credential of another exactly when the handles agree at every call. -/
theorem credentials_bound_to_users_iff (env : Env) (settings : Settings) (is : List Input) :
    (∀ l e l', trace (step env) (new settings) is = l ++ e :: l' → OwnersRespected env l e) ↔
      ∀ e ∈ trace (step env) (new settings) is, HandlesAgree env e := by
  have recorded : ∀ l e l', trace (step env) (new settings) is = l ++ e :: l' →
      HandlesRecorded env l e.pre := fun l e l' split =>
    history_split (HandlesRecorded env) (by simp [HandlesRecorded, new])
      (fun _ _ i inv => handlesRecorded_step i inv) split
  constructor
  · intro respected e mem
    obtain ⟨l, l', split⟩ := List.append_of_mem mem
    have owned := respected l e l' split
    rw [entry_of_mem mem] at owned ⊢
    exact handlesAgree_of_respected (recorded l e l' split) owned
  · intro agree l e l' split
    have mem : e ∈ trace (step env) (new settings) is := by
      rw [split]
      exact List.mem_append_cons_self
    have handles := agree e mem
    have inv := recorded l e l' split
    rw [entry_of_mem mem] at handles ⊢
    exact respected_of_handlesAgree inv handles

/-! ### A borrowed credential -/

def sampleClientData (type : List Char) (n : Nat) : String :=
  let json := ['\x7b'] ++ "\"type\":\"".toList ++ type ++ "\",\"challenge\":\"".toList ++
    (b64Chars (sampleEnv.tokenBytes n)).map urlChar ++
    "\",\"origin\":\"https://localhost\"".toList ++ ['\x7d']
  b64encode (json.map fun c => UInt8.ofNat c.toNat)

def sampleCredential (id : UInt8) (n : Nat) : CredentialData :=
  { clientDataJSON := some (sampleClientData "webauthn.create".toList n)
    attestationObject := some (b64encode
      ([0xa1, 0x68, 0x61, 0x75, 0x74, 0x68, 0x44, 0x61, 0x74, 0x61, 0x58, 41] ++
        List.replicate 32 0 ++ [0x45, 0, 0, 0, 0, 0, 1, id, 9])) }

def sampleAssertion (id : UInt8) (n : Nat) : AssertionData :=
  { clientDataJSON := some (sampleClientData "webauthn.get".toList n)
    authenticatorData := some (b64encode (List.replicate 32 0 ++ [5, 0, 0, 0, 1]))
    credentialId := some (b64encode [id])
    signature := some "" }

/-- The client data answers the challenge of the draw it numbers. -/
theorem sampleClientData_matches {type : String} {n : Nat} (expiresAt : Time)
    (few : type = "webauthn.create" ∧ n < 2 ∨ type = "webauthn.get" ∧ n = 2) :
    ∃ json, decodeField (sampleClientData type.toList n) = some json ∧
      clientDataMatches "localhost" ⟨urlsafeB64encode (sampleEnv.tokenBytes n), expiresAt⟩ type
        (sampleEnv.jsonLoads json) = true := by
  refine ⟨_, decodeField_b64encode _, ?_⟩
  change clientDataMatches "localhost" ⟨urlsafeB64encode (sampleEnv.tokenBytes n), 0⟩ type _ = true
  rcases few with ⟨rfl, few⟩ | ⟨rfl, rfl⟩
  · revert n
    decide +kernel
  · decide +kernel

def sampleStored (id : UInt8) (userId : String) (now : Time) : WebAuthnCredential :=
  { credentialId := [id], publicKey := [9], signCount := 0, userHandle := encodeUtf8 userId
    rpId := "localhost", createdAt := now }

theorem registrationRecord_sample {id : UInt8} {n : Nat} {userId : String} {expiresAt : Time}
    (rpId : s.settings.rpId = "localhost") (few : n < 2) :
    registrationRecord sampleEnv s now userId
        ⟨urlsafeB64encode (sampleEnv.tokenBytes n), expiresAt⟩ (sampleCredential id n) =
      some (sampleStored id userId now) := by
  obtain ⟨json, decoded, matched⟩ := sampleClientData_matches expiresAt (.inl ⟨rfl, few⟩)
  simp only [registrationRecord, sampleCredential, Option.bind_eq_bind, Option.bind_some, decoded,
    decodeField_b64encode, rpId, matched, if_true]
  rfl

/-- The state in which the user has registered the credential that answers the next challenge. -/
def withSample (s : MFAProvider) (id : UInt8) (userId name : String) (t now : Time) : MFAProvider :=
  (step sampleEnv s ⟨t, .generateWebauthnRegistrationOptions userId name none⟩).1.registered now userId
    (sampleStored id userId now)

theorem run_sample {id : UInt8} {n : Nat} {userId name : String} {t : Time}
    (rpId : s.settings.rpId = "localhost") (drawn : s.drawn = n) (few : n < 2) (timely : ¬t + 300 < now) :
    run (step sampleEnv) s [⟨t, .generateWebauthnRegistrationOptions userId name none⟩,
        ⟨now, .verifyWebauthnRegistration userId (sampleCredential id n)⟩] =
      s.withSample id userId name t now := by
  have pending : (step sampleEnv s
      ⟨t, .generateWebauthnRegistrationOptions userId name none⟩).1.webauthnChallenges.get? userId =
        some ⟨urlsafeB64encode (sampleEnv.tokenBytes n), t + 300⟩ := by
    rw [← drawn]
    exact Dict.get?_set_self _ _ _
  rw [run_cons, run_cons, run_nil, step_registered pending timely (registrationRecord_sample rpId few)]
  rfl

theorem namedCredential_sample (id : UInt8) (n : Nat) :
    namedCredential (sampleAssertion id n) = some (credentialKey [id]) := by
  rw [namedCredential, sampleAssertion, Option.bind_some, decodeField_b64encode, Option.map_some]

theorem assertionRecord_sample {id : UInt8} {expiresAt : Time} {credential : WebAuthnCredential}
    (rpId : s.settings.rpId = "localhost")
    (found : s.webauthnCredentials.get? (credentialKey [id]) = some credential)
    (unused : credential.signCount = 0) :
    assertionRecord sampleEnv s ⟨urlsafeB64encode (sampleEnv.tokenBytes 2), expiresAt⟩
        (sampleAssertion id 2) = some (credentialKey [id], credential, 1) := by
  obtain ⟨json, decoded, matched⟩ := @sampleClientData_matches "webauthn.get" 2 expiresAt (.inr ⟨rfl, rfl⟩)
  have clientData : (sampleAssertion id 2).clientDataJSON.bind decodeField = some json := by
    rw [sampleAssertion, Option.bind_some, decoded]
  have authenticatorData : (sampleAssertion id 2).authenticatorData.bind decodeField =
      some (List.replicate 32 0 ++ [5, 0, 0, 0, 1]) := decodeField_b64encode _
  have signature : (sampleAssertion id 2).signature.bind decodeField = some [] := rfl
  have named := namedCredential_sample id 2
  have checked : (5 : UInt8) &&& 1 ≠ 0 ∧ (5 : UInt8) &&& 4 ≠ 0 ∧
      credential.signCount < fromBytes (slice (List.replicate 32 0 ++ [5, 0, 0, 0, 1]) 33 37) := by
    rw [unused]
    decide
  unfold assertionRecord
  rw [clientData]
  simp only [Option.bind_eq_bind, Option.bind_some, rpId, matched, if_true, authenticatorData, named,
    found, signature]
  exact if_pos checked

/-- Ann and Bob each register a credential, and Ann is asked to authenticate. -/
def registeredRun : List Input :=
  [⟨0, .generateWebauthnRegistrationOptions "ann" "Ann" none⟩,
    ⟨1, .verifyWebauthnRegistration "ann" (sampleCredential 1 0)⟩,
    ⟨2, .generateWebauthnRegistrationOptions "bob" "Bob" none⟩,
    ⟨3, .verifyWebauthnRegistration "bob" (sampleCredential 2 1)⟩,
    ⟨4, .generateWebauthnAuthenticationOptions "ann"⟩]

theorem run_registeredRun : run (step sampleEnv) (new sampleSettings) registeredRun =
    (step sampleEnv (((new sampleSettings).withSample 1 "ann" "Ann" 0 1).withSample 2 "bob" "Bob" 2 3)
      ⟨4, .generateWebauthnAuthenticationOptions "ann"⟩).1 := by
  have parts : registeredRun = [⟨0, .generateWebauthnRegistrationOptions "ann" "Ann" none⟩,
      ⟨1, .verifyWebauthnRegistration "ann" (sampleCredential 1 0)⟩] ++
    ([⟨2, .generateWebauthnRegistrationOptions "bob" "Bob" none⟩,
      ⟨3, .verifyWebauthnRegistration "bob" (sampleCredential 2 1)⟩] ++
    [⟨4, .generateWebauthnAuthenticationOptions "ann"⟩]) := rfl
  rw [parts, run_append, run_sample (s := new sampleSettings) (n := 0) rfl rfl (by decide) (by grind),
    run_append, run_sample (s := (new sampleSettings).withSample 1 "ann" "Ann" 0 1) (n := 1) rfl rfl
      (by decide) (by grind), run_cons, run_nil]

theorem borrowed_credential_accepted :
    ¬∀ l e l', trace (step sampleEnv) (new sampleSettings)
        (registeredRun ++ [⟨5, .verifyWebauthnAuthentication "ann" (sampleAssertion 2 2)⟩]) =
      l ++ e :: l' → OwnersRespected sampleEnv l e := by
  intro respected
  have stored : (step sampleEnv (((new sampleSettings).withSample 1 "ann" "Ann" 0 1).withSample 2 "bob"
      "Bob" 2 3) ⟨4, .generateWebauthnAuthenticationOptions "ann"⟩).1.webauthnCredentials.get?
        (credentialKey [2]) = some (sampleStored 2 "bob" 3) := by
    decide +kernel
  have accepted : (entry (step sampleEnv) (run (step sampleEnv) (new sampleSettings) registeredRun)
      ⟨5, .verifyWebauthnAuthentication "ann" (sampleAssertion 2 2)⟩).output = .ok (.answer true) := by
    rw [entry_output, run_registeredRun]
    exact step_authenticated (Dict.get?_set_self _ _ _) (by grind)
      (assertionRecord_sample rfl stored rfl)
  have recorded := handlesRecorded_run sampleEnv sampleSettings registeredRun
  rw [run_registeredRun] at recorded
  obtain ⟨u, last, handle⟩ := recorded _ _ stored
  have owned := (respected _ _ [] (trace_append _)).authentication "ann" (sampleAssertion 2 2) _ rfl
    accepted (namedCredential_sample 2 2)
  obtain rfl : u = "ann" := Option.some.inj (last.symm.trans owned)
  exact absurd (encodeUtf8_injective handle) (by decide)

end BtApiSecurity.Mfa.MFAProvider
