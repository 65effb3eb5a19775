import BtApiSecurity.Mfa.Challenges

/-!
# An honest WebAuthn ceremony

A client sends the challenge back in base64url without padding. The provider hands
out, keeps and compares the padded text.
-/

namespace BtApiSecurity.Mfa.MFAProvider
open Py Machine

variable {env : Env} {s : MFAProvider} {now : Time} {u : String}

/-! ### What a client sends -/

def bigEndian : Nat → Nat → Bytes
  | 0, _ => []
  | k + 1, n => UInt8.ofNat (n / 256 ^ k) :: bigEndian k n

def unpadded (bytes : Bytes) : String :=
  String.ofList (((b64Chars bytes).map urlChar).filter (· ≠ '='))

/-- What an authenticator attests when it makes a credential. -/
structure Attested where
  rpIdHash : Bytes
  flags : UInt8
  signCount : Nat
  aaguid : Bytes
  credentialId : Bytes
  publicKey : Bytes
  rpIdHash_length : rpIdHash.length = 32
  signCount_lt : signCount < 256 ^ 4
  aaguid_length : aaguid.length = 16
  credentialId_lt : credentialId.length < 256 ^ 2

def Attested.authData (a : Attested) : Bytes :=
  a.rpIdHash ++ (a.flags :: (bigEndian 4 a.signCount ++ (a.aaguid ++
    (bigEndian 2 a.credentialId.length ++ (a.credentialId ++ a.publicKey)))))

def clientData (env : Env) (json : Option String) : Option Value :=
  (json.bind decodeField).bind env.jsonLoads

def states (type challenge origin : String) : Option Value → Bool
  | some (.dict items) =>
    (field "type" items).pyEq (.str type) && (field "challenge" items).pyEq (.str challenge) &&
      (field "origin" items).pyEq (.str origin)
  | _ => false

/-- The response of a conforming client to registration options with this challenge. -/
structure Conforms (env : Env) (rpId : String) (challenge : Bytes) (a : Attested)
    (data : CredentialData) : Prop where
  clientData : states "webauthn.create" (unpadded challenge) ("https://" ++ rpId)
    (clientData env data.clientDataJSON) = true
  attestation : (data.attestationObject.bind decodeField).bind env.cborAuthData = some a.authData

/-- The response of a conforming client to authentication options with this challenge. -/
structure Asserts (env : Env) (rpId : String) (challenge : Bytes) (a : Attested)
    (data : AssertionData) : Prop where
  clientData : states "webauthn.get" (unpadded challenge) ("https://" ++ rpId)
    (clientData env data.clientDataJSON) = true
  authenticatorData : ∃ flags signCount, flags &&& 1 ≠ 0 ∧ flags &&& 4 ≠ 0 ∧
    a.signCount < signCount ∧ signCount < 256 ^ 4 ∧
    data.authenticatorData.bind decodeField = some (a.rpIdHash ++ flags :: bigEndian 4 signCount)
  credentialId : data.credentialId.bind decodeField = some a.credentialId
  signature : (data.signature.bind decodeField).isSome = true

/-- The registration succeeds and stores what was attested. -/
def Registers (env : Env) (s : MFAProvider) (now : Time) (u : String) (a : Attested)
    (data : CredentialData) : Prop :=
  (step env s ⟨now, .verifyWebauthnRegistration u data⟩).2 = .ok (.answer true) ∧
    ∃ credential, (step env s ⟨now, .verifyWebauthnRegistration u data⟩).1.webauthnCredentials.get?
        (credentialKey a.credentialId) = some credential ∧
      credential.credentialId = a.credentialId ∧ credential.publicKey = a.publicKey ∧
      credential.signCount = a.signCount

def Authenticates (env : Env) (s : MFAProvider) (now : Time) (u : String) (data : AssertionData) :
    Prop :=
  (step env s ⟨now, .verifyWebauthnAuthentication u data⟩).2 = .ok (.answer true)

/-! ### Padding -/

theorem padding_mem_b64Chars {bytes : Bytes} (partial_group : bytes.length % 3 ≠ 0) :
    '=' ∈ b64Chars bytes := by
  induction bytes using b64Chars.induct with
  | case1 a b c rest ih =>
    have shorter : rest.length % 3 ≠ 0 := by
      simp only [List.length_cons] at partial_group
      omega
    simp only [b64Chars, List.mem_cons]
    exact .inr (.inr (.inr (.inr (ih shorter))))
  | case2 a b => simp [b64Chars]
  | case3 a => simp [b64Chars]
  | case4 => exact absurd rfl partial_group

theorem padding_mem_urlsafe {bytes : Bytes} (length : bytes.length = 32) :
    '=' ∈ (urlsafeB64encode bytes).toList := by
  have padded : '=' ∈ b64Chars bytes := padding_mem_b64Chars (by omega)
  rw [urlsafeB64encode, String.toList_ofList]
  exact List.mem_map.mpr ⟨'=', padded, rfl⟩

theorem padding_not_mem_unpadded (bytes : Bytes) : '=' ∉ (unpadded bytes).toList := by
  rw [unpadded, String.toList_ofList]
  simp

theorem not_matches_of_states {type origin : String} {bytes : Bytes} {challenge : Challenge}
    {value : Option Value} (padded : '=' ∈ challenge.challenge.toList)
    (said : states type (unpadded bytes) origin value = true) (rpId : String) :
    clientDataMatches rpId challenge type value = false := by
  unfold states at said
  split at said
  · rename_i items
    simp only [Bool.and_eq_true, Value.pyEq_eq_str] at said
    have other : unpadded bytes ≠ challenge.challenge := by
      intro same
      rw [← same] at padded
      exact padding_not_mem_unpadded bytes padded
    simp [clientDataMatches, said.1.2, other]
  · cases said

/-! ### Runs -/

/-- Every pending challenge is kept with its padding. -/
def Padded (s : MFAProvider) : Prop :=
  ∀ key challenge, s.webauthnChallenges.get? key = some challenge → '=' ∈ challenge.challenge.toList

theorem padded_run (lengths : ∀ n, (env.tokenBytes n).length = 32) (settings : Settings)
    (is : List Input) : Padded (run (step env) (new settings) is) := by
  refine run_invariant (fun _ _ pending => by cases pending) ?_
  intro s i padded key challenge pending
  rcases pending_cases pending with ⟨-, before⟩ | ⟨issued, drawn, at_key⟩
  · exact padded key challenge before
  · split at at_key
    · rw [at_key, (issue_drawn drawn).1]
      exact padding_mem_urlsafe (lengths s.drawn)
    · exact padded key challenge at_key

theorem clientData_decoded {json : Option String} {bytes : Bytes}
    (decoded : json.bind decodeField = some bytes) : clientData env json = env.jsonLoads bytes := by
  rw [clientData, decoded]
  rfl

theorem clientDataMatches_decoded {challenge : Challenge} {type : String} {json : Option String}
    (matched : clientDataMatches s.settings.rpId challenge type (clientData env json) = true) :
    ∃ bytes, json.bind decodeField = some bytes ∧
      clientDataMatches s.settings.rpId challenge type (env.jsonLoads bytes) = true := by
  cases decoded : json.bind decodeField with
  | none =>
    rw [clientData, decoded] at matched
    cases matched
  | some bytes => exact ⟨bytes, rfl, clientData_decoded decoded ▸ matched⟩

/-- Client data that names the challenge without its padding gives no record of either kind. -/
theorem record_unmatched {α : Type} {key type origin : String} {bytes : Bytes} {json : Option String}
    {kept : Challenge} {next : Bytes → Option α} (padded : Padded s)
    (pending : s.webauthnChallenges.get? key = some kept)
    (said : states type (unpadded bytes) origin (clientData env json) = true) :
    ((json.bind decodeField).bind fun decoded =>
      if clientDataMatches s.settings.rpId kept type (env.jsonLoads decoded) = true then next decoded
      else none) = none := by
  have unmatched := not_matches_of_states (padded key kept pending) said s.settings.rpId
  cases decoded : json.bind decodeField with
  | none => rfl
  | some bytes =>
    rw [clientData_decoded decoded] at unmatched
    exact if_neg (by simp [unmatched])

theorem registration_refused (padded : Padded s) {rpId : String} {challenge : Bytes} {a : Attested}
    {data : CredentialData} (honest : Conforms env rpId challenge a data) :
    (step env s ⟨now, .verifyWebauthnRegistration u data⟩).2 = .ok (.answer false) := by
  simp only [step, perform, verifyWebauthnRegistration, Method.run_map, Method.run_bind,
    Method.run_read]
  cases pending : s.webauthnChallenges.get? u with
  | none => rfl
  | some kept =>
    have refused : registrationRecord env s now u kept data = none :=
      record_unmatched padded pending honest.clientData
    by_cases late : kept.expiresAt < now <;> simp only [late, refused] <;> rfl

theorem authentication_refused (padded : Padded s) {rpId : String} {challenge : Bytes} {a : Attested}
    {data : AssertionData} (honest : Asserts env rpId challenge a data) :
    (step env s ⟨now, .verifyWebauthnAuthentication u data⟩).2 = .ok (.answer false) := by
  simp only [step, perform, verifyWebauthnAuthentication, Method.run_map, Method.run_bind,
    Method.run_read]
  cases pending : s.webauthnChallenges.get? (authKey u) with
  | none => rfl
  | some kept =>
    have refused : assertionRecord env s kept data = none :=
      record_unmatched padded pending honest.clientData
    by_cases late : kept.expiresAt < now <;> simp only [late, refused] <;> rfl

/-! ### Offsets -/

theorem length_bigEndian (k n : Nat) : (bigEndian k n).length = k := by
  induction k with
  | zero => rfl
  | succ k ih => simp [bigEndian, ih]

theorem foldl_bigEndian (k n acc : Nat) :
    (bigEndian k n).foldl (fun m b => m * 256 + b.toNat) acc = acc * 256 ^ k + n % 256 ^ k := by
  induction k generalizing acc with
  | zero => simp [bigEndian, Nat.mod_one]
  | succ k ih =>
    rw [bigEndian, List.foldl_cons, ih, UInt8.toNat_ofNat', show 2 ^ 8 = 256 from rfl, Nat.add_mul,
      Nat.mul_assoc, ← Nat.pow_succ', Nat.pow_succ, Nat.mod_mul,
      Nat.mul_comm (256 ^ k) (n / 256 ^ k % 256)]
    omega

theorem fromBytes_bigEndian {k n : Nat} (small : n < 256 ^ k) : fromBytes (bigEndian k n) = n := by
  rw [fromBytes, foldl_bigEndian, Nat.mod_eq_of_lt small, Nat.zero_mul, Nat.zero_add]

/-- What follows the AAGUID's first two bytes, where the provider reads the length of the
credential id. -/
def Attested.afterLength (a : Attested) : Bytes :=
  a.aaguid.drop 2 ++ (bigEndian 2 a.credentialId.length ++ (a.credentialId ++ a.publicKey))

theorem slice_eq (bytes : Bytes) (start stop : Nat) :
    slice bytes start stop = (bytes.drop start).take (stop - start) := List.drop_take

theorem drop_authData (a : Attested) : a.authData.drop 33 = bigEndian 4 a.signCount ++ (a.aaguid ++
    (bigEndian 2 a.credentialId.length ++ (a.credentialId ++ a.publicKey))) := by
  have front : (a.rpIdHash ++ [a.flags]).length = 33 := by
    rw [List.length_append, a.rpIdHash_length]
    rfl
  rw [Attested.authData, ← List.singleton_append, ← List.append_assoc, List.drop_left' front]

theorem signCount_read (a : Attested) : fromBytes (slice a.authData 33 37) = a.signCount := by
  rw [slice_eq, drop_authData, List.take_left' (length_bigEndian 4 _), fromBytes_bigEndian a.signCount_lt]

theorem drop_signCount (a : Attested) : a.authData.drop 37 = a.aaguid ++
    (bigEndian 2 a.credentialId.length ++ (a.credentialId ++ a.publicKey)) := by
  rw [show 37 = 33 + 4 from rfl, ← List.drop_drop, drop_authData, List.drop_left' (length_bigEndian 4 _)]

theorem length_read (a : Attested) : slice a.authData 37 39 = a.aaguid.take 2 := by
  have long : 2 ≤ a.aaguid.length := by
    rw [a.aaguid_length]
    decide
  rw [slice_eq, drop_signCount, List.take_append_of_le_length long]

theorem drop_length (a : Attested) : a.authData.drop 39 = a.afterLength := by
  have long : 2 ≤ a.aaguid.length := by
    rw [a.aaguid_length]
    decide
  rw [show 39 = 37 + 2 from rfl, ← List.drop_drop, drop_signCount, List.drop_append_of_le_length long]
  rfl

/-- A response whose challenge matches is stored under what follows the first two bytes of the
AAGUID, not under the credential id that was attested. -/
theorem registrationRecord_authData {kept : Challenge} {a : Attested} {data : CredentialData}
    (said : clientDataMatches s.settings.rpId kept "webauthn.create"
      (clientData env data.clientDataJSON) = true)
    (attestation : (data.attestationObject.bind decodeField).bind env.cborAuthData = some a.authData) :
    registrationRecord env s now u kept data = some
      { credentialId := a.afterLength.take (fromBytes (a.aaguid.take 2))
        publicKey := a.afterLength.drop (fromBytes (a.aaguid.take 2))
        signCount := a.signCount, userHandle := encodeUtf8 u, rpId := s.settings.rpId
        createdAt := now } := by
  have long : 33 ≤ a.authData.length := by
    rw [Attested.authData, List.length_append, a.rpIdHash_length, List.length_cons]
    omega
  obtain ⟨json, decoded, said⟩ := clientDataMatches_decoded said
  obtain ⟨cbor, decoded', authData⟩ := Option.bind_eq_some_iff.mp attestation
  simp only [registrationRecord, Option.bind_eq_bind, Option.bind_some, decoded, said, if_true,
    decoded', authData, long, length_read, signCount_read]
  rw [slice_eq, ← List.drop_drop, drop_length, Nat.add_sub_cancel_left]
  rfl

/-! ### Never -/

/-- In no state that a provider reaches does a conforming response succeed, whatever challenge it
answers. -/
theorem honest_ceremony_fails (env : Env) (lengths : ∀ n, (env.tokenBytes n).length = 32)
    (settings : Settings) (is : List Input) (now : Time) (u : String) (challenge : Bytes)
    (a : Attested) :
    (∀ data, Conforms env settings.rpId challenge a data →
      ¬Registers env (run (step env) (new settings) is) now u a data) ∧
    ∀ data, Asserts env settings.rpId challenge a data →
      ¬Authenticates env (run (step env) (new settings) is) now u data := by
  have padded := padded_run lengths settings is
  constructor
  · rintro data honest ⟨accepted, -⟩
    rw [registration_refused padded honest] at accepted
    cases accepted
  · intro data honest accepted
    unfold Authenticates at accepted
    rw [authentication_refused padded honest] at accepted
    cases accepted

def sampleAttested : Attested where
  rpIdHash := List.replicate 32 0
  flags := 0x45
  signCount := 0
  aaguid := List.replicate 16 0
  credentialId := [1]
  publicKey := [9]
  rpIdHash_length := List.length_replicate
  signCount_lt := Nat.pow_pos (Nat.zero_lt_succ 255)
  aaguid_length := List.length_replicate
  credentialId_lt := Nat.lt_of_sub_eq_succ rfl

def honestClientData (type challenge : String) : String :=
  let json := ['\x7b'] ++ "\"type\":\"".toList ++ type.toList ++ "\",\"challenge\":\"".toList ++
    challenge.toList ++ "\",\"origin\":\"https://localhost\"".toList ++ ['\x7d']
  b64encode (json.map fun c => UInt8.ofNat c.toNat)

def honestResponse : CredentialData :=
  { clientDataJSON := some (honestClientData "webauthn.create" (unpadded (sampleEnv.tokenBytes 0)))
    attestationObject := some (b64encode
      ([0xa1, 0x68, 0x61, 0x75, 0x74, 0x68, 0x44, 0x61, 0x74, 0x61, 0x58, 57] ++
        sampleAttested.authData)) }

theorem honestResponse_conforms :
    Conforms sampleEnv sampleSettings.rpId (sampleEnv.tokenBytes 0) sampleAttested honestResponse where
  clientData := by
    rw [honestResponse, clientData, Option.bind_some, honestClientData, decodeField_b64encode]
    decide +kernel
  attestation := by
    rw [honestResponse, Option.bind_some, decodeField_b64encode]
    decide +kernel

theorem honestResponse_fails :
    ¬Registers sampleEnv (run (step sampleEnv) (new sampleSettings)
      [⟨0, .generateWebauthnRegistrationOptions "ann" "Ann" none⟩]) 1 "ann" sampleAttested
        honestResponse :=
  (honest_ceremony_fails sampleEnv (fun _ => by simp [sampleEnv]) sampleSettings _ 1 "ann"
    (sampleEnv.tokenBytes 0) sampleAttested).1 honestResponse honestResponse_conforms

theorem honest_registration_refused :
    ¬∀ (s : MFAProvider) user username displayName t₀ t₁ a data,
      Conforms sampleEnv s.settings.rpId (sampleEnv.tokenBytes s.drawn) a data → t₁ ≤ t₀ + 300 →
      Registers sampleEnv (step sampleEnv s
        ⟨t₀, .generateWebauthnRegistrationOptions user username displayName⟩).1 t₁ user a data := by
  intro succeeds
  have lengths : ∀ n, (sampleEnv.tokenBytes n).length = 32 := fun _ => by simp [sampleEnv]
  have padded := padded_run lengths sampleSettings
    [⟨0, .generateWebauthnRegistrationOptions "ann" "Ann" none⟩]
  rw [run_cons, run_nil] at padded
  have accepted := (succeeds (new sampleSettings) "ann" "Ann" none 0 1 sampleAttested honestResponse
    honestResponse_conforms (by decide +kernel)).1
  rw [registration_refused padded honestResponse_conforms] at accepted
  cases accepted

end BtApiSecurity.Mfa.MFAProvider
