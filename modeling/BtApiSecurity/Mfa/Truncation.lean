import BtApiSecurity.Mfa.Ceremony
import BtApiSecurity.Mfa.Ownership

/-!
# Data that is cut off

A slice behind the end of the data is short or empty, and the number in it is read
all the same. All that is required of the length is the one byte with the flags.
-/

namespace BtApiSecurity.Mfa.MFAProvider
open Py Machine

variable {env : Env} {s : MFAProvider} {now : Time} {userId : String}
  {credentialData : CredentialData} {assertionData : AssertionData}

/-! ### What should be rejected -/

/-- `authData` of the decoded attestation object. -/
def attestedData (env : Env) (data : CredentialData) : Option Bytes :=
  (data.attestationObject.bind decodeField).bind env.cborAuthData

/-- The length that the data gives for its credential id. -/
def declaredLength (authData : Bytes) : Nat := fromBytes (slice authData 37 39)

/-- All bytes that are read are there, and neither the credential id nor the public key is empty. -/
structure Complete (authData : Bytes) : Prop where
  held : 39 + declaredLength authData ≤ authData.length
  credentialId : slice authData 39 (39 + declaredLength authData) ≠ []
  publicKey : authData.drop (39 + declaredLength authData) ≠ []

/-- Credentials and configurations are as before, and of the challenges at most that of the user is
gone, which had expired. -/
structure Untouched (s s' : MFAProvider) (now : Time) (key : String) : Prop where
  credentials : s'.webauthnCredentials = s.webauthnCredentials
  configs : s'.mfaConfigs = s.mfaConfigs
  challenges : s'.webauthnChallenges = s.webauthnChallenges ∨
    ∃ challenge, s.webauthnChallenges.get? key = some challenge ∧ challenge.expiresAt < now ∧
      s'.webauthnChallenges = s.webauthnChallenges.erase key

/-- What is accepted was not cut off, and what is refused leaves no trace. -/
structure RejectsTruncated (env : Env) (s : MFAProvider) (now : Time) (userId : String)
    (credentialData : CredentialData) (assertionData : AssertionData) : Prop where
  registration : (step env s ⟨now, .verifyWebauthnRegistration userId credentialData⟩).2 =
    .ok (.answer true) → ∃ authData, attestedData env credentialData = some authData ∧ Complete authData
  authentication : (step env s ⟨now, .verifyWebauthnAuthentication userId assertionData⟩).2 =
    .ok (.answer true) →
      ∃ bytes, assertionData.authenticatorData.bind decodeField = some bytes ∧ 37 ≤ bytes.length
  refusedRegistration : (step env s ⟨now, .verifyWebauthnRegistration userId credentialData⟩).2 =
    .ok (.answer false) →
      Untouched s (step env s ⟨now, .verifyWebauthnRegistration userId credentialData⟩).1 now userId
  refusedAuthentication : (step env s ⟨now, .verifyWebauthnAuthentication userId assertionData⟩).2 =
    .ok (.answer false) →
      Untouched s (step env s ⟨now, .verifyWebauthnAuthentication userId assertionData⟩).1 now
        (authKey userId)

/-! ### What is checked -/

/-- The client data answers the challenge under the key, which has not expired. -/
def Answers (env : Env) (s : MFAProvider) (now : Time) (key type : String) (json : Option String) :
    Prop :=
  ∃ challenge, s.webauthnChallenges.get? key = some challenge ∧ ¬challenge.expiresAt < now ∧
    clientDataMatches s.settings.rpId challenge type (clientData env json) = true

/-- The assertion names a stored credential, its fields can be decoded, and the flags and the sign count
in its data are as required. -/
structure Vouches (s : MFAProvider) (data : AssertionData) (bytes : Bytes) : Prop where
  decoded : data.authenticatorData.bind decodeField = some bytes
  credential : ∃ key credential, namedCredential data = some key ∧
    s.webauthnCredentials.get? key = some credential ∧
    credential.signCount < fromBytes (slice bytes 33 37)
  signature : (data.signature.bind decodeField).isSome = true
  flags : ∃ flags, bytes[32]? = some flags ∧ flags &&& 1 ≠ 0 ∧ flags &&& 4 ≠ 0

/-- Whatever passes the checks is long enough. -/
structure LongEnough (env : Env) (s : MFAProvider) (now : Time) (userId : String)
    (credentialData : CredentialData) (assertionData : AssertionData) : Prop where
  registration : ∀ authData,
    Answers env s now userId "webauthn.create" credentialData.clientDataJSON →
    attestedData env credentialData = some authData → 33 ≤ authData.length →
    0 < declaredLength authData ∧ 39 + declaredLength authData < authData.length
  authentication : ∀ bytes,
    Answers env s now (authKey userId) "webauthn.get" assertionData.clientDataJSON →
    Vouches s assertionData bytes → 37 ≤ bytes.length

theorem complete_iff {authData : Bytes} : Complete authData ↔
    0 < declaredLength authData ∧ 39 + declaredLength authData < authData.length := by
  constructor
  · rintro ⟨held, credentialId, publicKey⟩
    rw [ne_eq, List.drop_eq_nil_iff, Nat.not_le] at publicKey
    refine ⟨?_, publicKey⟩
    rw [ne_eq, slice, List.drop_eq_nil_iff, List.length_take, Nat.not_le] at credentialId
    omega
  · rintro ⟨positive, more⟩
    refine ⟨Nat.le_of_lt more, ?_, ?_⟩
    · rw [ne_eq, slice, List.drop_eq_nil_iff, List.length_take, Nat.not_le]
      omega
    · rw [ne_eq, List.drop_eq_nil_iff, Nat.not_le]
      exact more

/-! ### What is accepted -/

theorem registrationRecord_iff {challenge : Challenge} :
    (∃ credential, registrationRecord env s now userId challenge credentialData = some credential) ↔
      clientDataMatches s.settings.rpId challenge "webauthn.create"
          (clientData env credentialData.clientDataJSON) = true ∧
        ∃ authData, attestedData env credentialData = some authData ∧ 33 ≤ authData.length := by
  constructor
  · rintro ⟨credential, accepted⟩
    obtain ⟨json, decoded, accepted⟩ := Option.bind_eq_some_iff.mp accepted
    split at accepted
    · rename_i matched
      obtain ⟨attestation, attested, accepted⟩ := Option.bind_eq_some_iff.mp accepted
      obtain ⟨authData, held, accepted⟩ := Option.bind_eq_some_iff.mp accepted
      split at accepted
      · rename_i long
        refine ⟨clientData_decoded decoded ▸ matched, authData, ?_, long⟩
        rw [attestedData, attested, Option.bind_some, held]
      · cases accepted
    · cases accepted
  · rintro ⟨matched, authData, attested, long⟩
    obtain ⟨json, decoded, matched⟩ := clientDataMatches_decoded matched
    obtain ⟨attestation, attested, held⟩ := Option.bind_eq_some_iff.mp attested
    exact ⟨_, by
      simp only [registrationRecord, Option.bind_eq_bind, decoded, Option.bind_some, matched, if_true,
        attested, held, long]
      rfl⟩

theorem assertionRecord_iff {challenge : Challenge} :
    (∃ record, assertionRecord env s challenge assertionData = some record) ↔
      clientDataMatches s.settings.rpId challenge "webauthn.get"
          (clientData env assertionData.clientDataJSON) = true ∧
        ∃ bytes, Vouches s assertionData bytes := by
  constructor
  · rintro ⟨record, accepted⟩
    obtain ⟨json, decoded, accepted⟩ := Option.bind_eq_some_iff.mp accepted
    split at accepted
    · rename_i matched
      obtain ⟨bytes, held, accepted⟩ := Option.bind_eq_some_iff.mp accepted
      obtain ⟨key, named, accepted⟩ := Option.bind_eq_some_iff.mp accepted
      obtain ⟨credential, found, accepted⟩ := Option.bind_eq_some_iff.mp accepted
      obtain ⟨signature, signed, accepted⟩ := Option.bind_eq_some_iff.mp accepted
      obtain ⟨flags, flagged, accepted⟩ := Option.bind_eq_some_iff.mp accepted
      dsimp only at accepted
      split at accepted
      · rename_i fit
        refine ⟨clientData_decoded decoded ▸ matched, bytes, held, ⟨key, credential, named, found, ?_⟩,
          by rw [signed]; rfl, flags, flagged, ?_⟩
        · exact fit.2.2
        · exact ⟨fit.1, fit.2.1⟩
      · cases accepted
    · cases accepted
  · rintro ⟨matched, bytes, held, ⟨key, credential, named, found, above⟩, signed, flags, flagged, fit⟩
    obtain ⟨json, decoded, matched⟩ := clientDataMatches_decoded matched
    obtain ⟨signature, signed⟩ := Option.isSome_iff_exists.mp signed
    exact ⟨(key, credential, fromBytes (slice bytes 33 37)), by
      simp only [assertionRecord, Option.bind_eq_bind, decoded, Option.bind_some, matched, if_true, held,
        named, found, signed, flagged]
      exact if_pos ⟨fit.1, fit.2, above⟩⟩

theorem registers_iff :
    (step env s ⟨now, .verifyWebauthnRegistration userId credentialData⟩).2 = .ok (.answer true) ↔
      Answers env s now userId "webauthn.create" credentialData.clientDataJSON ∧
        ∃ authData, attestedData env credentialData = some authData ∧ 33 ≤ authData.length := by
  constructor
  · intro accepted
    have outcome := step_outcome env s ⟨now, .verifyWebauthnRegistration userId credentialData⟩
    rw [accepted] at outcome
    generalize (step env s ⟨now, .verifyWebauthnRegistration userId credentialData⟩).1 = s' at outcome
    cases outcome with
    | answered _ _ reads => cases reads
    | registered pending timely accepted =>
      obtain ⟨matched, attested⟩ := registrationRecord_iff.mp ⟨_, accepted⟩
      exact ⟨⟨_, pending, timely, matched⟩, attested⟩
  · rintro ⟨⟨challenge, pending, timely, matched⟩, attested⟩
    obtain ⟨credential, accepted⟩ := registrationRecord_iff.mpr ⟨matched, attested⟩
    rw [step_registered pending timely accepted]

theorem authenticates_iff :
    (step env s ⟨now, .verifyWebauthnAuthentication userId assertionData⟩).2 = .ok (.answer true) ↔
      Answers env s now (authKey userId) "webauthn.get" assertionData.clientDataJSON ∧
        ∃ bytes, Vouches s assertionData bytes := by
  constructor
  · intro accepted
    have outcome := step_outcome env s ⟨now, .verifyWebauthnAuthentication userId assertionData⟩
    rw [accepted] at outcome
    generalize (step env s ⟨now, .verifyWebauthnAuthentication userId assertionData⟩).1 = s' at outcome
    cases outcome with
    | answered _ _ reads => cases reads
    | authenticated pending timely accepted =>
      obtain ⟨matched, vouched⟩ := assertionRecord_iff.mp ⟨_, accepted⟩
      exact ⟨⟨_, pending, timely, matched⟩, vouched⟩
  · rintro ⟨⟨challenge, pending, timely, matched⟩, vouched⟩
    obtain ⟨⟨key, credential, signCount⟩, accepted⟩ := assertionRecord_iff.mpr ⟨matched, vouched⟩
    exact step_authenticated pending timely accepted

/-! ### What is refused -/

theorem untouched_registration
    (refused : (step env s ⟨now, .verifyWebauthnRegistration userId credentialData⟩).2 =
      .ok (.answer false)) :
    Untouched s (step env s ⟨now, .verifyWebauthnRegistration userId credentialData⟩).1 now userId := by
  have outcome := step_outcome env s ⟨now, .verifyWebauthnRegistration userId credentialData⟩
  rw [refused] at outcome
  generalize (step env s ⟨now, .verifyWebauthnRegistration userId credentialData⟩).1 = s' at outcome
  cases outcome with
  | answered _ _ reads => cases reads
  | refused => exact ⟨rfl, rfl, .inl rfl⟩
  | registrationExpired pending late => exact ⟨rfl, rfl, .inr ⟨_, pending, late, rfl⟩⟩

theorem untouched_authentication
    (refused : (step env s ⟨now, .verifyWebauthnAuthentication userId assertionData⟩).2 =
      .ok (.answer false)) :
    Untouched s (step env s ⟨now, .verifyWebauthnAuthentication userId assertionData⟩).1 now
      (authKey userId) := by
  have outcome := step_outcome env s ⟨now, .verifyWebauthnAuthentication userId assertionData⟩
  rw [refused] at outcome
  generalize (step env s ⟨now, .verifyWebauthnAuthentication userId assertionData⟩).1 = s' at outcome
  cases outcome with
  | answered _ _ reads => cases reads
  | refused => exact ⟨rfl, rfl, .inl rfl⟩
  | authenticationExpired pending late => exact ⟨rfl, rfl, .inr ⟨_, pending, late, rfl⟩⟩

/-! ### The exact condition -/

theorem longEnough_of_rejects
    (rejects : RejectsTruncated env s now userId credentialData assertionData) :
    LongEnough env s now userId credentialData assertionData := by
  refine ⟨?_, ?_⟩
  · intro authData answers attested long
    obtain ⟨authData', attested', complete⟩ :=
      rejects.registration (registers_iff.mpr ⟨answers, authData, attested, long⟩)
    obtain rfl : authData = authData' := Option.some.inj (attested.symm.trans attested')
    exact complete_iff.mp complete
  · intro bytes answers vouches
    obtain ⟨bytes', decoded, long⟩ :=
      rejects.authentication (authenticates_iff.mpr ⟨answers, bytes, vouches⟩)
    obtain rfl : bytes = bytes' := Option.some.inj (vouches.decoded.symm.trans decoded)
    exact long

theorem rejects_of_longEnough
    (long : LongEnough env s now userId credentialData assertionData) :
    RejectsTruncated env s now userId credentialData assertionData := by
  refine ⟨?_, ?_, untouched_registration, untouched_authentication⟩
  · intro accepted
    obtain ⟨answers, authData, attested, flagged⟩ := registers_iff.mp accepted
    exact ⟨authData, attested, complete_iff.mpr (long.registration authData answers attested flagged)⟩
  · intro accepted
    obtain ⟨answers, bytes, vouches⟩ := authenticates_iff.mp accepted
    exact ⟨bytes, vouches.decoded, long.authentication bytes answers vouches⟩

/-- Truncated data is rejected, if and only if no data that passes the checks is truncated: in a
registration one of 33 bytes or more, in an authentication one with flags and a greater count. -/
theorem rejectsTruncated_iff (env : Env) (s : MFAProvider) (now : Time) (userId : String)
    (credentialData : CredentialData) (assertionData : AssertionData) :
    RejectsTruncated env s now userId credentialData assertionData ↔
      LongEnough env s now userId credentialData assertionData :=
  ⟨longEnough_of_rejects, rejects_of_longEnough⟩

/-! ### Thirty-three bytes -/

/-- The authenticator data ends with the flags. -/
def truncatedCredential (n : Nat) : CredentialData :=
  { sampleCredential 1 n with
    attestationObject := some (b64encode
      ([0xa1, 0x68, 0x61, 0x75, 0x74, 0x68, 0x44, 0x61, 0x74, 0x61, 0x58, 33] ++
        List.replicate 32 0 ++ [0x45])) }

def offeredRun : List Input := [⟨0, .generateWebauthnRegistrationOptions "ann" "Ann" none⟩]

theorem truncated_registration_accepted : ¬∀ (env : Env) (s : MFAProvider) (now : Time) (userId : String)
    (credentialData : CredentialData) (assertionData : AssertionData),
    RejectsTruncated env s now userId credentialData assertionData := by
  intro rejects
  have truncated := rejects sampleEnv (run (step sampleEnv) (new sampleSettings) offeredRun) 1 "ann"
    (truncatedCredential 0) (sampleAssertion 1 0)
  obtain ⟨json, decoded, matched⟩ :=
    @sampleClientData_matches "webauthn.create" 0 (0 + 300) (.inl ⟨rfl, by decide⟩)
  have answers : Answers sampleEnv (run (step sampleEnv) (new sampleSettings) offeredRun) 1 "ann"
      "webauthn.create" (truncatedCredential 0).clientDataJSON := by
    refine ⟨_, Dict.get?_set_self _ _ _, by grind, ?_⟩
    rw [truncatedCredential, sampleCredential, clientData, Option.bind_some, decoded]
    exact matched
  have attested : attestedData sampleEnv (truncatedCredential 0) =
      some (List.replicate 32 0 ++ [0x45]) := by
    rw [attestedData, truncatedCredential, Option.bind_some, decodeField_b64encode]
    rfl
  obtain ⟨authData, attested', complete⟩ :=
    truncated.registration (registers_iff.mpr ⟨answers, _, attested, by decide⟩)
  obtain rfl := Option.some.inj (attested.symm.trans attested')
  exact absurd complete.held (by decide)

end BtApiSecurity.Mfa.MFAProvider
