import BtApiSecurity.Machine
import BtApiSecurity.Mfa.Provider
import BtApiSecurity.Py.Json.Parse

/-!
# What one call of the MFA provider does
-/

namespace BtApiSecurity.Mfa.MFAProvider
open Py

variable (env : Env) (s : MFAProvider) (now : Time)

def withConfig (userId : String) (config : MFAConfig) : MFAProvider :=
  { s with mfaConfigs := s.mfaConfigs.set userId config }

def withChallenge (key challenge : String) : MFAProvider :=
  { s with
    webauthnChallenges := s.webauthnChallenges.set key ⟨challenge, now + 300⟩
    drawn := s.drawn + 1 }

def withoutChallenge (key : String) : MFAProvider :=
  { s with webauthnChallenges := s.webauthnChallenges.erase key }

def withoutBackup (userId : String) (config : MFAConfig) (code : String) : MFAProvider :=
  s.withConfig userId
    { config with backupCodes := config.backupCodes.erase code, lastUsed := some now }

def registered (userId : String) (credential : WebAuthnCredential) : MFAProvider :=
  let key := credentialKey credential.credentialId
  { s with
    webauthnCredentials := s.webauthnCredentials.set key credential
    mfaConfigs := s.mfaConfigs.set userId
      { userId, mfaType := .webauthn, isEnabled := true, createdAt := now, credentialId := some key
        publicKey := some credential.publicKey, signCount := credential.signCount
        userHandle := some (encodeUtf8 userId) }
    webauthnChallenges := s.webauthnChallenges.erase userId }

def authenticated (userId key : String) (credential : WebAuthnCredential) (signCount : Nat) :
    MFAProvider :=
  { s with
    webauthnCredentials := s.webauthnCredentials.set key { credential with signCount }
    mfaConfigs := match s.mfaConfigs.get? userId with
      | none => s.mfaConfigs
      | some config => s.mfaConfigs.set userId { config with lastUsed := some now }
    webauthnChallenges := s.webauthnChallenges.erase (authKey userId) }

def disabled (userId : String) (config : MFAConfig) : MFAProvider :=
  { s with
    webauthnCredentials := match config.credentialId with
      | none => s.webauthnCredentials
      | some key => s.webauthnCredentials.erase key
    webauthnChallenges := (s.webauthnChallenges.erase userId).erase (authKey userId)
    mfaConfigs := s.mfaConfigs.erase userId }

def Call.reads : Call → Bool
  | .getMfaStatus _ | .isMfaEnabled _ => true
  | _ => false

def Call.asks : Call → Bool
  | .verifyTotp .. | .verifyHotp .. | .verifyWebauthnRegistration .. => true
  | .verifyWebauthnAuthentication .. | .disableMfa .. => true
  | _ => false

def shortOf (draws : List (Fin 1000000)) : Option Stop :=
  match backupCodesLoop s.settings.backupCodesCount [] draws with
  | none => some .unfinished
  | some _ => none

def stops : Call → Option Stop
  | .setupTotp _ _ draws | .setupHotp _ _ draws => s.shortOf draws
  | .generateWebauthnAuthenticationOptions userId =>
    if s.userCredentials userId = [] then
      some (.mfaError "No WebAuthn credentials found for user")
    else none
  | .regenerateBackupCodes userId draws =>
    match s.mfaConfigs.get? userId with
    | none => some (.mfaError "MFA not configured for user")
    | some _ => s.shortOf draws
  | _ => none

/-- What a call may do: the provider after it, and what it returned or raised. -/
inductive Outcome : Call → MFAProvider → Except Stop Reply → Prop
  | stopped (call : Call) (stop : Stop) (drawn : Nat) (reason : s.stops call = some stop) :
      Outcome call { s with drawn } (.error stop)
  | refused (call : Call) (asks : call.asks = true) : Outcome call s (.ok (.answer false))
  | answered (call : Call) (reply : Reply) (reads : call.reads = true) : Outcome call s (.ok reply)
  | totpSet {userId : String} {accountName : Option String} {draws : List (Fin 1000000)}
      {codes : List String} {setup : TotpSetup}
      (drew : backupCodesLoop s.settings.backupCodesCount [] draws = some codes)
      (secret : setup.secret = env.randomBase32 s.drawn) (batch : setup.backupCodes = codes) :
      Outcome (.setupTotp userId accountName draws)
        ({ s with drawn := s.drawn + 1 }.withConfig userId
          { userId, mfaType := .totp, isEnabled := false, secret := some (env.randomBase32 s.drawn)
            backupCodes := codes, createdAt := now })
        (.ok (.totp setup))
  | hotpSet {userId : String} {accountName : Option String} {draws : List (Fin 1000000)}
      {codes : List String} {setup : HotpSetup}
      (drew : backupCodesLoop s.settings.backupCodesCount [] draws = some codes)
      (secret : setup.secret = env.randomBase32 s.drawn) (batch : setup.backupCodes = codes) :
      Outcome (.setupHotp userId accountName draws)
        ({ s with drawn := s.drawn + 1 }.withConfig userId
          { userId, mfaType := .hotp, isEnabled := false, secret := some (env.randomBase32 s.drawn)
            backupCodes := codes, counter := s.settings.hotpCounterStart, createdAt := now })
        (.ok (.hotp setup))
  | totpBackup {userId token code : String} {config : MFAConfig}
      (found : s.mfaConfigs.get? userId = some config) (type : config.mfaType = .totp)
      (accepted : acceptsBackup config (some code) = true) :
      Outcome (.verifyTotp userId token (some code)) (s.withoutBackup now userId config code)
        (.ok (.answer true))
  | hotpBackup {userId token code : String} {config : MFAConfig}
      (found : s.mfaConfigs.get? userId = some config) (type : config.mfaType = .hotp)
      (accepted : acceptsBackup config (some code) = true) :
      Outcome (.verifyHotp userId token (some code)) (s.withoutBackup now userId config code)
        (.ok (.answer true))
  | totpAccepted {userId token secret : String} {backupCode : Option String} {config : MFAConfig}
      (found : s.mfaConfigs.get? userId = some config) (type : config.mfaType = .totp)
      (other : acceptsBackup config backupCode = false) (key : config.secret = some secret)
      (valid : env.totpVerify secret token now s.settings.totpWindow = true) :
      Outcome (.verifyTotp userId token backupCode)
        (s.withConfig userId { config with lastUsed := some now, isEnabled := true })
        (.ok (.answer true))
  | hotpAccepted {userId token secret : String} {backupCode : Option String} {config : MFAConfig}
      (found : s.mfaConfigs.get? userId = some config) (type : config.mfaType = .hotp)
      (other : acceptsBackup config backupCode = false) (key : config.secret = some secret)
      (valid : env.hotpVerify secret token config.counter = true) :
      Outcome (.verifyHotp userId token backupCode)
        (s.withConfig userId
          { config with counter := config.counter + 1, lastUsed := some now, isEnabled := true })
        (.ok (.answer true))
  | registrationOffered {userId username : String} {displayName : Option String}
      {options : RegistrationOptions}
      (drew : options.challenge = urlsafeB64encode (env.tokenBytes s.drawn)) :
      Outcome (.generateWebauthnRegistrationOptions userId username displayName)
        (s.withChallenge now userId options.challenge) (.ok (.registration options))
  | registrationExpired {userId : String} {data : CredentialData} {challenge : Challenge}
      (pending : s.webauthnChallenges.get? userId = some challenge)
      (late : challenge.expiresAt < now) :
      Outcome (.verifyWebauthnRegistration userId data) (s.withoutChallenge userId)
        (.ok (.answer false))
  | registered {userId : String} {data : CredentialData} {challenge : Challenge}
      {credential : WebAuthnCredential}
      (pending : s.webauthnChallenges.get? userId = some challenge)
      (timely : ¬challenge.expiresAt < now)
      (accepted : registrationRecord env s now userId challenge data = some credential) :
      Outcome (.verifyWebauthnRegistration userId data) (s.registered now userId credential)
        (.ok (.answer true))
  | authenticationOffered {userId : String} {options : AuthenticationOptions}
      (drew : options.challenge = urlsafeB64encode (env.tokenBytes s.drawn))
      (owner : s.userCredentials userId ≠ []) :
      Outcome (.generateWebauthnAuthenticationOptions userId)
        (s.withChallenge now (authKey userId) options.challenge) (.ok (.authentication options))
  | authenticationExpired {userId : String} {data : AssertionData} {challenge : Challenge}
      (pending : s.webauthnChallenges.get? (authKey userId) = some challenge)
      (late : challenge.expiresAt < now) :
      Outcome (.verifyWebauthnAuthentication userId data) (s.withoutChallenge (authKey userId))
        (.ok (.answer false))
  | authenticated {userId key : String} {data : AssertionData} {challenge : Challenge}
      {credential : WebAuthnCredential} {signCount : Nat}
      (pending : s.webauthnChallenges.get? (authKey userId) = some challenge)
      (timely : ¬challenge.expiresAt < now)
      (accepted : assertionRecord env s challenge data = some (key, credential, signCount)) :
      Outcome (.verifyWebauthnAuthentication userId data)
        (s.authenticated now userId key credential signCount) (.ok (.answer true))
  | disabled {userId code : String} {config : MFAConfig}
      (found : s.mfaConfigs.get? userId = some config)
      (accepted : acceptsBackup config (some code) = true) :
      Outcome (.disableMfa userId (some code)) (s.disabled userId config) (.ok (.answer true))
  | regenerated {userId : String} {draws : List (Fin 1000000)} {codes : List String}
      {config : MFAConfig} (found : s.mfaConfigs.get? userId = some config)
      (drew : backupCodesLoop s.settings.backupCodesCount [] draws = some codes) :
      Outcome (.regenerateBackupCodes userId draws)
        (s.withConfig userId { config with backupCodes := codes }) (.ok (.codes codes))

variable {env s now}

theorem authKey_injective : Function.Injective authKey := by
  intro u v same
  simpa [authKey] using same

theorem acceptsBackup_some {config : MFAConfig} {backupCode : Option String}
    (h : acceptsBackup config backupCode = true) :
    ∃ code, backupCode = some code ∧ code ∈ config.backupCodes := by
  obtain ⟨code, rfl, accepted⟩ := (Option.any_eq_true _ _).mp h
  simp only [Bool.and_eq_true, List.contains_iff_mem] at accepted
  exact ⟨code, rfl, accepted.2⟩

theorem verifyOtp_cases (s : MFAProvider) (now : Time) (mfaType : MFAType) (userId : String)
    (backupCode : Option String) (valid : String → MFAConfig → Bool)
    (onSuccess : MFAConfig → MFAConfig) :
    (verifyOtp now mfaType userId backupCode valid onSuccess).run s = (.ok false, s) ∨
    (∃ config code, backupCode = some code ∧ s.mfaConfigs.get? userId = some config ∧
      config.mfaType = mfaType ∧ acceptsBackup config (some code) = true ∧
      (verifyOtp now mfaType userId backupCode valid onSuccess).run s =
        (.ok true, s.withoutBackup now userId config code)) ∨
    ∃ config secret, s.mfaConfigs.get? userId = some config ∧ config.mfaType = mfaType ∧
      acceptsBackup config backupCode = false ∧ config.secret = some secret ∧
      valid secret config = true ∧
      (verifyOtp now mfaType userId backupCode valid onSuccess).run s =
        (.ok true, s.withConfig userId
          { onSuccess config with lastUsed := some now, isEnabled := true }) := by
  simp only [verifyOtp, Method.run_bind, Method.run_read]
  cases found : s.mfaConfigs.get? userId with
  | none => exact .inl rfl
  | some config =>
    by_cases type : config.mfaType = mfaType
    · subst type
      simp only [ne_eq, not_true_eq_false, if_false]
      cases accepted : acceptsBackup config backupCode with
      | true =>
        obtain ⟨code, rfl, -⟩ := acceptsBackup_some accepted
        exact .inr (.inl ⟨config, code, rfl, rfl, rfl, accepted, rfl⟩)
      | false =>
        cases key : config.secret with
        | none => exact .inl rfl
        | some secret =>
          by_cases blank : secret = ""
          · exact .inl (by simp [blank])
          · cases checked : valid secret config with
            | false => exact .inl (by simp [blank, checked])
            | true =>
              refine .inr (.inr ⟨config, secret, rfl, rfl, accepted, key, checked, ?_⟩)
              simp only [Bool.false_eq_true, if_false, blank, checked, if_true]
              rfl
    · exact .inl (by simp [type])

theorem outcome_verifyTotp {userId token : String} {backupCode : Option String} :
    let call := Call.verifyTotp userId token backupCode
    Outcome env s now call ((perform env now call).run s).2 ((perform env now call).run s).1 := by
  simp only [perform, verifyTotp, Method.run_map, Method.run_bind, Method.run_read]
  rcases verifyOtp_cases s now .totp userId backupCode _ id with
    run | ⟨config, code, rfl, found, type, accepted, run⟩ |
      ⟨config, secret, found, type, other, key, valid, run⟩
  · rw [run]
    exact .refused _ rfl
  · rw [run]
    exact .totpBackup found type accepted
  · rw [run]
    exact .totpAccepted found type other key valid

theorem outcome_verifyHotp {userId token : String} {backupCode : Option String} :
    let call := Call.verifyHotp userId token backupCode
    Outcome env s now call ((perform env now call).run s).2 ((perform env now call).run s).1 := by
  simp only [perform, verifyHotp, Method.run_map]
  rcases verifyOtp_cases s now .hotp userId backupCode _ _ with
    run | ⟨config, code, rfl, found, type, accepted, run⟩ |
      ⟨config, secret, found, type, other, key, valid, run⟩
  · rw [run]
    exact .refused _ rfl
  · rw [run]
    exact .hotpBackup found type accepted
  · rw [run]
    exact .hotpAccepted found type other key valid

theorem outcome_setupTotp {userId : String} {accountName : Option String}
    {draws : List (Fin 1000000)} :
    let call := Call.setupTotp userId accountName draws
    Outcome env s now call ((perform env now call).run s).2 ((perform env now call).run s).1 := by
  simp only [perform, setupTotp, draw, generateBackupCodes, Method.run_map, Method.run_bind,
    Method.run_read, Method.run_update, Method.run_check, Method.run_pure]
  cases drew : backupCodesLoop s.settings.backupCodesCount [] draws with
  | none => exact .stopped _ .unfinished (s.drawn + 1) (by rw [stops, shortOf, drew])
  | some codes => exact .totpSet drew rfl rfl

theorem outcome_setupHotp {userId : String} {accountName : Option String}
    {draws : List (Fin 1000000)} :
    let call := Call.setupHotp userId accountName draws
    Outcome env s now call ((perform env now call).run s).2 ((perform env now call).run s).1 := by
  simp only [perform, setupHotp, draw, generateBackupCodes, Method.run_map, Method.run_bind,
    Method.run_read, Method.run_update, Method.run_check, Method.run_pure]
  cases drew : backupCodesLoop s.settings.backupCodesCount [] draws with
  | none => exact .stopped _ .unfinished (s.drawn + 1) (by rw [stops, shortOf, drew])
  | some codes => exact .hotpSet drew rfl rfl

theorem outcome_verifyWebauthnRegistration {userId : String} {data : CredentialData} :
    let call := Call.verifyWebauthnRegistration userId data
    Outcome env s now call ((perform env now call).run s).2 ((perform env now call).run s).1 := by
  simp only [perform, verifyWebauthnRegistration, Method.run_map, Method.run_bind, Method.run_read]
  cases pending : s.webauthnChallenges.get? userId with
  | none => exact .refused _ rfl
  | some challenge =>
    by_cases late : challenge.expiresAt < now
    · simp only [late, if_true]
      exact .registrationExpired pending late
    · simp only [late, if_false]
      cases accepted : registrationRecord env s now userId challenge data with
      | none => exact .refused _ rfl
      | some credential => exact .registered pending late accepted

theorem outcome_generateWebauthnAuthenticationOptions {userId : String} :
    let call := Call.generateWebauthnAuthenticationOptions userId
    Outcome env s now call ((perform env now call).run s).2 ((perform env now call).run s).1 := by
  simp only [perform, generateWebauthnAuthenticationOptions, draw, Method.run_map, Method.run_bind,
    Method.run_read, Method.run_check]
  by_cases owner : s.userCredentials userId = []
  · have raised : ensure (s.userCredentials userId ≠ [])
        (Stop.mfaError "No WebAuthn credentials found for user") = .error (.mfaError _) :=
      if_neg (not_not_intro owner)
    rw [raised]
    exact .stopped _ _ s.drawn (by rw [stops, if_pos owner])
  · rw [show ensure _ _ = _ from if_pos owner]
    exact @Outcome.authenticationOffered _ _ _ _ ⟨_, _, _, _, _⟩ rfl owner

theorem outcome_verifyWebauthnAuthentication {userId : String} {data : AssertionData} :
    let call := Call.verifyWebauthnAuthentication userId data
    Outcome env s now call ((perform env now call).run s).2 ((perform env now call).run s).1 := by
  simp only [perform, verifyWebauthnAuthentication, Method.run_map, Method.run_bind,
    Method.run_read]
  cases pending : s.webauthnChallenges.get? (authKey userId) with
  | none => exact .refused _ rfl
  | some challenge =>
    by_cases late : challenge.expiresAt < now
    · simp only [late, if_true]
      exact .authenticationExpired pending late
    · simp only [late, if_false]
      cases accepted : assertionRecord env s challenge data with
      | none => exact .refused _ rfl
      | some named =>
        obtain ⟨key, credential, signCount⟩ := named
        have done := Outcome.authenticated pending late accepted
        unfold MFAProvider.authenticated at done
        cases held : s.mfaConfigs.get? userId with
        | none => rw [held] at done; exact done
        | some config => rw [held] at done; exact done

theorem outcome_disableMfa {userId : String} {backupCode : Option String} :
    let call := Call.disableMfa userId backupCode
    Outcome env s now call ((perform env now call).run s).2 ((perform env now call).run s).1 := by
  simp only [perform, disableMfa, Method.run_map, Method.run_bind, Method.run_read]
  cases found : s.mfaConfigs.get? userId with
  | none => exact .refused _ rfl
  | some config =>
    cases accepted : acceptsBackup config backupCode with
    | true =>
      obtain ⟨code, rfl, -⟩ := acceptsBackup_some accepted
      simp only [accepted, if_true]
      exact .disabled found accepted
    | false =>
      simp only [accepted, Bool.false_eq_true, if_false]
      exact .refused _ rfl

theorem outcome_regenerateBackupCodes {userId : String} {draws : List (Fin 1000000)} :
    let call := Call.regenerateBackupCodes userId draws
    Outcome env s now call ((perform env now call).run s).2 ((perform env now call).run s).1 := by
  simp only [perform, regenerateBackupCodes, generateBackupCodes, Method.run_map, Method.run_bind,
    Method.run_read, Method.run_check]
  cases found : s.mfaConfigs.get? userId with
  | none => exact .stopped _ _ s.drawn (by rw [stops, found])
  | some config =>
    simp only [orRaise]
    cases drew : backupCodesLoop s.settings.backupCodesCount [] draws with
    | none => exact .stopped _ .unfinished s.drawn (by rw [stops, found, shortOf, drew])
    | some codes => exact .regenerated found drew

theorem step_outcome (env : Env) (s : MFAProvider) (i : Input) :
    Outcome env s i.now i.call (step env s i).1 (step env s i).2 := by
  obtain ⟨now, call⟩ := i
  show Outcome env s now call ((perform env now call).run s).2 ((perform env now call).run s).1
  cases call with
  | setupTotp => exact outcome_setupTotp
  | verifyTotp => exact outcome_verifyTotp
  | setupHotp => exact outcome_setupHotp
  | verifyHotp => exact outcome_verifyHotp
  | generateWebauthnRegistrationOptions =>
    exact @Outcome.registrationOffered _ _ _ _ _ _ ⟨_, _, _, _, _, _, _, _, _, _, _, _⟩ rfl
  | verifyWebauthnRegistration => exact outcome_verifyWebauthnRegistration
  | generateWebauthnAuthenticationOptions => exact outcome_generateWebauthnAuthenticationOptions
  | verifyWebauthnAuthentication => exact outcome_verifyWebauthnAuthentication
  | disableMfa => exact outcome_disableMfa
  | getMfaStatus => exact .answered _ _ rfl
  | regenerateBackupCodes => exact outcome_regenerateBackupCodes
  | isMfaEnabled => exact .answered _ _ rfl

abbrev Event := Machine.Entry MFAProvider Input (Except Stop Reply)

def enrols (e : Event) (u : String) : Bool :=
  match e.input.call, e.output with
  | .setupTotp userId _ _, .ok (.totp _) | .setupHotp userId _ _, .ok (.hotp _) => userId = u
  | .verifyWebauthnRegistration userId _, .ok (.answer true) => userId = u
  | _, _ => false

def disables (e : Event) (u : String) : Bool :=
  match e.input.call, e.output with
  | .disableMfa userId _, .ok (.answer true) => userId = u
  | _, _ => false

/-! ### A provider to run -/

/-- The attestation object that holds nothing but short authenticator data: one CBOR map entry. -/
def sampleAuthData : Bytes → Option Bytes
  | 0xa1 :: 0x68 :: 0x61 :: 0x75 :: 0x74 :: 0x68 :: 0x44 :: 0x61 :: 0x74 :: 0x61 :: 0x58 :: n :: rest =>
    if rest.length = n.toNat then some rest else none
  | _ => none

def sampleLoads (bytes : Bytes) : Option Value :=
  if bytes.all (· < 128) then loads (bytes.map fun b => Char.ofNat b.toNat) else none

/-- Secrets and challenges that number the draws; every one-time password is `123456`. -/
def sampleEnv : Env :=
  { randomBase32 n := String.ofList ('S' :: natChars n)
    tokenBytes n := List.replicate 31 0 ++ [UInt8.ofNat n]
    provisioningUri secret issuer name :=
      "otpauth://totp/" ++ issuer ++ ":" ++ name ++ "?secret=" ++ secret
    qrCode _ := none
    totpVerify _ token _ _ := token == "123456"
    hotpVerify _ token _ := token == "123456"
    jsonLoads := sampleLoads
    cborAuthData := sampleAuthData }

def sampleSettings : Settings :=
  { issuerName := "bt_api_py", totpWindow := 1, hotpCounterStart := 0, backupCodesCount := 1
    rpId := "localhost", rpName := "bt_api_py Trading Platform" }

end BtApiSecurity.Mfa.MFAProvider
