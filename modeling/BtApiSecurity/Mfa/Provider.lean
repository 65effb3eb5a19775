import Mathlib.Data.String.Basic
import BtApiSecurity.Py.Base64
import BtApiSecurity.Py.Method
import BtApiSecurity.Py.Value

/-!
# The MFA provider

TOTP, HOTP and WebAuthn enrolment and verification. The draws that a call makes
for backup codes are part of its input: where they do not suffice, the loop has
not come to its end.
-/

namespace BtApiSecurity.Mfa
open Py

inductive MFAType where
  | totp
  | hotp
  | webauthn
  deriving DecidableEq

/-- Why a call returned nothing: it raised, or it is still drawing codes. -/
inductive Stop where
  | mfaError (message : String)
  | unfinished
  deriving DecidableEq

structure MFAConfig where
  userId : String
  mfaType : MFAType
  isEnabled : Bool := false
  secret : Option String := none
  backupCodes : List String := []
  counter : Int := 0
  createdAt : Time
  lastUsed : Option Time := none
  credentialId : Option String := none
  publicKey : Option Bytes := none
  signCount : Nat := 0
  userHandle : Option Bytes := none
  deriving DecidableEq

structure WebAuthnCredential where
  credentialId : Bytes
  publicKey : Bytes
  userHandle : Bytes
  rpId : String
  signCount : Nat := 0
  createdAt : Time
  deriving DecidableEq

structure Challenge where
  challenge : String
  expiresAt : Time
  deriving DecidableEq

structure Settings where
  issuerName : String
  totpWindow : Int
  hotpCounterStart : Int
  backupCodesCount : Int
  rpId : String
  rpName : String

structure MFAProvider where
  settings : Settings
  mfaConfigs : Dict String MFAConfig
  webauthnCredentials : Dict String WebAuthnCredential
  webauthnChallenges : Dict String Challenge
  drawn : Nat

def MFAProvider.new (settings : Settings) : MFAProvider := ⟨settings, .empty, .empty, .empty, 0⟩

/-- What the provider takes from elsewhere: random secrets and challenges, the one-time
passwords of `pyotp`, `json.loads`, and the `authData` of `cbor2.loads` where that is bytes. -/
structure Env where
  randomBase32 : Nat → String
  tokenBytes : Nat → Bytes
  provisioningUri : String → String → String → String
  qrCode : String → Option String
  totpVerify : String → String → Time → Int → Bool
  hotpVerify : String → String → Int → Bool
  jsonLoads : Bytes → Option Value
  cborAuthData : Bytes → Option Bytes

/-- A registration response; a field that is missing or no string is `none`. -/
structure CredentialData where
  clientDataJSON : Option String
  attestationObject : Option String

structure AssertionData where
  clientDataJSON : Option String
  authenticatorData : Option String
  credentialId : Option String
  signature : Option String

structure TotpSetup where
  secret : String
  provisioningUri : String
  backupCodes : List String
  qrCode : Option String
  deriving DecidableEq

structure HotpSetup where
  secret : String
  backupCodes : List String
  initialCounter : Int
  deriving DecidableEq

structure RegistrationOptions where
  challenge : String
  rpId : String
  rpName : String
  userId : String
  userName : String
  displayName : String
  algorithms : List Int := [-7, -257]
  timeout : Nat := 60000
  attestation : String := "direct"
  authenticatorAttachment : String := "platform"
  userVerification : String := "required"
  residentKey : String := "preferred"
  deriving DecidableEq

structure AuthenticationOptions where
  challenge : String
  rpId : String
  allowCredentials : List String
  timeout : Nat := 60000
  userVerification : String := "required"
  deriving DecidableEq

/-! ### Backup codes -/

def sixDigits (n : Fin 1000000) : String :=
  String.ofList (List.replicate (6 - (natChars n.val).length) '0' ++ natChars n.val)

/-- The loop of `_generate_backup_codes` on what `secrets.randbelow(1000000)` returns. -/
def backupCodesLoop (count : Int) (codes : List String) : List (Fin 1000000) → Option (List String)
  | [] => if (codes.length : Int) < count then none else some codes
  | n :: draws =>
    if (codes.length : Int) < count then
      if sixDigits n ∈ codes then backupCodesLoop count codes draws
      else backupCodesLoop count (codes ++ [sixDigits n]) draws
    else some codes

/-! ### Payloads -/

/-- `base64.b64decode(text.replace("-", "+").replace("_", "/") + "==")`. -/
def decodeField (text : String) : Option Bytes :=
  let standard := text.toList.map fun c => if c = '-' then '+' else if c = '_' then '/' else c
  b64decodeChars (standard ++ ['=', '='])

theorem decodeField_b64encode (bytes : Bytes) : decodeField (b64encode bytes) = some bytes := by
  have ascii : (b64Chars bytes ++ ['=', '=']).all (fun c => decide (c.toNat < 128)) = true := by
    simpa using b64Chars_ascii bytes
  have same := map_standardChar_b64Chars bytes
  unfold standardChar at same
  rw [decodeField, b64encode, String.toList_ofList, same, b64decodeChars, if_pos ascii]
  exact b64Loop_append bytes rfl

def slice (bytes : Bytes) (start stop : Nat) : Bytes := (bytes.take stop).drop start

def fromBytes (bytes : Bytes) : Nat := bytes.foldl (fun n b => n * 256 + b.toNat) 0

def field (name : String) (items : List (Key × Value)) : Value := (find (.str name) items).getD .none

def clientDataMatches (rpId : String) (challenge : Challenge) (type : String) :
    Option Value → Bool
  | some (.dict items) =>
    (field "challenge" items).pyEq (.str challenge.challenge) &&
    (field "type" items).pyEq (.str type) &&
    match field "origin" items with
    | .str origin => origin ≠ "" && rpId.toList.isSuffixOf origin.toList
    | _ => false
  | _ => false

def credentialKey (credentialId : Bytes) : String := urlsafeB64encode credentialId

namespace MFAProvider

abbrev M := Method MFAProvider Stop

variable (env : Env)

def draw {α : Type} (stream : Nat → α) : M α := do
  let s ← .read
  .update fun s => { s with drawn := s.drawn + 1 }
  return stream s.drawn

def generateBackupCodes (draws : List (Fin 1000000)) : M (List String) := do
  let s ← .read
  .check (orRaise (backupCodesLoop s.settings.backupCodesCount [] draws) .unfinished)

def storeConfig (userId : String) (config : MFAConfig) : M Unit :=
  .update fun s => { s with mfaConfigs := s.mfaConfigs.set userId config }

/-! ### One-time passwords -/

def setupTotp (now : Time) (userId : String) (accountName : Option String)
    (draws : List (Fin 1000000)) : M TotpSetup := do
  let s ← .read
  let secret ← draw env.randomBase32
  let name := if accountName.any (· ≠ "") then accountName.getD "" else userId
  let provisioningUri := env.provisioningUri secret s.settings.issuerName name
  let backupCodes ← generateBackupCodes draws
  storeConfig userId
    { userId, mfaType := .totp, isEnabled := false, secret := some secret, backupCodes
      createdAt := now }
  return { secret, provisioningUri, backupCodes, qrCode := env.qrCode provisioningUri }

def setupHotp (now : Time) (userId : String) (draws : List (Fin 1000000)) : M HotpSetup := do
  let s ← .read
  let secret ← draw env.randomBase32
  let backupCodes ← generateBackupCodes draws
  storeConfig userId
    { userId, mfaType := .hotp, isEnabled := false, secret := some secret, backupCodes
      counter := s.settings.hotpCounterStart, createdAt := now }
  return { secret, backupCodes, initialCounter := s.settings.hotpCounterStart }

def acceptsBackup (config : MFAConfig) (backupCode : Option String) : Bool :=
  backupCode.any fun code => code ≠ "" && config.backupCodes.contains code

/-- The common part of the two verifications: first the backup code, then the token, which on
success writes `onSuccess` to the record. -/
def verifyOtp (now : Time) (mfaType : MFAType) (userId : String) (backupCode : Option String)
    (valid : String → MFAConfig → Bool) (onSuccess : MFAConfig → MFAConfig) : M Bool := do
  let s ← .read
  match s.mfaConfigs.get? userId with
  | none => return false
  | some config =>
    if config.mfaType ≠ mfaType then return false
    else if acceptsBackup config backupCode then
      storeConfig userId
        { config with
          backupCodes := config.backupCodes.erase (backupCode.getD ""), lastUsed := some now }
      return true
    else
      match config.secret with
      | none => return false
      | some secret =>
        if secret = "" then return false
        else if valid secret config then
          storeConfig userId { onSuccess config with lastUsed := some now, isEnabled := true }
          return true
        else return false

def verifyTotp (now : Time) (userId token : String) (backupCode : Option String) : M Bool := do
  let s ← .read
  verifyOtp now .totp userId backupCode
    (fun secret _ => env.totpVerify secret token now s.settings.totpWindow) id

def verifyHotp (now : Time) (userId token : String) (backupCode : Option String) : M Bool :=
  verifyOtp now .hotp userId backupCode
    (fun secret config => env.hotpVerify secret token config.counter)
    fun config => { config with counter := config.counter + 1 }

/-! ### WebAuthn -/

def authKey (userId : String) : String := "auth_" ++ userId

def storeChallenge (key challenge : String) (now : Time) : M Unit :=
  .update fun s =>
    { s with webauthnChallenges := s.webauthnChallenges.set key ⟨challenge, now + 300⟩ }

def dropChallenge (key : String) : M Unit :=
  .update fun s => { s with webauthnChallenges := s.webauthnChallenges.erase key }

def generateWebauthnRegistrationOptions (now : Time) (userId username : String)
    (displayName : Option String) : M RegistrationOptions := do
  let s ← .read
  let bytes ← draw env.tokenBytes
  let challenge := urlsafeB64encode bytes
  storeChallenge userId challenge now
  return { challenge, rpId := s.settings.rpId, rpName := s.settings.rpName
           userId := urlsafeB64encode (encodeUtf8 userId), userName := username
           displayName := if displayName.any (· ≠ "") then displayName.getD "" else username }

def registrationRecord (s : MFAProvider) (now : Time) (userId : String) (challenge : Challenge)
    (data : CredentialData) : Option WebAuthnCredential := do
  let clientData ← data.clientDataJSON.bind decodeField
  if clientDataMatches s.settings.rpId challenge "webauthn.create" (env.jsonLoads clientData) then
    let attestation ← data.attestationObject.bind decodeField
    let authData ← env.cborAuthData attestation
    -- `auth_data[32]` raises on anything shorter
    if 33 ≤ authData.length then
      let length := fromBytes (slice authData 37 39)
      return { credentialId := slice authData 39 (39 + length)
               publicKey := authData.drop (39 + length)
               signCount := fromBytes (slice authData 33 37)
               userHandle := encodeUtf8 userId, rpId := s.settings.rpId, createdAt := now }
    else none
  else none

def storeCredential (now : Time) (userId : String) (credential : WebAuthnCredential) : M Unit := do
  let key := credentialKey credential.credentialId
  .update fun s => { s with webauthnCredentials := s.webauthnCredentials.set key credential }
  storeConfig userId
    { userId, mfaType := .webauthn, isEnabled := true, createdAt := now, credentialId := some key
      publicKey := some credential.publicKey, signCount := credential.signCount
      userHandle := some (encodeUtf8 userId) }

def verifyWebauthnRegistration (now : Time) (userId : String) (data : CredentialData) : M Bool := do
  let s ← .read
  match s.webauthnChallenges.get? userId with
  | none => return false
  | some challenge =>
    if challenge.expiresAt < now then
      dropChallenge userId
      return false
    else
      match registrationRecord env s now userId challenge data with
      | none => return false
      | some credential =>
        storeCredential now userId credential
        dropChallenge userId
        return true

def userCredentials (s : MFAProvider) (userId : String) : List WebAuthnCredential :=
  s.webauthnCredentials.values.filter fun credential =>
    decodeUtf8 credential.userHandle == some userId

def generateWebauthnAuthenticationOptions (now : Time) (userId : String) :
    M AuthenticationOptions := do
  let s ← .read
  let credentials := s.userCredentials userId
  .check (ensure (credentials ≠ []) (.mfaError "No WebAuthn credentials found for user"))
  let bytes ← draw env.tokenBytes
  let challenge := urlsafeB64encode bytes
  storeChallenge (authKey userId) challenge now
  return { challenge, rpId := s.settings.rpId
           allowCredentials := credentials.map fun c => urlsafeB64encode c.credentialId }

def namedCredential (data : AssertionData) : Option String :=
  (data.credentialId.bind decodeField).map credentialKey

/-- An assertion that passes the checks against the challenge: the key of the credential it
names, that credential, and the new sign count. -/
def assertionRecord (s : MFAProvider) (challenge : Challenge) (data : AssertionData) :
    Option (String × WebAuthnCredential × Nat) := do
  let clientData ← data.clientDataJSON.bind decodeField
  if clientDataMatches s.settings.rpId challenge "webauthn.get" (env.jsonLoads clientData) then
    let authenticatorData ← data.authenticatorData.bind decodeField
    let key ← namedCredential data
    let credential ← s.webauthnCredentials.get? key
    let _ ← data.signature.bind decodeField
    let flags ← authenticatorData[32]?
    let signCount := fromBytes (slice authenticatorData 33 37)
    if flags &&& 1 ≠ 0 ∧ flags &&& 4 ≠ 0 ∧ credential.signCount < signCount then
      return (key, credential, signCount)
    else none
  else none

def verifyWebauthnAuthentication (now : Time) (userId : String) (data : AssertionData) :
    M Bool := do
  let s ← .read
  match s.webauthnChallenges.get? (authKey userId) with
  | none => return false
  | some challenge =>
    if challenge.expiresAt < now then
      dropChallenge (authKey userId)
      return false
    else
      match assertionRecord env s challenge data with
      | none => return false
      | some (key, credential, signCount) =>
        .update fun s =>
          { s with
            webauthnCredentials := s.webauthnCredentials.set key { credential with signCount } }
        match s.mfaConfigs.get? userId with
        | none => pure ()
        | some config => storeConfig userId { config with lastUsed := some now }
        dropChallenge (authKey userId)
        return true

/-! ### Disabling and status -/

def disableMfa (userId : String) (backupCode : Option String) : M Bool := do
  let s ← .read
  match s.mfaConfigs.get? userId with
  | none => return false
  | some config =>
    if acceptsBackup config backupCode then
      .update fun s =>
        { s with
          webauthnCredentials := match config.credentialId with
            | none => s.webauthnCredentials
            | some key => s.webauthnCredentials.erase key
          webauthnChallenges := (s.webauthnChallenges.erase userId).erase (authKey userId)
          mfaConfigs := s.mfaConfigs.erase userId }
      return true
    else return false

def getMfaStatus (s : MFAProvider) (userId : String) : Option MFAConfig := s.mfaConfigs.get? userId

def regenerateBackupCodes (userId : String) (draws : List (Fin 1000000)) : M (List String) := do
  let s ← .read
  let config ← .check
    (orRaise (s.mfaConfigs.get? userId) (.mfaError "MFA not configured for user"))
  let backupCodes ← generateBackupCodes draws
  storeConfig userId { config with backupCodes }
  return backupCodes

def isMfaEnabled (s : MFAProvider) (userId : String) : Bool :=
  (s.mfaConfigs.get? userId).any (·.isEnabled)

/-! ### The provider as a machine -/

inductive Call where
  | setupTotp (userId : String) (accountName : Option String) (draws : List (Fin 1000000))
  | verifyTotp (userId token : String) (backupCode : Option String)
  | setupHotp (userId : String) (accountName : Option String) (draws : List (Fin 1000000))
  | verifyHotp (userId token : String) (backupCode : Option String)
  | generateWebauthnRegistrationOptions (userId username : String) (displayName : Option String)
  | verifyWebauthnRegistration (userId : String) (data : CredentialData)
  | generateWebauthnAuthenticationOptions (userId : String)
  | verifyWebauthnAuthentication (userId : String) (data : AssertionData)
  | disableMfa (userId : String) (backupCode : Option String)
  | getMfaStatus (userId : String)
  | regenerateBackupCodes (userId : String) (draws : List (Fin 1000000))
  | isMfaEnabled (userId : String)

inductive Reply where
  | totp (t : TotpSetup)
  | hotp (h : HotpSetup)
  | answer (b : Bool)
  | registration (o : RegistrationOptions)
  | authentication (o : AuthenticationOptions)
  | status (c : Option MFAConfig)
  | codes (cs : List String)
  deriving DecidableEq

structure Input where
  now : Time
  call : Call

def perform (now : Time) : Call → M Reply
  | .setupTotp userId accountName draws => Reply.totp <$> setupTotp env now userId accountName draws
  | .verifyTotp userId token backupCode => Reply.answer <$> verifyTotp env now userId token backupCode
  | .setupHotp userId _ draws => Reply.hotp <$> setupHotp env now userId draws
  | .verifyHotp userId token backupCode => Reply.answer <$> verifyHotp env now userId token backupCode
  | .generateWebauthnRegistrationOptions userId username displayName =>
    Reply.registration <$> generateWebauthnRegistrationOptions env now userId username displayName
  | .verifyWebauthnRegistration userId data =>
    Reply.answer <$> verifyWebauthnRegistration env now userId data
  | .generateWebauthnAuthenticationOptions userId =>
    Reply.authentication <$> generateWebauthnAuthenticationOptions env now userId
  | .verifyWebauthnAuthentication userId data =>
    Reply.answer <$> verifyWebauthnAuthentication env now userId data
  | .disableMfa userId backupCode => Reply.answer <$> disableMfa userId backupCode
  | .getMfaStatus userId => do
    let s ← .read
    return .status (s.getMfaStatus userId)
  | .regenerateBackupCodes userId draws => Reply.codes <$> regenerateBackupCodes userId draws
  | .isMfaEnabled userId => do
    let s ← .read
    return .answer (s.isMfaEnabled userId)

def step (s : MFAProvider) (i : Input) : MFAProvider × Except Stop Reply :=
  (((perform env i.now i.call).run s).2, ((perform env i.now i.call).run s).1)

end MFAProvider

end BtApiSecurity.Mfa
