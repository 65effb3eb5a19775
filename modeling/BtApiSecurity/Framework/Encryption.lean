import BtApiSecurity.Encryption.Providers
import BtApiSecurity.Encryption.Rotation

/-!
# Encryption in the security framework

The framework builds its key manager and its encryption manager from a
configuration in which the algorithm is a string.
-/

namespace BtApiSecurity.Framework
open Py Encryption

/-- The encryption part of a configuration; a setting that is missing is `none`, and one that may
be Python's `None` has an option within. -/
structure EncryptionConfig where
  provider : Option String := none
  keyDir : Option String := none
  masterPassword : Option (Option String) := none
  region : Option String := none
  vaultUrl : Option (Option String) := none
  token : Option (Option String) := none
  mountPath : Option String := none
  algorithm : Option String := none

/-- The key directories, and the number of the next draw. -/
structure Host where
  keyDir : String → Dict String Bytes
  drawn : Nat

variable (env : Env) (services : Services) (host : Host)

def createKeyManager (provider : KeyProvider) (config : EncryptionConfig) :
    Except ProviderError KeyManager :=
  match provider with
  | .local => do
    let password ← orRaise (config.masterPassword.getD (some "")) .attributeError
    return .local ⟨LocalKeyManager.deriveMasterKey env password,
      host.keyDir (config.keyDir.getD "./keys"), host.drawn⟩
  | .awsKms => do
    ensure (services.awsAvailable = true) (.encryptionError "boto3 package required for AWS KMS")
    return .awsKms (config.region.getD "us-east-1") host.drawn
  | .hashicorpVault =>
    match config.vaultUrl.join, config.token.join with
    | some url, some token => do
      ensure (services.vaultAvailable = true)
        (.encryptionError "hvac package required for HashiCorp Vault")
      ensure (services.isAuthenticated url token = true)
        (.encryptionError "Failed to authenticate with Vault")
      return .hashicorpVault url token (config.mountPath.getD "transit") host.drawn
    | _, _ => .error (.encryptionError "HashiCorp Vault requires vault_url and token")
  | .hsm => .error (.encryptionError "Unsupported key provider: KeyProvider.HSM")

def initEncryptionManager (config : EncryptionConfig) : Except ProviderError ProviderManager := do
  let provider ← orRaise (KeyProvider.ofValue? (config.provider.getD "local")) .valueError
  let keyManager ← createKeyManager env services host provider config
  return ⟨keyManager, .name (config.algorithm.getD "aes_256_gcm"), none⟩

/-- The encryption part of `create_security_config_from_env`. -/
def configFromEnv (getenv : String → Option String) : EncryptionConfig where
  provider := some ((getenv "SECURITY_KEY_PROVIDER").getD "local")
  keyDir := some ((getenv "SECURITY_KEY_DIR").getD "./security/keys")
  masterPassword := some (getenv "SECURITY_MASTER_PASSWORD")
  region := some ((getenv "AWS_REGION").getD "us-east-1")
  vaultUrl := some (getenv "VAULT_URL")
  token := some (getenv "VAULT_TOKEN")
  algorithm := some ((getenv "ENCRYPTION_ALGORITHM").getD "aes_256_gcm")

/-- What the manager encrypts with the default key, it decrypts to the same bytes. -/
def RoundTrips (s : ProviderManager) (data : Data) : Prop :=
  ∃ envelope s₁ s₂, (ProviderManager.encrypt env services data none).run s = (.ok envelope, s₁) ∧
    (ProviderManager.decrypt env services envelope).run s₁ = (.ok data.toBytes, s₂)

variable {env services host}

theorem initEncryptionManager_ok {config : EncryptionConfig} {s : ProviderManager}
    (accepted : initEncryptionManager env services host config = .ok s) :
    s.defaultAlgorithm = .name (config.algorithm.getD "aes_256_gcm") ∧ s.activeKey = none := by
  simp only [initEncryptionManager, check_bind_ok, pure_ok] at accepted
  obtain ⟨_, -, _, -, rfl⟩ := accepted
  exact ⟨rfl, rfl⟩

/-- Whatever the configuration, the manager that the framework makes encrypts nothing. -/
theorem framework_never_encrypts (env : Env) (services : Services) (host : Host)
    (config : EncryptionConfig) (s : ProviderManager)
    (accepted : initEncryptionManager env services host config = .ok s) (data : Data) :
    ¬RoundTrips env services s data := by
  obtain ⟨named, fresh⟩ := initEncryptionManager_ok accepted
  obtain ⟨error, raised⟩ := ProviderManager.encrypt_name env services named
    fresh data
  rintro ⟨envelope, s₁, _, encrypted, -⟩
  rw [raised] at encrypted
  cases encrypted

/-! ### A member as default algorithm -/

theorem sized_sound (sound : env.Sound) : (ProviderManager.sized env).Sound where
  fernet := sound.fernet
  gcm key nonce data length nonceLength := by
    have opened := sound.gcm key nonce data length nonceLength
    simp only [ProviderManager.sized, length]
    exact opened
  gcmTag := sound.gcmTag
  chacha key nonce data length nonceLength := by
    have opened := sound.chacha key nonce data length nonceLength
    simp only [ProviderManager.sized, length]
    exact opened
  fresh := sound.fresh

theorem decrypt_ofLocal (sound : env.Sound) {s : EncryptionManager}
    (master : s.keyManager.masterKey.length = 32) {key : EncryptionKey} {data : Bytes} {e : Envelope}
    (locked : EncryptionManager.Sealed env key data e) (length : key.keyData.length = 32)
    (keeps : LocalKeyManager.Keeps env s.keyManager key.keyId key.keyData) :
    (ProviderManager.decrypt env services e).run (ProviderManager.ofLocal s) =
      (.ok data, ProviderManager.ofLocal s) := by
  obtain ⟨found, holds, named, same⟩ := keeps
  have got := LocalKeyManager.getKey_of_holds sound master holds
  rw [named, ← locked.keyId] at got
  have read : (KeyManager.getKey env services e.keyId).run (ProviderManager.ofLocal s).keyManager =
      ((s.keyManager.getKey env e.keyId).mapError .raised, .local s.keyManager) := rfl
  have locked' : EncryptionManager.Sealed (ProviderManager.sized env) key data e := by
    cases locked with
    | aesGcm n algorithm => exact .aesGcm n algorithm
    | chacha20 n algorithm => exact .chacha20 n algorithm
  have opened := EncryptionManager.decryptWith_sealed (sized_sound sound) locked' length same
  simp only [ProviderManager.decrypt, Method.run_bind, ProviderManager.run_onKeys, read, got,
    Except.mapError, orRaise_some, Method.run_check, opened]
  rfl

/-- Over the local key manager, and with a member of the enumeration in place of its name, every
payload is decrypted to itself. -/
theorem local_member_roundTrips (sound : env.Sound) {s : EncryptionManager}
    (ready : EncryptionManager.Ready env s) (fresh : s.activeKey = none)
    (supported : s.defaultAlgorithm ≠ .aes256Cbc) (data : Data) :
    RoundTrips env services (ProviderManager.ofLocal s) data := by
  have intact := ready.orderly.intact
  have selected : (EncryptionManager.selectKey env none).run s =
      (.ok (LocalKeyManager.newKey env s.defaultAlgorithm s.keyManager.drawn),
        EncryptionManager.activated env s) := by
    show (EncryptionManager.getActiveKey env).run s = _
    rcases EncryptionManager.getActiveKey_cases ready with
      ⟨key, cached, -⟩ | ⟨-, ⟨cbc, -⟩ | ⟨-, run⟩⟩
    · simp [fresh] at cached
    · exact absurd cbc supported
    · exact run
  obtain ⟨e, -, run⟩ := EncryptionManager.encrypt_of_select data selected supported
  obtain ⟨advance, made⟩ := EncryptionManager.encrypt_ends sound intact data none
  obtain ⟨key, active | ⟨length, keeps⟩, locked⟩ := made e (by rw [run])
  · rw [fresh] at active
    cases active
  · refine ⟨e, _, _, ?_, decrypt_ofLocal sound advance.keys.intact.master locked length keeps⟩
    rw [ProviderManager.encrypt_ofLocal, run]
    · rfl
    · intro key' ok
      rw [selected] at ok
      obtain rfl := Except.ok.inj ok
      exact env.urandom_length _ _

/-- A key manager that keeps no key bytes encrypts nothing even so. -/
theorem remote_never_encrypts {s : ProviderManager} (remote : s.keyManager.isLocal = false)
    (fresh : s.activeKey = none) (data : Data) : ¬RoundTrips env services s data := by
  obtain ⟨error, raised⟩ := ProviderManager.encrypt_remote env services remote
    fresh data
  rintro ⟨envelope, s₁, _, encrypted, -⟩
  rw [encrypted] at raised
  cases raised

/-! ### A framework from the environment -/

def sampleServices : Services where
  awsAvailable := true
  vaultAvailable := true
  isAuthenticated _ _ := true
  kmsCreateKey _ _ := .ok "1234abcd"
  kmsDescribeKey _ keyId := .ok (keyId, "Enabled")
  transitCreateKey _ _ _ := .ok ()
  transitReadKey _ _ := .ok ("aes256-gcm96", .nan, false)

def sampleHost : Host := ⟨fun _ => .empty, 0⟩

def sampleGetenv (name : String) : Option String :=
  if name = "SECURITY_MASTER_PASSWORD" then some "secret" else none

def sampleManager : ProviderManager :=
  ⟨.local ⟨LocalKeyManager.deriveMasterKey EncryptionManager.sampleEnv "secret", .empty, 0⟩,
    .name "aes_256_gcm", none⟩

theorem sampleManager_encrypts_nothing :
    ¬∀ data, RoundTrips EncryptionManager.sampleEnv sampleServices sampleManager data := by
  intro works
  obtain ⟨envelope, s₁, _, encrypted, -⟩ := works (.str "x")
  have raised : (ProviderManager.encrypt EncryptionManager.sampleEnv sampleServices (.str "x") none).run
      sampleManager = (.error (.raised (.unsupportedAlgorithm "aes_256_gcm")), sampleManager) := rfl
  rw [raised] at encrypted
  cases encrypted

theorem sampleGetenv_never_encrypts :
    ¬RoundTrips EncryptionManager.sampleEnv sampleServices sampleManager (.str "x") :=
  framework_never_encrypts EncryptionManager.sampleEnv sampleServices sampleHost
    (configFromEnv sampleGetenv) sampleManager rfl (.str "x")

end BtApiSecurity.Framework
