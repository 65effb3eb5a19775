import BtApiSecurity.Encryption.Manager

/-!
# Key managers of every provider

A key in AWS KMS or HashiCorp Vault is known by its name and carries no bytes. An
algorithm is a member of the enumeration or, where a caller passes one, a string.
-/

namespace BtApiSecurity.Encryption
open Py

inductive AlgorithmArg where
  | member (algorithm : EncryptionAlgorithm)
  | name (text : String)

/-- `boto3` and `hvac`, by the number of the call; an error is the text of the exception. -/
structure Services where
  awsAvailable : Bool
  vaultAvailable : Bool
  isAuthenticated : String → String → Bool
  kmsCreateKey : Nat → String → Except String String
  kmsDescribeKey : Nat → String → Except String (String × String)
  transitCreateKey : Nat → String → String → Except String Unit
  transitReadKey : Nat → String → Except String (String × PyFloat × Bool)

inductive ProviderError where
  | raised (e : Error)
  | encryptionError (message : String)
  | valueError
  | attributeError
  deriving DecidableEq

inductive KeyManager where
  | local (keys : LocalKeyManager)
  | awsKms (region : String) (calls : Nat)
  | hashicorpVault (url token mountPath : String) (calls : Nat)

namespace KeyManager

def isLocal : KeyManager → Bool
  | .local _ => true
  | _ => false

variable (env : Env) (services : Services)

abbrev M := Method KeyManager ProviderError

def noValue : String := "'str' object has no attribute 'value'"

/-- The next draw, or the next call to the service. -/
def next : M Nat := fun s =>
  match s with
  | .local keys => (.ok keys.drawn, .local { keys with drawn := keys.drawn + 1 })
  | .awsKms region calls => (.ok calls, .awsKms region (calls + 1))
  | .hashicorpVault url token mountPath calls =>
    (.ok calls, .hashicorpVault url token mountPath (calls + 1))

def onLocal {α : Type} (keys : LocalKeyManager) (method : LocalKeyManager.M α) : M α := fun _ =>
  match method.run keys with
  | (result, keys) => (result.mapError .raised, .local keys)

def localGenerateKey (keys : LocalKeyManager) : AlgorithmArg → M EncryptionKey
  | .member algorithm => onLocal keys (LocalKeyManager.generateKey env algorithm)
  -- no string is among the members that the code looks it up in
  | .name text => .check (.error (.raised (.unsupportedAlgorithm text)))

def kmsGenerateKey : AlgorithmArg → M EncryptionKey
  | .member algorithm => do
    let n ← next
    let keyId ← .check ((services.kmsCreateKey n ("bt_api_py " ++ algorithm.value ++ " key")).mapError
      fun cause => .encryptionError ("Failed to create KMS key: " ++ cause))
    return { keyId, keyData := [], algorithm, createdAt := env.time n, provider := .awsKms }
  | .name _ => .check (.error (.encryptionError ("Failed to create KMS key: " ++ noValue)))

def vaultKeyType : EncryptionAlgorithm → String
  | .chacha20Poly1305 => "chacha20-poly1305"
  | _ => "aes256-gcm96"

def parseVaultType (vaultType : String) : EncryptionAlgorithm :=
  if vaultType = "chacha20-poly1305" then .chacha20Poly1305 else .aes256Gcm

def vaultGenerateKey : AlgorithmArg → M EncryptionKey
  | .member algorithm => do
    let n ← next
    let keyName := "bt_api_py_" ++ algorithm.value ++ "_" ++ String.ofList (intChars (env.seconds n))
    .check ((services.transitCreateKey n keyName (vaultKeyType algorithm)).mapError
      fun cause => .encryptionError ("Failed to create Vault key: " ++ cause))
    return { keyId := keyName, keyData := [], algorithm, createdAt := env.time n
             provider := .hashicorpVault }
  | .name _ => .check (.error (.encryptionError ("Failed to create Vault key: " ++ noValue)))

def generateKey (algorithm : AlgorithmArg) : M EncryptionKey := do
  let s ← .read
  match s with
  | .local keys => localGenerateKey env keys algorithm
  | .awsKms .. => kmsGenerateKey env services algorithm
  | .hashicorpVault .. => vaultGenerateKey env services algorithm

def getKey (keyId : String) : M (Option EncryptionKey) := do
  let s ← .read
  match s with
  | .local keys => .check ((keys.getKey env keyId).mapError .raised)
  | .awsKms .. => do
    let n ← next
    match services.kmsDescribeKey n keyId with
    | .ok (keyId, keyState) =>
      return some
        { keyId, keyData := [], algorithm := .aes256Gcm, createdAt := env.time n, provider := .awsKms
          isActive := keyState = "Enabled" }
    | .error _ => return none
  | .hashicorpVault .. => do
    let n ← next
    match services.transitReadKey n keyId with
    | .ok (vaultType, creationTime, deleted) =>
      return some
        { keyId, keyData := [], algorithm := parseVaultType vaultType, createdAt := creationTime
          provider := .hashicorpVault, isActive := !deleted }
    | .error _ => return none

end KeyManager

/-! ### The encryption manager over any key manager -/

structure ProviderManager where
  keyManager : KeyManager
  defaultAlgorithm : AlgorithmArg
  activeKey : Option EncryptionKey

namespace ProviderManager

variable (env : Env) (services : Services)

abbrev M := Method ProviderManager ProviderError

def onKeys {α : Type} (method : KeyManager.M α) : M α := fun s =>
  match method.run s.keyManager with
  | (result, keyManager) => (result, { s with keyManager })

def getActiveKey : M EncryptionKey := do
  let s ← .read
  match s.activeKey.filter (·.isActive) with
  | some key => return key
  | none =>
    let key ← onKeys (KeyManager.generateKey env services s.defaultAlgorithm)
    .update fun s => { s with activeKey := some key }
    return key

def selectKey (keyId : Option String) : M EncryptionKey :=
  match keyId.filter (· ≠ "") with
  | none => getActiveKey env services
  | some keyId => do
    let found ← onKeys (KeyManager.getKey env services keyId)
    .check (orRaise found (.raised (.keyNotFound keyId)))

/-- The ciphers raise on a key that does not have their size. -/
def encrypt (data : Data) (keyId : Option String) : M Envelope := do
  let key ← selectKey env services keyId
  match key.algorithm with
  | .aes256Gcm =>
    let n ← onKeys KeyManager.next
    .check (ensure (key.keyData.length = 16 ∨ key.keyData.length = 24 ∨ key.keyData.length = 32)
      (.raised .library))
    return Envelope.of key (EncryptionManager.encryptAesGcm env data.toBytes key n)
  | .chacha20Poly1305 =>
    let n ← onKeys KeyManager.next
    .check (ensure (key.keyData.length = 32) (.raised .library))
    return Envelope.of key (EncryptionManager.encryptChacha20 env data.toBytes key n)
  | .aes256Cbc => .check (.error (.raised (.unsupportedAlgorithm key.algorithm.text)))

/-- Deciphering that rejects keys of another size. -/
def sized : Env :=
  { env with
    gcmDecrypt key nonce tag ciphertext :=
      if key.length = 16 ∨ key.length = 24 ∨ key.length = 32 then
        env.gcmDecrypt key nonce tag ciphertext
      else none
    chachaDecrypt key nonce ciphertext :=
      if key.length = 32 then env.chachaDecrypt key nonce ciphertext else none }

def decrypt (envelope : Envelope) : M Bytes := do
  let found ← onKeys (KeyManager.getKey env services envelope.keyId)
  let key ← .check (orRaise found (.raised (.keyNotFound envelope.keyId)))
  .check ((EncryptionManager.decryptWith (sized env) key envelope).mapError .raised)

variable {env services} {s : ProviderManager}

theorem run_onKeys {α : Type} (method : KeyManager.M α) (s : ProviderManager) :
    (onKeys method).run s =
      ((method.run s.keyManager).1, { s with keyManager := (method.run s.keyManager).2 }) := rfl

/-! ### Algorithms by name -/

/-- No key manager generates a key for a string, whatever it says. -/
theorem generateKey_name (env : Env) (services : Services) (keys : KeyManager) (text : String) :
    ∃ error, (KeyManager.generateKey env services (.name text)).run keys = (.error error, keys) := by
  cases keys with
  | «local» keys => exact ⟨_, rfl⟩
  | awsKms region calls => exact ⟨_, rfl⟩
  | hashicorpVault url token mountPath calls => exact ⟨_, rfl⟩

variable (env services) in
theorem encrypt_name {text : String} (named : s.defaultAlgorithm = .name text)
    (fresh : s.activeKey = none) (data : Data) :
    ∃ error, (encrypt env services data none).run s = (.error error, s) := by
  obtain ⟨keys, algorithm, active⟩ := s
  obtain rfl : algorithm = .name text := named
  obtain rfl : active = none := fresh
  obtain ⟨error, raised⟩ := generateKey_name env services keys text
  refine ⟨error, ?_⟩
  have selected : (selectKey env services none).run ⟨keys, .name text, none⟩ =
      (.error error, ⟨keys, .name text, none⟩) := by
    show (getActiveKey env services).run _ = _
    simp only [getActiveKey, Method.run_bind, Method.run_read, Option.filter_none, run_onKeys, raised]
  simp only [encrypt, Method.run_bind, selected]

/-! ### Keys without bytes -/

variable (env services) in
theorem generateKey_remote {keys : KeyManager} (algorithm : AlgorithmArg) {key : EncryptionKey}
    (remote : keys.isLocal = false)
    (made : ((KeyManager.generateKey env services algorithm).run keys).1 = .ok key) :
    key.keyData = [] := by
  cases keys with
  | «local» keys => cases remote
  | awsKms region calls =>
    cases algorithm with
    | name text => cases made
    | member algorithm =>
      simp only [KeyManager.generateKey, KeyManager.kmsGenerateKey, Method.run_bind, Method.run_read,
        Method.run_check, Method.run_pure] at made
      split at made
      · split at made
        · obtain rfl := Except.ok.inj made
          rfl
        · cases made
      · cases made
  | hashicorpVault url token mountPath calls =>
    cases algorithm with
    | name text => cases made
    | member algorithm =>
      simp only [KeyManager.generateKey, KeyManager.vaultGenerateKey, Method.run_bind, Method.run_read,
        Method.run_check, Method.run_pure] at made
      split at made
      · split at made
        · obtain rfl := Except.ok.inj made
          rfl
        · cases made
      · cases made

theorem encrypt_keyless {data : Data} {keyId : Option String} {key : EncryptionKey}
    {s₁ : ProviderManager} (selected : (selectKey env services keyId).run s = (.ok key, s₁))
    (keyless : key.keyData = []) : ∃ error, ((encrypt env services data keyId).run s).1 = .error error := by
  obtain ⟨n, s₂, drew⟩ : ∃ n s₂, (onKeys KeyManager.next).run s₁ = (.ok n, s₂) := by
    obtain ⟨keys, algorithm, active⟩ := s₁
    cases keys <;> exact ⟨_, _, rfl⟩
  simp only [encrypt, Method.run_bind, selected]
  cases key.algorithm with
  | aes256Cbc => exact ⟨_, rfl⟩
  | aes256Gcm =>
    simp only [Method.run_bind, drew, Method.run_check, keyless, ensure]
    exact ⟨_, rfl⟩
  | chacha20Poly1305 =>
    simp only [Method.run_bind, drew, Method.run_check, keyless, ensure]
    exact ⟨_, rfl⟩

variable (env services) in
theorem encrypt_remote (remote : s.keyManager.isLocal = false) (fresh : s.activeKey = none)
    (data : Data) : ∃ error, ((encrypt env services data none).run s).1 = .error error := by
  obtain ⟨keys, algorithm, active⟩ := s
  obtain rfl : active = none := fresh
  cases made : (KeyManager.generateKey env services algorithm).run keys with
  | mk result keys' =>
    have selected : (selectKey env services none).run ⟨keys, algorithm, none⟩ =
        (result, ⟨keys', algorithm, result.toOption⟩) := by
      show (getActiveKey env services).run _ = _
      simp only [getActiveKey, Method.run_bind, Method.run_read, Option.filter_none, run_onKeys, made]
      cases result <;> rfl
    cases result with
    | error e => exact ⟨e, by simp only [encrypt, Method.run_bind, selected]⟩
    | ok key =>
      have keyless := generateKey_remote env services algorithm remote (by rw [made])
      exact encrypt_keyless selected keyless

/-! ### The local key manager -/

/-- The encryption manager over a local key manager, with a member as default algorithm. -/
def ofLocal (s : EncryptionManager) : ProviderManager :=
  ⟨.local s.keyManager, .member s.defaultAlgorithm, s.activeKey⟩

theorem getActiveKey_ofLocal (s : EncryptionManager) :
    (getActiveKey env services).run (ofLocal s) =
      (((EncryptionManager.getActiveKey env).run s).1.mapError .raised,
        ofLocal ((EncryptionManager.getActiveKey env).run s).2) := by
  simp only [getActiveKey, EncryptionManager.getActiveKey, Method.run_bind, Method.run_read]
  rw [show (ofLocal s).activeKey = s.activeKey from rfl]
  cases s.activeKey.filter (·.isActive) with
  | some key => rfl
  | none =>
    simp only [Method.run_bind, run_onKeys, EncryptionManager.run_onKeys]
    have made : (KeyManager.generateKey env services (ofLocal s).defaultAlgorithm).run
        (ofLocal s).keyManager =
        (((LocalKeyManager.generateKey env s.defaultAlgorithm).run s.keyManager).1.mapError .raised,
          .local ((LocalKeyManager.generateKey env s.defaultAlgorithm).run s.keyManager).2) := rfl
    rw [made]
    cases ((LocalKeyManager.generateKey env s.defaultAlgorithm).run s.keyManager).1 with
    | ok key => rfl
    | error e => rfl

theorem selectKey_ofLocal (s : EncryptionManager) (keyId : Option String) :
    (selectKey env services keyId).run (ofLocal s) =
      (((EncryptionManager.selectKey env keyId).run s).1.mapError .raised,
        ofLocal ((EncryptionManager.selectKey env keyId).run s).2) := by
  unfold selectKey EncryptionManager.selectKey
  cases keyId.filter (· ≠ "") with
  | none => exact getActiveKey_ofLocal s
  | some keyId =>
    simp only [Method.run_bind, Method.run_read, run_onKeys, Method.run_check]
    have got : (KeyManager.getKey env services keyId).run (ofLocal s).keyManager =
        ((s.keyManager.getKey env keyId).mapError .raised, .local s.keyManager) := rfl
    rw [got]
    cases s.keyManager.getKey env keyId with
    | error e => rfl
    | ok found => cases found <;> rfl

/-- With keys of 32 bytes, encryption is that of `EncryptionManager`. -/
theorem encrypt_ofLocal {s : EncryptionManager} {data : Data} {keyId : Option String}
    (length : ∀ key, ((EncryptionManager.selectKey env keyId).run s).1 = .ok key →
      key.keyData.length = 32) :
    (encrypt env services data keyId).run (ofLocal s) =
      (((EncryptionManager.encrypt env data keyId).run s).1.mapError .raised,
        ofLocal ((EncryptionManager.encrypt env data keyId).run s).2) := by
  simp only [encrypt, EncryptionManager.encrypt, Method.run_bind, selectKey_ofLocal]
  cases selected : (EncryptionManager.selectKey env keyId).run s with
  | mk result s' =>
    cases result with
    | error e => rfl
    | ok key =>
      have size := length key (by rw [selected])
      simp only [Except.mapError]
      cases key.algorithm with
      | aes256Cbc => rfl
      | aes256Gcm =>
        simp only [Method.run_bind, Method.run_check, ensure, size]
        rfl
      | chacha20Poly1305 =>
        simp only [Method.run_bind, Method.run_check, ensure, size]
        rfl

end ProviderManager

end BtApiSecurity.Encryption
