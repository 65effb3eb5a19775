import BtApiSecurity.Py.Base64
import BtApiSecurity.Py.Json.Canonical
import BtApiSecurity.Py.Method

/-!
# The local key manager

A key is two files: its data, encrypted under the master key, and its metadata
as JSON. The directory is a dictionary of files; file operations succeed.
-/

namespace BtApiSecurity.Encryption
open Py

inductive KeyProvider where
  | local
  | awsKms
  | hashicorpVault
  | hsm
  deriving DecidableEq

inductive EncryptionAlgorithm where
  | aes256Gcm
  | aes256Cbc
  | chacha20Poly1305
  deriving DecidableEq

namespace KeyProvider

def value : KeyProvider → String
  | «local» => "local"
  | awsKms => "aws_kms"
  | hashicorpVault => "hashicorp_vault"
  | hsm => "hsm"

def ofValue? (s : String) : Option KeyProvider :=
  [«local», awsKms, hashicorpVault, hsm].find? (·.value = s)

@[simp] theorem ofValue?_value (provider : KeyProvider) : ofValue? provider.value = some provider := by
  cases provider <;> simp [ofValue?, value]

end KeyProvider

namespace EncryptionAlgorithm

def value : EncryptionAlgorithm → String
  | aes256Gcm => "aes_256_gcm"
  | aes256Cbc => "aes_256_cbc"
  | chacha20Poly1305 => "chacha20_poly1305"

/-- `str(member)`: every member is named by its value in capitals. -/
def text (algorithm : EncryptionAlgorithm) : String :=
  "EncryptionAlgorithm." ++ algorithm.value.toUpper

def ofValue? (s : String) : Option EncryptionAlgorithm :=
  [aes256Gcm, aes256Cbc, chacha20Poly1305].find? (·.value = s)

@[simp] theorem ofValue?_value (algorithm : EncryptionAlgorithm) :
    ofValue? algorithm.value = some algorithm := by
  cases algorithm <;> simp [ofValue?, value]

end EncryptionAlgorithm

inductive Error where
  | failedToRetrieve (keyId : String)
  | keyNotFound (keyId : String)
  | unsupportedAlgorithm (algorithm : String)
  | tagRequired
  | library
  deriving DecidableEq

structure EncryptionKey where
  keyId : String
  keyData : Bytes
  algorithm : EncryptionAlgorithm
  createdAt : PyFloat
  provider : KeyProvider
  keySize : Int := 256
  isActive : Bool := true

/-- Randomness and clock, by the number of the draw, and the ciphers. The draw of an encryption
under Fernet stands for its initialisation vector and its time. -/
structure Env where
  urandom : Nat → Nat → Bytes
  urandom_length : ∀ n size, (urandom n size).length = size
  time : Nat → PyFloat
  seconds : Nat → Int
  sha256 : Bytes → Bytes
  pbkdf2 : Bytes → Bytes → Bytes
  pbkdf2_length : ∀ salt password, (pbkdf2 salt password).length = 32
  fernetEncrypt : String → Nat → Bytes → Bytes
  fernetDecrypt : String → Bytes → Option Bytes
  gcmEncrypt : Bytes → Bytes → Bytes → Bytes × Bytes
  gcmDecrypt : Bytes → Bytes → Bytes → Bytes → Option Bytes
  chachaEncrypt : Bytes → Bytes → Bytes → Bytes
  chachaDecrypt : Bytes → Bytes → Bytes → Option Bytes

def hexChars (bytes : Bytes) : List Char :=
  bytes.flatMap fun b => [Nat.digitChar (b.toNat / 16), Nat.digitChar (b.toNat % 16)]

/-- `f"key_{int(time.time())}_{os.urandom(4).hex()}"`. -/
def Env.keyId (env : Env) (n : Nat) : String :=
  "key_" ++ String.ofList (intChars (env.seconds n)) ++ "_" ++ String.ofList (hexChars (env.urandom n 4))

structure LocalKeyManager where
  masterKey : Bytes
  files : Dict String Bytes
  drawn : Nat

namespace EncryptionKey

def metadata (key : EncryptionKey) : List (String × Value) :=
  [("key_id", .str key.keyId), ("algorithm", .str key.algorithm.value),
    ("created_at", .float key.createdAt), ("provider", .str key.provider.value),
    ("key_size", .int key.keySize), ("is_active", .bool key.isActive)]

def metadataText (key : EncryptionKey) : Bytes :=
  encodeUtf8 (String.ofList (dumpsIndent 2 (.record key.metadata)))

/-- A key from its metadata, which the manager alone writes: metadata of other types counts as
unreadable. -/
def ofMetadata (keyData : Bytes) (items : List (Key × Value)) : Option EncryptionKey :=
  match find (.str "key_id") items, find (.str "algorithm") items, find (.str "created_at") items,
    find (.str "provider") items, find (.str "key_size") items, find (.str "is_active") items with
  | some (.str keyId), some (.str algorithm), some (.float createdAt), some (.str provider),
    some (.int keySize), some (.bool isActive) => do
    let algorithm ← EncryptionAlgorithm.ofValue? algorithm
    let provider ← KeyProvider.ofValue? provider
    return { keyId, keyData, algorithm, createdAt, provider, keySize, isActive }
  | _, _, _, _, _, _ => none

end EncryptionKey

def keyFile (keyId : String) : String := keyId ++ ".key"

def metadataFile (keyId : String) : String := keyId ++ ".meta"

namespace LocalKeyManager

variable (env : Env)

def deriveMasterKey (password : String) : Bytes :=
  env.pbkdf2 (env.sha256 (encodeUtf8 password)) (encodeUtf8 password)

def fernetKey (m : LocalKeyManager) : String := urlsafeB64encode m.masterKey

def readKey (m : LocalKeyManager) (encrypted metadata : Bytes) : Option EncryptionKey := do
  let text ← decodeUtf8 metadata
  match ← loads text.toList with
  | .dict items =>
    let keyData ← env.fernetDecrypt m.fernetKey encrypted
    EncryptionKey.ofMetadata keyData items
  | _ => none

def getKey (m : LocalKeyManager) (keyId : String) : Except Error (Option EncryptionKey) :=
  match m.files.get? (keyFile keyId), m.files.get? (metadataFile keyId) with
  | some encrypted, some metadata =>
    (orRaise (readKey env m encrypted metadata) (.failedToRetrieve keyId)).map some
  | _, _ => .ok none

abbrev M := Method LocalKeyManager Error

def draw : M Nat := do
  let m ← .read
  .update fun m => { m with drawn := m.drawn + 1 }
  return m.drawn

def storeKey (key : EncryptionKey) : M Unit := do
  let n ← draw
  .update fun m =>
    { m with
      files := m.files.set (keyFile key.keyId) (env.fernetEncrypt m.fernetKey n key.keyData) }
  .update fun m => { m with files := m.files.set (metadataFile key.keyId) key.metadataText }

def newKey (algorithm : EncryptionAlgorithm) (n : Nat) : EncryptionKey where
  keyId := env.keyId n
  keyData := env.urandom n 32
  algorithm
  createdAt := env.time n
  provider := .local

def generateKey (algorithm : EncryptionAlgorithm) : M EncryptionKey :=
  if algorithm = .aes256Gcm ∨ algorithm = .chacha20Poly1305 then do
    let n ← draw
    let key := newKey env algorithm n
    storeKey env key
    return key
  else .check (.error (.unsupportedAlgorithm algorithm.text))

def rotateKey (keyId : String) : M EncryptionKey := do
  let m ← .read
  let found ← .check (getKey env m keyId)
  let oldKey ← .check (orRaise found (.keyNotFound keyId))
  let newKey ← generateKey env oldKey.algorithm
  storeKey env { oldKey with isActive := false }
  return newKey

def deleteKey (keyId : String) : M Unit :=
  .update fun m =>
    { m with files := (m.files.erase (keyFile keyId)).erase (metadataFile keyId) }

end LocalKeyManager

end BtApiSecurity.Encryption
