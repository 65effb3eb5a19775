import BtApiSecurity.Encryption.Keys

/-!
# The encryption manager

Encryption under the active key or under a stored one, decryption, and rotation,
with the active key cached in memory.
-/

namespace BtApiSecurity.Encryption
open Py

inductive Data where
  | str (s : String)
  | bytes (b : Bytes)

def Data.toBytes : Data → Bytes
  | .str s => encodeUtf8 s
  | .bytes b => b

structure Envelope where
  keyId : String
  algorithm : String
  encryptedData : String
  nonce : String
  tag : Option String
  deriving DecidableEq

structure Parts where
  ciphertext : Bytes
  nonce : Bytes
  tag : Bytes

def Envelope.of (key : EncryptionKey) (parts : Parts) : Envelope where
  keyId := key.keyId
  algorithm := key.algorithm.value
  encryptedData := b64encode parts.ciphertext
  nonce := b64encode parts.nonce
  tag := if parts.tag = [] then none else some (b64encode parts.tag)

structure EncryptionManager where
  keyManager : LocalKeyManager
  defaultAlgorithm : EncryptionAlgorithm
  activeKey : Option EncryptionKey

namespace EncryptionManager

variable (env : Env)

def new (password : String) (defaultAlgorithm : EncryptionAlgorithm) (files : Dict String Bytes)
    (drawn : Nat) : EncryptionManager :=
  ⟨⟨LocalKeyManager.deriveMasterKey env password, files, drawn⟩, defaultAlgorithm, none⟩

abbrev M := Method EncryptionManager Error

def onKeys {α : Type} (method : LocalKeyManager.M α) : M α := fun s =>
  match method.run s.keyManager with
  | (result, keyManager) => (result, { s with keyManager })

theorem run_onKeys {α : Type} (method : LocalKeyManager.M α) (s : EncryptionManager) :
    (onKeys method).run s =
      ((method.run s.keyManager).1, { s with keyManager := (method.run s.keyManager).2 }) := rfl

def getActiveKey : M EncryptionKey := do
  let s ← .read
  match s.activeKey.filter (·.isActive) with
  | some key => return key
  | none =>
    let key ← onKeys (LocalKeyManager.generateKey env s.defaultAlgorithm)
    .update fun s => { s with activeKey := some key }
    return key

def encryptAesGcm (data : Bytes) (key : EncryptionKey) (n : Nat) : Parts :=
  let nonce := env.urandom n 12
  let encrypted := env.gcmEncrypt key.keyData nonce data
  ⟨encrypted.1, nonce, encrypted.2⟩

/-- The tag is the end of the ciphertext. -/
def encryptChacha20 (data : Bytes) (key : EncryptionKey) (n : Nat) : Parts :=
  let nonce := env.urandom n 12
  let ciphertext := env.chachaEncrypt key.keyData nonce data
  ⟨ciphertext, nonce, ciphertext.drop (ciphertext.length - 16)⟩

/-- An empty key id is no key id. -/
def selectKey (keyId : Option String) : M EncryptionKey :=
  match keyId.filter (· ≠ "") with
  | none => getActiveKey env
  | some keyId => do
    let s ← .read
    let found ← .check (s.keyManager.getKey env keyId)
    .check (orRaise found (.keyNotFound keyId))

def encrypt (data : Data) (keyId : Option String) : M Envelope := do
  let key ← selectKey env keyId
  match key.algorithm with
  | .aes256Gcm =>
    let n ← onKeys LocalKeyManager.draw
    return Envelope.of key (encryptAesGcm env data.toBytes key n)
  | .chacha20Poly1305 =>
    let n ← onKeys LocalKeyManager.draw
    return Envelope.of key (encryptChacha20 env data.toBytes key n)
  | .aes256Cbc => .check (.error (.unsupportedAlgorithm key.algorithm.text))

/-- An empty tag is no tag. -/
def decodeTag (tag : Option String) : Except Error (Option Bytes) :=
  match tag.filter (· ≠ "") with
  | none => .ok none
  | some text => (orRaise (b64decode text) .library).map some

def decryptWith (key : EncryptionKey) (envelope : Envelope) : Except Error Bytes := do
  let ciphertext ← orRaise (b64decode envelope.encryptedData) .library
  let nonce ← orRaise (b64decode envelope.nonce) .library
  let tag ← decodeTag envelope.tag
  if envelope.algorithm = EncryptionAlgorithm.aes256Gcm.value then
    let tag ← orRaise tag .tagRequired
    orRaise (env.gcmDecrypt key.keyData nonce tag ciphertext) .library
  else if envelope.algorithm = EncryptionAlgorithm.chacha20Poly1305.value then
    orRaise (env.chachaDecrypt key.keyData nonce ciphertext) .library
  else .error (.unsupportedAlgorithm envelope.algorithm)

def decrypt (s : EncryptionManager) (envelope : Envelope) : Except Error Bytes := do
  let found ← s.keyManager.getKey env envelope.keyId
  let key ← orRaise found (.keyNotFound envelope.keyId)
  decryptWith env key envelope

def rotateKeys : M EncryptionKey := do
  let active ← getActiveKey env
  let newKey ← onKeys (LocalKeyManager.rotateKey env active.keyId)
  .update fun s => { s with activeKey := some newKey }
  return newKey

/-! ### Calls -/

inductive Call where
  | encrypt (data : Data) (keyId : Option String)
  | decrypt (envelope : Envelope)
  | rotateKeys
  | generateKey (algorithm : EncryptionAlgorithm)
  | rotateKey (keyId : String)
  | deleteKey (keyId : String)
  /-- New managers on the same directory, with the same password. -/
  | reopen (defaultAlgorithm : EncryptionAlgorithm)

inductive Reply where
  | envelope (e : Envelope)
  | bytes (b : Bytes)
  | key (k : EncryptionKey)
  | done

def call (password : String) : Call → M Reply
  | .encrypt data keyId => .envelope <$> encrypt env data keyId
  | .decrypt envelope => do
    let s ← .read
    .bytes <$> .check (decrypt env s envelope)
  | .rotateKeys => .key <$> rotateKeys env
  | .generateKey algorithm => .key <$> onKeys (LocalKeyManager.generateKey env algorithm)
  | .rotateKey keyId => .key <$> onKeys (LocalKeyManager.rotateKey env keyId)
  | .deleteKey keyId => (fun _ => .done) <$> onKeys (LocalKeyManager.deleteKey keyId)
  | .reopen algorithm => do
    .update fun s => new env password algorithm s.keyManager.files s.keyManager.drawn
    return .done

def step (password : String) (s : EncryptionManager) (c : Call) :
    EncryptionManager × Except Error Reply :=
  match (call env password c).run s with
  | (reply, s') => (s', reply)

end EncryptionManager

end BtApiSecurity.Encryption
