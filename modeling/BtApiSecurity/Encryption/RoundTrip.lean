import BtApiSecurity.Encryption.Manager
import BtApiSecurity.Encryption.Store
import BtApiSecurity.Machine

/-!
# Ciphertexts through key rotation

An envelope is decrypted with whatever data is stored under its key id, and no
call but `delete_key` loses the data of a key. So every envelope stays
decryptable as long as its key is not deleted.
-/

namespace BtApiSecurity.Encryption
open Py

theorem b64encode_ne {bytes : Bytes} (ne : bytes ≠ []) : b64encode bytes ≠ "" := by
  intro empty
  have decoded := b64decode_b64encode bytes
  rw [empty] at decoded
  exact ne (Option.some.inj decoded).symm

namespace EncryptionManager
open LocalKeyManager (Intact Keeps Holds)

variable {env : Env} {s s₁ : EncryptionManager}

/-! ### One envelope -/

/-- The envelope holds these bytes, encrypted under this key. -/
inductive Sealed (env : Env) (key : EncryptionKey) (data : Bytes) : Envelope → Prop where
  | aesGcm (n : Nat) (algorithm : key.algorithm = .aes256Gcm) :
    Sealed env key data (.of key (encryptAesGcm env data key n))
  | chacha20 (n : Nat) (algorithm : key.algorithm = .chacha20Poly1305) :
    Sealed env key data (.of key (encryptChacha20 env data key n))

theorem Sealed.keyId {key : EncryptionKey} {data : Bytes} {e : Envelope}
    (locked : Sealed env key data e) : e.keyId = key.keyId := by
  cases locked <;> rfl

theorem decodeTag_of (key : EncryptionKey) (parts : Parts) :
    ∃ tag, decodeTag (Envelope.of key parts).tag = .ok tag ∧
      (parts.tag ≠ [] → tag = some parts.tag) := by
  by_cases empty : parts.tag = []
  · exact ⟨none, by simp [Envelope.of, decodeTag, empty], fun ne => absurd empty ne⟩
  · refine ⟨some parts.tag, ?_, fun _ => rfl⟩
    have solid : (some (b64encode parts.tag)).filter (· ≠ "") = some (b64encode parts.tag) := by
      simp [Option.filter, b64encode_ne empty]
    simp only [Envelope.of, decodeTag, if_neg empty, solid, b64decode_b64encode, orRaise_some]
    rfl

theorem decryptWith_sealed (sound : env.Sound) {key key' : EncryptionKey} {data : Bytes} {e : Envelope}
    (locked : Sealed env key data e) (length : key.keyData.length = 32)
    (same : key'.keyData = key.keyData) : decryptWith env key' e = .ok data := by
  have nonce : ∀ n, (env.urandom n 12).length = 12 := fun n => env.urandom_length n 12
  have other : EncryptionAlgorithm.chacha20Poly1305.value ≠ EncryptionAlgorithm.aes256Gcm.value := by
    decide
  cases locked with
  | aesGcm n algorithm =>
    have opened := sound.gcm _ _ data length (nonce n)
    obtain ⟨tag, decoded, stored⟩ := decodeTag_of key (encryptAesGcm env data key n)
    have solid : (encryptAesGcm env data key n).tag ≠ [] := by
      intro empty
      have size : (encryptAesGcm env data key n).tag.length = 16 :=
        sound.gcmTag _ _ data length (nonce n)
      rw [empty] at size
      cases size
    obtain rfl := stored solid
    unfold decryptWith
    rw [decoded]
    simp [Envelope.of, encryptAesGcm, b64decode_b64encode, algorithm, same, opened]
  | chacha20 n algorithm =>
    have opened := sound.chacha _ _ data length (nonce n)
    obtain ⟨tag, decoded, -⟩ := decodeTag_of key (encryptChacha20 env data key n)
    unfold decryptWith
    rw [decoded]
    simp [Envelope.of, encryptChacha20, b64decode_b64encode, algorithm, other, same, opened]

theorem decrypt_sealed (sound : env.Sound) (master : s.keyManager.masterKey.length = 32)
    {key : EncryptionKey} {data : Bytes} {e : Envelope} (locked : Sealed env key data e) (length : key.keyData.length = 32)
    (keeps : Keeps env s.keyManager key.keyId key.keyData) : decrypt env s e = .ok data := by
  obtain ⟨found, holds, named, same⟩ := keeps
  have key' := LocalKeyManager.getKey_of_holds sound master holds
  rw [named, ← locked.keyId] at key'
  have opened := decryptWith_sealed sound locked length same
  simp [decrypt, key', opened]

/-! ### One call -/

/-- The directory advances, and a new active key is a stored one. -/
structure Advance (env : Env) (s s' : EncryptionManager) : Prop where
  keys : LocalKeyManager.Advance env s.keyManager s'.keyManager
  active : ∀ key, s'.activeKey = some key → s.activeKey = some key ∨
    (key.keyData.length = 32 ∧ Keeps env s'.keyManager key.keyId key.keyData)

/-- A key that a method returns is the old active key or a stored one. -/
def Usable (env : Env) (s s' : EncryptionManager) (key : EncryptionKey) : Prop :=
  s.activeKey = some key ∨ (key.keyData.length = 32 ∧ Keeps env s'.keyManager key.keyId key.keyData)

theorem Advance.refl (intact : Intact env s.keyManager) : Advance env s s :=
  ⟨.refl intact, fun _ => .inl⟩

theorem Advance.trans {s₁ s₂ s₃ : EncryptionManager} (first : Advance env s₁ s₂)
    (second : Advance env s₂ s₃) : Advance env s₁ s₃ := by
  refine ⟨first.keys.trans second.keys, fun key active => ?_⟩
  rcases second.active key active with old | new
  · rcases first.active key old with older | ⟨length, keeps⟩
    · exact .inl older
    · exact .inr ⟨length, second.keys.kept _ _ keeps⟩
  · exact .inr new

theorem Usable.mono {s₁ s₂ s₃ : EncryptionManager} {key : EncryptionKey}
    (usable : Usable env s₁ s₂ key) (advance : Advance env s₂ s₃) : Usable env s₁ s₃ key :=
  usable.imp_right fun ⟨length, keeps⟩ => ⟨length, advance.keys.kept _ _ keeps⟩

theorem onKeys_ends {α : Type} {method : LocalKeyManager.M α} {Q : α → LocalKeyManager → Prop}
    (ends : method.Ends s.keyManager (LocalKeyManager.Advance env s.keyManager) Q) :
    (onKeys method).Ends s (Advance env s) fun a s' => Q a s'.keyManager :=
  ⟨⟨ends.state, fun _ => .inl⟩, ends.value⟩

theorem withActive_advance {key : EncryptionKey} (advance : Advance env s s₁)
    (length : key.keyData.length = 32) (keeps : Keeps env s₁.keyManager key.keyId key.keyData) :
    Advance env s { s₁ with activeKey := some key } := by
  refine ⟨advance.keys, ?_⟩
  rintro key' now
  obtain rfl := Option.some.inj now
  exact .inr ⟨length, keeps⟩

theorem getActiveKey_ends (sound : env.Sound) (intact : Intact env s.keyManager) :
    (getActiveKey env).Ends s (Advance env s) fun key s' => Usable env s s' key := by
  unfold getActiveKey
  apply Method.ends_read
  split
  · rename_i key active
    exact Method.ends_return rfl (.refl intact) (.inl (Option.filter_eq_some_iff.mp active).1)
  · apply (onKeys_ends (LocalKeyManager.generateKey_ends sound intact s.defaultAlgorithm)).bind
    rintro key s₁ advance ⟨length, keeps⟩
    exact Method.ends_return rfl (withActive_advance advance length keeps) (.inr ⟨length, keeps⟩)

theorem selectKey_ends (sound : env.Sound) (intact : Intact env s.keyManager)
    (keyId : Option String) :
    (selectKey env keyId).Ends s (Advance env s) fun key s' => Usable env s s' key := by
  unfold selectKey
  split
  · exact getActiveKey_ends sound intact
  · rename_i id _
    apply Method.ends_read
    rcases LocalKeyManager.getKey_cases sound intact id with
      missing | ⟨key, holds, -, length, -, found⟩
    · simp only [missing, Method.check_ok_bind, orRaise_none]
      exact Method.ends_raise rfl (.refl intact)
    · simp only [found, Method.check_ok_bind, orRaise_some]
      exact Method.ends_return rfl (.refl intact) (.inr ⟨length, key, holds, rfl, rfl⟩)

theorem draw_ends (intact : Intact env s.keyManager) :
    (onKeys LocalKeyManager.draw).Ends s (Advance env s) fun _ _ => True := by
  apply onKeys_ends (Q := fun _ _ => True)
  exact Method.ends_return rfl (LocalKeyManager.advance_drawn intact) trivial

/-- An envelope that is made from the next draw. -/
theorem envelope_ends {key : EncryptionKey} {data : Bytes} {make : Nat → Envelope}
    (advance : Advance env s s₁) (usable : Usable env s s₁ key)
    (locks : ∀ n, Sealed env key data (make n)) :
    (do
      let n ← onKeys LocalKeyManager.draw
      return make n : M Envelope).Ends s₁ (Advance env s) fun e s' =>
        ∃ key, Usable env s s' key ∧ Sealed env key data e := by
  have drawn := draw_ends advance.keys.intact
  have ends := drawn.bind (f := fun n => return make n) (R := fun e s' => Advance env s₁ s' ∧
    Sealed env key data e) fun n t next _ => Method.ends_return rfl next ⟨next, locks n⟩
  exact ends.mono (fun _ next => advance.trans next)
    fun e t next made => ⟨key, usable.mono next, made.2⟩

theorem encrypt_ends (sound : env.Sound) (intact : Intact env s.keyManager) (data : Data)
    (keyId : Option String) : (encrypt env data keyId).Ends s (Advance env s) fun e s' =>
      ∃ key, Usable env s s' key ∧ Sealed env key data.toBytes e := by
  unfold encrypt
  apply (selectKey_ends sound intact keyId).bind
  intro key s₁ advance usable
  split
  · rename_i algorithm
    exact envelope_ends advance usable fun n => .aesGcm n algorithm
  · rename_i algorithm
    exact envelope_ends advance usable fun n => .chacha20 n algorithm
  · exact Method.ends_raise rfl advance

theorem rotateKeys_ends (sound : env.Sound) (intact : Intact env s.keyManager) :
    (rotateKeys env).Ends s (Advance env s) fun key s' =>
      key.keyData.length = 32 ∧ Keeps env s'.keyManager key.keyId key.keyData := by
  unfold rotateKeys
  apply (getActiveKey_ends sound intact).bind
  intro active s₁ advance _
  have rotated := onKeys_ends (LocalKeyManager.rotateKey_ends sound advance.keys.intact active.keyId)
  apply (rotated.mono (fun _ next => advance.trans next) fun _ _ _ new => new).bind
  rintro key s₂ advance' ⟨length, keeps⟩
  exact Method.ends_return rfl (withActive_advance advance' length keeps) ⟨length, keeps⟩

theorem step_advance (sound : env.Sound) (password : String) (intact : Intact env s.keyManager)
    {c : Call} (noDelete : ∀ keyId, c ≠ .deleteKey keyId)
    (noReopen : ∀ algorithm, c ≠ .reopen algorithm) :
    Advance env s (step env password s c).1 := by
  change Advance env s ((call env password c).run s).2
  cases c with
  | encrypt data keyId =>
    unfold call
    rw [Method.run_map_snd]
    exact (encrypt_ends sound intact data keyId).state
  | decrypt envelope =>
    have unchanged : ((call env password (.decrypt envelope)).run s).2 = s := by
      unfold call
      rw [Method.run_bind, Method.run_read]
      exact Method.run_map_snd _ _ _
    rw [unchanged]
    exact .refl intact
  | rotateKeys =>
    unfold call
    rw [Method.run_map_snd]
    exact (rotateKeys_ends sound intact).state
  | generateKey algorithm =>
    unfold call
    rw [Method.run_map_snd]
    exact (onKeys_ends (LocalKeyManager.generateKey_ends sound intact algorithm)).state
  | rotateKey keyId =>
    unfold call
    rw [Method.run_map_snd]
    exact (onKeys_ends (LocalKeyManager.rotateKey_ends sound intact keyId)).state
  | deleteKey keyId => exact absurd rfl (noDelete keyId)
  | reopen algorithm => exact absurd rfl (noReopen algorithm)

theorem step_deleteKey (password keyId : String) : (step env password s (.deleteKey keyId)).1 =
    { s with keyManager := ((LocalKeyManager.deleteKey keyId).run s.keyManager).2 } := rfl

theorem step_reopen (password : String) (algorithm : EncryptionAlgorithm) :
    (step env password s (.reopen algorithm)).1 =
      new env password algorithm s.keyManager.files s.keyManager.drawn := rfl

/-! ### Runs -/

/-- The directory is in order, and the active key is stored unless it was deleted. -/
structure Inv (env : Env) (password : String) (past : List Call) (s : EncryptionManager) : Prop where
  intact : Intact env s.keyManager
  master : s.keyManager.masterKey = LocalKeyManager.deriveMasterKey env password
  active : ∀ key, s.activeKey = some key → key.keyData.length = 32 ∧
    (.deleteKey key.keyId ∉ past → Keeps env s.keyManager key.keyId key.keyData)

variable {password : String} {past : List Call}

theorem inv_new (env : Env) (password : String) (algorithm : EncryptionAlgorithm) :
    Inv env password [] (new env password algorithm .empty 0) where
  intact := ⟨env.pbkdf2_length _ _, by simp [new]⟩
  master := rfl
  active _ none := by cases none

theorem reopened (inv : Inv env password past s) (algorithm : EncryptionAlgorithm) :
    (new env password algorithm s.keyManager.files s.keyManager.drawn).keyManager = s.keyManager := by
  unfold new
  rw [← inv.master]

theorem inv_step (sound : env.Sound) (inv : Inv env password past s) (c : Call) :
    Inv env password (past ++ [c]) (step env password s c).1 := by
  have other : (∀ keyId, c ≠ .deleteKey keyId) → (∀ algorithm, c ≠ .reopen algorithm) →
      Inv env password (past ++ [c]) (step env password s c).1 := by
    intro noDelete noReopen
    have advance := step_advance sound password inv.intact noDelete noReopen
    refine ⟨advance.keys.intact, advance.keys.masterKey.trans inv.master, fun key now => ?_⟩
    rcases advance.active key now with old | ⟨length, keeps⟩
    · obtain ⟨length, stored⟩ := inv.active key old
      exact ⟨length, fun undeleted => advance.keys.kept _ _ (stored fun gone =>
        undeleted (List.mem_append_left _ gone))⟩
    · exact ⟨length, fun _ => keeps⟩
  cases c with
  | deleteKey keyId =>
    rw [step_deleteKey]
    refine ⟨LocalKeyManager.intact_deleted inv.intact keyId, inv.master, fun key now => ?_⟩
    obtain ⟨length, stored⟩ := inv.active key now
    refine ⟨length, fun undeleted => ?_⟩
    simp only [List.mem_append, List.mem_singleton, Call.deleteKey.injEq, not_or] at undeleted
    exact LocalKeyManager.keeps_deleted undeleted.2 (stored undeleted.1)
  | reopen algorithm =>
    rw [step_reopen]
    refine ⟨?_, rfl, fun key none => by cases none⟩
    rw [reopened inv]
    exact inv.intact
  | _ => exact other (by simp) (by simp)

theorem keeps_step (sound : env.Sound) (inv : Inv env password past s) {c : Call} {id : String}
    {data : Bytes} (undeleted : c ≠ .deleteKey id) (keeps : Keeps env s.keyManager id data) :
    Keeps env (step env password s c).1.keyManager id data := by
  cases c with
  | deleteKey keyId =>
    rw [step_deleteKey]
    exact LocalKeyManager.keeps_deleted (fun same => undeleted (same ▸ rfl)) keeps
  | reopen algorithm =>
    rw [step_reopen, reopened inv]
    exact keeps
  | _ => exact (step_advance sound password inv.intact (by simp) (by simp)).keys.kept _ _ keeps

theorem inv_run (sound : env.Sound) (inv : Inv env password past s) (calls : List Call) :
    Inv env password (past ++ calls) (Machine.run (step env password) s calls) := by
  induction calls generalizing past s with
  | nil => simpa using inv
  | cons c calls ih => simpa using ih (inv_step sound inv c)

theorem keeps_run (sound : env.Sound) (inv : Inv env password past s) {calls : List Call} {id : String}
    {data : Bytes} (undeleted : .deleteKey id ∉ calls) (keeps : Keeps env s.keyManager id data) :
    Keeps env (Machine.run (step env password) s calls).keyManager id data := by
  induction calls generalizing past s with
  | nil => exact keeps
  | cons c calls ih =>
    simp only [List.mem_cons, not_or] at undeleted
    exact ih (inv_step sound inv c) undeleted.2 (keeps_step sound inv (Ne.symm undeleted.1) keeps)

/-- Every envelope that `encrypt` ever returned is decrypted to the bytes it was made of, in every
later state in which its key was not deleted. -/
theorem envelopes_stay_decryptable (env : Env) (sound : env.Sound) (password : String)
    (algorithm : EncryptionAlgorithm) (before after : List Call) (data : Data) (keyId : Option String)
    (e : Envelope)
    (returned : (step env password (Machine.run (step env password)
      (new env password algorithm .empty 0) before) (.encrypt data keyId)).2 = .ok (.envelope e))
    (undeleted : .deleteKey e.keyId ∉ before ++ after) :
    decrypt env (Machine.run (step env password) (new env password algorithm .empty 0)
      (before ++ .encrypt data keyId :: after)) e = .ok data.toBytes := by
  have inv := inv_run sound (inv_new env password algorithm) before
  rw [Machine.run_append, Machine.run_cons]
  generalize Machine.run (step env password) (new env password algorithm .empty 0) before = s
    at returned inv ⊢
  simp only [List.nil_append, List.mem_append, not_or] at inv undeleted
  obtain ⟨advance, made⟩ := encrypt_ends sound inv.intact data keyId
  have next : (step env password s (.encrypt data keyId)).1 = ((encrypt env data keyId).run s).2 := by
    change ((call env password (.encrypt data keyId)).run s).2 = _
    unfold call
    rw [Method.run_map_snd]
  have ok : ((encrypt env data keyId).run s).1 = .ok e := by
    have reply : ((Reply.envelope <$> encrypt env data keyId).run s).1 = .ok (.envelope e) := returned
    rw [Method.run_map] at reply
    split at reply
    · rename_i made' s' run
      rw [run]
      simpa using reply
    · cases reply
  obtain ⟨key, usable, locked⟩ := made e ok
  have later := inv_step sound inv (.encrypt data keyId)
  rw [next] at later ⊢
  have stored : key.keyData.length = 32 ∧
      Keeps env ((encrypt env data keyId).run s).2.keyManager key.keyId key.keyData := by
    rcases usable with active | stored
    · obtain ⟨length, keeps⟩ := inv.active key active
      exact ⟨length, advance.keys.kept _ _ (keeps (locked.keyId ▸ undeleted.1))⟩
    · exact stored
  have still := keeps_run sound later (locked.keyId ▸ undeleted.2) stored.2
  exact decrypt_sealed sound (inv_run sound later after).intact.master locked stored.1 still

/-! ### A sample -/

/-- Ciphers that leave the data in the clear, with tags of the proper length. -/
def sampleEnv : Env where
  urandom _ size := List.replicate size 0
  urandom_length _ _ := List.length_replicate
  time _ := .nan
  seconds n := n
  sha256 bytes := bytes
  pbkdf2 _ _ := List.replicate 32 0
  pbkdf2_length _ _ := List.length_replicate
  fernetEncrypt _ _ data := data
  fernetDecrypt _ token := some token
  gcmEncrypt _ _ data := (data, List.replicate 16 0)
  gcmDecrypt _ _ _ ciphertext := some ciphertext
  chachaEncrypt _ _ data := data ++ List.replicate 16 0
  chachaDecrypt _ _ ciphertext := some (ciphertext.take (ciphertext.length - 16))

theorem sampleEnv_sound : sampleEnv.Sound where
  fernet _ _ _ _ := rfl
  gcm _ _ _ _ _ := rfl
  gcmTag _ _ _ _ _ := List.length_replicate
  chacha _ _ data _ _ := by simp [sampleEnv]
  fresh := by
    intro m n same
    have chars := congrArg String.toList same
    simp only [Env.keyId, sampleEnv, String.toList_append, String.toList_ofList] at chars
    have digits := List.append_cancel_left (List.append_cancel_right (List.append_cancel_right chars))
    have number : ∀ k : Nat, charsNat (intChars k) = k := by
      intro k
      have sign : ¬(k : Int) < 0 := by omega
      simp [intChars, sign, charsNat_natChars]
    rw [← number m, digits, number n]

theorem sample_decrypts :
    decrypt sampleEnv
      (Machine.run (step sampleEnv "secret") (new sampleEnv "secret" .aes256Gcm .empty 0)
        ([] ++ .encrypt (.str "é") none :: [.rotateKeys, .reopen .chacha20Poly1305,
          .rotateKey "key_0_00000000"]))
      ⟨"key_0_00000000", "aes_256_gcm", "w6k=", "AAAAAAAAAAAAAAAA", some "AAAAAAAAAAAAAAAAAAAAAA=="⟩ =
        .ok (encodeUtf8 "é") :=
  envelopes_stay_decryptable sampleEnv sampleEnv_sound "secret" .aes256Gcm [] _ (.str "é") none _
    (by rfl) (by simp)

end EncryptionManager

end BtApiSecurity.Encryption
