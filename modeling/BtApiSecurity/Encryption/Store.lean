import BtApiSecurity.Encryption.Keys

/-!
# What the key directory holds

A stored key is read back as it was stored. Generating and rotating keys keeps
the data of every key that is stored; only `delete_key` takes one away.
-/

namespace BtApiSecurity.Encryption
open Py

/-- What the ciphers and Fernet promise, and that no key id is generated twice. -/
structure Env.Sound (env : Env) : Prop where
  fernet : ∀ master n data, master.length = 32 →
    env.fernetDecrypt (urlsafeB64encode master) (env.fernetEncrypt (urlsafeB64encode master) n data) =
      some data
  gcm : ∀ key nonce data, key.length = 32 → nonce.length = 12 →
    env.gcmDecrypt key nonce (env.gcmEncrypt key nonce data).2 (env.gcmEncrypt key nonce data).1 =
      some data
  gcmTag : ∀ key nonce data, key.length = 32 → nonce.length = 12 →
    (env.gcmEncrypt key nonce data).2.length = 16
  chacha : ∀ key nonce data, key.length = 32 → nonce.length = 12 →
    env.chachaDecrypt key nonce (env.chachaEncrypt key nonce data) = some data
  fresh : Function.Injective env.keyId

/-! ### File names -/

theorem keyFile_injective : Function.Injective keyFile := by
  intro a b same
  have chars := congrArg String.toList same
  simp only [keyFile, String.toList_append] at chars
  exact String.toList_injective (List.append_cancel_right chars)

theorem metadataFile_injective : Function.Injective metadataFile := by
  intro a b same
  have chars := congrArg String.toList same
  simp only [metadataFile, String.toList_append] at chars
  exact String.toList_injective (List.append_cancel_right chars)

theorem keyFile_ne_metadataFile (a b : String) : keyFile a ≠ metadataFile b := by
  intro same
  have last := congrArg (fun s => s.toList.getLast?) same
  simp [keyFile, metadataFile, String.toList_append, List.getLast?_append] at last

/-! ### Metadata -/

namespace EncryptionKey

theorem nodup_metadata (key : EncryptionKey) : (key.metadata.map Prod.fst).Nodup := by
  simp [metadata]

theorem ofMetadata_metadata (key : EncryptionKey) :
    ofMetadata key.keyData (key.metadata.map fun field => (.str field.1, field.2)) = some key := by
  have field : ∀ name v, (name, v) ∈ key.metadata →
      find (Key.str name) (key.metadata.map fun field => (.str field.1, field.2)) = some v :=
    fun name v h => find_record key.nodup_metadata h
  rw [ofMetadata, field "key_id" (.str key.keyId) (by simp [metadata]),
    field "algorithm" (.str key.algorithm.value) (by simp [metadata]),
    field "created_at" (.float key.createdAt) (by simp [metadata]),
    field "provider" (.str key.provider.value) (by simp [metadata]),
    field "key_size" (.int key.keySize) (by simp [metadata]),
    field "is_active" (.bool key.isActive) (by simp [metadata])]
  simp

theorem isJson_metadata (key : EncryptionKey) : (Value.record key.metadata).isJson = true := by
  rw [isJson_record]
  refine ⟨key.nodup_metadata, ?_⟩
  simp [metadata, Value.isJson]

end EncryptionKey

namespace LocalKeyManager

variable {env : Env} {m : LocalKeyManager}

structure Holds (env : Env) (m : LocalKeyManager) (key : EncryptionKey) : Prop where
  data : ∃ n, m.files.get? (keyFile key.keyId) = some (env.fernetEncrypt m.fernetKey n key.keyData)
  metadata : m.files.get? (metadataFile key.keyId) = some key.metadataText

/-- Every file is one of a key that was generated here. -/
structure Intact (env : Env) (m : LocalKeyManager) : Prop where
  master : m.masterKey.length = 32
  keys : ∀ id, (m.files.get? (keyFile id)).isSome ∨ (m.files.get? (metadataFile id)).isSome →
    ∃ key, Holds env m key ∧ key.keyId = id ∧ key.keyData.length = 32 ∧ ∃ n < m.drawn, id = env.keyId n

def Keeps (env : Env) (m : LocalKeyManager) (id : String) (data : Bytes) : Prop :=
  ∃ key, Holds env m key ∧ key.keyId = id ∧ key.keyData = data

theorem getKey_of_holds (sound : env.Sound) (master : m.masterKey.length = 32) {key : EncryptionKey}
    (holds : Holds env m key) : m.getKey env key.keyId = .ok (some key) := by
  obtain ⟨n, data⟩ := holds.data
  have text : loads (dumpsIndent 2 (.record key.metadata)) = some (.record key.metadata) :=
    loads_dumpsIndent 2 key.isJson_metadata
  have read : m.readKey env (env.fernetEncrypt m.fernetKey n key.keyData) key.metadataText =
      some key := by
    simp [readKey, EncryptionKey.metadataText, text, fernetKey, sound.fernet _ n _ master,
      key.ofMetadata_metadata]
  unfold getKey
  rw [data, holds.metadata]
  simp [read, orRaise, Except.map]

theorem getKey_cases (sound : env.Sound) (intact : Intact env m) (id : String) :
    m.getKey env id = .ok none ∨ ∃ key, Holds env m key ∧ key.keyId = id ∧
      key.keyData.length = 32 ∧ (∃ n < m.drawn, id = env.keyId n) ∧
        m.getKey env id = .ok (some key) := by
  by_cases there : (m.files.get? (keyFile id)).isSome ∨ (m.files.get? (metadataFile id)).isSome
  · obtain ⟨key, holds, rfl, length, known⟩ := intact.keys id there
    exact .inr ⟨key, holds, rfl, length, known, getKey_of_holds sound intact.master holds⟩
  · simp only [not_or, Option.not_isSome_iff_eq_none] at there
    exact .inl (by rw [getKey, there.1])

theorem holds_unique (sound : env.Sound) (intact : Intact env m) {key key' : EncryptionKey}
    (holds : Holds env m key) (holds' : Holds env m key') (same : key.keyId = key'.keyId) :
    key = key' := by
  have found := getKey_of_holds sound intact.master holds
  rw [same, getKey_of_holds sound intact.master holds'] at found
  exact (Option.some.inj (Except.ok.inj found)).symm

/-! ### Storing a key -/

def stored (env : Env) (m : LocalKeyManager) (key : EncryptionKey) : LocalKeyManager :=
  { m with
    files := (m.files.set (keyFile key.keyId) (env.fernetEncrypt m.fernetKey m.drawn key.keyData)).set
      (metadataFile key.keyId) key.metadataText
    drawn := m.drawn + 1 }

theorem holds_stored (key : EncryptionKey) : Holds env (m.stored env key) key where
  data := ⟨m.drawn, by
    rw [stored, Dict.get?_set_of_ne _ _ (keyFile_ne_metadataFile _ _).symm, Dict.get?_set_self]
    rfl⟩
  metadata := Dict.get?_set_self _ _ _

theorem files_stored (env : Env) (m : LocalKeyManager) {key : EncryptionKey} {id : String}
    (other : id ≠ key.keyId) :
    (m.stored env key).files.get? (keyFile id) = m.files.get? (keyFile id) ∧
      (m.stored env key).files.get? (metadataFile id) = m.files.get? (metadataFile id) := by
  constructor
  · rw [stored, Dict.get?_set_of_ne _ _ (keyFile_ne_metadataFile _ _).symm,
      Dict.get?_set_of_ne _ _ fun same => other (keyFile_injective same).symm]
  · rw [stored, Dict.get?_set_of_ne _ _ fun same => other (metadataFile_injective same).symm,
      Dict.get?_set_of_ne _ _ (keyFile_ne_metadataFile _ _)]

theorem holds_stored_of_ne {key key' : EncryptionKey} (holds : Holds env m key')
    (other : key'.keyId ≠ key.keyId) : Holds env (m.stored env key) key' := by
  obtain ⟨n, data⟩ := holds.data
  obtain ⟨keyFile, metadataFile⟩ := files_stored env m other
  exact ⟨⟨n, by rw [keyFile, data]; rfl⟩, by rw [metadataFile, holds.metadata]⟩

theorem intact_stored (intact : Intact env m) {key : EncryptionKey} (length : key.keyData.length = 32)
    (known : ∃ n < m.drawn, key.keyId = env.keyId n) : Intact env (m.stored env key) := by
  refine ⟨intact.master, fun id there => ?_⟩
  have later : (m.stored env key).drawn = m.drawn + 1 := rfl
  by_cases here : id = key.keyId
  · obtain ⟨n, before, named⟩ := known
    exact ⟨key, holds_stored key, here.symm, length, n, by omega, here.trans named⟩
  · obtain ⟨keyFile, metadataFile⟩ := files_stored env m here
    rw [keyFile, metadataFile] at there
    obtain ⟨old, holds, rfl, length, n, before, named⟩ := intact.keys id there
    exact ⟨old, holds_stored_of_ne holds here, rfl, length, n, by omega, named⟩

theorem keeps_stored {key : EncryptionKey} {id : String} {data : Bytes} (keeps : Keeps env m id data)
    (same : id = key.keyId → data = key.keyData) : Keeps env (m.stored env key) id data := by
  by_cases here : id = key.keyId
  · exact ⟨key, holds_stored key, here.symm, (same here).symm⟩
  · obtain ⟨old, holds, rfl, rfl⟩ := keeps
    exact ⟨old, holds_stored_of_ne holds here, rfl, rfl⟩

/-! ### Advancing -/

/-- The directory is in order, and no key data was lost. -/
structure Advance (env : Env) (m m' : LocalKeyManager) : Prop where
  intact : Intact env m'
  masterKey : m'.masterKey = m.masterKey
  kept : ∀ id data, Keeps env m id data → Keeps env m' id data

theorem Advance.refl (intact : Intact env m) : Advance env m m :=
  ⟨intact, rfl, fun _ _ => id⟩

theorem Advance.trans {m₁ m₂ m₃ : LocalKeyManager} (first : Advance env m₁ m₂)
    (second : Advance env m₂ m₃) : Advance env m₁ m₃ :=
  ⟨second.intact, second.masterKey.trans first.masterKey,
    fun id data keeps => second.kept id data (first.kept id data keeps)⟩

theorem advance_drawn (intact : Intact env m) : Advance env m { m with drawn := m.drawn + 1 } := by
  have holds : ∀ key, Holds env m key → Holds env { m with drawn := m.drawn + 1 } key :=
    fun key holds => ⟨holds.data, holds.metadata⟩
  refine ⟨⟨intact.master, fun id there => ?_⟩, rfl, ?_⟩
  · obtain ⟨key, held, named, length, n, before, known⟩ := intact.keys id there
    exact ⟨key, holds key held, named, length, n, Nat.lt_succ_of_lt before, known⟩
  · rintro id data ⟨key, held, rfl, rfl⟩
    exact ⟨key, holds key held, rfl, rfl⟩

def generated (env : Env) (m : LocalKeyManager) (algorithm : EncryptionAlgorithm) : LocalKeyManager :=
  stored env { m with drawn := m.drawn + 1 } (newKey env algorithm m.drawn)

theorem generateKey_cases (env : Env) (m : LocalKeyManager) (algorithm : EncryptionAlgorithm) :
    algorithm = .aes256Cbc ∧
      (generateKey env algorithm).run m = (.error (.unsupportedAlgorithm algorithm.text), m) ∨
    algorithm ≠ .aes256Cbc ∧
      (generateKey env algorithm).run m = (.ok (newKey env algorithm m.drawn), m.generated env algorithm) := by
  cases algorithm with
  | aes256Cbc => exact .inl ⟨rfl, rfl⟩
  | aes256Gcm | chacha20Poly1305 => exact .inr ⟨by decide, rfl⟩

theorem generateKey_ends (sound : env.Sound) (intact : Intact env m)
    (algorithm : EncryptionAlgorithm) : (generateKey env algorithm).Ends m (Advance env m)
      fun key m' => key.keyData.length = 32 ∧ Keeps env m' key.keyId key.keyData := by
  rcases generateKey_cases env m algorithm with ⟨-, raised⟩ | ⟨-, made⟩
  · exact Method.ends_raise raised (.refl intact)
  · have drawn := advance_drawn intact
    have length : (newKey env algorithm m.drawn).keyData.length = 32 := env.urandom_length _ _
    have next := intact_stored drawn.intact length ⟨m.drawn, Nat.lt_succ_self _, rfl⟩
    refine Method.ends_return made ?_ ?_
    · refine ⟨next, rfl, fun id data keeps => keeps_stored (drawn.kept id data keeps) fun here => ?_⟩
      -- a stored id was drawn before, so the new one is another
      obtain ⟨old, holds, rfl, rfl⟩ := keeps
      obtain ⟨-, -, -, -, n, before, named⟩ := intact.keys old.keyId (.inr (by simp [holds.metadata]))
      exact absurd (sound.fresh (named.symm.trans here)) (by omega)
    · exact ⟨length, _, holds_stored _, rfl, rfl⟩

theorem keeps_unique (sound : env.Sound) (intact : Intact env m) {id : String} {data data' : Bytes}
    (keeps : Keeps env m id data) (keeps' : Keeps env m id data') : data = data' := by
  obtain ⟨key, holds, rfl, rfl⟩ := keeps
  obtain ⟨key', holds', same, rfl⟩ := keeps'
  rw [holds_unique sound intact holds holds' same.symm]

theorem stored_advance (sound : env.Sound) (intact : Intact env m) (key : EncryptionKey)
    (keeps : Keeps env m key.keyId key.keyData) : Advance env m (m.stored env key) := by
  obtain ⟨old, holds, same, sameData⟩ := keeps
  obtain ⟨found, holds', named, length, known⟩ := intact.keys key.keyId
    (.inr (by simp [← same, holds.metadata]))
  obtain rfl := holds_unique sound intact holds holds' (same.trans named.symm)
  refine ⟨intact_stored intact (sameData ▸ length) known, rfl, fun id data other => ?_⟩
  apply keeps_stored other
  rintro rfl
  exact keeps_unique sound intact other ⟨old, holds, same, sameData⟩

theorem rotateKey_ends (sound : env.Sound) (intact : Intact env m) (keyId : String) :
    (rotateKey env keyId).Ends m (Advance env m)
      fun key m' => key.keyData.length = 32 ∧ Keeps env m' key.keyId key.keyData := by
  unfold rotateKey
  apply Method.ends_read
  rcases getKey_cases sound intact keyId with missing | ⟨old, holds, -, -, -, found⟩
  · simp only [missing, Method.check_ok_bind, orRaise_none, Method.check_error_bind]
    exact Method.ends_raise rfl (.refl intact)
  · simp only [found, Method.check_ok_bind, orRaise_some]
    apply (generateKey_ends sound intact old.algorithm).bind
    rintro key m' advance ⟨length, keeps⟩
    have there : Keeps env m' old.keyId old.keyData := advance.kept _ _ ⟨old, holds, rfl, rfl⟩
    have again := stored_advance sound advance.intact { old with isActive := false } there
    exact Method.ends_return rfl (advance.trans again) ⟨length, again.kept _ _ keeps⟩

/-! ### Deleting a key -/

theorem files_deleted {keyId id : String} (other : id ≠ keyId) :
    ((deleteKey keyId).run m).2.files.get? (keyFile id) = m.files.get? (keyFile id) ∧
      ((deleteKey keyId).run m).2.files.get? (metadataFile id) = m.files.get? (metadataFile id) := by
  have shape : ((deleteKey keyId).run m).2.files =
      (m.files.erase (keyFile keyId)).erase (metadataFile keyId) := rfl
  rw [shape]
  constructor
  · rw [Dict.get?_erase_of_ne _ (keyFile_ne_metadataFile _ _).symm,
      Dict.get?_erase_of_ne _ fun same => other (keyFile_injective same).symm]
  · rw [Dict.get?_erase_of_ne _ fun same => other (metadataFile_injective same).symm,
      Dict.get?_erase_of_ne _ (keyFile_ne_metadataFile _ _)]

theorem holds_deleted {keyId : String} {key : EncryptionKey} (other : key.keyId ≠ keyId)
    (holds : Holds env m key) : Holds env ((deleteKey keyId).run m).2 key := by
  obtain ⟨keyFile, metadataFile⟩ := files_deleted (m := m) other
  obtain ⟨n, data⟩ := holds.data
  exact ⟨⟨n, by rw [keyFile, data]; rfl⟩, by rw [metadataFile, holds.metadata]⟩

theorem keeps_deleted {keyId id : String} {data : Bytes} (other : id ≠ keyId)
    (keeps : Keeps env m id data) : Keeps env ((deleteKey keyId).run m).2 id data := by
  obtain ⟨key, holds, rfl, rfl⟩ := keeps
  exact ⟨key, holds_deleted other holds, rfl, rfl⟩

theorem intact_deleted (intact : Intact env m) (keyId : String) :
    Intact env ((deleteKey keyId).run m).2 := by
  refine ⟨intact.master, fun id there => ?_⟩
  by_cases here : id = keyId
  · subst here
    have gone : ((deleteKey id).run m).2.files =
        (m.files.erase (keyFile id)).erase (metadataFile id) := rfl
    rw [gone, Dict.get?_erase_self, Dict.get?_erase_of_ne _ (keyFile_ne_metadataFile _ _).symm,
      Dict.get?_erase_self] at there
    simp at there
  · obtain ⟨keyFile, metadataFile⟩ := files_deleted (m := m) here
    rw [keyFile, metadataFile] at there
    obtain ⟨key, holds, rfl, rest⟩ := intact.keys id there
    exact ⟨key, holds_deleted here holds, rfl, rest⟩

end LocalKeyManager

end BtApiSecurity.Encryption
