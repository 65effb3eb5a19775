import BtApiSecurity.Encryption.RoundTrip

/-!
# Rotations that fail

Writing a file is opening it, which empties it, and writing its contents. Here a
rotation runs on a disk that lets a number of these steps through and then fails.
-/

namespace BtApiSecurity.Encryption
open Py

/-- A key manager, and how many file steps still go through. -/
structure FailingManager where
  keys : LocalKeyManager
  left : Nat

namespace FailingManager

variable (env : Env)

abbrev M := Method FailingManager Error

abbrev FileStep := String × Bytes

def fileStep (step : FileStep) : M Unit := fun s =>
  match s.left with
  | 0 => (.error .library, s)
  | left + 1 => (.ok (), ⟨{ s.keys with files := s.keys.files.set step.1 step.2 }, left⟩)

def fileSteps : List FileStep → M Unit
  | [] => pure ()
  | step :: steps => do
    fileStep step
    fileSteps steps

def draw : M Nat := do
  let s ← .read
  .update fun s => { s with keys := { s.keys with drawn := s.keys.drawn + 1 } }
  return s.keys.drawn

/-- The file steps of `_store_key`: both files are opened and then written. -/
def storeSteps (m : LocalKeyManager) (key : EncryptionKey) (n : Nat) : List FileStep :=
  [(keyFile key.keyId, []), (keyFile key.keyId, env.fernetEncrypt m.fernetKey n key.keyData),
    (metadataFile key.keyId, []), (metadataFile key.keyId, key.metadataText)]

def storeKey (key : EncryptionKey) : M Unit := do
  let n ← draw
  let s ← .read
  fileSteps (storeSteps env s.keys key n)

def generateKey (algorithm : EncryptionAlgorithm) : M EncryptionKey :=
  if algorithm = .aes256Gcm ∨ algorithm = .chacha20Poly1305 then do
    let n ← draw
    let key := LocalKeyManager.newKey env algorithm n
    storeKey env key
    return key
  else .check (.error (.unsupportedAlgorithm algorithm.text))

def rotateKey (keyId : String) : M EncryptionKey := do
  let s ← .read
  let found ← .check (s.keys.getKey env keyId)
  let oldKey ← .check (orRaise found (.keyNotFound keyId))
  let newKey ← generateKey env oldKey.algorithm
  storeKey env { oldKey with isActive := false }
  return newKey

variable {env} {m : LocalKeyManager} {n : Nat}

/-! ### File steps -/

def written (files : Dict String Bytes) (steps : List FileStep) : Dict String Bytes :=
  steps.foldl (fun files step => files.set step.1 step.2) files

theorem written_append (files : Dict String Bytes) (steps steps' : List FileStep) :
    written files (steps ++ steps') = written (written files steps) steps' :=
  List.foldl_append

theorem get?_written_of_not_mem {files : Dict String Bytes} {steps : List FileStep} {file : String}
    (untouched : ∀ step ∈ steps, step.1 ≠ file) : (written files steps).get? file = files.get? file := by
  induction steps generalizing files with
  | nil => rfl
  | cons step steps ih =>
    rw [written, List.foldl_cons]
    exact (ih fun later mem => untouched later (List.mem_cons_of_mem _ mem)).trans
      (Dict.get?_set_of_ne _ _ (untouched step List.mem_cons_self))

theorem run_fileSteps (steps : List FileStep) (m : LocalKeyManager) (n : Nat) :
    (fileSteps steps).run ⟨m, n⟩ =
      if steps.length ≤ n then
        (.ok (), ⟨{ m with files := written m.files steps }, n - steps.length⟩)
      else (.error .library, ⟨{ m with files := written m.files (steps.take n) }, 0⟩) := by
  induction steps generalizing m n with
  | nil => simp [fileSteps, written]
  | cons step steps ih =>
    rw [fileSteps, Method.run_bind]
    cases n with
    | zero => rfl
    | succ n =>
      have first : (fileStep step).run ⟨m, n + 1⟩ =
          (.ok (), ⟨{ m with files := m.files.set step.1 step.2 }, n⟩) := rfl
      simp only [first, ih, List.length_cons, Nat.add_le_add_iff_right, List.take_succ_cons,
        Nat.add_sub_add_right]
      rfl

/-! ### The steps of a rotation -/

theorem length_storeSteps (env : Env) (m : LocalKeyManager) (key : EncryptionKey) (n : Nat) :
    (storeSteps env m key n).length = 4 := by rfl

theorem take_storeSteps {n : Nat} (all : 4 ≤ n) (env : Env) (m : LocalKeyManager) (key : EncryptionKey)
    (k : Nat) : (storeSteps env m key k).take n = storeSteps env m key k :=
  List.take_of_length_le all

theorem written_storeSteps (env : Env) (m : LocalKeyManager) (key : EncryptionKey) :
    written m.files (storeSteps env m key m.drawn) = (m.stored env key).files := by
  simp [written, storeSteps, LocalKeyManager.stored]

theorem run_storeKey (key : EncryptionKey) (m : LocalKeyManager) (n : Nat) :
    (storeKey env key).run ⟨m, n⟩ =
      if 4 ≤ n then (.ok (), ⟨m.stored env key, n - 4⟩)
      else (.error .library, ⟨⟨m.masterKey, written m.files ((storeSteps env m key m.drawn).take n),
        m.drawn + 1⟩, 0⟩) := by
  simp only [storeKey, draw, Method.run_bind, Method.run_read, Method.run_update, Method.run_pure,
    run_fileSteps, length_storeSteps]
  by_cases all : 4 ≤ n
  · have files := written_storeSteps env m key
    simp only [if_pos all]
    unfold LocalKeyManager.stored at files ⊢
    exact congrArg (fun files => (Except.ok (), (⟨⟨m.masterKey, files, m.drawn + 1⟩, n - 4⟩ :
      FailingManager))) files
  · simp only [if_neg all]
    rfl

theorem run_generateKey {algorithm : EncryptionAlgorithm} (supported : algorithm ≠ .aes256Cbc)
    (m : LocalKeyManager) (n : Nat) : (generateKey env algorithm).run ⟨m, n⟩ =
      if 4 ≤ n then (.ok (LocalKeyManager.newKey env algorithm m.drawn), ⟨m.generated env algorithm, n - 4⟩)
      else (.error .library, ⟨⟨m.masterKey, written m.files ((storeSteps env m
        (LocalKeyManager.newKey env algorithm m.drawn) (m.drawn + 1)).take n), m.drawn + 2⟩, 0⟩) := by
  have generated : algorithm = .aes256Gcm ∨ algorithm = .chacha20Poly1305 := by
    cases algorithm with
    | aes256Cbc => exact absurd rfl supported
    | aes256Gcm => exact .inl rfl
    | chacha20Poly1305 => exact .inr rfl
  simp only [generateKey, if_pos generated, draw, Method.run_bind, Method.run_read, Method.run_update,
    Method.run_pure, run_storeKey]
  by_cases all : 4 ≤ n
  · simp only [if_pos all]
    rfl
  · simp only [if_neg all]
    rfl

def rotationSteps (env : Env) (m : LocalKeyManager) (old : EncryptionKey) : List FileStep :=
  storeSteps env m (LocalKeyManager.newKey env old.algorithm m.drawn) (m.drawn + 1) ++
    storeSteps env m { old with isActive := false } (m.drawn + 2)

/-- The files of the directory are those that the first steps leave. -/
theorem run_rotateKey {keyId : String} {old : EncryptionKey}
    (found : m.getKey env keyId = .ok (some old)) (supported : old.algorithm ≠ .aes256Cbc) (n : Nat) :
    ((rotateKey env keyId).run ⟨m, n⟩).2.keys.files =
        written m.files ((rotationSteps env m old).take n) ∧
      ((rotateKey env keyId).run ⟨m, n⟩).2.keys.masterKey = m.masterKey := by
  simp only [rotateKey, Method.run_bind, Method.run_read, Method.run_check, found, orRaise_some,
    run_generateKey supported]
  rw [rotationSteps, List.take_append, length_storeSteps]
  by_cases first : 4 ≤ n
  · rw [take_storeSteps first, written_append]
    simp only [if_pos first, run_storeKey, Method.run_pure]
    have generated : written m.files (storeSteps env m
        (LocalKeyManager.newKey env old.algorithm m.drawn) (m.drawn + 1)) =
        (m.generated env old.algorithm).files :=
      written_storeSteps env { m with drawn := m.drawn + 1 } _
    rw [generated]
    by_cases second : 4 ≤ n - 4
    · simp only [if_pos second]
      rw [take_storeSteps second]
      exact ⟨(written_storeSteps env (m.generated env old.algorithm) _).symm, rfl⟩
    · simp only [if_neg second]
      exact ⟨rfl, rfl⟩
  · simp only [if_neg first, Nat.sub_eq_zero_of_le (show n ≤ 4 by omega), List.take_zero,
      List.append_nil, and_self]

/-- Where no step fails, the rotation is that of `LocalKeyManager`. -/
theorem run_rotateKey_of_le (env : Env) (m : LocalKeyManager) (keyId : String) {n : Nat} (all : 8 ≤ n) :
    ((rotateKey env keyId).run ⟨m, n⟩).1 = ((LocalKeyManager.rotateKey env keyId).run m).1 ∧
      ((rotateKey env keyId).run ⟨m, n⟩).2.keys = ((LocalKeyManager.rotateKey env keyId).run m).2 := by
  simp only [rotateKey, LocalKeyManager.rotateKey, Method.run_bind, Method.run_read, Method.run_check]
  cases m.getKey env keyId with
  | error e => exact ⟨rfl, rfl⟩
  | ok stored =>
    cases stored with
    | none => exact ⟨rfl, rfl⟩
    | some old =>
      simp only [orRaise_some]
      rcases LocalKeyManager.generateKey_cases env m old.algorithm with
        ⟨cbc, -⟩ | ⟨supported, made⟩
      · rw [cbc]
        exact ⟨rfl, rfl⟩
      · have second : 4 ≤ n - 4 := by omega
        simp only [run_generateKey supported, made, if_pos (show 4 ≤ n by omega), run_storeKey,
          if_pos second, Method.run_pure]
        exact ⟨rfl, rfl⟩

/-! ### What a failed rotation leaves -/

inductive Which where
  | new
  | old

inductive WhichFile where
  | data
  | metadata

inductive FileEvent where
  | opened
  | written
  deriving DecidableEq

/-- A point at which a rotation fails: one of the four files has just been opened or written. -/
structure Point where
  key : Which
  file : WhichFile
  event : FileEvent

def Point.steps (point : Point) : Nat :=
  (match point.key with
    | .new => 0
    | .old => 4) +
  (match point.file with
    | .data => 0
    | .metadata => 2) +
  match point.event with
    | .opened => 1
    | .written => 2

/-- The directory where `rotate_key` failed at this point. -/
def failedRotation (env : Env) (m : LocalKeyManager) (keyId : String) (point : Point) :
    LocalKeyManager :=
  ((rotateKey env keyId).run ⟨m, point.steps⟩).2.keys

/-- A key of the directory, as `generate_key` stored it. -/
structure Stored (env : Env) (m : LocalKeyManager) (key : EncryptionKey) : Prop where
  holds : LocalKeyManager.Holds env m key
  length : key.keyData.length = 32
  supported : key.algorithm ≠ .aes256Cbc

/-- After the failure, every envelope under a stored key is decrypted to what it was made of. -/
def LosesNothing (env : Env) (s : EncryptionManager) (keyId : String) (point : Point) : Prop :=
  ∀ key data e, Stored env s.keyManager key → EncryptionManager.Sealed env key data e →
    EncryptionManager.decrypt env
      { s with keyManager := failedRotation env s.keyManager keyId point } e = .ok data

variable {old key : EncryptionKey} {point : Point}

/-- A failed rotation writes no files but those of the new and the old key. -/
theorem files_kept (sound : env.Sound) (master : m.masterKey.length = 32) (stored : Stored env m old)
    {keyId : String} (new : keyId ≠ env.keyId m.drawn) (other : point.key = .old → keyId ≠ old.keyId) :
    (failedRotation env m old.keyId point).files.get? (keyFile keyId) = m.files.get? (keyFile keyId) ∧
      (failedRotation env m old.keyId point).files.get? (metadataFile keyId) =
        m.files.get? (metadataFile keyId) := by
  have found := LocalKeyManager.getKey_of_holds sound master stored.holds
  rw [failedRotation, (run_rotateKey found stored.supported point.steps).1]
  have names : ∀ step ∈ (rotationSteps env m old).take point.steps, ∃ id, id ≠ keyId ∧
      (step.1 = keyFile id ∨ step.1 = metadataFile id) := by
    intro step mem
    have new_step : step ∈ storeSteps env m (LocalKeyManager.newKey env old.algorithm m.drawn)
        (m.drawn + 1) → ∃ id, id ≠ keyId ∧ (step.1 = keyFile id ∨ step.1 = metadataFile id) := by
      intro mem
      refine ⟨env.keyId m.drawn, new.symm, ?_⟩
      simp only [storeSteps, LocalKeyManager.newKey, List.mem_cons, List.not_mem_nil, or_false] at mem
      rcases mem with rfl | rfl | rfl | rfl <;> simp
    rw [rotationSteps, List.take_append, List.mem_append] at mem
    rcases mem with mem | mem
    · exact new_step (List.mem_of_mem_take mem)
    · cases which : point.key with
      | new =>
        have few : point.steps ≤ 4 := by
          obtain ⟨_, file, event⟩ := point
          cases which
          cases file <;> cases event <;> decide
        rw [length_storeSteps, Nat.sub_eq_zero_of_le few, List.take_zero] at mem
        cases mem
      | old =>
        have mem := List.mem_of_mem_take mem
        refine ⟨old.keyId, (other which).symm, ?_⟩
        simp only [storeSteps, List.mem_cons, List.not_mem_nil, or_false] at mem
        rcases mem with rfl | rfl | rfl | rfl <;> simp
  constructor
  · apply get?_written_of_not_mem
    intro step mem same
    obtain ⟨id, different, data | metadata⟩ := names step mem
    · exact different (keyFile_injective (data.symm.trans same))
    · exact keyFile_ne_metadataFile _ _ (same.symm.trans metadata)
  · apply get?_written_of_not_mem
    intro step mem same
    obtain ⟨id, different, data | metadata⟩ := names step mem
    · exact keyFile_ne_metadataFile _ _ (data.symm.trans same)
    · exact different (metadataFile_injective (metadata.symm.trans same))

variable (point) in
theorem failedRotation_masterKey (sound : env.Sound) (master : m.masterKey.length = 32)
    (stored : Stored env m old) : (failedRotation env m old.keyId point).masterKey = m.masterKey :=
  (run_rotateKey (LocalKeyManager.getKey_of_holds sound master stored.holds) stored.supported _).2

theorem ne_newKey (unused : m.files.get? (metadataFile (env.keyId m.drawn)) = none)
    (holds : LocalKeyManager.Holds env m key) : key.keyId ≠ env.keyId m.drawn := by
  intro same
  rw [← same, holds.metadata] at unused
  cases unused

theorem holds_kept (sound : env.Sound) (master : m.masterKey.length = 32) (stored : Stored env m old)
    (unused : m.files.get? (metadataFile (env.keyId m.drawn)) = none)
    (holds : LocalKeyManager.Holds env m key) (other : point.key = .old → key.keyId ≠ old.keyId) :
    LocalKeyManager.Holds env (failedRotation env m old.keyId point) key := by
  obtain ⟨keyFile, metadataFile⟩ := files_kept sound master stored (ne_newKey unused holds) other
  obtain ⟨n, data⟩ := holds.data
  refine ⟨⟨n, ?_⟩, by rw [metadataFile, holds.metadata]⟩
  rw [keyFile, data, LocalKeyManager.fernetKey, LocalKeyManager.fernetKey,
    failedRotation_masterKey _ sound master stored]

variable (point) in
/-- The files of the old key, once the new key is stored and `k` of its own steps have gone through. -/
theorem old_files (sound : env.Sound) (master : m.masterKey.length = 32) (stored : Stored env m old)
    (unused : m.files.get? (metadataFile (env.keyId m.drawn)) = none) {k : Nat}
    (steps : point.steps = 4 + k) :
    ∃ files, (failedRotation env m old.keyId point).files =
        written files ((storeSteps env m { old with isActive := false } (m.drawn + 2)).take k) ∧
      files.get? (keyFile old.keyId) = m.files.get? (keyFile old.keyId) ∧
      files.get? (metadataFile old.keyId) = m.files.get? (metadataFile old.keyId) := by
  have found := LocalKeyManager.getKey_of_holds sound master stored.holds
  refine ⟨(failedRotation env m old.keyId ⟨.new, .metadata, .written⟩).files, ?_, ?_⟩
  · rw [failedRotation, failedRotation, (run_rotateKey found stored.supported _).1,
      (run_rotateKey found stored.supported _).1, steps, rotationSteps, List.take_append,
      length_storeSteps, take_storeSteps (by omega), Nat.add_sub_cancel_left, written_append]
    rfl
  · exact files_kept sound master stored (ne_newKey unused stored.holds) (fun old => by cases old)

theorem old_kept (sound : env.Sound) (master : m.masterKey.length = 32) (stored : Stored env m old)
    (unused : m.files.get? (metadataFile (env.keyId m.drawn)) = none) (file : WhichFile) :
    LocalKeyManager.Keeps env (failedRotation env m old.keyId ⟨.old, file, .written⟩) old.keyId
      old.keyData := by
  have masterKey := failedRotation_masterKey ⟨.old, file, .written⟩ sound master stored
  cases file with
  | data =>
    obtain ⟨files, left, -, metadata⟩ := old_files ⟨.old, .data, .written⟩ (k := 2) sound
      master stored unused rfl
    refine ⟨old, ⟨⟨m.drawn + 2, ?_⟩, ?_⟩, rfl, rfl⟩
    · rw [left, LocalKeyManager.fernetKey, masterKey]
      exact Dict.get?_set_self _ _ _
    · rw [left, ← stored.holds.metadata, ← metadata]
      exact get?_written_of_not_mem (by simp [storeSteps, keyFile_ne_metadataFile])
  | metadata =>
    obtain ⟨files, left, -, -⟩ := old_files ⟨.old, .metadata, .written⟩ (k := 4) sound
      master stored unused rfl
    refine ⟨{ old with isActive := false }, ⟨⟨m.drawn + 2, ?_⟩, ?_⟩, rfl, rfl⟩
    · rw [left, LocalKeyManager.fernetKey, masterKey]
      simp only [storeSteps, written, List.take, List.foldl]
      rw [Dict.get?_set_of_ne _ _ (keyFile_ne_metadataFile _ _).symm,
        Dict.get?_set_of_ne _ _ (keyFile_ne_metadataFile _ _).symm, Dict.get?_set_self]
      rfl
    · rw [left]
      exact Dict.get?_set_self _ _ _

theorem readKey_empty_data (rejects : ∀ key, env.fernetDecrypt key [] = none) (metadata : Bytes) :
    m.readKey env [] metadata = none := by
  unfold LocalKeyManager.readKey
  cases decodeUtf8 metadata with
  | none => rfl
  | some text =>
    simp only [Option.bind_eq_bind, Option.bind_some, rejects, Option.bind_none]
    cases loads text.toList with
    | none => rfl
    | some v => cases v <;> rfl

theorem readKey_empty_metadata (encrypted : Bytes) : m.readKey env encrypted [] = none := by
  have text : decodeUtf8 [] = some "" := decodeUtf8_encodeUtf8 ""
  have nothing : loads [] = none := by decide
  simp [LocalKeyManager.readKey, text, nothing]

theorem old_lost (sound : env.Sound) (rejects : ∀ key, env.fernetDecrypt key [] = none)
    (master : m.masterKey.length = 32) (stored : Stored env m old)
    (unused : m.files.get? (metadataFile (env.keyId m.drawn)) = none) (file : WhichFile) :
    (failedRotation env m old.keyId ⟨.old, file, .opened⟩).getKey env old.keyId =
      .error (.failedToRetrieve old.keyId) := by
  cases file with
  | data =>
    obtain ⟨files, left, -, metadata⟩ := old_files ⟨.old, .data, .opened⟩ (k := 1) sound
      master stored unused rfl
    have emptied : (failedRotation env m old.keyId ⟨.old, .data, .opened⟩).files.get?
        (keyFile old.keyId) = some [] := by
      rw [left]
      exact Dict.get?_set_self _ _ _
    have kept : (failedRotation env m old.keyId ⟨.old, .data, .opened⟩).files.get?
        (metadataFile old.keyId) = some old.metadataText := by
      rw [left, ← stored.holds.metadata, ← metadata]
      exact get?_written_of_not_mem (by simp [storeSteps, keyFile_ne_metadataFile])
    unfold LocalKeyManager.getKey
    rw [emptied, kept]
    simp only [readKey_empty_data rejects]
    rfl
  | metadata =>
    obtain ⟨files, left, -, -⟩ := old_files ⟨.old, .metadata, .opened⟩ (k := 3) sound
      master stored unused rfl
    have emptied : (failedRotation env m old.keyId ⟨.old, .metadata, .opened⟩).files.get?
        (metadataFile old.keyId) = some [] := by
      rw [left]
      exact Dict.get?_set_self _ _ _
    have there : ∃ encrypted, (failedRotation env m old.keyId ⟨.old, .metadata, .opened⟩).files.get?
        (keyFile old.keyId) = some encrypted := by
      rw [left]
      simp only [storeSteps, written, List.take, List.foldl]
      exact ⟨_, (Dict.get?_set_of_ne _ _ (keyFile_ne_metadataFile _ _).symm).trans
        (Dict.get?_set_self _ _ _)⟩
    obtain ⟨encrypted, there⟩ := there
    unfold LocalKeyManager.getKey
    rw [emptied, there]
    simp only [readKey_empty_metadata]
    rfl

theorem exists_sealed (env : Env) {key : EncryptionKey} (supported : key.algorithm ≠ .aes256Cbc)
    (data : Bytes) : ∃ e, EncryptionManager.Sealed env key data e := by
  cases algorithm : key.algorithm with
  | aes256Cbc => exact absurd algorithm supported
  | aes256Gcm => exact ⟨_, .aesGcm 0 algorithm⟩
  | chacha20Poly1305 => exact ⟨_, .chacha20 0 algorithm⟩

theorem losesNothing_iff (sound : env.Sound) (rejects : ∀ key, env.fernetDecrypt key [] = none)
    {s : EncryptionManager} (master : s.keyManager.masterKey.length = 32)
    (stored : Stored env s.keyManager old)
    (unused : s.keyManager.files.get? (metadataFile (env.keyId s.keyManager.drawn)) = none) :
    LosesNothing env s old.keyId point ↔ ¬(point.key = .old ∧ point.event = .opened) := by
  obtain ⟨which, file, event⟩ := point
  constructor
  · rintro safe ⟨rfl : which = _, rfl : event = _⟩
    obtain ⟨e, locked⟩ := exists_sealed env stored.supported []
    have opened := safe old [] e stored locked
    have lost := old_lost sound rejects master stored unused file
    rw [← locked.keyId] at lost
    rw [locked.keyId.symm, EncryptionManager.decrypt] at opened
    simp only [lost, error_bind] at opened
    cases opened
  · intro sheltered key data e held locked
    have masterKey := failedRotation_masterKey ⟨which, file, event⟩ sound master stored
    have keeps : LocalKeyManager.Keeps env (failedRotation env s.keyManager old.keyId
        ⟨which, file, event⟩) key.keyId key.keyData := by
      by_cases same : which = .old → key.keyId ≠ old.keyId
      · exact ⟨key, holds_kept sound master stored unused held.holds same, rfl, rfl⟩
      · simp only [Classical.not_imp, not_not] at same
        obtain ⟨rfl, same⟩ := same
        have alike : key = old := by
          have found := LocalKeyManager.getKey_of_holds sound master held.holds
          rw [same, LocalKeyManager.getKey_of_holds sound master stored.holds] at found
          exact (Option.some.inj (Except.ok.inj found)).symm
        subst alike
        cases event with
        | opened => exact absurd ⟨rfl, rfl⟩ sheltered
        | written => exact old_kept sound master stored unused file
    exact EncryptionManager.decrypt_sealed sound (masterKey ▸ master) locked held.length keeps

/-- On every directory, a failed rotation of a stored key loses no data exactly when it does not
fail right after one of the files of that key was opened for rewriting. -/
theorem failed_rotation_loses_nothing_iff (env : Env) (sound : env.Sound)
    (rejects : ∀ key, env.fernetDecrypt key [] = none) (password : String)
    (algorithm : EncryptionAlgorithm) (files : Dict String Bytes) (drawn : Nat) (old : EncryptionKey)
    (stored : Stored env (EncryptionManager.new env password algorithm files drawn).keyManager old)
    (unused : files.get? (metadataFile (env.keyId drawn)) = none) (point : Point) :
    LosesNothing env (EncryptionManager.new env password algorithm files drawn) old.keyId point ↔
      ¬(point.key = .old ∧ point.event = .opened) :=
  losesNothing_iff sound rejects (env.pbkdf2_length _ _) stored unused

/-! ### A directory with one key -/

/-- Ciphers in the clear, and a Fernet that marks its tokens. -/
def markingEnv : Env :=
  { EncryptionManager.sampleEnv with
    fernetEncrypt _ _ data := 0x80 :: data
    fernetDecrypt _ token := if token.head? = some 0x80 then some token.tail else none }

theorem markingEnv_sound : markingEnv.Sound where
  fernet _ _ _ _ := by simp [markingEnv]
  gcm := EncryptionManager.sampleEnv_sound.gcm
  gcmTag := EncryptionManager.sampleEnv_sound.gcmTag
  chacha := EncryptionManager.sampleEnv_sound.chacha
  fresh := EncryptionManager.sampleEnv_sound.fresh

def soleKey : EncryptionKey := LocalKeyManager.newKey markingEnv .aes256Gcm 0

def soleFiles : Dict String Bytes :=
  ((EncryptionManager.new markingEnv "secret" .aes256Gcm .empty 1).keyManager.stored markingEnv soleKey).files

theorem soleKey_stored : Stored markingEnv
    (EncryptionManager.new markingEnv "secret" .aes256Gcm soleFiles 2).keyManager soleKey where
  holds :=
    have held := @LocalKeyManager.holds_stored markingEnv
      (EncryptionManager.new markingEnv "secret" .aes256Gcm .empty 1).keyManager soleKey
    ⟨held.data, held.metadata⟩
  length := markingEnv.urandom_length 0 32
  supported := by decide

theorem soleFiles_unused : soleFiles.get? (metadataFile (markingEnv.keyId 2)) = none := by
  have other : markingEnv.keyId 2 ≠ soleKey.keyId := fun same => by
    cases markingEnv_sound.fresh same
  exact (LocalKeyManager.files_stored markingEnv _ other).2

theorem soleKey_lost : ¬LosesNothing markingEnv
    (EncryptionManager.new markingEnv "secret" .aes256Gcm soleFiles 2) soleKey.keyId
    ⟨.old, .data, .opened⟩ := by
  intro safe
  have master : (EncryptionManager.new markingEnv "secret" .aes256Gcm soleFiles 2).keyManager.masterKey.length =
      32 := List.length_replicate
  exact (losesNothing_iff markingEnv_sound (fun _ => rfl) master soleKey_stored soleFiles_unused).mp
    safe ⟨rfl, rfl⟩

theorem soleKey_survives : LosesNothing markingEnv
    (EncryptionManager.new markingEnv "secret" .aes256Gcm soleFiles 2) soleKey.keyId
    ⟨.old, .data, .written⟩ :=
  (failed_rotation_loses_nothing_iff markingEnv markingEnv_sound (fun _ => rfl) "secret" .aes256Gcm
    soleFiles 2 soleKey soleKey_stored soleFiles_unused ⟨.old, .data, .written⟩).mpr (by simp)

end FailingManager

end BtApiSecurity.Encryption
