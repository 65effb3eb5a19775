import Mathlib.Logic.Function.Basic
import BtApiSecurity.Encryption.RoundTrip

/-!
# Several managers on one directory

Any number of encryption managers may be opened on one key directory with one
password. They share the files and nothing else: each has its own default
algorithm and its own cached key, and their calls interleave in any order.
-/

namespace BtApiSecurity.Encryption
open Py Machine

/-- What a manager keeps in memory. -/
structure Session where
  defaultAlgorithm : EncryptionAlgorithm
  activeKey : Option EncryptionKey

/-- A directory and the managers that are open on it. -/
structure Shared where
  files : Dict String Bytes
  drawn : Nat
  sessions : Nat → Session

namespace Shared
open EncryptionManager (Call Reply Inv encrypt decrypt)

variable (env : Env) (password : String)

def new (algorithms : Nat → EncryptionAlgorithm) : Shared :=
  ⟨.empty, 0, fun p => ⟨algorithms p, none⟩⟩

/-- The manager `p`, with the files as they are now. -/
def manager (d : Shared) (p : Nat) : EncryptionManager where
  keyManager := ⟨LocalKeyManager.deriveMasterKey env password, d.files, d.drawn⟩
  defaultAlgorithm := (d.sessions p).defaultAlgorithm
  activeKey := (d.sessions p).activeKey

/-- The manager `p` has come back from a call. -/
def leave (d : Shared) (p : Nat) (s : EncryptionManager) : Shared where
  files := s.keyManager.files
  drawn := s.keyManager.drawn
  sessions := Function.update d.sessions p ⟨s.defaultAlgorithm, s.activeKey⟩

/-- One call of one manager. -/
def step (d : Shared) (i : Nat × Call) : Shared × Except Error Reply :=
  let (s, reply) := EncryptionManager.step env password (d.manager env password i.1) i.2
  (d.leave i.1 s, reply)

variable {env password} {d : Shared} {p q : Nat} {s : EncryptionManager}

theorem manager_leave (master : s.keyManager.masterKey = LocalKeyManager.deriveMasterKey env password) :
    (d.leave p s).manager env password p = s := by
  obtain ⟨⟨masterKey, files, drawn⟩, algorithm, active⟩ := s
  obtain rfl : masterKey = LocalKeyManager.deriveMasterKey env password := master
  simp [manager, leave]

theorem manager_leave_of_ne (other : q ≠ p)
    (master : s.keyManager.masterKey = LocalKeyManager.deriveMasterKey env password) :
    (d.leave p s).manager env password q =
      { d.manager env password q with keyManager := s.keyManager } := by
  obtain ⟨⟨masterKey, files, drawn⟩, algorithm, active⟩ := s
  obtain rfl : masterKey = LocalKeyManager.deriveMasterKey env password := master
  simp [manager, leave, Function.update_of_ne other]

/-! ### Runs -/

/-- Every manager finds the directory in order, and its cached key stored unless some manager
deleted it. -/
def AllInv (env : Env) (password : String) (past : List Call) (d : Shared) : Prop :=
  ∀ p, Inv env password past (d.manager env password p)

theorem allInv_new (algorithms : Nat → EncryptionAlgorithm) :
    AllInv env password [] (new algorithms) :=
  fun p => EncryptionManager.inv_new env password (algorithms p)

theorem step_fst (d : Shared) (i : Nat × Call) : (step env password d i).1 =
    d.leave i.1 (EncryptionManager.step env password (d.manager env password i.1) i.2).1 := rfl

theorem allInv_step (sound : env.Sound) {past : List Call} (inv : AllInv env password past d)
    (i : Nat × Call) : AllInv env password (past ++ [i.2]) (step env password d i).1 := by
  obtain ⟨p, c⟩ := i
  have here := EncryptionManager.inv_step sound (inv p) c
  intro q
  rw [step_fst]
  by_cases same : q = p
  · subst same
    rw [manager_leave here.master]
    exact here
  · rw [manager_leave_of_ne same here.master]
    refine ⟨here.intact, here.master, fun key cached => ?_⟩
    obtain ⟨length, stored⟩ := (inv q).active key cached
    refine ⟨length, fun undeleted => ?_⟩
    simp only [List.mem_append, List.mem_singleton, not_or] at undeleted
    exact EncryptionManager.keeps_step sound (inv p) (Ne.symm undeleted.2) (stored undeleted.1)

theorem allInv_run (sound : env.Sound) {past : List Call} (inv : AllInv env password past d)
    (is : List (Nat × Call)) :
    AllInv env password (past ++ is.map Prod.snd) (run (step env password) d is) := by
  induction is generalizing past d with
  | nil => simpa using inv
  | cons i is ih => simpa using ih (allInv_step sound inv i)

/-- The data of a key is there for one manager exactly when it is for another. -/
theorem keeps_run (sound : env.Sound) {past : List Call} (inv : AllInv env password past d)
    {is : List (Nat × Call)} {id : String} {data : Bytes} (undeleted : ∀ r, (r, .deleteKey id) ∉ is)
    (keeps : LocalKeyManager.Keeps env (d.manager env password p).keyManager id data) :
    LocalKeyManager.Keeps env ((run (step env password) d is).manager env password p).keyManager
      id data := by
  induction is generalizing past d with
  | nil => exact keeps
  | cons i is ih =>
    obtain ⟨r, c⟩ := i
    have master := (EncryptionManager.inv_step sound (inv r) c).master
    apply ih (allInv_step sound inv (r, c))
    · intro r' later
      exact undeleted r' (List.mem_cons_of_mem _ later)
    · have first : c ≠ .deleteKey id := by
        rintro rfl
        exact undeleted r List.mem_cons_self
      have kept := EncryptionManager.keeps_step sound (inv r) first keeps
      have files : ((step env password d (r, c)).1.manager env password p).keyManager =
          (EncryptionManager.step env password (d.manager env password r) c).1.keyManager := by
        rw [step_fst, ← congrArg EncryptionManager.keyManager (manager_leave (d := d) (p := r) master)]
        rfl
      rw [files]
      exact kept

/-- The key of a returned envelope is stored when the call ends. -/
theorem envelope_made (sound : env.Sound) {past : List Call} (inv : Inv env password past s)
    {data : Data} {keyId : Option String} {e : Envelope}
    (returned : (EncryptionManager.step env password s (.encrypt data keyId)).2 = .ok (.envelope e))
    (undeleted : .deleteKey e.keyId ∉ past) :
    ∃ key, EncryptionManager.Sealed env key data.toBytes e ∧ key.keyData.length = 32 ∧
      LocalKeyManager.Keeps env
        (EncryptionManager.step env password s (.encrypt data keyId)).1.keyManager key.keyId
        key.keyData := by
  obtain ⟨advance, made⟩ := EncryptionManager.encrypt_ends sound inv.intact data keyId
  have whole := Method.run_map Reply.envelope (encrypt env data keyId) s
  have steps : EncryptionManager.step env password s (.encrypt data keyId) =
      (((Reply.envelope <$> encrypt env data keyId).run s).2,
        ((Reply.envelope <$> encrypt env data keyId).run s).1) := rfl
  rw [steps] at returned ⊢
  rw [whole] at returned ⊢
  cases outcome : (encrypt env data keyId).run s with
  | mk result t =>
    rw [outcome] at returned advance made
    cases result with
    | error => cases returned
    | ok e' =>
      obtain rfl : e' = e := by simpa using returned
      obtain ⟨key, usable, locked⟩ := made e' rfl
      refine ⟨key, locked, ?_⟩
      rcases usable with cached | stored
      · obtain ⟨length, keeps⟩ := inv.active key cached
        exact ⟨length, advance.keys.kept _ _ (keeps (locked.keyId ▸ undeleted))⟩
      · exact stored

/-- What a manager returned, every manager decrypts after further calls. -/
theorem decrypt_later (sound : env.Sound) {past : List Call} (inv : AllInv env password past d)
    {data : Data} {keyId : Option String} {e : Envelope}
    (returned : (step env password d (p, .encrypt data keyId)).2 = .ok (.envelope e))
    (unspent : .deleteKey e.keyId ∉ past) (after : List (Nat × Call))
    (undeleted : ∀ r, (r, .deleteKey e.keyId) ∉ after) :
    decrypt env ((run (step env password) (step env password d (p, .encrypt data keyId)).1 after).manager
      env password q) e = .ok data.toBytes := by
  obtain ⟨key, locked, length, keeps⟩ := envelope_made sound (inv p) returned unspent
  have later := allInv_step sound inv (p, .encrypt data keyId)
  have stored : LocalKeyManager.Keeps env
      ((step env password d (p, .encrypt data keyId)).1.manager env password q).keyManager key.keyId
      key.keyData := by
    have master := (EncryptionManager.inv_step sound (inv p) (.encrypt data keyId)).master
    rw [step_fst]
    by_cases same : q = p
    · rw [same, manager_leave master]
      exact keeps
    · rw [manager_leave_of_ne same master]
      exact keeps
  have still := keeps_run sound later (fun r => locked.keyId ▸ undeleted r) stored
  exact EncryptionManager.decrypt_sealed sound ((allInv_run sound later after) q).intact.master locked
    length still

/-- A key that no manager deleted is not among what they did. -/
theorem unspent_of_undeleted {id : String} {is : List (Nat × Call)}
    (undeleted : ∀ r, (r, .deleteKey id) ∉ is) : .deleteKey id ∉ is.map Prod.snd := by
  intro member
  obtain ⟨⟨r, c⟩, made, rfl⟩ := List.mem_map.mp member
  exact undeleted r made

/-- Whatever the managers do in whatever order, an envelope that one of them returned is
decrypted by every one of them, as long as none of them deleted its key. -/
theorem envelopes_shared (env : Env) (sound : env.Sound) (password : String)
    (algorithms : Nat → EncryptionAlgorithm) (before after : List (Nat × Call)) (p q : Nat)
    (data : Data) (keyId : Option String) (e : Envelope)
    (returned : (step env password (run (step env password) (new algorithms) before)
      (p, .encrypt data keyId)).2 = .ok (.envelope e))
    (undeleted : ∀ r, (r, .deleteKey e.keyId) ∉ before ++ after) :
    decrypt env ((run (step env password) (new algorithms)
      (before ++ (p, .encrypt data keyId) :: after)).manager env password q) e = .ok data.toBytes := by
  have inv : AllInv env password ([] ++ before.map Prod.snd) (run (step env password) (new algorithms) before) :=
    allInv_run sound (allInv_new algorithms) before
  simp only [List.mem_append, not_or] at undeleted
  rw [run_append, run_cons]
  exact decrypt_later sound inv returned (unspent_of_undeleted fun r => (undeleted r).1)
    after fun r => (undeleted r).2

/-- One manager encrypts, the other rotates that key, and each of them rotates its own. -/
theorem sample_shared :
    decrypt EncryptionManager.sampleEnv
      ((run (step EncryptionManager.sampleEnv "secret") (new fun _ => .aes256Gcm)
        ([(1, .encrypt (.str "b") none)] ++ (0, .encrypt (.str "a") none) ::
          [(1, .rotateKey "key_3_00000000"), (0, .rotateKeys), (1, .rotateKeys)])).manager
        EncryptionManager.sampleEnv "secret" 1)
      ⟨"key_3_00000000", "aes_256_gcm", "YQ==", "AAAAAAAAAAAAAAAA", some "AAAAAAAAAAAAAAAAAAAAAA=="⟩ =
        .ok (encodeUtf8 "a") :=
  envelopes_shared EncryptionManager.sampleEnv EncryptionManager.sampleEnv_sound "secret"
    (fun _ => .aes256Gcm) [(1, .encrypt (.str "b") none)] _ 0 1 (.str "a") none _ (by rfl) (by simp)

end Shared

end BtApiSecurity.Encryption
