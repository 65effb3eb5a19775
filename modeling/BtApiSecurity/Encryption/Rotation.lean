import BtApiSecurity.Encryption.RoundTrip

/-!
# Keys that were rotated out

A key that is rotated out stays in the directory, with `is_active` false in its
metadata. Whether `encrypt` still uses it depends on how it comes by its key.
-/

namespace BtApiSecurity.Encryption
open Py Machine

namespace LocalKeyManager

variable {env : Env} {m m' : LocalKeyManager}

/-- The stored metadata says that the key is not active. -/
def Retired (env : Env) (m : LocalKeyManager) (keyId : String) : Prop :=
  ∃ key, m.getKey env keyId = .ok (some key) ∧ key.isActive = false

theorem getKey_stored (sound : env.Sound) (master : m.masterKey.length = 32) (key : EncryptionKey)
    (id : String) :
    (m.stored env key).getKey env id = if id = key.keyId then .ok (some key) else m.getKey env id := by
  by_cases here : id = key.keyId
  · subst here
    rw [if_pos rfl]
    exact getKey_of_holds (m := m.stored env key) sound master (holds_stored key)
  · obtain ⟨keyFile, metadataFile⟩ := files_stored env m here
    rw [if_neg here]
    unfold getKey
    rw [keyFile, metadataFile]
    rfl

theorem retired_stored (sound : env.Sound) (master : m.masterKey.length = 32) (key : EncryptionKey)
    (id : String) : Retired env (m.stored env key) id ↔
      if id = key.keyId then key.isActive = false else Retired env m id := by
  unfold Retired
  rw [getKey_stored sound master]
  split
  · constructor
    · rintro ⟨_, found, inactive⟩
      obtain rfl := Option.some.inj (Except.ok.inj found)
      exact inactive
    · intro inactive
      exact ⟨key, rfl, inactive⟩
  · rfl

theorem getKey_fresh (sound : env.Sound) (intact : Intact env m) {n : Nat} (later : m.drawn ≤ n) :
    m.getKey env (env.keyId n) = .ok none := by
  rcases getKey_cases sound intact (env.keyId n) with missing | ⟨_, -, -, -, ⟨k, before, named⟩, -⟩
  · exact missing
  · have same := sound.fresh named
    omega

theorem not_retired_fresh (sound : env.Sound) (intact : Intact env m) {n : Nat} (later : m.drawn ≤ n) :
    ¬Retired env m (env.keyId n) := by
  rintro ⟨key, found, -⟩
  rw [getKey_fresh sound intact later] at found
  cases found

/-! ### What a method rotates out -/

/-- The directory is in order, and `generate_key` made every key in it. -/
structure Orderly (env : Env) (m : LocalKeyManager) : Prop where
  intact : Intact env m
  supported : ∀ id key, m.getKey env id = .ok (some key) → key.algorithm ≠ .aes256Cbc

/-- The directory is still in order, and of all keys just `gone` has been retired. -/
structure After (env : Env) (m m' : LocalKeyManager) (gone : Option String) : Prop where
  orderly : Orderly env m'
  masterKey : m'.masterKey = m.masterKey
  retired : ∀ id, Retired env m' id ↔ gone = some id ∨ Retired env m id

theorem After.refl (orderly : Orderly env m) : After env m m none :=
  ⟨orderly, rfl, by simp⟩

theorem After.trans {m₁ m₂ m₃ : LocalKeyManager} {gone : Option String} (first : After env m₁ m₂ none)
    (second : After env m₂ m₃ gone) : After env m₁ m₃ gone := by
  refine ⟨second.orderly, second.masterKey.trans first.masterKey, fun id => ?_⟩
  rw [second.retired, first.retired]
  simp

theorem after_drawn (orderly : Orderly env m) : After env m { m with drawn := m.drawn + 1 } none :=
  ⟨⟨(advance_drawn orderly.intact).intact, orderly.supported⟩, rfl, fun _ => by simp [Retired, getKey]; rfl⟩

theorem after_stored (sound : env.Sound) (orderly : Orderly env m) (key : EncryptionKey)
    (gone : Option String) (length : key.keyData.length = 32)
    (known : ∃ n < m.drawn, key.keyId = env.keyId n) (supported : key.algorithm ≠ .aes256Cbc)
    (retires : ∀ id, (if id = key.keyId then key.isActive = false else Retired env m id) ↔
      gone = some id ∨ Retired env m id) : After env m (m.stored env key) gone := by
  have master := orderly.intact.master
  refine ⟨⟨intact_stored orderly.intact length known, fun id found => ?_⟩, rfl, fun id => ?_⟩
  · rw [getKey_stored sound master]
    split
    · intro same
      obtain rfl := Option.some.inj (Except.ok.inj same)
      exact supported
    · exact orderly.supported id found
  · rw [retired_stored sound master, retires]

theorem after_generated (sound : env.Sound) (orderly : Orderly env m) {algorithm : EncryptionAlgorithm}
    (supported : algorithm ≠ .aes256Cbc) : After env m (m.generated env algorithm) none := by
  have drawn := after_drawn orderly
  refine drawn.trans (after_stored sound drawn.orderly _ none (env.urandom_length _ _)
    ⟨m.drawn, Nat.lt_succ_self _, rfl⟩ supported fun id => ?_)
  split
  · rename_i here
    subst here
    have fresh : ¬Retired env m (env.keyId m.drawn) := not_retired_fresh sound orderly.intact le_rfl
    have fresh' := mt ((drawn.retired _).mp) (by simpa using fresh)
    simp only [newKey, reduceCtorEq, false_or, Bool.true_eq_false, false_iff]
    exact fresh'
  · simp

/-- A rotation that returns retires the key that it names, and only that one. -/
theorem rotateKey_cases (sound : env.Sound) (orderly : Orderly env m) (keyId : String) :
    m.getKey env keyId = .ok none ∧ (rotateKey env keyId).run m = (.error (.keyNotFound keyId), m) ∨
    ∃ algorithm m', algorithm ≠ .aes256Cbc ∧ After env m m' (some keyId) ∧
      (rotateKey env keyId).run m = (.ok (newKey env algorithm m.drawn), m') := by
  rcases getKey_cases sound orderly.intact keyId with missing | ⟨old, holds, rfl, length, known, found⟩
  · left
    refine ⟨missing, ?_⟩
    simp only [rotateKey, Method.run_bind, Method.run_read, missing, Method.run_check, orRaise_none]
  · right
    have supported := orderly.supported _ old found
    have generated := after_generated sound orderly supported
    have run : (rotateKey env old.keyId).run m = (.ok (newKey env old.algorithm m.drawn),
        (m.generated env old.algorithm).stored env { old with isActive := false }) := by
      rcases generateKey_cases env m old.algorithm with ⟨cbc, -⟩ | ⟨-, made⟩
      · exact absurd cbc supported
      · simp only [rotateKey, Method.run_bind, Method.run_read, found, Method.run_check, orRaise_some,
          made]
        rfl
    have known' : ∃ n < (m.generated env old.algorithm).drawn, old.keyId = env.keyId n := by
      obtain ⟨n, before, named⟩ := known
      exact ⟨n, by show n < m.drawn + 1 + 1; omega, named⟩
    have stored := after_stored sound generated.orderly { old with isActive := false }
      (some old.keyId) length known' supported (fun id => by
        by_cases here : id = old.keyId
        · simp [here]
        · simp [here, Ne.symm here])
    exact ⟨old.algorithm, _, supported, generated.trans stored, run⟩

end LocalKeyManager

namespace EncryptionManager
open LocalKeyManager (Retired Orderly After generated)

variable {env : Env} {password : String} {s : EncryptionManager}

abbrev Event := Entry EncryptionManager Call (Except Error Reply)

/-! ### What a run says about rotated keys -/

/-- The key that is active in a call without key id: the cached one, or else a new one. -/
def activeId (env : Env) (s : EncryptionManager) : String :=
  match s.activeKey.filter (·.isActive) with
  | some key => key.keyId
  | none => env.keyId s.keyManager.drawn

/-- The key that a call rotated out. -/
def rotatedOut (env : Env) (e : Event) : Option String :=
  match e.input, e.output with
  | .rotateKey keyId, .ok _ => some keyId
  | .rotateKeys, .ok _ => some (activeId env e.pre)
  | _, _ => none

def RotatedOut (env : Env) (history : List Event) (keyId : String) : Prop :=
  ∃ e ∈ history, rotatedOut env e = some keyId

/-- The stored or cached key that `encrypt` takes, before it makes one. -/
def chosenId (s : EncryptionManager) (keyId : Option String) : Option String :=
  match keyId.filter (· ≠ "") with
  | some keyId => some keyId
  | none => (s.activeKey.filter (·.isActive)).map (·.keyId)

def ChoosesRetired (env : Env) (s : EncryptionManager) (keyId : Option String) : Prop :=
  ∃ id, chosenId s keyId = some id ∧ Retired env s.keyManager id

/-! ### Getting a key -/

/-- The directory is in order, and the cached key is one that `generate_key` returned. -/
structure Ready (env : Env) (s : EncryptionManager) : Prop where
  orderly : Orderly env s.keyManager
  cached : ∀ key, s.activeKey = some key → key.isActive = true ∧ key.algorithm ≠ .aes256Cbc

/-- The manager after a call that rotated `gone` out. -/
structure Turn (env : Env) (s s' : EncryptionManager) (gone : Option String) : Prop where
  keys : After env s.keyManager s'.keyManager gone
  cached : ∀ key, s'.activeKey = some key → key.isActive = true ∧ key.algorithm ≠ .aes256Cbc

theorem Turn.ready {s' : EncryptionManager} {gone : Option String} (turn : Turn env s s' gone) :
    Ready env s' :=
  ⟨turn.keys.orderly, turn.cached⟩

theorem Turn.refl (ready : Ready env s) : Turn env s s none :=
  ⟨.refl ready.orderly, ready.cached⟩

theorem Turn.trans {s₁ s₂ s₃ : EncryptionManager} {gone : Option String} (first : Turn env s₁ s₂ none)
    (second : Turn env s₂ s₃ gone) : Turn env s₁ s₃ gone :=
  ⟨first.keys.trans second.keys, second.cached⟩

theorem turn_keys (ready : Ready env s) {m : LocalKeyManager} {gone : Option String}
    (after : After env s.keyManager m gone) : Turn env s { s with keyManager := m } gone :=
  ⟨after, ready.cached⟩

theorem turn_active {m : LocalKeyManager} {gone : Option String} {n : Nat}
    {algorithm : EncryptionAlgorithm} (after : After env s.keyManager m gone)
    (supported : algorithm ≠ .aes256Cbc) :
    Turn env s { s with keyManager := m, activeKey := some (LocalKeyManager.newKey env algorithm n) }
      gone := by
  refine ⟨after, ?_⟩
  rintro key made
  obtain rfl := Option.some.inj made
  exact ⟨rfl, supported⟩

def activated (env : Env) (s : EncryptionManager) : EncryptionManager :=
  { s with
    keyManager := s.keyManager.generated env s.defaultAlgorithm
    activeKey := some (LocalKeyManager.newKey env s.defaultAlgorithm s.keyManager.drawn) }

theorem getActiveKey_cases (ready : Ready env s) :
    (∃ key, s.activeKey.filter (·.isActive) = some key ∧ key.algorithm ≠ .aes256Cbc ∧
      (getActiveKey env).run s = (.ok key, s)) ∨
    s.activeKey.filter (·.isActive) = none ∧ (s.defaultAlgorithm = .aes256Cbc ∧
      (∃ e, (getActiveKey env).run s = (.error e, s)) ∨ s.defaultAlgorithm ≠ .aes256Cbc ∧
      (getActiveKey env).run s =
        (.ok (LocalKeyManager.newKey env s.defaultAlgorithm s.keyManager.drawn), activated env s)) := by
  simp only [getActiveKey, Method.run_bind, Method.run_read]
  cases cached : s.activeKey.filter (·.isActive) with
  | some key =>
    have held := (Option.filter_eq_some_iff.mp cached).1
    exact .inl ⟨key, rfl, (ready.cached key held).2, rfl⟩
  | none =>
    refine .inr ⟨rfl, ?_⟩
    simp only [Method.run_bind, run_onKeys]
    rcases LocalKeyManager.generateKey_cases env s.keyManager s.defaultAlgorithm with
      ⟨cbc, raised⟩ | ⟨supported, made⟩
    · rw [raised]
      exact .inl ⟨cbc, _, rfl⟩
    · rw [made]
      exact .inr ⟨supported, rfl⟩

theorem activated_turn (sound : env.Sound) (ready : Ready env s)
    (supported : s.defaultAlgorithm ≠ .aes256Cbc) : Turn env s (activated env s) none :=
  turn_active (LocalKeyManager.after_generated sound ready.orderly supported) supported

/-- `encrypt` takes the key that is chosen, or makes one where none is. -/
theorem selectKey_cases (sound : env.Sound) (ready : Ready env s) (keyId : Option String) :
    (∃ key, chosenId s keyId = some key.keyId ∧ key.algorithm ≠ .aes256Cbc ∧
      (selectKey env keyId).run s = (.ok key, s)) ∨
    chosenId s keyId = none ∧ s.defaultAlgorithm ≠ .aes256Cbc ∧ (selectKey env keyId).run s =
      (.ok (LocalKeyManager.newKey env s.defaultAlgorithm s.keyManager.drawn), activated env s) ∨
    ¬ChoosesRetired env s keyId ∧ ∃ e, (selectKey env keyId).run s = (.error e, s) := by
  unfold selectKey ChoosesRetired chosenId
  cases keyId.filter (· ≠ "") with
  | none =>
    rcases getActiveKey_cases ready with ⟨key, cached, supported, run⟩ |
      ⟨none, ⟨-, raised⟩ | ⟨supported, run⟩⟩
    · exact .inl ⟨key, by simp [cached], supported, run⟩
    · exact .inr (.inr ⟨by simp [none], raised⟩)
    · exact .inr (.inl ⟨by simp [none], supported, run⟩)
  | some id =>
    simp only [Method.run_bind, Method.run_read]
    rcases LocalKeyManager.getKey_cases sound ready.orderly.intact id with
      missing | ⟨key, -, named, -, -, found⟩
    · refine .inr (.inr ⟨?_, .keyNotFound id, by simp [missing]⟩)
      rintro ⟨_, same, key, found, -⟩
      obtain rfl := Option.some.inj same
      rw [missing] at found
      cases found
    · exact .inl ⟨key, by rw [named], ready.orderly.supported id key found, by simp [found]⟩

theorem encrypt_of_select (data : Data) {keyId : Option String} {key : EncryptionKey}
    {s₁ : EncryptionManager} (selected : (selectKey env keyId).run s = (.ok key, s₁))
    (supported : key.algorithm ≠ .aes256Cbc) : ∃ envelope, envelope.keyId = key.keyId ∧
      (encrypt env data keyId).run s = (.ok envelope,
        { s₁ with keyManager := { s₁.keyManager with drawn := s₁.keyManager.drawn + 1 } }) := by
  simp only [encrypt, Method.run_bind, selected]
  cases algorithm : key.algorithm with
  | aes256Gcm => exact ⟨_, rfl, rfl⟩
  | chacha20Poly1305 => exact ⟨_, rfl, rfl⟩
  | aes256Cbc => exact absurd algorithm supported

theorem encrypt_cases (sound : env.Sound) (ready : Ready env s) (data : Data) (keyId : Option String) :
    (∃ envelope s', (chosenId s keyId = some envelope.keyId ∨
        envelope.keyId = env.keyId s.keyManager.drawn ∧ chosenId s keyId = none) ∧
      (encrypt env data keyId).run s = (.ok envelope, s') ∧ Turn env s s' none) ∨
    ¬ChoosesRetired env s keyId ∧ ∃ e, (encrypt env data keyId).run s = (.error e, s) := by
  rcases selectKey_cases sound ready keyId with ⟨key, chosen, supported, selected⟩ |
    ⟨none, supported, selected⟩ | ⟨unretired, e, raised⟩
  · obtain ⟨envelope, named, run⟩ := encrypt_of_select data selected supported
    exact .inl ⟨envelope, _, .inl (named ▸ chosen), run,
      turn_keys ready (LocalKeyManager.after_drawn ready.orderly)⟩
  · have turn := activated_turn sound ready supported
    obtain ⟨envelope, named, run⟩ := encrypt_of_select data selected supported
    exact .inl ⟨envelope, _, .inr ⟨named, none⟩, run,
      turn.trans (turn_keys turn.ready (LocalKeyManager.after_drawn turn.keys.orderly))⟩
  · exact .inr ⟨unretired, e, by simp only [encrypt, Method.run_bind, raised]⟩

/-! ### One call -/

theorem rotateKeys_cases (sound : env.Sound) (ready : Ready env s) :
    (∃ key s', (rotateKeys env).run s = (.ok key, s') ∧ Turn env s s' (some (activeId env s))) ∨
    ∃ e, (rotateKeys env).run s = (.error e, s) := by
  simp only [rotateKeys, Method.run_bind, run_onKeys, activeId]
  rcases getActiveKey_cases ready with ⟨active, cached, -, run⟩ |
    ⟨none, ⟨-, e, raised⟩ | ⟨supported, run⟩⟩
  · rw [run, cached]
    rcases LocalKeyManager.rotateKey_cases sound ready.orderly active.keyId with
      ⟨-, raised⟩ | ⟨algorithm, m, supported, after, rotated⟩
    · exact .inr ⟨_, by simp only [raised]; rfl⟩
    · exact .inl ⟨_, _, by simp only [rotated]; rfl, turn_active after supported⟩
  · exact .inr ⟨e, by simp only [raised]⟩
  · rw [run, none]
    have turn := activated_turn sound ready supported
    rcases LocalKeyManager.rotateKey_cases sound turn.keys.orderly (env.keyId s.keyManager.drawn) with
      ⟨missing, -⟩ | ⟨algorithm, m, supported', after, rotated⟩
    · -- the key has just been stored
      have found : (activated env s).keyManager.getKey env (env.keyId s.keyManager.drawn) =
          .ok (some (LocalKeyManager.newKey env s.defaultAlgorithm s.keyManager.drawn)) :=
        (LocalKeyManager.getKey_stored (m := { s.keyManager with drawn := s.keyManager.drawn + 1 })
          sound ready.orderly.intact.master _ _).trans (if_pos rfl)
      rw [found] at missing
      cases missing
    · have made : (LocalKeyManager.newKey env s.defaultAlgorithm s.keyManager.drawn).keyId =
          env.keyId s.keyManager.drawn := rfl
      exact .inl ⟨_, _, by simp only [made, rotated]; rfl, turn.trans (turn_active after supported')⟩

theorem step_eq (c : Call) : step env password s c =
    (((call env password c).run s).2, ((call env password c).run s).1) := rfl

theorem turn_step (sound : env.Sound) (ready : Ready env s)
    (master : s.keyManager.masterKey = LocalKeyManager.deriveMasterKey env password) {c : Call}
    (undeleted : ∀ keyId, c ≠ .deleteKey keyId) :
    Turn env s (step env password s c).1 (rotatedOut env (entry (step env password) s c)) := by
  rw [entry, step_eq]
  cases c with
  | encrypt data keyId =>
    show Turn env s _ none
    rw [call, Method.run_map_snd]
    rcases encrypt_cases sound ready data keyId with ⟨_, _, -, run, turn⟩ | ⟨-, e, raised⟩
    · rw [run]
      exact turn
    · rw [raised]
      exact .refl ready
  | decrypt envelope =>
    have unchanged : ((call env password (.decrypt envelope)).run s).2 = s := by
      rw [call, Method.run_bind, Method.run_read]
      exact Method.run_map_snd _ _ _
    show Turn env s _ none
    rw [unchanged]
    exact .refl ready
  | rotateKeys =>
    rw [call, Method.run_map]
    rcases rotateKeys_cases sound ready with ⟨key, s', run, turn⟩ | ⟨e, raised⟩
    · rw [run]
      exact turn
    · rw [raised]
      exact .refl ready
  | generateKey algorithm =>
    show Turn env s _ none
    rw [call, Method.run_map_snd, run_onKeys]
    rcases LocalKeyManager.generateKey_cases env s.keyManager algorithm with
      ⟨-, raised⟩ | ⟨supported, made⟩
    · rw [raised]
      exact .refl ready
    · rw [made]
      exact turn_keys ready (LocalKeyManager.after_generated sound ready.orderly supported)
  | rotateKey keyId =>
    rw [call, Method.run_map, run_onKeys]
    rcases LocalKeyManager.rotateKey_cases sound ready.orderly keyId with
      ⟨-, raised⟩ | ⟨_, _, -, after, rotated⟩
    · rw [raised]
      exact .refl ready
    · rw [rotated]
      exact turn_keys ready after
  | deleteKey keyId => exact absurd rfl (undeleted keyId)
  | reopen algorithm =>
    have same : (⟨LocalKeyManager.deriveMasterKey env password, s.keyManager.files,
        s.keyManager.drawn⟩ : LocalKeyManager) = s.keyManager := by rw [← master]
    refine ⟨?_, by intro key none; cases none⟩
    show LocalKeyManager.After env s.keyManager
      ⟨LocalKeyManager.deriveMasterKey env password, s.keyManager.files, s.keyManager.drawn⟩ none
    rw [same]
    exact .refl ready.orderly

/-! ### Runs -/

/-- The keys that the history rotated out are those whose metadata says so. -/
structure Standing (env : Env) (password : String) (history : List Event) (s : EncryptionManager) :
    Prop where
  ready : Ready env s
  master : s.keyManager.masterKey = LocalKeyManager.deriveMasterKey env password
  retired : ∀ id, RotatedOut env history id ↔ Retired env s.keyManager id

theorem standing_new (env : Env) (password : String) (algorithm : EncryptionAlgorithm) :
    Standing env password [] (new env password algorithm .empty 0) where
  ready := ⟨⟨⟨env.pbkdf2_length _ _, by simp [new]⟩,
    by simp [new, LocalKeyManager.getKey]⟩, by simp [new]⟩
  master := rfl
  retired := by simp [RotatedOut, Retired, new, LocalKeyManager.getKey]

theorem standing_step (sound : env.Sound) {history : List Event} {c : Call}
    (undeleted : ∀ keyId, c ≠ .deleteKey keyId) (standing : Standing env password history s) :
    Standing env password (history ++ [entry (step env password) s c]) (step env password s c).1 := by
  have turn := turn_step sound standing.ready standing.master undeleted
  refine ⟨turn.ready, turn.keys.masterKey.trans standing.master, fun id => ?_⟩
  rw [turn.keys.retired, ← standing.retired]
  simp only [RotatedOut, List.mem_append, List.mem_singleton, or_and_right, exists_or, exists_eq_left]
  exact or_comm

theorem standing_run (sound : env.Sound) {algorithm : EncryptionAlgorithm} {calls : List Call}
    (undeleted : ∀ keyId, .deleteKey keyId ∉ calls) {l l' : List Event} {e : Event}
    (split : trace (step env password) (new env password algorithm .empty 0) calls = l ++ e :: l') :
    Standing env password l e.pre := by
  have before := history_split
    (fun history s => (∀ d ∈ history, ∀ keyId, d.input ≠ .deleteKey keyId) →
      Standing env password history s)
    (fun _ => standing_new env password algorithm) (fun history s c standing kept => by
      have kept' := kept (entry (step env password) s c) (by simp)
      exact standing_step sound kept' (standing fun d mem => kept d (by simp [mem]))) split
  apply before
  intro d mem keyId deleted
  have member : d ∈ trace (step env password) (new env password algorithm .empty 0) calls := by
    rw [split]
    simp [mem]
  exact undeleted keyId (deleted ▸ input_mem_of_mem member)

variable (password) in
theorem encrypt_unretired (sound : env.Sound) (ready : Ready env s) {data : Data}
    {keyId : Option String} {envelope : Envelope} (unretired : ¬ChoosesRetired env s keyId)
    (returned : (step env password s (.encrypt data keyId)).2 = .ok (.envelope envelope)) :
    ¬Retired env s.keyManager envelope.keyId := by
  rw [step_eq, call, Method.run_map] at returned
  rcases encrypt_cases sound ready data keyId with ⟨e, _, from_, run, -⟩ | ⟨-, e, raised⟩
  · rw [run] at returned
    obtain rfl := Reply.envelope.inj (Except.ok.inj returned)
    rcases from_ with chosen | ⟨fresh, -⟩
    · intro retired
      exact unretired ⟨_, chosen, retired⟩
    · rw [fresh]
      exact LocalKeyManager.not_retired_fresh sound ready.orderly.intact le_rfl
  · rw [raised] at returned
    cases returned

variable (password) in
theorem encrypt_retired (sound : env.Sound) (ready : Ready env s) (data : Data)
    {keyId : Option String} (chooses : ChoosesRetired env s keyId) :
    ∃ envelope, (step env password s (.encrypt data keyId)).2 = .ok (.envelope envelope) ∧
      Retired env s.keyManager envelope.keyId := by
  rw [step_eq, call, Method.run_map]
  rcases encrypt_cases sound ready data keyId with ⟨envelope, _, from_, run, -⟩ | ⟨unretired, -⟩
  · obtain ⟨id, chosen, retired⟩ := chooses
    refine ⟨envelope, by rw [run], ?_⟩
    rcases from_ with same | ⟨-, none⟩
    · rw [chosen] at same
      exact Option.some.inj same ▸ retired
    · rw [chosen] at none
      cases none
  · exact absurd chooses unretired

/-- In a run without deletions, no envelope is made with a key that was rotated out before exactly
when no `encrypt` call names a key whose metadata says it is retired, nor, without a key id,
finds such a key cached. -/
theorem retired_keys_unused_iff (env : Env) (sound : env.Sound) (password : String)
    (algorithm : EncryptionAlgorithm) (calls : List Call)
    (undeleted : ∀ keyId, .deleteKey keyId ∉ calls) :
    (∀ l e l', trace (step env password) (new env password algorithm .empty 0) calls = l ++ e :: l' →
      ∀ data keyId envelope, e.input = .encrypt data keyId → e.output = .ok (.envelope envelope) →
      ¬RotatedOut env l envelope.keyId) ↔
      ∀ e ∈ trace (step env password) (new env password algorithm .empty 0) calls,
        ∀ data keyId, e.input = .encrypt data keyId → ¬ChoosesRetired env e.pre keyId := by
  constructor
  · intro unused e mem data keyId encrypts chooses
    obtain ⟨l, l', split⟩ := List.append_of_mem mem
    have standing := standing_run sound undeleted split
    obtain ⟨envelope, returned, retired⟩ :=
      encrypt_retired password sound standing.ready data chooses
    have output : e.output = .ok (.envelope envelope) := by
      rw [entry_of_mem mem, entry, encrypts]
      exact returned
    exact unused l e l' split data keyId envelope encrypts output ((standing.retired _).mpr retired)
  · intro unchosen l e l' split data keyId envelope encrypts returned rotated
    have mem : e ∈ trace (step env password) (new env password algorithm .empty 0) calls := by
      rw [split]
      simp
    have standing := standing_run sound undeleted split
    rw [entry_of_mem mem, entry, encrypts] at returned
    exact encrypt_unretired password sound standing.ready (unchosen e mem data keyId encrypts) returned
      ((standing.retired _).mp rotated)

def envelopeOf : Except Error Reply → Option Envelope
  | .ok (.envelope envelope) => some envelope
  | _ => none

theorem returned_of_envelopeOf {reply : Except Error Reply} {envelope : Envelope}
    (h : envelopeOf reply = some envelope) : reply = .ok (.envelope envelope) := by
  unfold envelopeOf at h
  split at h
  · rw [Option.some.inj h]
  · cases h

/-- The key manager rotates the key that the encryption manager has cached. -/
def staleRun : List Call :=
  [.encrypt (.str "a") none, .rotateKey "key_0_00000000"]

theorem staleRun_keeps_key :
    ¬∀ l e l', trace (step sampleEnv "secret") (new sampleEnv "secret" .aes256Gcm .empty 0)
        (staleRun ++ [.encrypt (.str "b") none]) = l ++ e :: l' →
      ∀ data keyId envelope, e.input = .encrypt data keyId → e.output = .ok (.envelope envelope) →
      ¬RotatedOut sampleEnv l envelope.keyId := by
  intro unused
  have facts : envelopeOf (step sampleEnv "secret" (run (step sampleEnv "secret")
        (new sampleEnv "secret" .aes256Gcm .empty 0) staleRun) (.encrypt (.str "b") none)).2 =
        some ⟨"key_0_00000000", "aes_256_gcm", "Yg==", "AAAAAAAAAAAAAAAA",
          some "AAAAAAAAAAAAAAAAAAAAAA=="⟩ ∧
      (trace (step sampleEnv "secret") (new sampleEnv "secret" .aes256Gcm .empty 0) staleRun).map
        (rotatedOut sampleEnv) = [none, some "key_0_00000000"] := by decide +kernel
  obtain ⟨made, rotated⟩ := facts
  have gone : some "key_0_00000000" ∈
      (trace (step sampleEnv "secret") (new sampleEnv "secret" .aes256Gcm .empty 0) staleRun).map
        (rotatedOut sampleEnv) := by
    rw [rotated]
    simp
  have answered := returned_of_envelopeOf made
  rw [← @entry_output _ _ _ (step sampleEnv "secret")] at answered
  have split := @trace_append _ _ _ (step sampleEnv "secret")
    (new sampleEnv "secret" .aes256Gcm .empty 0) staleRun [.encrypt (.str "b") none]
  generalize run (step sampleEnv "secret") (new sampleEnv "secret" .aes256Gcm .empty 0) staleRun = s
    at answered split
  exact unused _ (entry (step sampleEnv "secret") s (.encrypt (.str "b") none)) [] split (.str "b")
    none _ rfl answered (List.mem_map.mp gone)

theorem staleRun_unused_iff :
    (∀ l e l', trace (step sampleEnv "secret") (new sampleEnv "secret" .aes256Gcm .empty 0) staleRun =
        l ++ e :: l' →
      ∀ data keyId envelope, e.input = .encrypt data keyId → e.output = .ok (.envelope envelope) →
      ¬RotatedOut sampleEnv l envelope.keyId) ↔
      ∀ e ∈ trace (step sampleEnv "secret") (new sampleEnv "secret" .aes256Gcm .empty 0) staleRun,
        ∀ data keyId, e.input = .encrypt data keyId → ¬ChoosesRetired sampleEnv e.pre keyId :=
  retired_keys_unused_iff sampleEnv sampleEnv_sound "secret" .aes256Gcm staleRun (by simp [staleRun])

end EncryptionManager

end BtApiSecurity.Encryption
