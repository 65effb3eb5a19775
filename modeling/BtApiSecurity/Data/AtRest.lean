import BtApiSecurity.Data.Envelopes
import BtApiSecurity.Encryption.Shared

/-!
# Sensitive data at rest

A data protection manager over one of the encryption managers that are open on a key
directory. What it encrypts field by field is read later, and by any of them, while
all of them go on encrypting and rotating keys.
-/

namespace BtApiSecurity.Data
open Py Machine Encryption

/-! ### Envelopes as values -/

/-- What `encrypt` returns. -/
def envelopeValue (e : Envelope) : Value := .record
  [("key_id", .str e.keyId), ("algorithm", .str e.algorithm), ("encrypted_data", .str e.encryptedData),
    ("nonce", .str e.nonce), ("tag", e.tag.elim .none .str)]

def textField (name : String) (items : List (Key × Value)) : Except String String :=
  match find (.str name) items with
  | none => .error s!"'{name}'"
  | some (.str s) => .ok s
  | some _ => .error "argument should be a bytes-like object or ASCII string"

/-- What `decrypt` takes from its argument. -/
def envelopeOf : Value → Except String Envelope
  | .dict items => do
    let keyId ← textField "key_id" items
    let algorithm ← textField "algorithm" items
    let encryptedData ← textField "encrypted_data" items
    let nonce ← textField "nonce" items
    return ⟨keyId, algorithm, encryptedData, nonce, match find (.str "tag") items with
      | some (.str tag) => some tag
      | _ => none⟩
  | _ => .error "string indices must be integers, not 'str'"

theorem envelopeOf_envelopeValue (e : Envelope) : envelopeOf (envelopeValue e) = .ok e := by
  obtain ⟨keyId, algorithm, encryptedData, nonce, tag⟩ := e
  cases tag <;> rfl

/-! ### Encryption managers as ciphers -/

section
open EncryptionManager (Call Reply)

/-- Before the encryption number `k` of the manager `p` the others, or itself, may be called. -/
def turns (gaps : Nat → List (Nat × Call)) (p : Nat) (texts : List String) : List (Nat × Call) :=
  texts.zipIdx.flatMap fun turn => gaps turn.2 ++ [(p, .encrypt (.str turn.1) none)]

variable (env : Env) (password : String) (describe : Error → String)

/-- The manager `p` of a directory; `describe` is the text of its errors. -/
def cipherOf (d : Shared) (gaps : Nat → List (Nat × Call)) (p : Nat) : Cipher where
  encrypt given text :=
    let d' := run (Shared.step env password) d (turns gaps p given ++ gaps given.length)
    match ((EncryptionManager.encrypt env (.str text) none).run (d'.manager env password p)).1 with
    | .ok e => .ok (envelopeValue e)
    | .error error => .error (describe error)
  decrypt v := do
    let e ← envelopeOf v
    (EncryptionManager.decrypt env (d.manager env password p) e).mapError describe

variable {env password describe} {d : Shared} {gaps : Nat → List (Nat × Call)} {p : Nat}

theorem turns_prefix (gaps : Nat → List (Nat × Call)) (p : Nat) {given texts : List String}
    (front : given <+: texts) :
    ∃ later, turns gaps p texts = turns gaps p given ++ later := by
  obtain ⟨rest, rfl⟩ := front
  exact ⟨_, by rw [turns, List.zipIdx_append, List.flatMap_append]; rfl⟩

theorem turns_snoc (given : List String) (text : String) : turns gaps p (given ++ [text]) =
    turns gaps p given ++ gaps given.length ++ [(p, .encrypt (.str text) none)] := by
  simp [turns, List.zipIdx_append]

/-- What the cipher returned, the manager returned in one of its turns. -/
theorem encrypt_cipherOf {given : List String} {text : String} {v : Value}
    (returned : (cipherOf env password describe d gaps p).encrypt given text = .ok v) :
    ∃ e, v = envelopeValue e ∧
      (Shared.step env password (run (Shared.step env password) d (turns gaps p given ++ gaps given.length))
        (p, .encrypt (.str text) none)).2 = .ok (.envelope e) := by
  unfold cipherOf at returned
  simp only at returned
  split at returned
  · rename_i e encrypted
    refine ⟨e, (Except.ok.inj returned).symm, ?_⟩
    refine (Method.run_map_fst _ _ _).trans ?_
    exact congrArg (Except.map Reply.envelope) encrypted
  · cases returned

end

/-! ### The fields of a dictionary -/

variable {classes : CharClasses} {printable : Char → Bool} {cipher : Cipher} {data : Dict String Value}

def textOf (printable : Char → Bool) (field : String × Value) : String := valueText printable field.2

/-- The field was encrypted after those before it in `texts`. -/
def SealedWithin (printable : Char → Bool) (cipher : Cipher) (texts : List String)
    (field encrypted : String × Value) : Prop :=
  encrypted.1 = field.1 ∧ ∃ given v, given ++ [textOf printable field] <+: texts ∧
    cipher.encrypt given (textOf printable field) = .ok v ∧ encrypted.2 = envelope v

theorem encryptFields_ok {fields : List (String × Value)} (before : List (String × Value)) {f t : Frame} {u : Unit}
    (returned : (encryptFields printable cipher fields).run f = (.ok u, t))
    (split : f.encryptedData.entries = before ++ fields) :
    t.given = f.given ++ fields.map (textOf printable) ∧ ∃ encrypted,
      t.encryptedData.entries = before ++ encrypted ∧
        List.Forall₂ (SealedWithin printable cipher t.given) fields encrypted := by
  induction fields generalizing f before with
  | nil =>
    obtain rfl : f = t := congrArg Prod.snd returned
    exact ⟨(List.append_nil _).symm, [], split, .nil⟩
  | cons field fields ih =>
    cases encrypted : cipher.encrypt f.given (valueText printable field.2) with
    | error message =>
      simp only [encryptFields, encryptField, Method.run_bind, Method.run_read, encrypted,
        Method.run_check] at returned
      cases congrArg Prod.fst returned
    | ok v =>
      simp only [encryptFields, Method.run_bind, run_encryptField encrypted] at returned
      have turn : (f.stored field.1 (valueText printable field.2) v).encryptedData.entries =
          (before ++ [(field.1, envelope v)]) ++ fields := by
        rw [← List.append_cons]
        exact Dict.entries_set_of_split (envelope v) split
      obtain ⟨given, later, entries, all_sealed⟩ := ih _ returned turn
      have all : t.given = f.given ++ [textOf printable field] ++ fields.map (textOf printable) := given
      refine ⟨?_, (field.1, envelope v) :: later, ?_, .cons ⟨rfl, f.given, v, ?_, encrypted, rfl⟩ all_sealed⟩
      · rw [all, List.map_cons, ← List.append_cons]
      · rw [entries, ← List.append_cons]
      · rw [all]
        exact List.prefix_append _ _

theorem encryptSensitiveData_ok (recognised : Recognised classes printable data)
    {encryptedData : Dict String Value} {t : Frame}
    (returned : (encryptSensitiveData classes printable (some cipher)).run (.start data []) =
      (.ok encryptedData, t)) :
    List.Forall₂ (SealedWithin printable cipher (data.entries.map (textOf printable))) data.entries
      encryptedData.entries := by
  have sensitive : hasSensitive (classifyData classes printable (Frame.start data []).data) = true :=
    hasSensitive_classifyData.mpr recognised
  simp only [encryptSensitiveData, Method.run_bind, Method.run_read, if_pos sensitive] at returned
  cases loop : (encryptFields printable cipher (Frame.start data []).encryptedData.entries).run
      (.start data []) with
  | mk result t' =>
    rw [loop] at returned
    cases result with
    | error => cases congrArg Prod.fst returned
    | ok u =>
      obtain ⟨given, encrypted, entries, all_sealed⟩ := encryptFields_ok [] loop rfl
      obtain rfl : t'.encryptedData = encryptedData := Except.ok.inj (congrArg Prod.fst returned)
      rw [given] at all_sealed
      rw [entries]
      exact all_sealed

/-! ### Reading it later -/

open EncryptionManager (Call)

/-- Whatever the managers do before the fields are encrypted, between them and afterwards, the texts of
the values come back at every one of them, as long as none deleted a key that a field was encrypted with. -/
theorem protected_at_rest (env : Env) (sound : env.Sound) (password : String) (describe : Error → String)
    (algorithms : Nat → EncryptionAlgorithm) (before after : List (Nat × Call))
    (gaps : Nat → List (Nat × Call)) (p q : Nat) (recognised : Recognised classes printable data)
    {encryptedData : Dict String Value} {t : Frame}
    (returned : (encryptSensitiveData classes printable (some (cipherOf env password describe
      (run (Shared.step env password) (Shared.new algorithms) before) gaps p))).run (.start data []) =
        (.ok encryptedData, t)) :
    let calls := before ++ turns gaps p (data.entries.map (textOf printable)) ++ after
    (∀ field ∈ encryptedData.entries, ∀ e, field.2 = envelope (envelopeValue e) →
      ∀ r, (r, .deleteKey e.keyId) ∉ calls) →
    decryptSensitiveData (some (cipherOf env password describe
        (run (Shared.step env password) (Shared.new algorithms) calls) gaps q)) encryptedData =
      .ok (data.map fun v => .bytes (encodeUtf8 (valueText printable v))) := by
  intro calls undeleted
  apply decryptSensitiveData_eq
  apply List.forall₂_map_right_iff.mpr
  have within := (List.forall₂_and_left _ _).mpr
    ⟨fun _ (member : _ ∈ encryptedData.entries) => member, (encryptSensitiveData_ok recognised returned).flip⟩
  refine within.imp ?_
  rintro ⟨name, v⟩ field ⟨member, rfl, given, _, front, encrypted, rfl⟩
  obtain ⟨e, rfl, made⟩ := encrypt_cipherOf encrypted
  obtain ⟨later, split⟩ := turns_prefix gaps p front
  rw [turns_snoc] at split
  have order : calls = (before ++ (turns gaps p given ++ gaps given.length)) ++
      (p, .encrypt (.str (textOf printable field)) none) :: (later ++ after) := by
    simp only [calls, split, List.append_assoc, List.cons_append, List.nil_append]
  have spared := undeleted _ member e rfl
  rw [order] at spared ⊢
  simp only [List.mem_append, List.mem_cons, not_or] at spared
  have start : Shared.AllInv env password [] (Shared.new algorithms) := Shared.allInv_new algorithms
  have inv := Shared.allInv_run sound start (before ++ (turns gaps p given ++ gaps given.length))
  rw [← run_append] at made
  have decrypted := Shared.decrypt_later (q := q) sound inv made
    (Shared.unspent_of_undeleted fun r => by simpa only [List.mem_append, not_or] using (spared r).1)
    (later ++ after) fun r => by simpa only [List.mem_append, not_or] using (spared r).2.2
  rw [run_append, run_cons]
  refine .replaced _ ((opened_envelope _).trans (congrArg some ?_))
  simp only [cipherOf, envelopeOf_envelopeValue]
  exact congrArg (Except.mapError describe) decrypted

/-! ### An order that is read elsewhere -/

def deletes : Nat × Call → Bool
  | (_, .deleteKey _) => true
  | _ => false

/-- The manager `p` after `calls`; another one rotates its key before each encryption. -/
def busyCipher (calls : List (Nat × Call)) (p : Nat) : Cipher :=
  cipherOf EncryptionManager.sampleEnv "secret" (fun _ => "")
    (run (Shared.step EncryptionManager.sampleEnv "secret") (Shared.new fun _ => .aes256Gcm) calls)
    (fun _ => [(1, .rotateKeys)]) p

/-- The key that the order was encrypted with is rotated out in the end. -/
def busyCalls : List (Nat × Call) :=
  [(1, .encrypt (.str "b") none)] ++
    turns (fun _ => [(1, .rotateKeys)]) 0 (orderData.entries.map (textOf fun _ => true)) ++ [(0, .rotateKeys)]

theorem order_read_elsewhere : ∃ encryptedData,
    ((encryptSensitiveData asciiClasses (fun _ => true)
        (some (busyCipher [(1, .encrypt (.str "b") none)] 0))).run (.start orderData [])).1 =
      .ok encryptedData ∧
    decryptSensitiveData (some (busyCipher busyCalls 1)) encryptedData =
      .ok (orderData.map fun v => .bytes (encodeUtf8 (valueText (fun _ => true) v))) := by
  have recognised : Recognised asciiClasses (fun _ => true) orderData :=
    .inr (.inr ⟨"amount", List.mem_cons_self, rfl⟩)
  have succeeded : ((encryptSensitiveData asciiClasses (fun _ => true)
      (some (busyCipher [(1, .encrypt (.str "b") none)] 0))).run (.start orderData [])).1.isOk = true := by
    decide +kernel
  have kept : (busyCalls.all fun call => !deletes call) = true := by decide +kernel
  cases returned : (encryptSensitiveData asciiClasses (fun _ => true)
      (some (busyCipher [(1, .encrypt (.str "b") none)] 0))).run (.start orderData []) with
  | mk result t =>
    rw [returned] at succeeded
    cases result with
    | error => cases succeeded
    | ok encryptedData =>
      refine ⟨encryptedData, rfl, protected_at_rest EncryptionManager.sampleEnv
        EncryptionManager.sampleEnv_sound "secret" (fun _ => "") (fun _ => .aes256Gcm) _ [(0, .rotateKeys)]
        (fun _ => [(1, .rotateKeys)]) 0 1 recognised returned ?_⟩
      intro field _ e _ r deleted
      have spared := List.all_eq_true.mp kept _ deleted
      cases spared

end BtApiSecurity.Data
