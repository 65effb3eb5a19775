import BtApiSecurity.Data.Classification
import BtApiSecurity.Data.Protection
import BtApiSecurity.Py.Base64
import BtApiSecurity.Py.Nested

/-!
# Encrypted fields

In a dictionary in which something sensitive was recognised each value is replaced by an
envelope with its encrypted text. The way back opens the envelopes, and what comes out
of one is bytes.
-/

namespace BtApiSecurity.Data
open Py

/-- The encryption manager. What it makes of a text may depend on the texts it was given before. An
error is the text of the exception. -/
structure Cipher where
  encrypt : List String → String → Except String Value
  decrypt : Value → Except String Bytes

def Cipher.Succeeds (cipher : Cipher) : Prop := ∀ given text, ∃ e, cipher.encrypt given text = .ok e

def envelope (e : Value) : Value := .record [("_encrypted", .bool true), ("data", e)]

/-! ### Encryption -/

/-- The dictionary of the caller, the copy that is returned, and what the encryption manager was
given so far. -/
structure Frame where
  data : Dict String Value
  encryptedData : Dict String Value
  given : List String

namespace Frame

abbrev M := Method Frame DataProtectionError

/-- `encrypted_data = data.copy()`. -/
def start (data : Dict String Value) (given : List String) : Frame := ⟨data, data, given⟩

def stored (f : Frame) (fieldName text : String) (e : Value) : Frame :=
  { f with encryptedData := f.encryptedData.set fieldName (envelope e), given := f.given ++ [text] }

end Frame

variable (classes : CharClasses) (printable : Char → Bool) (cipher : Cipher)

def valueText (v : Value) : String := String.ofList (v.text printable)

def encryptField (field : String × Value) : Frame.M Unit := do
  let f ← .read
  match cipher.encrypt f.given (valueText printable field.2) with
  | .ok e => .update fun f => f.stored field.1 (valueText printable field.2) e
  | .error message =>
    .check (.error (.dataProtectionError
      s!"Failed to encrypt sensitive data for field '{field.1}': {message}"))

def encryptFields : List (String × Value) → Frame.M Unit
  | [] => pure ()
  | field :: fields => do
    encryptField printable cipher field
    encryptFields fields

def encryptSensitiveData (manager : Option Cipher) : Frame.M (Dict String Value) := do
  let f ← .read
  match manager with
  | none => return f.encryptedData
  | some cipher =>
    if hasSensitive (classifyData classes printable f.data) then
      encryptFields printable cipher f.encryptedData.entries
      let f ← .read
      return f.encryptedData
    else return f.encryptedData

/-! ### What encryption should do -/

def SensitiveString (data : Dict String Value) : Prop :=
  ∃ v ∈ data.values, ∃ s ∈ v.strings, ∃ name m, Identifies classes name m s.toList

/-- The field has an envelope with what the manager made of its text. -/
def Sealed (field encrypted : String × Value) : Prop :=
  encrypted.1 = field.1 ∧ ∃ given e, cipher.encrypt given (valueText printable field.2) = .ok e ∧
    encrypted.2 = envelope e

/-- Something is classified, every field is in an envelope, and the dictionary of the caller is as it
was. -/
structure Protects (data : Dict String Value) (given : List String) : Prop where
  classified : ∃ type, (classifyData classes printable data).get? type = some true
  fields : ∃ encryptedData,
    ((encryptSensitiveData classes printable (some cipher)).run (.start data given)).1 =
        .ok encryptedData ∧
      List.Forall₂ (Sealed printable cipher) data.entries encryptedData.entries
  unchanged :
    ((encryptSensitiveData classes printable (some cipher)).run (.start data given)).2.data = data

def ProtectsSensitive (data : Dict String Value) : Prop :=
  SensitiveString classes data → ∀ given, Protects classes printable cipher data given

/-! ### Decryption -/

/-- What a field of the decrypted dictionary holds. -/
inductive Field where
  | value (v : Value)
  | bytes (b : Bytes)

/-- Nothing for a value that is no envelope, else what comes out of it. -/
def opened (manager : Option Cipher) (v : Value) : Option (Except String Bytes) :=
  match v, manager with
  | .dict items, some cipher =>
    if (find (.str "_encrypted") items).any Value.truthy then
      some do
        let e ← orRaise (find (.str "data") items) "'data'"
        cipher.decrypt e
    else none
  | _, _ => none

abbrev Opening := Method (Dict String Field) DataProtectionError

def decryptField (manager : Option Cipher) (field : String × Value) : Opening Unit :=
  match opened manager field.2 with
  | none => pure ()
  | some (.ok b) => .update fun decryptedData => decryptedData.set field.1 (.bytes b)
  | some (.error message) =>
    .check (.error (.dataProtectionError
      s!"Failed to decrypt sensitive data for field '{field.1}': {message}"))

def decryptFields (manager : Option Cipher) : List (String × Value) → Opening Unit
  | [] => pure ()
  | field :: fields => do
    decryptField manager field
    decryptFields manager fields

/-- What stays a value is compared with the dictionary as a whole. -/
def asFields (data : Dict String Value) : Dict String Field := data.map .value

def decryptSensitiveData (manager : Option Cipher) (data : Dict String Value) :
    Except DataProtectionError (Dict String Field) :=
  (Method.run (do decryptFields manager data.entries; .read) (asFields data)).1

/-- What the manager decrypts are the UTF-8 bytes of what it encrypted. -/
def Cipher.Lawful (cipher : Cipher) : Prop :=
  ∀ given text, ∃ e, cipher.encrypt given text = .ok e ∧ cipher.decrypt e = .ok (encodeUtf8 text)

/-- Decryption gives back the strings that were encrypted. -/
def Undoes (d : Dict String String) : Prop :=
  ∀ given, ∃ encryptedData,
    ((encryptSensitiveData classes printable (some cipher)).run (.start (d.map .str) given)).1 =
        .ok encryptedData ∧
      decryptSensitiveData (some cipher) encryptedData = .ok (asFields (d.map .str))

/-! ### The loop over the fields -/

variable {classes printable cipher} {data : Dict String Value} {given : List String} {f : Frame}
variable {field : String × Value} {done rest : List (String × Value)}

theorem run_encryptField {e : Value}
    (encrypted : cipher.encrypt f.given (valueText printable field.2) = .ok e) :
    (encryptField printable cipher field).run f =
      (.ok ⟨⟩, f.stored field.1 (valueText printable field.2) e) := by
  simp only [encryptField, Method.run_bind, Method.run_read, encrypted, Method.run_update]

theorem run_encryptFields (succeeds : cipher.Succeeds) (split : f.encryptedData.entries = done ++ rest) :
    ∃ t encrypted, (encryptFields printable cipher rest).run f = (.ok ⟨⟩, t) ∧ t.data = f.data ∧
      t.encryptedData.entries = done ++ encrypted ∧ List.Forall₂ (Sealed printable cipher) rest encrypted := by
  induction rest generalizing f done with
  | nil => exact ⟨f, [], rfl, rfl, split, .nil⟩
  | cons field rest ih =>
    obtain ⟨e, encrypted⟩ := succeeds f.given (valueText printable field.2)
    have turn : (f.stored field.1 (valueText printable field.2) e).encryptedData.entries =
        (done ++ [(field.1, envelope e)]) ++ rest := by
      rw [← List.append_cons]
      exact Dict.entries_set_of_split (envelope e) split
    obtain ⟨t, later, run, data, entries, all_sealed⟩ := ih turn
    refine ⟨t, (field.1, envelope e) :: later, ?_, data, ?_, .cons ⟨rfl, _, e, encrypted, rfl⟩ all_sealed⟩
    · simp only [encryptFields, Method.run_bind, run_encryptField encrypted]
      exact run
    · rw [entries, ← List.append_cons]

theorem run_encryptSensitiveData (succeeds : cipher.Succeeds)
    (recognised : Recognised classes printable data) (given : List String) :
    ∃ t, (encryptSensitiveData classes printable (some cipher)).run (.start data given) =
        (.ok t.encryptedData, t) ∧ t.data = data ∧
      List.Forall₂ (Sealed printable cipher) data.entries t.encryptedData.entries := by
  have split : (Frame.start data given).encryptedData.entries = [] ++ data.entries := rfl
  obtain ⟨t, encrypted, run, same, entries, all_sealed⟩ := run_encryptFields succeeds split
  refine ⟨t, ?_, same, ?_⟩
  · have sensitive : hasSensitive (classifyData classes printable (Frame.start data given).data) = true :=
      hasSensitive_classifyData.mpr recognised
    have loop : (encryptFields printable cipher (Frame.start data given).encryptedData.entries).run
        (.start data given) = (.ok ⟨⟩, t) := run
    simp only [encryptSensitiveData, Method.run_bind, Method.run_read, sensitive, if_true, loop,
      Method.run_pure]
  · rw [entries]
    exact all_sealed

theorem run_encryptSensitiveData_plain (plain : ¬Recognised classes printable data) (given : List String) :
    (encryptSensitiveData classes printable (some cipher)).run (.start data given) =
      (.ok data, .start data given) := by
  have nothing : ¬hasSensitive (classifyData classes printable (Frame.start data given).data) = true :=
    fun sensitive => plain (hasSensitive_classifyData.mp sensitive)
  simp only [encryptSensitiveData, Method.run_bind, Method.run_read, if_neg nothing, Method.run_pure]
  rfl

/-! ### When sensitive data is encrypted -/

theorem protects_of_recognised (succeeds : cipher.Succeeds)
    (recognised : Recognised classes printable data) : Protects classes printable cipher data given := by
  obtain ⟨t, run, same, all_sealed⟩ := run_encryptSensitiveData succeeds recognised given
  constructor
  · exact hasSensitive_iff.mp (hasSensitive_classifyData.mpr recognised)
  · refine ⟨t.encryptedData, ?_, all_sealed⟩
    rw [run]
  · rw [run]
    exact same

theorem recognised_of_protects (protects : Protects classes printable cipher data given) :
    Recognised classes printable data :=
  hasSensitive_classifyData.mp (hasSensitive_iff.mpr protects.classified)

/-- Sensitive data is encrypted, if and only if no string in it is identifying or something in it is
recognised. -/
theorem protectsSensitive_iff (succeeds : cipher.Succeeds) (data : Dict String Value) :
    ProtectsSensitive classes printable cipher data ↔
      ¬SensitiveString classes data ∨ Recognised classes printable data := by
  constructor
  · intro protects
    by_cases sensitive : SensitiveString classes data
    · exact .inr (recognised_of_protects (protects sensitive []))
    · exact .inl sensitive
  · rintro (harmless | recognised) sensitive given
    · exact absurd sensitive harmless
    · exact protects_of_recognised succeeds recognised

/-- A manager that hides nothing, with what the encryption manager of the library returns. -/
def plainCipher : Cipher where
  encrypt given text := .ok (.record [("key_id", .str "local_0"), ("algorithm", .str "aes_256_gcm"),
    ("encrypted_data", .str (b64encode (encodeUtf8 text))), ("nonce", .str (intText given.length)),
    ("tag", .none)])
  decrypt
    | .dict items =>
      match find (.str "encrypted_data") items with
      | some (.str text) => orRaise (b64decode text) "Incorrect padding"
      | _ => .error "'encrypted_data'"
    | _ => .error "not an envelope"

theorem plainCipher_succeeds : plainCipher.Succeeds := fun _ _ => ⟨_, rfl⟩

def orderData : Dict String Value :=
  (Dict.empty.set "amount" (.int 5)).set "phone" (.str "555-123-4567")

theorem order_protected : plainCipher.Succeeds ∧
    ProtectsSensitive asciiClasses (fun _ => true) plainCipher orderData :=
  ⟨plainCipher_succeeds, (protectsSensitive_iff plainCipher_succeeds orderData).mpr
    (.inr (.inr (.inr ⟨"amount", List.mem_cons_self, rfl⟩)))⟩

def phoneData : Dict String Value := Dict.empty.set "phone" (.str "555-123-4567")

theorem phone_unprotected : ¬∀ classes printable cipher, Cipher.Succeeds cipher →
    ∀ data, ProtectsSensitive classes printable cipher data := by
  intro protects
  have phone : finds asciiClasses .phone "555-123-4567".toList = true := by decide +kernel
  obtain ⟨m, identifies⟩ := finds_iff.mp phone
  have sensitive : SensitiveString asciiClasses phoneData :=
    ⟨.str "555-123-4567", List.mem_cons_self, "555-123-4567", List.mem_cons_self, .phone, m, identifies⟩
  have protected_ :=
    protects asciiClasses (fun _ => true) plainCipher plainCipher_succeeds phoneData sensitive []
  rcases recognised_of_protects protected_ with address | card | ⟨key, member, present⟩
  · revert address
    decide +kernel
  · revert card
    decide +kernel
  · revert key
    decide

/-! ### When decryption undoes encryption -/

variable {manager : Option Cipher} {before : List (String × Field)} {state : Dict String Field}

/-- What the loop makes of a field. -/
inductive Decrypted (manager : Option Cipher) (field : String × Value) : String × Field → Prop
  | kept (plain : opened manager field.2 = none) : Decrypted manager field (field.1, .value field.2)
  | replaced (b : Bytes) (content : opened manager field.2 = some (.ok b)) :
    Decrypted manager field (field.1, .bytes b)

def fieldEntry (field : String × Value) : String × Field := (field.1, .value field.2)

theorem run_decryptFields {after : List (String × Field)}
    (decrypted : List.Forall₂ (Decrypted manager) rest after)
    (split : state.entries = before ++ rest.map fieldEntry) :
    ∃ t, (decryptFields manager rest).run state = (.ok ⟨⟩, t) ∧ t.entries = before ++ after := by
  induction decrypted generalizing state before with
  | nil => exact ⟨state, rfl, split⟩
  | @cons field entry rest after here later ih =>
    cases here with
    | kept plain =>
      have turn : state.entries = (before ++ [fieldEntry field]) ++ rest.map fieldEntry := by
        rw [← List.append_cons]
        exact split
      obtain ⟨t, run, entries⟩ := ih turn
      refine ⟨t, ?_, ?_⟩
      · simp only [decryptFields, decryptField, plain, Method.run_bind, Method.run_pure]
        exact run
      · rw [entries, ← List.append_cons]
        rfl
    | replaced b content =>
      have turn : (state.set field.1 (.bytes b)).entries =
          (before ++ [(field.1, .bytes b)]) ++ rest.map fieldEntry := by
        rw [← List.append_cons]
        exact Dict.entries_set_of_split (.bytes b) split
      obtain ⟨t, run, entries⟩ := ih turn
      refine ⟨t, ?_, ?_⟩
      · simp only [decryptFields, decryptField, content, Method.run_bind, Method.run_update]
        exact run
      · rw [entries, ← List.append_cons]

theorem decryptSensitiveData_eq {decryptedData : Dict String Field}
    (decrypted : List.Forall₂ (Decrypted manager) data.entries decryptedData.entries) :
    decryptSensitiveData manager data = .ok decryptedData := by
  have split : (asFields data).entries = [] ++ data.entries.map fieldEntry := rfl
  obtain ⟨t, run, entries⟩ := run_decryptFields decrypted split
  obtain rfl : t = decryptedData := Dict.ext_entries entries
  simp only [decryptSensitiveData, Method.run_bind, run, Method.run_read]

theorem opened_str (s : String) : opened manager (.str s) = none := by
  cases manager with
  | none => rfl
  | some cipher => rfl

theorem opened_envelope (e : Value) : opened (some cipher) (envelope e) = some (cipher.decrypt e) := rfl

variable {d : Dict String String}

theorem decrypt_strings (manager : Option Cipher) (d : Dict String String) :
    decryptSensitiveData manager (d.map .str) = .ok (asFields (d.map .str)) := by
  apply decryptSensitiveData_eq
  apply List.forall₂_map_right_iff.mpr
  apply List.forall₂_same.mpr
  intro field member
  obtain ⟨entry, -, rfl⟩ := List.mem_map.mp member
  exact .kept (opened_str entry.2)

/-- What comes back of encrypted strings are their bytes. -/
theorem decrypt_sealed (lawful : cipher.Lawful) {encryptedData : Dict String Value}
    (all_sealed : List.Forall₂ (Sealed printable cipher) (d.map Value.str).entries encryptedData.entries) :
    decryptSensitiveData (some cipher) encryptedData = .ok (d.map fun s => .bytes (encodeUtf8 s)) := by
  apply decryptSensitiveData_eq
  apply List.forall₂_map_right_iff.mpr
  refine (List.forall₂_map_left_iff.mp all_sealed).flip.imp ?_
  rintro ⟨name, v⟩ ⟨key, s⟩ ⟨rfl, given, e, encrypted, rfl⟩
  obtain ⟨e', again, decrypted⟩ := lawful given s
  have text : valueText printable (.str s) = s := String.ofList_toList
  rw [text, again] at encrypted
  obtain rfl := Except.ok.inj encrypted
  exact .replaced (encodeUtf8 s) ((opened_envelope e').trans (congrArg some decrypted))

theorem Cipher.Lawful.succeeds (lawful : cipher.Lawful) : cipher.Succeeds := by
  intro given text
  obtain ⟨e, encrypted, -⟩ := lawful given text
  exact ⟨e, encrypted⟩

theorem bytes_ne_strings (nonempty : d.entries ≠ []) :
    (d.map fun s => Field.bytes (encodeUtf8 s)) ≠ asFields (d.map .str) := by
  intro same
  have entries := congrArg Dict.entries same
  obtain ⟨first, later, shape⟩ := List.exists_cons_of_ne_nil nonempty
  simp [asFields, Dict.map, shape] at entries

theorem not_undoes_of_recognised (lawful : cipher.Lawful)
    (recognised : Recognised classes printable (d.map .str)) : ¬Undoes classes printable cipher d := by
  intro undoes
  obtain ⟨t, run, -, all_sealed⟩ := run_encryptSensitiveData lawful.succeeds recognised []
  obtain ⟨encryptedData, returned, strings⟩ := undoes []
  rw [run] at returned
  obtain rfl := Except.ok.inj returned
  rw [decrypt_sealed lawful all_sealed] at strings
  refine bytes_ne_strings (fun empty => ?_) (Except.ok.inj strings)
  have nothing : d.map Value.str = Dict.empty := Dict.ext_entries (by simp [Dict.map, empty, Dict.empty])
  rw [nothing] at recognised
  exact not_recognised_empty recognised

theorem undoes_of_not_recognised (plain : ¬Recognised classes printable (d.map .str)) :
    Undoes classes printable cipher d := by
  intro given
  refine ⟨d.map .str, ?_, decrypt_strings _ d⟩
  rw [run_encryptSensitiveData_plain plain given]

/-- The strings come back, if and only if nothing is recognised in them, so that they were never
encrypted. -/
theorem undoes_iff (lawful : cipher.Lawful) (d : Dict String String) :
    Undoes classes printable cipher d ↔ ¬Recognised classes printable (d.map .str) :=
  ⟨fun undoes recognised => not_undoes_of_recognised lawful recognised undoes, undoes_of_not_recognised⟩

theorem plainCipher_lawful : plainCipher.Lawful := by
  intro given text
  refine ⟨_, rfl, ?_⟩
  change orRaise (b64decode (b64encode (encodeUtf8 text))) _ = _
  rw [b64decode_b64encode]
  rfl

def noteData : Dict String String := Dict.empty.set "note" "hello"

theorem note_comes_back : plainCipher.Lawful ∧
    Undoes asciiClasses (fun _ => true) plainCipher noteData := by
  refine ⟨plainCipher_lawful, (undoes_iff plainCipher_lawful noteData).mpr ?_⟩
  rintro (address | card | ⟨key, member, present⟩)
  · revert address
    decide +kernel
  · revert card
    decide +kernel
  · revert key
    decide

def amountData : Dict String String := Dict.empty.set "amount" "100"

theorem amount_as_bytes : ¬∀ classes printable cipher, Cipher.Lawful cipher →
    ∀ d, Undoes classes printable cipher d := by
  intro undoes
  refine not_undoes_of_recognised plainCipher_lawful ?_
    (undoes asciiClasses (fun _ => true) plainCipher plainCipher_lawful amountData)
  exact .inr (.inr ⟨"amount", List.mem_cons_self, rfl⟩)

end BtApiSecurity.Data
