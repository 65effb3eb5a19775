import BtApiSecurity.Audit.Chain

/-!
# Which logs are accepted

A well-chained log stores the hash of every event on its line. `__post_init__`
calculates a hash that is not there, so the verifier takes a line without one for a
line with the right one.
-/

namespace BtApiSecurity.Audit
open Py

variable {env : Env} {draws : Nat → Draw}

/-! ### What is stored on a line -/

def storedField (name : String) (line : List Char) : Option Value :=
  match loads line with
  | some (.dict items) => find (.str name) items
  | _ => none

def storedHash (line : List Char) : Option Value := storedField "event_hash" line

/-- Missing, null, empty, or false in another way. -/
def lacksHash (line : List Char) : Bool := !((storedHash line).getD .none).truthy

/-- The hash on the line, or the calculated one where the line lacks it. -/
def filledHash (env : Env) (draw : Draw) (line : List Char) : Option Value :=
  if lacksHash line then
    ((AuditEvent.ofLine env draw line).bind (·.calculateHash env)).map .str
  else storedHash line

/-- Every line that is not blank decodes to an event, the hash of the line is that of its content,
and the line links to the hash of the line before it; the first one need not link. -/
def WellChained (env : Env) (draws : Nat → Draw) (hashOf : Draw → List Char → Option Value)
    (last : Option Value) (number : Nat) : List (List Char) → Prop
  | [] => True
  | l :: ls =>
    if stripChars l = [] then WellChained env draws hashOf last (number + 1) ls
    else
      ∃ e hash, AuditEvent.ofLine env (draws number) (stripChars l) = some e ∧
        e.calculateHash env = some hash ∧
        hashOf (draws number) (stripChars l) = some (.str hash) ∧
        (∀ before, last = some before → storedField "previous_hash" (stripChars l) = some before) ∧
        WellChained env draws hashOf (some (.str hash)) (number + 1) ls

/-! ### A line and its event -/

namespace AuditEvent

theorem postInit_some {e f : AuditEvent} (built : postInit env e = some f) :
    f.previousHash = e.previousHash ∧ (e.eventHash.truthy = true → f.eventHash = e.eventHash) ∧
      (e.eventHash.truthy = false → ∃ hash, f.calculateHash env = some hash ∧ f.eventHash = .str hash) := by
  unfold postInit at built
  split at built
  · rename_i stored
    obtain rfl := Option.some.inj built
    simp [stored]
  · rename_i absent
    obtain ⟨hash, calculated, rfl⟩ := Option.map_eq_some_iff.mp built
    refine ⟨rfl, fun stored => absurd stored absent, fun _ => ⟨hash, calculated, rfl⟩⟩

theorem ofLine_some {draw : Draw} {line : List Char} {e : AuditEvent}
    (read : ofLine env draw line = some e) :
    e.previousHash = (storedField "previous_hash" line).getD .none ∧
      (lacksHash line = false → storedHash line = some e.eventHash) ∧
      (lacksHash line = true → ∃ hash, e.calculateHash env = some hash ∧ e.eventHash = .str hash) := by
  obtain ⟨data, loaded, built⟩ := Option.bind_eq_some_iff.mp read
  unfold fromDict at built
  split at built
  · rename_i items
    simp only [Option.bind_eq_bind, Option.bind_eq_some_iff] at built
    obtain ⟨type, -, severity, -, built⟩ := built
    split at built
    · obtain ⟨link, kept, filled⟩ := postInit_some built
      have field : ∀ name, storedField name line = find (.str name) items := by
        intro name
        simp [storedField, loaded]
      simp only [lacksHash, storedHash, field, Bool.not_eq_eq_eq_not, Bool.not_false, Bool.not_true]
      refine ⟨link, ?_, filled⟩
      intro truthy
      cases found : find (Key.str "event_hash") items with
      | none => simp [found, Value.truthy] at truthy
      | some v =>
        rw [found] at truthy kept
        rw [kept truthy]
        rfl
    · cases built
  · cases built

end AuditEvent

/-- A hash is not false, so it is on the line if the line is said to carry it. -/
theorem lacksHash_of_stored {line : List Char} {e : AuditEvent} {hash : String}
    (calculated : e.calculateHash env = some hash) (stored : storedHash line = some (.str hash)) :
    lacksHash line = false := by
  simp [lacksHash, stored, Value.truthy, AuditEvent.Sealed.hash_ne calculated]

theorem filledHash_of_read {draw : Draw} {line : List Char} {e : AuditEvent}
    (read : AuditEvent.ofLine env draw line = some e) : filledHash env draw line = some e.eventHash := by
  obtain ⟨-, stored, calculated⟩ := AuditEvent.ofLine_some read
  unfold filledHash
  split
  · rename_i lacks
    obtain ⟨hash, calculated, held⟩ := calculated lacks
    simp [read, calculated, held]
  · rename_i present
    exact stored (by simpa using present)

/-! ### The verifier and the chain -/

theorem links_iff {line : List Char} {before : Option Value}
    (known : ∀ v, before = some v → ∃ hash, hash ≠ "" ∧ v = .str hash) :
    ((before.getD .none).truthy = true →
        ((storedField "previous_hash" line).getD .none).pyEq (before.getD .none) = true) ↔
      ∀ v, before = some v → storedField "previous_hash" line = some v := by
  cases before with
  | none => simp [Value.truthy]
  | some v =>
    obtain ⟨hash, ne, rfl⟩ := known v rfl
    cases field : storedField "previous_hash" line <;> simp [Value.truthy, ne, Value.pyEq_eq_str]

/-- The verifier accepts the logs that are well chained with the hashes filled in that they lack. -/
theorem chained_iff_filled {number : Nat} {ls : List (List Char)} {before : Option Value}
    (known : ∀ v, before = some v → ∃ hash, hash ≠ "" ∧ v = .str hash) :
    (∃ es, decoded env draws number ls = es.map some ∧ Chained env (before.getD .none) es) ↔
      WellChained env draws (filledHash env) before number ls := by
  induction ls generalizing number before with
  | nil => exact ⟨fun _ => trivial, fun _ => ⟨[], rfl, trivial⟩⟩
  | cons l ls ih =>
    unfold decoded WellChained
    split
    · exact ih known
    · constructor
      · rintro ⟨es, read, chain⟩
        cases es with
        | nil => cases read
        | cons e es =>
          obtain ⟨first, rest⟩ := List.cons.inj read
          obtain ⟨linked, verified, chain⟩ := chain
          obtain ⟨hash, calculated, held⟩ := AuditEvent.verifies_iff.mp verified
          have ne := AuditEvent.Sealed.hash_ne calculated
          rw [(AuditEvent.ofLine_some first).1] at linked
          rw [held] at chain
          refine ⟨e, hash, first, calculated, ?_, (links_iff known).mp linked, ?_⟩
          · rw [filledHash_of_read first, held]
          · exact (ih (by simpa using ne)).mp ⟨es, rest, chain⟩
      · rintro ⟨e, hash, first, calculated, filled, linked, rest⟩
        have ne := AuditEvent.Sealed.hash_ne calculated
        obtain ⟨es, rest, chain⟩ := (ih (by simpa using ne)).mpr rest
        rw [filledHash_of_read first, Option.some.injEq] at filled
        refine ⟨e :: es, by rw [first, rest]; rfl, ?_, ?_, ?_⟩
        · rw [(AuditEvent.ofLine_some first).1]
          exact (links_iff known).mpr linked
        · exact AuditEvent.verifies_iff.mpr ⟨hash, calculated, filled⟩
        · rw [filled]
          exact chain

/-- A log that is well chained as it stands is one that lacks no hash. -/
theorem stored_iff_filled {number : Nat} {ls : List (List Char)} {before : Option Value} :
    WellChained env draws (fun _ => storedHash) before number ls ↔
      WellChained env draws (filledHash env) before number ls ∧
        ∀ l ∈ ls, stripChars l ≠ [] → lacksHash (stripChars l) = false := by
  induction ls generalizing number before with
  | nil => simp [WellChained]
  | cons l ls ih =>
    unfold WellChained
    rw [List.forall_mem_cons]
    split
    · rename_i blank
      simp [ih, blank]
    · rename_i solid
      constructor
      · rintro ⟨e, hash, first, calculated, stored, linked, rest⟩
        have present := lacksHash_of_stored calculated stored
        obtain ⟨rest, present'⟩ := ih.mp rest
        refine ⟨⟨e, hash, first, calculated, ?_, linked, rest⟩, fun _ => present, present'⟩
        simpa [filledHash, present] using stored
      · rintro ⟨⟨e, hash, first, calculated, filled, linked, rest⟩, present, present'⟩
        refine ⟨e, hash, first, calculated, ?_, linked, ih.mpr ⟨rest, present'⟩⟩
        simpa [filledHash, present solid] using filled

theorem verified_iff_filled {text : List Char} :
    (verifyLogIntegrity env draws (some text)).status = .verified ↔
      WellChained env draws (filledHash env) none 1 (fileLines text) :=
  verified_iff.trans (chained_iff_filled fun _ h => absurd h (by simp : ¬none = some _))

/-- The verifier accepts exactly the well-chained logs, but for those that are well chained only
with hashes filled in that their lines lack. -/
theorem verified_exactly_well_chained_iff (env : Env) (draws : Nat → Draw) (text : List Char) :
    ((verifyLogIntegrity env draws (some text)).status = .verified ↔
        WellChained env draws (fun _ => storedHash) none 1 (fileLines text)) ↔
      (∀ l ∈ fileLines text, stripChars l ≠ [] → lacksHash (stripChars l) = false) ∨
        ¬WellChained env draws (filledHash env) none 1 (fileLines text) := by
  rw [verified_iff_filled, stored_iff_filled]
  tauto

/-- A line without a hash is accepted as a log of its own, whatever its other fields say. -/
theorem hashless_verified {text line : List Char} {e : AuditEvent} (single : fileLines text = [line])
    (read : AuditEvent.ofLine env (draws 1) (stripChars line) = some e)
    (lacks : lacksHash (stripChars line) = true) :
    (verifyLogIntegrity env draws (some text)).status = .verified := by
  obtain ⟨-, -, calculated⟩ := AuditEvent.ofLine_some read
  refine verified_iff.mpr ⟨[e], ?_, ?_, ?_, trivial⟩
  · rw [single, decoded, if_neg]
    · rw [read]
      rfl
    · intro blank
      rw [blank] at read
      cases read
  · intro truthy
    cases truthy
  · exact AuditEvent.verifies_iff.mpr (calculated lacks)

/-- A line that names a user and has no hash. -/
def hashlessLine : List Char := dumps (.record [("user_id", .str "mallory")])

theorem hashlessLine_verified :
    ¬((verifyLogIntegrity sampleEnv (fun _ => ⟨"", .nan⟩) (some hashlessLine)).status = .verified ↔
      WellChained sampleEnv (fun _ => ⟨"", .nan⟩) (fun _ => storedHash) none 1
        (fileLines hashlessLine)) := by
  intro same
  have single : fileLines hashlessLine = [hashlessLine] := by decide +kernel
  have decodes : (AuditEvent.ofLine sampleEnv ⟨"", .nan⟩ (stripChars hashlessLine)).isSome = true := by
    decide +kernel
  have lacks : lacksHash (stripChars hashlessLine) = true := by decide +kernel
  obtain ⟨e, read⟩ := Option.isSome_iff_exists.mp decodes
  obtain ⟨-, present⟩ := stored_iff_filled.mp (same.mp (hashless_verified single read lacks))
  rw [present hashlessLine (by simp [single]) (by decide +kernel)] at lacks
  cases lacks

end BtApiSecurity.Audit
