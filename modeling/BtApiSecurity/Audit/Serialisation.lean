import BtApiSecurity.Audit.Chain
import BtApiSecurity.Py.Json.Ordered

/-!
# An event after a round trip

The hash of an event is taken over sorted keys before they are written, and taken
again over the strings that JSON made of them.
-/

namespace BtApiSecurity.Audit
open Py

variable {env : Env} {args : EventArgs} {last : Value} {hash : String}

namespace AuditEvent

theorem content_image (e : AuditEvent) : (e.map Value.image).content = e.content.image := by
  rw [content_map fun _ => rfl, content, image_record (e.nodup_asdict _)]

theorem calculateHash_some {e : AuditEvent} (calculated : e.calculateHash env = some hash) :
    hash = env.sha256 (encodeUtf8 (String.ofList (dumps e.content.sortKeys))) := by
  unfold calculateHash at calculated
  split at calculated
  · exact (Option.some.inj calculated).symm
  · cases calculated

/-- An event that was read back verifies exactly where its content is in order. -/
theorem verifies_image_iff {e : AuditEvent} (injective : Function.Injective env.sha256)
    (calculated : e.calculateHash env = some hash) (stored : e.eventHash = .str hash) :
    (e.map Value.image).verifyIntegrity env = some true ↔ e.content.Ordered := by
  have again : (e.map Value.image).calculateHash env =
      some (env.sha256 (encodeUtf8 (String.ofList (dumps e.content.image.sortKeys)))) := by
    rw [calculateHash, content_image, if_pos (Value.sortable_of_isJson (isJson_image _))]
  have kept : (e.map Value.image).eventHash = .str hash := by
    change e.eventHash.image = .str hash
    rw [stored]
    rfl
  rw [verifies_iff, again, kept, ← survives_iff_ordered, calculateHash_some calculated]
  constructor
  · rintro ⟨text, taken, same⟩
    obtain rfl := Option.some.inj taken
    have bytes := injective (Value.str.inj same)
    exact (String.ofList_injective (encodeUtf8_injective bytes)).symm
  · intro same
    rw [same]
    exact ⟨_, rfl, rfl⟩

end AuditEvent

namespace EventArgs

theorem ofLine_written (draw : Draw) (calculated : (args.tagged last).calculateHash env = some hash) :
    AuditEvent.ofLine env draw (args.written last hash).line =
      some ((args.written last hash).map Value.image) := by
  have line : (args.written last hash).line =
      dumps (.record ((args.written last hash).fields args.eventType)) := rfl
  have severity : (args.written last hash).severity = .int args.severity.toInt := rfl
  rw [line]
  exact AuditEvent.ofLine_dumps env draw rfl severity rfl (AuditEvent.Sealed.hash_ne calculated)

/-- Only the details can be out of order. -/
theorem ordered_content_iff :
    (args.written last hash).content.Ordered ↔ (Value.dict args.details).Ordered := by
  have str : ∀ s, (Value.str s).Ordered := fun _ => rfl
  have number : ∀ x, (Value.float x).Ordered := fun _ => rfl
  have level : ∀ i, (Value.int i).Ordered := fun _ => rfl
  rw [AuditEvent.content, ordered_record (AuditEvent.nodup_asdict _ _)]
  simp only [AuditEvent.asdict, written, tagged, event, TypeField.text, List.forall_mem_cons, str,
    number, level, ordered_of_isJson (isJson_optional _), ordered_of_isJson (isJson_strings _),
    List.not_mem_nil, true_and]
  simp

theorem verifies_written_iff (injective : Function.Injective env.sha256)
    (calculated : (args.tagged last).calculateHash env = some hash) :
    ((args.written last hash).map Value.image).verifyIntegrity env = some true ↔
      (Value.dict args.details).Ordered := by
  have own : (args.written last hash).calculateHash env = some hash := calculated
  exact (AuditEvent.verifies_image_iff injective own rfl).trans ordered_content_iff

end EventArgs

/-- An event that was logged is read back with a hash that verifies, if and only if the keys of
every dictionary in its details are in order. -/
theorem hash_survives_iff (injective : Function.Injective env.sha256) (draw : Draw) {e : AuditEvent}
    {line : List Char} (logged : args.event.sealed env last = some (e, line)) :
    (∃ read, AuditEvent.ofLine env draw line = some read ∧ read.verifyIntegrity env = some true) ↔
      (Value.dict args.details).Ordered := by
  obtain ⟨hash, calculated, rfl, rfl⟩ := EventArgs.sealed_some logged
  rw [EventArgs.ofLine_written draw calculated, ← EventArgs.verifies_written_iff injective calculated]
  simp

/-- A login with the details `{"attempt": 1}`. -/
def loginArgs : EventArgs :=
  { (sampleArgs "a" .userLogin).toEventArgs with details := [(.str "attempt", .int 1)] }

theorem login_hash_survives : ∃ e line, loginArgs.event.sealed sampleEnv .none = some (e, line) ∧
    ((∃ read, AuditEvent.ofLine sampleEnv ⟨"", .nan⟩ line = some read ∧
        read.verifyIntegrity sampleEnv = some true) ↔ (Value.dict loginArgs.details).Ordered) := by
  have logged : (loginArgs.event.sealed sampleEnv .none).isSome = true := by decide +kernel
  obtain ⟨⟨e, line⟩, logged⟩ := Option.isSome_iff_exists.mp logged
  exact ⟨e, line, logged, hash_survives_iff sampleEnv_injective _ logged⟩

/-- Order sizes by position: `{2: 5, 10: 7}`. -/
def positionArgs : EventArgs :=
  { (sampleArgs "a" .orderCreated).toEventArgs with details := [(.int 2, .int 5), (.int 10, .int 7)] }

/-- The numbers are in order, their texts are not. -/
theorem positions_not_ordered : ¬(Value.dict positionArgs.details).Ordered := by
  have sorted : (Value.dict positionArgs.details).sortKeys = .dict positionArgs.details := by
    rw [Value.sortKeys, List.mergeSort_of_pairwise (by decide +kernel)]
    rfl
  rw [Value.Ordered, sorted]
  decide +kernel

theorem number_keys_break_hash : ¬∀ (env : Env) (draw : Draw) (args : EventArgs) (last : Value) e line,
    args.event.sealed env last = some (e, line) → ∃ read, AuditEvent.ofLine env draw line = some read ∧
      read.verifyIntegrity env = some true := by
  intro survives
  have logged : (positionArgs.event.sealed sampleEnv .none).isSome = true := by decide +kernel
  obtain ⟨⟨e, line⟩, logged⟩ := Option.isSome_iff_exists.mp logged
  obtain ⟨read, decoded, verified⟩ := survives sampleEnv ⟨"", .nan⟩ positionArgs .none e line logged
  obtain ⟨hash, calculated, rfl, rfl⟩ := EventArgs.sealed_some logged
  rw [EventArgs.ofLine_written _ calculated] at decoded
  rw [← Option.some.inj decoded,
    EventArgs.verifies_written_iff sampleEnv_injective calculated] at verified
  exact positions_not_ordered verified

end BtApiSecurity.Audit
