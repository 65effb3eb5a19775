import BtApiSecurity.Audit.Chain

/-!
# What the last hash binds

A hash leaves out the hash before it, and the first line of a file need not name
one. The last event alone, with any `previous_hash`, therefore verifies with the
last hash of the whole log.
-/

namespace BtApiSecurity.Audit
open Py

variable {κ : Type} {env : Env} {draws : Nat → Draw}

namespace AuditEvent

/-- One value, or two that Python calls equal. -/
def SameValue (v w : Value) : Prop := v = w ∨ v.pyEq w = true

structure Same (e f : AuditEvent) : Prop where
  content : List.Forall₂ (fun x y => SameValue x.2 y.2) (e.asdict e.eventType.text)
    (f.asdict f.eventType.text)
  previousHash : SameValue e.previousHash f.previousHash
  eventHash : SameValue e.eventHash f.eventHash

end AuditEvent

/-- Every other file on which the verifier ends in the logger's last hash holds a suffix of the
events that were logged. -/
def LastHashBinds (env : Env) (w : World κ) : Prop :=
  ∀ draws text, some text ≠ w.file →
    (verifyLogIntegrity env draws (some text)).status = .verified →
    (verifyLogIntegrity env draws (some text)).lastHash = some w.logger.lastHash →
      ∃ dropped kept, w.written = dropped ++ kept ∧
        List.Forall₂ AuditEvent.Same kept (storedEvents env draws text)

/-! ### A log cut down to its last event -/

def otherHash : Value → Value
  | .none => .str "0"
  | _ => .none

theorem otherHash_differs {last : Value} (known : AuditEvent.IsHash last) :
    ¬AuditEvent.SameValue last (otherHash last) := by
  rcases known with rfl | ⟨hash, rfl⟩ <;> simp [AuditEvent.SameValue, otherHash, Value.pyEq]

theorem otherHash_isHash (last : Value) : AuditEvent.IsHash (otherHash last) := by
  cases last <;> simp [otherHash, AuditEvent.IsHash]

/-- The event as it is read back, under another previous hash. -/
def AuditEvent.relinked (e : AuditEvent) : AuditEvent :=
  { e.map Value.canonical with previousHash := otherHash e.previousHash }

namespace AuditEvent

theorem otherHash_image (v : Value) : (otherHash v).image = otherHash v := by
  cases v <;> rfl

theorem relinked_image (e : AuditEvent) : e.relinked.map Value.image = e.relinked := by
  have settled : ∀ v : Value, v.canonical.image = v.canonical :=
    fun v => image_of_isJson (isJson_canonical v)
  cases type : e.eventType <;> simp [relinked, map, settled, otherHash_image, type]

theorem relinked_content (e : AuditEvent) :
    e.relinked.content = .record (mapFields Value.canonical (e.asdict e.eventType.text)) :=
  content_map (f := Value.canonical) (fun _ => rfl) e

theorem relinked_hash {e : AuditEvent} {hash : String} (stable : e.content.Stable)
    (calculated : e.calculateHash env = some hash) : e.relinked.calculateHash env = some hash := by
  have json : e.relinked.content.isJson = true := by
    rw [relinked_content, isJson_record, names_mapFields]
    refine ⟨nodup_asdict _ _, fun field h => ?_⟩
    obtain ⟨old, -, rfl⟩ := List.mem_map.mp h
    exact isJson_canonical _
  have text : dumps e.relinked.content.sortKeys = dumps e.content.sortKeys := by
    rw [relinked_content, ← sortKeys_canonical_record (nodup_asdict _ _)]
    exact stable
  unfold calculateHash at calculated ⊢
  rw [if_pos (Value.sortable_of_isJson json), text]
  split at calculated
  · exact calculated
  · cases calculated

/-- Without collisions an event hashed like one that was read back reads back as it is. -/
theorem stable_of_hash {e f : AuditEvent} {hash : String}
    (noCollision : Function.Injective env.sha256)
    (json : f.content.isJson = true) (ofRead : f.calculateHash env = some hash)
    (calculated : e.calculateHash env = some hash) : e.content.Stable := by
  unfold calculateHash at ofRead calculated
  rw [if_pos (Value.sortable_of_isJson json)] at ofRead
  split at calculated
  · rw [← ofRead] at calculated
    have bytes := noCollision (Option.some.inj calculated)
    have texts := String.ofList_injective (encodeUtf8_injective bytes)
    exact stable_of_dumps json texts.symm
  · cases calculated

theorem Sealed.relinked {e : AuditEvent} (intact : e.Sealed env) (stable : e.content.Stable) :
    e.relinked.Sealed env := by
  obtain ⟨t, type⟩ := intact.type
  obtain ⟨level, severity⟩ := intact.severity
  obtain ⟨hash, calculated, stored⟩ := intact.hash
  refine ⟨⟨t, by simp [AuditEvent.relinked, map, type]⟩, ⟨level, ?_⟩, otherHash_isHash _, hash,
    relinked_hash stable calculated, ?_⟩
  · simp only [AuditEvent.relinked, map, severity]
    rfl
  · simp only [AuditEvent.relinked, map, stored]
    rfl

end AuditEvent

theorem decoded_line {e : AuditEvent} (intact : e.Sealed env) :
    decoded env draws 1 (fileLines e.line) = [some (e.map Value.image)] := by
  rw [fileLines_oneLine intact.oneLine intact.line_ne, decoded,
    stripChars_of_trimmed intact.trimmed, if_neg intact.line_ne, intact.ofLine]
  rfl

/-- A file that holds the last event alone, under another previous hash, verifies with the same
last hash. -/
theorem relinked_verifies (draws : Nat → Draw) {e : AuditEvent} (intact : e.Sealed env)
    (stable : e.content.Stable) :
    verifyLogIntegrity env draws (some e.relinked.line) = ⟨.verified, 1, [], some e.eventHash⟩ ∧
      storedEvents env draws e.relinked.line = [e.relinked] := by
  have again := intact.relinked stable
  obtain ⟨hash, -, stored⟩ := intact.hash
  have read : decoded env draws 1 (fileLines e.relinked.line) = [e.relinked].map some := by
    rw [decoded_line again, e.relinked_image]
    rfl
  have chain : Chained env .none [e.relinked] :=
    ⟨fun truthy => absurd truthy (by decide), again.verifies, trivial⟩
  refine ⟨?_, storedEvents_of_decoded read⟩
  have kept : e.relinked.eventHash = e.eventHash := by
    simp only [AuditEvent.relinked, AuditEvent.map, stored]
    rfl
  rw [verify_chained read chain, lastHashOf_cons, lastHashOf_nil, kept]
  rfl

theorem logText_ne_line {es : List AuditEvent} {e : AuditEvent} (intact : e.Sealed env) :
    logText es ≠ e.line := by
  intro same
  cases shape : es.getLast? with
  | none =>
    obtain rfl := List.getLast?_eq_none_iff.mp shape
    exact intact.line_ne same.symm
  | some f =>
    obtain ⟨before, rfl⟩ := List.getLast?_eq_some_iff.mp shape
    rw [logText_append] at same
    have last : e.line.getLast? = some '\n' := by
      rw [← same]
      simp [logText]
    exact absurd (intact.trimmed.2 '\n' last) (by decide)

namespace World

/-- Once an event was logged that reads back as it is hashed, the last hash binds nothing but it. -/
theorem not_binds {w : World κ} (consistent : Consistent env w) {e : AuditEvent}
    (last : w.written.getLast? = some e) (stable : e.content.Stable) : ¬LastHashBinds env w := by
  intro binds
  have intact := consistent.intact e (List.mem_of_getLast? last)
  have hash : w.logger.lastHash = e.eventHash := by
    rw [consistent.lastHash, lastHashOf, last]
    rfl
  have other : some e.relinked.line ≠ w.file := by
    intro same
    have text := consistent.text
    rw [← same] at text
    exact logText_ne_line (intact.relinked stable) text.symm
  obtain ⟨report, stored⟩ := relinked_verifies (fun _ => ⟨"", .nan⟩) intact stable
  obtain ⟨dropped, kept, split, same⟩ := binds (fun _ => ⟨"", .nan⟩) e.relinked.line other
    (by rw [report]) (by rw [report, hash])
  rw [stored] at same
  obtain ⟨f, rest, first, nothing, rfl⟩ := List.forall₂_cons_right_iff.mp same
  obtain rfl := List.forall₂_nil_right_iff.mp nothing
  rw [split, List.getLast?_append] at last
  obtain rfl : f = e := by simpa using last
  exact otherHash_differs intact.previousHash first.previousHash

theorem Faithful.not_binds {w : World κ} (faithful : Faithful env w) (logged : 0 < w.calls.length) :
    ¬LastHashBinds env w := by
  have count : w.written.length = w.calls.length :=
    List.reduceOption_length_eq_iff.mpr faithful.succeeded
  cases last : w.written.getLast? with
  | none =>
    rw [List.getLast?_eq_none_iff.mp last] at count
    exact absurd logged (by simp [← count])
  | some e =>
    refine World.not_binds faithful.consistent last (stable_of_isJson ?_)
    have whole : e.content.image = e.content := by
      rw [AuditEvent.content, image_record (AuditEvent.nodup_asdict _ _),
        ← AuditEvent.content_map (fun _ => rfl), faithful.image e (List.mem_of_getLast? last)]
      rfl
    exact whole ▸ isJson_image _

/-! ### Logs that nothing else ends like -/

theorem chain_of_verified {text : List Char} {last : Value}
    (verified : (verifyLogIntegrity env draws (some text)).status = .verified)
    (ends : (verifyLogIntegrity env draws (some text)).lastHash = some last) :
    ∃ es, decoded env draws 1 (fileLines text) = es.map some ∧ Chained env .none es ∧
      lastHashOf .none es = last := by
  obtain ⟨es, read, chain⟩ := verified_iff.mp verified
  rw [verify_chained read chain] at ends
  exact ⟨es, read, chain, Option.some.inj ends⟩

theorem last_of_chain {text : List Char} {es : List AuditEvent} {e : AuditEvent}
    (read : decoded env draws 1 (fileLines text) = es.map some) (chain : Chained env .none es)
    (last : es.getLast? = some e) :
    e.content.isJson = true ∧ ∃ hash, e.calculateHash env = some hash ∧ e.eventHash = .str hash := by
  have mem := List.mem_of_getLast? last
  constructor
  · have line : some e ∈ decoded env draws 1 (fileLines text) :=
      read ▸ List.mem_map.mpr ⟨e, mem, rfl⟩
    obtain ⟨draw, l, -, there⟩ := exists_line_of_decoded line
    exact AuditEvent.ofLine_isJson there.symm
  · exact AuditEvent.verifies_iff.mp (chained_verifies chain e mem)

theorem binds_of_empty {w : World κ} (consistent : Consistent env w) (empty : w.written = []) :
    LastHashBinds env w := by
  intro draws text _ verified ends
  obtain ⟨es, read, chain, last⟩ := chain_of_verified verified ends
  rw [consistent.lastHash, empty, lastHashOf_nil] at last
  have none : es = [] := by
    cases shape : es.getLast? with
    | none => exact List.getLast?_eq_none_iff.mp shape
    | some e =>
      obtain ⟨-, hash, -, stored⟩ := last_of_chain read chain shape
      simp [lastHashOf, shape, stored] at last
  exact ⟨[], [], empty, by rw [storedEvents_of_decoded read, none]; exact .nil⟩

theorem binds_of_unstable {w : World κ} (noCollision : Function.Injective env.sha256)
    (consistent : Consistent env w) {e : AuditEvent} (ended : w.written.getLast? = some e)
    (unstable : ¬e.content.Stable) : LastHashBinds env w := by
  intro draws text _ verified ends
  obtain ⟨es, read, chain, last⟩ := chain_of_verified verified ends
  obtain ⟨hash, calculated, stored⟩ := (consistent.intact e (List.mem_of_getLast? ended)).hash
  have here : w.logger.lastHash = .str hash := by
    rw [consistent.lastHash, lastHashOf, ended]
    exact stored
  rw [here] at last
  cases shape : es.getLast? with
  | none => simp [lastHashOf, shape] at last
  | some f =>
    obtain ⟨json, hash', calculated', stored'⟩ := last_of_chain read chain shape
    obtain rfl : hash' = hash := by simpa [lastHashOf, shape, stored'] using last
    exact absurd (AuditEvent.stable_of_hash noCollision json calculated' calculated) unstable

end World

/-- The last hash of a log binds the log exactly where no event was logged, or the last event is one
whose canonical text reads back as another one. -/
theorem last_hash_binds_iff [DecidableEq κ] (env : Env) (noCollision : Function.Injective env.sha256)
    (file : Option (List Char)) (empty : file.getD [] = []) (enableRealTime : Bool)
    (steps : List (Step κ EventArgs)) :
    let w := runSteps env id (World.start file enableRealTime) steps
    LastHashBinds env w ↔ ∀ e, w.written.getLast? = some e → ¬e.content.Stable := by
  intro w
  have consistent : w.Consistent env := World.consistent_run empty enableRealTime steps
  constructor
  · intro binds e last stable
    exact World.not_binds consistent last stable binds
  · intro unstable
    cases last : w.written.getLast? with
    | none => exact World.binds_of_empty consistent (List.getLast?_eq_none_iff.mp last)
    | some e => exact World.binds_of_unstable noCollision consistent last (unstable e last)

theorem sampleLog_binds_iff :
    let w := runSteps sampleEnv id (World.start none true : World Nat)
      [.act (.log (sampleArgs "a" .userLogin).toEventArgs [])]
    LastHashBinds sampleEnv w ↔ ∀ e, w.written.getLast? = some e → ¬e.content.Stable :=
  last_hash_binds_iff sampleEnv sampleEnv_injective none rfl true _

/-- Three events are logged, and a file with the third alone is verified in their place. -/
theorem sampleRun_unbound : Function.Injective sampleEnv.sha256 ∧
    ¬LastHashBinds sampleEnv
      (runSteps sampleEnv JsonArgs.toEventArgs (World.start none true) sampleSteps) :=
  ⟨sampleEnv_injective, World.Faithful.not_binds
    (World.faithful_kept.run (World.faithful_start true) sampleSteps)
    (called_of_log _ [.act (.subscribe 0)] _ _ _)⟩

end BtApiSecurity.Audit
