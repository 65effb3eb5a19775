import BtApiSecurity.Audit.Logger
import BtApiSecurity.Audit.Verifier
import BtApiSecurity.Py.Base64

/-!
# The chain of a log

Whatever the callbacks do, and however often the logger is restarted, the file
holds one line for each event that was logged, the events are chained, and the
logger knows the last hash. The verifier therefore raises no false alarm.
-/

namespace BtApiSecurity.Audit
open Py

variable {κ α : Type} {env : Env} {draws : Nat → Draw}

/-! ### Sealing an event -/

namespace EventArgs

variable (args : EventArgs) (last : Value)

def tagged : AuditEvent :=
  { args.event with
    previousHash := last
    complianceTags := .list ((args.complianceTags ++ tagsOf args.eventType).map .str) }

def written (hash : String) : AuditEvent := { args.tagged last with eventHash := .str hash }

theorem addComplianceTags_event :
    AuditEvent.addComplianceTags { args.event with previousHash := last } = some (args.tagged last) := by
  cases tags : tagsOf args.eventType <;>
    simp [AuditEvent.addComplianceTags, event, tagged, tags]

theorem sealed_event : args.event.sealed env last =
    ((args.tagged last).calculateHash env).map fun hash =>
      (args.written last hash, (args.written last hash).line) := by
  unfold AuditEvent.sealed
  rw [addComplianceTags_event]
  simp only [Option.bind_eq_bind, Option.bind_some]
  cases (args.tagged last).calculateHash env <;> rfl

variable {args last}

theorem sealed_some {e : AuditEvent} {line : List Char}
    (written : args.event.sealed env last = some (e, line)) :
    ∃ hash, (args.tagged last).calculateHash env = some hash ∧ e = args.written last hash ∧
      line = e.line := by
  rw [sealed_event, Option.map_eq_some_iff] at written
  obtain ⟨hash, calculated, same⟩ := written
  obtain ⟨rfl, rfl⟩ := Prod.mk.inj same
  exact ⟨hash, calculated, rfl, rfl⟩

theorem written_sealed {hash : String} (known : AuditEvent.IsHash last)
    (calculated : (args.tagged last).calculateHash env = some hash) :
    (args.written last hash).Sealed env :=
  ⟨⟨args.eventType, rfl⟩, ⟨args.severity, rfl⟩, known, ⟨hash, calculated, rfl⟩⟩

end EventArgs

/-! ### The text of a log -/

def logText (es : List AuditEvent) : List Char := es.flatMap fun e => e.line ++ ['\n']

theorem logText_append (es fs : List AuditEvent) : logText (es ++ fs) = logText es ++ logText fs :=
  List.flatMap_append

theorem logText_eq_nil {es : List AuditEvent} (empty : logText es = []) : es = [] := by
  cases es with
  | nil => rfl
  | cons e es => simp [logText] at empty

theorem fileLines_logText {es : List AuditEvent} (intact : ∀ e ∈ es, e.Sealed env) :
    fileLines (logText es) = es.map AuditEvent.line := by
  have text : logText es = (es.map AuditEvent.line).flatMap (· ++ ['\n']) := by
    simp [logText, List.flatMap_map]
  rw [text, fileLines_flatMap]
  simpa using fun e h => (intact e h).oneLine

theorem decoded_lines {es : List AuditEvent} (intact : ∀ e ∈ es, e.Sealed env) (number : Nat) :
    decoded env draws number (es.map AuditEvent.line) =
      (es.map fun e => e.map Value.image).map some := by
  induction es generalizing number with
  | nil => rfl
  | cons e es ih =>
    obtain ⟨first, rest⟩ := List.forall_mem_cons.mp intact
    rw [List.map_cons, decoded, stripChars_of_trimmed first.trimmed, if_neg first.line_ne,
      first.ofLine, ih rest]
    rfl

theorem AuditEvent.Sealed.stored_hash {e : AuditEvent} (intact : e.Sealed env) :
    ∃ items, loads e.line = some (.dict items) ∧ find (.str "event_hash") items = some e.eventHash := by
  obtain ⟨t, type, text⟩ := intact.line_eq
  obtain ⟨hash, -, stored⟩ := intact.hash
  have read : loads e.line = some (.record ((e.map Value.image).fields t)) := by
    rw [text, loads_dumps_image, image_record (e.nodup_fields t), AuditEvent.fields_map fun _ => rfl]
  have found := (e.map Value.image).find_fields t "event_hash" (.str hash)
    (by simp [AuditEvent.fields, AuditEvent.asdict, AuditEvent.map, stored, Value.image])
  exact ⟨_, read, found.trans (by rw [stored])⟩

/-! ### The invariant -/

namespace World

def written (w : World κ) : List AuditEvent := w.calls.reduceOption

@[simp] theorem written_append (w : World κ) (e : AuditEvent) (line : List Char) :
    (w.append e line).written = w.written ++ [e] := by
  simp [written, append, List.reduceOption_append]

@[simp] theorem written_failed (w : World κ) : w.failed.written = w.written := by
  simp [written, failed, List.reduceOption_append]

/-- File and logger agree on the events that were written. -/
structure Consistent (env : Env) (w : World κ) : Prop where
  text : w.file.getD [] = logText w.written
  lastHash : w.logger.lastHash = lastHashOf .none w.written
  chained : Chained env .none w.written
  intact : ∀ e ∈ w.written, e.Sealed env

theorem consistent_start {file : Option (List Char)} (empty : file.getD [] = [])
    (enableRealTime : Bool) : Consistent env (World.start file enableRealTime : World κ) :=
  ⟨empty, rfl, trivial, fun _ h => absurd h (List.not_mem_nil)⟩

theorem lastHashOf_isHash {es : List AuditEvent} (intact : ∀ e ∈ es, e.Sealed env) :
    AuditEvent.IsHash (lastHashOf .none es) := by
  cases last : es.getLast? with
  | none => exact .inl (by simp [lastHashOf, last])
  | some e =>
    obtain ⟨hash, -, stored⟩ := (intact e (List.mem_of_getLast? last)).hash
    exact .inr ⟨hash, by simp [lastHashOf, last, stored]⟩

theorem Consistent.lastHash_isHash {w : World κ} (consistent : Consistent env w) :
    AuditEvent.IsHash w.logger.lastHash :=
  consistent.lastHash ▸ lastHashOf_isHash consistent.intact

theorem consistent_append {w : World κ} (consistent : Consistent env w) {args : EventArgs}
    {e : AuditEvent} {line : List Char}
    (sealed : args.event.sealed env w.logger.lastHash = some (e, line)) :
    Consistent env (w.append e line) := by
  obtain ⟨hash, calculated, rfl, rfl⟩ := EventArgs.sealed_some sealed
  have known := consistent.lastHash_isHash
  have intact := EventArgs.written_sealed known calculated
  refine ⟨?_, ?_, ?_, ?_⟩
  · rw [written_append, logText_append, ← consistent.text]
    simp [append, logText]
  · rw [written_append, lastHashOf_append]
    rfl
  · rw [written_append, chained_append]
    refine ⟨consistent.chained, fun truthy => ?_, intact.verifies, trivial⟩
    have previous : (args.written w.logger.lastHash hash).previousHash = w.logger.lastHash := rfl
    rw [← consistent.lastHash] at truthy ⊢
    rw [previous]
    rcases known with none | ⟨hash, str⟩
    · simp [none, Value.truthy] at truthy
    · simp [str]
  · rw [written_append]
    intro e h
    rcases List.mem_append.mp h with old | new
    · exact consistent.intact e old
    · obtain rfl := List.mem_singleton.mp new
      exact intact

/-- The last line tells a new logger the hash that the old one knew. -/
theorem loadLastHash_logText {es : List AuditEvent} (intact : ∀ e ∈ es, e.Sealed env) :
    loadLastHash (some (logText es)) = some (lastHashOf .none es) := by
  rw [loadLastHash, fileLines_logText intact, List.getLast?_map]
  cases last : es.getLast? with
  | none => simp [lastHashOf, last]
  | some e =>
    have intact := intact e (List.mem_of_getLast? last)
    obtain ⟨items, read, found⟩ := intact.stored_hash
    simp [stripChars_of_trimmed intact.trimmed, intact.line_ne, read, found, lastHashOf, last]

theorem consistent_restart {w : World κ} (consistent : Consistent env w) {enableRealTime : Bool}
    {logger : AuditLogger κ} (opened : openLogger w.file enableRealTime = some logger) :
    Consistent env { w with logger } := by
  refine ⟨consistent.text, ?_, consistent.chained, consistent.intact⟩
  obtain ⟨lastHash, loaded, rfl⟩ := Option.map_eq_some_iff.mp opened
  have text := consistent.text
  cases file : w.file with
  | none =>
    rw [file] at loaded text
    obtain rfl : Value.none = lastHash := Option.some.inj loaded
    change Value.none = lastHashOf .none w.written
    rw [logText_eq_nil text.symm, lastHashOf_nil]
  | some content =>
    rw [file] at loaded text
    obtain rfl : content = logText w.written := text
    exact Option.some.inj (loaded.symm.trans (loadLastHash_logText consistent.intact))

theorem consistent_withSubscribers {w : World κ} (consistent : Consistent env w)
    (subscribers : List κ) : Consistent env (w.withSubscribers subscribers) :=
  ⟨consistent.text, consistent.lastHash, consistent.chained, consistent.intact⟩

variable {args : α → EventArgs}

theorem consistent_kept : Kept env args (Consistent env : World κ → Prop) where
  append sealed consistent := consistent_append consistent sealed
  failed {w _} _ consistent := by
    refine ⟨?_, ?_, ?_, ?_⟩ <;> rw [written_failed]
    · exact consistent.text
    · exact consistent.lastHash
    · exact consistent.chained
    · exact consistent.intact
  withSubscribers consistent := consistent_withSubscribers consistent _
  restart opened consistent := consistent_restart consistent opened

theorem consistent_run [DecidableEq κ] {file : Option (List Char)} (empty : file.getD [] = [])
    (enableRealTime : Bool) (steps : List (Step κ α)) :
    Consistent env (runSteps env args (World.start file enableRealTime) steps) :=
  consistent_kept.run (consistent_start empty enableRealTime) steps

end World

/-! ### Events whose details are JSON -/

/-- Arguments whose details are JSON values with string keys. -/
structure JsonArgs extends EventArgs where
  json : (Value.dict details).isJson = true

theorem isJson_strings (ss : List String) : (Value.list (ss.map .str)).isJson = true := by
  unfold Value.isJson
  rw [isJsonAll_iff, List.forall_mem_map]
  intro _ _
  rfl

theorem isJson_optional (s : Option String) : (optional s).isJson = true := by
  cases s <;> rfl

namespace JsonArgs

variable (args : JsonArgs) (last : Value)

theorem isJson_asdict (v : Value) (json : v.isJson = true) :
    ∀ field ∈ (args.tagged last).asdict v, field.2.isJson = true := by
  have str : ∀ s, (Value.str s).isJson = true := fun _ => rfl
  have number : ∀ x, (Value.float x).isJson = true := fun _ => rfl
  have level : ∀ i, (Value.int i).isJson = true := fun _ => rfl
  simp only [AuditEvent.asdict, EventArgs.tagged, EventArgs.event, List.forall_mem_cons, str, number,
    level, json, isJson_optional, isJson_strings, args.json, List.not_mem_nil, true_and]
  simp

theorem isJson_tagged : (args.tagged last).content.isJson = true :=
  isJson_record.mpr ⟨AuditEvent.nodup_asdict _ _, args.isJson_asdict last _ rfl⟩

theorem calculateHash_isSome (env : Env) : ((args.tagged last).calculateHash env).isSome = true := by
  unfold AuditEvent.calculateHash
  rw [if_pos (Value.sortable_of_isJson (args.isJson_tagged last))]
  rfl

theorem image_written (hash : String) (json : last.image = last) :
    (args.written last hash).map Value.image = args.written last hash := by
  have str : ∀ s, (Value.str s).image = .str s := fun _ => rfl
  simp only [AuditEvent.map, EventArgs.written, EventArgs.tagged, EventArgs.event, json, str,
    image_of_isJson (isJson_optional _), image_of_isJson (isJson_strings _),
    image_of_isJson args.json]
  rfl

end JsonArgs

namespace World

/-- All calls went through, and what was written is what will be read. -/
structure Faithful (env : Env) (w : World κ) : Prop where
  consistent : Consistent env w
  image : ∀ e ∈ w.written, e.map Value.image = e
  succeeded : ∀ call ∈ w.calls, call.isSome = true

theorem image_of_isHash {v : Value} (known : AuditEvent.IsHash v) : v.image = v := by
  rcases known with rfl | ⟨hash, rfl⟩ <;> rfl

theorem faithful_kept : Kept env JsonArgs.toEventArgs (Faithful env : World κ → Prop) where
  append {w a e line} sealed faithful := by
    refine ⟨consistent_append faithful.consistent sealed, ?_, ?_⟩
    · obtain ⟨hash, -, rfl, -⟩ := EventArgs.sealed_some sealed
      rw [written_append]
      intro e h
      rcases List.mem_append.mp h with old | new
      · exact faithful.image e old
      · obtain rfl := List.mem_singleton.mp new
        exact a.image_written _ hash (image_of_isHash faithful.consistent.lastHash_isHash)
    · intro call h
      rcases List.mem_append.mp h with old | new
      · exact faithful.succeeded call old
      · obtain rfl := List.mem_singleton.mp new
        rfl
  failed {w a} raised _ := by
    obtain ⟨hash, calculated⟩ := Option.isSome_iff_exists.mp
      (a.calculateHash_isSome w.logger.lastHash env)
    rw [EventArgs.sealed_event, calculated] at raised
    cases raised
  withSubscribers faithful :=
    ⟨consistent_withSubscribers faithful.consistent _, faithful.image, faithful.succeeded⟩
  restart opened faithful :=
    ⟨consistent_restart faithful.consistent opened, faithful.image, faithful.succeeded⟩

theorem faithful_start (enableRealTime : Bool) :
    Faithful env (World.start none enableRealTime : World κ) :=
  ⟨consistent_start rfl enableRealTime, fun _ h => absurd h List.not_mem_nil,
    fun _ h => absurd h List.not_mem_nil⟩

theorem verify_faithful {w : World κ} (faithful : Faithful env w) (logged : 0 < w.calls.length) :
    verifyLogIntegrity env draws w.file =
      ⟨.verified, w.calls.length, [], some w.logger.lastHash⟩ := by
  have consistent := faithful.consistent
  have count : w.written.length = w.calls.length :=
    List.reduceOption_length_eq_iff.mpr faithful.succeeded
  have text := consistent.text
  cases file : w.file with
  | none =>
    rw [file] at text
    simp [← count, logText_eq_nil text.symm] at logged
  | some content =>
    rw [file] at text
    obtain rfl : content = logText w.written := text
    have read : decoded env draws 1 (fileLines (logText w.written)) = w.written.map some := by
      rw [fileLines_logText consistent.intact, decoded_lines consistent.intact,
        List.map_congr_left faithful.image, List.map_id']
    rw [verify_chained read consistent.chained, count, consistent.lastHash]

end World

theorem called_of_log [DecidableEq κ] {args : α → EventArgs} (w : World κ) (before : List (Step κ α))
    (a : α) (reactions : List (Reaction κ α)) (after : List (Step κ α)) :
    0 < (runSteps env args w (before ++ .act (.log a reactions) :: after)).calls.length := by
  have kept : Kept env args (fun w : World κ => 0 < w.calls.length) :=
    { append := fun _ _ => by simp [World.append]
      failed := fun _ _ => by simp [World.failed]
      withSubscribers := id
      restart := fun _ called => called }
  unfold runSteps
  rw [List.foldl_append, List.foldl_cons]
  refine kept.run ?_ after
  rw [Step.run, Action.run]
  split
  · simp [World.failed]
  · split
    · exact kept.notify 0 (by simp [World.append]) reactions
    · simp [World.append]

/-- No false alarm: after any run from a missing file in which something was logged, the verifier
accepts the log, counts the calls of `log_event`, and ends in the hash that the logger holds. -/
theorem log_always_verifies [DecidableEq κ] (env : Env) (draws : Nat → Draw) (enableRealTime : Bool)
    (steps : List (Step κ JsonArgs))
    (logged : 0 < (runSteps env JsonArgs.toEventArgs (World.start none enableRealTime)
      steps).calls.length) :
    let w := runSteps env JsonArgs.toEventArgs (World.start none enableRealTime) steps
    verifyLogIntegrity env draws w.file =
      ⟨.verified, w.calls.length, [], some w.logger.lastHash⟩ :=
  World.verify_faithful (World.faithful_kept.run (World.faithful_start enableRealTime) steps) logged

/-- A hash without collisions: the bytes themselves. -/
def sampleEnv : Env where
  sha256 bytes := String.ofList ('#' :: b64Chars bytes)
  sha256_ne bytes := by
    intro empty
    simpa using congrArg String.toList empty

theorem sampleEnv_injective : Function.Injective sampleEnv.sha256 := by
  intro xs ys same
  have chars := (List.cons.inj (String.ofList_injective same)).2
  apply Option.some.inj
  rw [← b64Loop_b64Chars xs, chars, b64Loop_b64Chars]

def sampleArgs (eventId : String) (eventType : EventType) : JsonArgs where
  eventId
  timestamp := .finite (.ofLiteral ⟨false, ['1', '7', '5', '0'], ['5'], none⟩)
  eventType
  json := by decide

/-- A login whose callback logs an incident and then raises, a restart, and a logout. -/
def sampleSteps : List (Step Nat JsonArgs) :=
  [.act (.subscribe 0),
    .act (.log (sampleArgs "a" .userLogin)
      [.mk [.log (sampleArgs "b" .securityIncident) []] .raises]),
    .restart true, .act (.log (sampleArgs "c" .userLogout) [])]

theorem sampleRun_verifies :
    let w := runSteps sampleEnv JsonArgs.toEventArgs (World.start none true) sampleSteps
    verifyLogIntegrity sampleEnv (fun _ => ⟨"", .nan⟩) w.file =
      ⟨.verified, w.calls.length, [], some w.logger.lastHash⟩ :=
  log_always_verifies sampleEnv _ true sampleSteps (called_of_log _ [.act (.subscribe 0)] _ _ _)

end BtApiSecurity.Audit
