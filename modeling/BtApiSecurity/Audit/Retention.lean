import BtApiSecurity.Audit.Chain

/-!
# Retention

`cleanup_old_events` drops lines by their timestamps, and the chain links lines by
their positions. A log stays a chain where no event that is kept stands behind one
that is dropped, except at the front.
-/

namespace BtApiSecurity.Audit
open Py

variable {κ α : Type} {env : Env} {draws : Nat → Draw} {cutoff : PyFloat}

/-! ### Cleaning -/

/-- `event.timestamp >= cutoff_time`; what does not compare is kept like a malformed line. -/
def AuditEvent.keptAt (cutoff : PyFloat) (e : AuditEvent) : Bool :=
  (e.timestamp.geFloat? cutoff).getD true

def keepsLine (env : Env) (draw : Draw) (cutoff : PyFloat) (line : List Char) : Bool :=
  (AuditEvent.ofLine env draw line).all (·.keptAt cutoff)

/-- The text of the new file, and how many events it lacks. -/
def cleanLines (env : Env) (draws : Nat → Draw) (cutoff : PyFloat) (number : Nat) :
    List (List Char) → List Char × Nat
  | [] => ([], 0)
  | l :: ls =>
    let rest := cleanLines env draws cutoff (number + 1) ls
    if stripChars l = [] then rest
    else if keepsLine env (draws number) cutoff (stripChars l) then
      (stripChars l ++ '\n' :: rest.1, rest.2)
    else (rest.1, rest.2 + 1)

/-- The cutoff is the clock less the retention period, a float. -/
def cleanupOldEvents (env : Env) (draws : Nat → Draw) (cutoff : PyFloat) :
    Option (List Char) → Option (List Char) × Nat
  | none => (none, 0)
  | some text =>
    let cleaned := cleanLines env draws cutoff 1 (fileLines text)
    (some cleaned.1, cleaned.2)

/-- The logger itself does not change. -/
def World.cleanup (w : World κ) (env : Env) (draws : Nat → Draw) (cutoff : PyFloat) : World κ :=
  { w with file := (cleanupOldEvents env draws cutoff w.file).1 }

inductive Upkeep (κ α : Type) where
  | step (s : Step κ α)
  | cleanup (draws : Nat → Draw) (cutoff : PyFloat)

section
variable [DecidableEq κ] (env : Env) (args : α → EventArgs)

def Upkeep.run (w : World κ) : Upkeep κ α → World κ
  | .step s => s.run env args w
  | .cleanup draws cutoff => w.cleanup env draws cutoff

def runUpkeep (w : World κ) (steps : List (Upkeep κ α)) : World κ :=
  steps.foldl (Upkeep.run env args) w

end

/-! ### Logs of sealed events -/

theorem verified_logText {es : List AuditEvent} (intact : ∀ e ∈ es, e.Sealed env) :
    (verifyLogIntegrity env draws (some (logText es))).status = .verified ↔
      Chained env .none (es.map (·.map Value.image)) := by
  rw [verified_iff, fileLines_logText intact, decoded_lines intact]
  constructor
  · rintro ⟨es', same, chain⟩
    rw [List.map_injective_iff.mpr (Option.some_injective _) same]
    exact chain
  · intro chain
    exact ⟨_, rfl, chain⟩

theorem storedEvents_logText {es : List AuditEvent} (intact : ∀ e ∈ es, e.Sealed env) :
    storedEvents env draws (logText es) = es.map (·.map Value.image) :=
  storedEvents_of_decoded (by rw [fileLines_logText intact, decoded_lines intact])

theorem cleanLines_map {es : List AuditEvent} (intact : ∀ e ∈ es, e.Sealed env) (number : Nat) :
    (cleanLines env draws cutoff number (es.map AuditEvent.line)).1 =
      logText (es.filter fun e => (e.map Value.image).keptAt cutoff) := by
  induction es generalizing number with
  | nil => rfl
  | cons e es ih =>
    obtain ⟨first, rest⟩ := List.forall_mem_cons.mp intact
    have line : keepsLine env (draws number) cutoff e.line = (e.map Value.image).keptAt cutoff := by
      simp [keepsLine, first.ofLine]
    simp only [List.map_cons, cleanLines, stripChars_of_trimmed first.trimmed, first.line_ne, if_false,
      line, List.filter_cons]
    split
    · simp [logText, ih rest (number + 1)]
    · exact ih rest (number + 1)

theorem cleanup_logText {es : List AuditEvent} (intact : ∀ e ∈ es, e.Sealed env) :
    (cleanupOldEvents env draws cutoff (some (logText es))).1 =
      some (logText (es.filter fun e => (e.map Value.image).keptAt cutoff)) := by
  rw [← cleanLines_map intact 1, ← fileLines_logText intact]
  rfl

/-! ### Chains and filters -/

/-- An event that is chained to `last` behind `es` is still chained when only `kept` is left of
`es`: the last event that is kept, if there is one, carries the hash `last`. -/
def Joins (kept : AuditEvent → Bool) (es : List AuditEvent) (last : Value) : Prop :=
  ∀ k, (es.filter kept).getLast? = some k → k.eventHash = last

/-- The events that are kept have the hash that each of them names in front of them, and the logger
goes on from the last of them. -/
structure Seamless (kept : AuditEvent → Bool) (es : List AuditEvent) (last : Value) : Prop where
  inside : ∀ pre e post, es = pre ++ e :: post → kept e = true →
    Joins kept pre (lastHashOf .none pre)
  behind : Joins kept es last

/-- An event names a hash, where there is one to name. -/
def Links (last : Value) (e : AuditEvent) : Prop :=
  last.truthy = true → e.previousHash.pyEq last = true

theorem chained_concat {es : List AuditEvent} {e : AuditEvent} :
    Chained env .none (es ++ [e]) ↔
      Chained env .none es ∧ Links (lastHashOf .none es) e ∧ e.verifyIntegrity env = some true := by
  simp [chained_append, Chained, Links]

theorem truthy_of_verifies {e : AuditEvent} (verified : e.verifyIntegrity env = some true) :
    ∃ hash, hash ≠ "" ∧ e.eventHash = .str hash := by
  obtain ⟨hash, calculated, held⟩ := AuditEvent.verifies_iff.mp verified
  exact ⟨hash, AuditEvent.Sealed.hash_ne calculated, held⟩

/-- Filtering keeps the link of the next event where the filter joins. -/
theorem links_filter {kept : AuditEvent → Bool} {es : List AuditEvent} {e : AuditEvent} {last : Value}
    (chain : Chained env .none es) (names : es ≠ [] → e.previousHash = last) :
    Links (lastHashOf .none (es.filter kept)) e ↔ Joins kept es last := by
  unfold Joins
  cases shape : (es.filter kept).getLast? with
  | none => simp [Links, lastHashOf, shape, Value.truthy]
  | some k =>
    have stored : k ∈ es := (List.mem_filter.mp (List.mem_of_getLast? shape)).1
    obtain ⟨hash, ne, held⟩ := truthy_of_verifies (chained_verifies chain k stored)
    have link : Links k.eventHash e ↔ last = .str hash := by
      unfold Links
      rw [held, names (List.ne_nil_of_mem stored)]
      constructor
      · intro linked
        exact Value.pyEq_eq_str.mp (linked (by simp [Value.truthy, ne]))
      · rintro rfl -
        simp
    have tail : lastHashOf .none (es.filter kept) = k.eventHash := by simp [lastHashOf, shape]
    rw [tail, link]
    simp only [Option.some.injEq, forall_eq', held]
    exact eq_comm

theorem forall_split_concat {P : List AuditEvent → AuditEvent → Prop} {es : List AuditEvent}
    {e : AuditEvent} :
    (∀ pre x post, es ++ [e] = pre ++ x :: post → P pre x) ↔
      (∀ pre x post, es = pre ++ x :: post → P pre x) ∧ P es e := by
  constructor
  · intro all
    refine ⟨?_, all es e [] rfl⟩
    rintro pre x post rfl
    exact all pre x (post ++ [e]) (by simp)
  · rintro ⟨before, here⟩ pre x post split
    rcases List.eq_nil_or_concat post with rfl | ⟨post, last, rfl⟩
    · obtain ⟨rfl, same⟩ := List.append_inj' split rfl
      rwa [List.singleton_inj.mp same] at here
    · rw [List.concat_eq_append, ← List.cons_append, ← List.append_assoc] at split
      exact before pre x post (List.append_inj' split rfl).1

theorem names_before {es : List AuditEvent} {e : AuditEvent} (chain : Chained env .none (es ++ [e]))
    (ne : es ≠ []) : e.previousHash = lastHashOf .none es := by
  obtain ⟨chain, linked, -⟩ := chained_concat.mp chain
  cases shape : es.getLast? with
  | none => exact absurd (List.getLast?_eq_none_iff.mp shape) ne
  | some k =>
    obtain ⟨hash, ne, held⟩ := truthy_of_verifies (chained_verifies chain k (List.mem_of_getLast? shape))
    unfold Links at linked
    simp only [lastHashOf, shape, Option.elim_some, held] at linked ⊢
    exact Value.pyEq_eq_str.mp (linked (by simp [Value.truthy, ne]))

/-- What is left of a chain is a chain where every event that is left joins. -/
theorem chained_filter (kept : AuditEvent → Bool) {es : List AuditEvent}
    (chain : Chained env .none es) :
    Chained env .none (es.filter kept) ↔ ∀ pre e post, es = pre ++ e :: post → kept e = true →
      Joins kept pre (lastHashOf .none pre) := by
  induction es using List.reverseRecOn with
  | nil => simp [Chained]
  | append_singleton es e ih =>
    obtain ⟨before, linked, verified⟩ := chained_concat.mp chain
    rw [forall_split_concat (P := fun pre x => kept x = true → Joins kept pre (lastHashOf .none pre)),
      ← ih before, List.filter_append]
    cases keep : kept e with
    | false => simp [keep]
    | true =>
      have link : Links (lastHashOf .none (es.filter kept)) e ↔ Joins kept es (lastHashOf .none es) :=
        links_filter before (names_before chain)
      simp [keep, chained_concat, verified, link]

/-! ### What a logger leaves behind -/

namespace World

/-- The file holds the lines of sealed events, and the logger knows a hash, or none. -/
structure Holds (env : Env) (w : World κ) (es : List AuditEvent) : Prop where
  text : w.file.getD [] = logText es
  intact : ∀ e ∈ es, e.Sealed env
  lastHash : AuditEvent.IsHash w.logger.lastHash

variable {args : α → EventArgs}

theorem holds_append {w : World κ} {es : List AuditEvent} (holds : Holds env w es) {args : EventArgs}
    {e : AuditEvent} {line : List Char}
    (sealed : args.event.sealed env w.logger.lastHash = some (e, line)) :
    Holds env (w.append e line) (es ++ [e]) := by
  obtain ⟨hash, calculated, rfl, rfl⟩ := EventArgs.sealed_some sealed
  refine ⟨?_, ?_, .inr ⟨hash, rfl⟩⟩
  · rw [logText_append, ← holds.text]
    simp [append, logText]
  · intro e h
    rcases List.mem_append.mp h with old | new
    · exact holds.intact e old
    · obtain rfl := List.mem_singleton.mp new
      exact EventArgs.written_sealed holds.lastHash calculated

theorem openLogger_holds {w : World κ} {es : List AuditEvent} (holds : Holds env w es)
    (enableRealTime : Bool) :
    openLogger w.file enableRealTime = some (⟨lastHashOf .none es, [], [], enableRealTime⟩ :
      AuditLogger κ) := by
  have text := holds.text
  cases file : w.file with
  | none =>
    rw [file] at text
    rw [logText_eq_nil text.symm]
    rfl
  | some content =>
    rw [file] at text
    obtain rfl : content = logText es := text
    rw [openLogger, loadLastHash_logText holds.intact]
    rfl

theorem holds_reopened {w : World κ} {es : List AuditEvent} (holds : Holds env w es)
    {enableRealTime : Bool} {logger : AuditLogger κ}
    (opened : openLogger w.file enableRealTime = some logger) :
    Holds env { w with logger } es ∧ logger.lastHash = lastHashOf .none es := by
  rw [openLogger_holds holds] at opened
  obtain rfl := Option.some.inj opened
  exact ⟨⟨holds.text, holds.intact, lastHashOf_isHash holds.intact⟩, rfl⟩

theorem holds_kept : Kept env args (fun w : World κ => ∃ es, Holds env w es) where
  append sealed holds := by
    obtain ⟨es, holds⟩ := holds
    exact ⟨_, holds_append holds sealed⟩
  failed _ holds := by
    obtain ⟨es, holds⟩ := holds
    exact ⟨es, holds.text, holds.intact, holds.lastHash⟩
  withSubscribers holds := by
    obtain ⟨es, holds⟩ := holds
    exact ⟨es, holds.text, holds.intact, holds.lastHash⟩
  restart opened holds := by
    obtain ⟨es, holds⟩ := holds
    exact ⟨es, (holds_reopened holds opened).1⟩

theorem holds_cleanup (draws : Nat → Draw) (cutoff : PyFloat) {w : World κ} {es : List AuditEvent}
    (holds : Holds env w es) :
    Holds env (w.cleanup env draws cutoff)
      (es.filter fun e => (e.map Value.image).keptAt cutoff) := by
  refine ⟨?_, ?_, holds.lastHash⟩
  · have text := holds.text
    unfold cleanup
    cases file : w.file with
    | none =>
      rw [file] at text
      rw [logText_eq_nil text.symm]
      rfl
    | some content =>
      rw [file] at text
      obtain rfl : content = logText es := text
      rw [cleanup_logText holds.intact]
      rfl
  · intro e h
    exact holds.intact e (List.mem_filter.mp h).1

theorem holds_run [DecidableEq κ] (env : Env) (args : α → EventArgs) {file : Option (List Char)} (empty : file.getD [] = [])
    (enableRealTime : Bool) (steps : List (Upkeep κ α)) :
    ∃ es, Holds env (runUpkeep env args (World.start file enableRealTime) steps) es := by
  have step : ∀ (s : Upkeep κ α) (w : World κ), (∃ es, Holds env w es) →
      ∃ es, Holds env (s.run env args w) es := by
    rintro (s | ⟨draws, cutoff⟩) w holds
    · exact holds_kept.step holds s
    · obtain ⟨es, holds⟩ := holds
      exact ⟨_, holds_cleanup draws cutoff holds⟩
  have run : ∀ w : World κ, (∃ es, Holds env w es) →
      ∃ es, Holds env (runUpkeep env args w steps) es := by
    induction steps with
    | nil => exact fun _ holds => holds
    | cons s rest ih => exact fun w holds => ih _ (step s w holds)
  exact run _ ⟨[], empty, by simp, .inl rfl⟩

/-! ### After a cleanup -/

/-- The verifier finds nothing, whatever defaults it draws. -/
def Verified (env : Env) (file : Option (List Char)) : Prop :=
  ∀ draws, (verifyLogIntegrity env draws file).status = .verified

/-- The cleaned file is verified, also with one more event from the same logger or from a new one. -/
structure ChainSurvives [DecidableEq κ] (env : Env) (w : World κ) (draws : Nat → Draw)
    (cutoff : PyFloat) : Prop where
  cleaned : Verified env (w.cleanup env draws cutoff).file
  continued : ∀ args : JsonArgs, Verified env
    ((Action.log args []).run env JsonArgs.toEventArgs (w.cleanup env draws cutoff)).file
  reopened : ∀ enableRealTime, ∃ logger : AuditLogger κ,
    openLogger (w.cleanup env draws cutoff).file enableRealTime = some logger ∧
      ∀ args : JsonArgs, Verified env
        ((Action.log args []).run env JsonArgs.toEventArgs
          { w.cleanup env draws cutoff with logger }).file

theorem verified_iff_chained {w : World κ} {es : List AuditEvent} (holds : Holds env w es)
    (exists_file : w.file.isSome = true) :
    Verified env w.file ↔ Chained env .none (es.map (·.map Value.image)) := by
  obtain ⟨text, file⟩ := Option.isSome_iff_exists.mp exists_file
  have here := holds.text
  rw [file] at here ⊢
  obtain rfl : text = logText es := here
  exact ⟨fun verified => (verified_logText holds.intact).mp (verified fun _ => ⟨"", .nan⟩),
    fun chain _ => (verified_logText holds.intact).mpr chain⟩

theorem log_run [DecidableEq κ] (env : Env) (args : α → EventArgs) (w : World κ) {x : α} (a : JsonArgs)
    (here : args x = a.toEventArgs) : ∃ hash,
      (a.tagged w.logger.lastHash).calculateHash env = some hash ∧
        a.event.sealed env w.logger.lastHash = some (a.written w.logger.lastHash hash,
          (a.written w.logger.lastHash hash).line) ∧
        (Action.log x []).run env args w = w.append (a.written w.logger.lastHash hash)
          (a.written w.logger.lastHash hash).line := by
  obtain ⟨hash, calculated⟩ := Option.isSome_iff_exists.mp
    (a.calculateHash_isSome w.logger.lastHash env)
  have sealed : a.event.sealed env w.logger.lastHash = some (a.written w.logger.lastHash hash,
      (a.written w.logger.lastHash hash).line) := by
    rw [EventArgs.sealed_event, calculated]
    rfl
  refine ⟨hash, calculated, sealed, ?_⟩
  unfold Action.run
  rw [here, sealed]
  simp [notifySubscribers]

/-- One more event keeps the file verified where its link does. -/
theorem verified_log_iff [DecidableEq κ] {w : World κ} {es : List AuditEvent} (holds : Holds env w es)
    (a : JsonArgs) (chain : Chained env .none (es.map (·.map Value.image))) :
    Verified env ((Action.log a []).run env JsonArgs.toEventArgs w).file ↔
      ∀ e : AuditEvent, e.previousHash = w.logger.lastHash →
        Links (lastHashOf .none (es.map (·.map Value.image))) e := by
  obtain ⟨hash, -, sealed, logged⟩ := log_run env JsonArgs.toEventArgs w a rfl
  have holds' := holds_append holds sealed
  have same := a.image_written _ hash (image_of_isHash holds.lastHash)
  have verifies := (holds'.intact (a.written w.logger.lastHash hash) (by simp)).verifies
  rw [logged, verified_iff_chained holds' rfl, List.map_append, List.map_singleton, same, chained_concat]
  unfold Links
  constructor
  · rintro ⟨-, linked, -⟩ e names
    rw [names]
    exact linked
  · intro linked
    exact ⟨chain, linked _ rfl, verifies⟩

theorem lastHashOf_image {es : List AuditEvent} (intact : ∀ e ∈ es, e.Sealed env) :
    lastHashOf .none (es.map (·.map Value.image)) = lastHashOf .none es := by
  unfold lastHashOf
  rw [List.getLast?_map]
  cases shape : es.getLast? with
  | none => rfl
  | some e =>
    obtain ⟨hash, -, stored⟩ := (intact e (List.mem_of_getLast? shape)).hash
    simp [AuditEvent.map, stored, Value.image]

theorem links_of_names {last : Value} {e : AuditEvent} (known : AuditEvent.IsHash last)
    (names : e.previousHash = last) : Links last e := by
  intro truthy
  rw [names]
  rcases known with rfl | ⟨hash, rfl⟩
  · cases truthy
  · simp

def plainArgs : JsonArgs where
  eventId := ""
  timestamp := .nan
  json := rfl

theorem chainSurvives_iff [DecidableEq κ] {w : World κ} {es : List AuditEvent} {text : List Char}
    (holds : Holds env w es) (opened : w.file = some text)
    (verified : (verifyLogIntegrity env draws w.file).status = .verified) :
    ChainSurvives env w draws cutoff ↔
      Seamless (·.keptAt cutoff) (storedEvents env draws text) w.logger.lastHash := by
  have here := holds.text
  rw [opened] at here verified
  obtain rfl : text = logText es := here
  have chain := (verified_logText holds.intact).mp verified
  have cleaned := holds_cleanup draws cutoff holds
  have images : (es.filter fun e => (e.map Value.image).keptAt cutoff).map (·.map Value.image) =
      (es.map (·.map Value.image)).filter (·.keptAt cutoff) := by
    rw [List.filter_map]
    rfl
  have isSome : (w.cleanup env draws cutoff).file.isSome = true := by
    simp [cleanup, opened, cleanupOldEvents]
  have filtered := chained_filter (·.keptAt cutoff) chain
  rw [storedEvents_logText holds.intact]
  constructor
  · rintro ⟨clean, continued, -⟩
    rw [verified_iff_chained cleaned isSome] at clean
    refine ⟨filtered.mp (images ▸ clean), ?_⟩
    have linked := (verified_log_iff cleaned plainArgs clean).mp (continued plainArgs)
    rw [images] at linked
    exact (links_filter chain fun _ => rfl).mp
      (linked { plainArgs.event with previousHash := w.logger.lastHash } rfl)
  · rintro ⟨inside, behind⟩
    have clean := filtered.mpr inside
    rw [← images] at clean
    refine ⟨(verified_iff_chained cleaned isSome).mpr clean, ?_, ?_⟩
    · intro a
      rw [verified_log_iff cleaned a clean, images]
      intro e names
      exact (links_filter chain fun _ => names).mpr behind
    · intro enableRealTime
      have opened := openLogger_holds cleaned enableRealTime
      refine ⟨_, opened, fun a => ?_⟩
      obtain ⟨reopened, last⟩ := holds_reopened cleaned opened
      rw [verified_log_iff reopened a clean, last, lastHashOf_image cleaned.intact]
      exact fun e names => links_of_names (lastHashOf_isHash cleaned.intact) names

end World

/-- Whatever was logged, restarted and cleaned before: the chain of a verified log survives a cleanup
exactly where the events that are left join. -/
theorem chain_survives_cleanup_iff [DecidableEq κ] (env : Env) (file : Option (List Char))
    (empty : file.getD [] = []) (enableRealTime : Bool) (steps : List (Upkeep κ EventArgs))
    (draws : Nat → Draw) (cutoff : PyFloat) (text : List Char) :
    let w := runUpkeep env id (World.start file enableRealTime) steps
    w.file = some text → (verifyLogIntegrity env draws w.file).status = .verified →
      (World.ChainSurvives env w draws cutoff ↔
        Seamless (·.keptAt cutoff) (storedEvents env draws text) w.logger.lastHash) := by
  intro w opened verified
  obtain ⟨es, holds⟩ := World.holds_run env id empty enableRealTime steps
  exact World.chainSurvives_iff holds opened verified

/-! ### A log out of order -/

namespace AuditEvent

/-- Without collisions events of one hash have the same fields. -/
theorem fields_of_hash {e f : AuditEvent} {hash : String} (noCollision : Function.Injective env.sha256)
    (jsonE : e.content.isJson = true) (jsonF : f.content.isJson = true)
    (ofE : e.calculateHash env = some hash) (ofF : f.calculateHash env = some hash) :
    (mapFields Value.sortKeys (e.asdict e.eventType.text)).Perm
      (mapFields Value.sortKeys (f.asdict f.eventType.text)) := by
  unfold calculateHash at ofE ofF
  rw [if_pos (Value.sortable_of_isJson jsonE)] at ofE
  rw [if_pos (Value.sortable_of_isJson jsonF), ← ofE] at ofF
  have texts := String.ofList_injective (encodeUtf8_injective (noCollision (Option.some.inj ofF)))
  have values : f.content.sortKeys = e.content.sortKeys := by
    apply Option.some.inj
    rw [← loads_dumps (isJson_sortKeys jsonF), texts, loads_dumps (isJson_sortKeys jsonE)]
  rw [content, content, sortKeys_record, sortKeys_record] at values
  have items := Value.dict.inj values
  have keyed : Function.Injective fun field : String × Value => (Key.str field.1, field.2) := by
    rintro ⟨n, v⟩ ⟨m, w⟩ same
    simpa using same
  have same := List.map_injective_iff.mpr keyed items
  exact (perm_sortFields _).symm.trans (same ▸ perm_sortFields _)

theorem eventId_of_hash {e f : AuditEvent} {hash : String} (noCollision : Function.Injective env.sha256)
    (jsonE : e.content.isJson = true) (jsonF : f.content.isJson = true)
    (ofE : e.calculateHash env = some hash) (ofF : f.calculateHash env = some hash) :
    e.eventId.sortKeys = f.eventId.sortKeys := by
  have same := fields_of_hash noCollision jsonE jsonF ofE ofF
  have here : ("event_id", e.eventId.sortKeys) ∈
      mapFields Value.sortKeys (f.asdict f.eventType.text) :=
    same.mem_iff.mp (by simp [mapFields, asdict])
  simpa [mapFields, asdict] using here

end AuditEvent

/-- Two events in a row, from a missing file. -/
def pairRun [DecidableEq κ] (env : Env) (enableRealTime : Bool) (a b : JsonArgs) : World κ :=
  runUpkeep env id (World.start none enableRealTime)
    [.step (.act (.log a.toEventArgs [])), .step (.act (.log b.toEventArgs []))]

theorem pairRun_eq [DecidableEq κ] (env : Env) (enableRealTime : Bool) (a b : JsonArgs) : ∃ h₁ h₂,
    (a.tagged .none).calculateHash env = some h₁ ∧
    (b.tagged (.str h₁)).calculateHash env = some h₂ ∧
    (pairRun env enableRealTime a b : World κ).Consistent env ∧
    (pairRun env enableRealTime a b : World κ).file.isSome = true ∧
    (pairRun env enableRealTime a b : World κ).written =
      [a.written .none h₁, b.written (.str h₁) h₂] := by
  let w₀ : World κ := World.start none enableRealTime
  obtain ⟨h₁, calculated₁, sealed₁, logged₁⟩ := World.log_run env id w₀ a rfl
  let w₁ := w₀.append (a.written .none h₁) (a.written .none h₁).line
  obtain ⟨h₂, calculated₂, sealed₂, logged₂⟩ := World.log_run env id w₁ b rfl
  have run : pairRun env enableRealTime a b =
      w₁.append (b.written (.str h₁) h₂) (b.written (.str h₁) h₂).line := by
    change (Action.log b.toEventArgs []).run env id ((Action.log a.toEventArgs []).run env id w₀) = _
    rw [logged₁]
    exact logged₂
  refine ⟨h₁, h₂, calculated₁, calculated₂, ?_⟩
  rw [run]
  refine ⟨World.consistent_append (World.consistent_append
    (World.consistent_start rfl enableRealTime) sealed₁) sealed₂, rfl, ?_⟩
  rw [World.written_append, World.written_append]
  rfl

theorem pairRun_holds [DecidableEq κ] (env : Env) (enableRealTime : Bool) (a b : JsonArgs) :
    ∃ h₁ h₂, (a.tagged .none).calculateHash env = some h₁ ∧
      (b.tagged (.str h₁)).calculateHash env = some h₂ ∧
      (pairRun env enableRealTime a b : World κ).Holds env
        [a.written .none h₁, b.written (.str h₁) h₂] ∧
      (pairRun env enableRealTime a b : World κ).logger.lastHash = .str h₂ ∧
      World.Verified env (pairRun env enableRealTime a b : World κ).file := by
  obtain ⟨h₁, h₂, calculated₁, calculated₂, consistent, opened, written⟩ :=
    pairRun_eq (κ := κ) env enableRealTime a b
  have holds : World.Holds env (pairRun env enableRealTime a b : World κ)
      [a.written .none h₁, b.written (.str h₁) h₂] :=
    ⟨written ▸ consistent.text, written ▸ consistent.intact, consistent.lastHash_isHash⟩
  refine ⟨h₁, h₂, calculated₁, calculated₂, holds, ?_, ?_⟩
  · rw [consistent.lastHash, written]
    rfl
  · rw [World.verified_iff_chained holds opened, List.map_cons, List.map_singleton,
      a.image_written _ _ rfl, b.image_written _ _ rfl, ← written]
    exact consistent.chained

theorem pairRun_file [DecidableEq κ] (env : Env) (enableRealTime : Bool) (a b : JsonArgs) :
    let w : World κ := pairRun env enableRealTime a b
    w.file = some (w.file.getD []) := by
  obtain ⟨-, -, -, -, -, opened, -⟩ := pairRun_eq (κ := κ) env enableRealTime a b
  obtain ⟨text, file⟩ := Option.isSome_iff_exists.mp opened
  simp [file]

/-- An event that is dropped behind one that is kept leaves the logger with a hash that is gone. -/
theorem late_event_breaks [DecidableEq κ] (noCollision : Function.Injective env.sha256)
    (a b : JsonArgs) (differ : a.eventId ≠ b.eventId) (kept : a.event.keptAt cutoff = true)
    (dropped : b.event.keptAt cutoff = false) (enableRealTime : Bool) :
    ¬World.ChainSurvives env (pairRun env enableRealTime a b : World κ) draws cutoff := by
  obtain ⟨h₁, h₂, calculated₁, calculated₂, holds, last, verified⟩ :=
    pairRun_holds (κ := κ) env enableRealTime a b
  intro survives
  have file := pairRun_file (κ := κ) env enableRealTime a b
  have behind := ((World.chainSurvives_iff holds file (verified draws)).mp survives).behind
  rw [holds.text, storedEvents_logText holds.intact, List.map_cons, List.map_singleton,
    a.image_written _ _ rfl, b.image_written _ _ rfl, last] at behind
  have keptA : (a.written .none h₁).keptAt cutoff = true := kept
  have dropB : (b.written (.str h₁) h₂).keptAt cutoff = false := dropped
  have same := behind (a.written .none h₁) (by simp [keptA, dropB])
  obtain rfl : h₁ = h₂ := by simpa [EventArgs.written] using same
  have ids := AuditEvent.eventId_of_hash noCollision (a.isJson_tagged _) (b.isJson_tagged _)
    calculated₁ calculated₂
  exact differ (by simpa [EventArgs.tagged, EventArgs.event, Value.sortKeys] using ids)

def timedArgs (eventId : String) (seconds : List Char) : JsonArgs where
  eventId
  timestamp := .finite (.ofLiteral ⟨false, seconds, ['0'], none⟩)
  json := rfl

def sampleCutoff : PyFloat := .finite (.ofLiteral ⟨false, ['1', '2', '0'], ['0'], none⟩)

theorem pair_survives_cleanup_iff :
    let w : World Nat := runUpkeep sampleEnv id (World.start none true)
      [.step (.act (.log (timedArgs "a" ['6', '0']).toEventArgs [])),
        .step (.act (.log (timedArgs "b" ['1', '8', '0']).toEventArgs []))]
    World.ChainSurvives sampleEnv w (fun _ => ⟨"", .nan⟩) sampleCutoff ↔
      Seamless (·.keptAt sampleCutoff)
        (storedEvents sampleEnv (fun _ => ⟨"", .nan⟩) (w.file.getD [])) w.logger.lastHash := by
  obtain ⟨-, -, -, -, -, -, verified⟩ :=
    pairRun_holds (κ := Nat) sampleEnv true (timedArgs "a" ['6', '0']) (timedArgs "b" ['1', '8', '0'])
  exact chain_survives_cleanup_iff sampleEnv none rfl true _ _ sampleCutoff _
    (pairRun_file sampleEnv true _ _) (verified _)

/-- The second event is two minutes older than the first, and the cutoff lies between them. -/
theorem lateEvent_breaks_chain : Function.Injective sampleEnv.sha256 ∧
    let w : World Nat := runUpkeep sampleEnv id (World.start none true)
      [.step (.act (.log (timedArgs "a" ['1', '8', '0']).toEventArgs [])),
        .step (.act (.log (timedArgs "b" ['6', '0']).toEventArgs []))]
    (verifyLogIntegrity sampleEnv (fun _ => ⟨"", .nan⟩) w.file).status = .verified ∧
      ¬World.ChainSurvives sampleEnv w (fun _ => ⟨"", .nan⟩) sampleCutoff := by
  obtain ⟨-, -, -, -, -, -, verified⟩ :=
    pairRun_holds (κ := Nat) sampleEnv true (timedArgs "a" ['1', '8', '0']) (timedArgs "b" ['6', '0'])
  exact ⟨sampleEnv_injective, verified _, late_event_breaks sampleEnv_injective _ _ (by decide)
    (by decide +kernel) (by decide +kernel) true⟩

end BtApiSecurity.Audit
