import BtApiSecurity.Audit.Chain
import BtApiSecurity.Audit.Search
import BtApiSecurity.Py.Json.Lexical

/-!
# Writes that fail

`_write_event_atomic` appends to the log beside an unused temporary file, so an
exception can leave the beginning of a line behind. The next line is then written
onto it. What was acknowledged is found again in every run in which the lines that
were completed began at the beginning of a line.
-/

namespace BtApiSecurity.Audit
open Py

variable {κ α : Type} {env : Env} {draws : Nat → Draw}

/-! ### Writing with failures -/

/-- How a write ends: it goes through, it raises before the log is opened, or it raises after so
many characters of the line and its terminator have reached the file. -/
inductive Write where
  | completes
  | unopened
  | torn (reached : Nat)
  deriving DecidableEq

def Write.leaves (line : List Char) (file : Option (List Char)) : Write → Option (List Char)
  | .completes => some (file.getD [] ++ (line ++ ['\n']))
  | .unopened => file
  | .torn reached => some (file.getD [] ++ (line ++ ['\n']).take reached)

mutual

/-- A call on the logger. The reactions are those of the callbacks, in the order in which they are
called; callbacks without a reaction do nothing, and what they raise is suppressed. -/
inductive Attempt (κ α : Type) where
  | log (event : α) (write : Write) (reactions : List (Response κ α))
  | subscribe (callback : κ)
  | unsubscribe (callback : κ)

inductive Response (κ α : Type) where
  | mk (attempts : List (Attempt κ α))

end

/-- The world, who was told of which event, and every write with the text of the file before it. -/
structure Site (κ : Type) extends World κ where
  notified : List (κ × AuditEvent)
  writes : List (List Char × Write)

namespace Site

def start (file : Option (List Char)) (enableRealTime : Bool) : Site κ :=
  ⟨World.start file enableRealTime, [], []⟩

def text (s : Site κ) : List Char := s.file.getD []

def raised (s : Site κ) : Site κ := { s with toWorld := s.toWorld.failed }

def interrupted (s : Site κ) (write : Write) (line : List Char) : Site κ :=
  { s with
    file := write.leaves line s.file
    calls := s.calls ++ [none]
    writes := s.writes ++ [(s.text, write)] }

def written (s : Site κ) (e : AuditEvent) (line : List Char) : Site κ :=
  { s with
    toWorld := s.toWorld.append e line
    writes := s.writes ++ [(s.text, .completes)] }

def withSubscribers (s : Site κ) (subscribers : List κ) : Site κ :=
  { s with toWorld := s.toWorld.withSubscribers subscribers }

def notify (s : Site κ) (callbacks : List κ) (e : AuditEvent) : Site κ :=
  { s with notified := s.notified ++ callbacks.map fun callback => (callback, e) }

end Site

section
variable [DecidableEq κ] (env : Env) (args : α → EventArgs)

mutual

def Attempt.run (s : Site κ) : Attempt κ α → Site κ
  | .log a write reactions =>
    match (args a).event.sealed env s.logger.lastHash with
    | none => s.raised
    | some (e, line) =>
      if write = .completes then
        if s.logger.enableRealTime then tell e 0 (s.written e line) reactions else s.written e line
      else s.interrupted write line
  | .subscribe callback => s.withSubscribers (s.logger.subscribers ++ [callback])
  | .unsubscribe callback => s.withSubscribers (s.logger.subscribers.erase callback)

def runAttempts (s : Site κ) : List (Attempt κ α) → Site κ
  | [] => s
  | attempt :: attempts => runAttempts (attempt.run s) attempts

/-- The loop goes through the list as it stands at each turn. -/
def tell (e : AuditEvent) (i : Nat) (s : Site κ) : List (Response κ α) → Site κ
  | [] => s.notify (s.logger.subscribers.drop i) e
  | .mk attempts :: reactions =>
    match s.logger.subscribers[i]? with
    | none => s
    | some callback => tell e (i + 1) (runAttempts (s.notify [callback] e) attempts) reactions

end

inductive Turn (κ α : Type) where
  | call (attempt : Attempt κ α)
  | restart (enableRealTime : Bool)

def Turn.run (s : Site κ) : Turn κ α → Site κ
  | .call attempt => attempt.run env args s
  | .restart enableRealTime =>
    match openLogger s.file enableRealTime with
    | none => s
    | some logger => { s with logger }

def runTurns (s : Site κ) (turns : List (Turn κ α)) : Site κ := turns.foldl (Turn.run env args) s

end

/-! ### Calls that raise -/

/-- An event that cannot be hashed, or a write that does not go through. -/
def Raises (env : Env) (s : Site κ) (args : EventArgs) (write : Write) : Prop :=
  args.event.sealed env s.logger.lastHash = none ∨ write ≠ .completes

theorem raises_unchanged [DecidableEq κ] {args : α → EventArgs} {s : Site κ} {a : α} {write : Write}
    (raises : Raises env s (args a) write) (reactions : List (Response κ α)) :
    ((Attempt.log a write reactions).run env args s).logger = s.logger ∧
      ((Attempt.log a write reactions).run env args s).notified = s.notified := by
  unfold Attempt.run
  split
  · exact ⟨rfl, rfl⟩
  · rename_i e line sealed
    rcases raises with unhashed | failed
    · rw [unhashed] at sealed
      cases sealed
    · rw [if_neg failed]
      exact ⟨rfl, rfl⟩

/-! ### Runs -/

variable {args : α → EventArgs} {P : Site κ → Prop}

/-- What is kept by every write, whether it goes through or not, by a call that raises before, by
changes of subscribers and notifications, and by a restart. -/
structure Lasting (env : Env) (args : α → EventArgs) (P : Site κ → Prop) : Prop where
  written : ∀ {s a e line}, (args a).event.sealed env s.logger.lastHash = some (e, line) → P s →
    P (s.written e line)
  interrupted : ∀ {s a e line write}, (args a).event.sealed env s.logger.lastHash = some (e, line) →
    write ≠ .completes → P s → P (s.interrupted write line)
  raised : ∀ {s}, P s → P s.raised
  withSubscribers : ∀ {s subscribers}, P s → P (s.withSubscribers subscribers)
  notify : ∀ {s callbacks e}, P s → P (s.notify callbacks e)
  restart : ∀ {s enableRealTime logger}, openLogger s.file enableRealTime = some logger → P s →
    P { s with logger }

namespace Lasting

variable [DecidableEq κ]

mutual

theorem attempt (lasting : Lasting env args P) {s : Site κ} (h : P s) :
    ∀ attempt : Attempt κ α, P (attempt.run env args s)
  | .log a write reactions => by
    unfold Attempt.run
    split
    · exact lasting.raised h
    · rename_i e line sealed
      split
      · split
        · exact lasting.tell e 0 (lasting.written sealed h) reactions
        · exact lasting.written sealed h
      · rename_i failed
        exact lasting.interrupted sealed failed h
  | .subscribe callback => lasting.withSubscribers h
  | .unsubscribe callback => lasting.withSubscribers h

theorem attempts (lasting : Lasting env args P) {s : Site κ} (h : P s) :
    ∀ attempts : List (Attempt κ α), P (runAttempts env args s attempts)
  | [] => h
  | attempt :: rest => lasting.attempts (lasting.attempt h attempt) rest

theorem tell (lasting : Lasting env args P) (e : AuditEvent) (i : Nat) {s : Site κ} (h : P s) :
    ∀ reactions : List (Response κ α), P (tell env args e i s reactions)
  | [] => lasting.notify h
  | .mk attempts :: rest => by
    unfold Audit.tell
    split
    · exact h
    · exact lasting.tell e (i + 1) (lasting.attempts (lasting.notify h) attempts) rest

end

theorem turn (lasting : Lasting env args P) {s : Site κ} (h : P s) (turn : Turn κ α) :
    P (turn.run env args s) := by
  cases turn with
  | call attempt => exact lasting.attempt h attempt
  | restart enableRealTime =>
    rw [Turn.run]
    split
    · exact h
    · rename_i logger opened
      exact lasting.restart opened h

theorem run (lasting : Lasting env args P) {s : Site κ} (h : P s) (turns : List (Turn κ α)) :
    P (runTurns env args s turns) := by
  induction turns generalizing s with
  | nil => exact h
  | cons turn rest ih => exact ih (lasting.turn h turn)

end Lasting

/-! ### What is in the file -/

def Logged (env : Env) (e : AuditEvent) : Prop := e.Sealed env ∧ ∃ x, e.timestamp = .float x

/-- The beginning of the line of an event, or all of it. -/
def Fragment (env : Env) (p : List Char) : Prop := p ≠ [] ∧ ∃ e, Logged env e ∧ p <+: e.line

theorem AuditEvent.Sealed.objectText {e : AuditEvent} (intact : e.Sealed env) :
    ObjectText e.line := by
  obtain ⟨t, -, line⟩ := intact.line_eq
  rw [line]
  have name : "event_id".toList.flatMap escapeChar = 'e' :: ['v', 'e', 'n', 't', '_', 'i', 'd'] := by
    decide
  exact ObjectText.objectText_dumps name fun d => rfl

theorem Fragment.begins {p : List Char} (fragment : Fragment env p) : ObjectText.Begins p := by
  obtain ⟨solid, e, ⟨intact, -⟩, begins⟩ := fragment
  exact ⟨solid, e.line, intact.objectText, begins⟩

theorem Fragment.oneLine {p : List Char} (fragment : Fragment env p) : OneLine p := by
  obtain ⟨-, e, ⟨intact, -⟩, begins⟩ := fragment
  exact fun c h => intact.oneLine c (begins.subset h)

theorem oneLine_fragments {ps : List (List Char)} (each : ∀ p ∈ ps, Fragment env p) :
    OneLine ps.flatten := by
  intro c h
  obtain ⟨p, mem, here⟩ := List.mem_flatten.mp h
  exact (each p mem).oneLine c here

/-- Fragments that load are one line of an event. -/
theorem line_of_loads {ps : List (List Char)} (each : ∀ p ∈ ps, Fragment env p) {v : Value}
    (loaded : loads (stripChars ps.flatten) = some v) : ∃ e, Logged env e ∧ ps = [e.line] := by
  obtain ⟨p, whole, rfl⟩ := ObjectText.whole_of_loads (fun p h => (each p h).begins) loaded
  obtain ⟨solid, e, logged, begins⟩ := each p (by simp)
  rcases logged.1.objectText.run_prefix begins solid with rfl | deep
  · exact ⟨e, logged, rfl⟩
  · rw [whole.ends] at deep
    exact absurd deep (Nat.lt_irrefl 0)

/-! ### The invariant -/

namespace Site

/-- Every write that went through began at the beginning of a line. -/
def Clear (s : Site κ) : Prop :=
  ∀ write ∈ s.writes, write.2 = .completes → write.1 = [] ∨ write.1.getLast? = some '\n'

/-- The finished lines and the unfinished one, each as the fragments that make it up. -/
structure Ledger (env : Env) (s : Site κ) (ls : List (List (List Char))) (tail : List (List Char)) :
    Prop where
  text : s.text = (ls.map List.flatten).flatMap (· ++ ['\n']) ++ tail.flatten
  lines : ∀ l ∈ ls, ∀ p ∈ l, Fragment env p
  tail : ∀ p ∈ tail, Fragment env p
  lastHash : AuditEvent.IsHash s.logger.lastHash
  found : s.Clear → ∀ e, some e ∈ s.calls → Logged env e ∧ [e.line] ∈ ls

variable {s : Site κ} {ls : List (List (List Char))} {tail : List (List Char)}

theorem Ledger.oneLines (ledger : Ledger env s ls tail) :
    ∀ l ∈ ls.map List.flatten, OneLine l := by
  rw [List.forall_mem_map]
  exact fun l h => oneLine_fragments (ledger.lines l h)

theorem Ledger.fileLines (ledger : Ledger env s ls tail) :
    fileLines s.text = ls.map List.flatten ++ if tail.flatten = [] then [] else [tail.flatten] := by
  rw [ledger.text, fileLines_flatMap_append ledger.oneLines]
  split
  · rename_i empty
    rw [empty, fileLines_nil]
  · rename_i solid
    rw [fileLines_oneLine (oneLine_fragments ledger.tail) solid]

/-- Every line of the file is made of fragments. -/
theorem Ledger.line_cases (ledger : Ledger env s ls tail) {l : List Char}
    (h : l ∈ Py.fileLines s.text) : ∃ ps : List (List Char), l = ps.flatten ∧ ∀ p ∈ ps, Fragment env p := by
  rw [ledger.fileLines] at h
  rcases List.mem_append.mp h with finished | unfinished
  · obtain ⟨ps, mem, rfl⟩ := List.mem_map.mp finished
    exact ⟨ps, rfl, ledger.lines ps mem⟩
  · split at unfinished
    · cases unfinished
    · obtain rfl := List.mem_singleton.mp unfinished
      exact ⟨tail, rfl, ledger.tail⟩

/-- Where a line begins there is no unfinished one. -/
theorem Ledger.tail_nil (ledger : Ledger env s ls tail)
    (start : s.text = [] ∨ s.text.getLast? = some '\n') : tail = [] := by
  have empty : tail.flatten = [] := by
    rcases start with nothing | newline
    · rw [ledger.text] at nothing
      exact (List.append_eq_nil_iff.mp nothing).2
    · by_contra solid
      rw [ledger.text, List.getLast?_append, List.getLast?_eq_some_getLast solid] at newline
      have last := oneLine_fragments ledger.tail _ (List.getLast_mem solid)
      exact last.1 (by simpa using newline)
  rw [List.flatten_eq_nil_iff] at empty
  exact List.eq_nil_iff_forall_not_mem.mpr fun p h => (ledger.tail p h).1 (empty p h)

theorem clear_written {e : AuditEvent} {line : List Char} :
    (s.written e line).Clear ↔ s.Clear ∧ (s.text = [] ∨ s.text.getLast? = some '\n') := by
  simp [Clear, written, or_imp, forall_and]

theorem clear_interrupted {write : Write} {line : List Char} (failed : write ≠ .completes) :
    (s.interrupted write line).Clear ↔ s.Clear := by
  simp [Clear, interrupted, or_imp, forall_and, failed]

theorem logged_of_sealed (known : AuditEvent.IsHash s.logger.lastHash) {args : EventArgs}
    {e : AuditEvent} {line : List Char}
    (sealed : args.event.sealed env s.logger.lastHash = some (e, line)) :
    Logged env e ∧ line = e.line ∧ AuditEvent.IsHash e.eventHash := by
  obtain ⟨hash, calculated, rfl, rfl⟩ := EventArgs.sealed_some sealed
  exact ⟨⟨EventArgs.written_sealed known calculated, args.timestamp, rfl⟩, rfl, .inr ⟨hash, rfl⟩⟩

theorem Ledger.finish (ledger : Ledger env s ls tail) {e : AuditEvent} (logged : Logged env e) :
    (s.text ++ (e.line ++ ['\n']) =
      ((ls ++ [tail ++ [e.line]]).map List.flatten).flatMap (· ++ ['\n']) ++ [].flatten) ∧
      ∀ l ∈ ls ++ [tail ++ [e.line]], ∀ p ∈ l, Fragment env p := by
  constructor
  · rw [ledger.text]
    simp
  · intro l h p mem
    rcases List.mem_append.mp h with old | new
    · exact ledger.lines l old p mem
    · obtain rfl := List.mem_singleton.mp new
      rcases List.mem_append.mp mem with before | here
      · exact ledger.tail p before
      · obtain rfl := List.mem_singleton.mp here
        exact ⟨logged.1.line_ne, e, logged, List.prefix_rfl⟩

theorem Ledger.written (ledger : Ledger env s ls tail) {args : EventArgs} {e : AuditEvent}
    {line : List Char} (sealed : args.event.sealed env s.logger.lastHash = some (e, line)) :
    Ledger env (s.written e line) (ls ++ [tail ++ [e.line]]) [] := by
  obtain ⟨logged, rfl, known⟩ := logged_of_sealed ledger.lastHash sealed
  obtain ⟨text, lines⟩ := ledger.finish logged
  refine ⟨text, lines, by simp, known, ?_⟩
  intro clear f mem
  obtain ⟨clear, start⟩ := clear_written.mp clear
  rcases List.mem_append.mp mem with old | new
  · obtain ⟨before, line⟩ := ledger.found clear f old
    exact ⟨before, List.mem_append_left _ line⟩
  · obtain rfl : f = e := by simpa using new
    refine ⟨logged, ?_⟩
    rw [ledger.tail_nil start]
    simp

theorem Ledger.interrupted (ledger : Ledger env s ls tail) {args : EventArgs} {e : AuditEvent}
    {line : List Char} {write : Write} (failed : write ≠ .completes)
    (sealed : args.event.sealed env s.logger.lastHash = some (e, line)) :
    ∃ ls' tail', Ledger env (s.interrupted write line) ls' tail' := by
  obtain ⟨logged, rfl, -⟩ := logged_of_sealed ledger.lastHash sealed
  have found : ∀ more, (s.interrupted write e.line).Clear →
      ∀ f, some f ∈ (s.interrupted write e.line).calls → Logged env f ∧ [f.line] ∈ ls ++ more := by
    intro more clear f mem
    obtain ⟨before, line⟩ := ledger.found ((clear_interrupted failed).mp clear) f
      (by simpa [Site.interrupted] using mem)
    exact ⟨before, List.mem_append_left _ line⟩
  have unchanged : (s.interrupted write e.line).text = s.text →
      Ledger env (s.interrupted write e.line) ls tail := by
    intro same
    refine ⟨same.trans ledger.text, ledger.lines, ledger.tail, ledger.lastHash, ?_⟩
    simpa using found []
  cases write with
  | completes => exact absurd rfl failed
  | unopened => exact ⟨ls, tail, unchanged rfl⟩
  | torn reached =>
    have text : (s.interrupted (.torn reached) e.line).text =
        s.text ++ (e.line ++ ['\n']).take reached := rfl
    rcases Nat.lt_or_ge e.line.length reached with through | short
    · -- The whole line and its terminator are in the file, although the call raises.
      have all : (e.line ++ ['\n']).take reached = e.line ++ ['\n'] :=
        List.take_of_length_le (by simp; omega)
      obtain ⟨finished, lines⟩ := ledger.finish logged
      exact ⟨_, [], by rw [text, all, finished], lines, by simp, ledger.lastHash, found _⟩
    · rw [List.take_append_of_le_length short] at text
      rcases Nat.eq_zero_or_pos reached with rfl | some
      · exact ⟨ls, tail, unchanged (by rw [text]; simp)⟩
      · refine ⟨ls, tail ++ [e.line.take reached], ?_, ledger.lines, ?_, ledger.lastHash, ?_⟩
        · rw [text, ledger.text]
          simp
        · intro p mem
          rcases List.mem_append.mp mem with before | here
          · exact ledger.tail p before
          · obtain rfl := List.mem_singleton.mp here
            refine ⟨?_, e, logged, List.take_prefix _ _⟩
            intro empty
            have length := congrArg List.length empty
            rw [List.length_take, List.length_nil] at length
            omega
        · simpa using found []

theorem Ledger.restart (ledger : Ledger env s ls tail) {enableRealTime : Bool}
    {logger : AuditLogger κ} (opened : openLogger s.file enableRealTime = some logger) :
    Ledger env { s with logger } ls tail := by
  refine ⟨ledger.text, ledger.lines, ledger.tail, ?_, ledger.found⟩
  obtain ⟨lastHash, loaded, rfl⟩ := Option.map_eq_some_iff.mp opened
  change AuditEvent.IsHash lastHash
  unfold loadLastHash at loaded
  split at loaded
  · exact .inl (Option.some.inj loaded).symm
  · rename_i text file
    have here : s.text = text := by rw [Site.text, file, Option.getD_some]
    split at loaded
    · exact .inl (Option.some.inj loaded).symm
    · rename_i line last
      obtain ⟨ps, rfl, fragments⟩ := ledger.line_cases (here ▸ List.mem_of_getLast? last)
      split at loaded
      · exact .inl (Option.some.inj loaded).symm
      · split at loaded
        · exact .inl (Option.some.inj loaded).symm
        · rename_i items read
          obtain ⟨e, logged, rfl⟩ := line_of_loads fragments read
          obtain ⟨items', read', found⟩ := logged.1.stored_hash
          rw [List.flatten_singleton, stripChars_of_trimmed logged.1.trimmed, read'] at read
          obtain rfl := Value.dict.inj (Option.some.inj read)
          obtain ⟨hash, -, stored⟩ := logged.1.hash
          rw [found, stored] at loaded
          exact .inr ⟨hash, (Option.some.inj loaded).symm⟩
        · cases loaded

theorem ledger_lasting {args : α → EventArgs} :
    Lasting env args (fun s : Site κ => ∃ ls tail, Ledger env s ls tail) where
  written sealed holds := by
    obtain ⟨ls, tail, ledger⟩ := holds
    exact ⟨_, _, ledger.written sealed⟩
  interrupted sealed failed holds := by
    obtain ⟨ls, tail, ledger⟩ := holds
    exact ledger.interrupted failed sealed
  raised holds := by
    obtain ⟨ls, tail, ledger⟩ := holds
    refine ⟨ls, tail, ledger.text, ledger.lines, ledger.tail, ledger.lastHash, ?_⟩
    intro clear e mem
    exact ledger.found clear e (by simpa [raised, World.failed] using mem)
  withSubscribers holds := by
    obtain ⟨ls, tail, ledger⟩ := holds
    exact ⟨ls, tail, ledger.text, ledger.lines, ledger.tail, ledger.lastHash, ledger.found⟩
  notify holds := by
    obtain ⟨ls, tail, ledger⟩ := holds
    exact ⟨ls, tail, ledger.text, ledger.lines, ledger.tail, ledger.lastHash, ledger.found⟩
  restart opened holds := by
    obtain ⟨ls, tail, ledger⟩ := holds
    exact ⟨ls, tail, ledger.restart opened⟩

theorem ledger_start {file : Option (List Char)} (empty : file.getD [] = [])
    (enableRealTime : Bool) : Ledger env (start file enableRealTime : Site κ) [] [] :=
  ⟨empty, by simp, by simp, .inl rfl, fun _ _ h => absurd h List.not_mem_nil⟩

/-- What is read from the file are events that were logged. -/
theorem Ledger.stored (ledger : Ledger env s ls tail) {f : AuditEvent}
    (h : f ∈ storedEvents env draws s.text) : ∃ e, Logged env e ∧ f = e.map Value.image := by
  obtain ⟨draw, l, mem, read⟩ := exists_line_of_stored h
  obtain ⟨ps, rfl, fragments⟩ := ledger.line_cases mem
  obtain ⟨v, loaded, -⟩ := Option.bind_eq_some_iff.mp read
  obtain ⟨e, logged, rfl⟩ := line_of_loads fragments loaded
  rw [List.flatten_singleton, stripChars_of_trimmed logged.1.trimmed, logged.1.ofLine] at read
  exact ⟨e, logged, (Option.some.inj read).symm⟩

theorem Ledger.mem_stored (ledger : Ledger env s ls tail) (draws : Nat → Draw) {e : AuditEvent} (logged : Logged env e)
    (line : [e.line] ∈ ls) : e.map Value.image ∈ storedEvents env draws s.text := by
  refine mem_stored_of_line (?_ : e.line ∈ _) ?_
  · rw [ledger.fileLines]
    exact List.mem_append_left _ (List.mem_map.mpr ⟨_, line, by simp⟩)
  · intro draw
    rw [stripChars_of_trimmed logged.1.trimmed]
    exact logged.1.ofLine draw

end Site

/-- Nothing that was acknowledged is lost where no line was completed behind an unfinished one: every
call that raises leaves the logger as it is and tells nobody, and every event that was acknowledged
is found again, as JSON keeps it, with every filter that lets it through. -/
theorem acknowledged_events_found [DecidableEq κ] (env : Env) (args : α → EventArgs)
    (file : Option (List Char)) (empty : file.getD [] = []) (enableRealTime : Bool)
    (turns : List (Turn κ α)) :
    (∀ (s : Site κ) (a : α) (write : Write) (reactions : List (Response κ α)),
      Raises env s (args a) write →
        ((Attempt.log a write reactions).run env args s).logger = s.logger ∧
          ((Attempt.log a write reactions).run env args s).notified = s.notified) ∧
      let s := runTurns env args (Site.start file enableRealTime) turns
      s.Clear → ∀ e, some e ∈ s.calls → ∀ (draws : Nat → Draw) (filters : Filters) (limit : Int),
        ((fileLines s.text).length : Nat) ≤ limit → filters.passes (e.map Value.image) = some true →
          ∃ found, searchEvents env draws filters limit s.file = some found ∧
            e.map Value.image ∈ found := by
  refine ⟨fun s a write reactions raises => raises_unchanged raises reactions, ?_⟩
  intro s clear e acknowledged draws filters limit long passes
  obtain ⟨ls, tail, ledger⟩ : ∃ ls tail, Site.Ledger env s ls tail :=
    Site.ledger_lasting.run ⟨[], [], Site.ledger_start empty enableRealTime⟩ turns
  obtain ⟨logged, line⟩ := ledger.found clear e acknowledged
  have stored := ledger.mem_stored draws logged line
  have times : ∀ f ∈ storedEvents env draws s.text, ∃ x, f.timestamp = .float x := by
    intro f h
    obtain ⟨e, ⟨-, x, time⟩, rfl⟩ := ledger.stored h
    exact ⟨x, by simp [AuditEvent.map, time, Value.image]⟩
  cases file : s.file with
  | none =>
    have nothing : s.text = [] := by rw [Site.text, file, Option.getD_none]
    rw [nothing] at stored
    cases stored
  | some text =>
    have here : s.text = text := by rw [Site.text, file, Option.getD_some]
    rw [here] at long stored times
    obtain ⟨found, searched, member⟩ := searchEvents_of_long filters long times
    exact ⟨found, searched, (member _).mpr ⟨stored, passes⟩⟩

/-! ### A line behind the beginning of another -/

/-- Two fragments on one line are no event. -/
theorem not_decoded {ps : List (List Char)} (each : ∀ p ∈ ps, Fragment env p) (glued : 2 ≤ ps.length)
    (draw : Draw) : AuditEvent.ofLine env draw (stripChars ps.flatten) = none := by
  cases loaded : loads (stripChars ps.flatten) with
  | none => simp [AuditEvent.ofLine, loaded]
  | some v =>
    obtain ⟨e, -, rfl⟩ := line_of_loads each loaded
    simp at glued

namespace JsonArgs

variable [DecidableEq κ] (a : JsonArgs)

theorem sealed_isSome (env : Env) (last : Value) :
    ∃ e line, a.event.sealed env last = some (e, line) := by
  obtain ⟨hash, calculated⟩ := Option.isSome_iff_exists.mp (a.calculateHash_isSome last env)
  rw [EventArgs.sealed_event, calculated]
  exact ⟨_, _, rfl⟩

/-- A call without callbacks is its write. -/
theorem run_log {s : Site κ} (quiet : s.logger.enableRealTime = false) {e : AuditEvent}
    {line : List Char} (sealed : a.event.sealed env s.logger.lastHash = some (e, line)) (write : Write) :
    (Attempt.log a write []).run env JsonArgs.toEventArgs s =
      if write = .completes then s.written e line else s.interrupted write line := by
  unfold Attempt.run
  simp only [sealed, quiet]
  rfl

end JsonArgs

def pairTurns (a b : JsonArgs) (first second : Write) : List (Turn κ JsonArgs) :=
  [.call (.log a first []), .call (.log b second [])]

theorem runTurns_pair [DecidableEq κ] {s s₁ : Site κ} {a b : JsonArgs} {first second : Write}
    {e₁ e₂ : AuditEvent} {line₁ line₂ : List Char}
    (after : s₁ = if first = .completes then s.written e₁ line₁ else s.interrupted first line₁)
    (quiet : s.logger.enableRealTime = false) (quiet₁ : s₁.logger.enableRealTime = false)
    (sealed₁ : a.event.sealed env s.logger.lastHash = some (e₁, line₁))
    (sealed₂ : b.event.sealed env s₁.logger.lastHash = some (e₂, line₂)) :
    runTurns env JsonArgs.toEventArgs s (pairTurns a b first second) =
      if second = .completes then s₁.written e₂ line₂ else s₁.interrupted second line₂ := by
  unfold runTurns pairTurns
  simp only [List.foldl_cons, List.foldl_nil, Turn.run]
  rw [a.run_log quiet sealed₁, ← after, b.run_log quiet₁ sealed₂]

/-- The beginning of a line swallows the next one, which was acknowledged. -/
theorem torn_write_swallows [DecidableEq κ] (env : Env) (a b : JsonArgs) :
    let s : Site κ := runTurns env JsonArgs.toEventArgs (Site.start none false)
      (pairTurns a b (.torn 1) .completes)
    ∃ e, some e ∈ s.calls ∧ ∀ (draws : Nat → Draw) (filters : Filters) (limit : Int),
      searchEvents env draws filters limit s.file = some [] := by
  intro s
  let s₀ : Site κ := Site.start none false
  obtain ⟨e₁, line₁, sealed₁⟩ := a.sealed_isSome env .none
  let s₁ := s₀.interrupted (.torn 1) line₁
  obtain ⟨e₂, line₂, sealed₂⟩ := b.sealed_isSome env .none
  obtain ⟨logged₁, rfl, -⟩ := Site.logged_of_sealed (s := s₀) (.inl rfl) sealed₁
  obtain ⟨logged₂, rfl, -⟩ := Site.logged_of_sealed (s := s₁) (.inl rfl) sealed₂
  have run : s = s₁.written e₂ e₂.line :=
    runTurns_pair rfl rfl rfl sealed₁ sealed₂
  have text : s.file = some ([e₁.line.take 1, e₂.line].flatten ++ ['\n']) := by
    obtain ⟨c, rest, line⟩ := List.exists_cons_of_ne_nil logged₁.1.line_ne
    rw [run]
    simp [s₁, s₀, Site.written, Site.interrupted, Write.leaves, World.append, Site.start, World.start,
      line]
  have fragments : ∀ p ∈ [e₁.line.take 1, e₂.line], Fragment env p := by
    intro p h
    rcases List.mem_cons.mp h with rfl | h
    · refine ⟨?_, e₁, logged₁, List.take_prefix _ _⟩
      obtain ⟨c, rest, line⟩ := List.exists_cons_of_ne_nil logged₁.1.line_ne
      simp [line]
    · obtain rfl := List.mem_singleton.mp h
      exact ⟨logged₂.1.line_ne, e₂, logged₂, List.prefix_rfl⟩
  refine ⟨e₂, by simp [run, Site.written, World.append], ?_⟩
  intro draws filters limit
  have nothing : matching env draws filters limit 1 [] [[e₁.line.take 1, e₂.line].flatten] = [] := by
    simp only [matching, not_decoded fragments (Nat.le_refl 2), ite_self]
  rw [text, searchEvents, fileLines_append (oneLine_fragments fragments) [], fileLines_nil, nothing]
  simp [sortNewest]

theorem tornRun_loses_event :
    let s : Site Nat := runTurns sampleEnv JsonArgs.toEventArgs (Site.start none false)
      (pairTurns (sampleArgs "a" .userLogin) (sampleArgs "b" .userLogout) (.torn 1) .completes)
    ¬∀ e, some e ∈ s.calls → ∃ found, searchEvents sampleEnv (fun _ => ⟨"", .nan⟩) {}
      ((fileLines s.text).length : Nat) s.file = some found ∧ e.map Value.image ∈ found := by
  intro s found
  obtain ⟨e, acknowledged, nothing⟩ := torn_write_swallows (κ := Nat) sampleEnv
    (sampleArgs "a" .userLogin) (sampleArgs "b" .userLogout)
  obtain ⟨results, searched, here⟩ := found e acknowledged
  rw [nothing] at searched
  obtain rfl := Option.some.inj searched
  cases here

/-- The second write is torn, and the first event is still found. -/
theorem tornRun_finds_first :
    let s : Site Nat := runTurns sampleEnv JsonArgs.toEventArgs (Site.start none false)
      (pairTurns (sampleArgs "a" .userLogin) (sampleArgs "b" .userLogout) .completes (.torn 1))
    ∃ e, some e ∈ s.calls ∧ ∃ found, searchEvents sampleEnv (fun _ => ⟨"", .nan⟩) {}
      ((fileLines s.text).length : Nat) s.file = some found ∧ e.map Value.image ∈ found := by
  intro s
  obtain ⟨e₁, line₁, sealed₁⟩ := (sampleArgs "a" .userLogin).sealed_isSome sampleEnv .none
  let s₁ : Site Nat := (Site.start none false).written e₁ line₁
  obtain ⟨e₂, line₂, sealed₂⟩ := (sampleArgs "b" .userLogout).sealed_isSome sampleEnv e₁.eventHash
  have run : s = s₁.interrupted (.torn 1) line₂ :=
    runTurns_pair rfl rfl rfl sealed₁ sealed₂
  have clear : s.Clear := by
    rw [run, Site.clear_interrupted (by decide), Site.clear_written]
    exact ⟨fun _ h => absurd h List.not_mem_nil, .inl rfl⟩
  have acknowledged : some e₁ ∈ s.calls := by simp [run, s₁, Site.interrupted, Site.written, World.append]
  refine ⟨e₁, acknowledged, ?_⟩
  exact (acknowledged_events_found (κ := Nat) sampleEnv JsonArgs.toEventArgs none rfl false
    (pairTurns (sampleArgs "a" .userLogin) (sampleArgs "b" .userLogout) .completes (.torn 1))).2
      clear e₁ acknowledged _ {} _ (le_refl _) rfl

end BtApiSecurity.Audit
