import BtApiSecurity.Audit.Retention
import BtApiSecurity.Py.Order

/-!
# Cleaning with failures

`cleanup_old_events` copies the lines to keep into a temporary file and puts it in
the place of the log. The `try` around one line covers its write as well, so a
write that fails is repeated like that of a malformed line.
-/

namespace BtApiSecurity.Audit
open Py

/-! ### Reads and writes -/

/-- How a write of a line ends: all of it is written, or it raises after so many characters. -/
inductive Put where
  | whole
  | part (reached : Nat)
  deriving DecidableEq

def Put.leaves (line : List Char) : Put → List Char
  | .whole => line ++ ['\n']
  | .part reached => (line ++ ['\n']).take reached

/-- What goes through during a cleanup: opening the log and the temporary file, reading each line and
the end of the file, writing each line, writing it again in the `except` clause, closing the temporary
file, replacing the log, and, after a failure, looking for the temporary file and removing it.
`leftover` says that one stands there from before. -/
structure Device where
  opensLog : Bool := true
  opensCopy : Bool := true
  reads : Nat → Bool := fun _ => true
  ends : Bool := true
  writes : Nat → Put := fun _ => .whole
  again : Nat → Put := fun _ => .whole
  flushes : Bool := true
  replaces : Bool := true
  leftover : Bool := false
  looks : Bool := true
  removes : Bool := true

def Device.sound : Device := {}

/-- What is written, the number of lines that were dropped, and whether a write has failed. -/
structure Cleaning where
  written : List Char := []
  removed : Nat := 0
  failed : Bool := false

/-- `event.timestamp >= cutoff_time`; `none` is an exception, also of a malformed line. -/
def compared (env : Env) (draw : Draw) (cutoff : PyFloat) (line : List Char) : Option Bool :=
  (AuditEvent.ofLine env draw line).bind (·.timestamp.geFloat? cutoff)

inductive Outcome where
  | returned (removed : Nat)
  | auditError
  | osError
  deriving DecidableEq

/-- The outcome, the log file, and whether a read or a write failed before the log was replaced. -/
structure Cleanup where
  outcome : Outcome
  file : Option (List Char)
  failed : Bool

namespace Cleaning

/-- The write in the `except` clause. -/
def keepMalformed (c : Cleaning) (line : List Char) : Put → Option Cleaning
  | .whole => some { c with written := c.written ++ Put.whole.leaves line }
  | .part _ => none

/-- The write in the `try` clause. -/
def keep (c : Cleaning) (line : List Char) (put again : Put) : Option Cleaning :=
  match put with
  | .whole => some { c with written := c.written ++ put.leaves line }
  | .part _ => keepMalformed { c with written := c.written ++ put.leaves line, failed := true } line again

end Cleaning

namespace Device

def line (device : Device) (env : Env) (draw : Draw) (cutoff : PyFloat) (number : Nat) (c : Cleaning)
    (line : List Char) : Option Cleaning :=
  match compared env draw cutoff line with
  | some true => c.keep line (device.writes number) (device.again number)
  | some false => some { c with removed := c.removed + 1 }
  | none => c.keepMalformed line (device.again number)

/-- `none` is an exception. -/
def lines (device : Device) (env : Env) (draws : Nat → Draw) (cutoff : PyFloat) (number : Nat)
    (c : Cleaning) : List (List Char) → Option Cleaning
  | [] => if device.ends then some c else none
  | l :: ls =>
    if device.reads number then
      if stripChars l = [] then device.lines env draws cutoff (number + 1) c ls
      else
        (device.line env (draws number) cutoff number c (stripChars l)).bind fun c =>
          device.lines env draws cutoff (number + 1) c ls
    else none

def opens (device : Device) : Bool := device.opensLog && device.opensCopy

/-- There is a temporary file when something fails. -/
def copied (device : Device) : Bool := device.opens || device.leftover

/-- No temporary file is left after a failure. -/
def clears (device : Device) : Bool := device.looks && (!device.copied || device.removes)

/-- The handler around it all. -/
def gaveUp (device : Device) : Outcome :=
  if device.looks then
    if device.copied then
      if device.removes then .auditError else .osError
    else .auditError
  else .osError

def cleanup (device : Device) (env : Env) (draws : Nat → Draw) (cutoff : PyFloat) :
    Option (List Char) → Cleanup
  | none => ⟨.returned 0, none, false⟩
  | some text =>
    match if device.opens then device.lines env draws cutoff 1 {} (fileLines text) else none with
    | none => ⟨device.gaveUp, some text, true⟩
    | some c =>
      if device.flushes then
        if device.replaces then ⟨.returned c.removed, some c.written, c.failed⟩
        else ⟨device.gaveUp, some text, c.failed⟩
      else ⟨device.gaveUp, some text, true⟩

end Device

variable {env : Env} {draws : Nat → Draw} {cutoff now : PyFloat} {ids : Nat → String}
  {device : Device} {text : List Char}

/-! ### Line by line -/

def solid (line : List Char) : Bool := stripChars line ≠ []

/-- What a line and its number leave in the file, and whether the line is dropped. -/
def keptText (env : Env) (draws : Nat → Draw) (cutoff : PyFloat) (x : List Char × Nat) : List Char :=
  if solid x.1 && keepsLine env (draws x.2) cutoff (stripChars x.1) then stripChars x.1 ++ ['\n'] else []

def dropsLine (env : Env) (draws : Nat → Draw) (cutoff : PyFloat) (x : List Char × Nat) : Bool :=
  solid x.1 && !keepsLine env (draws x.2) cutoff (stripChars x.1)

theorem keepsLine_eq (env : Env) (draw : Draw) (cutoff : PyFloat) (line : List Char) :
    keepsLine env draw cutoff line = (compared env draw cutoff line).getD true := by
  unfold keepsLine compared AuditEvent.keptAt
  cases AuditEvent.ofLine env draw line <;> rfl

theorem cleanLines_eq (number : Nat) (ls : List (List Char)) :
    cleanLines env draws cutoff number ls = ((ls.zipIdx number).flatMap (keptText env draws cutoff),
      (ls.zipIdx number).countP (dropsLine env draws cutoff)) := by
  induction ls generalizing number with
  | nil => rfl
  | cons l ls ih =>
    rw [cleanLines, ih, List.zipIdx_cons, List.flatMap_cons, List.countP_cons]
    by_cases blank : stripChars l = []
    · simp [keptText, dropsLine, solid, blank]
    · by_cases keeps : keepsLine env (draws number) cutoff (stripChars l) = true
      · simp [keptText, dropsLine, solid, blank, keeps]
      · simp [keptText, dropsLine, solid, blank, keeps]

namespace Device

/-- The line is not read, or not written in the end. -/
def fails (device : Device) (env : Env) (draws : Nat → Draw) (cutoff : PyFloat)
    (x : List Char × Nat) : Bool :=
  !device.reads x.2 || solid x.1 &&
    match compared env (draws x.2) cutoff (stripChars x.1) with
    | some true => device.writes x.2 ≠ .whole && device.again x.2 ≠ .whole
    | some false => false
    | none => device.again x.2 ≠ .whole

/-- A write of the line fails, and the second one does not. -/
def hides (device : Device) (env : Env) (draws : Nat → Draw) (cutoff : PyFloat)
    (x : List Char × Nat) : Bool :=
  solid x.1 && compared env (draws x.2) cutoff (stripChars x.1) = some true &&
    device.writes x.2 ≠ .whole && device.again x.2 = .whole

def leaves (device : Device) (env : Env) (draws : Nat → Draw) (cutoff : PyFloat)
    (x : List Char × Nat) : List Char :=
  (if device.hides env draws cutoff x then (device.writes x.2).leaves (stripChars x.1) else []) ++
    keptText env draws cutoff x

theorem line_eq (number : Nat) (c : Cleaning) {l : List Char} (ink : stripChars l ≠ [])
    (reads : device.reads number = true) :
    device.line env (draws number) cutoff number c (stripChars l) =
      if device.fails env draws cutoff (l, number) then none
      else some ⟨c.written ++ device.leaves env draws cutoff (l, number),
        c.removed + if dropsLine env draws cutoff (l, number) then 1 else 0,
        c.failed || device.hides env draws cutoff (l, number)⟩ := by
  unfold line fails leaves hides keptText dropsLine
  rw [keepsLine_eq]
  rcases compared env (draws number) cutoff (stripChars l) with _ | ⟨⟨⟩ | ⟨⟩⟩
  · cases device.again number <;> simp [Cleaning.keepMalformed, Put.leaves, solid, ink, reads]
  · simp [solid, ink, reads]
  · cases device.writes number <;> cases device.again number <;>
      simp [Cleaning.keep, Cleaning.keepMalformed, Put.leaves, solid, ink, reads]

/-- The loop ends early where a line fails; else every line leaves its text. -/
theorem lines_eq (number : Nat) (c : Cleaning) (ls : List (List Char)) :
    device.lines env draws cutoff number c ls =
      if !device.ends || (ls.zipIdx number).any (device.fails env draws cutoff) then none
      else some ⟨c.written ++ (ls.zipIdx number).flatMap (device.leaves env draws cutoff),
        c.removed + (ls.zipIdx number).countP (dropsLine env draws cutoff),
        c.failed || (ls.zipIdx number).any (device.hides env draws cutoff)⟩ := by
  induction ls generalizing number c with
  | nil => cases ends : device.ends <;> simp [lines, ends]
  | cons l ls ih =>
    unfold lines
    rw [List.zipIdx_cons, List.any_cons, List.any_cons, List.flatMap_cons, List.countP_cons]
    by_cases reads : device.reads number = true
    · rw [if_pos reads]
      by_cases blank : stripChars l = []
      · have empty : solid l = false := by simp [solid, blank]
        have passes : device.fails env draws cutoff (l, number) = false := by
          simp [fails, empty, reads]
        have hidden : device.hides env draws cutoff (l, number) = false := by simp [hides, empty]
        have nothing : device.leaves env draws cutoff (l, number) = [] := by
          simp [leaves, hidden, keptText, empty]
        have kept : dropsLine env draws cutoff (l, number) = false := by simp [dropsLine, empty]
        rw [if_pos blank, ih, passes, hidden, nothing, kept]
        rfl
      · rw [if_neg blank, line_eq number c blank reads]
        by_cases fails : device.fails env draws cutoff (l, number) = true
        · simp [fails]
        · rw [if_neg fails, Option.bind_some, ih, Bool.eq_false_iff.mpr fails, Bool.false_or,
            List.append_assoc, Bool.or_assoc, Nat.add_assoc, Nat.add_comm (ite ..)]
    · simp [reads, fails]

/-! ### The whole cleanup -/

/-- A read or a write fails for good. -/
def breaks (device : Device) (env : Env) (draws : Nat → Draw) (cutoff : PyFloat) (text : List Char) :
    Bool :=
  !device.opens || !device.ends || !device.flushes ||
    ((fileLines text).zipIdx 1).any (device.fails env draws cutoff)

/-- A write fails and is made up for. -/
def repeats (device : Device) (env : Env) (draws : Nat → Draw) (cutoff : PyFloat) (text : List Char) :
    Bool :=
  ((fileLines text).zipIdx 1).any (device.hides env draws cutoff)

theorem cleanup_eq (device : Device) (env : Env) (draws : Nat → Draw) (cutoff : PyFloat)
    (text : List Char) : device.cleanup env draws cutoff (some text) =
    if device.breaks env draws cutoff text then ⟨device.gaveUp, some text, true⟩
    else if device.replaces then
      ⟨.returned (((fileLines text).zipIdx 1).countP (dropsLine env draws cutoff)),
        some (((fileLines text).zipIdx 1).flatMap (device.leaves env draws cutoff)),
        device.repeats env draws cutoff text⟩
    else ⟨device.gaveUp, some text, device.repeats env draws cutoff text⟩ := by
  simp only [cleanup, breaks, repeats, lines_eq]
  by_cases fails : ((fileLines text).zipIdx 1).any (device.fails env draws cutoff) = true
  · simp [fails]
  · by_cases opened : device.opens = true
    · by_cases ended : device.ends = true
      · by_cases flushed : device.flushes = true
        · simp [fails, opened, ended, flushed]
        · simp [fails, opened, ended, flushed]
      · simp [opened, ended]
    · simp [opened]

/-- Where nothing fails, what is left is what the cleanup is to keep. -/
theorem cleanup_of_quiet (whole : device.breaks env draws cutoff text = false)
    (once : device.repeats env draws cutoff text = false) (replaces : device.replaces = true) :
    device.cleanup env draws cutoff (some text) =
      ⟨.returned (cleanLines env draws cutoff 1 (fileLines text)).2,
        some (cleanLines env draws cutoff 1 (fileLines text)).1, false⟩ := by
  have leaves : ((fileLines text).zipIdx 1).flatMap (device.leaves env draws cutoff) =
      ((fileLines text).zipIdx 1).flatMap (keptText env draws cutoff) := by
    apply List.flatMap_congr
    intro x member
    have hidden : ¬device.hides env draws cutoff x = true := List.any_eq_false.mp once x member
    rw [leaves, if_neg hidden, List.nil_append]
  rw [cleanup_eq, whole, once, replaces, leaves, cleanLines_eq, if_neg Bool.false_ne_true, if_pos rfl]

theorem sound_breaks (text : List Char) : sound.breaks env draws cutoff text = false := by
  have passes : ∀ x, sound.fails env draws cutoff x = false := by
    intro x
    unfold fails
    rcases compared env (draws x.2) cutoff (stripChars x.1) with _ | ⟨⟨⟩ | ⟨⟩⟩ <;> simp [sound]
  have none_fails : ((fileLines text).zipIdx 1).any (sound.fails env draws cutoff) = false :=
    List.any_eq_false.mpr fun x _ => Bool.eq_false_iff.mp (passes x)
  rw [breaks, none_fails]
  rfl

theorem sound_repeats (text : List Char) : sound.repeats env draws cutoff text = false := by
  simp [repeats, hides, sound]

/-- The cleanup of the earlier model is the one in which everything goes through. -/
theorem sound_cleanup (file : Option (List Char)) : sound.cleanup env draws cutoff file =
    ⟨.returned (cleanupOldEvents env draws cutoff file).2,
      (cleanupOldEvents env draws cutoff file).1, false⟩ := by
  cases file with
  | none => rfl
  | some text => exact cleanup_of_quiet (sound_breaks text) (sound_repeats text) rfl

end Device

/-! ### One time for all lines -/

def drawn (ids : Nat → String) (now : PyFloat) (number : Nat) : Draw := ⟨ids number, now⟩

/-- An event has the same timestamp whatever id it draws. -/
theorem timestamp_ofLine (env : Env) (id id' : String) (now : PyFloat) (line : List Char) :
    (AuditEvent.ofLine env ⟨id, now⟩ line).map (·.timestamp) =
      (AuditEvent.ofLine env ⟨id', now⟩ line).map (·.timestamp) := by
  unfold AuditEvent.ofLine
  cases loaded : loads line with
  | none => rw [Option.bind_none, Option.bind_none]
  | some data =>
    have json := isJson_of_loads loaded
    rw [Option.bind_some, Option.bind_some]
    cases data with
    | dict items =>
      cases typed : AuditEvent.typeOf items with
      | none => simp [AuditEvent.fromDict, typed]
      | some type =>
        cases graded : AuditEvent.severityOf items with
        | none => simp [AuditEvent.fromDict, typed, graded]
        | some severity =>
          obtain ⟨e, made, time, content⟩ := AuditEvent.fromDict_eq env ⟨id, now⟩ typed graded
          obtain ⟨e', made', time', content'⟩ := AuditEvent.fromDict_eq env ⟨id', now⟩ typed graded
          rw [made, made']
          by_cases known : AuditEvent.known items = true
          · rw [if_pos known, if_pos known, AuditEvent.postInit_timestamp (content json),
              AuditEvent.postInit_timestamp (content' json), time, time']
          · rw [if_neg known, if_neg known]
    | _ => simp only [AuditEvent.fromDict, Option.map_none]

theorem keepsLine_now (env : Env) (cutoff : PyFloat) (id id' : String) (now : PyFloat)
    (line : List Char) : keepsLine env ⟨id, now⟩ cutoff line = keepsLine env ⟨id', now⟩ cutoff line := by
  have of_timestamp : ∀ id, keepsLine env ⟨id, now⟩ cutoff line =
      ((AuditEvent.ofLine env ⟨id, now⟩ line).map (·.timestamp)).all
        (fun t => (t.geFloat? cutoff).getD true) := by
    intro id
    unfold keepsLine
    cases AuditEvent.ofLine env ⟨id, now⟩ line <;> rfl
  rw [of_timestamp, of_timestamp, timestamp_ofLine env id id' now line]

/-- The lines that are not blank, trimmed. -/
def solidLines (text : List Char) : List (List Char) :=
  ((fileLines text).map stripChars).filter (· ≠ [])

def keptLines (env : Env) (now cutoff : PyFloat) (text : List Char) : List (List Char) :=
  (solidLines text).filter (keepsLine env ⟨"", now⟩ cutoff)

theorem cleanLines_now (env : Env) (ids : Nat → String) (now cutoff : PyFloat) (number : Nat)
    (ls : List (List Char)) :
    cleanLines env (drawn ids now) cutoff number ls =
      ((((ls.map stripChars).filter (· ≠ [])).filter (keepsLine env ⟨"", now⟩ cutoff)).flatMap
          (· ++ ['\n']),
        ((ls.map stripChars).filter (· ≠ [])).countP (!keepsLine env ⟨"", now⟩ cutoff ·)) := by
  induction ls generalizing number with
  | nil => rfl
  | cons l ls ih =>
    rw [cleanLines, ih, List.map_cons]
    by_cases blank : stripChars l = []
    · simp [blank]
    · have same : keepsLine env (drawn ids now number) cutoff (stripChars l) =
          keepsLine env ⟨"", now⟩ cutoff (stripChars l) := keepsLine_now ..
      by_cases keeps : keepsLine env ⟨"", now⟩ cutoff (stripChars l) = true
      · simp [blank, same, keeps]
      · simp [blank, same, keeps]

theorem solidLines_keptLines (env : Env) (now cutoff : PyFloat) (text : List Char) :
    solidLines ((keptLines env now cutoff text).flatMap (· ++ ['\n'])) =
      keptLines env now cutoff text := by
  have line : ∀ l ∈ keptLines env now cutoff text, OneLine l ∧ stripChars l = l ∧ l ≠ [] := by
    intro l kept
    obtain ⟨stripped, ink⟩ := List.mem_filter.mp (List.mem_filter.mp kept).1
    obtain ⟨read, mem, rfl⟩ := List.mem_map.mp stripped
    refine ⟨fun c h => oneLine_of_mem_fileLines mem c (stripChars_subset read h),
      stripChars_stripChars read, by simpa using ink⟩
  rw [solidLines, fileLines_flatMap fun l h => (line l h).1,
    List.map_congr_left fun l h => (line l h).2.1, List.map_id', List.filter_eq_self]
  intro l kept
  simpa using (line l kept).2.2

/-- Cleaning again at the same time changes nothing. -/
theorem cleanup_again (env : Env) (ids : Nat → String) (now cutoff : PyFloat) (text : List Char) :
    Device.sound.cleanup env (drawn ids now) cutoff
        (some ((keptLines env now cutoff text).flatMap (· ++ ['\n']))) =
      ⟨.returned 0, some ((keptLines env now cutoff text).flatMap (· ++ ['\n'])), false⟩ := by
  have again := cleanLines_now env ids now cutoff 1
    (fileLines ((keptLines env now cutoff text).flatMap (· ++ ['\n'])))
  rw [← solidLines, solidLines_keptLines] at again
  rw [Device.cleanup_of_quiet (Device.sound_breaks _) (Device.sound_repeats _) rfl, again]
  have kept : ∀ l ∈ keptLines env now cutoff text, keepsLine env ⟨"", now⟩ cutoff l = true :=
    fun l h => (List.mem_filter.mp h).2
  rw [List.filter_eq_self.mpr kept, List.countP_eq_zero.mpr fun l h => by simp [kept l h]]

/-! ### What a cleanup should do -/

/-- The line holds no event, or one whose timestamp is not before the cutoff. -/
def survives (env : Env) (now cutoff : PyFloat) (line : List Char) : Bool :=
  (AuditEvent.ofLine env ⟨"", now⟩ line).all fun e => e.timestamp.lt? (.float cutoff) != some true

def survivors (env : Env) (now cutoff : PyFloat) (text : List Char) : List (List Char) :=
  (solidLines text).filter (survives env now cutoff)

/-- A cleanup that returns leaves the survivors in their order, returns the number of the others, and
cleaning again at the same time changes nothing. One in which a read or a write fails raises
`AuditError` and leaves the log as it was. -/
structure CleansExactly (env : Env) (ids : Nat → String) (now cutoff : PyFloat) (device : Device)
    (text : List Char) : Prop where
  returns : ∀ n, (device.cleanup env (drawn ids now) cutoff (some text)).outcome = .returned n →
    (device.cleanup env (drawn ids now) cutoff (some text)).file =
        some ((survivors env now cutoff text).flatMap (· ++ ['\n'])) ∧
      n = (solidLines text).countP (!survives env now cutoff ·) ∧
      ∀ ids', Device.sound.cleanup env (drawn ids' now) cutoff
          (device.cleanup env (drawn ids now) cutoff (some text)).file =
        ⟨.returned 0, (device.cleanup env (drawn ids now) cutoff (some text)).file, false⟩
  raises : (device.cleanup env (drawn ids now) cutoff (some text)).failed = true →
    (device.cleanup env (drawn ids now) cutoff (some text)).outcome = .auditError ∧
      (device.cleanup env (drawn ids now) cutoff (some text)).file = some text

/-- The line holds an event with a time that does not compare with the cutoff, as one of them is
`nan`. -/
def unplaced (env : Env) (now cutoff : PyFloat) (line : List Char) : Bool :=
  (AuditEvent.ofLine env ⟨"", now⟩ line).any fun e =>
    e.timestamp.isNumber && !(e.timestamp.extended.isSome && cutoff.extended.isSome)

/-- After a failure no temporary file is left; and if the log is replaced, no write was made up
for and every time could be compared. -/
structure Device.Reliable (device : Device) (env : Env) (draws : Nat → Draw) (now cutoff : PyFloat)
    (text : List Char) : Prop where
  clears : device.breaks env draws cutoff text = true ∨ device.repeats env draws cutoff text = true →
    device.clears = true
  finishes : device.breaks env draws cutoff text = false → device.replaces = true →
    device.repeats env draws cutoff text = false ∧
      ∀ line ∈ solidLines text, unplaced env now cutoff line = false

/-! ### The exact condition -/

theorem survives_eq (env : Env) (now cutoff : PyFloat) (line : List Char) :
    survives env now cutoff line =
      (keepsLine env ⟨"", now⟩ cutoff line || unplaced env now cutoff line) := by
  unfold survives keepsLine unplaced AuditEvent.keptAt Value.geFloat?
  cases AuditEvent.ofLine env ⟨"", now⟩ line with
  | none => rfl
  | some e =>
    simp only [Option.all_some, Option.any_some]
    by_cases number : e.timestamp.isNumber = true
    · have float : (Value.float cutoff).isNumber = true := rfl
      rw [lt_of_number number, if_pos number, numbersLt?, if_pos float, number]
      cases place : e.timestamp.extended with
      | none => simp [numberLt, numberLe]
      | some x =>
        cases bound : cutoff.extended with
        | none => simp [numberLt, numberLe, Value.extended, bound]
        | some y =>
          simp only [numberLt, numberLe, Value.extended, bound]
          cases y.le x <;> rfl
    · rw [if_neg number]
      cases shape : e.timestamp with
      | bool | int | float => simp [shape, Value.isNumber] at number
      | _ => simp [Value.lt?]

theorem not_kept_of_unplaced {line : List Char} (lost : unplaced env now cutoff line = true) :
    keepsLine env ⟨"", now⟩ cutoff line = false := by
  unfold unplaced at lost
  unfold keepsLine AuditEvent.keptAt Value.geFloat?
  cases read : AuditEvent.ofLine env ⟨"", now⟩ line with
  | none => simp [read] at lost
  | some e =>
    simp only [read, Option.any_some, Bool.and_eq_true, Bool.not_eq_true'] at lost
    obtain ⟨number, apart⟩ := lost
    rw [Option.all_some, if_pos number]
    cases place : e.timestamp.extended with
    | none => cases cutoff.extended <;> rfl
    | some x =>
      cases bound : cutoff.extended with
      | none => rfl
      | some y => simp [place, bound] at apart

theorem countP_survives (env : Env) (now cutoff : PyFloat) (ls : List (List Char)) :
    ls.countP (!keepsLine env ⟨"", now⟩ cutoff ·) =
      ls.countP (!survives env now cutoff ·) + ls.countP (unplaced env now cutoff) := by
  induction ls with
  | nil => rfl
  | cons l ls ih =>
    simp only [List.countP_cons, ih, survives_eq]
    by_cases lost : unplaced env now cutoff l = true
    · simp [lost, not_kept_of_unplaced lost]
      omega
    · simp [lost]
      omega

/-- Where nothing fails and the log is replaced. -/
theorem Device.cleanup_now (whole : device.breaks env (drawn ids now) cutoff text = false)
    (once : device.repeats env (drawn ids now) cutoff text = false)
    (replaces : device.replaces = true) :
    device.cleanup env (drawn ids now) cutoff (some text) =
      ⟨.returned ((solidLines text).countP (!keepsLine env ⟨"", now⟩ cutoff ·)),
        some ((keptLines env now cutoff text).flatMap (· ++ ['\n'])), false⟩ := by
  rw [Device.cleanup_of_quiet whole once replaces, cleanLines_now]
  rfl

theorem Device.gaveUp_eq : device.gaveUp = .auditError ↔ device.clears = true := by
  unfold gaveUp clears
  cases device.looks <;> cases device.copied <;> cases device.removes <;> simp

theorem Device.gaveUp_ne (n : Nat) : device.gaveUp ≠ .returned n := by
  unfold gaveUp
  cases device.looks <;> cases device.copied <;> cases device.removes <;> simp

theorem reliable_of_cleans (cleans : CleansExactly env ids now cutoff device text) :
    device.Reliable env (drawn ids now) now cutoff text := by
  obtain ⟨returns, raises⟩ := cleans
  rw [Device.cleanup_eq] at raises
  refine ⟨?_, ?_⟩
  · intro failure
    by_cases broken : device.breaks env (drawn ids now) cutoff text = true
    · rw [if_pos broken] at raises
      exact Device.gaveUp_eq.mp (raises rfl).1
    · have again := failure.resolve_left broken
      rw [if_neg broken] at raises
      by_cases replaces : device.replaces = true
      · rw [if_pos replaces] at raises
        cases (raises again).1
      · rw [if_neg replaces] at raises
        exact Device.gaveUp_eq.mp (raises again).1
  · intro whole replaces
    rw [if_neg (Bool.eq_false_iff.mp whole), if_pos replaces] at raises
    have once : device.repeats env (drawn ids now) cutoff text = false := by
      rw [← Bool.not_eq_true]
      intro again
      cases (raises again).1
    refine ⟨once, ?_⟩
    have result := Device.cleanup_now whole once replaces
    obtain ⟨-, counted, -⟩ := returns _ (by rw [result])
    have lost : (solidLines text).countP (unplaced env now cutoff) = 0 := by
      have split := countP_survives env now cutoff (solidLines text)
      omega
    intro line member
    simpa using List.countP_eq_zero.mp lost line member

theorem cleans_of_reliable (reliable : device.Reliable env (drawn ids now) now cutoff text) :
    CleansExactly env ids now cutoff device text := by
  obtain ⟨clears, finishes⟩ := reliable
  by_cases broken : device.breaks env (drawn ids now) cutoff text = true
  · have result := device.cleanup_eq env (drawn ids now) cutoff text
    rw [if_pos broken] at result
    refine ⟨?_, ?_⟩
    · intro n returned
      rw [result] at returned
      exact absurd returned (Device.gaveUp_ne n)
    · rw [result]
      exact fun _ => ⟨Device.gaveUp_eq.mpr (clears (.inl broken)), rfl⟩
  · have whole := Bool.eq_false_iff.mpr broken
    by_cases replaces : device.replaces = true
    · obtain ⟨once, placed⟩ := finishes whole replaces
      have result := Device.cleanup_now whole once replaces
      have same : ∀ line ∈ solidLines text,
          keepsLine env ⟨"", now⟩ cutoff line = survives env now cutoff line := by
        intro line member
        rw [survives_eq, placed line member, Bool.or_false]
      have kept : keptLines env now cutoff text = survivors env now cutoff text :=
        List.filter_congr same
      refine ⟨?_, ?_⟩
      · intro n returned
        rw [result] at returned ⊢
        refine ⟨by rw [kept], ?_, fun ids' => cleanup_again env ids' now cutoff text⟩
        rw [← Outcome.returned.inj returned]
        exact List.countP_congr fun line member => by rw [same line member]
      · rw [result]
        exact fun failed => absurd failed Bool.false_ne_true
    · have result := device.cleanup_eq env (drawn ids now) cutoff text
      rw [if_neg broken, if_neg replaces] at result
      refine ⟨?_, ?_⟩
      · intro n returned
        rw [result] at returned
        exact absurd returned (Device.gaveUp_ne n)
      · rw [result]
        exact fun again => ⟨Device.gaveUp_eq.mpr (clears (.inr again)), rfl⟩

/-- A cleanup does all that, if and only if the device is reliable. -/
theorem cleansExactly_iff (env : Env) (ids : Nat → String) (now cutoff : PyFloat) (device : Device)
    (text : List Char) : CleansExactly env ids now cutoff device text ↔
      device.Reliable env (drawn ids now) now cutoff text :=
  ⟨reliable_of_cleans, cleans_of_reliable⟩

/-- The first write of every line fails, the second one goes through. -/
def hiccup : Device := { writes := fun _ => .part 0 }

/-- An event to be kept is written in the second attempt, and nothing is reported. -/
theorem hiccup_unreported : ¬∀ (env : Env) (ids : Nat → String) (now cutoff : PyFloat)
    (device : Device) (text : List Char), CleansExactly env ids now cutoff device text := by
  intro cleans
  let event := timedArgs "a" ['1', '8', '0']
  obtain ⟨hash, calculated⟩ := Option.isSome_iff_exists.mp (event.calculateHash_isSome .none sampleEnv)
  have intact := EventArgs.written_sealed (.inl rfl) calculated
  let line := (event.written .none hash).line
  have reliable := reliable_of_cleans
    (cleans sampleEnv (fun _ => "") .nan sampleCutoff hiccup (logText [event.written .none hash]))
  have lines : fileLines (logText [event.written .none hash]) = [line] := by
    rw [fileLines_logText (by simpa using intact)]
    rfl
  have trimmed : stripChars line = line := stripChars_of_trimmed intact.trimmed
  have late : compared sampleEnv ⟨"", .nan⟩ sampleCutoff line = some true := by
    have recent : (Value.float (timedArgs "a" ['1', '8', '0']).timestamp).geFloat? sampleCutoff =
        some true := by
      decide +kernel
    rw [compared, intact.ofLine]
    exact recent
  have whole : hiccup.breaks sampleEnv (drawn (fun _ => "") .nan) sampleCutoff
      (logText [event.written .none hash]) = false := by
    simp [Device.breaks, Device.opens, lines, Device.fails, trimmed, late, drawn, hiccup]
  have repeated : hiccup.repeats sampleEnv (drawn (fun _ => "") .nan) sampleCutoff
      (logText [event.written .none hash]) = true := by
    simp [Device.repeats, lines, Device.hides, solid, trimmed, intact.line_ne, line, late, drawn, hiccup]
  rw [(reliable.finishes whole rfl).1] at repeated
  cases repeated

end BtApiSecurity.Audit
