import BtApiSecurity.Audit.Acceptance
import BtApiSecurity.Py.Json.Surrogates

/-!
# Reading a log within limits

The interpreter has limits, which may differ between two calls. The verifier reports a
line that exceeds them; the constructor lets the exception out, unless it is the one
for a text that is no JSON. Of an object with a lone surrogate in it only what the two
readers ask for is known.
-/

namespace BtApiSecurity.Audit
open Py

/-! ### The two readers -/

/-- What is known of an event with a lone surrogate in it, which no `AuditEvent` holds. -/
structure ForeignEvent where
  eventId : Value
  previousHash : Value
  calculatedHash : String
  calculated_ne : calculatedHash ≠ ""

/-- What is known of such an object: the answer of `get("event_hash")`, and the event that `from_dict`
makes of it unless it raises. -/
structure Foreign where
  eventHash : Value
  event : Option ForeignEvent

/-- `__post_init__` -/
def Foreign.filledHash (f : Foreign) (e : ForeignEvent) : Value :=
  if f.eventHash.truthy then f.eventHash else .str e.calculatedHash

/-- `_load_last_hash` within limits; `none` is an exception that its `except` clause does not catch. -/
def loadLastHashWithin (limits : Limits) (foreign : List Char → Foreign) :
    Option (List Char) → Option Value
  | none => some .none
  | some text =>
    match (fileLines text).getLast? with
    | none => some .none
    | some line =>
      if stripChars line = [] then some .none
      else match loading limits (stripChars line) with
        | .decodeError => some .none
        | .value (.dict items) => some ((find (.str "event_hash") items).getD .none)
        | .foreign true => some (foreign (stripChars line)).eventHash
        | .value _ | .otherError | .foreign false => none

def openLoggerWithin {κ : Type} (limits : Limits) (foreign : List Char → Foreign)
    (file : Option (List Char)) (enableRealTime : Bool) : Option (AuditLogger κ) :=
  (loadLastHashWithin limits foreign file).map fun lastHash => ⟨lastHash, [], [], enableRealTime⟩

namespace Scan

def checkForeign (scan : Scan) (number : Nat) (e : ForeignEvent) : Scan :=
  if scan.previousHash.truthy && !e.previousHash.pyEq scan.previousHash then
    scan.violation (.chainHashMismatch number e.eventId scan.previousHash e.previousHash)
  else scan

def foreignEvent (scan : Scan) (number : Nat) (hash : Value) (e : ForeignEvent) : Scan :=
  let checked := if (Value.str e.calculatedHash).pyEq hash then scan.checkForeign number e
    else (scan.checkForeign number e).violation (.eventHashMismatch number e.eventId)
  { checked with verifiedCount := scan.verifiedCount + 1, previousHash := hash }

def foreignLine (scan : Scan) (number : Nat) (f : Foreign) : Scan :=
  match f.event with
  | none => scan.violation (.parseError number)
  | some e => scan.foreignEvent number (f.filledHash e) e

def lineWithin (limits : Limits) (foreign : List Char → Foreign) (env : Env) (draw : Draw) (scan : Scan)
    (number : Nat) (line : List Char) : Scan :=
  match loading limits line with
  | .value _ | .decodeError => scan.line env draw number line
  | .foreign true => scan.foreignLine number (foreign line)
  | .otherError | .foreign false => scan.violation (.parseError number)

def linesWithin (limits : Limits) (foreign : List Char → Foreign) (env : Env) (draws : Nat → Draw)
    (scan : Scan) (number : Nat) : List (List Char) → Scan
  | [] => scan
  | l :: ls =>
    (scan.lineWithin limits foreign env (draws number) number (stripChars l)).linesWithin limits foreign env
      draws (number + 1) ls

end Scan

def verifyLogIntegrityWithin (limits : Limits) (foreign : List Char → Foreign) (env : Env)
    (draws : Nat → Draw) : Option (List Char) → Report
  | none => ⟨.noLogFile, 0, [], none⟩
  | some text =>
    let scan := Scan.linesWithin limits foreign env draws {} 1 (fileLines text)
    ⟨if scan.violations.isEmpty then .verified else .violationsFound, scan.verifiedCount,
      scan.violations, some scan.previousHash⟩

/-! ### What a line holds -/

/-- Within the limits the line decodes to an event, `hash` is that of its content and is the one of the
line if the line carries one, and the line links to the hash before it. -/
inductive Holds (limits : Limits) (foreign : List Char → Foreign) (env : Env) (draw : Draw)
    (before : Option Value) (line : List Char) (hash : String) : Prop
  | native (e : AuditEvent) (within : exceeds limits line = false)
      (read : AuditEvent.ofLine env draw line = some e) (calculated : e.calculateHash env = some hash)
      (filled : filledHash env draw line = some (.str hash))
      (linked : ∀ v, before = some v → storedField "previous_hash" line = some v)
  | foreign (e : ForeignEvent) (object : loading limits line = .foreign true)
      (read : (foreign line).event = some e) (calculated : e.calculatedHash = hash)
      (filled : (foreign line).filledHash e = .str hash) (linked : ∀ v, before = some v → e.previousHash = v)

/-- Every line that is not blank holds an event; the first one need not link. -/
def ChainedWithin (limits : Limits) (foreign : List Char → Foreign) (env : Env) (draws : Nat → Draw)
    (before : Option Value) (number : Nat) : List (List Char) → Prop
  | [] => True
  | l :: ls =>
    if stripChars l = [] then ChainedWithin limits foreign env draws before (number + 1) ls
    else ∃ hash, Holds limits foreign env (draws number) before (stripChars l) hash ∧
      ChainedWithin limits foreign env draws (some (.str hash)) (number + 1) ls

variable {κ : Type} {env : Env} {draws : Nat → Draw} {draw : Draw} {text line : List Char}
  {limits : Limits} {foreign : List Char → Foreign} {before : Option Value} {hash : String}

/-! ### One line -/

/-- What the line before leaves is a hash, if there is one. -/
def IsHash (before : Option Value) : Prop :=
  ∀ b, before = some b → ∃ hash, hash ≠ "" ∧ b = .str hash

theorem isHash_none : IsHash none := by simp [IsHash]

theorem isHash_some (ne : hash ≠ "") : IsHash (some (.str hash)) := by simpa [IsHash] using ne

theorem linked_iff {v : Value} (known : IsHash before) :
    ((before.getD .none).truthy = true → v.pyEq (before.getD .none) = true) ↔
      ∀ b, before = some b → v = b := by
  cases before with
  | none => simp [Value.truthy]
  | some b =>
    obtain ⟨hash, ne, rfl⟩ := known b rfl
    simp [Value.truthy, ne, Value.pyEq_eq_str]

theorem Holds.hash_ne (holds : Holds limits foreign env draw before line hash) : hash ≠ "" := by
  cases holds with
  | native e within read calculated filled linked => exact AuditEvent.Sealed.hash_ne calculated
  | foreign e object read calculated filled linked => exact calculated ▸ e.calculated_ne

namespace Scan

variable {scan : Scan} {number : Nat}

theorem lineWithin_blank (limits : Limits) (foreign : List Char → Foreign) (env : Env) (draw : Draw)
    (scan : Scan) (number : Nat) : scan.lineWithin limits foreign env draw number [] = scan := by
  have nothing : loading limits [] = .decodeError := rfl
  simp [lineWithin, nothing, line]

theorem checkForeign_grows (scan : Scan) (number : Nat) (e : ForeignEvent) :
    scan.violations <+: (scan.checkForeign number e).violations := by
  unfold checkForeign
  split
  · exact List.prefix_append _ _
  · exact List.prefix_rfl

theorem foreignEvent_grows (scan : Scan) (number : Nat) (hash : Value) (e : ForeignEvent) :
    scan.violations <+: (scan.foreignEvent number hash e).violations := by
  have chain := scan.checkForeign_grows number e
  unfold foreignEvent
  dsimp only
  split
  · exact chain
  · exact chain.trans (List.prefix_append _ _)

theorem lineWithin_grows (limits : Limits) (foreign : List Char → Foreign) (env : Env) (draw : Draw)
    (scan : Scan) (number : Nat) (line : List Char) :
    scan.violations <+: (scan.lineWithin limits foreign env draw number line).violations := by
  unfold lineWithin
  split
  · exact scan.line_grows _ _ _
  · exact scan.line_grows _ _ _
  · unfold foreignLine
    split
    · exact List.prefix_append _ _
    · exact scan.foreignEvent_grows _ _ _
  · exact List.prefix_append _ _
  · exact List.prefix_append _ _

theorem linesWithin_grow (limits : Limits) (foreign : List Char → Foreign) (env : Env) (draws : Nat → Draw)
    (scan : Scan) (number : Nat) (ls : List (List Char)) :
    scan.violations <+: (scan.linesWithin limits foreign env draws number ls).violations := by
  induction ls generalizing scan number with
  | nil => exact List.prefix_rfl
  | cons l ls ih => exact (scan.lineWithin_grows _ _ _ _ number _).trans (ih _ _)

theorem checkForeign_clean {e : ForeignEvent} (clean : (scan.checkForeign number e).violations = []) :
    scan.previousHash.truthy = true → e.previousHash.pyEq scan.previousHash = true := by
  intro truthy
  by_contra broken
  rw [checkForeign, if_pos (by simp [truthy, broken])] at clean
  exact violation_ne _ _ clean

theorem foreignEvent_clean {value : Value} {e : ForeignEvent}
    (clean : (scan.foreignEvent number value e).violations = []) :
    (scan.previousHash.truthy = true → e.previousHash.pyEq scan.previousHash = true) ∧
      value = .str e.calculatedHash := by
  unfold foreignEvent at clean
  dsimp only at clean
  split at clean
  · rename_i sound
    exact ⟨checkForeign_clean clean, by simpa [Value.str_pyEq] using sound⟩
  · exact absurd clean (violation_ne _ _)

theorem foreignEvent_chained {value : Value} {e : ForeignEvent}
    (linked : scan.previousHash.truthy = true → e.previousHash.pyEq scan.previousHash = true)
    (sound : value = .str e.calculatedHash) :
    scan.foreignEvent number value e =
      { scan with verifiedCount := scan.verifiedCount + 1, previousHash := value } := by
  have unbroken : scan.checkForeign number e = scan := by
    apply if_neg
    simpa using linked
  unfold foreignEvent
  rw [unbroken, if_pos (by simp [sound])]

theorem holds_of_clean (known : IsHash before)
    (reached : scan.previousHash = before.getD .none) (solid : line ≠ [])
    (clean : (scan.lineWithin limits foreign env draw number line).violations = []) :
    ∃ hash, Holds limits foreign env draw before line hash := by
  have native : exceeds limits line = false → (scan.line env draw number line).violations = [] →
      ∃ hash, Holds limits foreign env draw before line hash := by
    intro within clean
    obtain ⟨e, read, linked, verified⟩ := line_clean solid clean
    obtain ⟨hash, calculated, held⟩ := AuditEvent.verifies_iff.mp verified
    rw [(AuditEvent.ofLine_some read).1, reached] at linked
    refine ⟨hash, .native e within read calculated ?_ ((links_iff known).mp linked)⟩
    rw [filledHash_of_read read, held]
  unfold lineWithin at clean
  split at clean
  · rename_i ends
    exact native (exceeds_of_loading (by simp [ends])) clean
  · rename_i ends
    exact native (exceeds_of_loading (by simp [ends])) clean
  · rename_i object
    unfold foreignLine at clean
    split at clean
    · exact absurd clean (violation_ne _ _)
    · rename_i e read
      obtain ⟨linked, filled⟩ := foreignEvent_clean clean
      rw [reached] at linked
      exact ⟨_, .foreign e object read rfl filled ((linked_iff known).mp linked)⟩
  · exact absurd clean (violation_ne _ _)
  · exact absurd clean (violation_ne _ _)

theorem lineWithin_of_holds (known : IsHash before)
    (reached : scan.previousHash = before.getD .none) (solid : line ≠ [])
    (holds : Holds limits foreign env draw before line hash) :
    scan.lineWithin limits foreign env draw number line =
      { scan with verifiedCount := scan.verifiedCount + 1, previousHash := .str hash } := by
  cases holds with
  | native e within read calculated filled linked =>
    obtain ⟨v, loaded, -⟩ := Option.bind_eq_some_iff.mp read
    rw [filledHash_of_read read, Option.some.injEq] at filled
    have links := (links_iff known).mpr linked
    rw [← (AuditEvent.ofLine_some read).1, ← reached] at links
    have verified := AuditEvent.verifies_iff.mpr ⟨hash, calculated, filled⟩
    simp only [lineWithin, loading_of_loads loaded within, line_chained solid read links verified, filled]
  | foreign e object read calculated filled linked =>
    have links := (linked_iff known).mpr linked
    rw [← reached] at links
    have sound : Value.str hash = .str e.calculatedHash := by rw [calculated]
    simp only [lineWithin, object, foreignLine, read, filled, foreignEvent_chained links sound]

/-! ### All lines -/

theorem linesWithin_clean (known : IsHash before)
    (reached : scan.previousHash = before.getD .none) {ls : List (List Char)}
    (clean : (scan.linesWithin limits foreign env draws number ls).violations = []) :
    ChainedWithin limits foreign env draws before number ls := by
  induction ls generalizing scan before number with
  | nil => trivial
  | cons l ls ih =>
    unfold linesWithin at clean
    unfold ChainedWithin
    by_cases blank : stripChars l = []
    · rw [blank, lineWithin_blank] at clean
      rw [if_pos blank]
      exact ih known reached clean
    · have here : (scan.lineWithin limits foreign env (draws number) number (stripChars l)).violations = [] :=
        List.prefix_nil.mp (clean ▸ linesWithin_grow _ _ _ _ _ _ _)
      obtain ⟨hash, holds⟩ := holds_of_clean known reached blank here
      rw [lineWithin_of_holds known reached blank holds] at clean
      rw [if_neg blank]
      exact ⟨hash, holds, ih (isHash_some holds.hash_ne) rfl clean⟩

theorem linesWithin_blank {ls : List (List Char)} (blank : ∀ l ∈ ls, stripChars l = []) :
    scan.linesWithin limits foreign env draws number ls = scan := by
  induction ls generalizing number with
  | nil => rfl
  | cons l ls ih =>
    obtain ⟨first, rest⟩ := List.forall_mem_cons.mp blank
    rw [linesWithin, first, lineWithin_blank, ih rest]

theorem violations_linesWithin (known : IsHash before)
    (reached : scan.previousHash = before.getD .none) {ls : List (List Char)}
    (chain : ChainedWithin limits foreign env draws before number ls) :
    (scan.linesWithin limits foreign env draws number ls).violations = scan.violations := by
  induction ls generalizing scan before number with
  | nil => rfl
  | cons l ls ih =>
    unfold ChainedWithin at chain
    unfold linesWithin
    by_cases blank : stripChars l = []
    · rw [if_pos blank] at chain
      rw [blank, lineWithin_blank]
      exact ih known reached chain
    · rw [if_neg blank] at chain
      obtain ⟨hash, holds, chain⟩ := chain
      rw [lineWithin_of_holds known reached blank holds]
      exact ih (isHash_some holds.hash_ne) rfl chain

/-- The scan ends with the hash of the last event, which the last line holds unless it is blank. -/
theorem exists_last (scan : Scan) (known : IsHash before)
    (reached : scan.previousHash = before.getD .none) {ls : List (List Char)}
    (chain : ChainedWithin limits foreign env draws before number ls) (solid : ∃ l ∈ ls, stripChars l ≠ []) :
    ∃ hash, (scan.linesWithin limits foreign env draws number ls).previousHash = .str hash ∧ hash ≠ "" ∧
      ∀ l, ls.getLast? = some l → stripChars l ≠ [] →
        ∃ draw before, Holds limits foreign env draw before (stripChars l) hash := by
  induction ls generalizing scan before number with
  | nil => simp at solid
  | cons l ls ih =>
    unfold ChainedWithin at chain
    unfold linesWithin
    by_cases later : ∃ l' ∈ ls, stripChars l' ≠ []
    · have last : (l :: ls).getLast? = ls.getLast? := by
        obtain ⟨l', mem, -⟩ := later
        exact List.getLast?_cons_of_ne_nil (List.ne_nil_of_mem mem)
      rw [last]
      by_cases blank : stripChars l = []
      · rw [if_pos blank] at chain
        rw [blank, lineWithin_blank]
        exact ih _ known reached chain later
      · rw [if_neg blank] at chain
        obtain ⟨hash, holds, chain⟩ := chain
        rw [lineWithin_of_holds known reached blank holds]
        exact ih _ (isHash_some holds.hash_ne) rfl chain later
    · push Not at later
      have here : stripChars l ≠ [] := by
        obtain ⟨l', mem, solid⟩ := solid
        rcases List.mem_cons.mp mem with rfl | mem
        · exact solid
        · exact absurd (later l' mem) solid
      rw [if_neg here] at chain
      obtain ⟨hash, holds, -⟩ := chain
      rw [lineWithin_of_holds known reached here holds, linesWithin_blank later]
      refine ⟨hash, rfl, holds.hash_ne, fun l' last solid => ?_⟩
      rcases List.mem_cons.mp (List.mem_of_getLast? last) with rfl | mem
      · exact ⟨_, _, holds⟩
      · exact absurd (later l' mem) solid

end Scan

/-- Within limits those files are accepted whose lines hold a chain. -/
theorem verifiedWithin_iff :
    (verifyLogIntegrityWithin limits foreign env draws (some text)).status = .verified ↔
      ChainedWithin limits foreign env draws none 1 (fileLines text) := by
  have verdict : (verifyLogIntegrityWithin limits foreign env draws (some text)).status = .verified ↔
      (Scan.linesWithin limits foreign env draws {} 1 (fileLines text)).violations = [] := by
    simp [verifyLogIntegrityWithin]
  rw [verdict]
  constructor
  · exact Scan.linesWithin_clean isHash_none rfl
  · exact Scan.violations_linesWithin isHash_none rfl

/-! ### Limits that are not met -/

section
variable (digits : text.length ≤ limits.digits) (depth : text.length ≤ limits.depth)
  (paired : ∀ line ∈ fileLines text, Paired (stripChars line))
include digits depth paired

/-- Where the limits are as large as the text and no surrogate is alone, each line is read as `loads`
reads it. -/
theorem loading_of_ample (mem : line ∈ fileLines text) :
    loading limits (stripChars line) = (loads (stripChars line)).elim .decodeError .value := by
  have short : (stripChars line).length ≤ text.length :=
    (length_stripChars line).trans (length_of_mem_fileLines mem)
  exact loading_eq_loads (exceeds_ample (short.trans digits) (short.trans depth))
    (not_foreign_of_paired (paired line mem))

/-- So the constructor is the one without limits, and so is the verifier. -/
theorem openLoggerWithin_of_ample (enableRealTime : Bool) :
    openLoggerWithin (κ := κ) limits foreign (some text) enableRealTime =
      openLogger (some text) enableRealTime := by
  have same : loadLastHashWithin limits foreign (some text) = loadLastHash (some text) := by
    unfold loadLastHashWithin loadLastHash
    cases last : (fileLines text).getLast? with
    | none => simp [last]
    | some line =>
      have ends := loading_of_ample digits depth paired (List.mem_of_getLast? last)
      by_cases blank : stripChars line = []
      · simp [last, blank]
      · cases read : loads (stripChars line) with
        | none => simp [last, blank, ends, read]
        | some v => cases v <;> simp [last, blank, ends, read]
  rw [openLoggerWithin, openLogger, same]

theorem verifyLogIntegrityWithin_of_ample (foreign : List Char → Foreign) (env : Env) (draws : Nat → Draw) :
    verifyLogIntegrityWithin limits foreign env draws (some text) =
      verifyLogIntegrity env draws (some text) := by
  have each : ∀ ls : List (List Char), (∀ l ∈ ls, l ∈ fileLines text) → ∀ (scan : Scan) number,
      scan.linesWithin limits foreign env draws number ls = scan.lines env draws number ls := by
    intro ls
    induction ls with
    | nil => exact fun _ _ _ => rfl
    | cons l ls ih =>
      intro inside scan number
      obtain ⟨first, rest⟩ := List.forall_mem_cons.mp inside
      have ends := loading_of_ample digits depth paired first
      have here : ∀ draw, scan.lineWithin limits foreign env draw number (stripChars l) =
          scan.line env draw number (stripChars l) := by
        intro draw
        rw [Scan.lineWithin, ends]
        cases loads (stripChars l) <;> rfl
      rw [Scan.linesWithin, Scan.lines, here, ih rest]
  rw [verifyLogIntegrityWithin, verifyLogIntegrity, each _ fun _ mem => mem]

theorem chainedWithin_iff_filled (foreign : List Char → Foreign) (env : Env) (draws : Nat → Draw) :
    ChainedWithin limits foreign env draws none 1 (fileLines text) ↔
      WellChained env draws (filledHash env) none 1 (fileLines text) := by
  rw [← verifiedWithin_iff, verifyLogIntegrityWithin_of_ample digits depth paired, verified_iff_filled]

end

end BtApiSecurity.Audit
