import Mathlib.Data.List.ReduceOption
import BtApiSecurity.Audit.Event

/-!
# The verifier

`verify_log_integrity` goes through the lines of the file and collects what is
wrong with them. It finds nothing exactly where the lines hold a chain of events.
-/

namespace BtApiSecurity.Audit
open Py

inductive Violation where
  | chainHashMismatch (line : Nat) (eventId expected actual : Value)
  | eventHashMismatch (line : Nat) (eventId : Value)
  | parseError (line : Nat)

inductive Status where
  | noLogFile
  | verified
  | violationsFound
  deriving DecidableEq

/-- Without a file the report has no last hash. -/
structure Report where
  status : Status
  verifiedEvents : Nat
  violations : List Violation
  lastHash : Option Value

structure Scan where
  violations : List Violation := []
  verifiedCount : Nat := 0
  previousHash : Value := .none

namespace Scan

def violation (scan : Scan) (v : Violation) : Scan :=
  { scan with violations := scan.violations ++ [v] }

def checkChain (scan : Scan) (number : Nat) (e : AuditEvent) : Scan :=
  if scan.previousHash.truthy && !e.previousHash.pyEq scan.previousHash then
    scan.violation (.chainHashMismatch number e.eventId scan.previousHash e.previousHash)
  else scan

def line (env : Env) (draw : Draw) (scan : Scan) (number : Nat) (line : List Char) : Scan :=
  if line = [] then scan
  else
    match AuditEvent.ofLine env draw line with
    | none => scan.violation (.parseError number)
    | some e =>
      match e.verifyIntegrity env with
      | none => (scan.checkChain number e).violation (.parseError number)
      | some ok =>
        let scan := if ok then scan.checkChain number e
          else (scan.checkChain number e).violation (.eventHashMismatch number e.eventId)
        { scan with verifiedCount := scan.verifiedCount + 1, previousHash := e.eventHash }

def lines (env : Env) (draws : Nat → Draw) (scan : Scan) (number : Nat) : List (List Char) → Scan
  | [] => scan
  | l :: ls => (scan.line env (draws number) number (stripChars l)).lines env draws (number + 1) ls

end Scan

/-- Line `n` draws its defaults from `draws n`. -/
def verifyLogIntegrity (env : Env) (draws : Nat → Draw) (file : Option (List Char)) : Report :=
  match file with
  | none => ⟨.noLogFile, 0, [], none⟩
  | some text =>
    let scan := Scan.lines env draws {} 1 (fileLines text)
    ⟨if scan.violations.isEmpty then .verified else .violationsFound, scan.verifiedCount,
      scan.violations, some scan.previousHash⟩

/-! ### Chains -/

def decoded (env : Env) (draws : Nat → Draw) (number : Nat) : List (List Char) → List (Option AuditEvent)
  | [] => []
  | l :: ls =>
    if stripChars l = [] then decoded env draws (number + 1) ls
    else AuditEvent.ofLine env (draws number) (stripChars l) :: decoded env draws (number + 1) ls

def storedEvents (env : Env) (draws : Nat → Draw) (text : List Char) : List AuditEvent :=
  (decoded env draws 1 (fileLines text)).reduceOption

/-- Every event carries its own hash, and names the hash before it where there is one. -/
def Chained (env : Env) : Value → List AuditEvent → Prop
  | _, [] => True
  | last, e :: es =>
    (last.truthy = true → e.previousHash.pyEq last = true) ∧ e.verifyIntegrity env = some true ∧
      Chained env e.eventHash es

def lastHashOf (last : Value) (es : List AuditEvent) : Value := es.getLast?.elim last (·.eventHash)

variable {env : Env} {draws : Nat → Draw}

@[simp] theorem lastHashOf_nil (last : Value) : lastHashOf last [] = last := rfl

@[simp] theorem lastHashOf_cons (last : Value) (e : AuditEvent) (es : List AuditEvent) :
    lastHashOf last (e :: es) = lastHashOf e.eventHash es := by
  cases es <;> simp [lastHashOf, List.getLast?_cons]

theorem lastHashOf_append (last : Value) (es : List AuditEvent) (e : AuditEvent) :
    lastHashOf last (es ++ [e]) = e.eventHash := by
  simp [lastHashOf]

theorem chained_append {last : Value} {es fs : List AuditEvent} :
    Chained env last (es ++ fs) ↔ Chained env last es ∧ Chained env (lastHashOf last es) fs := by
  induction es generalizing last with
  | nil => simp [Chained]
  | cons e es ih => simp [Chained, ih, and_assoc]

theorem chained_verifies {last : Value} {es : List AuditEvent} (chain : Chained env last es) :
    ∀ e ∈ es, e.verifyIntegrity env = some true := by
  induction es generalizing last with
  | nil => simp
  | cons e es ih => exact List.forall_mem_cons.mpr ⟨chain.2.1, ih chain.2.2⟩

theorem exists_line_of_decoded {number : Nat} {ls : List (List Char)} {read : Option AuditEvent}
    (h : read ∈ decoded env draws number ls) :
    ∃ draw, ∃ l ∈ ls, read = AuditEvent.ofLine env draw (stripChars l) := by
  induction ls generalizing number with
  | nil => cases h
  | cons l ls ih =>
    have later : read ∈ decoded env draws (number + 1) ls →
        ∃ draw, ∃ l' ∈ l :: ls, read = AuditEvent.ofLine env draw (stripChars l') := by
      intro h
      obtain ⟨draw, l', mem, here⟩ := ih h
      exact ⟨draw, l', List.mem_cons_of_mem _ mem, here⟩
    unfold decoded at h
    split at h
    · exact later h
    · rcases List.mem_cons.mp h with here | rest
      · exact ⟨_, l, List.mem_cons_self, here⟩
      · exact later rest

theorem exists_line_of_stored {text : List Char} {e : AuditEvent}
    (h : e ∈ storedEvents env draws text) :
    ∃ draw, ∃ l ∈ fileLines text, AuditEvent.ofLine env draw (stripChars l) = some e := by
  obtain ⟨draw, l, mem, read⟩ := exists_line_of_decoded (List.reduceOption_mem_iff.mp h)
  exact ⟨draw, l, mem, read.symm⟩

theorem mem_stored_of_line {text line : List Char} {e : AuditEvent} (mem : line ∈ fileLines text)
    (read : ∀ draw, AuditEvent.ofLine env draw (stripChars line) = some e) :
    e ∈ storedEvents env draws text := by
  have decodes : ∀ (ls : List (List Char)) (number : Nat), line ∈ ls →
      some e ∈ decoded env draws number ls := by
    intro ls number h
    induction ls generalizing number with
    | nil => cases h
    | cons l ls ih =>
      unfold decoded
      split
      · rename_i blank
        rcases List.mem_cons.mp h with rfl | later
        · have nothing := read ⟨"", .nan⟩
          rw [blank] at nothing
          cases nothing
        · exact ih (number + 1) later
      · rcases List.mem_cons.mp h with rfl | later
        · rw [read]
          exact List.mem_cons_self
        · exact List.mem_cons_of_mem _ (ih (number + 1) later)
  exact List.reduceOption_mem_iff.mpr (decodes _ 1 mem)

theorem storedEvents_of_decoded {text : List Char} {es : List AuditEvent}
    (read : decoded env draws 1 (fileLines text) = es.map some) : storedEvents env draws text = es := by
  simp [storedEvents, read, List.reduceOption]

/-! ### What the verifier accepts -/

namespace Scan

theorem violation_ne (scan : Scan) (v : Violation) : (scan.violation v).violations ≠ [] := by
  simp [violation]

theorem checkChain_grows (scan : Scan) (number : Nat) (e : AuditEvent) :
    scan.violations <+: (scan.checkChain number e).violations := by
  unfold checkChain
  split
  · exact List.prefix_append _ _
  · exact List.prefix_rfl

theorem line_grows (scan : Scan) (draw : Draw) (number : Nat) (l : List Char) :
    scan.violations <+: (scan.line env draw number l).violations := by
  unfold line
  split
  · exact List.prefix_rfl
  · split
    · exact List.prefix_append _ _
    · have chain := scan.checkChain_grows number
      split
      · exact (chain _).trans (List.prefix_append _ _)
      · split
        · exact chain _
        · exact (chain _).trans (List.prefix_append _ _)

theorem lines_grow (scan : Scan) (number : Nat) (ls : List (List Char)) :
    scan.violations <+: (scan.lines env draws number ls).violations := by
  induction ls generalizing scan number with
  | nil => exact List.prefix_rfl
  | cons l ls ih => exact (scan.line_grows _ number _).trans (ih _ _)

theorem line_clean {scan : Scan} {draw : Draw} {number : Nat} {l : List Char} (solid : l ≠ [])
    (clean : (scan.line env draw number l).violations = []) :
    ∃ e, AuditEvent.ofLine env draw l = some e ∧
      (scan.previousHash.truthy = true → e.previousHash.pyEq scan.previousHash = true) ∧
      e.verifyIntegrity env = some true := by
  unfold line at clean
  rw [if_neg solid] at clean
  split at clean
  · exact absurd clean (violation_ne _ _)
  · rename_i e read
    refine ⟨e, read, ?_⟩
    split at clean
    · exact absurd clean (violation_ne _ _)
    · rename_i ok verified
      dsimp only at clean
      split at clean
      · rename_i good
        refine ⟨?_, by rw [verified, good]⟩
        intro truthy
        by_contra broken
        unfold checkChain at clean
        rw [if_pos (by simp [truthy, broken])] at clean
        exact violation_ne _ _ clean
      · exact absurd clean (violation_ne _ _)

theorem line_chained {scan : Scan} {draw : Draw} {number : Nat} {l : List Char} {e : AuditEvent}
    (solid : l ≠ []) (read : AuditEvent.ofLine env draw l = some e)
    (linked : scan.previousHash.truthy = true → e.previousHash.pyEq scan.previousHash = true)
    (verified : e.verifyIntegrity env = some true) :
    scan.line env draw number l =
      { scan with verifiedCount := scan.verifiedCount + 1, previousHash := e.eventHash } := by
  have unbroken : scan.checkChain number e = scan := by
    unfold checkChain
    rw [if_neg]
    simpa using linked
  simp [line, solid, read, verified, unbroken]

theorem lines_chained (scan : Scan) {number : Nat} {ls : List (List Char)} {es : List AuditEvent}
    (read : decoded env draws number ls = es.map some) (chain : Chained env scan.previousHash es) :
    scan.lines env draws number ls =
      { scan with
        verifiedCount := scan.verifiedCount + es.length
        previousHash := lastHashOf scan.previousHash es } := by
  induction ls generalizing scan number es with
  | nil =>
    obtain rfl : es = [] := by simpa [decoded] using read.symm
    rfl
  | cons l ls ih =>
    unfold decoded at read
    split at read
    · rename_i blank
      unfold lines
      rw [line, if_pos blank, ih _ read chain]
    · rename_i solid
      cases es with
      | nil => cases read
      | cons e es =>
        obtain ⟨first, rest⟩ := List.cons.inj read
        obtain ⟨linked, verified, chain⟩ := chain
        unfold lines
        rw [line_chained solid first linked verified, ih _ rest chain]
        simp [Nat.add_assoc, Nat.add_comm 1]

theorem lines_clean {scan : Scan} {number : Nat} {ls : List (List Char)}
    (clean : (scan.lines env draws number ls).violations = []) :
    ∃ es, decoded env draws number ls = es.map some ∧ Chained env scan.previousHash es := by
  induction ls generalizing scan number with
  | nil => exact ⟨[], rfl, trivial⟩
  | cons l ls ih =>
    unfold lines at clean
    obtain ⟨es, read, chain⟩ := ih clean
    have here : (scan.line env (draws number) number (stripChars l)).violations = [] :=
      List.prefix_nil.mp (clean ▸ lines_grow _ _ _)
    by_cases blank : stripChars l = []
    · unfold line at chain
      rw [if_pos blank] at chain
      exact ⟨es, by rw [decoded, if_pos blank, read], chain⟩
    · obtain ⟨e, first, linked, verified⟩ := line_clean blank here
      rw [line_chained blank first linked verified] at chain
      exact ⟨e :: es, by rw [decoded, if_neg blank, first, read]; rfl, linked, verified, chain⟩

end Scan

/-- The verifier accepts exactly the files whose lines hold a chain. -/
theorem verified_iff {text : List Char} :
    (verifyLogIntegrity env draws (some text)).status = .verified ↔
      ∃ es, decoded env draws 1 (fileLines text) = es.map some ∧ Chained env .none es := by
  have verdict : (verifyLogIntegrity env draws (some text)).status = .verified ↔
      (Scan.lines env draws {} 1 (fileLines text)).violations = [] := by
    simp [verifyLogIntegrity]
  rw [verdict]
  constructor
  · exact Scan.lines_clean
  · rintro ⟨es, read, chain⟩
    rw [Scan.lines_chained _ read chain]

theorem verify_chained {text : List Char} {es : List AuditEvent}
    (read : decoded env draws 1 (fileLines text) = es.map some) (chain : Chained env .none es) :
    verifyLogIntegrity env draws (some text) =
      ⟨.verified, es.length, [], some (lastHashOf .none es)⟩ := by
  have scanned := Scan.lines_chained {} read chain
  simp [verifyLogIntegrity, scanned]

end BtApiSecurity.Audit
