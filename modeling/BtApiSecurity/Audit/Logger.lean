import BtApiSecurity.Audit.Event

/-!
# The audit logger

One log file and the logger that appends to it, restarts, and the verifier.
Callbacks may do anything with the logger while they are notified: what they do
is part of the run.
-/

namespace BtApiSecurity.Audit
open Py

structure AuditLogger (κ : Type) where
  lastHash : Value
  events : List AuditEvent
  subscribers : List κ
  enableRealTime : Bool

/-- The file (`none` where there is none), the logger, and what became of every call of
`log_event`: the event as it was written, or `none` where the call raised. -/
structure World (κ : Type) where
  file : Option (List Char)
  logger : AuditLogger κ
  calls : List (Option AuditEvent)

variable {κ : Type} {α : Type}

/-! ### Opening a log -/

/-- `_load_last_hash`, where the last line meets no limit of the interpreter; `none` is the
`AttributeError` for a last line that is no dictionary. -/
def loadLastHash : Option (List Char) → Option Value
  | none => some .none
  | some text =>
    match (fileLines text).getLast? with
    | none => some .none
    | some line =>
      if stripChars line = [] then some .none
      else match loads (stripChars line) with
        | none => some .none
        | some (.dict items) => some ((find (.str "event_hash") items).getD .none)
        | some _ => none

def openLogger (file : Option (List Char)) (enableRealTime : Bool) : Option (AuditLogger κ) :=
  (loadLastHash file).map fun lastHash => ⟨lastHash, [], [], enableRealTime⟩

/-! ### Compliance tags -/

def soxEvents : List EventType := [.orderCreated, .orderExecuted, .tradeSettled, .balanceAdjustment]

def mifidEvents : List EventType := [.orderCreated, .orderModified, .orderCancelled, .orderExecuted]

def pciEvents : List EventType := [.paymentProcessed, .accountCreation, .dataAccessed]

def gdprEvents : List EventType := [.dataAccessed, .dataExported, .dataDeleted, .userLogin]

def tagsOf (t : EventType) : List String :=
  (if t ∈ soxEvents then ["SOX"] else []) ++ (if t ∈ mifidEvents then ["MIFID_II"] else []) ++
    (if t ∈ pciEvents then ["PCI_DSS"] else []) ++ (if t ∈ gdprEvents then ["GDPR"] else [])

namespace AuditEvent

/-- `none` is the `AttributeError` of tags that are no list. -/
def addComplianceTags (e : AuditEvent) : Option AuditEvent :=
  match e.eventType with
  | .other _ => some e
  | .member t =>
    match tagsOf t, e.complianceTags with
    | [], _ => some e
    | tags, .list xs => some { e with complianceTags := .list (xs ++ tags.map .str) }
    | _, _ => none

def sealed (env : Env) (last : Value) (e : AuditEvent) : Option (AuditEvent × List Char) := do
  let e ← addComplianceTags { e with previousHash := last }
  let hash ← e.calculateHash env
  let e := { e with eventHash := .str hash }
  let data ← e.toDict
  return (e, dumps data)

end AuditEvent

/-! ### Logging -/

namespace World

def append (w : World κ) (e : AuditEvent) (line : List Char) : World κ :=
  { file := some (w.file.getD [] ++ (line ++ ['\n']))
    logger := { w.logger with lastHash := e.eventHash, events := w.logger.events ++ [e] }
    calls := w.calls ++ [some e] }

def failed (w : World κ) : World κ := { w with calls := w.calls ++ [none] }

def withSubscribers (w : World κ) (subscribers : List κ) : World κ :=
  { w with logger := { w.logger with subscribers } }

end World

/-- A callback returns, raises an `Exception`, or raises what `suppress(Exception)` lets pass. -/
inductive Ending where
  | returns
  | raises
  | aborts
  deriving DecidableEq

mutual

/-- What is done with a logger. The reactions to a logged event are those of the callbacks, in the
order in which they are called; callbacks without a reaction do nothing. -/
inductive Action (κ α : Type) where
  | log (event : α) (reactions : List (Reaction κ α))
  | subscribe (callback : κ)
  | unsubscribe (callback : κ)

inductive Reaction (κ α : Type) where
  | mk (actions : List (Action κ α)) (ending : Ending)

end

section
variable [DecidableEq κ] (env : Env) (args : α → EventArgs)

mutual

def Action.run (w : World κ) : Action κ α → World κ
  | .log a reactions =>
    match (args a).event.sealed env w.logger.lastHash with
    | none => w.failed
    | some (e, line) =>
      if w.logger.enableRealTime then notifySubscribers 0 (w.append e line) reactions
      else w.append e line
  | .subscribe callback => w.withSubscribers (w.logger.subscribers ++ [callback])
  | .unsubscribe callback => w.withSubscribers (w.logger.subscribers.erase callback)

def runActions (w : World κ) : List (Action κ α) → World κ
  | [] => w
  | action :: actions => runActions (action.run w) actions

/-- The loop goes through the list as it stands at each turn. -/
def notifySubscribers (i : Nat) (w : World κ) : List (Reaction κ α) → World κ
  | [] => w
  | .mk actions ending :: reactions =>
    if i < w.logger.subscribers.length then
      if ending = .aborts then runActions w actions
      else notifySubscribers (i + 1) (runActions w actions) reactions
    else w

end

inductive Step (κ α : Type) where
  | act (action : Action κ α)
  | restart (enableRealTime : Bool)

def Step.run (w : World κ) : Step κ α → World κ
  | .act action => action.run env args w
  | .restart enableRealTime =>
    match openLogger w.file enableRealTime with
    | none => w
    | some logger => { w with logger }

def runSteps (w : World κ) (steps : List (Step κ α)) : World κ := steps.foldl (Step.run env args) w

end

def World.start (file : Option (List Char)) (enableRealTime : Bool) : World κ :=
  ⟨file, ⟨.none, [], [], enableRealTime⟩, []⟩

/-! ### Runs -/

variable [DecidableEq κ] {env : Env} {args : α → EventArgs} {P : World κ → Prop}

/-- What is kept by a write, by a call that raises, by a change of subscribers and by a restart. -/
structure Kept (env : Env) (args : α → EventArgs) (P : World κ → Prop) : Prop where
  append : ∀ {w a e line}, (args a).event.sealed env w.logger.lastHash = some (e, line) → P w →
    P (w.append e line)
  failed : ∀ {w a}, (args a).event.sealed env w.logger.lastHash = none → P w → P w.failed
  withSubscribers : ∀ {w subscribers}, P w → P (w.withSubscribers subscribers)
  restart : ∀ {w enableRealTime logger}, openLogger w.file enableRealTime = some logger → P w →
    P { w with logger }

namespace Kept

mutual

theorem action (kept : Kept env args P) {w : World κ} (h : P w) :
    ∀ action : Action κ α, P (action.run env args w)
  | .log a reactions => by
    unfold Action.run
    split
    · rename_i raised
      exact kept.failed raised h
    · rename_i e line written
      split
      · exact kept.notify 0 (kept.append written h) reactions
      · exact kept.append written h
  | .subscribe callback => kept.withSubscribers h
  | .unsubscribe callback => kept.withSubscribers h

theorem actions (kept : Kept env args P) {w : World κ} (h : P w) :
    ∀ actions : List (Action κ α), P (runActions env args w actions)
  | [] => h
  | action :: rest => kept.actions (kept.action h action) rest

theorem notify (kept : Kept env args P) (i : Nat) {w : World κ} (h : P w) :
    ∀ reactions : List (Reaction κ α), P (notifySubscribers env args i w reactions)
  | [] => h
  | .mk actions ending :: rest => by
    unfold notifySubscribers
    split
    · split
      · exact kept.actions h actions
      · exact kept.notify (i + 1) (kept.actions h actions) rest
    · exact h

end

theorem step (kept : Kept env args P) {w : World κ} (h : P w) (step : Step κ α) :
    P (step.run env args w) := by
  cases step with
  | act action => exact kept.action h action
  | restart enableRealTime =>
    rw [Step.run]
    split
    · exact h
    · rename_i logger opened
      exact kept.restart opened h

theorem run (kept : Kept env args P) {w : World κ} (h : P w) (steps : List (Step κ α)) :
    P (runSteps env args w steps) := by
  induction steps generalizing w with
  | nil => exact h
  | cons step rest ih => exact ih (kept.step h step)

end Kept

end BtApiSecurity.Audit
