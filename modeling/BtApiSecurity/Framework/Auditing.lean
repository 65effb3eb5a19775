import BtApiSecurity.Audit.Event
import BtApiSecurity.Py.Method
import BtApiSecurity.Py.Repr

/-!
# The audit decorator

A function under `audit_access` logs an event before it is called and one after it has
ended. What goes wrong while the second event is logged is handled as if the function
had raised it.
-/

namespace BtApiSecurity.Framework
open Py Audit

/-- How an attempt to log an event ends; to build the event is a part of it. A logger that raises may
have recorded the event before. -/
inductive Attempt (ε : Type) where
  | returns
  | raises (recorded : Bool) (exception : ε)

/-- The objects and the exceptions of a program, and how its attempts to log end, one after the
other. -/
structure Runtime (ω ε : Type) where
  str : String → ω
  repr : ω → List Char
  printable : Char → Bool
  isException : ε → Bool
  text : ε → String
  attempt : Nat → Attempt ε

structure AccessEvent (ω : Type) where
  eventType : EventType
  userId : ω
  severity : SeverityLevel
  resource : String
  action : String
  outcome : String := "success"
  details : Dict String String := .empty

/-- The number of attempts so far, and the events that were recorded. -/
structure Journal (ω : Type) where
  attempts : Nat
  events : List (AccessEvent ω)

/-- The arguments of the decorator, the `__name__` of the function, and the arguments of the call. -/
structure Access (ω : Type) where
  eventType : EventType
  severity : SeverityLevel := .medium
  name : String
  args : List ω
  kwargs : Dict String ω

abbrev Code (ω ε α : Type) := Method (Journal ω) ε α

section
variable {ω ε α : Type} (env : Runtime ω ε)

/-! ### Events -/

/-- `str(args)`. -/
def argsText (args : List ω) : String :=
  String.ofList ('(' :: ([',', ' '].intercalate (args.map env.repr) ++
    if args.length = 1 then [',', ')'] else [')']))

/-- `str(kwargs)`. -/
def kwargsText (kwargs : Dict String ω) : String :=
  String.ofList ('{' :: ([',', ' '].intercalate (kwargs.entries.map fun (key, x) =>
    reprText env.printable key.toList ++ ':' :: ' ' :: env.repr x) ++ ['}']))

namespace Access

def userId (access : Access ω) : ω := (access.kwargs.get? "user_id").getD (env.str "anonymous")

def before (access : Access ω) : AccessEvent ω :=
  { eventType := access.eventType
    userId := access.userId env
    severity := access.severity
    resource := access.name
    action := "execute"
    details := (Dict.empty.set "args" (argsText env access.args)).set "kwargs" (kwargsText env access.kwargs) }

def success (access : Access ω) : AccessEvent ω :=
  { eventType := access.eventType
    userId := access.userId env
    severity := access.severity
    resource := access.name
    action := "success"
    outcome := "success" }

def failure (access : Access ω) (exception : ε) : AccessEvent ω :=
  { eventType := access.eventType
    userId := access.userId env
    severity := .high
    resource := access.name
    action := "error"
    outcome := "failure"
    details := Dict.empty.set "error" (env.text exception) }

end Access

/-! ### The decorator -/

def logEvent (event : AccessEvent ω) : Code ω ε Unit := fun s =>
  match env.attempt s.attempts with
  | .returns => (.ok (), ⟨s.attempts + 1, s.events ++ [event]⟩)
  | .raises recorded exception =>
    (.error exception, ⟨s.attempts + 1, if recorded then s.events ++ [event] else s.events⟩)

/-- `try: .. except Exception as e: ..` -/
def exceptException (body : Code ω ε α) (handler : ε → Code ω ε α) : Code ω ε α := fun s =>
  match body.run s with
  | (.ok a, t) => (.ok a, t)
  | (.error exception, t) =>
    if env.isException exception then (handler exception).run t else (.error exception, t)

def auditAccess (access : Access ω) (func : Code ω ε ω) : Code ω ε ω := do
  logEvent env (access.before env)
  exceptException env
    (do
      let result ← func
      logEvent env (access.success env)
      return result)
    (fun exception => do
      logEvent env (access.failure env exception)
      .check (.error exception))

/-- Without a framework the function is called as it is. -/
def auditWrapper (framework : Bool) (access : Access ω) (func : Code ω ε ω) : Code ω ε ω :=
  if framework then auditAccess env access func else func

end

/-! ### Programs -/

/-- What a function does: it ends, it logs an event of its own, or it calls a function under
`audit_access` and goes on with what the caller receives. -/
inductive Program (ω ε : Type) where
  | ends (ending : Except ε ω)
  | logs (event : AccessEvent ω) (next : Except ε Unit → Program ω ε)
  | calls (framework : Bool) (access : Access ω) (body : Program ω ε) (next : Except ε ω → Program ω ε)

/-- A call of a function under `audit_access`, with the framework initialised. -/
structure Invocation (ω ε : Type) where
  access : Access ω
  func : Code ω ε ω
  start : Journal ω

section
variable {ω ε : Type} (env : Runtime ω ε)

def Program.run : Program ω ε → Code ω ε ω
  | .ends ending => .check ending
  | .logs event next => fun s =>
    let logged := (logEvent env event).run s
    Method.run (Program.run (next logged.1)) logged.2
  | .calls framework access body next => fun s =>
    let called := (auditWrapper env framework access body.run).run s
    Method.run (Program.run (next called.1)) called.2

/-- The invocations of a program in the order in which they start, those within others included. -/
def Program.invocations : Program ω ε → Journal ω → List (Invocation ω ε)
  | .ends _, _ => []
  | .logs event next, s =>
    let logged := (logEvent env event).run s
    (next logged.1).invocations logged.2
  | .calls framework access body next, s =>
    let called := (auditWrapper env framework access (body.run env)).run s
    let within :=
      if framework then
        ⟨access, body.run env, s⟩ ::
          match (logEvent env (access.before env)).run s with
          | (.ok _, t) => body.invocations t
          | (.error _, _) => []
      else body.invocations s
    within ++ (next called.1).invocations called.2

end

end BtApiSecurity.Framework
