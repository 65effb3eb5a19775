import BtApiSecurity.Framework.Outcomes
import BtApiSecurity.Framework.Permissions

/-!
# Decorators over decorators

A function may be decorated any number of times. A call passes the decorators from the
outermost to the innermost. A check that raises turns it back there, and only what
stands further out records that. A decorated function is called `wrapper`, so an event
names the function only if nothing stands between the two.
-/

namespace BtApiSecurity.Framework
open Py Audit BtApiSecurity.Access

/-- A function as its caller has it: its `__name__`, and what a call of it does. -/
structure Callable (ω ε : Type) where
  name : String
  call : Call (Argument ω) → Code (Argument ω) (Raised ε) (Argument ω)

/-- A decorator, with what it finds of the framework and on the clock when the function is called. -/
inductive Decorator where
  | requirePermission (framework : Option AccessControlManager) (now : Time) (needs : Requirement)
  | auditAccess (framework : Bool) (eventType : EventType) (severity : SeverityLevel)

section
variable {ω ε : Type} (objects : Objects ω ε) (env : BtApiSecurity.Access.Env) (runtime : Runtime (Argument ω) (Raised ε))

/-! ### Decorated functions -/

/-- The check of `require_permission`, if there is a framework. -/
def checkFramework (framework : Option AccessControlManager) (now : Time) (needs : Requirement)
    (call : Call (Argument ω)) : Except (Raised ε) Unit :=
  match framework with
  | none => .ok ()
  | some m => checkUser objects env m now needs call

def accessOf (eventType : EventType) (severity : SeverityLevel) (name : String)
    (call : Call (Argument ω)) : Access (Argument ω) :=
  ⟨eventType, severity, name, call.args, call.kwargs⟩

def Decorator.apply (f : Callable ω ε) : Decorator → Callable ω ε
  | .requirePermission framework now needs =>
    ⟨"wrapper", fun call => do
      .check (checkFramework objects env framework now needs call)
      f.call call⟩
  | .auditAccess framework eventType severity =>
    ⟨"wrapper", fun call =>
      auditWrapper runtime framework (accessOf eventType severity f.name call) (f.call call)⟩

/-- The first decorator is the outermost. -/
def decorate (f : Callable ω ε) (decorators : List Decorator) : Callable ω ε :=
  decorators.foldr (fun decorator inner => decorator.apply objects env runtime inner) f

/-- The wrapper of a function with a signature is the same decorator. -/
theorem apply_requirePermission (func : Function (Journal (Argument ω)) ω ε) (name : String)
    (framework : Option AccessControlManager) (now : Time) (needs : Requirement)
    (call : Call (Argument ω)) :
    ((Decorator.requirePermission framework now needs).apply objects env runtime
      ⟨name, func.call⟩).call call = wrapper objects env framework now needs func call := by
  cases framework <;> rfl

/-! ### The way in -/

def nameOf (name : String) (decorators : List Decorator) : String :=
  if decorators = [] then name else "wrapper"

theorem name_decorate (f : Callable ω ε) (decorators : List Decorator) :
    (decorate objects env runtime f decorators).name = nameOf f.name decorators := by
  cases decorators with
  | nil => rfl
  | cons decorator rest => cases decorator <;> rfl

/-- The accesses that are audited on the way of a call to the function, and the check that turns it back. -/
def wayIn (name : String) (call : Call (Argument ω)) :
    List Decorator → List (Access (Argument ω)) × Except (Raised ε) Unit
  | [] => ([], .ok ())
  | .requirePermission framework now needs :: rest =>
    match checkFramework objects env framework now needs call with
    | .ok _ => wayIn name call rest
    | .error raised => ([], .error raised)
  | .auditAccess framework eventType severity :: rest =>
    let way := wayIn name call rest
    if framework then (accessOf eventType severity (nameOf name rest) call :: way.1, way.2) else way

/-- What stands behind the last audit that a call reaches: the function, or a check that raises. -/
def reached (f : Callable ω ε) (call : Call (Argument ω)) (ending : Except (Raised ε) Unit) :
    Code (Argument ω) (Raised ε) (Argument ω) := do
  .check ending
  f.call call

/-- Whatever the order of the decorators, the call of the decorated function is that of the audits on its way
around what it reaches. -/
theorem call_decorate (f : Callable ω ε) (call : Call (Argument ω)) (decorators : List Decorator) :
    (decorate objects env runtime f decorators).call call =
      (wayIn objects env f.name call decorators).1.foldr (auditAccess runtime)
        (reached f call (wayIn objects env f.name call decorators).2) := by
  induction decorators with
  | nil => rfl
  | cons decorator rest ih =>
    cases decorator with
    | requirePermission framework now needs =>
      show (do
        Method.check (checkFramework objects env framework now needs call)
        (decorate objects env runtime f rest).call call) = _
      rw [wayIn]
      cases checkFramework objects env framework now needs call with
      | ok _ => exact ih
      | error raised => rfl
    | auditAccess framework eventType severity =>
      show auditWrapper runtime framework (accessOf eventType severity
        (decorate objects env runtime f rest).name call) ((decorate objects env runtime f rest).call call) = _
      rw [name_decorate, ih, wayIn]
      cases framework <;> rfl

end

/-! ### What is recorded -/

section
variable {ω ε : Type}

/-- Every attempt to log succeeds. -/
def Runtime.Logs (runtime : Runtime ω ε) : Prop := ∀ n, runtime.attempt n = .returns

def Journal.add (s : Journal ω) (new : List (AccessEvent ω)) : Journal ω :=
  ⟨s.attempts + new.length, s.events ++ new⟩

@[simp] theorem Journal.add_nil (s : Journal ω) : s.add [] = s := by
  rw [Journal.add, List.append_nil]
  rfl

@[simp] theorem Journal.add_add (s : Journal ω) (new more : List (AccessEvent ω)) :
    (s.add new).add more = s.add (new ++ more) := by
  simp only [Journal.add, List.length_append, List.append_assoc, Nat.add_assoc]

/-- What is recorded of an access after its function has ended. -/
def Access.completed (runtime : Runtime ω ε) (ending : Except ε ω) (access : Access ω) :
    List (AccessEvent ω) :=
  match ending with
  | .ok _ => [access.success runtime]
  | .error exception =>
    if runtime.isException exception then [access.failure runtime exception] else []

variable {runtime : Runtime ω ε} {s t : Journal ω} {ending : Except ε ω}

theorem run_auditAccess (logs : runtime.Logs) {access : Access ω} {func : Code ω ε ω}
    (ended : func.run (s.add [access.before runtime]) = (ending, t)) :
    (auditAccess runtime access func).run s = (ending, t.add (access.completed runtime ending)) := by
  let i : Invocation ω ε := ⟨access, func, s⟩
  have called : i.called runtime = (.ok (), s.add [access.before runtime]) :=
    logEvent_returns runtime (logs _)
  have left := left_completion runtime (congrArg Prod.fst called)
  have same : i.ended runtime = (ending, t) := by
    rw [Invocation.ended, called]
    exact ended
  rw [same] at left
  refine left.trans ?_
  cases ending with
  | ok result => exact completion_ok runtime (logs _)
  | error exception =>
    by_cases isException : runtime.isException exception = true
    · rw [Access.completed, if_pos isException]
      exact completion_failure runtime (logs _) isException
    · rw [Access.completed, if_neg isException, Journal.add_nil]
      exact completion_none runtime isException

/-- Audits around audits: the first events are in the order of the audits, the last ones in the opposite
order. -/
theorem run_audits (logs : runtime.Logs) {core : Code ω ε ω} (accesses : List (Access ω))
    (ended : core.run (s.add (accesses.map (·.before runtime))) = (ending, t)) :
    (accesses.foldr (auditAccess runtime) core).run s =
      (ending, t.add (accesses.reverse.flatMap (·.completed runtime ending))) := by
  induction accesses generalizing s t with
  | nil =>
    rw [List.map_nil, Journal.add_nil] at ended
    rw [List.reverse_nil, List.flatMap_nil, Journal.add_nil]
    exact ended
  | cons access rest ih =>
    have inner := ih (s := s.add [access.before runtime]) (by rwa [Journal.add_add])
    rw [List.foldr_cons, run_auditAccess logs inner, Journal.add_add, List.reverse_cons,
      List.flatMap_append, List.flatMap_singleton]

end

/-! ### Calls of decorated functions -/

section
variable {ω ε : Type} (objects : Objects ω ε) (env : BtApiSecurity.Access.Env)
  (runtime : Runtime (Argument ω) (Raised ε))

def Decorator.check (call : Call (Argument ω)) : Decorator → Except (Raised ε) Unit
  | .requirePermission framework now needs => checkFramework objects env framework now needs call
  | .auditAccess .. => .ok ()

/-- The audits among the decorators of a function of this name, with what each of them records a call as. -/
def audits (name : String) (call : Call (Argument ω)) : List Decorator → List (Access (Argument ω))
  | [] => []
  | .requirePermission .. :: rest => audits name call rest
  | .auditAccess framework eventType severity :: rest =>
    if framework then accessOf eventType severity (nameOf name rest) call :: audits name call rest
    else audits name call rest

variable {objects env runtime} {name : String} {call : Call (Argument ω)}

theorem wayIn_passed {decorators : List Decorator}
    (passes : ∀ decorator ∈ decorators, decorator.check objects env call = .ok ()) :
    wayIn objects env name call decorators = (audits name call decorators, .ok ()) := by
  induction decorators with
  | nil => rfl
  | cons decorator rest ih =>
    have way := ih fun decorator mem => passes decorator (List.mem_cons_of_mem _ mem)
    have first := passes decorator List.mem_cons_self
    cases decorator with
    | requirePermission framework now needs =>
      rw [Decorator.check] at first
      rw [wayIn, first]
      exact way
    | auditAccess framework eventType severity =>
      rw [wayIn, way, audits]
      cases framework <;> rfl

theorem nameOf_append_cons (outer inner : List Decorator) (decorator : Decorator) :
    nameOf name (outer ++ decorator :: inner) = nameOf "wrapper" outer := by
  cases outer with
  | nil => rfl
  | cons first rest => rfl

theorem wayIn_refused {outer inner : List Decorator} {decorator : Decorator} {raised : Raised ε}
    (passes : ∀ decorator ∈ outer, decorator.check objects env call = .ok ())
    (refuses : decorator.check objects env call = .error raised) :
    wayIn objects env name call (outer ++ decorator :: inner) =
      (audits "wrapper" call outer, .error raised) := by
  induction outer with
  | nil =>
    cases decorator with
    | requirePermission framework now needs =>
      rw [Decorator.check] at refuses
      rw [List.nil_append, wayIn, refuses]
      rfl
    | auditAccess framework eventType severity => cases refuses
  | cons first rest ih =>
    have way := ih fun decorator mem => passes decorator (List.mem_cons_of_mem _ mem)
    have passed := passes first List.mem_cons_self
    rw [List.cons_append]
    cases first with
    | requirePermission framework now needs =>
      rw [Decorator.check] at passed
      rw [wayIn, passed]
      exact way
    | auditAccess framework eventType severity =>
      rw [wayIn, way, audits, nameOf_append_cons]
      cases framework <;> rfl

variable (objects env runtime) in
/-- The call of a decorated function runs the function, with the audits around it, if every check passes.
Otherwise the first check that raises turns it back, and the audits that stand further out record that. -/
structure Layered (f : Callable ω ε) (decorators : List Decorator) (call : Call (Argument ω))
    (s : Journal (Argument ω)) : Prop where
  runs : (∀ decorator ∈ decorators, decorator.check objects env call = .ok ()) →
    ∀ {ending t},
      (f.call call).run (s.add ((audits f.name call decorators).map (·.before runtime))) = (ending, t) →
      ((decorate objects env runtime f decorators).call call).run s =
        (ending, t.add ((audits f.name call decorators).reverse.flatMap (·.completed runtime ending)))
  refused : ∀ {outer decorator inner raised}, decorators = outer ++ decorator :: inner →
    (∀ decorator ∈ outer, decorator.check objects env call = .ok ()) →
    decorator.check objects env call = .error raised →
    ((decorate objects env runtime f decorators).call call).run s =
      (.error raised, s.add ((audits "wrapper" call outer).map (·.before runtime) ++
        (audits "wrapper" call outer).reverse.flatMap (·.completed runtime (.error raised))))

theorem decorated_layered (logs : runtime.Logs) (f : Callable ω ε) (decorators : List Decorator)
    (call : Call (Argument ω)) (s : Journal (Argument ω)) :
    Layered objects env runtime f decorators call s := by
  constructor
  · intro passes ending t ended
    have way : wayIn objects env f.name call decorators = _ := wayIn_passed passes
    rw [call_decorate, way]
    exact run_audits logs _ ended
  · intro outer decorator inner raised split passes refuses
    have way : wayIn objects env f.name call (outer ++ decorator :: inner) = _ := wayIn_refused passes refuses
    rw [call_decorate, split, way, ← Journal.add_add]
    exact run_audits logs _ rfl

end

/-! ### An audit around a check -/

/-- Everything is logged, and nothing but texts are values. -/
def sampleRuntime : Runtime (Argument Empty) (Raised Empty) where
  str := .str
  repr
    | .str s => reprText (fun _ => true) s.toList
    | .object x => x.elim
  printable := fun _ => true
  isException := fun _ => true
  text
    | .access (.accessDenied userId resource action reason) => deniedMessage userId resource action reason
    | _ => ""
  attempt := fun _ => .returns

def sampleDecorators : List Decorator :=
  [.auditAccess true .configChange .medium, .requirePermission
    (some (.new AccessControlManager.sampleEnv 0)) 0 ⟨.exchangeConfig, "update", .admin⟩]

/-- Nobody is a user yet: the call is turned back, and there are two events of it. -/
theorem sampleDecorators_layered :
    Layered noObjects AccessControlManager.sampleEnv sampleRuntime
      ⟨"update_config", fun _ => pure (.str "updated")⟩ sampleDecorators
      ⟨[], Dict.empty.set "user_id" (.str "mallory")⟩ ⟨0, []⟩ :=
  decorated_layered (fun _ => rfl) _ _ _ _

end BtApiSecurity.Framework
