import BtApiSecurity.Framework.Stacking
import Mathlib.Data.List.ReduceOption

/-!
# The integrated API

`integrate_with_bt_api` puts a function in the place of `create_feed`, which checks the
`user_id` of a call, logs it, and takes it out of the call. What stands behind it is never
told whose call it is.
-/

namespace BtApiSecurity.Framework
open Py Audit BtApiSecurity.Access

/-- The event of a call; its details are the arguments as objects. -/
structure FeedEvent (ω : Type) where
  eventType : EventType := .userLogin
  userId : Argument ω
  resource : String := "exchange_feed"
  action : String := "create"
  args : List (Argument ω)
  kwargs : Dict String (Argument ω)

abbrev Feed (σ ω ε : Type) := Call (Argument ω) → Method σ (Raised ε) (Argument ω)

/-- What is used of a framework, in the state of the program; to build an event is a part of
`logEvent`. -/
structure SecurityFramework (σ ω ε : Type) where
  accessControl : σ → AccessControlManager
  now : σ → Time
  logEvent : FeedEvent ω → Method σ (Raised ε) Unit

structure BtApi (σ ω ε : Type) where
  createFeed : Feed σ ω ε
  security : Option (SecurityFramework σ ω ε)

def feedRequirement : Requirement := ⟨.exchangeConfig, "create", .write⟩

/-- The call as it goes on: `kwargs.pop("user_id", None)`. -/
def unnamed {ω : Type} (call : Call (Argument ω)) : Call (Argument ω) :=
  ⟨call.args, call.kwargs.erase "user_id"⟩

section
variable {σ ω ε : Type} (objects : Objects ω ε) (env : BtApiSecurity.Access.Env)

/-- The event that a call is logged with, if it names a user. -/
def admitFeed (m : AccessControlManager) (now : Time) (call : Call (Argument ω)) :
    Except (Raised ε) (Option (FeedEvent ω)) :=
  match call.kwargs.get? "user_id" with
  | none => .ok none
  | some userId => do
    let truthy ← (userId.truthy objects).mapError .other
    if truthy then
      requireUser objects env m now feedRequirement userId
      return some { userId, args := (unnamed call).args, kwargs := (unnamed call).kwargs }
    else return none

def secureCreateFeed (framework : SecurityFramework σ ω ε) (original : Feed σ ω ε) : Feed σ ω ε :=
  fun call => do
    let s ← .read
    let event ← .check (admitFeed objects env (framework.accessControl s) (framework.now s) call)
    match event with
    | some event => framework.logEvent event
    | none => pure ()
    original (unnamed call)

/-- An error is the text of a `RuntimeError`. -/
def integrateWithBtApi (framework : Option (SecurityFramework σ ω ε)) (api : BtApi σ ω ε) :
    Except String (BtApi σ ω ε) := do
  let framework ← orRaise framework "Security framework not initialized"
  return ⟨secureCreateFeed objects env framework api.createFeed, some framework⟩

/-- An instance that is integrated time after time, each time with the framework that there is then. -/
def integrateAll (api : BtApi σ ω ε) (frameworks : List (Option (SecurityFramework σ ω ε))) :
    BtApi σ ω ε :=
  frameworks.foldl (fun api framework =>
    match integrateWithBtApi objects env framework api with
    | .ok integrated => integrated
    | .error _ => api) api

variable {objects env}

/-! ### Calls that name nobody -/

theorem unnamed_absent (call : Call (Argument ω)) : (unnamed call).kwargs.get? "user_id" = none :=
  Dict.get?_erase_self _ _

theorem unnamed_of_absent {call : Call (Argument ω)} (absent : call.kwargs.get? "user_id" = none) :
    unnamed call = call := by
  rw [unnamed, Dict.erase_of_absent absent]

theorem secureCreateFeed_of_absent (framework : SecurityFramework σ ω ε) (original : Feed σ ω ε)
    {call : Call (Argument ω)} (absent : call.kwargs.get? "user_id" = none) :
    secureCreateFeed objects env framework original call = original call := by
  funext s
  have admitted : admitFeed objects env (framework.accessControl s) (framework.now s) call = .ok none := by
    rw [admitFeed, absent]
  show ((secureCreateFeed objects env framework original call).run s) = (original call).run s
  rw [secureCreateFeed, Method.run_bind, Method.run_read]
  simp only [admitted, Method.check_ok_bind, unnamed_of_absent absent]

/-- What a framework is put in front of sees no call that names a user. -/
theorem secureCreateFeed_congr (framework : SecurityFramework σ ω ε) {original original' : Feed σ ω ε}
    (alike : ∀ call, original (unnamed call) = original' (unnamed call)) :
    secureCreateFeed objects env framework original = secureCreateFeed objects env framework original' := by
  funext call
  rw [secureCreateFeed, secureCreateFeed, alike]

theorem secureCreateFeed_twice (framework earlier : SecurityFramework σ ω ε) (original : Feed σ ω ε) :
    secureCreateFeed objects env framework (secureCreateFeed objects env earlier original) =
      secureCreateFeed objects env framework original :=
  secureCreateFeed_congr framework fun call => secureCreateFeed_of_absent earlier original (unnamed_absent call)

/-! ### Integration after integration -/

theorem integrateAll_concat (api : BtApi σ ω ε) (frameworks : List (Option (SecurityFramework σ ω ε)))
    (framework : Option (SecurityFramework σ ω ε)) :
    integrateAll objects env api (frameworks ++ [framework]) =
      framework.elim (integrateAll objects env api frameworks) fun framework =>
        ⟨secureCreateFeed objects env framework (integrateAll objects env api frameworks).createFeed,
          some framework⟩ := by
  rw [integrateAll, List.foldl_append]
  cases framework <;> rfl

theorem createFeed_integrateAll (api : BtApi σ ω ε) (frameworks : List (Option (SecurityFramework σ ω ε))) :
    (integrateAll objects env api frameworks).createFeed =
      frameworks.reduceOption.getLast?.elim api.createFeed fun framework =>
        secureCreateFeed objects env framework api.createFeed := by
  induction frameworks using List.reverseRecOn with
  | nil => rfl
  | append_singleton earlier framework ih =>
    rw [integrateAll_concat, List.reduceOption_append]
    cases framework with
    | none =>
      simp only [Option.elim_none, List.reduceOption_cons_of_none, List.reduceOption_nil, List.append_nil]
      exact ih
    | some framework =>
      simp only [Option.elim_some, List.reduceOption_cons_of_some, List.reduceOption_nil,
        List.getLast?_concat, ih]
      cases earlier.reduceOption.getLast? with
      | none => rfl
      | some last => exact secureCreateFeed_twice framework last api.createFeed

end

/-! ### A decorated function behind the integration -/

section
variable {ω ε : Type} {objects : Objects ω ε} {env : BtApiSecurity.Access.Env}
  {runtime : Runtime (Argument ω) (Raised ε)}

theorem check_unnamed (call : Call (Argument ω)) (decorator : Decorator) :
    decorator.check objects env (unnamed call) = .ok () := by
  cases decorator with
  | auditAccess => rfl
  | requirePermission framework now needs =>
    cases framework with
    | none => rfl
    | some m => rw [Decorator.check, checkFramework, checkUser, unnamed_absent]

theorem kwargs_of_mem_audits {name : String} {call : Call (Argument ω)} {decorators : List Decorator}
    {access : Access (Argument ω)} (mem : access ∈ audits name call decorators) :
    access.kwargs = call.kwargs := by
  induction decorators with
  | nil => cases mem
  | cons decorator rest ih =>
    cases decorator with
    | requirePermission => exact ih mem
    | auditAccess framework eventType severity =>
      rw [audits] at mem
      cases framework with
      | false => exact ih mem
      | true =>
        obtain rfl | later := List.mem_cons.mp mem
        · rfl
        · exact ih later

theorem anonymous_of_mem_audits {name : String} (call : Call (Argument ω)) {decorators : List Decorator}
    {access : Access (Argument ω)} (mem : access ∈ audits name (unnamed call) decorators) :
    access.userId runtime = runtime.str "anonymous" := by
  rw [Access.userId, kwargs_of_mem_audits mem, unnamed_absent]
  rfl

/-- However often the API has been integrated, only the last framework checks and logs a call. The function's
own permission checks let every call through, and its own audits record somebody anonymous. -/
theorem integrated_createFeed (f : Callable ω ε) (decorators : List Decorator)
    (security : Option (SecurityFramework (Journal (Argument ω)) ω ε))
    (frameworks : List (Option (SecurityFramework (Journal (Argument ω)) ω ε)))
    {framework : SecurityFramework (Journal (Argument ω)) ω ε}
    (last : frameworks.reduceOption.getLast? = some framework) :
    (integrateAll objects env ⟨(decorate objects env runtime f decorators).call, security⟩
        frameworks).createFeed =
      (secureCreateFeed objects env framework fun call =>
        (audits f.name call decorators).foldr (auditAccess runtime) (f.call call)) ∧
      ∀ call, ∀ access ∈ audits f.name (unnamed call) decorators,
        access.userId runtime = runtime.str "anonymous" := by
  refine ⟨?_, fun call access => anonymous_of_mem_audits call⟩
  rw [createFeed_integrateAll, last, Option.elim_some]
  apply secureCreateFeed_congr
  intro call
  have passes : ∀ decorator ∈ decorators, decorator.check objects env (unnamed call) = .ok () :=
    fun decorator _ => check_unnamed call decorator
  exact (call_decorate objects env runtime f (unnamed call) decorators).trans (by rw [wayIn_passed passes]; rfl)

end

/-! ### Two integrations -/

/-- A framework that knows nobody, and logs to nowhere. -/
def sampleFramework : SecurityFramework (Journal (Argument Empty)) Empty Empty where
  accessControl _ := .new AccessControlManager.sampleEnv 0
  now _ := 0
  logEvent _ := pure ()

theorem integrated_twice :
    (integrateAll noObjects AccessControlManager.sampleEnv
        ⟨(decorate noObjects AccessControlManager.sampleEnv sampleRuntime
          ⟨"create_feed", fun _ => pure (.str "feed")⟩ sampleDecorators).call, none⟩
        [some sampleFramework, none, some sampleFramework]).createFeed =
      (secureCreateFeed noObjects AccessControlManager.sampleEnv sampleFramework fun call =>
        (audits "create_feed" call sampleDecorators).foldr (auditAccess sampleRuntime)
          (pure (.str "feed"))) ∧
      ∀ call, ∀ access ∈ audits "create_feed" (unnamed call) sampleDecorators,
        access.userId sampleRuntime = .str "anonymous" :=
  integrated_createFeed _ _ _ _ rfl

end BtApiSecurity.Framework
