import BtApiSecurity.Access.Control
import BtApiSecurity.Py.Signature

/-!
# The permission decorator

A function under `require_permission` checks the `user_id` that its caller passes by
keyword. One that is passed by position, or that is empty, reaches the function unchecked.
-/

namespace BtApiSecurity.Framework
open Py Access

inductive Argument (ω : Type) where
  | str (s : String)
  | object (x : ω)

/-- What the check asks of an object that is not a `str`: its truth value, which text it equals as the key
of a `dict` if it can be hashed, and its text in a message. -/
structure Objects (ω ε : Type) where
  truthy : ω → Except ε Bool
  key : ω → Except ε (Option String)
  text : ω → String

inductive Raised (ε : Type) where
  | access (error : AccessError)
  | typeError
  | other (exception : ε)

/-- The arguments of the decorator. -/
structure Requirement where
  resource : Resource
  action : String
  level : PermissionLevel := .read

abbrev Body (σ ω ε : Type) := Bound (Argument ω) → Method σ (Raised ε) (Argument ω)

structure Function (σ ω ε : Type) where
  signature : Signature (Argument ω)
  body : Body σ ω ε

section
variable {σ ω ε : Type} (objects : Objects ω ε) (env : Env)

/-! ### The decorator -/

def Argument.truthy : Argument ω → Except ε Bool
  | .str s => .ok (decide (s ≠ ""))
  | .object x => objects.truthy x

/-- `check_permission` for the key under which the users are searched; no text, no user. -/
def checkKey (m : AccessControlManager) (now : Time) (needs : Requirement) :
    Option String → Except (Raised ε) Bool
  | none => .ok false
  | some userId =>
    (m.checkPermission env now userId needs.resource needs.action needs.level none).mapError .access

/-- `access_control.require_permission(user_id, resource, action, level)`, for a `user_id` of any type. -/
def requireUser (m : AccessControlManager) (now : Time) (needs : Requirement) :
    Argument ω → Except (Raised ε) Unit
  | .str userId =>
    (m.requirePermission env now userId needs.resource needs.action needs.level none).mapError .access
  | .object x => do
    let key ← (objects.key x).mapError .other
    let granted ← checkKey env m now needs key
    ensure (granted = true) (.access
      (.accessDenied (objects.text x) needs.resource.value needs.action "Insufficient permissions"))

/-- What the wrapper does before it calls the function. -/
def checkUser (m : AccessControlManager) (now : Time) (needs : Requirement) (call : Call (Argument ω)) :
    Except (Raised ε) Unit :=
  match call.kwargs.get? "user_id" with
  | none => .ok ()
  | some userId => do
    let truthy ← (userId.truthy objects).mapError .other
    if truthy then requireUser objects env m now needs userId else .ok ()

def bindCall (signature : Signature (Argument ω)) (call : Call (Argument ω)) :
    Except (Raised ε) (Bound (Argument ω)) :=
  orRaise (signature.bind call) .typeError

def Function.call (func : Function σ ω ε) (call : Call (Argument ω)) :
    Method σ (Raised ε) (Argument ω) := do
  let bound ← .check (bindCall func.signature call)
  func.body bound

/-- Without a framework the function is called as it is. -/
def wrapper (framework : Option AccessControlManager) (now : Time) (needs : Requirement)
    (func : Function σ ω ε) (call : Call (Argument ω)) : Method σ (Raised ε) (Argument ω) :=
  match framework with
  | none => func.call call
  | some m => do
    .check (checkUser objects env m now needs call)
    func.call call

/-- What the body starts with, if the wrapper gets there. -/
def entered (m : AccessControlManager) (now : Time) (needs : Requirement)
    (signature : Signature (Argument ω)) (call : Call (Argument ω)) :
    Except (Raised ε) (Bound (Argument ω)) := do
  checkUser objects env m now needs call
  bindCall signature call

theorem run_wrapper (m : AccessControlManager) (now : Time) (needs : Requirement) (func : Function σ ω ε)
    (call : Call (Argument ω)) (s : σ) :
    (wrapper objects env (some m) now needs func call).run s =
      match entered objects env m now needs func.signature call with
      | .ok bound => (func.body bound).run s
      | .error raised => (.error raised, s) := by
  unfold wrapper entered Function.call
  dsimp only
  cases checkUser objects env m now needs call with
  | error raised => rfl
  | ok _ =>
    cases (bindCall func.signature call : Except (Raised ε) _) with
    | error raised => rfl
    | ok bound => rfl

/-! ### Mediation -/

/-- The user is granted what the decorator asks for. -/
def Granted (m : AccessControlManager) (now : Time) (needs : Requirement) (userId : String) : Prop :=
  m.checkPermission env now userId needs.resource needs.action needs.level none = .ok true

def Raised.IsAccessDenied (raised : Raised ε) : Prop :=
  ∃ user resource action reason, raised = .access (.accessDenied user resource action reason)

/-- The call of the decorated function, with everything as it is in `s`, is mediated for this user. -/
structure Mediated (m : AccessControlManager) (now : Time) (needs : Requirement) (func : Function σ ω ε)
    (call : Call (Argument ω)) (s : σ) (userId : String) : Prop where
  runs : ∀ bound, entered objects env m now needs func.signature call = .ok bound →
    Granted env m now needs userId
  denied : ¬Granted env m now needs userId → ∃ raised, raised.IsAccessDenied ∧
    (wrapper objects env (some m) now needs func call).run s = (.error raised, s)

def Argument.key : Argument ω → Except ε (Option String)
  | .str s => .ok (some s)
  | .object x => objects.key x

def Argument.text : Argument ω → String
  | .str s => s
  | .object x => objects.text x

/-- The call passes a `user_id` by keyword that is not empty, and of a user who is not granted it. -/
def Refused (m : AccessControlManager) (now : Time) (needs : Requirement) (call : Call (Argument ω)) : Prop :=
  ∃ userId key, call.kwargs.get? "user_id" = some userId ∧ userId.truthy objects = .ok true ∧
    userId.key objects = .ok key ∧ ∀ known, key = some known → ¬Granted env m now needs known

variable {objects env} {m : AccessControlManager} {now : Time} {needs : Requirement}
  {call : Call (Argument ω)}

theorem checkPermission_ok (env : Env) (m : AccessControlManager) (now : Time) (needs : Requirement)
    (userId : String) : ∃ granted,
    m.checkPermission env now userId needs.resource needs.action needs.level none = .ok granted := by
  unfold AccessControlManager.checkPermission
  split
  · exact ⟨false, rfl⟩
  · split
    · exact ⟨false, rfl⟩
    · split
      · exact ⟨true, rfl⟩
      · exact ⟨false, rfl⟩

theorem checkKey_ok (ε : Type) (env : Env) (m : AccessControlManager) (now : Time) (needs : Requirement)
    (key : Option String) :
    checkKey env m now needs key = (.ok true : Except (Raised ε) Bool) ∧
        (∃ known, key = some known ∧ Granted env m now needs known) ∨
      checkKey env m now needs key = (.ok false : Except (Raised ε) Bool) ∧
        ∀ known, key = some known → ¬Granted env m now needs known := by
  cases key with
  | none => exact Or.inr ⟨rfl, fun known absent => by cases absent⟩
  | some userId =>
    obtain ⟨granted, checked⟩ := checkPermission_ok env m now needs userId
    simp only [checkKey, Granted, checked]
    cases granted with
    | true => exact Or.inl ⟨rfl, userId, rfl, checked⟩
    | false =>
      refine Or.inr ⟨rfl, ?_⟩
      intro known same
      obtain rfl := Option.some.inj same
      rw [checked]
      exact fun same => Bool.noConfusion (Except.ok.inj same)

/-- A `str` is checked like any other object. -/
theorem requireUser_eq (userId : Argument ω) :
    (requireUser objects env m now needs userId : Except (Raised ε) Unit) =
      (do
        let key ← (userId.key objects).mapError .other
        let granted ← checkKey env m now needs key
        ensure (granted = true) (.access (.accessDenied (userId.text objects) needs.resource.value
          needs.action "Insufficient permissions"))) := by
  cases userId with
  | object x => rfl
  | str s =>
    obtain ⟨granted, checked⟩ := checkPermission_ok env m now needs s
    simp only [requireUser, AccessControlManager.requirePermission, Argument.key, Except.mapError, ok_bind,
      checkKey, checked]
    cases granted <;> rfl

theorem requireUser_denied (userId : Argument ω) :
    (∃ raised : Raised ε, raised.IsAccessDenied ∧
        requireUser objects env m now needs userId = .error raised) ↔
      ∃ key, userId.key objects = .ok key ∧ ∀ known, key = some known → ¬Granted env m now needs known := by
  rw [requireUser_eq]
  cases userId.key objects with
  | error exception =>
    constructor
    · intro denied
      obtain ⟨raised, ⟨_, _, _, _, rfl⟩, ends⟩ := denied
      cases ends
    · intro unknown
      obtain ⟨key, found, _⟩ := unknown
      cases found
  | ok key =>
    simp only [Except.mapError, ok_bind]
    obtain ⟨checked, known, same, granted⟩ | ⟨checked, unknown⟩ := checkKey_ok ε env m now needs key
    · rw [checked]
      constructor
      · intro denied
        obtain ⟨raised, _, ends⟩ := denied
        cases ends
      · intro refused
        obtain ⟨key', found, unknown⟩ := refused
        obtain rfl := Except.ok.inj found
        exact absurd granted (unknown known same)
    · rw [checked]
      have denied : Raised.IsAccessDenied (ε := ε) (.access (.accessDenied (userId.text objects)
          needs.resource.value needs.action "Insufficient permissions")) := ⟨_, _, _, _, rfl⟩
      exact iff_of_true ⟨_, denied, rfl⟩ ⟨key, rfl, unknown⟩

theorem refused_iff {userId : Argument ω} (passed : call.kwargs.get? "user_id" = some userId) :
    Refused objects env m now needs call ↔ userId.truthy objects = .ok true ∧
      ∃ key, userId.key objects = .ok key ∧ ∀ known, key = some known → ¬Granted env m now needs known := by
  constructor
  · intro refused
    obtain ⟨other, key, found, truthy, unknown⟩ := refused
    obtain rfl := Option.some.inj (passed.symm.trans found)
    exact ⟨truthy, key, unknown⟩
  · intro refused
    obtain ⟨truthy, key, unknown⟩ := refused
    exact ⟨userId, key, passed, truthy, unknown⟩

/-- The wrapper raises the error before the call exactly when it has somebody to refuse. -/
theorem checkUser_denied : (∃ raised : Raised ε, raised.IsAccessDenied ∧
    checkUser objects env m now needs call = .error raised) ↔ Refused objects env m now needs call := by
  cases passed : call.kwargs.get? "user_id" with
  | none =>
    rw [checkUser, passed]
    refine iff_of_false ?_ ?_
    · intro denied
      obtain ⟨_, _, ends⟩ := denied
      cases ends
    · intro refused
      obtain ⟨_, _, found, _⟩ := refused
      cases passed.symm.trans found
  | some userId =>
    rw [refused_iff passed, checkUser, passed]
    dsimp only
    cases userId.truthy objects with
    | error exception =>
      refine iff_of_false ?_ fun refused => by cases refused.1
      intro denied
      obtain ⟨raised, ⟨_, _, _, _, rfl⟩, ends⟩ := denied
      cases ends
    | ok truthy =>
      cases truthy with
      | false =>
        refine iff_of_false ?_ fun refused => by cases refused.1
        intro denied
        obtain ⟨_, _, ends⟩ := denied
        cases ends
      | true => exact (requireUser_denied userId).trans ⟨fun unknown => ⟨rfl, unknown⟩, And.right⟩

variable {func : Function σ ω ε} {s : σ} {userId : String}

theorem entered_denied {raised : Raised ε} (is : raised.IsAccessDenied)
    (ends : entered objects env m now needs func.signature call = .error raised) :
    Refused objects env m now needs call := by
  apply (checkUser_denied (ε := ε)).mp
  unfold entered at ends
  cases checked : (checkUser objects env m now needs call : Except (Raised ε) Unit) with
  | error first =>
    rw [checked] at ends
    obtain rfl := Except.error.inj ends
    exact ⟨first, is, rfl⟩
  | ok _ =>
    -- The call itself can only fail with a `TypeError` before the body starts.
    rw [checked, ok_bind, bindCall] at ends
    obtain ⟨_, _, _, _, rfl⟩ := is
    cases binds : func.signature.bind call with
    | none =>
      rw [binds] at ends
      cases ends
    | some bound =>
      rw [binds] at ends
      cases ends

theorem mediated_iff : Mediated objects env m now needs func call s userId ↔
    Granted env m now needs userId ∨ Refused objects env m now needs call := by
  have run := run_wrapper objects env m now needs func call s
  constructor
  · intro mediated
    by_cases granted : Granted env m now needs userId
    · exact Or.inl granted
    · obtain ⟨raised, is, ends⟩ := mediated.denied granted
      cases entry : entered objects env m now needs func.signature call with
      | ok bound => exact absurd (mediated.runs bound entry) granted
      | error first =>
        rw [entry, ends] at run
        obtain rfl := Except.error.inj (Prod.mk.inj run).1
        exact Or.inr (entered_denied is entry)
  · intro condition
    obtain granted | refused := condition
    · exact ⟨fun _ _ => granted, fun denied => absurd granted denied⟩
    · obtain ⟨raised, is, checked⟩ := (checkUser_denied (ε := ε)).mpr refused
      have entry : entered objects env m now needs func.signature call = .error raised := by
        rw [entered, checked]
        rfl
      constructor
      · intro bound enters
        rw [entry] at enters
        cases enters
      · intro _
        rw [entry] at run
        exact ⟨raised, is, run⟩

/-- Of a function that takes its `user_id` by keyword, the calls that pass it so are mediated, if it is not
empty, and no others that need it. -/
theorem mediated_iff_keyword {bound : Bound (Argument ω)} (binds : func.signature.bind call = some bound)
    (keyword : "user_id" ∈ func.signature.keywords)
    (supplies : func.signature.Supplies call "user_id" (.str userId)) :
    Mediated objects env m now needs func call s userId ↔ Granted env m now needs userId ∨
      call.kwargs.get? "user_id" = some (.str userId) ∧ userId ≠ "" := by
  rw [mediated_iff]
  have seen := Signature.get?_bind binds supplies
  constructor
  · intro condition
    obtain granted | ⟨passed, _, found, truthy, _⟩ := condition
    · exact Or.inl granted
    · have same := Signature.get?_bind binds (Or.inr ⟨keyword, found⟩)
      obtain rfl := Option.some.inj (seen.symm.trans same)
      exact Or.inr ⟨found, of_decide_eq_true (Except.ok.inj truthy)⟩
  · intro condition
    by_cases granted : Granted env m now needs userId
    · exact Or.inl granted
    · obtain _ | ⟨found, nonempty⟩ := condition
      · contradiction
      · refine Or.inr ⟨_, some userId, found, congrArg _ (decide_eq_true nonempty), rfl, ?_⟩
        intro known same
        rw [← Option.some.inj same]
        exact granted

/-- A call is mediated for every user it supplies, if and only if each of them is granted, or the `user_id`
that is checked is refused. -/
theorem calls_mediated_iff (func : Function σ ω ε) (call : Call (Argument ω)) (s : σ) :
    (∀ userId, func.signature.Supplies call "user_id" (.str userId) →
      Mediated objects env m now needs func call s userId) ↔
    ∀ userId, func.signature.Supplies call "user_id" (.str userId) →
      Granted env m now needs userId ∨ Refused objects env m now needs call :=
  forall_congr' fun _ => imp_congr_right fun _ => mediated_iff

end

/-! ### A call by position -/

/-- `def update_config(user_id)`, in a program of which nothing but texts are values. -/
def updateConfig : Function Unit Empty Empty where
  signature := ⟨[], [⟨"user_id", none⟩], false, [], false, List.nodup_singleton _⟩
  body := fun _ => pure (.str "updated")

def noObjects : Objects Empty Empty := ⟨Empty.elim, Empty.elim, Empty.elim⟩

/-- Nobody is a user yet, and the function runs for `"mallory"`. -/
theorem positional_not_mediated :
    ¬∀ userId, updateConfig.signature.Supplies ⟨[.str "mallory"], .empty⟩ "user_id" (.str userId) →
      Mediated noObjects AccessControlManager.sampleEnv (.new AccessControlManager.sampleEnv 0) 0
        ⟨.exchangeConfig, "update", .admin⟩ updateConfig ⟨[.str "mallory"], .empty⟩ () userId := by
  intro mediated
  have granted := (mediated "mallory" (Or.inl List.mem_cons_self)).runs _ rfl
  cases granted

end BtApiSecurity.Framework
