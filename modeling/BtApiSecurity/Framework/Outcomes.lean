import BtApiSecurity.Framework.Auditing

/-!
# The outcome that is recorded

After a function has ended one event says how. The record is true, and the caller
receives what the function gave, as long as the logger takes that event and the function
raises nothing but an `Exception`.
-/

namespace BtApiSecurity.Framework
open Py Audit

variable {ω ε : Type} (env : Runtime ω ε)

namespace Invocation
variable (i : Invocation ω ε)

/-- What the first event is logged with. -/
def called : Except ε Unit × Journal ω := (logEvent env (i.access.before env)).run i.start

/-- How the function ends. -/
def ended : Except ε ω × Journal ω := i.func.run (i.called env).2

/-- What the caller receives. -/
def left : Except ε ω × Journal ω := (auditAccess env i.access i.func).run i.start

def completions : List (AccessEvent ω) :=
  (i.left env).2.events.drop (i.ended env).2.events.length

structure TrueOutcome : Prop where
  returned : ∀ result, (i.ended env).1 = .ok result → ∀ event ∈ i.completions env, event.outcome ≠ "failure"
  raised : ∀ exception, (i.ended env).1 = .error exception →
    ∀ event ∈ i.completions env, event.outcome ≠ "success"
  one : (∀ n, (i.ended env).2.attempts ≤ n → n < (i.left env).2.attempts → env.attempt n = .returns) →
    (i.completions env).length = 1
  own : (i.left env).1 = (i.ended env).1

/-- What the function raises is an `Exception`, and the attempt to log after it has ended succeeds, or
raises what the function had raised. -/
structure Loggable : Prop where
  exception : ∀ exception, (i.ended env).1 = .error exception → env.isException exception = true
  logged : env.attempt (i.ended env).2.attempts = .returns ∨
    ∃ recorded exception, (i.ended env).1 = .error exception ∧
      env.attempt (i.ended env).2.attempts = .raises recorded exception

end Invocation

/-! ### What one attempt and one handler do -/

section
variable {α : Type} {s t : Journal ω} {event : AccessEvent ω} {a : α} {exception : ε} {recorded : Bool}
  {body : Code ω ε α} {handler : ε → Code ω ε α}

theorem logEvent_returns (returns : env.attempt s.attempts = .returns) :
    (logEvent env event).run s = (.ok (), ⟨s.attempts + 1, s.events ++ [event]⟩) := by
  simp only [logEvent, Method.run, returns]

theorem logEvent_raises (raises : env.attempt s.attempts = .raises recorded exception) :
    (logEvent env event).run s =
      (.error exception, ⟨s.attempts + 1, if recorded then s.events ++ [event] else s.events⟩) := by
  simp only [logEvent, Method.run, raises]

theorem exceptException_ok (run : body.run s = (.ok a, t)) :
    (exceptException env body handler).run s = (.ok a, t) := by
  simp only [Method.run, exceptException] at run ⊢
  rw [run]

theorem exceptException_handled (run : body.run s = (.error exception, t))
    (handled : env.isException exception = true) :
    (exceptException env body handler).run s = (handler exception).run t := by
  simp only [Method.run, exceptException] at run ⊢
  rw [run]
  exact if_pos handled

theorem exceptException_passes (run : body.run s = (.error exception, t))
    (passes : env.isException exception ≠ true) :
    (exceptException env body handler).run s = (.error exception, t) := by
  simp only [Method.run, exceptException] at run ⊢
  rw [run]
  exact if_neg passes

end

/-! ### After the function has ended -/

/-- The body of the `try`, for a function that ends so. -/
def tried (access : Access ω) (ending : Except ε ω) : Code ω ε ω := do
  let result ← .check ending
  logEvent env (access.success env)
  return result

def completion (access : Access ω) (ending : Except ε ω) : Code ω ε ω :=
  exceptException env (tried env access ending) (fun exception => do
    logEvent env (access.failure env exception)
    .check (.error exception))

theorem left_completion {i : Invocation ω ε} (called : (i.called env).1 = .ok ()) :
    i.left env = (completion env i.access (i.ended env).1).run (i.ended env).2 := by
  have first : (logEvent env (i.access.before env)).run i.start = (.ok (), (i.called env).2) :=
    Prod.ext called rfl
  have ends : i.func (i.called env).2 = ((i.ended env).1, (i.ended env).2) := rfl
  unfold Invocation.left auditAccess completion tried
  rw [Method.run_bind, first]
  simp only [exceptException, Method.run, bind, ends, Method.check]

section
variable {access : Access ω} {s : Journal ω} {result : ω} {exception other : ε} {recorded : Bool}

theorem tried_ok (returns : env.attempt s.attempts = .returns) : (tried env access (.ok result)).run s =
    (.ok result, ⟨s.attempts + 1, s.events ++ [access.success env]⟩) := by
  unfold tried
  rw [Method.check_ok_bind, Method.run_bind, logEvent_returns env returns]
  rfl

theorem tried_raises (raises : env.attempt s.attempts = .raises recorded other) :
    (tried env access (.ok result)).run s = (.error other,
      ⟨s.attempts + 1, if recorded then s.events ++ [access.success env] else s.events⟩) := by
  unfold tried
  rw [Method.check_ok_bind, Method.run_bind, logEvent_raises env raises]

theorem tried_error : (tried env access (.error exception)).run s = (.error exception, s) := rfl

theorem completion_ok (returns : env.attempt s.attempts = .returns) :
    (completion env access (.ok result)).run s =
      (.ok result, ⟨s.attempts + 1, s.events ++ [access.success env]⟩) :=
  exceptException_ok env (tried_ok env returns)

theorem completion_failure (returns : env.attempt s.attempts = .returns)
    (isException : env.isException exception = true) :
    (completion env access (.error exception)).run s =
      (.error exception, ⟨s.attempts + 1, s.events ++ [access.failure env exception]⟩) := by
  refine (exceptException_handled env (tried_error env) isException).trans ?_
  rw [Method.run_bind, logEvent_returns env returns]
  rfl

theorem completion_none (passes : env.isException exception ≠ true) :
    (completion env access (.error exception)).run s = (.error exception, s) :=
  exceptException_passes env (tried_error env) passes

/-- Another exception takes the place of the function's own. -/
theorem completion_failure_raises (raises : env.attempt s.attempts = .raises recorded other)
    (isException : env.isException exception = true) :
    (completion env access (.error exception)).run s = (.error other,
      ⟨s.attempts + 1, if recorded then s.events ++ [access.failure env exception] else s.events⟩) := by
  refine (exceptException_handled env (tried_error env) isException).trans ?_
  rw [Method.run_bind, logEvent_raises env raises]

end

/-- What the handler does after the function has returned is to raise. -/
theorem completion_ok_raises {s : Journal ω} {recorded : Bool} {other : ε} (access : Access ω) (result : ω)
    (raises : env.attempt s.attempts = .raises recorded other) :
    ∃ last, ((completion env access (.ok result)).run s).1 = .error last := by
  have body : (tried env access (.ok result)).run s = _ := tried_raises env raises
  unfold completion
  by_cases isException : env.isException other = true
  · rw [exceptException_handled env body isException, Method.run_bind]
    split
    · exact ⟨other, rfl⟩
    · rename_i last _ _
      exact ⟨last, rfl⟩
  · rw [exceptException_passes env body isException]
    exact ⟨other, rfl⟩

/-! ### One invocation -/

namespace Invocation
variable {env} {i : Invocation ω ε} {new : List (AccessEvent ω)}

theorem completions_eq (left : (i.left env).2.events = (i.ended env).2.events ++ new) :
    i.completions env = new := by
  rw [completions, left]
  exact List.drop_left

theorem outcome_ne {recorded : AccessEvent ω} {outcome : String} (completions : i.completions env = [recorded])
    (other : recorded.outcome ≠ outcome) : ∀ event ∈ i.completions env, event.outcome ≠ outcome := by
  intro event mem
  rw [completions, List.mem_singleton] at mem
  rw [mem]
  exact other

theorem trueOutcome_returned {result : ω} (called : (i.called env).1 = .ok ())
    (ends : (i.ended env).1 = .ok result) (returns : env.attempt (i.ended env).2.attempts = .returns) :
    i.TrueOutcome env := by
  have left := left_completion env called
  rw [ends, completion_ok env returns] at left
  have completions := completions_eq (congrArg (·.2.events) left)
  constructor
  · exact fun _ _ => outcome_ne completions (by decide : "success" ≠ "failure")
  · intro raised error
    cases ends.symm.trans error
  · intro _
    rw [completions]
    rfl
  · rw [left, ends]

theorem trueOutcome_raised {raised : ε} (called : (i.called env).1 = .ok ())
    (ends : (i.ended env).1 = .error raised) (isException : env.isException raised = true)
    (returns : env.attempt (i.ended env).2.attempts = .returns) : i.TrueOutcome env := by
  have left := left_completion env called
  rw [ends, completion_failure env returns isException] at left
  have completions := completions_eq (congrArg (·.2.events) left)
  constructor
  · intro result ok
    cases ends.symm.trans ok
  · exact fun _ _ => outcome_ne completions (by decide : "failure" ≠ "success")
  · intro _
    rw [completions]
    rfl
  · rw [left, ends]

/-- The logger raises what the function had raised. -/
theorem trueOutcome_same {raised : ε} {recorded : Bool} (called : (i.called env).1 = .ok ())
    (ends : (i.ended env).1 = .error raised) (isException : env.isException raised = true)
    (raises : env.attempt (i.ended env).2.attempts = .raises recorded raised) : i.TrueOutcome env := by
  have left := left_completion env called
  rw [ends, completion_failure_raises env raises isException] at left
  constructor
  · intro result ok
    cases ends.symm.trans ok
  · intro _ _
    cases recorded with
    | true => exact outcome_ne (completions_eq (congrArg (·.2.events) left)) (by decide : "failure" ≠ "success")
    | false =>
      have completions : i.completions env = [] := by
        rw [Invocation.completions, left]
        exact List.drop_length
      rw [completions]
      exact fun _ mem => absurd mem List.not_mem_nil
  · intro returns
    rw [left] at returns
    rw [returns _ (Nat.le_refl _) (Nat.lt_succ_self _)] at raises
    cases raises
  · rw [left, ends]

theorem trueOutcome_of_loggable (called : (i.called env).1 = .ok ()) (loggable : i.Loggable env) :
    i.TrueOutcome env := by
  obtain ⟨exception, logged⟩ := loggable
  cases ends : (i.ended env).1 with
  | ok result =>
    obtain returns | ⟨_, raised, error, _⟩ := logged
    · exact trueOutcome_returned called ends returns
    · cases ends.symm.trans error
  | error raised =>
    have isException := exception raised ends
    obtain returns | ⟨recorded, other, error, raises⟩ := logged
    · exact trueOutcome_raised called ends isException returns
    · obtain rfl : raised = other := Except.error.inj (ends.symm.trans error)
      exact trueOutcome_same called ends isException raises

theorem loggable_of_trueOutcome (called : (i.called env).1 = .ok ()) (outcome : i.TrueOutcome env) :
    i.Loggable env := by
  have left := left_completion env called
  have own := outcome.own
  have exception : ∀ raised, (i.ended env).1 = .error raised → env.isException raised = true := by
    intro raised ends
    by_contra passes
    -- No event at all, although no attempt to log has failed.
    rw [ends, completion_none env passes] at left
    have completions : i.completions env = [] := by
      rw [Invocation.completions, left, List.drop_length]
    have one := outcome.one (by
      rw [left]
      intro n above below
      exact absurd below (Nat.not_lt.mpr above))
    rw [completions] at one
    cases one
  refine ⟨exception, ?_⟩
  cases attempt : env.attempt (i.ended env).2.attempts with
  | returns => exact Or.inl rfl
  | raises recorded other =>
    cases ends : (i.ended env).1 with
    | ok result =>
      obtain ⟨last, raised⟩ := completion_ok_raises env i.access result attempt
      rw [left, ends, raised] at own
      cases own
    | error raised =>
      rw [left, ends, completion_failure_raises env attempt (exception raised ends)] at own
      obtain rfl : other = raised := Except.error.inj own
      exact Or.inr ⟨recorded, other, rfl, rfl⟩

end Invocation

/-! ### Programs -/

/-- No event that was recorded is lost. -/
def Keeps {α : Type} (code : Code ω ε α) : Prop := ∀ s, s.events <+: (code.run s).2.events

section
variable {α β : Type}

theorem keeps_logEvent (event : AccessEvent ω) : Keeps (logEvent env event : Code ω ε Unit) := by
  intro s
  cases attempt : env.attempt s.attempts with
  | returns =>
    rw [logEvent_returns env attempt]
    exact List.prefix_append _ _
  | raises recorded exception =>
    rw [logEvent_raises env attempt]
    cases recorded
    · exact List.prefix_rfl
    · exact List.prefix_append _ _

theorem Keeps.bind {code : Code ω ε α} {f : α → Code ω ε β} (first : Keeps code) (rest : ∀ a, Keeps (f a)) :
    Keeps (code >>= f) := by
  intro s
  have kept := first s
  rw [Method.run_bind]
  cases run : code.run s with
  | mk ending t =>
    rw [run] at kept
    cases ending with
    | ok a => exact kept.trans (rest a t)
    | error exception => exact kept

theorem Keeps.exceptException {body : Code ω ε α} {handler : ε → Code ω ε α} (first : Keeps body)
    (rest : ∀ exception, Keeps (handler exception)) : Keeps (exceptException env body handler) := by
  intro s
  have kept := first s
  cases run : body.run s with
  | mk ending t =>
    rw [run] at kept
    cases ending with
    | ok a =>
      rw [exceptException_ok env run]
      exact kept
    | error exception =>
      by_cases isException : env.isException exception = true
      · rw [exceptException_handled env run isException]
        exact kept.trans (rest exception t)
      · rw [exceptException_passes env run isException]
        exact kept

theorem Keeps.auditAccess {func : Code ω ε ω} (access : Access ω) (keeps : Keeps func) :
    Keeps (auditAccess env access func) := by
  refine (keeps_logEvent env _).bind fun _ => Keeps.exceptException env ?_ fun exception => ?_
  · exact keeps.bind fun result => (keeps_logEvent env _).bind fun _ _ => List.prefix_rfl
  · exact (keeps_logEvent env _).bind fun _ _ => List.prefix_rfl

theorem keeps_completion (access : Access ω) (ending : Except ε ω) :
    Keeps (completion env access ending) := by
  have ends : Keeps (.check ending : Code ω ε ω) := fun _ => List.prefix_rfl
  refine Keeps.exceptException env ?_ fun exception => ?_
  · exact ends.bind fun result => (keeps_logEvent env _).bind fun _ _ => List.prefix_rfl
  · exact (keeps_logEvent env _).bind fun _ _ => List.prefix_rfl

end

theorem ended_kept {i : Invocation ω ε} (called : (i.called env).1 = .ok ()) :
    (i.ended env).2.events <+: (i.left env).2.events := by
  rw [left_completion env called]
  exact keeps_completion env _ _ _

theorem keeps_run (p : Program ω ε) : Keeps (p.run env) := by
  induction p with
  | ends ending => exact fun _ => List.prefix_rfl
  | logs event next ih =>
    intro s
    exact (keeps_logEvent env event s).trans (ih _ _)
  | calls framework access body next ihBody ihNext =>
    intro s
    have wrapped : Keeps (auditWrapper env framework access (body.run env)) := by
      cases framework
      · exact ihBody
      · exact ihBody.auditAccess env access
    exact (wrapped s).trans (ihNext _ _)

/-- What an invocation has recorded by its end is in what the whole program leaves. -/
theorem invocations_kept (p : Program ω ε) (s : Journal ω) {i : Invocation ω ε}
    (mem : i ∈ p.invocations env s) :
    (i.left env).2.events <+: ((p.run env).run s).2.events := by
  induction p generalizing s with
  | ends ending => cases mem
  | logs event next ih => exact ih _ _ mem
  | calls framework access body next ihBody ihNext =>
    obtain within | later := List.mem_append.mp mem
    · refine List.IsPrefix.trans ?_ (keeps_run env (next _) _)
      cases framework with
      | false => exact ihBody s within
      | true =>
        obtain rfl | nested := List.mem_cons.mp within
        · exact List.prefix_rfl
        · -- An invocation inside of the body has ended when the body ends.
          let outer : Invocation ω ε := ⟨access, body.run env, s⟩
          cases logged : (logEvent env (access.before env) : Code ω ε Unit).run s with
          | mk ending t =>
            rw [logged] at nested
            cases ending with
            | error exception => cases nested
            | ok _ =>
              have called : outer.called env = (.ok (), t) := logged
              have kept := ended_kept env (i := outer) (by rw [called])
              rw [Invocation.ended, called] at kept
              exact (ihBody t nested).trans kept
    · exact ihNext _ _ later

/-- In every program the recorded outcomes are true, if and only if every function that was called can be
logged. -/
theorem outcomes_true_iff (p : Program ω ε) (s : Journal ω) :
    (∀ i ∈ p.invocations env s, (i.called env).1 = .ok () → i.TrueOutcome env) ↔
      ∀ i ∈ p.invocations env s, (i.called env).1 = .ok () → i.Loggable env :=
  ⟨fun outcomes i mem called => Invocation.loggable_of_trueOutcome called (outcomes i mem called),
    fun loggable i mem called => Invocation.trueOutcome_of_loggable called (loggable i mem called)⟩

/-- A logger that fails once, when the success of the first function is logged. -/
def fullDisk : Runtime String String where
  str := id
  repr := fun x => reprText (fun _ => true) x.toList
  printable := fun _ => true
  isException := fun _ => true
  text := id
  attempt := fun n => if n = 1 then .raises false "No space left on device" else .returns

def updated : Program String String :=
  .calls true { eventType := .configChange, name := "update", args := [], kwargs := .empty }
    (.ends (.ok "done")) .ends

/-- The function has returned `"done"`. -/
theorem returned_recorded_failure :
    ¬ ∀ i ∈ updated.invocations fullDisk ⟨0, []⟩, (i.called fullDisk).1 = .ok () → i.TrueOutcome fullDisk := by
  intro outcomes
  have outcome := outcomes _ List.mem_cons_self rfl
  exact outcome.returned "done" rfl _ List.mem_cons_self rfl

end BtApiSecurity.Framework
