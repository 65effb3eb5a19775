import BtApiSecurity.Audit.Chain
import BtApiSecurity.Py.Iteration

/-!
# Notifications

`log_event` goes through the list of subscribers while the callbacks change it. A
subscriber is passed over when one in front of the loop is taken out, and called
once more when it is put in again.
-/

namespace BtApiSecurity.Audit
open Py

variable {κ α : Type}

/-- What a callback does while it is notified: the changes it makes to the subscribers, and whether it
raises an `Exception` after them, which is suppressed. -/
structure Behaviour (κ : Type) where
  changes : List (Edit κ)
  raises : Bool := false

def subscribe (callback : κ) : Edit κ := .append callback

def unsubscribe (callback : κ) : Edit κ := .remove callback

section
variable [DecidableEq κ] (env : Env) (args : α → EventArgs)

/-- The callbacks that are called from index `i` on, and the subscribers afterwards. -/
def notified (i : Nat) (subscribers : List κ) (behaviours : List (Behaviour κ)) : List κ × List κ :=
  visit i subscribers (behaviours.map (·.changes))

/-- The world after a call of `log_event`, and who was called with which event. Callbacks without a
behaviour do nothing. -/
def logEvent (w : World κ) (a : α) (behaviours : List (Behaviour κ)) : World κ × List (κ × AuditEvent) :=
  match (args a).event.sealed env w.logger.lastHash with
  | none => (w.failed, [])
  | some (e, line) =>
    let written := w.append e line
    if w.logger.enableRealTime then
      let told := notified 0 written.logger.subscribers behaviours
      (written.withSubscribers told.2, told.1.map fun callback => (callback, e))
    else (written, [])

end

/-! ### The logger's own loop -/

def changeAction : Edit κ → Action κ α
  | .append callback => .subscribe callback
  | .remove callback => .unsubscribe callback

def Behaviour.reaction (behaviour : Behaviour κ) : Reaction κ α :=
  .mk (behaviour.changes.map changeAction) (if behaviour.raises then .raises else .returns)

variable [DecidableEq κ] {env : Env} {args : α → EventArgs}

theorem runActions_changes (w : World κ) (changes : List (Edit κ)) :
    runActions env args w (changes.map changeAction) =
      w.withSubscribers (edited w.logger.subscribers changes) := by
  induction changes generalizing w with
  | nil => simp [runActions, edited, World.withSubscribers]
  | cons change changes ih =>
    rw [List.map_cons, runActions, ih]
    cases change <;> rfl

theorem notifySubscribers_eq (i : Nat) (w : World κ) (behaviours : List (Behaviour κ)) :
    notifySubscribers env args i w (behaviours.map Behaviour.reaction) =
      w.withSubscribers (notified i w.logger.subscribers behaviours).2 := by
  induction behaviours generalizing i w with
  | nil => simp [notifySubscribers, notified, visit, World.withSubscribers]
  | cons behaviour behaviours ih =>
    rw [List.map_cons, Behaviour.reaction, notifySubscribers, notified, List.map_cons, visit]
    by_cases more : i < w.logger.subscribers.length
    · have suppressed : (if behaviour.raises then Ending.raises else .returns) ≠ .aborts := by
        split <;> simp
      rw [if_pos more, if_neg suppressed, runActions_changes, ih, List.getElem?_eq_getElem more]
      rfl
    · rw [if_neg more, List.getElem?_eq_none (Nat.le_of_not_lt more)]
      rfl

/-- Calls of `log_event` in which the callbacks only change the subscribers. -/
theorem logEvent_eq (w : World κ) (a : α) (behaviours : List (Behaviour κ)) :
    (logEvent env args w a behaviours).1 =
      (Action.log a (behaviours.map Behaviour.reaction)).run env args w := by
  unfold logEvent Action.run
  cases (args a).event.sealed env w.logger.lastHash with
  | none => rfl
  | some written =>
    simp only [notifySubscribers_eq]
    split <;> rfl

/-! ### Every subscriber hears the event -/

/-- No other callback unsubscribes this one before it is called. -/
def Spared (callback : κ) (i : Nat) (subscribers : List κ) : List (Behaviour κ) → Prop
  | [] => True
  | behaviour :: behaviours =>
    match subscribers[i]? with
    | none => True
    | some called =>
      called = callback ∨ (unsubscribe callback ∉ behaviour.changes ∧
        Spared callback (i + 1) (edited subscribers behaviour.changes) behaviours)

/-- Who was subscribed and is spared is called once, with this event. -/
def EveryoneHears (env : Env) (args : α → EventArgs) (w : World κ) (a : α)
    (behaviours : List (Behaviour κ)) (e : AuditEvent) : Prop :=
  ∀ callback ∈ w.logger.subscribers, Spared callback 0 w.logger.subscribers behaviours →
    ((logEvent env args w a behaviours).2.filter (·.1 = callback)).map Prod.snd = [e]

/-- The changes during the notification of the kind that is noted. -/
def noted (note : Nat → List κ → Edit κ → List κ) (subscribers : List κ)
    (behaviours : List (Behaviour κ)) : List κ :=
  during note 0 subscribers (behaviours.map (·.changes))

theorem calls_eq {w : World κ} {a : α} {e : AuditEvent} {line : List Char}
    (logged : (args a).event.sealed env w.logger.lastHash = some (e, line))
    (realTime : w.logger.enableRealTime = true) (behaviours : List (Behaviour κ)) :
    (logEvent env args w a behaviours).2 =
      (notified 0 w.logger.subscribers behaviours).1.map fun callback => (callback, e) := by
  have on : (w.append e line).logger.enableRealTime = true := realTime
  simp only [logEvent, logged, realTime, if_true]
  rfl

theorem heard_once_iff (callback : κ) (called : List κ) (e : AuditEvent) :
    ((called.map fun callback => (callback, e)).filter (·.1 = callback)).map Prod.snd = [e] ↔
      called.count callback = 1 := by
  have each : ((called.map fun callback => (callback, e)).filter (·.1 = callback)).map Prod.snd =
      List.replicate (called.count callback) e := by
    induction called with
    | nil => rfl
    | cons c called ih =>
      by_cases same : c = callback
      · simp [same, ih, List.replicate_succ]
      · simp [same, ih]
  rw [each]
  constructor
  · intro one
    simpa using congrArg List.length one
  · intro one
    rw [one]
    rfl

section
variable {w : World κ} {a : α} {e : AuditEvent} {line : List Char} {behaviours : List (Behaviour κ)}
  {callback : κ}

theorem called_once_iff (logged : (args a).event.sealed env w.logger.lastHash = some (e, line))
    (realTime : w.logger.enableRealTime = true) (distinct : w.logger.subscribers.Nodup)
    (subscribed : callback ∈ w.logger.subscribers) :
    ((logEvent env args w a behaviours).2.filter (·.1 = callback)).map Prod.snd = [e] ↔
      (noted Edit.adds w.logger.subscribers behaviours).count callback =
        (noted Edit.skips w.logger.subscribers behaviours).count callback +
          (noted Edit.cuts w.logger.subscribers behaviours).count callback := by
  have balance := visit_balance 0 w.logger.subscribers (behaviours.map (·.changes)) callback
  rw [List.drop_zero, List.count_eq_one_of_mem distinct subscribed] at balance
  rw [calls_eq logged realTime, heard_once_iff]
  unfold noted notified
  omega

/-- Every subscriber hears the event, if and only if each that is spared is subscribed again as often as
it is passed over or taken out ahead of the loop. -/
theorem everyone_hears_iff (logged : (args a).event.sealed env w.logger.lastHash = some (e, line))
    (realTime : w.logger.enableRealTime = true) (distinct : w.logger.subscribers.Nodup) :
    EveryoneHears env args w a behaviours e ↔
      ∀ callback ∈ w.logger.subscribers, Spared callback 0 w.logger.subscribers behaviours →
        (noted Edit.adds w.logger.subscribers behaviours).count callback =
          (noted Edit.skips w.logger.subscribers behaviours).count callback +
            (noted Edit.cuts w.logger.subscribers behaviours).count callback :=
  forall₂_congr fun _ subscribed =>
    imp_congr_right fun _ => called_once_iff logged realTime distinct subscribed

/-- Who is spared and not subscribed again is not taken out ahead of the loop. -/
theorem not_cut_of_spared {i : Nat} {subscribers : List κ} {behaviours : List (Behaviour κ)}
    (spared : Spared callback i subscribers behaviours) (few : (subscribers.drop i).count callback ≤ 1)
    (none_added : (during Edit.adds i subscribers (behaviours.map (·.changes))).count callback = 0) :
    (during Edit.cuts i subscribers (behaviours.map (·.changes))).count callback = 0 := by
  induction behaviours generalizing i subscribers with
  | nil => rfl
  | cons behaviour behaviours ih =>
    have balance := visit_balance i subscribers ((behaviour :: behaviours).map (·.changes)) callback
    simp only [List.map_cons, visit, during, Spared] at spared none_added balance ⊢
    cases here : subscribers[i]? with
    | none => rfl
    | some called =>
      simp only [here, List.count_append, List.count_cons] at spared none_added balance ⊢
      rcases spared with rfl | ⟨untouched, later⟩
      · simp only [beq_self_eq_true, if_true] at balance
        omega
      · have turn := edits_balance (i + 1) subscribers behaviour.changes callback
        have next : subscribers.drop i = subscribers[i]?.toList ++ subscribers.drop (i + 1) :=
          List.drop_eq_getElem?_toList_append
        rw [next, List.count_append] at few
        have here_not : (along Edit.cuts (i + 1) subscribers behaviour.changes).count callback = 0 :=
          List.count_eq_zero.mpr fun cut => untouched (remove_mem_of_cut cut)
        have rest := ih later (by omega) (by omega)
        omega

/-- Where nobody who was subscribed is subscribed again or passed over, everyone hears the event. -/
theorem everyone_hears_of_undisturbed
    (logged : (args a).event.sealed env w.logger.lastHash = some (e, line))
    (realTime : w.logger.enableRealTime = true) (distinct : w.logger.subscribers.Nodup)
    (undisturbed : ∀ callback ∈ w.logger.subscribers,
      callback ∉ noted Edit.adds w.logger.subscribers behaviours ∧
        callback ∉ noted Edit.skips w.logger.subscribers behaviours) :
    EveryoneHears env args w a behaviours e := by
  intro callback subscribed spared
  obtain ⟨added, skipped⟩ := undisturbed callback subscribed
  have cut := not_cut_of_spared spared
    (by rw [List.drop_zero, List.count_eq_one_of_mem distinct subscribed])
    (List.count_eq_zero.mpr added)
  rw [called_once_iff logged realTime distinct subscribed, List.count_eq_zero.mpr added,
    List.count_eq_zero.mpr skipped, Nat.zero_add]
  exact cut.symm

end

/-! ### A subscriber that leaves -/

/-- The first subscriber unsubscribes itself. -/
def leaving : List (Behaviour Nat) := [⟨[unsubscribe 0], false⟩]

def twoSubscribers : World Nat := (World.start none true).withSubscribers [0, 1]

theorem leaving_heard_iff : ∃ e line,
    (sampleArgs "a" .userLogin).toEventArgs.event.sealed sampleEnv .none = some (e, line) ∧
      (EveryoneHears sampleEnv JsonArgs.toEventArgs twoSubscribers (sampleArgs "a" .userLogin) leaving e ↔
        ∀ callback ∈ [0, 1], Spared callback 0 [0, 1] leaving →
          (noted Edit.adds [0, 1] leaving).count callback =
            (noted Edit.skips [0, 1] leaving).count callback +
              (noted Edit.cuts [0, 1] leaving).count callback) := by
  have logged : ((sampleArgs "a" .userLogin).toEventArgs.event.sealed sampleEnv .none).isSome = true := by
    decide +kernel
  obtain ⟨⟨e, line⟩, logged⟩ := Option.isSome_iff_exists.mp logged
  exact ⟨e, line, logged, everyone_hears_iff (w := twoSubscribers) logged rfl (by decide)⟩

theorem second_subscriber_unheard : ¬∀ (env : Env) (args : JsonArgs → EventArgs) (w : World Nat)
    (a : JsonArgs) (behaviours : List (Behaviour Nat)) e line,
    (args a).event.sealed env w.logger.lastHash = some (e, line) →
      w.logger.enableRealTime = true → w.logger.subscribers.Nodup →
        EveryoneHears env args w a behaviours e := by
  intro everyone
  have logged : ((sampleArgs "a" .userLogin).toEventArgs.event.sealed sampleEnv .none).isSome = true := by
    decide +kernel
  obtain ⟨⟨e, line⟩, logged⟩ := Option.isSome_iff_exists.mp logged
  have spared : Spared 1 0 [0, 1] leaving := .inr ⟨by decide, trivial⟩
  have heard := everyone sampleEnv JsonArgs.toEventArgs twoSubscribers (sampleArgs "a" .userLogin)
    leaving e line logged rfl (by decide) 1 (by decide) spared
  have counts := (called_once_iff (w := twoSubscribers) logged rfl (by decide) (by decide)).mp heard
  exact absurd counts (by decide)

end BtApiSecurity.Audit
