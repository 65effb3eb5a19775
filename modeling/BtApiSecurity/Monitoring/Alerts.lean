import BtApiSecurity.Audit.Logger
import BtApiSecurity.Machine
import BtApiSecurity.Py.First
import BtApiSecurity.Py.Method

/-!
# Security alerts

An alert is stored, logged where there is an audit logger, and handed to the
handlers. The logging step imports a module that its package does not have.
-/

namespace BtApiSecurity.Monitoring
open Py Audit Machine

inductive AlertSeverity where
  | info
  | low
  | medium
  | high
  | critical
  deriving DecidableEq

structure SecurityAlert where
  alertId : String
  title : String
  description : String
  severity : AlertSeverity
  source : String
  timestamp : Time
  details : Dict String Value
  acknowledged : Bool := false
  resolved : Bool := false

/-- `called` are the calls of handlers so far, in their order. -/
structure SecurityMonitoring (κ : Type) where
  auditLogger : Option (AuditLogger κ)
  alerts : List SecurityAlert
  alertHandlers : List κ
  called : List (κ × SecurityAlert)

inductive MonitoringError where
  | moduleNotFoundError (message : String)
  | typeError (message : String)
  | attributeError (message : String)
  | aborted
  deriving DecidableEq

namespace SecurityMonitoring

variable {κ : Type}

abbrev M (κ : Type) := Method (SecurityMonitoring κ) MonitoringError

def new (auditLogger : Option (AuditLogger κ)) : SecurityMonitoring κ := ⟨auditLogger, [], [], []⟩

/-! ### Creating an alert -/

/-- The modules of the package. -/
def modules : List String := ["security_monitoring"]

/-- `from .module import ..`. -/
def importModule (module : String) : Except MonitoringError Unit :=
  ensure (module ∈ modules)
    (.moduleNotFoundError s!"No module named 'bt_api_security.monitoring.{module}'")

/-- A call with keywords that the method has no parameters for. -/
def bindKeywords (method : String) (parameters keywords : List String) : Except MonitoringError Unit :=
  match keywords.find? (· ∉ parameters) with
  | some keyword => .error (.typeError s!"{method}() got an unexpected keyword argument '{keyword}'")
  | none => .ok ()

/-- The call hands `log_event` a member of `EventType` where it takes an event, so its body would
raise as well. -/
def logAlert : Except MonitoringError Unit := do
  importModule "audit_logger"
  bindKeywords "AuditLogger.log_event" ["event"] ["user_id", "severity", "resource", "action", "details"]
  .error (.attributeError "'EventType' object has no attribute 'event_type'")

/-- The handlers end as `endings` has it, turn by turn. -/
def notifyHandlers (alert : SecurityAlert) : (Nat → Ending) → List κ → M κ Unit
  | _, [] => return ()
  | endings, handler :: handlers => do
    .update fun s => { s with called := s.called ++ [(handler, alert)] }
    .check (ensure (endings 0 ≠ .aborts) .aborted)
    notifyHandlers alert (fun n => endings (n + 1)) handlers

def alertIdAt (t : Time) (count : Nat) : String := "sec_" ++ intText (truncate t) ++ "_" ++ intText count

/-- The first reading of the clock is for the id, the second for the alert. -/
def newAlert (clock : Nat → Time) (count : Nat) (title description : String)
    (severity : AlertSeverity) (source : String) (details : Dict String Value) : SecurityAlert :=
  { alertId := alertIdAt (clock 0) count
    title, description, severity, source
    timestamp := clock 1
    details }

def store (s : SecurityMonitoring κ) (alert : SecurityAlert) : SecurityMonitoring κ :=
  { s with alerts := s.alerts ++ [alert] }

def createAlert (clock : Nat → Time) (endings : Nat → Ending) (title description : String)
    (severity : AlertSeverity) (source : String) (details : Dict String Value) :
    M κ SecurityAlert := do
  let s ← .read
  let alert := newAlert clock s.alerts.length title description severity source details
  .update fun s => s.store alert
  .check (if s.auditLogger.isSome then logAlert else .ok ())
  notifyHandlers alert endings s.alertHandlers
  return alert

/-! ### Reading and marking alerts -/

/-- `xs[:k]`. -/
def sliceTo {α : Type} (xs : List α) (k : Int) : List α :=
  if 0 ≤ k then xs.take k.toNat else xs.take (xs.length - k.natAbs)

def newestFirst (alerts : List SecurityAlert) : List SecurityAlert :=
  alerts.mergeSort fun x y => y.timestamp ≤ x.timestamp

/-- Without a filter the stored list itself is sorted. -/
def getAlerts (severity : Option AlertSeverity) (acknowledged : Option Bool) (limit : Int) :
    M κ (List SecurityAlert) := do
  let s ← .read
  let filtered := match severity with
    | some severity => s.alerts.filter (·.severity = severity)
    | none => s.alerts
  let filtered := match acknowledged with
    | some acknowledged => filtered.filter (·.acknowledged = acknowledged)
    | none => filtered
  let sorted := newestFirst filtered
  if severity = none ∧ acknowledged = none then
    .update fun s => { s with alerts := sorted }
    return sliceTo sorted limit
  else return sliceTo sorted limit

/-- The first alert with the id is changed. -/
def markAlert (f : SecurityAlert → SecurityAlert) (alertId : String) :
    List SecurityAlert → Option (List SecurityAlert) :=
  markFirst SecurityAlert.alertId f alertId

def changeAlert (f : SecurityAlert → SecurityAlert) (alertId : String) : M κ Bool := do
  let s ← .read
  match markAlert f alertId s.alerts with
  | none => return false
  | some alerts =>
    .update fun s => { s with alerts }
    return true

def acknowledgeAlert (alertId : String) : M κ Bool :=
  changeAlert (fun alert => { alert with acknowledged := true }) alertId

def resolveAlert (alertId : String) : M κ Bool :=
  changeAlert (fun alert => { alert with resolved := true }) alertId

def addAlertHandler (handler : κ) : M κ Unit :=
  .update fun s => { s with alertHandlers := s.alertHandlers ++ [handler] }

/-! ### The monitor as a machine -/

inductive Call (κ : Type) where
  | createAlert (title description : String) (severity : AlertSeverity) (source : String)
      (details : Dict String Value)
  | getAlerts (severity : Option AlertSeverity) (acknowledged : Option Bool) (limit : Int)
  | acknowledgeAlert (alertId : String)
  | resolveAlert (alertId : String)
  | addAlertHandler (handler : κ)

inductive Reply where
  | alert (alert : SecurityAlert)
  | alerts (alerts : List SecurityAlert)
  | answer (b : Bool)
  | nothing

structure Input (κ : Type) where
  clock : Nat → Time
  endings : Nat → Ending
  call : Call κ

def perform (clock : Nat → Time) (endings : Nat → Ending) : Call κ → M κ Reply
  | .createAlert title description severity source details =>
    Reply.alert <$> createAlert clock endings title description severity source details
  | .getAlerts severity acknowledged limit =>
    Reply.alerts <$> getAlerts severity acknowledged limit
  | .acknowledgeAlert alertId => Reply.answer <$> acknowledgeAlert alertId
  | .resolveAlert alertId => Reply.answer <$> resolveAlert alertId
  | .addAlertHandler handler => (fun _ => Reply.nothing) <$> addAlertHandler handler

def step (s : SecurityMonitoring κ) (i : Input κ) :
    SecurityMonitoring κ × Except MonitoringError Reply :=
  (((perform i.clock i.endings i.call).run s).2, ((perform i.clock i.endings i.call).run s).1)

abbrev Event (κ : Type) := Entry (SecurityMonitoring κ) (Input κ) (Except MonitoringError Reply)

/-! ### All or nothing -/

variable {s : SecurityMonitoring κ} {i : Input κ}

def Creates (i : Input κ) : Prop :=
  ∃ title description severity source details,
    i.call = .createAlert title description severity source details

/-- Exactly one event was logged, and it is a security incident. -/
def LogsIncident (before after : Option (AuditLogger κ)) : Prop :=
  ∀ logger, before = some logger → ∃ logger' event, after = some logger' ∧
    logger'.events = logger.events ++ [event] ∧ event.eventType = .member .securityIncident

/-- The call raised and left the alerts as they were, or it returned a stored alert that was logged
and handed to every handler once. -/
def AllOrNothing (e : Event κ) : Prop :=
  (∃ error, e.output = .error error ∧ e.post.alerts = e.pre.alerts) ∨
    ∃ alert, e.output = .ok (.alert alert) ∧ alert ∈ e.post.alerts ∧
      LogsIncident e.pre.auditLogger e.post.auditLogger ∧
      e.post.called = e.pre.called ++ e.pre.alertHandlers.map fun handler => (handler, alert)

theorem audit_logger_not_a_module : "audit_logger" ∉ modules := by decide

/-- Also where the import succeeds the call of `log_event` is refused. -/
theorem logAlert_error : ∃ error, logAlert = .error error := by
  rw [logAlert, importModule, ensure, if_neg audit_logger_not_a_module]
  exact ⟨_, rfl⟩

/-- The handlers are all called, or one of them ends the call. -/
theorem run_notifyHandlers (alert : SecurityAlert) (handlers : List κ) (endings : Nat → Ending)
    (s : SecurityMonitoring κ) :
    (∀ k < handlers.length, endings k ≠ .aborts) ∧
        (notifyHandlers alert endings handlers).run s =
          (.ok (), { s with called := s.called ++ handlers.map fun handler => (handler, alert) }) ∨
      (∃ k < handlers.length, endings k = .aborts) ∧ ∃ called,
        (notifyHandlers alert endings handlers).run s = (.error .aborted, { s with called }) := by
  induction handlers generalizing endings s with
  | nil => exact .inl ⟨nofun, by simp [notifyHandlers]⟩
  | cons handler handlers ih =>
    simp only [notifyHandlers, Method.run_bind, Method.run_update, Method.run_check]
    by_cases aborts : endings 0 = .aborts
    · refine .inr ⟨⟨0, Nat.zero_lt_succ _, aborts⟩, s.called ++ [(handler, alert)], ?_⟩
      rw [ensure, if_neg (not_not_intro aborts)]
    · rw [ensure, if_pos aborts]
      rcases ih (fun n => endings (n + 1)) { s with called := s.called ++ [(handler, alert)] } with
        ⟨none_aborts, run⟩ | ⟨⟨k, small, ends⟩, called, run⟩
      · refine .inl ⟨?_, ?_⟩
        · intro k small
          cases k with
          | zero => exact aborts
          | succ k => exact none_aborts k (Nat.lt_of_succ_lt_succ small)
        · refine run.trans ?_
          simp only [List.append_assoc, List.singleton_append, List.map_cons]
      · exact .inr ⟨⟨k + 1, Nat.succ_lt_succ small, ends⟩, called, run⟩

/-- With an audit logger the call always raises, and the alert is stored already. -/
theorem step_logged {logger : AuditLogger κ} (present : s.auditLogger = some logger)
    (creates : Creates i) : ∃ error alert, step s i = (s.store alert, .error error) := by
  obtain ⟨clock, endings, call⟩ := i
  obtain ⟨title, description, severity, source, details, rfl⟩ := creates
  obtain ⟨error, raised⟩ := logAlert_error
  refine ⟨error, newAlert clock s.alerts.length title description severity source details, ?_⟩
  simp only [step, perform, createAlert, Method.run_map, Method.run_bind, Method.run_read,
    Method.run_update, Method.run_check, present, Option.isSome_some, if_true, raised]

/-- Without one the handlers decide. -/
theorem step_unlogged (absent : s.auditLogger = none) (creates : Creates i) : ∃ alert,
    (∀ t, (notifyHandlers alert i.endings s.alertHandlers).run (s.store alert) = (.ok (), t) →
        step s i = (t, .ok (.alert alert))) ∧
      ∀ error t, (notifyHandlers alert i.endings s.alertHandlers).run (s.store alert) =
        (.error error, t) → step s i = (t, .error error) := by
  obtain ⟨clock, endings, call⟩ := i
  obtain ⟨title, description, severity, source, details, rfl⟩ := creates
  refine ⟨newAlert clock s.alerts.length title description severity source details, ?_, ?_⟩
  · intro t run
    simp only [step, perform, createAlert, Method.run_map, Method.run_bind, Method.run_read,
      Method.run_update, Method.run_check, Method.run_pure, absent, Option.isSome_none,
      Bool.false_eq_true, if_false, run]
  · intro error t run
    simp only [step, perform, createAlert, Method.run_map, Method.run_bind, Method.run_read,
      Method.run_update, Method.run_check, absent, Option.isSome_none, Bool.false_eq_true, if_false,
      run]

/-- A call that raises with the alert stored. -/
theorem not_allOrNothing_of_half {alert : SecurityAlert} {error : MonitoringError}
    {t : SecurityMonitoring κ} (run : step s i = (t, .error error))
    (stored : t.alerts = s.alerts ++ [alert]) : ¬AllOrNothing (entry step s i) := by
  simp only [AllOrNothing, entry, run, stored]
  rintro (⟨_, -, same⟩ | ⟨_, returned, -⟩)
  · have lengths := congrArg List.length same
    simp at lengths
  · cases returned

theorem allOrNothing_iff (creates : Creates i) :
    AllOrNothing (entry step s i) ↔
      s.auditLogger = none ∧ ∀ k < s.alertHandlers.length, i.endings k ≠ .aborts := by
  cases logger : s.auditLogger with
  | some logger =>
    obtain ⟨error, alert, run⟩ := step_logged logger creates
    exact iff_of_false (not_allOrNothing_of_half run rfl) (by simp)
  | none =>
    obtain ⟨alert, returns, raises⟩ := step_unlogged logger creates
    rcases run_notifyHandlers alert s.alertHandlers i.endings (s.store alert) with
      ⟨none_aborts, run⟩ | ⟨⟨k, small, ends⟩, called, run⟩
    · refine iff_of_true (.inr ⟨alert, ?_⟩) ⟨rfl, none_aborts⟩
      simp only [entry, returns _ run, true_and]
      refine ⟨List.mem_append_right _ List.mem_cons_self, ?_, rfl⟩
      intro present is_logger
      cases logger.symm.trans is_logger
    · refine iff_of_false (not_allOrNothing_of_half (raises _ _ run) rfl) ?_
      rintro ⟨-, none_aborts⟩
      exact none_aborts k small ends

theorem auditLogger_step (i : Input κ) : (step s i).1.auditLogger = s.auditLogger := by
  cases call : i.call with
  | createAlert title description severity source details =>
    have creates : Creates i := ⟨title, description, severity, source, details, call⟩
    cases logger : s.auditLogger with
    | some logger =>
      obtain ⟨error, alert, run⟩ := step_logged logger creates
      rw [run]
      exact logger
    | none =>
      obtain ⟨alert, returns, raises⟩ := step_unlogged logger creates
      rcases run_notifyHandlers alert s.alertHandlers i.endings (s.store alert) with
        ⟨-, run⟩ | ⟨-, called, run⟩
      · rw [returns _ run]
        exact logger
      · rw [raises _ _ run]
        exact logger
  | getAlerts severity acknowledged limit =>
    rw [step, call, perform, Method.run_map_snd, getAlerts, Method.run_bind, Method.run_read]
    simp only
    split
    · rfl
    · rfl
  | acknowledgeAlert alertId | resolveAlert alertId =>
    simp only [step, call, perform, Method.run_map_snd, acknowledgeAlert, resolveAlert, changeAlert,
      Method.run_bind, Method.run_read]
    split
    · rfl
    · rfl
  | addAlertHandler handler => rw [step, call]; rfl

/-- Each call of `create_alert` in a run is all or nothing, if and only if the monitor was built
without an audit logger and no handler lets anything but an `Exception` out. -/
theorem creations_allOrNothing_iff (auditLogger : Option (AuditLogger κ)) (is : List (Input κ)) :
    (∀ e ∈ trace step (new auditLogger) is, Creates e.input → AllOrNothing e) ↔
      ∀ e ∈ trace step (new auditLogger) is, Creates e.input →
        auditLogger = none ∧ ∀ k < e.pre.alertHandlers.length, e.input.endings k ≠ .aborts := by
  have each : ∀ e ∈ trace step (new auditLogger) is, Creates e.input → (AllOrNothing e ↔
      auditLogger = none ∧ ∀ k < e.pre.alertHandlers.length, e.input.endings k ≠ .aborts) := by
    intro e member creates
    have built : e.pre.auditLogger = auditLogger :=
      @pre_invariant _ _ _ step _ is (fun s => s.auditLogger = auditLogger) rfl
        (fun s i kept => (auditLogger_step i).trans kept) e member
    rw [entry_of_mem member, allOrNothing_iff creates, built]
    rfl
  constructor
  · intro holds e member creates
    exact (each e member creates).mp (holds e member creates)
  · intro holds e member creates
    exact (each e member creates).mpr (holds e member creates)

def firstAlert : Input Nat :=
  ⟨fun _ => 300, fun _ => .returns, .createAlert "Test" "desc" .low "src" .empty⟩

/-- The framework gives the monitor its audit logger. -/
theorem creation_halfway : ¬∀ (auditLogger : Option (AuditLogger Nat)) (is : List (Input Nat)),
    ∀ e ∈ trace step (new auditLogger) is, Creates e.input → AllOrNothing e := by
  intro holds
  have creates : Creates firstAlert := ⟨_, _, _, _, _, rfl⟩
  have whole := holds (some ⟨.none, [], [], true⟩) [firstAlert] (entry step (new _) firstAlert)
    List.mem_cons_self creates
  cases ((allOrNothing_iff creates).mp whole).1

end SecurityMonitoring

end BtApiSecurity.Monitoring
