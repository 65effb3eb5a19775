import BtApiSecurity.Monitoring.Reading

/-!
# The summary of the monitor

The summary counts the stored alerts. These are the same with and without an audit
logger, although with one every `create_alert` raises.
-/

namespace BtApiSecurity.Monitoring

structure MonitoringSummary where
  totalAlerts : Nat
  unacknowledged : Nat
  critical : Nat
  high : Nat
  recent24h : Nat

namespace SecurityMonitoring
open Py Audit Machine

variable {κ : Type} {s s' : SecurityMonitoring κ}

/-- The clock is read once for each alert. -/
def getMonitoringSummary (clock : Nat → Time) (s : SecurityMonitoring κ) : MonitoringSummary :=
  { totalAlerts := s.alerts.length
    unacknowledged := (s.alerts.filter fun alert => !alert.acknowledged).length
    critical := (s.alerts.filter fun alert => alert.severity = .critical).length
    high := (s.alerts.filter fun alert => alert.severity = .high).length
    recent24h := (s.alerts.zipIdx.filter fun read => clock read.2 - read.1.timestamp < 86400).length }

/-! ### The audit logger is not seen -/

theorem alerts_create (clock : Nat → Time) (endings : Nat → Audit.Ending) (title description : String)
    (severity : AlertSeverity) (source : String) (details : Dict String Value) :
    ((createAlert clock endings title description severity source details).run s).2.alerts =
      s.alerts ++ [newAlert clock s.alerts.length title description severity source details] := by
  cases logger : s.auditLogger with
  | none => exact alerts_createAlert logger clock endings title description severity source details
  | some _ =>
    obtain ⟨error, raised⟩ := logAlert_error
    simp only [createAlert, Method.run_bind, Method.run_read, Method.run_update, Method.run_check, logger,
      Option.isSome_some, if_true, raised]
    rfl

theorem change_unseen (same : s.alerts = s'.alerts) (f : SecurityAlert → SecurityAlert) (alertId : String) :
    ((changeAlert f alertId).run s).2.alerts = ((changeAlert f alertId).run s').2.alerts ∧
      ((changeAlert f alertId).run s).1 = ((changeAlert f alertId).run s').1 := by
  simp only [changeAlert, Method.run_bind, Method.run_read, same]
  cases markAlert f alertId s'.alerts with
  | none => exact ⟨same, rfl⟩
  | some alerts => exact ⟨rfl, rfl⟩

theorem read_unseen (same : s.alerts = s'.alerts) (severity : Option AlertSeverity)
    (acknowledged : Option Bool) (limit : Int) :
    ((getAlerts severity acknowledged limit).run s).2.alerts =
        ((getAlerts severity acknowledged limit).run s').2.alerts ∧
      ((getAlerts severity acknowledged limit).run s).1 =
        ((getAlerts severity acknowledged limit).run s').1 := by
  simp only [getAlerts, Method.run_bind, Method.run_read, same]
  by_cases unfiltered : severity = none ∧ acknowledged = none
  · simp only [unfiltered, and_self, if_true]
    exact ⟨rfl, rfl⟩
  · simp only [unfiltered, if_false]
    exact ⟨same, rfl⟩

/-- Monitors with the same alerts keep the same alerts, and answer alike but for `create_alert`. -/
theorem logger_unseen (same : s.alerts = s'.alerts) (i : Input κ) :
    (step s i).1.alerts = (step s' i).1.alerts ∧ (¬Creates i → (step s i).2 = (step s' i).2) := by
  obtain ⟨clock, endings, call⟩ := i
  cases call with
  | createAlert title description severity source details =>
    refine ⟨?_, fun other => absurd ⟨_, _, _, _, _, rfl⟩ other⟩
    simp only [step, perform, Method.run_map_snd, alerts_create, same]
  | getAlerts severity acknowledged limit =>
    obtain ⟨kept, answers⟩ := read_unseen same severity acknowledged limit
    refine ⟨?_, fun _ => ?_⟩
    · simp only [step, perform, Method.run_map_snd, kept]
    · simp only [step, perform, Method.run_map_fst, answers]
  | acknowledgeAlert alertId =>
    obtain ⟨kept, answers⟩ := change_unseen same (fun alert => { alert with acknowledged := true }) alertId
    refine ⟨?_, fun _ => ?_⟩
    · simp only [step, perform, Method.run_map_snd, acknowledgeAlert, kept]
    · simp only [step, perform, Method.run_map_fst, acknowledgeAlert, answers]
  | resolveAlert alertId =>
    obtain ⟨kept, answers⟩ := change_unseen same (fun alert => { alert with resolved := true }) alertId
    refine ⟨?_, fun _ => ?_⟩
    · simp only [step, perform, Method.run_map_snd, resolveAlert, kept]
    · simp only [step, perform, Method.run_map_fst, resolveAlert, answers]
  | addAlertHandler handler => exact ⟨same, fun _ => rfl⟩

/-- The answers of a run, but for those of `create_alert`. -/
def answered (e : Event κ) : Option (Except MonitoringError Reply) :=
  match e.input.call with
  | .createAlert .. => none
  | _ => some e.output

theorem answered_unseen (same : s.alerts = s'.alerts) (i : Input κ) :
    answered (entry step s i) = answered (entry step s' i) := by
  have unseen := (logger_unseen same i).2
  obtain ⟨clock, endings, call⟩ := i
  cases call with
  | createAlert => rfl
  | _ => exact congrArg some (unseen (by simp [Creates]))

theorem unseen_run (same : s.alerts = s'.alerts) (is : List (Input κ)) :
    (run step s is).alerts = (run step s' is).alerts ∧
      (trace step s is).map answered = (trace step s' is).map answered := by
  induction is generalizing s s' with
  | nil => exact ⟨same, rfl⟩
  | cons i is ih =>
    obtain ⟨alerts, answers⟩ := ih (logger_unseen same i).1
    refine ⟨alerts, ?_⟩
    rw [trace, trace, List.map_cons, List.map_cons, answered_unseen same, answers]

/-! ### What is counted -/

/-- The severity and the time of the alert that the call creates. -/
def creation (i : Input κ) : Option (AlertSeverity × Time) :=
  match i.call with
  | .createAlert _ _ severity _ _ => some (severity, i.clock 1)
  | _ => none

def creations (is : List (Input κ)) : List (AlertSeverity × Time) := is.filterMap creation

theorem changed_seen {f : SecurityAlert → SecurityAlert}
    (keeps : ∀ alert, ((f alert).severity, (f alert).timestamp) = (alert.severity, alert.timestamp))
    (alertId : String) (alerts : List SecurityAlert) :
    (changed f alertId alerts).map (fun alert => (alert.severity, alert.timestamp)) =
      alerts.map fun alert => (alert.severity, alert.timestamp) := by
  rw [changed, List.map_map]
  apply List.map_congr_left
  intro alert _
  rw [Function.comp_apply]
  split
  · exact keeps alert
  · rfl

theorem recorded_creations (is : List (Input κ)) :
    (recorded is).map (fun alert => (alert.severity, alert.timestamp)) = creations is := by
  induction is using List.reverseRecOn with
  | nil => rfl
  | append_singleton is i ih =>
    rw [recorded, List.foldl_append, creations, List.filterMap_append, ← creations, ← ih]
    obtain ⟨clock, endings, call⟩ := i
    cases call with
    | createAlert title description severity source details => simp [record, creation, newAlert, recorded]
    | acknowledgeAlert alertId =>
      refine (changed_seen (f := acknowledge) (fun _ => rfl) alertId _).trans ?_
      simp [creation, recorded]
    | resolveAlert alertId =>
      refine (changed_seen (f := resolve) (fun _ => rfl) alertId _).trans ?_
      simp [creation, recorded]
    | getAlerts | addAlertHandler => simp [record, creation, recorded]

/-- How many of the alerts are younger than a day at the reading. -/
def youngAt (t : Time) (created : List (AlertSeverity × Time)) : Nat :=
  created.countP fun c => t - c.2 < 86400

theorem recent_between {clock : Nat → Time} {early late : Time}
    (between : ∀ k, early ≤ clock k ∧ clock k ≤ late) :
    youngAt late (s.alerts.map fun alert => (alert.severity, alert.timestamp)) ≤
        (getMonitoringSummary clock s).recent24h ∧
      (getMonitoringSummary clock s).recent24h ≤
        youngAt early (s.alerts.map fun alert => (alert.severity, alert.timestamp)) := by
  have young : ∀ t, youngAt t (s.alerts.map fun alert => (alert.severity, alert.timestamp)) =
      s.alerts.zipIdx.countP fun read => t - read.1.timestamp < 86400 := by
    intro t
    conv_lhs => rw [← List.zipIdx_map_fst 0 s.alerts]
    rw [youngAt, List.countP_map, List.countP_map]
    rfl
  have recent : (getMonitoringSummary clock s).recent24h =
      s.alerts.zipIdx.countP fun read => clock read.2 - read.1.timestamp < 86400 :=
    List.countP_eq_length_filter.symm
  rw [young, young, recent]
  constructor
  · apply List.countP_mono_left
    intro read _ fresh
    have later := (between read.2).2
    simp only [decide_eq_true_eq] at fresh ⊢
    linarith
  · apply List.countP_mono_left
    intro read _ fresh
    have earlier := (between read.2).1
    simp only [decide_eq_true_eq] at fresh ⊢
    linarith

/-- With or without an audit logger the summary counts every `create_alert` of the history, also one that
raised; the last day is told to within the time that the readings took. -/
theorem summary_by_history (auditLogger : Option (AuditLogger κ)) (is : List (Input κ))
    (clock : Nat → Time) (early late : Time) (between : ∀ k, early ≤ clock k ∧ clock k ≤ late) :
    let summary := (run step (new auditLogger) is).getMonitoringSummary clock
    summary.totalAlerts = (creations is).length ∧
      summary.critical = (creations is).countP (fun c => c.1 = .critical) ∧
      summary.high = (creations is).countP (fun c => c.1 = .high) ∧
      summary.unacknowledged = (recorded is).countP (fun alert => !alert.acknowledged) ∧
      youngAt late (creations is) ≤ summary.recent24h ∧ summary.recent24h ≤ youngAt early (creations is) ∧
      (trace step (new auditLogger) is).map answered = (trace step (new none) is).map answered := by
  intro summary
  have start : (new auditLogger).alerts = (new (κ := κ) none).alerts := rfl
  obtain ⟨alerts, answers⟩ := unseen_run start is
  have perm : (run step (new auditLogger) is).alerts.Perm (recorded is) := by
    rw [alerts]
    exact (recorded_run is).same.perm
  have seen := perm.map fun alert => (alert.severity, alert.timestamp)
  rw [recorded_creations] at seen
  have severities : ∀ severity,
      ((run step (new auditLogger) is).alerts.filter fun alert => alert.severity = severity).length =
        (creations is).countP fun c => c.1 = severity := by
    intro severity
    rw [← List.countP_eq_length_filter, ← seen.countP_eq, List.countP_map]
    rfl
  have young : ∀ t, youngAt t ((run step (new auditLogger) is).alerts.map
      fun alert => (alert.severity, alert.timestamp)) = youngAt t (creations is) :=
    fun t => seen.countP_eq _
  have recent := recent_between (s := run step (new auditLogger) is) between
  rw [young, young] at recent
  refine ⟨?_, severities _, severities _, ?_, recent.1, recent.2, answers⟩
  · exact (List.length_map _).symm.trans seen.length_eq
  · exact List.countP_eq_length_filter.symm.trans (perm.countP_eq _)

/-! ### Four calls -/

/-- Each call reads a clock that goes on by a second from `t`. -/
def alertAt (t : Nat) (severity : AlertSeverity) : Input Nat :=
  ⟨fun k => ((t + k : Nat) : Time), fun _ => .returns, .createAlert "Test" "desc" severity "src" .empty⟩

/-- Three alerts, the first of which is acknowledged. -/
def threeAlerts : List (Input Nat) :=
  [alertAt 1000 .critical, alertAt 80000 .high,
    ⟨fun _ => 80010, fun _ => .returns, .acknowledgeAlert (alertIdAt 1000 0)⟩, alertAt 86000 .low]

/-- The day of the first alert ends between the readings. -/
def slowReading (k : Nat) : Time := ((87000 + 200 * min k 3 : Nat) : Time)

theorem slowReading_between (k : Nat) : 87000 ≤ slowReading k ∧ slowReading k ≤ 87600 := by
  have early : 87000 ≤ 87000 + 200 * min k 3 := by omega
  have late : 87000 + 200 * min k 3 ≤ 87600 := by omega
  unfold slowReading
  exact ⟨by exact_mod_cast early, by exact_mod_cast late⟩

/-- The alerts of calls that raised are counted. -/
theorem threeAlerts_counted :
    let summary := (run step (new (some ⟨.none, [], [], true⟩)) threeAlerts).getMonitoringSummary slowReading
    summary.totalAlerts = 3 ∧ summary.critical = 1 ∧ summary.high = 1 ∧ summary.unacknowledged = 2 ∧
      2 ≤ summary.recent24h ∧ summary.recent24h ≤ 3 ∧
      (trace step (new (some ⟨.none, [], [], true⟩)) threeAlerts).map answered =
        (trace step (new none) threeAlerts).map answered := by
  obtain ⟨total, critical, high, unacknowledged, late, early, answers⟩ :=
    summary_by_history (some ⟨.none, [], [], true⟩) threeAlerts slowReading 87000 87600 slowReading_between
  refine ⟨total.trans rfl, critical.trans ?_, high.trans ?_, unacknowledged.trans ?_, ?_, ?_, answers⟩
  · decide +kernel
  · decide +kernel
  · decide +kernel
  · exact le_trans (by decide +kernel) late
  · exact early.trans (by decide +kernel)

end SecurityMonitoring

end BtApiSecurity.Monitoring
