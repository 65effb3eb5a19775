import BtApiSecurity.Monitoring.Alerts
import BtApiSecurity.Py.Stable
import BtApiSecurity.Py.Text

/-!
# Reading alerts

A reading without a filter sorts the stored list. The alerts in the order of their
creation are kept beside it here: sorting does not tell the two lists apart.
-/

namespace BtApiSecurity.Monitoring.SecurityMonitoring
open Py Machine

variable {κ : Type} {s : SecurityMonitoring κ} {alerts : List SecurityAlert}

/-! ### What is recorded -/

def changed (f : SecurityAlert → SecurityAlert) (alertId : String) (alerts : List SecurityAlert) :
    List SecurityAlert :=
  alerts.map fun alert => if alert.alertId = alertId then f alert else alert

def acknowledge (alert : SecurityAlert) : SecurityAlert := { alert with acknowledged := true }

def resolve (alert : SecurityAlert) : SecurityAlert := { alert with resolved := true }

/-- What a call does to the alerts in the order of their creation. A reading does nothing to them. -/
def record (alerts : List SecurityAlert) (i : Input κ) : List SecurityAlert :=
  match i.call with
  | .createAlert title description severity source details =>
    alerts ++ [newAlert i.clock alerts.length title description severity source details]
  | .acknowledgeAlert alertId => changed acknowledge alertId alerts
  | .resolveAlert alertId => changed resolve alertId alerts
  | .getAlerts _ _ _ | .addAlertHandler _ => alerts

def recorded (is : List (Input κ)) : List SecurityAlert := is.foldl record []

def fits (severity : Option AlertSeverity) (acknowledged : Option Bool) (alert : SecurityAlert) : Bool :=
  severity.all (alert.severity = ·) && acknowledged.all (alert.acknowledged = ·)

/-- The stored alerts are the recorded ones, but for an order that sorting does not see; an alert has
the number of its place in its id. -/
structure Recorded (s : SecurityMonitoring κ) (alerts : List SecurityAlert) : Prop where
  unlogged : s.auditLogger = none
  same : SameByKey SecurityAlert.timestamp s.alerts alerts
  numbered : ∀ n alert, alerts[n]? = some alert → ∃ t, alert.alertId = alertIdAt t n

/-! ### The number in an id -/

theorem separator_natChars (n : Nat) : '_' ∉ natChars n := by
  intro member
  have digit := isDigit_natChars n '_' member
  revert digit
  decide

theorem toList_alertIdAt (t : Time) (n : Nat) :
    (alertIdAt t n).toList = ("sec_" ++ intText (truncate t)).toList ++ '_' :: natChars n := by
  have digits : (intText n).toList = natChars n := by
    rw [intText, String.toList_ofList, intChars, if_neg (by omega), Int.natAbs_natCast]
  rw [alertIdAt, String.toList_append, String.toList_append, digits, List.append_assoc]
  rfl

theorem alertIdAt_number {t t' : Time} {n n' : Nat} (same : alertIdAt t n = alertIdAt t' n') : n = n' := by
  have lists := congrArg String.toList same
  rw [toList_alertIdAt, toList_alertIdAt] at lists
  exact natChars_injective (last_separator (separator_natChars n) (separator_natChars n') lists).2

theorem nodup_of_numbered
    (numbered : ∀ n alert, alerts[n]? = some alert → ∃ t, alert.alertId = alertIdAt t n) :
    (alerts.map (·.alertId)).Nodup := by
  rw [List.nodup_iff_getElem?_ne_getElem?]
  intro n n' before inside same
  rw [List.length_map] at inside
  rw [List.getElem?_map, List.getElem?_map, List.getElem?_eq_getElem inside,
    List.getElem?_eq_getElem (before.trans inside)] at same
  obtain ⟨t, first⟩ := numbered n _ (List.getElem?_eq_getElem (before.trans inside))
  obtain ⟨t', second⟩ := numbered n' _ (List.getElem?_eq_getElem inside)
  have number := alertIdAt_number (first.symm.trans ((Option.some.inj same).trans second))
  omega

theorem Recorded.distinct (inv : Recorded s alerts) : (s.alerts.map (·.alertId)).Nodup :=
  (inv.same.perm.map _).nodup_iff.mpr (nodup_of_numbered inv.numbered)

/-! ### Marking -/

theorem run_changeAlert_absent {f : SecurityAlert → SecurityAlert} {alertId : String}
    (absent : alertId ∉ s.alerts.map (·.alertId)) :
    (changeAlert f alertId).run s = (.ok false, s) := by
  simp only [changeAlert, markAlert, Method.run_bind, Method.run_read, markFirst_of_absent absent]
  rfl

theorem run_changeAlert_present {f : SecurityAlert → SecurityAlert} {alertId : String}
    (distinct : (s.alerts.map (·.alertId)).Nodup) (present : alertId ∈ s.alerts.map (·.alertId)) :
    (changeAlert f alertId).run s = (.ok true, { s with alerts := changed f alertId s.alerts }) := by
  simp only [changeAlert, markAlert, Method.run_bind, Method.run_read, markFirst_of_distinct distinct present]
  rfl

/-! ### One step -/

/-- The alert is stored before the handlers are called, who can keep the call from returning. -/
theorem alerts_createAlert (unlogged : s.auditLogger = none) (clock : Nat → Time)
    (endings : Nat → Audit.Ending) (title description : String) (severity : AlertSeverity) (source : String)
    (details : Dict String Value) :
    ((createAlert clock endings title description severity source details).run s).2.alerts =
      s.alerts ++ [newAlert clock s.alerts.length title description severity source details] := by
  have notified := run_notifyHandlers (newAlert clock s.alerts.length title description severity source details)
    s.alertHandlers endings (s.store (newAlert clock s.alerts.length title description severity source details))
  simp only [createAlert, Method.run_bind, Method.run_read, Method.run_update, Method.run_check, unlogged,
    Option.isSome_none, Bool.false_eq_true, if_false]
  rcases notified with ⟨-, run⟩ | ⟨-, called, run⟩
  · rw [run]
    rfl
  · rw [run]
    rfl

/-- What `get_alerts` answers is known from the recorded alerts. -/
theorem run_getAlerts (same : SameByKey SecurityAlert.timestamp s.alerts alerts)
    (severity : Option AlertSeverity) (acknowledged : Option Bool) (limit : Int) :
    ∃ stored, SameByKey SecurityAlert.timestamp stored alerts ∧
      (getAlerts severity acknowledged limit).run s =
        (.ok (sliceTo (newestFirst (alerts.filter (fits severity acknowledged))) limit),
          { s with alerts := stored }) := by
  have sorted : ∀ p, newestFirst (s.alerts.filter p) = newestFirst (alerts.filter p) := fun p =>
    sortReverse_congr (same.filter p)
  cases severity with
  | none =>
    cases acknowledged with
    | none =>
      have every : alerts.filter (fits none none) = alerts := List.filter_eq_self.mpr fun _ _ => rfl
      refine ⟨newestFirst s.alerts, (sameByKey_sortReverse s.alerts).trans same, ?_⟩
      have whole : newestFirst s.alerts = newestFirst alerts := sortReverse_congr same
      rw [every, ← whole]
      rfl
    | some acknowledged =>
      refine ⟨s.alerts, same, ?_⟩
      rw [← sorted]
      rfl
  | some severity =>
    refine ⟨s.alerts, same, ?_⟩
    rw [← sorted]
    cases acknowledged with
    | none =>
      have only : s.alerts.filter (fits (some severity) none) =
          s.alerts.filter (·.severity = severity) := by
        apply List.filter_congr
        intro alert _
        rw [fits, Option.all_some, Option.all_none, Bool.and_true]
      rw [only]
      rfl
    | some acknowledged =>
      have both : s.alerts.filter (fits (some severity) (some acknowledged)) =
          (s.alerts.filter (·.severity = severity)).filter (·.acknowledged = acknowledged) := by
        rw [List.filter_filter]
        apply List.filter_congr
        intro alert _
        rw [fits, Option.all_some, Option.all_some, Bool.and_comm]
      rw [both]
      rfl

theorem getElem?_changed {f : SecurityAlert → SecurityAlert} (keeps : ∀ alert, (f alert).alertId = alert.alertId)
    {alertId : String} {n : Nat} {alert : SecurityAlert} (found : (changed f alertId alerts)[n]? = some alert) :
    ∃ alert', alerts[n]? = some alert' ∧ alert'.alertId = alert.alertId := by
  rw [changed, List.getElem?_map] at found
  obtain ⟨alert', found', rfl⟩ := Option.map_eq_some_iff.mp found
  refine ⟨alert', found', ?_⟩
  split
  · exact (keeps alert').symm
  · rfl

theorem recorded_changed {f : SecurityAlert → SecurityAlert} (ids : ∀ alert, (f alert).alertId = alert.alertId)
    (times : ∀ alert, (f alert).timestamp = alert.timestamp) (inv : Recorded s alerts) (alertId : String) :
    Recorded ((changeAlert f alertId).run s).2 (changed f alertId alerts) := by
  have alike : SameByKey SecurityAlert.timestamp (changed f alertId s.alerts) (changed f alertId alerts) := by
    apply inv.same.map
    intro alert
    split
    · exact times alert
    · rfl
  have numbered : ∀ n alert, (changed f alertId alerts)[n]? = some alert →
      ∃ t, alert.alertId = alertIdAt t n := by
    intro n alert found
    obtain ⟨alert', found', same⟩ := getElem?_changed ids found
    exact same ▸ inv.numbered n alert' found'
  by_cases present : alertId ∈ s.alerts.map (·.alertId)
  · rw [run_changeAlert_present inv.distinct present]
    exact ⟨inv.unlogged, alike, numbered⟩
  · rw [run_changeAlert_absent present]
    rw [changed, map_mark_of_absent present] at alike
    exact ⟨inv.unlogged, alike, numbered⟩

theorem recorded_step (inv : Recorded s alerts) (i : Input κ) : Recorded (step s i).1 (record alerts i) := by
  have unlogged := (auditLogger_step i).trans inv.unlogged
  obtain ⟨clock, endings, call⟩ := i
  cases call with
  | createAlert title description severity source details =>
    refine ⟨unlogged, ?_, ?_⟩
    · rw [step, perform, Method.run_map_snd, alerts_createAlert inv.unlogged, inv.same.perm.length_eq]
      exact inv.same.append (.refl _)
    · intro n alert found
      rw [record, List.getElem?_append] at found
      split at found
      · exact inv.numbered n alert found
      · rename_i later
        rw [List.getElem?_singleton, Option.ite_none_right_eq_some] at found
        obtain ⟨position, is_new⟩ := found
        have last : n = alerts.length := by omega
        exact ⟨clock 0, by rw [← Option.some.inj is_new, last]; rfl⟩
  | getAlerts severity acknowledged limit =>
    obtain ⟨stored, same, run⟩ := run_getAlerts inv.same severity acknowledged limit
    rw [step, perform, Method.run_map_snd, run]
    exact ⟨inv.unlogged, same, inv.numbered⟩
  | acknowledgeAlert alertId =>
    rw [step, perform, Method.run_map_snd]
    exact recorded_changed (f := acknowledge) (fun _ => rfl) (fun _ => rfl) inv alertId
  | resolveAlert alertId =>
    rw [step, perform, Method.run_map_snd]
    exact recorded_changed (f := resolve) (fun _ => rfl) (fun _ => rfl) inv alertId
  | addAlertHandler handler => exact ⟨inv.unlogged, inv.same, inv.numbered⟩

/-! ### Runs -/

theorem recorded_run (is : List (Input κ)) : Recorded (run step (new none) is) (recorded is) := by
  have grown : ∀ (is : List (Input κ)) (s : SecurityMonitoring κ) (alerts : List SecurityAlert),
      Recorded s alerts → Recorded (run step s is) (is.foldl record alerts) := by
    intro is
    induction is with
    | nil => exact fun _ _ inv => inv
    | cons i is ih => exact fun s alerts inv => ih _ _ (recorded_step inv i)
  exact grown is (new none) [] ⟨rfl, .refl [], nofun⟩

/-- The call reads alerts. -/
def reads (i : Input κ) : Bool :=
  match i.call with
  | .getAlerts _ _ _ => true
  | _ => false

theorem record_reads {i : Input κ} (reading : reads i = true) (alerts : List SecurityAlert) :
    record alerts i = alerts := by
  obtain ⟨clock, endings, call⟩ := i
  cases call with
  | getAlerts => rfl
  | createAlert | acknowledgeAlert | resolveAlert | addAlertHandler => cases reading

theorem recorded_unread (is : List (Input κ)) : recorded (is.filter (!reads ·)) = recorded is := by
  have folded : ∀ (is : List (Input κ)) (alerts : List SecurityAlert),
      (is.filter (!reads ·)).foldl record alerts = is.foldl record alerts := by
    intro is
    induction is with
    | nil => exact fun _ => rfl
    | cons i is ih =>
      intro alerts
      rw [List.filter_cons]
      cases reading : reads i with
      | true =>
        rw [List.foldl_cons, record_reads reading]
        exact ih alerts
      | false => exact ih _
  exact folded is []

/-- Every alert has an id of its own, and is marked under it alone. -/
structure MarksOwn (s : SecurityMonitoring κ) : Prop where
  distinct : (s.alerts.map (·.alertId)).Nodup
  own : ∀ before alert after, s.alerts = before ++ alert :: after →
    (acknowledgeAlert alert.alertId).run s =
        (.ok true, { s with alerts := before ++ acknowledge alert :: after }) ∧
      (resolveAlert alert.alertId).run s = (.ok true, { s with alerts := before ++ resolve alert :: after })
  none : ∀ alertId, alertId ∉ s.alerts.map (·.alertId) →
    (acknowledgeAlert alertId).run s = (.ok false, s) ∧ (resolveAlert alertId).run s = (.ok false, s)

theorem marksOwn_of_distinct (distinct : (s.alerts.map (·.alertId)).Nodup) : MarksOwn s := by
  have own : ∀ (f : SecurityAlert → SecurityAlert) before alert after, s.alerts = before ++ alert :: after →
      (changeAlert f alert.alertId).run s = (.ok true, { s with alerts := before ++ f alert :: after }) := by
    intro f before alert after split
    have present : alert.alertId ∈ s.alerts.map (·.alertId) := by
      rw [split]
      exact List.mem_map_of_mem (List.mem_append_right _ List.mem_cons_self)
    rw [run_changeAlert_present distinct present, split, changed, map_mark_split (split ▸ distinct)]
  refine ⟨distinct, fun before alert after split => ?_, fun alertId absent => ?_⟩
  · exact ⟨own acknowledge before alert after split, own resolve before alert after split⟩
  · exact ⟨run_changeAlert_absent absent, run_changeAlert_absent absent⟩

theorem reply_getAlerts (is : List (Input κ)) (clock : Nat → Time) (endings : Nat → Audit.Ending)
    (severity : Option AlertSeverity) (acknowledged : Option Bool) (limit : Int) :
    (step (run step (new none) is) ⟨clock, endings, .getAlerts severity acknowledged limit⟩).2 =
      .ok (.alerts (sliceTo (newestFirst ((recorded is).filter (fits severity acknowledged))) limit)) := by
  obtain ⟨stored, -, answers⟩ := run_getAlerts (recorded_run is).same severity acknowledged limit
  rw [step, perform, Method.run_map, answers]

/-- The alerts with the newest in front, those of one time in the order in which they are given. -/
structure NewestFirst (alerts sorted : List SecurityAlert) : Prop where
  perm : sorted.Perm alerts
  newest : sorted.Pairwise fun alert later => later.timestamp ≤ alert.timestamp
  stable : ∀ t, sorted.filter (·.timestamp = t) = alerts.filter (·.timestamp = t)

/-- So many alerts from the front; with a negative limit, all but so many. -/
structure CutTo (limit : Int) (sorted answer : List SecurityAlert) : Prop where
  front : answer <+: sorted
  atMost : 0 ≤ limit → answer.length = min limit.toNat sorted.length
  allBut : limit < 0 → answer.length = sorted.length - limit.natAbs

theorem newestFirst_newestFirst (alerts : List SecurityAlert) :
    NewestFirst alerts (newestFirst alerts) where
  perm := perm_sortReverse alerts
  newest := descending_sortReverse alerts
  stable := sameByKey_sortReverse alerts

theorem cutTo_sliceTo (sorted : List SecurityAlert) (limit : Int) :
    CutTo limit sorted (sliceTo sorted limit) := by
  unfold sliceTo
  by_cases counted : 0 ≤ limit
  · rw [if_pos counted]
    exact ⟨List.take_prefix _ _, fun _ => List.length_take, fun negative => by omega⟩
  · rw [if_neg counted]
    refine ⟨List.take_prefix _ _, fun positive => absurd positive counted, fun _ => ?_⟩
    rw [List.length_take]
    omega

/-- A reading answers with the recorded alerts that fit, the newest first, and as if nothing had been
read before it. -/
theorem reading_unseen (is : List (Input κ)) :
    (∀ clock endings severity acknowledged limit,
      (step (run step (new none) is) ⟨clock, endings, .getAlerts severity acknowledged limit⟩).2 =
          (step (run step (new none) (is.filter (!reads ·)))
            ⟨clock, endings, .getAlerts severity acknowledged limit⟩).2 ∧
        ∃ sorted answer, NewestFirst ((recorded is).filter (fits severity acknowledged)) sorted ∧
          CutTo limit sorted answer ∧
          (step (run step (new none) is) ⟨clock, endings, .getAlerts severity acknowledged limit⟩).2 =
            .ok (.alerts answer)) ∧
      MarksOwn (run step (new none) is) := by
  refine ⟨?_, marksOwn_of_distinct (recorded_run is).distinct⟩
  intro clock endings severity acknowledged limit
  rw [reply_getAlerts, reply_getAlerts, recorded_unread]
  exact ⟨rfl, _, _, newestFirst_newestFirst _, cutTo_sliceTo _ _, rfl⟩

end BtApiSecurity.Monitoring.SecurityMonitoring
