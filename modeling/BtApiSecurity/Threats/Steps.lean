import BtApiSecurity.Threats.Detector

/-!
# The steps of the detector

A call first notes what it is told, and then stores at most one event. What a call
finds is decided by the state in which it has noted that.
-/

namespace BtApiSecurity.Threats.ThreatDetector
open Py Machine

variable {env : Env} {s : ThreatDetector} {i : Input}

/-- The state in which the call of `i` has noted what it is told. -/
def noted (s : ThreatDetector) (i : Input) : ThreatDetector :=
  match i.call with
  | .detectFailedLogin userId ipAddress => s.track (loginKey userId ipAddress) i.now
  | .detectSuspiciousAccessPattern userId _ _ => s.noteAccess userId i.now
  | .detectUnauthorizedAccessAttempt _ _ ipAddress _ => s.noteIp ipAddress
  | _ => s

/-- The type of the threat that the call of `i` finds. -/
def found (env : Env) (s : ThreatDetector) (i : Input) : Option ThreatType :=
  match i.call with
  | .detectFailedLogin userId ipAddress =>
    (s.thresholds.get? "failed_login_threshold").bind fun limit =>
      if limit ≤ recent i.now 300 ((noted s i).failuresOf (loginKey userId ipAddress)) then
        some .bruteForce
      else none
  | .detectSuspiciousAccessPattern userId _ _ =>
    (s.thresholds.get? "data_access_threshold").bind fun limit =>
      if limit < ((noted s i).accessesOf userId).length then some .anomalousTraffic else none
  | .detectUnauthorizedAccessAttempt _ _ _ _ =>
    (s.thresholds.get? "suspicious_ip_threshold").map fun _ => .unauthorizedAccess
  | .analyzeLoginAnomaly _ _ _ =>
    (env.hourOf i.now).bind fun hour =>
      if hour < 6 ∨ 22 < hour then some .suspiciousLogin else none
  | .detectDataExfiltration _ dataSize _ =>
    if largeDataThreshold < dataSize then some .dataExfiltration else none
  | .getThreatSummary _ | .resolveThreat _ _ => none

def ids (s : ThreatDetector) : List String := s.threatEvents.map (·.eventId)

/-! ### What each detection does -/

theorem run_threshold (name : String) (s : ThreatDetector) :
    (threshold name).run s = (orRaise (s.thresholds.get? name) (.keyError name), s) := rfl

theorem run_storeEvent (event : ThreatEvent) (s : ThreatDetector) :
    (storeEvent event).run s = (.ok event, s.store event) := rfl

/-- How a detection ends that stores an event where `finds`. -/
def ending (finds : Prop) [Decidable finds] (t : ThreatDetector) (event : ThreatEvent) :
    Except DetectorError (Option ThreatEvent) × ThreatDetector :=
  if finds then (.ok (some event), t.store event) else (.ok none, t)

theorem run_if_storeEvent (finds : Prop) [Decidable finds] (event : ThreatEvent) (t : ThreatDetector) :
    (if finds then some <$> storeEvent event else return none : M (Option ThreatEvent)).run t =
      ending finds t event := by
  unfold ending
  split
  · rfl
  · rfl

theorem run_detectFailedLogin (clock : Clock) (userId ipAddress : String) {limit : Rat}
    (set : s.thresholds.get? "failed_login_threshold" = some limit) :
    (detectFailedLogin clock userId ipAddress).run s =
      let t := s.track (loginKey userId ipAddress) (clock 0)
      let failures := recent (clock 0) 300 (t.failuresOf (loginKey userId ipAddress))
      ending (limit ≤ failures) t
        (failedLoginEvent clock userId ipAddress failures (t.ipFailures ipAddress (clock 0))) := by
  have kept : (s.track (loginKey userId ipAddress) (clock 0)).thresholds = s.thresholds := rfl
  simp only [detectFailedLogin, Method.run_bind, Method.run_update, Method.run_read, run_threshold,
    kept, set, orRaise_some, run_if_storeEvent]

theorem run_detectSuspiciousAccessPattern (clock : Clock) (userId resource ipAddress : String)
    {limit : Rat} (set : s.thresholds.get? "data_access_threshold" = some limit) :
    (detectSuspiciousAccessPattern clock userId resource ipAddress).run s =
      let t := s.noteAccess userId (clock 0)
      let accesses := (t.accessesOf userId).length
      ending (limit < accesses) t (accessEvent clock userId resource ipAddress accesses) := by
  have kept : (s.noteAccess userId (clock 0)).thresholds = s.thresholds := rfl
  simp only [detectSuspiciousAccessPattern, Method.run_bind, Method.run_update, Method.run_read,
    run_threshold, kept, set, orRaise_some, run_if_storeEvent]

theorem error_detectFailedLogin {clock : Clock} {userId ipAddress : String}
    (unset : s.thresholds.get? "failed_login_threshold" = none) :
    (detectFailedLogin clock userId ipAddress).run s =
      (.error (.keyError "failed_login_threshold"), s.track (loginKey userId ipAddress) (clock 0)) := by
  have kept : (s.track (loginKey userId ipAddress) (clock 0)).thresholds = s.thresholds := rfl
  simp only [detectFailedLogin, Method.run_bind, Method.run_update, Method.run_read, run_threshold,
    kept, unset, orRaise_none]

theorem error_detectSuspiciousAccessPattern {clock : Clock} {userId resource ipAddress : String}
    (unset : s.thresholds.get? "data_access_threshold" = none) :
    (detectSuspiciousAccessPattern clock userId resource ipAddress).run s =
      (.error (.keyError "data_access_threshold"), s.noteAccess userId (clock 0)) := by
  have kept : (s.noteAccess userId (clock 0)).thresholds = s.thresholds := rfl
  simp only [detectSuspiciousAccessPattern, Method.run_bind, Method.run_update, Method.run_read,
    run_threshold, kept, unset, orRaise_none]

theorem run_detectUnauthorizedAccessAttempt (clock : Clock) (userId resource ipAddress : String)
    (extra : Option (Dict String Value)) {limit : Rat}
    (set : s.thresholds.get? "suspicious_ip_threshold" = some limit) :
    (detectUnauthorizedAccessAttempt clock userId resource ipAddress extra).run s =
      let t := s.noteIp ipAddress
      let event := unauthorizedEvent clock (if limit < t.seenFrom ipAddress then .critical else .high) userId
        resource ipAddress (t.seenFrom ipAddress) extra
      (.ok event, t.store event) := by
  have kept : (s.noteIp ipAddress).thresholds = s.thresholds := rfl
  simp only [detectUnauthorizedAccessAttempt, Method.run_bind, Method.run_update, Method.run_read,
    run_threshold, kept, set, orRaise_some, run_storeEvent]

theorem error_detectUnauthorizedAccessAttempt (clock : Clock) (userId resource ipAddress : String)
    (extra : Option (Dict String Value)) (unset : s.thresholds.get? "suspicious_ip_threshold" = none) :
    (detectUnauthorizedAccessAttempt clock userId resource ipAddress extra).run s =
      (.error (.keyError "suspicious_ip_threshold"), s.noteIp ipAddress) := by
  have kept : (s.noteIp ipAddress).thresholds = s.thresholds := rfl
  simp only [detectUnauthorizedAccessAttempt, Method.run_bind, Method.run_update, Method.run_read,
    run_threshold, kept, unset, orRaise_none]

theorem run_analyzeLoginAnomaly {clock : Clock} {userId ipAddress userAgent : String} {hour : Nat}
    (date : env.hourOf (clock 0) = some hour) :
    (analyzeLoginAnomaly env clock userId ipAddress userAgent).run s =
      ending (hour < 6 ∨ 22 < hour) s (loginEvent clock userId ipAddress userAgent hour) := by
  rw [analyzeLoginAnomaly, Method.run_bind, date]
  exact run_if_storeEvent _ _ s

theorem error_analyzeLoginAnomaly {clock : Clock} {userId ipAddress userAgent : String}
    (date : env.hourOf (clock 0) = none) :
    (analyzeLoginAnomaly env clock userId ipAddress userAgent).run s = (.error .fromTimestamp, s) := by
  rw [analyzeLoginAnomaly, Method.run_bind, date]
  rfl

/-! ### One step -/

/-- What one step can do: store an event of the type that it finds, or only note what it is told,
or mark an event. -/
inductive Does (env : Env) (s : ThreatDetector) (i : Input) : Prop where
  | stores (kind : ThreatType) (event : ThreatEvent) (finds : found env s i = some kind)
      (id : event.eventId = eventIdAt kind i.now)
      (does : step env s i = ((noted s i).store event, .ok (.event (some event))))
  | notes (finds : found env s i = none) (does : (step env s i).1 = noted s i)
  | marks (eventId note : String) (marked : List ThreatEvent)
      (call : i.call = .resolveThreat eventId note)
      (mark : markThreat (resolvedAt i.now note) eventId s.threatEvents = some marked)
      (does : (step env s i).1 = { s with threatEvents := marked })

theorem reply_of_ending {finds : Prop} [Decidable finds] {m : M (Option ThreatEvent)}
    {t : ThreatDetector} {event : ThreatEvent} (performs : perform env i.clock i.call = Reply.event <$> m)
    (run : m.run s = ending finds t event) :
    (step env s i).2 = .ok (.event (if finds then some event else none)) := by
  rw [step, performs, Method.run_map, run, ending]
  by_cases holds : finds
  · rw [if_pos holds, if_pos holds]
  · rw [if_neg holds, if_neg holds]

theorem does_of_ending {finds : Prop} [Decidable finds] {m : M (Option ThreatEvent)}
    (kind : ThreatType) (event : ThreatEvent) (performs : perform env i.clock i.call = Reply.event <$> m)
    (run : m.run s = ending finds (noted s i) event)
    (decides : found env s i = if finds then some kind else none)
    (id : event.eventId = eventIdAt kind i.now) : Does env s i := by
  by_cases holds : finds
  · rw [if_pos holds] at decides
    refine .stores kind event decides id ?_
    rw [step, performs, Method.run_map, run, ending, if_pos holds]
  · rw [if_neg holds] at decides
    refine .notes decides ?_
    rw [step, performs, Method.run_map, run, ending, if_neg holds]

/-- Where the threshold is not set, the call raises with its note taken. -/
theorem does_of_raise {m : M (Option ThreatEvent)} {error : DetectorError}
    (performs : perform env i.clock i.call = Reply.event <$> m)
    (run : m.run s = (.error error, noted s i)) (finds : found env s i = none) : Does env s i := by
  refine .notes finds ?_
  rw [step, performs, Method.run_map_snd, run]

theorem does_failedLogin (env : Env) (s : ThreatDetector) (clock : Clock) (userId ipAddress : String) :
    Does env s ⟨clock, .detectFailedLogin userId ipAddress⟩ := by
  cases set : s.thresholds.get? "failed_login_threshold" with
  | none =>
    refine does_of_raise rfl (error_detectFailedLogin set) ?_
    simp only [found, set, Option.bind_none]
  | some limit =>
    refine does_of_ending .bruteForce _ rfl (run_detectFailedLogin clock userId ipAddress set) ?_ rfl
    simp only [found, set, Option.bind_some]
    rfl

theorem does_access (env : Env) (s : ThreatDetector) (clock : Clock) (userId resource ipAddress : String) :
    Does env s ⟨clock, .detectSuspiciousAccessPattern userId resource ipAddress⟩ := by
  cases set : s.thresholds.get? "data_access_threshold" with
  | none =>
    refine does_of_raise rfl (error_detectSuspiciousAccessPattern set) ?_
    simp only [found, set, Option.bind_none]
  | some limit =>
    refine does_of_ending .anomalousTraffic _ rfl
      (run_detectSuspiciousAccessPattern clock userId resource ipAddress set) ?_ rfl
    simp only [found, set, Option.bind_some]
    rfl

theorem does_unauthorized (env : Env) (s : ThreatDetector) (clock : Clock)
    (userId resource ipAddress : String) (extra : Option (Dict String Value)) :
    Does env s ⟨clock, .detectUnauthorizedAccessAttempt userId resource ipAddress extra⟩ := by
  cases set : s.thresholds.get? "suspicious_ip_threshold" with
  | none =>
    refine .notes (by simp only [found, set, Option.map_none]) ?_
    simp only [step, perform, Method.run_map_snd,
      error_detectUnauthorizedAccessAttempt clock userId resource ipAddress extra set]
    rfl
  | some limit =>
    let seen := (s.noteIp ipAddress).seenFrom ipAddress
    refine .stores .unauthorizedAccess (unauthorizedEvent clock
      (if limit < seen then .critical else .high) userId resource ipAddress seen extra) ?_ rfl ?_
    · simp only [found, set, Option.map_some]
    · simp only [step, perform, Method.run_map,
        run_detectUnauthorizedAccessAttempt clock userId resource ipAddress extra set]
      rfl

theorem does_login (env : Env) (s : ThreatDetector) (clock : Clock) (userId ipAddress userAgent : String) :
    Does env s ⟨clock, .analyzeLoginAnomaly userId ipAddress userAgent⟩ := by
  cases date : env.hourOf (clock 0) with
  | none =>
    refine does_of_raise rfl (error_analyzeLoginAnomaly date) ?_
    simp only [found, Input.now, date, Option.bind_none]
  | some hour =>
    refine does_of_ending .suspiciousLogin _ rfl (run_analyzeLoginAnomaly date) ?_ rfl
    simp only [found, Input.now, date, Option.bind_some]

theorem does_resolve (env : Env) (s : ThreatDetector) (clock : Clock) (eventId note : String) :
    Does env s ⟨clock, .resolveThreat eventId note⟩ := by
  cases mark : markThreat (resolvedAt (clock 0) note) eventId s.threatEvents with
  | none =>
    refine .notes rfl ?_
    simp only [step, perform, Method.run_map_snd, resolveThreat, Method.run_bind, Method.run_read, mark]
    rfl
  | some marked =>
    refine .marks eventId note marked rfl mark ?_
    simp only [step, perform, Method.run_map_snd, resolveThreat, Method.run_bind, Method.run_read, mark]
    rfl

theorem does_step (env : Env) (s : ThreatDetector) (i : Input) : Does env s i := by
  obtain ⟨clock, call⟩ := i
  cases call with
  | detectFailedLogin userId ipAddress => exact does_failedLogin env s clock userId ipAddress
  | detectSuspiciousAccessPattern userId resource ipAddress =>
    exact does_access env s clock userId resource ipAddress
  | detectUnauthorizedAccessAttempt userId resource ipAddress extra =>
    exact does_unauthorized env s clock userId resource ipAddress extra
  | analyzeLoginAnomaly userId ipAddress userAgent =>
    exact does_login env s clock userId ipAddress userAgent
  | detectDataExfiltration userId dataSize resource =>
    exact does_of_ending .dataExfiltration (exfiltrationEvent clock userId dataSize resource) rfl
      (run_if_storeEvent _ _ _) rfl rfl
  | getThreatSummary timeWindow => exact .notes rfl rfl
  | resolveThreat eventId note => exact does_resolve env s clock eventId note

/-- Beyond its note and the events a step changes nothing. -/
theorem step_noted (env : Env) (s : ThreatDetector) (i : Input) :
    (step env s i).1 = { noted s i with threatEvents := (step env s i).1.threatEvents } := by
  cases does_step env s i with
  | stores kind event finds id does => rw [does]; rfl
  | notes finds does => rw [does]
  | marks eventId note marked call mark does =>
    rw [does, noted, call]

theorem threatEvents_noted (s : ThreatDetector) (i : Input) :
    (noted s i).threatEvents = s.threatEvents := by
  unfold noted
  split
  all_goals rfl

theorem thresholds_step (i : Input) : (step env s i).1.thresholds = s.thresholds := by
  rw [step_noted]
  unfold noted
  split
  all_goals rfl

/-- A step that finds something adds its id. -/
theorem ids_step (env : Env) (s : ThreatDetector) (i : Input) :
    ids (step env s i).1 = ids s ++ ((found env s i).map fun kind => eventIdAt kind i.now).toList := by
  cases does_step env s i with
  | stores kind event finds id does =>
    rw [does, finds, ids, store, threatEvents_noted, List.map_append, List.map_singleton, id]
    rfl
  | notes finds does =>
    rw [does, finds, ids, threatEvents_noted]
    exact (List.append_nil _).symm
  | marks eventId note marked call mark does =>
    have finds : found env s i = none := by rw [found, call]
    rw [does, finds, ids, map_markFirst (f := resolvedAt i.now note) (fun _ => rfl) mark]
    exact (List.append_nil _).symm

/-! ### Runs -/

theorem thresholds_run (env : Env) (thresholds : Dict String Rat) (is : List Input) :
    (run (step env) (new thresholds) is).thresholds = thresholds :=
  @run_invariant _ _ _ (step env) _ is (fun s => s.thresholds = thresholds) rfl
    fun _ i same => (thresholds_step i).trans same

def AscendingClock (is : List Input) : Prop := (is.map Input.now).Pairwise (· ≤ ·)

theorem ascending_append {is : List Input} {i : Input} (ascending : AscendingClock (is ++ [i])) :
    AscendingClock is ∧ ∀ j ∈ is, j.now ≤ i.now := by
  rw [AscendingClock, List.map_append, List.pairwise_append] at ascending
  obtain ⟨before, -, last⟩ := ascending
  refine ⟨before, ?_⟩
  intro j member
  exact last j.now (List.mem_map_of_mem member) i.now (List.mem_singleton.mpr rfl)

end BtApiSecurity.Threats.ThreatDetector
