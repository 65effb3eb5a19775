import BtApiSecurity.Threats.AccessRate
import BtApiSecurity.Threats.BruteForce

/-!
# What is reported, and what is done about it

Which threat a call reports is a matter of the calls so far and their times. From the
level of the threat follows the response: locks and blocks for the serious ones, and a
watch on the others.
-/

namespace BtApiSecurity.Threats
open Py Machine

/-! ### The response -/

inductive ResponseAction where
  | blockIp (ipAddress duration : String)
  | lockUser (userId reason : String)
  | sendAlert (type message : String)
  | enhancedMonitoring (userId ipAddress : String)
  deriving DecidableEq

structure ThreatResponse where
  threatId : String
  responseActions : List ResponseAction
  timestamp : Time

/-- An empty text is as good as none. -/
def present (s : Option String) : Option String := s.filter (· ≠ "")

def blockActions (ipAddress : Option String) : List ResponseAction :=
  (present ipAddress).toList.map fun ipAddress => .blockIp ipAddress "24_hours"

def lockActions (userId : Option String) (threatType : ThreatType) : List ResponseAction :=
  (present userId).toList.flatMap fun userId =>
    [.lockUser userId ("Threat detected: " ++ threatType.value),
      .sendAlert "security_team" ("Critical security threat detected: " ++ threatType.value)]

def actionsFor (level : ThreatLevel) (threatType : ThreatType) (userId ipAddress : Option String) :
    List ResponseAction :=
  match level with
  | .high | .critical => blockActions ipAddress ++ lockActions userId threatType
  | .medium => [.enhancedMonitoring (userId.getD "") (ipAddress.getD "")]
  | .low => []

def autoRespondToThreat (now : Time) (threatEvent : ThreatEvent) : ThreatResponse where
  threatId := threatEvent.eventId
  responseActions :=
    actionsFor threatEvent.level threatEvent.threatType threatEvent.userId threatEvent.ipAddress
  timestamp := now

namespace ThreatDetector

/-! ### What the calls say -/

/-- What a threat is about. -/
structure Threat where
  threatType : ThreatType
  level : ThreatLevel
  userId : Option String
  ipAddress : Option String
  eventId : String
  timestamp : Time
  deriving DecidableEq

def threatOf (e : ThreatEvent) : Threat :=
  ⟨e.threatType, e.level, e.userId, e.ipAddress, e.eventId, e.timestamp⟩

/-- The address of a refused access. -/
def refusedFrom (i : Input) : Option String :=
  match i.call with
  | .detectUnauthorizedAccessAttempt _ _ ipAddress _ => some ipAddress
  | _ => none

/-- How many accesses were refused from the address. -/
def refusals (ipAddress : String) (is : List Input) : Nat :=
  is.countP fun i => refusedFrom i = some ipAddress

variable (env : Env) (thresholds : Dict String Rat)

/-- Kind, level, user and address of the threat that the last call of a history reports. -/
def judged (is : List Input) (i : Input) : Option (ThreatType × ThreatLevel × String × Option String) :=
  match i.call with
  | .detectFailedLogin userId ipAddress => do
    let limit ← thresholds.get? "failed_login_threshold"
    if limit ≤ (min 100 (gluedSince (loginKey userId ipAddress) is i.now) : Nat) then
      some (.bruteForce, if 10 < (keysSince ipAddress is i.now).length then .high else .medium, userId,
        some ipAddress)
    else none
  | .detectSuspiciousAccessPattern userId _ ipAddress => do
    let limit ← thresholds.get? "data_access_threshold"
    if limit < accessesSince userId is i.now then some (.anomalousTraffic, .medium, userId, some ipAddress)
    else none
  | .detectUnauthorizedAccessAttempt userId _ ipAddress _ => do
    let limit ← thresholds.get? "suspicious_ip_threshold"
    some (.unauthorizedAccess, if limit < refusals ipAddress is then .critical else .high, userId,
      some ipAddress)
  | .analyzeLoginAnomaly userId ipAddress _ => do
    let hour ← env.hourOf i.now
    if hour < 6 ∨ 22 < hour then some (.suspiciousLogin, .medium, userId, some ipAddress) else none
  | .detectDataExfiltration userId dataSize _ =>
    if largeDataThreshold < dataSize then some (.dataExfiltration, .high, userId, none) else none
  | .getThreatSummary _ | .resolveThreat _ _ => none

/-- The threat that the call of `i` reports after `before`. -/
def threatAfter (before : List Input) (i : Input) : Option Threat :=
  (judged env thresholds (before ++ [i]) i).map fun (kind, level, userId, ipAddress) =>
    ⟨kind, level, some userId, ipAddress, eventIdAt kind i.now, i.clock 1⟩

/-- The threats that are reported from `before` on. -/
def threatsFrom (before : List Input) : List Input → List Threat
  | [] => []
  | i :: is => (threatAfter env thresholds before i).toList ++ threatsFrom (before ++ [i]) is

def threats (is : List Input) : List Threat := threatsFrom env thresholds [] is

def reported : Except DetectorError Reply → Option ThreatEvent
  | .ok (.event event) => event
  | _ => none

variable {env thresholds} {s : ThreatDetector} {i : Input}

theorem threatsFrom_snoc (before is : List Input) (i : Input) :
    threatsFrom env thresholds before (is ++ [i]) =
      threatsFrom env thresholds before is ++ (threatAfter env thresholds (before ++ is) i).toList := by
  induction is generalizing before with
  | nil => simp [threatsFrom]
  | cons j is ih => simp [threatsFrom, ih]

/-! ### One step -/

/-- The call reports the threat, and stores what it reports. -/
structure Reports (env : Env) (s : ThreatDetector) (i : Input) (threat : Option Threat) : Prop where
  reply : (reported (step env s i).2).map threatOf = threat
  stored : (step env s i).1.threatEvents.map threatOf = s.threatEvents.map threatOf ++ threat.toList

theorem reports_of_ending {finds : Prop} [Decidable finds] {m : M (Option ThreatEvent)} {event : ThreatEvent}
    (performs : perform env i.clock i.call = Reply.event <$> m)
    (run : m.run s = ending finds (noted s i) event) :
    Reports env s i (if finds then some (threatOf event) else none) := by
  have same := threatEvents_noted s i
  rw [ending] at run
  by_cases holds : finds
  · rw [if_pos holds] at run ⊢
    constructor
    · simp only [step, performs, Method.run_map, run, reported, Option.map_some]
    · simp only [step, performs, Method.run_map, run, store, same, List.map_append, List.map_singleton,
        Option.toList_some]
  · rw [if_neg holds] at run ⊢
    constructor
    · simp only [step, performs, Method.run_map, run, reported, Option.map_none]
    · simp only [step, performs, Method.run_map, run, same, Option.toList_none, List.append_nil]

theorem reports_of_raise {m : M (Option ThreatEvent)} {error : DetectorError}
    (performs : perform env i.clock i.call = Reply.event <$> m) (run : m.run s = (.error error, noted s i)) :
    Reports env s i none := by
  constructor
  · simp only [step, performs, Method.run_map, run, reported, Option.map_none]
  · simp only [step, performs, Method.run_map, run, threatEvents_noted, Option.toList_none, List.append_nil]

theorem seenFrom_noteIp (s : ThreatDetector) (ipAddress other : String) :
    (s.noteIp ipAddress).seenFrom other = s.seenFrom other + if ipAddress = other then 1 else 0 := by
  simp only [seenFrom, noteIp, Dict.get?_set]
  split
  · rename_i same
    rw [same]
    rfl
  · rfl

theorem seenFrom_step (env : Env) (s : ThreatDetector) (i : Input) (ipAddress : String) :
    (step env s i).1.seenFrom ipAddress =
      s.seenFrom ipAddress + if refusedFrom i = some ipAddress then 1 else 0 := by
  have kept : (step env s i).1.seenFrom ipAddress = (noted s i).seenFrom ipAddress := by
    rw [step_noted]
    rfl
  rw [kept]
  obtain ⟨clock, call⟩ := i
  cases call with
  | detectUnauthorizedAccessAttempt userId resource from_ extra =>
    simp only [noted, refusedFrom, Option.some.injEq]
    exact seenFrom_noteIp s from_ ipAddress
  | _ => rfl

theorem seenFrom_run (env : Env) (thresholds : Dict String Rat) (ipAddress : String) (is : List Input) :
    (run (step env) (new thresholds) is).seenFrom ipAddress = refusals ipAddress is := by
  induction is using List.reverseRecOn with
  | nil => rfl
  | append_singleton is i ih =>
    rw [run_append, run_cons, run_nil, seenFrom_step, ih, refusals, refusals, List.countP_append,
      List.countP_singleton]
    simp only [decide_eq_true_eq]

theorem reports_unauthorized (env : Env) (thresholds : Dict String Rat) (before : List Input) (clock : Clock)
    (userId resource ipAddress : String) (extra : Option (Dict String Value)) :
    Reports env (run (step env) (new thresholds) before)
      ⟨clock, .detectUnauthorizedAccessAttempt userId resource ipAddress extra⟩
      (threatAfter env thresholds before
        ⟨clock, .detectUnauthorizedAccessAttempt userId resource ipAddress extra⟩) := by
  have same := thresholds_run env thresholds before
  have seen : ((run (step env) (new thresholds) before).noteIp ipAddress).seenFrom ipAddress =
      refusals ipAddress
        (before ++ [⟨clock, .detectUnauthorizedAccessAttempt userId resource ipAddress extra⟩]) := by
    rw [← seenFrom_run env thresholds, run_append, run_cons, run_nil, seenFrom_step, seenFrom_noteIp,
      refusedFrom, if_pos rfl, if_pos rfl]
  cases set : thresholds.get? "suspicious_ip_threshold" with
  | none =>
    have raises := error_detectUnauthorizedAccessAttempt clock userId resource ipAddress extra (same.symm ▸ set)
    simp only [threatAfter, judged, set]
    constructor
    · simp only [step, perform, Method.run_map, raises]
      rfl
    · simp only [step, perform, Method.run_map, raises]
      exact (List.append_nil _).symm
  | some limit =>
    have run := run_detectUnauthorizedAccessAttempt clock userId resource ipAddress extra (same.symm ▸ set)
    simp only [seen] at run
    simp only [threatAfter, judged, set]
    constructor
    · simp only [step, perform, Method.run_map, run]
      rfl
    · simp only [step, perform, Method.run_map, run, store, List.map_append, List.map_singleton]
      rfl

theorem reports_failedLogin (env : Env) (thresholds : Dict String Rat) {before : List Input} {clock : Clock}
    {userId ipAddress : String}
    (ascending : AscendingClock (before ++ [⟨clock, .detectFailedLogin userId ipAddress⟩])) :
    Reports env (run (step env) (new thresholds) before) ⟨clock, .detectFailedLogin userId ipAddress⟩
      (threatAfter env thresholds before ⟨clock, .detectFailedLogin userId ipAddress⟩) := by
  have same := thresholds_run env thresholds before
  have kept := fun key => failuresOf_noted ⟨clock, .detectFailedLogin userId ipAddress⟩ key
    (failuresOf_run env thresholds before)
  change ∀ key, ((run (step env) (new thresholds) before).track (loginKey userId ipAddress) (clock 0)).failuresOf
    key = _ at kept
  cases set : thresholds.get? "failed_login_threshold" with
  | none =>
    simp only [threatAfter, judged, set]
    exact reports_of_raise rfl (error_detectFailedLogin (same.symm ▸ set))
  | some limit =>
    have performs : perform env clock (.detectFailedLogin userId ipAddress) =
        Reply.event <$> detectFailedLogin clock userId ipAddress := rfl
    have reports := reports_of_ending (i := ⟨clock, .detectFailedLogin userId ipAddress⟩) performs
      (run_detectFailedLogin clock userId ipAddress (same.symm ▸ set))
    rw [kept, ipFailures_eq ascending kept, recent_lastOf _ ascending] at reports
    convert reports using 1
    simp only [threatAfter, judged, set, Option.bind_eq_bind, Option.bind_some, Option.map_if]
    rfl

theorem reports_access (env : Env) (thresholds : Dict String Rat) {before : List Input} {clock : Clock}
    {userId resource ipAddress : String} (ascending : AscendingClock
      (before ++ [⟨clock, .detectSuspiciousAccessPattern userId resource ipAddress⟩])) :
    Reports env (run (step env) (new thresholds) before)
      ⟨clock, .detectSuspiciousAccessPattern userId resource ipAddress⟩
      (threatAfter env thresholds before ⟨clock, .detectSuspiciousAccessPattern userId resource ipAddress⟩) := by
  have same := thresholds_run env thresholds before
  have rate := length_accessesOf env thresholds ascending rfl
  cases set : thresholds.get? "data_access_threshold" with
  | none =>
    simp only [threatAfter, judged, set]
    exact reports_of_raise rfl (error_detectSuspiciousAccessPattern (same.symm ▸ set))
  | some limit =>
    have performs : perform env clock (.detectSuspiciousAccessPattern userId resource ipAddress) =
        Reply.event <$> detectSuspiciousAccessPattern clock userId resource ipAddress := rfl
    have reports := reports_of_ending
      (i := ⟨clock, .detectSuspiciousAccessPattern userId resource ipAddress⟩) performs
      (run_detectSuspiciousAccessPattern clock userId resource ipAddress (same.symm ▸ set))
    rw [Input.now] at rate
    rw [rate] at reports
    convert reports using 1
    simp only [threatAfter, judged, set, Option.bind_eq_bind, Option.bind_some, Option.map_if]
    rfl

theorem reports_step (env : Env) (thresholds : Dict String Rat) {before : List Input} {i : Input}
    (ascending : AscendingClock (before ++ [i])) :
    Reports env (run (step env) (new thresholds) before) i (threatAfter env thresholds before i) := by
  obtain ⟨clock, call⟩ := i
  cases call with
  | detectFailedLogin userId ipAddress => exact reports_failedLogin env thresholds ascending
  | detectSuspiciousAccessPattern userId resource ipAddress => exact reports_access env thresholds ascending
  | detectUnauthorizedAccessAttempt userId resource ipAddress extra =>
    exact reports_unauthorized env thresholds before clock userId resource ipAddress extra
  | analyzeLoginAnomaly userId ipAddress userAgent =>
    cases date : env.hourOf (clock 0) with
    | none =>
      simp only [threatAfter, judged, Input.now, date]
      exact reports_of_raise rfl (error_analyzeLoginAnomaly date)
    | some hour =>
      have performs : perform env clock (.analyzeLoginAnomaly userId ipAddress userAgent) =
          Reply.event <$> analyzeLoginAnomaly env clock userId ipAddress userAgent := rfl
      convert reports_of_ending (i := ⟨clock, .analyzeLoginAnomaly userId ipAddress userAgent⟩) performs
        (run_analyzeLoginAnomaly date) using 1
      simp only [threatAfter, judged, Input.now, date, Option.bind_eq_bind, Option.bind_some, Option.map_if]
      rfl
  | detectDataExfiltration userId dataSize resource =>
    have performs : perform env clock (.detectDataExfiltration userId dataSize resource) =
        Reply.event <$> detectDataExfiltration clock userId dataSize resource := rfl
    convert reports_of_ending (i := ⟨clock, .detectDataExfiltration userId dataSize resource⟩) performs
      (run_if_storeEvent _ _ _) using 1
    simp only [threatAfter, judged, Option.map_if]
    rfl
  | getThreatSummary timeWindow => exact ⟨rfl, (List.append_nil _).symm⟩
  | resolveThreat eventId note =>
    generalize run (step env) (new thresholds) before = s
    constructor
    · simp only [step, perform, Method.run_map, resolveThreat, Method.run_bind, Method.run_read]
      cases markThreat (resolvedAt (clock 0) note) eventId s.threatEvents <;> rfl
    · refine Eq.trans ?_ (List.append_nil _).symm
      simp only [step, perform, Method.run_map, resolveThreat, Method.run_bind, Method.run_read]
      cases mark : markThreat (resolvedAt (clock 0) note) eventId s.threatEvents with
      | none => rfl
      | some marked => exact map_markFirst (f := resolvedAt (clock 0) note) (fun _ => rfl) mark

theorem threats_run (env : Env) (thresholds : Dict String Rat) {is : List Input}
    (ascending : AscendingClock is) :
    (run (step env) (new thresholds) is).threatEvents.map threatOf = threats env thresholds is := by
  induction is using List.reverseRecOn with
  | nil => rfl
  | append_singleton is i ih =>
    have stored := (reports_step env thresholds ascending).stored
    rw [run_append, run_cons, run_nil, stored, ih (ascending_append ascending).1, threats, threats,
      threatsFrom_snoc, List.nil_append]

/-- In every run under a clock that does not go back the events are the threats that the calls say, a call
reports the next of them, and a summary tells of those in its window. -/
theorem threats_by_history (env : Env) (thresholds : Dict String Rat) {is : List Input} {i : Input}
    (ascending : AscendingClock (is ++ [i])) :
    let s := run (step env) (new thresholds) is
    s.threatEvents.map threatOf = threats env thresholds is ∧
      (reported (step env s i).2).map threatOf = threatAfter env thresholds is i ∧
      ∀ clock timeWindow, ∃ summary, (getThreatSummary clock timeWindow).run s = (.ok summary, s) ∧
        let recent := (threats env thresholds is).filter fun threat => clock 0 - timeWindow ≤ threat.timestamp
        summary.totalThreats = recent.length ∧
          summary.byType = perKey (recent.map fun threat => threat.threatType.value) ∧
          summary.byLevel = perKey (recent.map fun threat => threat.level.value) ∧
          summary.recentEvents.map threatOf = lastOf 10 recent := by
  intro s
  have stored : s.threatEvents.map threatOf = threats env thresholds is :=
    threats_run env thresholds (ascending_append ascending).1
  refine ⟨stored, (reports_step env thresholds ascending).reply, ?_⟩
  intro clock timeWindow
  refine ⟨_, rfl, ?_⟩
  rw [← stored, List.filter_map]
  refine ⟨(List.length_map _).symm, ?_, ?_, ?_⟩
  · rw [List.map_map]
    exact foldl_bump _
  · rw [List.map_map]
    exact foldl_bump _
  · rw [lastOf, lastOf, List.map_drop, List.length_map]
    rfl

/-! ### What is done about it -/

section
variable (env : Env) (thresholds : Dict String Rat) (is : List Input) (i : Input)

/-- The last call `i` of a history is a serious threat by the user, from the address if it has one. -/
inductive Escalates : String → Option String → Prop
  | bruteForce {userId ipAddress : String} {limit : Rat} (call : i.call = .detectFailedLogin userId ipAddress)
      (set : thresholds.get? "failed_login_threshold" = some limit)
      (reached : limit ≤ (min 100 (gluedSince (loginKey userId ipAddress) is i.now) : Nat))
      (many : 10 < (keysSince ipAddress is i.now).length) : Escalates userId (some ipAddress)
  | unauthorized {userId resource ipAddress : String} {extra : Option (Dict String Value)} {limit : Rat}
      (call : i.call = .detectUnauthorizedAccessAttempt userId resource ipAddress extra)
      (set : thresholds.get? "suspicious_ip_threshold" = some limit) : Escalates userId (some ipAddress)
  | exfiltration {userId resource : String} {dataSize : Int}
      (call : i.call = .detectDataExfiltration userId dataSize resource)
      (large : largeDataThreshold < dataSize) : Escalates userId none

/-- It is a threat that is to be watched. -/
inductive Suspects : String → String → Prop
  | bruteForce {userId ipAddress : String} {limit : Rat} (call : i.call = .detectFailedLogin userId ipAddress)
      (set : thresholds.get? "failed_login_threshold" = some limit)
      (reached : limit ≤ (min 100 (gluedSince (loginKey userId ipAddress) is i.now) : Nat))
      (few : (keysSince ipAddress is i.now).length ≤ 10) : Suspects userId ipAddress
  | access {userId resource ipAddress : String} {limit : Rat}
      (call : i.call = .detectSuspiciousAccessPattern userId resource ipAddress)
      (set : thresholds.get? "data_access_threshold" = some limit)
      (rapid : limit < accessesSince userId is i.now) : Suspects userId ipAddress
  | login {userId ipAddress userAgent : String} {hour : Nat}
      (call : i.call = .analyzeLoginAnomaly userId ipAddress userAgent) (date : env.hourOf i.now = some hour)
      (unusual : hour < 6 ∨ 22 < hour) : Suspects userId ipAddress

end

variable {is : List Input} {userId ipAddress : String}

theorem judged_escalates (env : Env) {ip : Option String} (escalates : Escalates thresholds is i userId ip) :
    ∃ kind level, judged env thresholds is i = some (kind, level, userId, ip) ∧
      (level = .high ∨ level = .critical) := by
  cases escalates with
  | bruteForce call set reached many =>
    refine ⟨.bruteForce, .high, ?_, .inl rfl⟩
    rw [judged, call]
    simp only [set, Option.bind_eq_bind, Option.bind_some, if_pos reached, if_pos many]
  | @unauthorized _ ipAddress _ limit call set =>
    refine ⟨.unauthorizedAccess, if limit < refusals ipAddress is then .critical else .high, ?_, ?_⟩
    · rw [judged, call]
      simp only [set, Option.bind_eq_bind, Option.bind_some]
    · split
      · exact .inr rfl
      · exact .inl rfl
  | exfiltration call large =>
    refine ⟨.dataExfiltration, .high, ?_, .inl rfl⟩
    rw [judged, call]
    exact if_pos large

theorem judged_suspects (suspects : Suspects env thresholds is i userId ipAddress) :
    ∃ kind, judged env thresholds is i = some (kind, .medium, userId, some ipAddress) := by
  cases suspects with
  | bruteForce call set reached few =>
    refine ⟨.bruteForce, ?_⟩
    rw [judged, call]
    simp only [set, Option.bind_eq_bind, Option.bind_some, if_pos reached, if_neg (Nat.not_lt.mpr few)]
  | access call set rapid =>
    refine ⟨.anomalousTraffic, ?_⟩
    rw [judged, call]
    simp only [set, Option.bind_eq_bind, Option.bind_some, if_pos rapid]
  | login call date unusual =>
    refine ⟨.suspiciousLogin, ?_⟩
    rw [judged, call]
    simp only [date, Option.bind_eq_bind, Option.bind_some, if_pos unusual]

/-- What is judged is serious or suspicious. -/
theorem judged_cases {kind : ThreatType} {level : ThreatLevel} {ip : Option String}
    (threat : judged env thresholds is i = some (kind, level, userId, ip)) :
    (level = .high ∨ level = .critical) ∧ Escalates thresholds is i userId ip ∨
      level = .medium ∧ ∃ ipAddress, ip = some ipAddress ∧ Suspects env thresholds is i userId ipAddress := by
  obtain ⟨clock, call⟩ := i
  cases call with
  | detectFailedLogin =>
    simp only [judged, Option.bind_eq_bind, Option.bind_eq_some_iff, Option.ite_none_right_eq_some] at threat
    obtain ⟨limit, set, reached, same⟩ := threat
    split at same
    · rename_i many
      cases same
      exact .inl ⟨.inl rfl, .bruteForce rfl set reached many⟩
    · rename_i few
      cases same
      exact .inr ⟨rfl, _, rfl, .bruteForce rfl set reached (Nat.not_lt.mp few)⟩
  | detectSuspiciousAccessPattern =>
    simp only [judged, Option.bind_eq_bind, Option.bind_eq_some_iff, Option.ite_none_right_eq_some] at threat
    obtain ⟨limit, set, rapid, same⟩ := threat
    cases same
    exact .inr ⟨rfl, _, rfl, .access rfl set rapid⟩
  | detectUnauthorizedAccessAttempt =>
    simp only [judged, Option.bind_eq_bind, Option.bind_eq_some_iff] at threat
    obtain ⟨limit, set, same⟩ := threat
    split at same
    · cases same
      exact .inl ⟨.inr rfl, .unauthorized rfl set⟩
    · cases same
      exact .inl ⟨.inl rfl, .unauthorized rfl set⟩
  | analyzeLoginAnomaly =>
    simp only [judged, Option.bind_eq_bind, Option.bind_eq_some_iff, Option.ite_none_right_eq_some] at threat
    obtain ⟨hour, date, unusual, same⟩ := threat
    cases same
    exact .inr ⟨rfl, _, rfl, .login rfl date unusual⟩
  | detectDataExfiltration =>
    simp only [judged, Option.ite_none_right_eq_some] at threat
    obtain ⟨large, same⟩ := threat
    cases same
    exact .inl ⟨.inl rfl, .exfiltration rfl large⟩
  | getThreatSummary | resolveThreat => cases threat

theorem present_some {t : Option String} {text : String} :
    present t = some text ↔ t = some text ∧ text ≠ "" := by
  rw [present, Option.filter_eq_some_iff, decide_eq_true_eq]

theorem mem_actionsFor_serious {level : ThreatLevel} (serious : level = .high ∨ level = .critical)
    {kind : ThreatType} {user ip : Option String} {action : ResponseAction} :
    action ∈ actionsFor level kind user ip ↔
      (∃ a, (ip = some a ∧ a ≠ "") ∧ action = .blockIp a "24_hours") ∨
        ∃ u, (user = some u ∧ u ≠ "") ∧ (action = .lockUser u ("Threat detected: " ++ kind.value) ∨
          action = .sendAlert "security_team" ("Critical security threat detected: " ++ kind.value)) := by
  have actions : actionsFor level kind user ip = blockActions ip ++ lockActions user kind := by
    rcases serious with rfl | rfl
    · rfl
    · rfl
  rw [actions, List.mem_append]
  simp only [blockActions, lockActions, List.mem_map, List.mem_flatMap, Option.mem_toList, present_some,
    List.mem_cons, List.not_mem_nil, or_false, eq_comm (b := action)]

/-- What the response to the reported threat asks for. -/
def Demands (env : Env) (thresholds : Dict String Rat) (is : List Input) (i : Input) (now : Time)
    (action : ResponseAction) : Prop :=
  ∃ e, reported (step env (run (step env) (new thresholds) is) i).2 = some e ∧
    action ∈ (autoRespondToThreat now e).responseActions

theorem demands_iff (ascending : AscendingClock (is ++ [i])) {now : Time} {action : ResponseAction} :
    Demands env thresholds is i now action ↔ ∃ kind level userId ip,
      judged env thresholds (is ++ [i]) i = some (kind, level, userId, ip) ∧
        action ∈ actionsFor level kind (some userId) ip := by
  have reply := (reports_step env thresholds ascending).reply
  unfold Demands
  rw [threatAfter] at reply
  generalize reported (step env (run (step env) (new thresholds) is) i).2 = event at reply
  constructor
  · rintro ⟨e, rfl, demanded⟩
    rw [Option.map_some, eq_comm, Option.map_eq_some_iff] at reply
    obtain ⟨⟨kind, level, userId, ip⟩, threat, same⟩ := reply
    obtain ⟨rfl, rfl, user, rfl, -, -⟩ := Threat.mk.inj same
    rw [autoRespondToThreat, ← user] at demanded
    exact ⟨_, _, _, _, threat, demanded⟩
  · rintro ⟨kind, level, userId, ip, threat, demanded⟩
    rw [threat, Option.map_some, Option.map_eq_some_iff] at reply
    obtain ⟨e, rfl, same⟩ := reply
    obtain ⟨rfl, rfl, user, rfl, -, -⟩ := Threat.mk.inj same
    rw [← user] at demanded
    exact ⟨e, rfl, demanded⟩

/-- The users that the responses lock, the addresses that they block and the pairs that they watch are
those of the serious threats and of the others that the calls say. -/
theorem responses_by_history (env : Env) (thresholds : Dict String Rat) {is : List Input} {i : Input}
    (ascending : AscendingClock (is ++ [i])) (now : Time) (userId ipAddress : String) :
    ((∃ reason, Demands env thresholds is i now (.lockUser userId reason)) ↔
        userId ≠ "" ∧ ∃ ip, Escalates thresholds (is ++ [i]) i userId ip) ∧
      ((∃ duration, Demands env thresholds is i now (.blockIp ipAddress duration)) ↔
        ipAddress ≠ "" ∧ ∃ userId, Escalates thresholds (is ++ [i]) i userId (some ipAddress)) ∧
      (Demands env thresholds is i now (.enhancedMonitoring userId ipAddress) ↔
        Suspects env thresholds (is ++ [i]) i userId ipAddress) := by
  have medium : ∀ kind user ip, actionsFor .medium kind (some user) (some ip) = [.enhancedMonitoring user ip] :=
    fun _ _ _ => rfl
  simp only [demands_iff ascending]
  refine ⟨⟨?_, ?_⟩, ⟨?_, ?_⟩, ?_, ?_⟩
  · rintro ⟨reason, kind, level, user, ip, threat, demanded⟩
    rcases judged_cases threat with ⟨serious, escalates⟩ | ⟨rfl, _, rfl, -⟩
    · simp only [mem_actionsFor_serious serious, ResponseAction.lockUser.injEq, reduceCtorEq, and_false,
        exists_false, false_or, or_false, Option.some.injEq] at demanded
      obtain ⟨_, ⟨rfl, filled⟩, rfl, -⟩ := demanded
      exact ⟨filled, ip, escalates⟩
    · simp [medium] at demanded
  · rintro ⟨filled, ip, escalates⟩
    obtain ⟨kind, level, threat, serious⟩ := judged_escalates env escalates
    refine ⟨"Threat detected: " ++ kind.value, kind, level, userId, ip, threat, ?_⟩
    rw [mem_actionsFor_serious serious]
    exact .inr ⟨userId, ⟨rfl, filled⟩, .inl rfl⟩
  · rintro ⟨duration, kind, level, user, ip, threat, demanded⟩
    rcases judged_cases threat with ⟨serious, escalates⟩ | ⟨rfl, _, rfl, -⟩
    · simp only [mem_actionsFor_serious serious, ResponseAction.blockIp.injEq, reduceCtorEq, and_false,
        exists_false, or_false] at demanded
      obtain ⟨_, ⟨rfl, filled⟩, rfl, -⟩ := demanded
      exact ⟨filled, user, escalates⟩
    · simp [medium] at demanded
  · rintro ⟨filled, user, escalates⟩
    obtain ⟨kind, level, threat, serious⟩ := judged_escalates env escalates
    refine ⟨"24_hours", kind, level, user, some ipAddress, threat, ?_⟩
    rw [mem_actionsFor_serious serious]
    exact .inl ⟨ipAddress, ⟨rfl, filled⟩, rfl⟩
  · rintro ⟨kind, level, user, ip, threat, demanded⟩
    rcases judged_cases threat with ⟨serious, -⟩ | ⟨rfl, _, rfl, suspects⟩
    · simp [mem_actionsFor_serious serious] at demanded
    · rw [medium, List.mem_singleton, ResponseAction.enhancedMonitoring.injEq] at demanded
      obtain ⟨rfl, rfl⟩ := demanded
      exact suspects
  · intro suspects
    obtain ⟨kind, threat⟩ := judged_suspects suspects
    refine ⟨kind, .medium, userId, some ipAddress, threat, ?_⟩
    rw [medium]
    exact List.mem_singleton_self _

/-! ### Two failed logins and a large transfer -/

def nightless : Env := ⟨fun _ => some 12⟩

def transferAt (t : Time) : Input := ⟨fun _ => t, .detectDataExfiltration "bob" 200000000 "orders"⟩

theorem transfer_ascending : AscendingClock (plainRun ++ [transferAt 2]) := by
  unfold AscendingClock
  decide +kernel

theorem plainRun_threats : (run (step nightless) (new twoFailures) plainRun).threatEvents.map threatOf =
    [⟨.bruteForce, .medium, some "ann", some "10.0.0.1", "brute_force_1", 1⟩] :=
  (threats_by_history nightless twoFailures transfer_ascending).1.trans (by decide +kernel)

theorem transfer_locks :
    ∃ reason, Demands nightless twoFailures plainRun (transferAt 2) 3 (.lockUser "bob" reason) :=
  (responses_by_history nightless twoFailures transfer_ascending 3 "bob" "").1.mpr
    ⟨by decide, none, .exfiltration rfl (by decide)⟩

end ThreatDetector

end BtApiSecurity.Threats
