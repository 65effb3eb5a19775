import BtApiSecurity.Machine
import BtApiSecurity.Py.First
import BtApiSecurity.Py.Method
import BtApiSecurity.Py.Tally
import BtApiSecurity.Py.Value
import BtApiSecurity.Py.Window

/-!
# The threat detector

Five detections store threat events. Failed logins are counted by user and address,
accesses to data by user, unauthorized accesses by address.
-/

namespace BtApiSecurity.Threats
open Py Machine

inductive ThreatLevel where
  | low
  | medium
  | high
  | critical
  deriving DecidableEq

namespace ThreatLevel

def value : ThreatLevel → String
  | .low => "low"
  | .medium => "medium"
  | .high => "high"
  | .critical => "critical"

end ThreatLevel

inductive ThreatType where
  | bruteForce
  | suspiciousLogin
  | anomalousTraffic
  | dataExfiltration
  | unauthorizedAccess
  | maliciousRequest
  | sqlInjection
  | xssAttack
  deriving DecidableEq

namespace ThreatType

def value : ThreatType → String
  | .bruteForce => "brute_force"
  | .suspiciousLogin => "suspicious_login"
  | .anomalousTraffic => "anomalous_traffic"
  | .dataExfiltration => "data_exfiltration"
  | .unauthorizedAccess => "unauthorized_access"
  | .maliciousRequest => "malicious_request"
  | .sqlInjection => "sql_injection"
  | .xssAttack => "xss_attack"

end ThreatType

/-- A detail is a value or a time that the detector noted. -/
inductive ThreatDetail where
  | value (v : Value)
  | time (t : Time)

structure ThreatEvent where
  eventId : String
  threatType : ThreatType
  level : ThreatLevel
  userId : Option String
  ipAddress : Option String
  details : Dict String ThreatDetail
  timestamp : Time
  resolved : Bool := false

/-- `hourOf` is `datetime.fromtimestamp(t).hour`, which depends on the time zone and raises for a
time that it has no date for. -/
structure Env where
  hourOf : Time → Option Nat

inductive DetectorError where
  | keyError (key : String)
  | fromTimestamp
  deriving DecidableEq

structure ThreatDetector where
  thresholds : Dict String Rat
  failedLogins : Dict String (List Time)
  suspiciousIps : Dict String Nat
  dataAccessPatterns : Dict String (List Time)
  threatEvents : List ThreatEvent

/-- The readings of `time.time()` during one call. -/
abbrev Clock := Nat → Time

structure ThreatSummary where
  totalThreats : Nat
  timeWindowSeconds : Int
  byType : List (String × Nat)
  byLevel : List (String × Nat)
  unresolved : Nat
  recentEvents : List ThreatEvent

namespace ThreatDetector

abbrev M := Method ThreatDetector DetectorError

/-- A config without thresholds takes the default ones. -/
def new (thresholds : Dict String Rat) : ThreatDetector := ⟨thresholds, .empty, .empty, .empty, []⟩

def defaultThresholds : Dict String Rat :=
  ((Dict.empty.set "failed_login_threshold" 5).set "suspicious_ip_threshold" 10).set
    "data_access_threshold" 1000

def threshold (name : String) : M Rat := do
  let s ← .read
  .check (orRaise (s.thresholds.get? name) (.keyError name))

def details (fields : List (String × ThreatDetail)) : Dict String ThreatDetail :=
  ⟨fromPairs fields, nodup_fromPairs fields⟩

def count (n : Nat) : ThreatDetail := .value (.int n)

def text (s : String) : ThreatDetail := .value (.str s)

/-! ### The ids of events -/

/-- What stands before the second in the id of an event. Three of the types have no producer. -/
def idPrefix : ThreatType → String
  | .bruteForce => "brute_force_"
  | .anomalousTraffic => "anomalous_access_"
  | .unauthorizedAccess => "unauthorized_"
  | .suspiciousLogin => "suspicious_login_"
  | .dataExfiltration => "data_exfil_"
  | .maliciousRequest | .sqlInjection | .xssAttack => ""

def eventIdAt (kind : ThreatType) (t : Time) : String := idPrefix kind ++ intText (truncate t)

/-- The first reading of the clock is in the id, the second is the time of the event. -/
def newEvent (clock : Clock) (kind : ThreatType) (level : ThreatLevel) (userId ipAddress : Option String)
    (fields : List (String × ThreatDetail)) : ThreatEvent :=
  { eventId := eventIdAt kind (clock 0), threatType := kind, level, userId, ipAddress
    details := details fields
    timestamp := clock 1 }

def store (s : ThreatDetector) (event : ThreatEvent) : ThreatDetector :=
  { s with threatEvents := s.threatEvents ++ [event] }

def storeEvent (event : ThreatEvent) : M ThreatEvent := do
  .update fun s => s.store event
  return event

/-! ### Detections -/

def loginKey (userId ipAddress : String) : String := userId ++ ":" ++ ipAddress

def recent (now window : Time) (times : List Time) : Nat := times.countP fun t => now - t < window

/-- What is kept for a key is a list as soon as it is looked up. -/
def failuresOf (s : ThreatDetector) (key : String) : List Time := (s.failedLogins.get? key).getD []

def track (s : ThreatDetector) (key : String) (now : Time) : ThreatDetector :=
  { s with failedLogins := s.failedLogins.set key (lastOf 100 (s.failuresOf key ++ [now])) }

/-- The keys that end like the address and have a recent failure. -/
def ipFailures (s : ThreatDetector) (ipAddress : String) (now : Time) : Nat :=
  s.failedLogins.entries.countP fun entry =>
    (":" ++ ipAddress).toList.isSuffixOf entry.1.toList && entry.2.any fun t => now - t < 300

def failedLoginEvent (clock : Clock) (userId ipAddress : String) (recentFailures ipFailures : Nat) :
    ThreatEvent :=
  newEvent clock .bruteForce (if 10 < ipFailures then .high else .medium) (some userId) (some ipAddress)
    [("failed_attempts", count recentFailures), ("total_ip_failures", count ipFailures),
      ("time_window", text "5_minutes")]

def detectFailedLogin (clock : Clock) (userId ipAddress : String) : M (Option ThreatEvent) := do
  let now := clock 0
  let key := loginKey userId ipAddress
  .update fun s => s.track key now
  let s ← .read
  let recentFailures := recent now 300 (s.failuresOf key)
  let limit ← threshold "failed_login_threshold"
  if limit ≤ recentFailures then
    some <$> storeEvent
      (failedLoginEvent clock userId ipAddress recentFailures (s.ipFailures ipAddress now))
  else return none

def accessesOf (s : ThreatDetector) (userId : String) : List Time :=
  (s.dataAccessPatterns.get? userId).getD []

def noteAccess (s : ThreatDetector) (userId : String) (now : Time) : ThreatDetector :=
  let accesses := (s.accessesOf userId ++ [now]).filter fun t => now - t < 3600
  { s with dataAccessPatterns := s.dataAccessPatterns.set userId accesses }

def accessEvent (clock : Clock) (userId resource ipAddress : String) (recentAccess : Nat) : ThreatEvent :=
  newEvent clock .anomalousTraffic .medium (some userId) (some ipAddress)
    [("access_count", count recentAccess), ("resource", text resource), ("time_window", text "1_hour")]

def detectSuspiciousAccessPattern (clock : Clock) (userId resource ipAddress : String) :
    M (Option ThreatEvent) := do
  let now := clock 0
  .update fun s => s.noteAccess userId now
  let s ← .read
  let recentAccess := (s.accessesOf userId).length
  let limit ← threshold "data_access_threshold"
  if limit < recentAccess then
    some <$> storeEvent (accessEvent clock userId resource ipAddress recentAccess)
  else return none

def seenFrom (s : ThreatDetector) (ipAddress : String) : Nat :=
  (s.suspiciousIps.get? ipAddress).getD 0

def noteIp (s : ThreatDetector) (ipAddress : String) : ThreatDetector :=
  { s with suspiciousIps := s.suspiciousIps.set ipAddress (s.seenFrom ipAddress + 1) }

def unauthorizedEvent (clock : Clock) (level : ThreatLevel) (userId resource ipAddress : String)
    (suspiciousIpCount : Nat) (extra : Option (Dict String Value)) : ThreatEvent :=
  newEvent clock .unauthorizedAccess level (some userId) (some ipAddress)
    ([("resource", text resource), ("suspicious_ip_count", count suspiciousIpCount)] ++
      (extra.getD .empty).entries.map fun field => (field.1, .value field.2))

def detectUnauthorizedAccessAttempt (clock : Clock) (userId resource ipAddress : String)
    (extra : Option (Dict String Value)) : M ThreatEvent := do
  .update fun s => s.noteIp ipAddress
  let s ← .read
  let seen := s.seenFrom ipAddress
  let limit ← threshold "suspicious_ip_threshold"
  storeEvent (unauthorizedEvent clock (if limit < seen then .critical else .high) userId resource
    ipAddress seen extra)

def loginEvent (clock : Clock) (userId ipAddress userAgent : String) (hour : Nat) : ThreatEvent :=
  newEvent clock .suspiciousLogin .medium (some userId) (some ipAddress)
    [("login_hour", count hour), ("user_agent", text userAgent), ("reason", text "unusual_login_time")]

def analyzeLoginAnomaly (env : Env) (clock : Clock) (userId ipAddress userAgent : String) :
    M (Option ThreatEvent) := do
  let hour ← .check (orRaise (env.hourOf (clock 0)) .fromTimestamp)
  if hour < 6 ∨ 22 < hour then
    some <$> storeEvent (loginEvent clock userId ipAddress userAgent hour)
  else return none

def largeDataThreshold : Int := 100 * 1024 * 1024

def exfiltrationEvent (clock : Clock) (userId : String) (dataSize : Int) (resource : String) :
    ThreatEvent :=
  newEvent clock .dataExfiltration .high (some userId) none
    [("data_size", .value (.int dataSize)), ("resource", text resource),
      ("threshold", .value (.int largeDataThreshold))]

def detectDataExfiltration (clock : Clock) (userId : String) (dataSize : Int) (resource : String) :
    M (Option ThreatEvent) := do
  if largeDataThreshold < dataSize then
    some <$> storeEvent (exfiltrationEvent clock userId dataSize resource)
  else return none

/-! ### Summary and resolution -/

def tally (names : List String) : List (String × Nat) :=
  names.foldl (fun counts name => bump (· == ·) name counts) []

def getThreatSummary (clock : Clock) (timeWindow : Int) : M ThreatSummary := do
  let s ← .read
  let recentThreats := s.threatEvents.filter fun threat => clock 0 - timeWindow ≤ threat.timestamp
  return {
    totalThreats := recentThreats.length
    timeWindowSeconds := timeWindow
    byType := tally (recentThreats.map fun threat => threat.threatType.value)
    byLevel := tally (recentThreats.map fun threat => threat.level.value)
    unresolved := (recentThreats.filter fun threat => !threat.resolved).length
    recentEvents := lastOf 10 recentThreats }

def resolvedAt (now : Time) (note : String) (threat : ThreatEvent) : ThreatEvent :=
  { threat with
    resolved := true
    details := (threat.details.set "resolution_note" (text note)).set "resolved_at" (.time now) }

/-- The first event with the id is changed. -/
def markThreat (f : ThreatEvent → ThreatEvent) (eventId : String) :
    List ThreatEvent → Option (List ThreatEvent) :=
  markFirst ThreatEvent.eventId f eventId

def resolveThreat (clock : Clock) (eventId resolutionNote : String) : M Bool := do
  let s ← .read
  match markThreat (resolvedAt (clock 0) resolutionNote) eventId s.threatEvents with
  | none => return false
  | some threatEvents =>
    .update fun s => { s with threatEvents }
    return true

/-! ### The detector as a machine -/

inductive Call where
  | detectFailedLogin (userId ipAddress : String)
  | detectSuspiciousAccessPattern (userId resource ipAddress : String)
  | detectUnauthorizedAccessAttempt (userId resource ipAddress : String)
      (extra : Option (Dict String Value))
  | analyzeLoginAnomaly (userId ipAddress userAgent : String)
  | detectDataExfiltration (userId : String) (dataSize : Int) (resource : String)
  | getThreatSummary (timeWindow : Int)
  | resolveThreat (eventId resolutionNote : String)

inductive Reply where
  | event (event : Option ThreatEvent)
  | summary (summary : ThreatSummary)
  | answer (b : Bool)

structure Input where
  clock : Clock
  call : Call

/-- The first reading of the clock. -/
def Input.now (i : Input) : Time := i.clock 0

variable (env : Env)

def perform (clock : Clock) : Call → M Reply
  | .detectFailedLogin userId ipAddress => Reply.event <$> detectFailedLogin clock userId ipAddress
  | .detectSuspiciousAccessPattern userId resource ipAddress =>
    Reply.event <$> detectSuspiciousAccessPattern clock userId resource ipAddress
  | .detectUnauthorizedAccessAttempt userId resource ipAddress extra =>
    (fun event => Reply.event (some event)) <$>
      detectUnauthorizedAccessAttempt clock userId resource ipAddress extra
  | .analyzeLoginAnomaly userId ipAddress userAgent =>
    Reply.event <$> analyzeLoginAnomaly env clock userId ipAddress userAgent
  | .detectDataExfiltration userId dataSize resource =>
    Reply.event <$> detectDataExfiltration clock userId dataSize resource
  | .getThreatSummary timeWindow => Reply.summary <$> getThreatSummary clock timeWindow
  | .resolveThreat eventId resolutionNote =>
    Reply.answer <$> resolveThreat clock eventId resolutionNote

def step (s : ThreatDetector) (i : Input) : ThreatDetector × Except DetectorError Reply :=
  (((perform env i.clock i.call).run s).2, ((perform env i.clock i.call).run s).1)

abbrev Event := Entry ThreatDetector Input (Except DetectorError Reply)

end ThreatDetector

end BtApiSecurity.Threats
