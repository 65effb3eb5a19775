import BtApiSecurity.Py.Json.Canonical

/-!
# Audit events

An event with its hash, and its way to a line of the log and back. What is read
from a line may hold any JSON value in any field, so the fields are values; the
events of a caller have the declared types.
-/

namespace BtApiSecurity.Audit
open Py

inductive EventType where
  | userLogin | userLogout | passwordChange | roleAssignment | permissionGranted
  | orderCreated | orderModified | orderCancelled | orderExecuted | tradeSettled
  | dataAccessed | dataExported | dataDeleted
  | configChange | systemStartup | systemShutdown | securityIncident
  | paymentProcessed | balanceAdjustment | accountCreation | accountDeletion
  deriving DecidableEq

namespace EventType

def value : EventType → String
  | userLogin => "user_login"
  | userLogout => "user_logout"
  | passwordChange => "password_change"
  | roleAssignment => "role_assignment"
  | permissionGranted => "permission_granted"
  | orderCreated => "order_created"
  | orderModified => "order_modified"
  | orderCancelled => "order_cancelled"
  | orderExecuted => "order_executed"
  | tradeSettled => "trade_settled"
  | dataAccessed => "data_accessed"
  | dataExported => "data_exported"
  | dataDeleted => "data_deleted"
  | configChange => "config_change"
  | systemStartup => "system_startup"
  | systemShutdown => "system_shutdown"
  | securityIncident => "security_incident"
  | paymentProcessed => "payment_processed"
  | balanceAdjustment => "balance_adjustment"
  | accountCreation => "account_creation"
  | accountDeletion => "account_deletion"

/-- Every member is named by its value in capitals. -/
def name (t : EventType) : String := t.value.toUpper

def members : List EventType :=
  [userLogin, userLogout, passwordChange, roleAssignment, permissionGranted, orderCreated,
    orderModified, orderCancelled, orderExecuted, tradeSettled, dataAccessed, dataExported,
    dataDeleted, configChange, systemStartup, systemShutdown, securityIncident, paymentProcessed,
    balanceAdjustment, accountCreation, accountDeletion]

/-- `EventType(s)`; `none` is a `ValueError`. -/
def ofValue? (s : String) : Option EventType := members.find? (·.value = s)

@[simp] theorem ofValue?_value (t : EventType) : ofValue? t.value = some t := by
  cases t <;> simp [ofValue?, members, value]

end EventType

inductive SeverityLevel where
  | low
  | medium
  | high
  | critical
  deriving DecidableEq

namespace SeverityLevel

def toInt : SeverityLevel → Int
  | low => 1
  | medium => 2
  | high => 3
  | critical => 4

def ofInt? (i : Int) : Option SeverityLevel := [low, medium, high, critical].find? (·.toInt = i)

@[simp] theorem ofInt?_toInt (level : SeverityLevel) : ofInt? level.toInt = some level := by
  cases level <;> rfl

end SeverityLevel

/-- The digest is SHA-256 in hexadecimal, so it is never empty. -/
structure Env where
  sha256 : Bytes → String
  sha256_ne : ∀ bytes, sha256 bytes ≠ ""

/-- The event type of a line is a member where the line names one. -/
inductive TypeField where
  | member (t : EventType)
  | other (v : Value)

def TypeField.text : TypeField → Value
  | .member t => .str ("EventType." ++ t.name)
  | .other v => v

structure AuditEvent where
  eventId : Value
  timestamp : Value
  eventType : TypeField
  severity : Value
  userId : Value
  sessionId : Value
  ipAddress : Value
  userAgent : Value
  resource : Value
  action : Value
  outcome : Value
  details : Value
  complianceTags : Value
  previousHash : Value
  eventHash : Value

structure Draw where
  uuid : String
  time : PyFloat

namespace AuditEvent

/-! ### The hash -/

/-- The fields in front of the two hashes, with the event type as given. -/
def asdict (e : AuditEvent) (eventType : Value) : List (String × Value) :=
  [("event_id", e.eventId), ("timestamp", e.timestamp), ("event_type", eventType),
    ("severity", e.severity), ("user_id", e.userId), ("session_id", e.sessionId),
    ("ip_address", e.ipAddress), ("user_agent", e.userAgent), ("resource", e.resource),
    ("action", e.action), ("outcome", e.outcome), ("details", e.details),
    ("compliance_tags", e.complianceTags)]

def content (e : AuditEvent) : Value := .record (e.asdict (e.eventType.text))

/-- `none` is the `TypeError` for keys that cannot be sorted. -/
def calculateHash (env : Env) (e : AuditEvent) : Option String :=
  if e.content.sortable then some (env.sha256 (encodeUtf8 (String.ofList (dumps e.content.sortKeys))))
  else none

def verifyIntegrity (env : Env) (e : AuditEvent) : Option Bool :=
  (e.calculateHash env).map fun hash => (Value.str hash).pyEq e.eventHash

theorem verifies_iff {env : Env} {e : AuditEvent} : e.verifyIntegrity env = some true ↔
    ∃ hash, e.calculateHash env = some hash ∧ e.eventHash = .str hash := by
  simp [verifyIntegrity, Option.map_eq_some_iff, Value.str_pyEq]

/-! ### Lines -/

def fields (e : AuditEvent) (t : EventType) : List (String × Value) :=
  e.asdict (.str t.value) ++ [("previous_hash", e.previousHash), ("event_hash", e.eventHash)]

/-- `none` is an exception: the event type is no member, or the severity no level. -/
def toDict (e : AuditEvent) : Option Value :=
  match e.eventType, e.severity with
  | .member t, .int _ => some (.record (e.fields t))
  | _, _ => none

def fieldNames : List String :=
  ["event_id", "timestamp", "event_type", "severity", "user_id", "session_id", "ip_address",
    "user_agent", "resource", "action", "outcome", "details", "compliance_tags", "previous_hash",
    "event_hash"]

def postInit (env : Env) (e : AuditEvent) : Option AuditEvent :=
  if e.eventHash.truthy then some e
  else (e.calculateHash env).map fun hash => { e with eventHash := .str hash }

def typeOf (items : List (Key × Value)) : Option TypeField :=
  match find (.str "event_type") items with
  | some (.str s) => (EventType.ofValue? s).map .member
  | some v => some (.other v)
  | none => some (.member .userLogin)

def severityOf (items : List (Key × Value)) : Option Value :=
  match find (.str "severity") items with
  | some (.int i) => (SeverityLevel.ofInt? i).map fun level => .int level.toInt
  | some (.bool b) => (SeverityLevel.ofInt? (if b then 1 else 0)).map fun level => .int level.toInt
  | some v => some v
  | none => some (.int SeverityLevel.medium.toInt)

def known (items : List (Key × Value)) : Bool :=
  items.all fun item => fieldNames.any fun name => item.1 = .str name

/-- `none` is an exception: no dictionary, an unknown member or level, an unknown field. -/
def fromDict (env : Env) (draw : Draw) (data : Value) : Option AuditEvent :=
  match data with
  | .dict items => do
    let field name default := (find (.str name) items).getD default
    let eventType ← typeOf items
    let severity ← severityOf items
    if known items then
      postInit env
        { eventId := field "event_id" (.str draw.uuid)
          timestamp := field "timestamp" (.float draw.time)
          eventType
          severity
          userId := field "user_id" .none
          sessionId := field "session_id" .none
          ipAddress := field "ip_address" .none
          userAgent := field "user_agent" .none
          resource := field "resource" .none
          action := field "action" .none
          outcome := field "outcome" (.str "success")
          details := field "details" (.dict [])
          complianceTags := field "compliance_tags" (.list [])
          previousHash := field "previous_hash" .none
          eventHash := field "event_hash" .none }
    else none
  | _ => none

def ofLine (env : Env) (draw : Draw) (line : List Char) : Option AuditEvent :=
  (loads line).bind (fromDict env draw)

theorem names_asdict (e : AuditEvent) (v : Value) :
    (e.asdict v).map Prod.fst = fieldNames.take 13 := rfl

theorem nodup_asdict (e : AuditEvent) (v : Value) : ((e.asdict v).map Prod.fst).Nodup := by
  rw [names_asdict]
  decide

/-! ### What is read is JSON -/

theorem field_isJson {items : List (Key × Value)} (json : (Value.dict items).isJson = true)
    (name : String) {v : Value} (ok : v.isJson = true) :
    ((find (.str name) items).getD v).isJson = true := by
  cases found : find (Key.str name) items with
  | none => exact ok
  | some _ => exact (isJson_dict.mp json).2.2 _ (mem_of_find found)

theorem typeOf_isJson {items : List (Key × Value)} (json : (Value.dict items).isJson = true)
    {type : TypeField} (read : typeOf items = some type) : type.text.isJson = true := by
  unfold typeOf at read
  split at read
  · obtain ⟨t, -, rfl⟩ := Option.map_eq_some_iff.mp read
    rfl
  · rename_i v _ found
    obtain rfl := Option.some.inj read
    exact (isJson_dict.mp json).2.2 _ (mem_of_find found)
  · obtain rfl := Option.some.inj read
    rfl

theorem severityOf_isJson {items : List (Key × Value)} (json : (Value.dict items).isJson = true)
    {severity : Value} (read : severityOf items = some severity) : severity.isJson = true := by
  unfold severityOf at read
  split at read
  · obtain ⟨level, -, rfl⟩ := Option.map_eq_some_iff.mp read
    rfl
  · obtain ⟨level, -, rfl⟩ := Option.map_eq_some_iff.mp read
    rfl
  · rename_i v _ _ found
    obtain rfl := Option.some.inj read
    exact (isJson_dict.mp json).2.2 _ (mem_of_find found)
  · obtain rfl := Option.some.inj read
    rfl

/-- What `__post_init__` is given, where the event type and the severity can be read. -/
theorem fromDict_eq (env : Env) (draw : Draw) {items : List (Key × Value)} {type : TypeField}
    {severity : Value} (typed : typeOf items = some type) (graded : severityOf items = some severity) :
    ∃ e : AuditEvent,
      fromDict env draw (.dict items) = (if known items then postInit env e else none) ∧
        e.timestamp = (find (.str "timestamp") items).getD (.float draw.time) ∧
        ((Value.dict items).isJson = true → e.content.isJson = true) := by
  apply Exists.intro
  refine ⟨?_, ?_, ?_⟩
  · simp only [fromDict, typed, graded, Option.bind_eq_bind, Option.bind_some]
    rfl
  · rfl
  · intro json
    have field := fun name {v : Value} => field_isJson json name (v := v)
    refine isJson_record.mpr ⟨nodup_asdict _ _, ?_⟩
    simp only [asdict, List.forall_mem_cons]
    exact ⟨field "event_id" rfl, field "timestamp" rfl, typeOf_isJson json typed,
      severityOf_isJson json graded, field "user_id" rfl, field "session_id" rfl,
      field "ip_address" rfl, field "user_agent" rfl, field "resource" rfl, field "action" rfl,
      field "outcome" rfl, field "details" rfl, field "compliance_tags" rfl, by simp⟩

theorem postInit_content {e f : AuditEvent} (built : postInit env e = some f) :
    f.content = e.content ∧ f.timestamp = e.timestamp := by
  unfold postInit at built
  split at built
  · obtain rfl := Option.some.inj built
    exact ⟨rfl, rfl⟩
  · obtain ⟨hash, -, rfl⟩ := Option.map_eq_some_iff.mp built
    exact ⟨rfl, rfl⟩

/-- The hash of what is JSON can be calculated. -/
theorem postInit_timestamp {env : Env} {e : AuditEvent} (json : e.content.isJson = true) :
    (postInit env e).map (·.timestamp) = some e.timestamp := by
  unfold postInit calculateHash
  rw [if_pos (Value.sortable_of_isJson json)]
  split <;> rfl

theorem ofLine_isJson {env : Env} {draw : Draw} {text : List Char} {e : AuditEvent}
    (read : ofLine env draw text = some e) : e.content.isJson = true := by
  obtain ⟨data, loaded, built⟩ := Option.bind_eq_some_iff.mp read
  have json := isJson_of_loads loaded
  cases data with
  | dict items =>
    have parts := built
    simp only [fromDict, Option.bind_eq_bind, Option.bind_eq_some_iff] at parts
    obtain ⟨type, typed, severity, graded, -⟩ := parts
    obtain ⟨f, eq, -, content⟩ := fromDict_eq env draw typed graded
    rw [eq] at built
    split at built
    · rw [(postInit_content built).1]
      exact content json
    · cases built
  | _ => cases built

/-! ### One value for another -/

def map (f : Value → Value) (e : AuditEvent) : AuditEvent :=
  { eventId := f e.eventId
    timestamp := f e.timestamp
    eventType := match e.eventType with
      | .member t => .member t
      | .other v => .other (f v)
    severity := f e.severity
    userId := f e.userId
    sessionId := f e.sessionId
    ipAddress := f e.ipAddress
    userAgent := f e.userAgent
    resource := f e.resource
    action := f e.action
    outcome := f e.outcome
    details := f e.details
    complianceTags := f e.complianceTags
    previousHash := f e.previousHash
    eventHash := f e.eventHash }

theorem names_fields (e : AuditEvent) (t : EventType) : (e.fields t).map Prod.fst = fieldNames := rfl

theorem nodup_fields (e : AuditEvent) (t : EventType) : ((e.fields t).map Prod.fst).Nodup := by
  rw [names_fields]
  decide

theorem fields_map {f : Value → Value} (str : ∀ s, f (.str s) = .str s) (e : AuditEvent)
    (t : EventType) : (e.map f).fields t = mapFields f (e.fields t) := by
  simp [fields, asdict, map, mapFields, str]

theorem content_map {f : Value → Value} (str : ∀ s, f (.str s) = .str s) (e : AuditEvent) :
    (e.map f).content = .record (mapFields f (e.asdict (e.eventType.text))) := by
  cases type : e.eventType <;> simp [content, asdict, map, mapFields, TypeField.text, str, type]

theorem known_fields (e : AuditEvent) (t : EventType) :
    known ((e.fields t).map fun field => (.str field.1, field.2)) = true := by
  simp [known, fields, asdict, fieldNames]

theorem find_fields (e : AuditEvent) (t : EventType) (name : String) (v : Value)
    (h : (name, v) ∈ e.fields t) :
    find (.str name) ((e.fields t).map fun field => (Key.str field.1, field.2)) = some v :=
  find_record (e.nodup_fields t) h

theorem fromDict_fields (env : Env) (draw : Draw) {e : AuditEvent} (t : EventType)
    (level : SeverityLevel) (type : e.eventType = .member t) (severity : e.severity = .int level.toInt)
    (hash : e.eventHash.truthy = true) : fromDict env draw (.record (e.fields t)) = some e := by
  have field : ∀ name v, (name, v) ∈ e.fields t →
      find (.str name) ((e.fields t).map fun field => (Key.str field.1, field.2)) = some v :=
    e.find_fields t
  have member : typeOf ((e.fields t).map fun field => (Key.str field.1, field.2)) =
      some (.member t) := by
    unfold typeOf
    rw [field "event_type" (.str t.value) (by simp [fields, asdict])]
    simp
  have grade : severityOf ((e.fields t).map fun field => (Key.str field.1, field.2)) =
      some (.int level.toInt) := by
    unfold severityOf
    rw [field "severity" (.int level.toInt) (by simp [fields, asdict, severity])]
    simp
  simp only [fromDict, member, grade, Option.bind_eq_bind, Option.bind_some, known_fields, if_true]
  rw [field "event_id" e.eventId (by simp [fields, asdict]),
    field "timestamp" e.timestamp (by simp [fields, asdict]),
    field "user_id" e.userId (by simp [fields, asdict]),
    field "session_id" e.sessionId (by simp [fields, asdict]),
    field "ip_address" e.ipAddress (by simp [fields, asdict]),
    field "user_agent" e.userAgent (by simp [fields, asdict]),
    field "resource" e.resource (by simp [fields, asdict]),
    field "action" e.action (by simp [fields, asdict]),
    field "outcome" e.outcome (by simp [fields, asdict]),
    field "details" e.details (by simp [fields, asdict]),
    field "compliance_tags" e.complianceTags (by simp [fields, asdict]),
    field "previous_hash" e.previousHash (by simp [fields, asdict]),
    field "event_hash" e.eventHash (by simp [fields, asdict])]
  simp [postInit, hash, ← type, ← severity]

/-- A dumped event is read back with its fields as JSON keeps them. -/
theorem ofLine_dumps (env : Env) (draw : Draw) {e : AuditEvent} {t : EventType}
    {level : SeverityLevel} {hash : String} (type : e.eventType = .member t)
    (severity : e.severity = .int level.toInt) (stored : e.eventHash = .str hash) (ne : hash ≠ "") :
    ofLine env draw (dumps (.record (e.fields t))) = some (e.map Value.image) := by
  rw [ofLine, loads_dumps_image, image_record (e.nodup_fields t), Option.bind_some,
    ← fields_map fun _ => rfl]
  refine fromDict_fields env draw t level ?_ ?_ ?_
  · simp [map, type]
  · simp [map, severity, Value.image]
  · simp [map, stored, Value.image, Value.truthy, ne]

def line (e : AuditEvent) : List Char := (e.toDict.map dumps).getD []

def IsHash (v : Value) : Prop := v = .none ∨ ∃ hash, v = .str hash

/-- An event with a type, a level, its own hash, and the hash before it if there is one. -/
structure Sealed (env : Env) (e : AuditEvent) : Prop where
  type : ∃ t, e.eventType = .member t
  severity : ∃ level : SeverityLevel, e.severity = .int level.toInt
  previousHash : IsHash e.previousHash
  hash : ∃ hash, e.calculateHash env = some hash ∧ e.eventHash = .str hash

namespace Sealed

variable {env : Env} {e : AuditEvent}

theorem line_eq (intact : e.Sealed env) :
    ∃ t, e.eventType = .member t ∧ e.line = dumps (.record (e.fields t)) := by
  obtain ⟨t, type⟩ := intact.type
  obtain ⟨level, severity⟩ := intact.severity
  exact ⟨t, type, by simp [line, toDict, type, severity]⟩

theorem hash_ne {hash : String} (calculated : e.calculateHash env = some hash) : hash ≠ "" := by
  unfold calculateHash at calculated
  split at calculated
  · obtain rfl := Option.some.inj calculated
    exact env.sha256_ne _
  · cases calculated

theorem verifies (intact : e.Sealed env) : e.verifyIntegrity env = some true := by
  obtain ⟨hash, calculated, stored⟩ := intact.hash
  simp [verifyIntegrity, calculated, stored]

theorem ofLine (intact : e.Sealed env) (draw : Draw) :
    ofLine env draw e.line = some (e.map Value.image) := by
  obtain ⟨t, type, text⟩ := intact.line_eq
  obtain ⟨level, severity⟩ := intact.severity
  obtain ⟨hash, calculated, stored⟩ := intact.hash
  rw [text]
  exact ofLine_dumps env draw type severity stored (hash_ne calculated)

theorem oneLine (intact : e.Sealed env) : OneLine e.line := by
  obtain ⟨t, -, text⟩ := intact.line_eq
  exact text ▸ oneLine_dumps _

theorem trimmed (intact : e.Sealed env) : Trimmed e.line := by
  obtain ⟨t, -, text⟩ := intact.line_eq
  exact text ▸ trimmed_dumps_dict _

theorem line_ne (intact : e.Sealed env) : e.line ≠ [] := by
  intro empty
  have read := intact.ofLine ⟨"", .nan⟩
  rw [empty] at read
  exact absurd read (by simp [AuditEvent.ofLine, show loads [] = none from rfl])

end Sealed

end AuditEvent

/-! ### Events of a caller -/

structure EventArgs where
  eventId : String
  timestamp : PyFloat
  eventType : EventType := .userLogin
  severity : SeverityLevel := .medium
  userId : Option String := none
  sessionId : Option String := none
  ipAddress : Option String := none
  userAgent : Option String := none
  resource : Option String := none
  action : Option String := none
  outcome : String := "success"
  details : List (Key × Value) := []
  complianceTags : List String := []

def optional (s : Option String) : Value := s.elim .none .str

/-- The event before it is logged, which replaces both hashes. -/
def EventArgs.event (args : EventArgs) : AuditEvent where
  eventId := .str args.eventId
  timestamp := .float args.timestamp
  eventType := .member args.eventType
  severity := .int args.severity.toInt
  userId := optional args.userId
  sessionId := optional args.sessionId
  ipAddress := optional args.ipAddress
  userAgent := optional args.userAgent
  resource := optional args.resource
  action := optional args.action
  outcome := .str args.outcome
  details := .dict args.details
  complianceTags := .list (args.complianceTags.map .str)
  previousHash := .none
  eventHash := .none

end BtApiSecurity.Audit
