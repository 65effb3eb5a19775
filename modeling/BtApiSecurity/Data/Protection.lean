import BtApiSecurity.Machine
import BtApiSecurity.Py.Method
import BtApiSecurity.Py.Value

/-!
# The registry of data subjects

Persons whose data is kept, with the consents they gave and the deletion requests
they made. Both are stored inside the record of the subject.
-/

namespace BtApiSecurity.Data
open Py

/-- What a consent record holds: what the caller gave, a time that the manager noted, or the
whole consent data. -/
inductive Detail where
  | value (v : Value)
  | time (t : Time)
  | data (d : Dict String Value)

/-- `detail == text` for a string. -/
def Detail.isText (text : String) : Detail → Bool
  | .value v => v.pyEq (.str text)
  | .time _ | .data _ => false

abbrev ConsentRecord := Dict String Detail

inductive RequestStatus where
  | pending
  | completed
  deriving DecidableEq

structure DeletionRequest where
  requestId : String
  timestamp : Time
  reason : String
  status : RequestStatus
  completedAt : Option Time

structure DataSubject where
  subjectId : String
  identifiers : Dict String String
  consentRecords : List ConsentRecord := []
  deletionRequests : List DeletionRequest := []
  createdAt : Time

def DataSubject.requested (subject : DataSubject) (requestId : String) : Bool :=
  subject.deletionRequests.any (·.requestId = requestId)

structure DataProtectionManager where
  dataSubjects : Dict String DataSubject

inductive DataProtectionError where
  | dataProtectionError (message : String)
  deriving DecidableEq

/-- What `process_data_deletion` reports. -/
structure Receipt where
  requestId : String
  status : RequestStatus
  subjectId : String
  deletedRecords : Nat
  deriving DecidableEq

namespace DataProtectionManager

abbrev M := Method DataProtectionManager DataProtectionError

/-- The readings of `time.time()` during one call. -/
abbrev Clock := Nat → Time

def new : DataProtectionManager := ⟨.empty⟩

def store (s : DataProtectionManager) (key : String) (subject : DataSubject) : DataProtectionManager :=
  { s with dataSubjects := s.dataSubjects.set key subject }

def getSubject (subjectId : String) : M DataSubject := do
  let s ← .read
  .check (orRaise (s.dataSubjects.get? subjectId)
    (.dataProtectionError s!"Data subject {subjectId} not found"))

/-! ### Consents -/

def record (fields : List (String × Detail)) : ConsentRecord := ⟨fromPairs fields, nodup_fromPairs fields⟩

def registrationRecord (now : Time) (consentData : Dict String Value) : ConsentRecord :=
  record [("timestamp", .time now), ("consent", .data consentData),
    ("purpose", .value ((consentData.get? "purpose").getD (.str "general"))),
    (" lawful_basis", .value ((consentData.get? "lawful_basis").getD (.str "consent")))]

def consentRecord (now : Time) (consentData : Dict String Value) (purpose lawfulBasis : String) :
    ConsentRecord :=
  record [("timestamp", .time now), ("consent", .data consentData), ("purpose", .value (.str purpose)),
    ("lawful_basis", .value (.str lawfulBasis)), ("withdrawn", .value (.bool false))]

/-- The first reading of the clock is `created_at`. -/
def newSubject (clock : Clock) (subjectId : String) (identifiers : Dict String String)
    (consentData : Option (Dict String Value)) : DataSubject :=
  let subject : DataSubject := { subjectId, identifiers, createdAt := clock 0 }
  match consentData with
  | none => subject
  | some consentData =>
    if consentData.entries = [] then subject
    else { subject with consentRecords := [registrationRecord (clock 1) consentData] }

def registerDataSubject (clock : Clock) (subjectId : String) (identifiers : Dict String String)
    (consentData : Option (Dict String Value)) : M DataSubject := do
  let subject := newSubject clock subjectId identifiers consentData
  .update fun s => s.store subjectId subject
  return subject

def recordConsent (clock : Clock) (subjectId : String) (consentData : Dict String Value)
    (purpose lawfulBasis : String) : M Unit := do
  let subject ← getSubject subjectId
  .update fun s => s.store subjectId { subject with
    consentRecords := subject.consentRecords ++
      [consentRecord (clock 0) consentData purpose lawfulBasis] }

def concerns (purpose : Option String) (record : ConsentRecord) : Bool :=
  match purpose with
  | none => true
  | some purpose => (record.get? "purpose").any (·.isText purpose)

def withdraw (now : Time) (record : ConsentRecord) : ConsentRecord :=
  (record.set "withdrawn" (.value (.bool true))).set "withdrawn_timestamp" (.time now)

/-- The clock is read once for each record that is withdrawn. -/
def withdrawRecords (purpose : Option String) : Clock → List ConsentRecord → List ConsentRecord
  | _, [] => []
  | clock, record :: records =>
    if concerns purpose record then
      withdraw (clock 0) record :: withdrawRecords purpose (fun n => clock (n + 1)) records
    else record :: withdrawRecords purpose clock records

def withdrawConsent (clock : Clock) (subjectId : String) (purpose : Option String) : M Unit := do
  let subject ← getSubject subjectId
  .update fun s => s.store subjectId { subject with
    consentRecords := withdrawRecords purpose clock subject.consentRecords }

/-! ### Deletion requests -/

def requestIdAt (t : Time) (subjectId : String) : String :=
  "gdpr_" ++ intText (truncate t) ++ "_" ++ subjectId

def requestRightToBeForgotten (clock : Clock) (subjectId reason : String) : M String := do
  let subject ← getSubject subjectId
  let requestId := requestIdAt (clock 0) subjectId
  let deletionRequest : DeletionRequest :=
    { requestId, timestamp := clock 1, reason, status := .pending, completedAt := none }
  .update fun s => s.store subjectId { subject with
    deletionRequests := subject.deletionRequests ++ [deletionRequest] }
  return requestId

/-- The first request with the id is completed. -/
def complete (now : Time) (requestId : String) : List DeletionRequest → List DeletionRequest
  | [] => []
  | request :: requests =>
    if request.requestId = requestId then
      { request with status := .completed, completedAt := some now } :: requests
    else request :: complete now requestId requests

def deleteSubjectData (subjectId : String) : M Nat := do
  let s ← .read
  if (s.dataSubjects.get? subjectId).isSome then
    .update fun s => { s with dataSubjects := s.dataSubjects.erase subjectId }
    return 1
  else return 0

/-- The first subject with such a request is deleted, with the request that was just completed. -/
def processDataDeletion (clock : Clock) (requestId : String) : M Receipt := do
  let s ← .read
  match s.dataSubjects.entries.find? fun entry => entry.2.requested requestId with
  | none => .check (.error (.dataProtectionError s!"Deletion request {requestId} not found"))
  | some (key, subject) =>
    .update fun s => s.store key { subject with
      deletionRequests := complete (clock 0) requestId subject.deletionRequests }
    let deletedRecords ← deleteSubjectData subject.subjectId
    return { requestId, status := .completed, subjectId := subject.subjectId, deletedRecords }

/-! ### The manager as a machine -/

inductive Call where
  | registerDataSubject (subjectId : String) (identifiers : Dict String String)
      (consentData : Option (Dict String Value))
  | recordConsent (subjectId : String) (consentData : Dict String Value) (purpose lawfulBasis : String)
  | withdrawConsent (subjectId : String) (purpose : Option String)
  | requestRightToBeForgotten (subjectId reason : String)
  | processDataDeletion (requestId : String)

inductive Reply where
  | subject (subject : DataSubject)
  | nothing
  | requestId (id : String)
  | receipt (receipt : Receipt)

structure Input where
  clock : Clock
  call : Call

def perform (clock : Clock) : Call → M Reply
  | .registerDataSubject subjectId identifiers consentData =>
    Reply.subject <$> registerDataSubject clock subjectId identifiers consentData
  | .recordConsent subjectId consentData purpose lawfulBasis =>
    (fun _ => Reply.nothing) <$> recordConsent clock subjectId consentData purpose lawfulBasis
  | .withdrawConsent subjectId purpose =>
    (fun _ => Reply.nothing) <$> withdrawConsent clock subjectId purpose
  | .requestRightToBeForgotten subjectId reason =>
    Reply.requestId <$> requestRightToBeForgotten clock subjectId reason
  | .processDataDeletion requestId => Reply.receipt <$> processDataDeletion clock requestId

def step (s : DataProtectionManager) (i : Input) :
    DataProtectionManager × Except DataProtectionError Reply :=
  (((perform i.clock i.call).run s).2, ((perform i.clock i.call).run s).1)

abbrev Event := Machine.Entry DataProtectionManager Input (Except DataProtectionError Reply)

/-! ### One step -/

/-- Every subject is stored under its own id. -/
def Named (s : DataProtectionManager) : Prop :=
  ∀ key subject, s.dataSubjects.get? key = some subject → subject.subjectId = key

variable {s : DataProtectionManager} {key u : String} {subject : DataSubject} {clock : Clock}

def delete (s : DataProtectionManager) (key : String) : DataProtectionManager :=
  { s with dataSubjects := s.dataSubjects.erase key }

theorem get?_store (s : DataProtectionManager) (key u : String) (subject : DataSubject) :
    (s.store key subject).dataSubjects.get? u =
      if key = u then some subject else s.dataSubjects.get? u :=
  Dict.get?_set ..

theorem get?_delete (s : DataProtectionManager) (key u : String) :
    (s.delete key).dataSubjects.get? u = if key = u then none else s.dataSubjects.get? u :=
  Dict.get?_erase ..

theorem delete_store (s : DataProtectionManager) (key : String) (subject : DataSubject) :
    (s.store key subject).delete key = s.delete key := by
  simp only [store, delete, Dict.erase_set]

theorem run_getSubject (found : s.dataSubjects.get? u = some subject) :
    (getSubject u).run s = (.ok subject, s) := by
  simp only [getSubject, Method.run_bind, Method.run_read, Method.run_check, found, orRaise_some]

theorem run_getSubject_none (absent : s.dataSubjects.get? u = none) :
    (getSubject u).run s =
      (.error (.dataProtectionError s!"Data subject {u} not found"), s) := by
  simp only [getSubject, Method.run_bind, Method.run_read, Method.run_check, absent, orRaise_none]

theorem run_deleteSubjectData (found : s.dataSubjects.get? u = some subject) :
    (deleteSubjectData u).run s = (.ok 1, s.delete u) := by
  simp [deleteSubjectData, Method.run_bind, found, delete]

/-- The first subject with such a request is the one that is reported and removed. -/
theorem run_processDataDeletion {requestId : String} (named : s.Named)
    (first : s.dataSubjects.entries.find? (fun entry => entry.2.requested requestId) =
      some (key, subject)) :
    (processDataDeletion clock requestId).run s =
      (.ok { requestId, status := .completed, subjectId := key, deletedRecords := 1 },
        s.delete key) := by
  have found : s.dataSubjects.get? key = some subject :=
    s.dataSubjects.mem_entries.mp (List.mem_of_find?_eq_some first)
  have name := named key subject found
  simp only [processDataDeletion, Method.run_bind, Method.run_read, first, Method.run_update, name,
    Method.run_pure, run_deleteSubjectData ((get?_store s key key _).trans (if_pos rfl)), delete_store]

/-- The subject that has to be there for a call. -/
def Call.addressee : Call → Option String
  | .recordConsent u .. | .withdrawConsent u _ | .requestRightToBeForgotten u _ => some u
  | .registerDataSubject .. | .processDataDeletion _ => none

/-- What a call does: it raises and changes nothing, it writes one subject, or it deletes the
subject that made the request. -/
inductive Effect (s : DataProtectionManager) (i : Input) :
    DataProtectionManager → Except DataProtectionError Reply → Prop
  | refused (u : String) (addressee : i.call.addressee = some u)
      (absent : s.dataSubjects.get? u = none) :
      Effect s i s (.error (.dataProtectionError s!"Data subject {u} not found"))
  | unknown (requestId : String) (is_call : i.call = .processDataDeletion requestId) :
      Effect s i s (.error (.dataProtectionError s!"Deletion request {requestId} not found"))
  | registered (u : String) (identifiers : Dict String String)
      (consentData : Option (Dict String Value))
      (is_call : i.call = .registerDataSubject u identifiers consentData) :
      Effect s i (s.store u (newSubject i.clock u identifiers consentData))
        (.ok (.subject (newSubject i.clock u identifiers consentData)))
  | recorded (u : String) (consentData : Dict String Value) (purpose lawfulBasis : String)
      (is_call : i.call = .recordConsent u consentData purpose lawfulBasis) (subject : DataSubject)
      (found : s.dataSubjects.get? u = some subject) :
      Effect s i (s.store u { subject with
        consentRecords := subject.consentRecords ++
          [consentRecord (i.clock 0) consentData purpose lawfulBasis] }) (.ok .nothing)
  | withdrawn (u : String) (purpose : Option String) (is_call : i.call = .withdrawConsent u purpose)
      (subject : DataSubject) (found : s.dataSubjects.get? u = some subject) :
      Effect s i (s.store u { subject with
        consentRecords := withdrawRecords purpose i.clock subject.consentRecords }) (.ok .nothing)
  | requested (u reason : String) (is_call : i.call = .requestRightToBeForgotten u reason)
      (subject : DataSubject) (found : s.dataSubjects.get? u = some subject)
      (request : DeletionRequest) (id : request.requestId = requestIdAt (i.clock 0) u) :
      Effect s i (s.store u { subject with deletionRequests := subject.deletionRequests ++ [request] })
        (.ok (.requestId (requestIdAt (i.clock 0) u)))
  | processed (requestId : String) (is_call : i.call = .processDataDeletion requestId)
      (key : String) (subject : DataSubject) (found : s.dataSubjects.get? key = some subject)
      (requested : subject.requested requestId = true) :
      Effect s i (s.delete key) (.ok (.receipt
        { requestId, status := .completed, subjectId := key, deletedRecords := 1 }))

theorem step_effect (named : s.Named) (i : Input) : Effect s i (step s i).1 (step s i).2 := by
  obtain ⟨clock, call⟩ := i
  cases call with
  | registerDataSubject u identifiers consentData => exact .registered u identifiers consentData rfl
  | recordConsent u consentData purpose lawfulBasis =>
    cases found : s.dataSubjects.get? u with
    | none =>
      simp only [step, perform, recordConsent, Method.run_map, Method.run_bind,
        run_getSubject_none found]
      exact .refused u rfl found
    | some subject =>
      simp only [step, perform, recordConsent, Method.run_map, Method.run_bind, run_getSubject found,
        Method.run_update]
      exact .recorded u consentData purpose lawfulBasis rfl subject found
  | withdrawConsent u purpose =>
    cases found : s.dataSubjects.get? u with
    | none =>
      simp only [step, perform, withdrawConsent, Method.run_map, Method.run_bind,
        run_getSubject_none found]
      exact .refused u rfl found
    | some subject =>
      simp only [step, perform, withdrawConsent, Method.run_map, Method.run_bind,
        run_getSubject found, Method.run_update]
      exact .withdrawn u purpose rfl subject found
  | requestRightToBeForgotten u reason =>
    cases found : s.dataSubjects.get? u with
    | none =>
      simp only [step, perform, requestRightToBeForgotten, Method.run_map, Method.run_bind,
        run_getSubject_none found]
      exact .refused u rfl found
    | some subject =>
      simp only [step, perform, requestRightToBeForgotten, Method.run_map, Method.run_bind,
        run_getSubject found, Method.run_update, Method.run_pure]
      exact .requested u reason rfl subject found _ rfl
  | processDataDeletion requestId =>
    cases first : s.dataSubjects.entries.find? fun entry => entry.2.requested requestId with
    | none =>
      simp only [step, perform, processDataDeletion, Method.run_map, Method.run_bind,
        Method.run_read, first, Method.run_check]
      exact .unknown requestId rfl
    | some entry =>
      obtain ⟨key, subject⟩ := entry
      have requested : subject.requested requestId = true := by
        simpa using List.find?_some first
      simp only [step, perform, Method.run_map, run_processDataDeletion named first]
      exact .processed requestId rfl key subject
        (s.dataSubjects.mem_entries.mp (List.mem_of_find?_eq_some first)) requested

/-! ### The stored subjects -/

theorem newSubject_blank (clock : Clock) (u : String) (identifiers : Dict String String)
    (consentData : Option (Dict String Value)) :
    (newSubject clock u identifiers consentData).subjectId = u ∧
      (newSubject clock u identifiers consentData).deletionRequests = [] := by
  unfold newSubject
  split
  · exact ⟨rfl, rfl⟩
  · split
    · exact ⟨rfl, rfl⟩
    · exact ⟨rfl, rfl⟩

theorem named_new : new.Named := by
  intro key subject found
  cases found

theorem named_store (named : s.Named) (name : subject.subjectId = key) : (s.store key subject).Named := by
  intro u other found
  rw [get?_store] at found
  split at found
  · rename_i same
    rw [← Option.some.inj found, name, same]
  · exact named u other found

theorem named_step (named : s.Named) (i : Input) : (step s i).1.Named := by
  have effect := step_effect named i
  generalize (step s i).1 = t at effect
  generalize (step s i).2 = output at effect
  cases effect with
  | refused | unknown => exact named
  | registered u identifiers consentData =>
    exact named_store named (newSubject_blank _ u identifiers consentData).1
  | recorded u consentData purpose lawfulBasis is_call subject found =>
    exact named_store named (named u subject found)
  | withdrawn u purpose is_call subject found => exact named_store named (named u subject found)
  | requested u reason is_call subject found => exact named_store named (named u subject found)
  | processed requestId is_call key subject found =>
    intro u other kept
    rw [get?_delete] at kept
    split at kept
    · cases kept
    · exact named u other kept

end DataProtectionManager

end BtApiSecurity.Data
