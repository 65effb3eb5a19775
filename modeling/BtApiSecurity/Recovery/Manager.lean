import BtApiSecurity.Py.Dict
import BtApiSecurity.Py.Method
import BtApiSecurity.Py.Number

/-!
# Disaster recovery

Backup configurations and recovery plans under ids made from the second of their
creation.
-/

namespace BtApiSecurity.Recovery
open Py

inductive RecoveryStatus where
  | normal
  | degraded
  | disaster
  | recovering
  | recovered
  deriving DecidableEq

def RecoveryStatus.value : RecoveryStatus → String
  | .normal => "normal"
  | .degraded => "degraded"
  | .disaster => "disaster"
  | .recovering => "recovering"
  | .recovered => "recovered"

structure BackupConfig where
  backupId : String
  name : String
  frequency : String
  retentionDays : Int
  locations : List String
  encryptionEnabled : Bool := true
  createdAt : Time

structure RecoveryPlan where
  planId : String
  name : String
  description : String
  disasterTypes : List String
  recoverySteps : List String
  rtoHours : Int
  rpoHours : Int
  contacts : List (Dict String String)
  createdAt : Time

structure DisasterRecoveryManager where
  backups : Dict String BackupConfig
  recoveryPlans : Dict String RecoveryPlan
  currentStatus : RecoveryStatus

structure RecoverySummary where
  status : String
  backupConfigs : Nat
  recoveryPlans : Nat

structure TestResults where
  stepsTested : Nat
  stepsPassed : Nat
  durationMinutes : Nat
  testDate : Time

structure BackupRow where
  backupId : String
  name : String
  frequency : String
  retentionDays : Int

structure PlanRow where
  planId : String
  name : String
  rtoHours : Int
  rpoHours : Int
  disasterTypes : List String

structure RecoveryReport where
  backupConfigurations : List BackupRow
  recoveryPlans : List PlanRow
  currentStatus : String

/-- What the calls answer. `failed` is a dictionary with `success` false and the error. -/
inductive Reply where
  | backup (backup : BackupConfig)
  | plan (plan : RecoveryPlan)
  | failed (error : String)
  | backupStarted (backupId : String) (startedAt : Time) (locations : List String)
  | recoveryStarted (planId : String) (recoverySteps : List String) (rtoHours : Int)
      (contacts : List (Dict String String)) (initiatedAt : Time)
  | summary (summary : RecoverySummary)
  | tested (planId : String) (testResults : TestResults)
  | report (report : RecoveryReport)

namespace DisasterRecoveryManager

def defaultBackup (now : Time) : BackupConfig :=
  { backupId := "database_daily"
    name := "Daily Database Backup"
    frequency := "daily"
    retentionDays := 30
    locations := ["s3://backup-bucket/database/", "/local/backups/database/"]
    createdAt := now }

def contact (role address : String) : Dict String String :=
  (Dict.empty.set "role" role).set "contact" address

def defaultPlan (now : Time) : RecoveryPlan :=
  { planId := "primary_recovery"
    name := "Primary Disaster Recovery Plan"
    description := "Standard recovery procedures for system outages"
    disasterTypes := ["server_failure", "data_corruption", "network_outage"]
    recoverySteps :=
      ["Assess disaster scope and impact", "Activate recovery team", "Restore from latest backup",
        "Verify system integrity", "Resume operations", "Document lessons learned"]
    rtoHours := 4
    rpoHours := 24
    contacts :=
      [contact "Incident Commander" "incident@company.com", contact "Technical Lead" "tech-lead@company.com"]
    createdAt := now }

/-- The first reading of the clock is for the backup, the second for the plan. -/
def new (clock : Nat → Time) : DisasterRecoveryManager :=
  { backups := Dict.empty.set "database_daily" (defaultBackup (clock 0))
    recoveryPlans := Dict.empty.set "primary_recovery" (defaultPlan (clock 1))
    currentStatus := .normal }

/-! ### Creating -/

def backupIdAt (t : Time) : String := "backup_" ++ intText (truncate t)

def planIdAt (t : Time) : String := "plan_" ++ intText (truncate t)

/-- The first reading of the clock is for the id, the second for the configuration. -/
def newBackup (clock : Nat → Time) (name frequency : String) (retentionDays : Int)
    (locations : List String) : BackupConfig :=
  { backupId := backupIdAt (clock 0), name, frequency, retentionDays, locations, createdAt := clock 1 }

def createBackupConfig (clock : Nat → Time) (name frequency : String) (retentionDays : Int)
    (locations : List String) (s : DisasterRecoveryManager) : DisasterRecoveryManager × Reply :=
  let backup := newBackup clock name frequency retentionDays locations
  ({ s with backups := s.backups.set backup.backupId backup }, .backup backup)

/-- What `create_recovery_plan` is given. -/
structure PlanArgs where
  name : String
  description : String
  disasterTypes : List String
  recoverySteps : List String
  rtoHours : Int
  rpoHours : Int
  contacts : List (Dict String String)

def newPlan (clock : Nat → Time) (args : PlanArgs) : RecoveryPlan :=
  { planId := planIdAt (clock 0)
    name := args.name
    description := args.description
    disasterTypes := args.disasterTypes
    recoverySteps := args.recoverySteps
    rtoHours := args.rtoHours
    rpoHours := args.rpoHours
    contacts := args.contacts
    createdAt := clock 1 }

def createRecoveryPlan (clock : Nat → Time) (args : PlanArgs) (s : DisasterRecoveryManager) :
    DisasterRecoveryManager × Reply :=
  let plan := newPlan clock args
  ({ s with recoveryPlans := s.recoveryPlans.set plan.planId plan }, .plan plan)

/-! ### Using what was created -/

def initiateBackup (clock : Nat → Time) (backupId : String) (s : DisasterRecoveryManager) :
    DisasterRecoveryManager × Reply :=
  match s.backups.get? backupId with
  | none => (s, .failed "Backup configuration not found")
  | some backup => (s, .backupStarted backupId (clock 0) backup.locations)

def initiateRecovery (clock : Nat → Time) (planId : String) (s : DisasterRecoveryManager) :
    DisasterRecoveryManager × Reply :=
  match s.recoveryPlans.get? planId with
  | none => (s, .failed "Recovery plan not found")
  | some plan =>
    ({ s with currentStatus := .recovering },
      .recoveryStarted planId plan.recoverySteps plan.rtoHours plan.contacts (clock 0))

def getRecoveryStatus (s : DisasterRecoveryManager) : RecoverySummary :=
  ⟨s.currentStatus.value, s.backups.entries.length, s.recoveryPlans.entries.length⟩

def testRecoveryPlan (clock : Nat → Time) (planId : String) (s : DisasterRecoveryManager) : Reply :=
  match s.recoveryPlans.get? planId with
  | none => .failed "Recovery plan not found"
  | some plan => .tested planId ⟨plan.recoverySteps.length, plan.recoverySteps.length, 45, clock 0⟩

def generateRecoveryReport (s : DisasterRecoveryManager) : RecoveryReport :=
  { backupConfigurations :=
      s.backups.values.map fun backup =>
        ⟨backup.backupId, backup.name, backup.frequency, backup.retentionDays⟩
    recoveryPlans :=
      s.recoveryPlans.values.map fun plan =>
        ⟨plan.planId, plan.name, plan.rtoHours, plan.rpoHours, plan.disasterTypes⟩
    currentStatus := s.currentStatus.value }

/-! ### The manager as a machine -/

inductive Call where
  | createBackupConfig (name frequency : String) (retentionDays : Int) (locations : List String)
  | createRecoveryPlan (args : PlanArgs)
  | initiateBackup (backupId : String)
  | initiateRecovery (planId : String)
  | getRecoveryStatus
  | testRecoveryPlan (planId : String)
  | generateRecoveryReport

structure Input where
  clock : Nat → Time
  call : Call

def step (s : DisasterRecoveryManager) (i : Input) : DisasterRecoveryManager × Reply :=
  match i.call with
  | .createBackupConfig name frequency retentionDays locations =>
    createBackupConfig i.clock name frequency retentionDays locations s
  | .createRecoveryPlan args => createRecoveryPlan i.clock args s
  | .initiateBackup backupId => initiateBackup i.clock backupId s
  | .initiateRecovery planId => initiateRecovery i.clock planId s
  | .getRecoveryStatus => (s, .summary s.getRecoveryStatus)
  | .testRecoveryPlan planId => (s, testRecoveryPlan i.clock planId s)
  | .generateRecoveryReport => (s, .report s.generateRecoveryReport)

end DisasterRecoveryManager

end BtApiSecurity.Recovery
