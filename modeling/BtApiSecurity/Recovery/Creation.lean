import BtApiSecurity.Recovery.Manager
import BtApiSecurity.Storage

/-!
# What was created is found again

Two creations in one second have one id, and the later entry takes the place of the
earlier.
-/

namespace BtApiSecurity.Recovery.DisasterRecoveryManager
open Py Machine

abbrev Event := Entry DisasterRecoveryManager Input Reply

/-! ### What a call stores -/

def storedBackup (i : Input) : Option BackupConfig :=
  match i.call with
  | .createBackupConfig name frequency retentionDays locations =>
    some (newBackup i.clock name frequency retentionDays locations)
  | _ => none

def storedPlan (i : Input) : Option RecoveryPlan :=
  match i.call with
  | .createRecoveryPlan args => some (newPlan i.clock args)
  | _ => none

/-- What a step does to the two tables. -/
inductive Effect (s : DisasterRecoveryManager) (i : Input) (t : DisasterRecoveryManager) (reply : Reply) :
    Prop where
  | backup (backup : BackupConfig) (stored : storedBackup i = some backup) (no_plan : storedPlan i = none)
      (state : t = { s with backups := s.backups.set backup.backupId backup })
      (returns : reply = .backup backup)
  | plan (plan : RecoveryPlan) (no_backup : storedBackup i = none) (stored : storedPlan i = some plan)
      (state : t = { s with recoveryPlans := s.recoveryPlans.set plan.planId plan })
      (returns : reply = .plan plan)
  | neither (no_backup : storedBackup i = none) (no_plan : storedPlan i = none)
      (backups : t.backups = s.backups) (recoveryPlans : t.recoveryPlans = s.recoveryPlans)
      (not_backup : ∀ backup, reply ≠ .backup backup) (not_plan : ∀ plan, reply ≠ .plan plan)

theorem step_effect (s : DisasterRecoveryManager) (i : Input) : Effect s i (step s i).1 (step s i).2 := by
  obtain ⟨clock, call⟩ := i
  cases call with
  | createBackupConfig => exact .backup _ rfl rfl rfl rfl
  | createRecoveryPlan => exact .plan _ rfl rfl rfl rfl
  | initiateBackup backupId =>
    simp only [step, initiateBackup]
    cases s.backups.get? backupId with
    | none => exact .neither rfl rfl rfl rfl (by intro _ h; cases h) (by intro _ h; cases h)
    | some backup => exact .neither rfl rfl rfl rfl (by intro _ h; cases h) (by intro _ h; cases h)
  | initiateRecovery planId =>
    simp only [step, initiateRecovery]
    cases s.recoveryPlans.get? planId with
    | none => exact .neither rfl rfl rfl rfl (by intro _ h; cases h) (by intro _ h; cases h)
    | some plan => exact .neither rfl rfl rfl rfl (by intro _ h; cases h) (by intro _ h; cases h)
  | testRecoveryPlan planId =>
    simp only [step, testRecoveryPlan]
    cases s.recoveryPlans.get? planId with
    | none => exact .neither rfl rfl rfl rfl (by intro _ h; cases h) (by intro _ h; cases h)
    | some plan => exact .neither rfl rfl rfl rfl (by intro _ h; cases h) (by intro _ h; cases h)
  | getRecoveryStatus | generateRecoveryReport =>
    exact .neither rfl rfl rfl rfl (by intro _ h; cases h) (by intro _ h; cases h)

theorem stores_backups : Stores step backups BackupConfig.backupId Reply.backup storedBackup := by
  constructor
  · intro s i
    cases step_effect s i with
    | backup backup stored no_plan state returns => rw [state, stored, storing]
    | plan plan no_backup stored state returns => rw [state, no_backup, storing]
    | neither no_backup no_plan backups recoveryPlans not_backup not_plan => rw [backups, no_backup, storing]
  · intro s i backup
    cases step_effect s i with
    | backup new stored no_plan state returns => rw [returns, stored, Reply.backup.injEq, Option.some_inj]
    | plan plan no_backup stored state returns =>
      rw [returns, no_backup]
      exact iff_of_false (by intro h; cases h) (by intro h; cases h)
    | neither no_backup no_plan backups recoveryPlans not_backup not_plan =>
      rw [no_backup]
      exact iff_of_false (not_backup backup) (by intro h; cases h)

theorem stores_recoveryPlans : Stores step recoveryPlans RecoveryPlan.planId Reply.plan storedPlan := by
  constructor
  · intro s i
    cases step_effect s i with
    | backup backup stored no_plan state returns => rw [state, no_plan, storing]
    | plan plan no_backup stored state returns => rw [state, stored, storing]
    | neither no_backup no_plan backups recoveryPlans not_backup not_plan =>
      rw [recoveryPlans, no_plan, storing]
  · intro s i plan
    cases step_effect s i with
    | backup backup stored no_plan state returns =>
      rw [returns, no_plan]
      exact iff_of_false (by intro h; cases h) (by intro h; cases h)
    | plan new no_backup stored state returns => rw [returns, stored, Reply.plan.injEq, Option.some_inj]
    | neither no_backup no_plan backups recoveryPlans not_backup not_plan =>
      rw [no_plan]
      exact iff_of_false (not_plan plan) (by intro h; cases h)

/-! ### Seconds -/

def backupSecond (i : Input) : Option Int :=
  match i.call with
  | .createBackupConfig _ _ _ _ => some (truncate (i.clock 0))
  | _ => none

def planSecond (i : Input) : Option Int :=
  match i.call with
  | .createRecoveryPlan _ => some (truncate (i.clock 0))
  | _ => none

theorem keys_backups (is : List Input) : storedKeys BackupConfig.backupId storedBackup is =
    (is.filterMap backupSecond).map fun second => "backup_" ++ intText second := by
  rw [storedKeys, List.map_filterMap, List.map_filterMap]
  apply List.filterMap_congr
  intro i _
  obtain ⟨clock, call⟩ := i
  cases call with
  | _ => rfl

theorem keys_plans (is : List Input) : storedKeys RecoveryPlan.planId storedPlan is =
    (is.filterMap planSecond).map fun second => "plan_" ++ intText second := by
  rw [storedKeys, List.map_filterMap, List.map_filterMap]
  apply List.filterMap_congr
  intro i _
  obtain ⟨clock, call⟩ := i
  cases call with
  | _ => rfl

/-- Ids of one kind differ with the second. -/
theorem nodup_ids_iff (kind : String) (seconds : List Int) :
    (seconds.map fun second => kind ++ intText second).Nodup ↔ seconds.Nodup := by
  apply List.nodup_map_iff
  intro second second' same
  exact intText_injective ((String.append_right_inj kind).mp same)

/-- An id of a kind is none of the ids that the manager starts with. -/
theorem ne_of_initial {kind default : String} (second : Int)
    (differ : kind.toList.take 2 ≠ default.toList.take 2) (long : 2 ≤ kind.toList.length) :
    default ≠ kind ++ intText second := by
  intro same
  apply differ
  have lists := congrArg (fun id => id.toList.take 2) same
  simp only [String.toList_append] at lists
  rw [lists, List.take_append_of_le_length long]

theorem backups_new (clock : Nat → Time) (is : List Input) :
    ∀ k ∈ storedKeys BackupConfig.backupId storedBackup is, (new clock).backups.get? k = none := by
  intro k member
  rw [keys_backups] at member
  obtain ⟨second, -, rfl⟩ := List.mem_map.mp member
  exact Dict.get?_set_of_ne _ _ (ne_of_initial second (by decide) (by decide))

theorem recoveryPlans_new (clock : Nat → Time) (is : List Input) :
    ∀ k ∈ storedKeys RecoveryPlan.planId storedPlan is, (new clock).recoveryPlans.get? k = none := by
  intro k member
  rw [keys_plans] at member
  obtain ⟨second, -, rfl⟩ := List.mem_map.mp member
  exact Dict.get?_set_of_ne _ _ (ne_of_initial second (by decide) (by decide))

/-! ### Runs -/

/-- In every state of the run each configuration and each plan that was returned is used as it was
returned, and each creation was counted. -/
structure KeepsAll (clock : Nat → Time) (is : List Input) : Prop where
  backups : ∀ before after, is = before ++ after → ∀ e ∈ trace step (new clock) before, ∀ backup,
    e.output = .backup backup → ∀ clock',
      (step (run step (new clock) before) ⟨clock', .initiateBackup backup.backupId⟩).2 =
        .backupStarted backup.backupId (clock' 0) backup.locations
  plans : ∀ before after, is = before ++ after → ∀ e ∈ trace step (new clock) before, ∀ plan,
    e.output = .plan plan → ∀ clock',
      (step (run step (new clock) before) ⟨clock', .initiateRecovery plan.planId⟩).2 =
        .recoveryStarted plan.planId plan.recoverySteps plan.rtoHours plan.contacts (clock' 0)
  countsBackups : ∀ e ∈ trace step (new clock) is, ∀ backup, e.output = .backup backup →
    e.post.getRecoveryStatus.backupConfigs = e.pre.getRecoveryStatus.backupConfigs + 1
  countsPlans : ∀ e ∈ trace step (new clock) is, ∀ plan, e.output = .plan plan →
    e.post.getRecoveryStatus.recoveryPlans = e.pre.getRecoveryStatus.recoveryPlans + 1

theorem distinct_backups_iff (is : List Input) :
    (storedKeys BackupConfig.backupId storedBackup is).Nodup ↔ (is.filterMap backupSecond).Nodup := by
  rw [keys_backups]
  exact nodup_ids_iff "backup_" _

theorem distinct_plans_iff (is : List Input) :
    (storedKeys RecoveryPlan.planId storedPlan is).Nodup ↔ (is.filterMap planSecond).Nodup := by
  rw [keys_plans]
  exact nodup_ids_iff "plan_" _

theorem countsBackups_iff (clock : Nat → Time) (is : List Input) :
    (∀ e ∈ trace step (new clock) is, ∀ backup, e.output = .backup backup →
      e.post.getRecoveryStatus.backupConfigs = e.pre.getRecoveryStatus.backupConfigs + 1) ↔
      (is.filterMap backupSecond).Nodup :=
  (counted_iff_nodup stores_backups (backups_new clock is)).trans (distinct_backups_iff is)

theorem countsPlans_iff (clock : Nat → Time) (is : List Input) :
    (∀ e ∈ trace step (new clock) is, ∀ plan, e.output = .plan plan →
      e.post.getRecoveryStatus.recoveryPlans = e.pre.getRecoveryStatus.recoveryPlans + 1) ↔
      (is.filterMap planSecond).Nodup :=
  (counted_iff_nodup stores_recoveryPlans (recoveryPlans_new clock is)).trans (distinct_plans_iff is)

theorem keepsAll_of_distinct {clock : Nat → Time} {is : List Input} (backups : (is.filterMap backupSecond).Nodup)
    (plans : (is.filterMap planSecond).Nodup) : KeepsAll clock is := by
  refine ⟨?_, ?_, (countsBackups_iff clock is).mpr backups, (countsPlans_iff clock is).mpr plans⟩
  · intro before after inputs e member backup returns clock'
    subst inputs
    rw [List.filterMap_append] at backups
    have distinct := (distinct_backups_iff before).mpr (List.nodup_append.mp backups).1
    have found := found_of_distinct stores_backups distinct member returns
    simp only [step, initiateBackup, found]
  · intro before after inputs e member plan returns clock'
    subst inputs
    rw [List.filterMap_append] at plans
    have distinct := (distinct_plans_iff before).mpr (List.nodup_append.mp plans).1
    have found := found_of_distinct stores_recoveryPlans distinct member returns
    simp only [step, initiateRecovery, found]

/-- Nothing that was created is lost, if and only if no two configurations are created in one second, and
no two plans. -/
theorem keepsAll_iff (clock : Nat → Time) (is : List Input) :
    KeepsAll clock is ↔ (is.filterMap backupSecond).Nodup ∧ (is.filterMap planSecond).Nodup := by
  constructor
  · intro keeps
    exact ⟨(countsBackups_iff clock is).mp keeps.countsBackups, (countsPlans_iff clock is).mp keeps.countsPlans⟩
  · intro distinct
    exact keepsAll_of_distinct distinct.1 distinct.2

def backupAt (t : Time) (name location : String) : Input :=
  ⟨fun _ => t, .createBackupConfig name "hourly" 30 [location]⟩

def burst : List Input := [backupAt 5000 "orders" "s3://a", backupAt (10001 / 2) "trades" "s3://b"]

/-- Of two configurations created within half a second the first is lost. -/
theorem burst_loses_backup : ¬∀ (clock : Nat → Time) (is : List Input), KeepsAll clock is := by
  intro holds
  have keeps := holds (fun _ => 0) burst
  have id : (newBackup (backupAt 5000 "orders" "s3://a").clock "orders" "hourly" 30 ["s3://a"]).backupId =
      "backup_5000" := by decide +kernel
  have kept : ((run step (new fun _ => 0) burst).backups.get? "backup_5000").map (·.locations) =
      some ["s3://b"] := by decide +kernel
  obtain ⟨backup, found, locations⟩ := Option.map_eq_some_iff.mp kept
  have started := keeps.backups burst [] rfl _ List.mem_cons_self _ rfl (fun _ => 6000)
  simp only [step, initiateBackup, id, found] at started
  have own := (Reply.backupStarted.inj started).2.2
  rw [locations] at own
  exact absurd own (by decide)

end BtApiSecurity.Recovery.DisasterRecoveryManager
