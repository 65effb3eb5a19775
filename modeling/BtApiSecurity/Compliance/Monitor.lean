import BtApiSecurity.Py.Value

/-!
# The compliance report

Each rule is checked once, and what came of it is kept under the id of the rule. The
report counts what was kept.
-/

namespace BtApiSecurity.Compliance
open Py

inductive ComplianceStandard where
  | sox
  | mifidIi
  | pciDss
  | gdpr
  | iso27001
  | nistCsf
  deriving DecidableEq

def ComplianceStandard.value : ComplianceStandard → String
  | .sox => "sox"
  | .mifidIi => "mifid_ii"
  | .pciDss => "pci_dss"
  | .gdpr => "gdpr"
  | .iso27001 => "iso_27001"
  | .nistCsf => "nist_csf"

/-- How a call of a check function ends: with a value, with an `Exception` that has a text, or with
anything else that is raised. -/
inductive Outcome where
  | returned (passed : Value)
  | raised (text : String)
  | escaped

structure ComplianceRule where
  ruleId : String
  standard : ComplianceStandard
  description : String
  checkFunction : Outcome
  severity : String := "high"

structure RuleResult where
  standard : String
  description : String
  passed : Value
  error : Option String := none
  severity : String

structure GroupedRule where
  ruleId : String
  description : String
  passed : Value

structure StandardGroup where
  total : Nat
  passed : Nat
  failed : Nat
  rules : List GroupedRule

def StandardGroup.empty : StandardGroup := ⟨0, 0, 0, []⟩

def StandardGroup.add (group : StandardGroup) (ruleId : String) (result : RuleResult) : StandardGroup :=
  { total := group.total + 1
    passed := if result.passed.truthy then group.passed + 1 else group.passed
    failed := if result.passed.truthy then group.failed else group.failed + 1
    rules := group.rules ++ [⟨ruleId, result.description, result.passed⟩] }

structure ReportSummary where
  totalRules : Nat
  passed : Nat
  failed : Nat
  compliancePercentage : Value

structure ComplianceReport where
  summary : ReportSummary
  results : Dict String RuleResult
  byStandard : Dict String StandardGroup

/-- `percentage` is `passed / total * 100` in floating point. -/
structure ComplianceMonitor where
  percentage : Nat → Nat → PyFloat
  rules : List ComplianceRule

namespace ComplianceMonitor

def defaultRules : List ComplianceRule :=
  [{ ruleId := "SOX_001", standard := .sox,
      description := "All financial transactions must be auditable",
      checkFunction := .returned (.bool true) },
    { ruleId := "MIFID_001", standard := .mifidIi,
      description := "Trade timestamps must be accurate to millisecond",
      checkFunction := .returned (.bool true) },
    { ruleId := "PCI_001", standard := .pciDss,
      description := "Cardholder data must be encrypted",
      checkFunction := .returned (.bool true) }]

def new (percentage : Nat → Nat → PyFloat) : ComplianceMonitor := ⟨percentage, defaultRules⟩

/-- What is kept of a rule, or nothing where the check is left by more than an `Exception`. -/
def resultOf (rule : ComplianceRule) : Option RuleResult :=
  match rule.checkFunction with
  | .returned passed =>
    some
      { standard := rule.standard.value
        description := rule.description
        passed
        severity := rule.severity }
  | .raised text =>
    some
      { standard := rule.standard.value
        description := rule.description
        passed := .bool false
        error := some text
        severity := rule.severity }
  | .escaped => none

def checkRules (standard : Option ComplianceStandard) :
    List ComplianceRule → Dict String RuleResult → Option (Dict String RuleResult)
  | [], results => some results
  | rule :: rules, results =>
    if standard.all (rule.standard = ·) then
      match resultOf rule with
      | some result => checkRules standard rules (results.set rule.ruleId result)
      | none => none
    else checkRules standard rules results

def runComplianceCheck (m : ComplianceMonitor) (standard : Option ComplianceStandard) :
    Option (Dict String RuleResult) :=
  checkRules standard m.rules .empty

def groupResult (grouped : Dict String StandardGroup) (entry : String × RuleResult) :
    Dict String StandardGroup :=
  grouped.set entry.2.standard
    (((grouped.get? entry.2.standard).getD .empty).add entry.1 entry.2)

def groupByStandard (results : Dict String RuleResult) : Dict String StandardGroup :=
  results.entries.foldl groupResult .empty

def generateComplianceReport (m : ComplianceMonitor) : Option ComplianceReport := do
  let results ← m.runComplianceCheck none
  let passedCount := results.values.countP fun result => result.passed.truthy
  let totalCount := results.entries.length
  return {
    summary :=
      { totalRules := totalCount
        passed := passedCount
        failed := totalCount - passedCount
        compliancePercentage :=
          if totalCount > 0 then .float (m.percentage passedCount totalCount) else .int 0 }
    results
    byStandard := groupByStandard results }

end ComplianceMonitor

end BtApiSecurity.Compliance
