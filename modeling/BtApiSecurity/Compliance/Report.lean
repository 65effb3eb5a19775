import BtApiSecurity.Compliance.Monitor

/-!
# What a report counts

A report covers every rule as long as no two rules have one id: of two results under one
id the later one is kept, and the earlier rule is not counted.
-/

namespace BtApiSecurity.Compliance.ComplianceMonitor
open Py

variable {rules : List ComplianceRule} {results : Dict String RuleResult}

def fails (rule : ComplianceRule) : Bool :=
  match rule.checkFunction with
  | .returned passed => !passed.truthy
  | _ => true

/-- The report counts every rule once, in the summary and under its standard. -/
structure CountsAll (rules : List ComplianceRule) (report : ComplianceReport) : Prop where
  total : report.summary.totalRules = rules.length
  failed : report.summary.failed = rules.countP fails
  complete : report.summary.passed + report.summary.failed = report.summary.totalRules
  totals : (report.byStandard.values.map (·.total)).sum = report.summary.totalRules
  passes : (report.byStandard.values.map (·.passed)).sum = report.summary.passed
  failures : (report.byStandard.values.map (·.failed)).sum = report.summary.failed

/-! ### By standard -/

section
variable {w : StandardGroup → Nat} {v : RuleResult → Nat}

theorem weigh_groupResult (zero : w .empty = 0)
    (adds : ∀ group ruleId result, w (group.add ruleId result) = w group + v result)
    (grouped : Dict String StandardGroup) (entry : String × RuleResult) :
    ((groupResult grouped entry).entries.map (w ·.2)).sum =
      (grouped.entries.map (w ·.2)).sum + v entry.2 := by
  have before : (grouped.get? entry.2.standard).elim 0 w =
      w ((grouped.get? entry.2.standard).getD .empty) := by
    cases grouped.get? entry.2.standard with
    | none => exact zero.symm
    | some group => rfl
  have traded := sum_values_put w entry.2.standard
    (((grouped.get? entry.2.standard).getD .empty).add entry.1 entry.2)
    grouped.entries
  rw [adds] at traded
  change _ + (grouped.get? entry.2.standard).elim 0 w = _ at traded
  simp only [groupResult, Dict.set]
  omega

theorem weigh_groupByStandard (zero : w .empty = 0)
    (adds : ∀ group ruleId result, w (group.add ruleId result) = w group + v result)
    (results : Dict String RuleResult) :
    ((groupByStandard results).values.map w).sum = (results.values.map v).sum := by
  have folded : ∀ (entries : List (String × RuleResult)) (grouped : Dict String StandardGroup),
      ((entries.foldl groupResult grouped).entries.map (w ·.2)).sum =
        (grouped.entries.map (w ·.2)).sum + (entries.map (v ·.2)).sum := by
    intro entries
    induction entries with
    | nil => exact fun _ => rfl
    | cons entry entries ih =>
      intro grouped
      rw [List.foldl_cons, ih, weigh_groupResult zero adds, List.map_cons, List.sum_cons, Nat.add_assoc]
  have whole := folded results.entries .empty
  rw [Dict.values, Dict.values, List.map_map, List.map_map]
  refine whole.trans ?_
  rw [Dict.empty, List.map_nil, List.sum_nil, Nat.zero_add]
  rfl

end

theorem sum_map_ite {α : Type*} (p : α → Bool) (xs : List α) :
    (xs.map fun x => if p x = true then 1 else 0).sum = xs.countP p := by
  induction xs with
  | nil => rfl
  | cons x xs ih =>
    rw [List.map_cons, List.sum_cons, List.countP_cons, ih, Nat.add_comm]

theorem total_groupByStandard (results : Dict String RuleResult) :
    ((groupByStandard results).values.map (·.total)).sum = results.entries.length := by
  have weighed := weigh_groupByStandard (w := StandardGroup.total) (v := fun _ => 1) rfl (fun _ _ _ => rfl) results
  rw [List.map_const', List.sum_replicate_nat, Nat.mul_one] at weighed
  exact weighed.trans (List.length_map _)

theorem counted_groupByStandard {w : StandardGroup → Nat} {p : RuleResult → Bool} (zero : w .empty = 0)
    (adds : ∀ group ruleId result,
      w (group.add ruleId result) = w group + if p result = true then 1 else 0)
    (results : Dict String RuleResult) :
    ((groupByStandard results).values.map w).sum = results.values.countP p := by
  rw [← sum_map_ite]
  exact weigh_groupByStandard zero adds results

/-! ### What is kept of the rules -/

/-- The results in the order of the rules, also where two rules have one id. -/
def kept (rules : List ComplianceRule) : List (String × RuleResult) :=
  rules.filterMap fun rule => (resultOf rule).map (rule.ruleId, ·)

theorem kept_cons {rule : ComplianceRule} {result : RuleResult} (ends : resultOf rule = some result)
    (rules : List ComplianceRule) : kept (rule :: rules) = (rule.ruleId, result) :: kept rules := by
  rw [kept, List.filterMap_cons, ends]
  rfl

theorem resultOf_eq_none_iff {rule : ComplianceRule} :
    resultOf rule = none ↔ rule.checkFunction = .escaped := by
  rw [resultOf]
  cases rule.checkFunction with
  | returned passed => exact iff_of_false (by intro same; cases same) (by intro same; cases same)
  | raised text => exact iff_of_false (by intro same; cases same) (by intro same; cases same)
  | escaped => exact iff_of_true rfl rfl

theorem fails_eq {rule : ComplianceRule} {result : RuleResult} (ends : resultOf rule = some result) :
    fails rule = !result.passed.truthy := by
  rw [resultOf] at ends
  rw [fails]
  cases outcome : rule.checkFunction with
  | returned passed =>
    rw [outcome] at ends
    obtain rfl := Option.some.inj ends
    rfl
  | raised text =>
    rw [outcome] at ends
    obtain rfl := Option.some.inj ends
    rfl
  | escaped =>
    rw [outcome] at ends
    cases ends

/-- A check that is left by more than an `Exception` ends the run. -/
theorem checkRules_none (rules : List ComplianceRule) (results : Dict String RuleResult) :
    (∃ rule ∈ rules, rule.checkFunction = .escaped) ∧ checkRules none rules results = none ∨
      (∀ rule ∈ rules, rule.checkFunction ≠ .escaped) ∧ ∃ final, checkRules none rules results = some final ∧
        final.entries = (kept rules).foldl (fun entries pair => put pair.1 pair.2 entries) results.entries := by
  induction rules generalizing results with
  | nil => exact .inr ⟨nofun, results, rfl, rfl⟩
  | cons rule rules ih =>
    cases ends : resultOf rule with
    | none =>
      refine .inl ⟨⟨rule, List.mem_cons_self, resultOf_eq_none_iff.mp ends⟩, ?_⟩
      rw [checkRules, ends]
      rfl
    | some result =>
      have contained : rule.checkFunction ≠ .escaped := by
        intro escaped
        rw [resultOf_eq_none_iff.mpr escaped] at ends
        cases ends
      have next : checkRules none (rule :: rules) results =
          checkRules none rules (results.set rule.ruleId result) := by
        rw [checkRules, ends]
        rfl
      rcases ih (results.set rule.ruleId result) with ⟨⟨other, member, escaped⟩, stopped⟩ | ⟨all, final, done, same⟩
      · exact .inl ⟨⟨other, List.mem_cons_of_mem rule member, escaped⟩, next.trans stopped⟩
      · refine .inr ⟨List.forall_mem_cons.mpr ⟨contained, all⟩, final, next.trans done, ?_⟩
        rw [same, kept_cons ends, List.foldl_cons]
        rfl

theorem ids_kept (contained : ∀ rule ∈ rules, rule.checkFunction ≠ .escaped) :
    (kept rules).map Prod.fst = rules.map (·.ruleId) := by
  induction rules with
  | nil => rfl
  | cons rule rules ih =>
    obtain ⟨first, rest⟩ := List.forall_mem_cons.mp contained
    cases ends : resultOf rule with
    | none => exact absurd (resultOf_eq_none_iff.mp ends) first
    | some result =>
      rw [kept_cons ends, List.map_cons, List.map_cons, ih rest]

theorem countP_kept (contained : ∀ rule ∈ rules, rule.checkFunction ≠ .escaped) :
    (kept rules).countP (fun pair => !pair.2.passed.truthy) = rules.countP fails := by
  induction rules with
  | nil => rfl
  | cons rule rules ih =>
    obtain ⟨first, rest⟩ := List.forall_mem_cons.mp contained
    cases ends : resultOf rule with
    | none => exact absurd (resultOf_eq_none_iff.mp ends) first
    | some result =>
      rw [kept_cons ends, List.countP_cons, List.countP_cons, ih rest, fails_eq ends]

/-! ### The report -/

theorem countsAll_of_distinct {m : ComplianceMonitor} (distinct : (m.rules.map (·.ruleId)).Nodup)
    (contained : ∀ rule ∈ m.rules, rule.checkFunction ≠ .escaped) :
    ∃ report, m.generateComplianceReport = some report ∧ CountsAll m.rules report := by
  rcases checkRules_none m.rules .empty with ⟨⟨rule, member, escaped⟩, -⟩ | ⟨-, results, done, same⟩
  · exact absurd escaped (contained rule member)
  · have whole : results.entries = kept m.rules := by
      rw [same]
      apply fromPairs_of_nodup
      rw [ids_kept contained]
      exact distinct
    have total : results.entries.length = m.rules.length := by
      have lengths := congrArg List.length (ids_kept contained)
      rw [List.length_map, List.length_map] at lengths
      rw [whole, lengths]
    have failing : results.values.countP (fun result => !result.passed.truthy) = m.rules.countP fails := by
      rw [← countP_kept contained, Dict.values, whole, List.countP_map]
      rfl
    have split : results.entries.length = results.values.countP (fun result => result.passed.truthy) +
        results.values.countP fun result => !result.passed.truthy := by
      have parts := List.length_eq_countP_add_countP (fun result : RuleResult => result.passed.truthy)
        (l := results.values)
      simp only [Bool.not_eq_true, Bool.decide_eq_false] at parts
      rw [← parts, Dict.values, List.length_map]
    have rest : results.entries.length - results.values.countP (fun result => result.passed.truthy) =
        results.values.countP fun result => !result.passed.truthy := by
      omega
    refine ⟨_, by rw [generateComplianceReport, runComplianceCheck, done]; rfl, ?_⟩
    constructor
    · exact total
    · exact rest.trans failing
    · exact (congrArg (_ + ·) rest).trans split.symm
    · exact total_groupByStandard results
    · refine counted_groupByStandard rfl (fun group ruleId result => ?_) results
      cases graded : result.passed.truthy <;> simp [StandardGroup.add, graded]
    · refine (counted_groupByStandard rfl (fun group ruleId result => ?_) results).trans rest.symm
      cases graded : result.passed.truthy <;> simp [StandardGroup.add, graded]

theorem distinct_of_countsAll {m : ComplianceMonitor} {report : ComplianceReport}
    (reports : m.generateComplianceReport = some report) (counts : CountsAll m.rules report) :
    (m.rules.map (·.ruleId)).Nodup ∧ ∀ rule ∈ m.rules, rule.checkFunction ≠ .escaped := by
  rcases checkRules_none m.rules .empty with ⟨-, stopped⟩ | ⟨contained, results, done, same⟩
  · rw [generateComplianceReport, runComplianceCheck, stopped] at reports
    cases reports
  · refine ⟨?_, contained⟩
    rw [generateComplianceReport, runComplianceCheck, done] at reports
    obtain rfl := Option.some.inj reports
    have total : results.entries.length = m.rules.length := counts.total
    have lengths := congrArg List.length (ids_kept contained)
    rw [List.length_map, List.length_map] at lengths
    have weights := (sum_fromPairs (fun _ => 1) (fun _ => Nat.one_pos) (kept m.rules)).2
    simp only [List.map_const', List.sum_replicate_nat, Nat.mul_one] at weights
    have stored : results.entries = fromPairs (kept m.rules) := same
    rw [← ids_kept contained]
    apply weights
    rw [← stored, total, lengths]

/-- A report comes out and counts every rule, if and only if no two rules have one id and no check lets
more than an `Exception` out. -/
theorem report_countsAll_iff (m : ComplianceMonitor) :
    (∃ report, m.generateComplianceReport = some report ∧ CountsAll m.rules report) ↔
      (m.rules.map (·.ruleId)).Nodup ∧ ∀ rule ∈ m.rules, rule.checkFunction ≠ .escaped := by
  constructor
  · intro reported
    obtain ⟨report, reports, counts⟩ := reported
    exact distinct_of_countsAll reports counts
  · intro separate
    obtain ⟨distinct, contained⟩ := separate
    exact countsAll_of_distinct distinct contained

theorem default_countsAll (percentage : Nat → Nat → PyFloat) : ∃ report,
    (new percentage).generateComplianceReport = some report ∧ CountsAll defaultRules report := by
  have distinct : ((new percentage).rules.map (·.ruleId)).Nodup := by
    show (defaultRules.map (·.ruleId)).Nodup
    decide
  apply countsAll_of_distinct distinct
  intro rule member
  simp only [new, defaultRules, List.mem_cons, List.not_mem_nil, or_false] at member
  rcases member with rfl | rfl | rfl
  · intro same; cases same
  · intro same; cases same
  · intro same; cases same

/-- A rule that fails, and one with its id that passes. -/
def maskedRules : List ComplianceRule :=
  [⟨"R1", .sox, "first", .returned (.bool false), "high"⟩, ⟨"R1", .sox, "second", .returned (.bool true), "high"⟩]

/-- The report on the two rules shows one rule and no failure. -/
theorem report_masks_failure : ¬∀ m : ComplianceMonitor, ∃ report,
    m.generateComplianceReport = some report ∧ CountsAll m.rules report := by
  intro holds
  obtain ⟨report, reports, counts⟩ := holds ⟨fun _ _ => .nan, maskedRules⟩
  cases reports
  exact absurd counts.failed (by decide +kernel)

end BtApiSecurity.Compliance.ComplianceMonitor
