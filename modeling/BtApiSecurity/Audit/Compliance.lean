import BtApiSecurity.Audit.Newest
import BtApiSecurity.Audit.Retention
import BtApiSecurity.Py.Tally

/-!
# Compliance reports

`get_compliance_report` counts the events with a tag among what a search for the
period returns. The search stops at ten thousand events of whatever tags, and it
knows no bound at zero.
-/

namespace BtApiSecurity.Audit
open Py

/-! ### Dates -/

/-- `datetime.fromisoformat(date).timestamp()`, and the local day of `datetime.fromtimestamp(t)`;
`none` is an exception. -/
structure Calendar where
  timestampOf : String → Option PyFloat
  dateOf : Value → Option String

/-- No date and an empty date are no bound. -/
def Calendar.bound (calendar : Calendar) : Option String → Option (Option PyFloat)
  | none => some none
  | some date => if date = "" then some none else (calendar.timestampOf date).map some

/-- Two dates that can be read. -/
structure Period (calendar : Calendar) where
  startDate : Option String
  endDate : Option String
  startTime : Option PyFloat
  endTime : Option PyFloat
  starts : calendar.bound startDate = some startTime
  ends : calendar.bound endDate = some endTime

def Period.filters {calendar : Calendar} (period : Period calendar) : Filters :=
  { startTime := period.startTime, endTime := period.endTime }

/-! ### Statistics -/

/-- `standard in compliance_tags`; `none` is the `TypeError` of what holds nothing. -/
def containsTag (standard : String) : Value → Option Bool
  | .list tags | .tuple tags => some (tags.any (·.pyEq (.str standard)))
  | .dict items => some (items.any (·.1.pyEq (.str standard)))
  | .str s => some (decide (standard.toList <:+: s.toList))
  | _ => none

/-- `[event for event in events if standard in event.compliance_tags]` -/
def withTag (standard : String) : List AuditEvent → Option (List AuditEvent)
  | [] => some []
  | e :: es => do
    let tagged ← containsTag standard e.complianceTags
    let rest ← withTag standard es
    return if tagged then e :: rest else rest

def SeverityLevel.name : SeverityLevel → String
  | low => "LOW"
  | medium => "MEDIUM"
  | high => "HIGH"
  | critical => "CRITICAL"

/-- `event_type.value`; `none` is the `AttributeError`. -/
def TypeField.value? : TypeField → Option String
  | .member t => some t.value
  | .other _ => none

/-- `severity.name`; `none` is the `AttributeError`. -/
def severityName : Value → Option String
  | .int i => (SeverityLevel.ofInt? i).map (·.name)
  | _ => none

/-- A value as a key; `none` is the `TypeError`. What is read from a line holds no tuple. -/
def asKey : Value → Option Key
  | .none => some .none
  | .bool b => some (.bool b)
  | .int i => some (.int i)
  | .float x => some (.float x)
  | .str s => some (.str s)
  | _ => none

structure Statistics where
  totalEvents : Nat
  byType : List (String × Nat) := []
  bySeverity : List (String × Nat) := []
  byOutcome : List (Key × Nat) := []
  timeline : List (String × Nat) := []

def Statistics.count (stats : Statistics) (eventType severity : String) (outcome : Key)
    (date : String) : Statistics :=
  { stats with
    byType := bump (· == ·) eventType stats.byType
    bySeverity := bump (· == ·) severity stats.bySeverity
    byOutcome := bump Key.pyEq outcome stats.byOutcome
    timeline := bump (· == ·) date stats.timeline }

def Statistics.add (calendar : Calendar) (stats : Statistics) (e : AuditEvent) : Option Statistics := do
  let eventType ← e.eventType.value?
  let severity ← severityName e.severity
  let outcome ← asKey e.outcome
  let date ← calendar.dateOf e.timestamp
  return stats.count eventType severity outcome date

/-! ### Reports -/

structure ComplianceReport where
  standard : String
  startDate : Option String
  endDate : Option String
  statistics : Statistics
  events : List Value

def getComplianceReport (env : Env) (draws : Nat → Draw) (calendar : Calendar) (standard : String)
    (startDate endDate : Option String) (file : Option (List Char)) : Option ComplianceReport := do
  let startTime ← calendar.bound startDate
  let endTime ← calendar.bound endDate
  let allEvents ← searchEvents env draws { startTime, endTime } 10000 file
  let complianceEvents ← withTag standard allEvents
  let statistics ← complianceEvents.foldlM (Statistics.add calendar)
    { totalEvents := complianceEvents.length }
  let events ← (complianceEvents.take 100).mapM AuditEvent.toDict
  return { standard, startDate, endDate, statistics, events }

/-! ### What a report should count -/

/-- The fields that a report looks at have the declared types. -/
structure AuditEvent.WellFormed (e : AuditEvent) : Prop where
  timestamp : ∃ x, e.timestamp = .float x
  eventType : ∃ t, e.eventType = .member t
  severity : ∃ level : SeverityLevel, e.severity = .int level.toInt
  outcome : ∃ outcome, e.outcome = .str outcome
  complianceTags : ∃ tags : List String, e.complianceTags = .list (tags.map .str)

/-- What a count is about. -/
inductive Group where
  | type (value : String)
  | severity (name : String)
  | outcome (result : String)
  | date (day : String)

def Group.holds (calendar : Calendar) (e : AuditEvent) : Group → Bool
  | .type value => e.eventType.value? = some value
  | .severity name => severityName e.severity = some name
  | .outcome result => asKey e.outcome = some (.str result)
  | .date day => calendar.dateOf e.timestamp = some day

def Statistics.countOf (stats : Statistics) : Group → Nat
  | .type value => Py.countOf (· == ·) value stats.byType
  | .severity name => Py.countOf (· == ·) name stats.bySeverity
  | .outcome result => Py.countOf Key.pyEq (.str result) stats.byOutcome
  | .date day => Py.countOf (· == ·) day stats.timeline

def Statistics.sums (stats : Statistics) : List Nat :=
  [sumOf stats.byType, sumOf stats.bySeverity, sumOf stats.byOutcome, sumOf stats.timeline]

def hasTag (standard : String) (e : AuditEvent) : Bool :=
  containsTag standard e.complianceTags = some true

variable {env : Env} {draws : Nat → Draw} {calendar : Calendar} {standard : String}
  {period : Period calendar} {text : List Char}

/-- The stored events of the period with the tag. -/
def concerned (env : Env) (draws : Nat → Draw) (standard : String) (period : Period calendar)
    (text : List Char) : List AuditEvent :=
  (wanted env draws period.filters text).filter (hasTag standard)

/-- The total, the four sums and every single count are those of these events. -/
structure Statistics.CountTruly (calendar : Calendar) (stats : Statistics) (events : List AuditEvent) :
    Prop where
  total : stats.totalEvents = events.length
  sums : ∀ n ∈ stats.sums, n = events.length
  groups : ∀ group : Group, stats.countOf group = events.countP (group.holds calendar)

def CountsEverything (env : Env) (draws : Nat → Draw) (standard : String) (period : Period calendar)
    (text : List Char) : Prop :=
  ∃ report, getComplianceReport env draws calendar standard period.startDate period.endDate
      (some text) = some report ∧
    report.statistics.CountTruly calendar (concerned env draws standard period text)

/-! ### Counting -/

theorem exact_str (s : String) : Exact Key.pyEq (.str s) := by
  intro key
  cases key with
  | str t => simp [Key.pyEq]
  | float x => cases place : x.extended <;> simp [Key.pyEq, sameNumber, Key.extended, place]
  | _ => simp [Key.pyEq, sameNumber, Key.extended]

/-- One event adds one to each sum and to the counts of its groups. -/
theorem add_counts {e : AuditEvent} (wellFormed : e.WellFormed)
    (dated : (calendar.dateOf e.timestamp).isSome = true) (stats : Statistics) :
    ∃ stats', stats.add calendar e = some stats' ∧ stats'.totalEvents = stats.totalEvents ∧
      stats'.sums = stats.sums.map (· + 1) ∧
      ∀ group : Group, stats'.countOf group =
        stats.countOf group + if group.holds calendar e then 1 else 0 := by
  obtain ⟨t, type⟩ := wellFormed.eventType
  obtain ⟨level, severity⟩ := wellFormed.severity
  obtain ⟨result, outcome⟩ := wellFormed.outcome
  obtain ⟨day, date⟩ := Option.isSome_iff_exists.mp dated
  have typed : e.eventType.value? = some t.value := by rw [type]; rfl
  have graded : severityName e.severity = some level.name := by simp [severity, severityName]
  have resulted : asKey e.outcome = some (.str result) := by rw [outcome]; rfl
  refine ⟨stats.count t.value level.name (.str result) day, ?_, rfl, ?_, ?_⟩
  · simp only [Statistics.add, typed, graded, resulted, date]
    rfl
  · simp [Statistics.count, Statistics.sums, sumOf_bump]
  · intro group
    cases group with
    | type value =>
      simp [Statistics.count, Statistics.countOf, Group.holds, typed, countOf_bump (exact_beq _) (exact_beq _)]
    | severity name =>
      simp [Statistics.count, Statistics.countOf, Group.holds, graded, countOf_bump (exact_beq _) (exact_beq _)]
    | outcome text =>
      simp [Statistics.count, Statistics.countOf, Group.holds, resulted, countOf_bump (exact_str _) (exact_str _)]
    | date other =>
      simp [Statistics.count, Statistics.countOf, Group.holds, date, countOf_bump (exact_beq _) (exact_beq _)]

theorem foldlM_counts {es : List AuditEvent} (wellFormed : ∀ e ∈ es, e.WellFormed)
    (dated : ∀ e ∈ es, (calendar.dateOf e.timestamp).isSome = true) (stats : Statistics) :
    ∃ stats', es.foldlM (Statistics.add calendar) stats = some stats' ∧
      stats'.totalEvents = stats.totalEvents ∧ stats'.sums = stats.sums.map (· + es.length) ∧
      ∀ group : Group, stats'.countOf group = stats.countOf group + es.countP (group.holds calendar) := by
  induction es generalizing stats with
  | nil => exact ⟨stats, rfl, rfl, by simp, by simp⟩
  | cons e es ih =>
    obtain ⟨first, rest⟩ := List.forall_mem_cons.mp wellFormed
    obtain ⟨day, days⟩ := List.forall_mem_cons.mp dated
    obtain ⟨next, added, total, sums, groups⟩ := add_counts first day stats
    obtain ⟨last, run, total', sums', groups'⟩ := ih rest days next
    refine ⟨last, ?_, total'.trans total, ?_, ?_⟩
    · rw [List.foldlM_cons, added]
      exact run
    · rw [sums', sums, List.map_map, List.length_cons]
      apply List.map_congr_left
      intro n _
      simp only [Function.comp]
      omega
    · intro group
      rw [groups' group, groups group, List.countP_cons]
      omega

/-- An event without a day ends the report. -/
theorem dated_of_foldlM {es : List AuditEvent} {stats stats' : Statistics}
    (run : es.foldlM (Statistics.add calendar) stats = some stats') :
    ∀ e ∈ es, (calendar.dateOf e.timestamp).isSome = true := by
  induction es generalizing stats with
  | nil => simp
  | cons e es ih =>
    rw [List.foldlM_cons] at run
    obtain ⟨next, added, rest⟩ := Option.bind_eq_some_iff.mp run
    refine List.forall_mem_cons.mpr ⟨?_, ih rest⟩
    simp only [Statistics.add, Option.bind_eq_bind, Option.bind_eq_some_iff] at added
    obtain ⟨-, -, -, -, -, -, day, date, -⟩ := added
    simp [date]

theorem withTag_eq {es : List AuditEvent} (wellFormed : ∀ e ∈ es, e.WellFormed) :
    withTag standard es = some (es.filter (hasTag standard)) := by
  induction es with
  | nil => rfl
  | cons e es ih =>
    obtain ⟨first, rest⟩ := List.forall_mem_cons.mp wellFormed
    obtain ⟨tags, tagged⟩ := first.complianceTags
    obtain ⟨found, contains⟩ : ∃ found, containsTag standard e.complianceTags = some found :=
      ⟨_, by rw [tagged]; rfl⟩
    simp only [withTag, ih rest, contains, List.filter_cons, hasTag]
    cases found <;> rfl

theorem toDict_some {es : List AuditEvent} (wellFormed : ∀ e ∈ es, e.WellFormed) :
    ∃ values, es.mapM AuditEvent.toDict = some values := by
  induction es with
  | nil => exact ⟨[], rfl⟩
  | cons e es ih =>
    obtain ⟨first, rest⟩ := List.forall_mem_cons.mp wellFormed
    obtain ⟨t, type⟩ := first.eventType
    obtain ⟨level, severity⟩ := first.severity
    obtain ⟨values, written⟩ := ih rest
    exact ⟨.record (e.fields t) :: values, by simp [List.mapM_cons, AuditEvent.toDict, type, severity, written]⟩

/-! ### The exact condition -/

/-- What the report is about: the events with the tag among the first ten thousand candidates. -/
def reported (env : Env) (draws : Nat → Draw) (standard : String) (period : Period calendar)
    (text : List Char) : List AuditEvent :=
  ((candidates env draws period.filters text).take 10000).filter (hasTag standard)

/-- Reported although they are not in the period. -/
def letIn (env : Env) (draws : Nat → Draw) (standard : String) (period : Period calendar)
    (text : List Char) : List AuditEvent :=
  (reported env draws standard period text).filter fun e => !period.filters.satisfies e

/-- Events of the period with the tag, behind the first ten thousand candidates. -/
def cutOff (env : Env) (draws : Nat → Draw) (standard : String) (period : Period calendar)
    (text : List Char) : List AuditEvent :=
  (((candidates env draws period.filters text).drop 10000).filter period.filters.satisfies).filter
    (hasTag standard)

/-- As many events in all and in every group. -/
structure SameCounts (calendar : Calendar) (es fs : List AuditEvent) : Prop where
  length : es.length = fs.length
  groups : ∀ group : Group, es.countP (group.holds calendar) = fs.countP (group.holds calendar)

theorem countP_concerned (env : Env) (draws : Nat → Draw) (standard : String)
    (period : Period calendar) (text : List Char) (p : AuditEvent → Bool) :
    (concerned env draws standard period text).countP p +
        (letIn env draws standard period text).countP p =
      (reported env draws standard period text).countP p +
        (cutOff env draws standard period text).countP p := by
  have inside : (reported env draws standard period text).filter period.filters.satisfies =
      (((candidates env draws period.filters text).take 10000).filter period.filters.satisfies).filter
        (hasTag standard) := by
    rw [reported, List.filter_filter, List.filter_filter]
    exact List.filter_congr fun e _ => Bool.and_comm _ _
  have split := List.countP_eq_countP_filter_add (reported env draws standard period text) p
    period.filters.satisfies
  rw [inside] at split
  rw [concerned, wanted_eq, wanted_parts (k := 10000), List.filter_append, List.countP_append, split,
    letIn, cutOff]
  omega

theorem length_concerned (env : Env) (draws : Nat → Draw) (standard : String)
    (period : Period calendar) (text : List Char) :
    (concerned env draws standard period text).length + (letIn env draws standard period text).length =
      (reported env draws standard period text).length +
        (cutOff env draws standard period text).length := by
  simpa only [List.countP_true] using countP_concerned env draws standard period text fun _ => true

theorem stored_of_candidate {filters : Filters} {e : AuditEvent}
    (candidate : e ∈ candidates env draws filters text) : e ∈ storedEvents env draws text :=
  (List.mem_filter.mp candidate).1

/-- The report goes through the reported events in some order. -/
theorem getComplianceReport_eq (wellFormed : ∀ e ∈ storedEvents env draws text, AuditEvent.WellFormed e) :
    ∃ found : List AuditEvent, found.Perm (reported env draws standard period text) ∧
      (∀ e ∈ found, e.WellFormed) ∧
      getComplianceReport env draws calendar standard period.startDate period.endDate (some text) = do
        let statistics ← found.foldlM (Statistics.add calendar) { totalEvents := found.length }
        let events ← (found.take 100).mapM AuditEvent.toDict
        return ⟨standard, period.startDate, period.endDate, statistics, events⟩ := by
  have first : ∀ e ∈ (candidates env draws period.filters text).take 10000, e.WellFormed :=
    fun e h => wellFormed e (stored_of_candidate (List.mem_of_mem_take h))
  obtain ⟨sorted, searched, same⟩ := sortNewest_of_times fun e h => (first e h).timestamp
  have here : searchEvents env draws
      { startTime := period.startTime, endTime := period.endTime } 10000 (some text) = some sorted :=
    (searchEvents_eq env draws period.filters 10000 text).trans searched
  have formed : ∀ e ∈ sorted, e.WellFormed := fun e h => first e (same.mem_iff.mp h)
  refine ⟨sorted.filter (hasTag standard), same.filter _, ?_, ?_⟩
  · exact fun e h => formed e (List.mem_filter.mp h).1
  rw [getComplianceReport, period.starts, period.ends, Option.bind_eq_bind, Option.bind_some,
    Option.bind_eq_bind, Option.bind_some, here, Option.bind_eq_bind, Option.bind_some,
    withTag_eq formed]
  rfl

theorem counts_of_sameCounts (wellFormed : ∀ e ∈ storedEvents env draws text, e.WellFormed)
    (dated : ∀ e ∈ reported env draws standard period text, (calendar.dateOf e.timestamp).isSome = true)
    (balanced : SameCounts calendar (letIn env draws standard period text)
      (cutOff env draws standard period text)) :
    CountsEverything env draws standard period text := by
  obtain ⟨found, same, formed, report⟩ := getComplianceReport_eq wellFormed
  obtain ⟨stats, run, total, sums, groups⟩ := foldlM_counts formed
    (fun e h => dated e (same.mem_iff.mp h)) { totalEvents := found.length }
  obtain ⟨values, written⟩ := toDict_some fun e h => formed e (List.mem_of_mem_take h)
  rw [run, written] at report
  have lengths := length_concerned env draws standard period text
  have equal : found.length = (concerned env draws standard period text).length := by
    rw [same.length_eq]
    have := balanced.length
    omega
  refine ⟨_, report, total.trans equal, ?_, ?_⟩
  · intro n member
    rw [sums] at member
    simpa [Statistics.sums, sumOf, equal] using member
  · intro group
    have counts := countP_concerned env draws standard period text (group.holds calendar)
    have none_before : Statistics.countOf { totalEvents := found.length } group = 0 := by
      cases group <;> rfl
    have := balanced.groups group
    rw [groups group, none_before, same.countP_eq]
    omega

theorem sameCounts_of_counts (wellFormed : ∀ e ∈ storedEvents env draws text, e.WellFormed)
    (counts : CountsEverything env draws standard period text) :
    (∀ e ∈ reported env draws standard period text, (calendar.dateOf e.timestamp).isSome = true) ∧
      SameCounts calendar (letIn env draws standard period text)
        (cutOff env draws standard period text) := by
  obtain ⟨found, same, formed, eq⟩ := getComplianceReport_eq wellFormed
  obtain ⟨report, made, truly⟩ := counts
  obtain ⟨stats, run, rest⟩ := Option.bind_eq_some_iff.mp (eq.symm.trans made)
  obtain ⟨values, written, returned⟩ := Option.bind_eq_some_iff.mp rest
  obtain rfl := Option.some.inj returned
  have dated := dated_of_foldlM run
  obtain ⟨stats', run', total, sums, groups⟩ := foldlM_counts formed dated { totalEvents := found.length }
  obtain rfl : stats = stats' := Option.some.inj (run.symm.trans run')
  refine ⟨fun e h => dated e (same.mem_iff.mpr h), ?_, ?_⟩
  · have lengths := length_concerned env draws standard period text
    have counted : found.length = (concerned env draws standard period text).length :=
      total.symm.trans truly.total
    rw [same.length_eq] at counted
    omega
  · intro group
    have counts := countP_concerned env draws standard period text (group.holds calendar)
    have none_before : Statistics.countOf { totalEvents := found.length } group = 0 := by
      cases group <;> rfl
    have := (groups group).symm.trans (truly.groups group)
    rw [none_before, same.countP_eq] at this
    omega

/-- A report counts everything, if and only if every event it looks at has a day and what it wrongly
takes makes up in every group for what it leaves out. -/
theorem countsEverything_iff (wellFormed : ∀ e ∈ storedEvents env draws text, e.WellFormed) :
    CountsEverything env draws standard period text ↔
      (∀ e ∈ reported env draws standard period text,
        (calendar.dateOf e.timestamp).isSome = true) ∧
        SameCounts calendar (letIn env draws standard period text)
          (cutOff env draws standard period text) :=
  ⟨sameCounts_of_counts wellFormed, fun h => counts_of_sameCounts wellFormed h.1 h.2⟩

/-! ### Bounds that are looked at -/

/-- No bound of the period is zero or `nan`. -/
def Period.Bounded (period : Period calendar) : Prop :=
  ∀ bound, period.startTime = some bound ∨ period.endTime = some bound →
    (Value.float bound).truthy = true ∧ bound.extended.isSome = true

theorem within_of_passes {filters : Filters} {e : AuditEvent} (passes : filters.passes e = some true) :
    filters.tooEarly e = some false ∧ filters.tooLate e = some false := by
  unfold Filters.passes at passes
  split at passes
  · cases passes
  · obtain ⟨early, begun, passes⟩ := Option.bind_eq_some_iff.mp passes
    cases early with
    | true => cases passes
    | false =>
      obtain ⟨late, ended, passes⟩ := Option.bind_eq_some_iff.mp passes
      cases late with
      | true => cases passes
      | false => exact ⟨begun, ended⟩

theorem satisfies_of_passes {e : AuditEvent} (bounded : period.Bounded)
    (number : e.timestamp.extended.isSome = true) (passes : period.filters.passes e = some true) :
    period.filters.satisfies e = true := by
  obtain ⟨early, late⟩ := within_of_passes passes
  have begun : period.filters.startTime.all
      (fun start => numberLe start.extended e.timestamp.extended) = true := by
    unfold Filters.tooEarly at early
    cases given : period.filters.startTime with
    | none => rfl
    | some start =>
      obtain ⟨truthy, place⟩ := bounded start (.inl given)
      simp only [given, truthy, if_true] at early
      exact le_of_not_lt_float number place early
  have not_over : period.filters.endTime.all
      (fun finish => numberLe e.timestamp.extended finish.extended) = true := by
    unfold Filters.tooLate at late
    cases given : period.filters.endTime with
    | none => rfl
    | some finish =>
      obtain ⟨truthy, place⟩ := bounded finish (.inr given)
      simp only [given, truthy, if_true] at late
      exact ge_of_not_float_lt number place late
  simp only [Filters.satisfies, begun, not_over]
  rfl

/-- Then nothing is wrongly taken. -/
theorem letIn_eq_nil (bounded : period.Bounded)
    (numbers : ∀ e ∈ storedEvents env draws text, e.timestamp.extended.isSome = true) :
    letIn env draws standard period text = [] := by
  rw [letIn, List.filter_eq_nil_iff]
  intro e member
  have candidate := List.mem_of_mem_take (List.mem_filter.mp member).1
  have passes : period.filters.passes e = some true := by
    simpa using (List.mem_filter.mp candidate).2
  simp [satisfies_of_passes bounded (numbers e (stored_of_candidate candidate)) passes]

/-- With such bounds, a report counts everything where none of its events stands behind the first ten
thousand of the period. -/
theorem counts_iff_of_bounded (wellFormed : ∀ e ∈ storedEvents env draws text, e.WellFormed)
    (bounded : period.Bounded)
    (days : ∀ e ∈ storedEvents env draws text,
      e.timestamp.extended.isSome = true ∧ (calendar.dateOf e.timestamp).isSome = true) :
    CountsEverything env draws standard period text ↔ cutOff env draws standard period text = [] := by
  have nothing : letIn env draws standard period text = [] :=
    letIn_eq_nil bounded fun e h => (days e h).1
  constructor
  · intro counts
    have lengths := (sameCounts_of_counts wellFormed counts).2.length
    rw [nothing] at lengths
    exact List.length_eq_zero_iff.mp lengths.symm
  · intro complete
    refine counts_of_sameCounts wellFormed ?_ ?_
    · intro e member
      have candidate := List.mem_of_mem_take (List.mem_filter.mp member).1
      exact (days e (stored_of_candidate candidate)).2
    · rw [nothing, complete]
      exact ⟨rfl, fun _ => rfl⟩

/-! ### Many logins -/

def login : AuditEvent :=
  (sampleArgs "a" .userLogin).written .none
    ((((sampleArgs "a" .userLogin).tagged .none).calculateHash sampleEnv).getD "")

def logins (n : Nat) : List Char := logText (List.replicate n login)

theorem login_sealed : login.Sealed sampleEnv := by
  obtain ⟨hash, calculated⟩ := Option.isSome_iff_exists.mp
    ((sampleArgs "a" .userLogin).calculateHash_isSome .none sampleEnv)
  rw [login, calculated]
  exact EventArgs.written_sealed (.inl rfl) calculated

theorem storedEvents_logins (draws : Nat → Draw) (n : Nat) :
    storedEvents sampleEnv draws (logins n) = List.replicate n login := by
  rw [logins, storedEvents_logText, List.map_replicate]
  · rw [login, JsonArgs.image_written _ _ _ rfl]
  · exact fun e h => (List.mem_replicate.mp h).2 ▸ login_sealed

theorem logins_wellFormed (n : Nat) :
    ∀ e ∈ storedEvents sampleEnv draws (logins n), e.WellFormed := by
  intro e member
  rw [storedEvents_logins] at member
  rw [(List.mem_replicate.mp member).2]
  exact ⟨⟨_, rfl⟩, ⟨_, rfl⟩, ⟨.medium, rfl⟩, ⟨_, rfl⟩, ⟨["GDPR"], rfl⟩⟩

/-- The day on which the logins were. -/
def firstDay : Calendar := ⟨fun _ => none, fun _ => some "1970-01-01"⟩

def allTime : Period firstDay := ⟨none, none, none, none, rfl, rfl⟩

theorem logins_counted_iff :
    CountsEverything sampleEnv (fun _ => ⟨"", .nan⟩) "GDPR" allTime (logins 2) ↔
      (∀ e ∈ reported sampleEnv (fun _ => ⟨"", .nan⟩) "GDPR" allTime (logins 2),
        (firstDay.dateOf e.timestamp).isSome = true) ∧
        SameCounts firstDay (letIn sampleEnv (fun _ => ⟨"", .nan⟩) "GDPR" allTime (logins 2))
          (cutOff sampleEnv (fun _ => ⟨"", .nan⟩) "GDPR" allTime (logins 2)) :=
  countsEverything_iff (logins_wellFormed 2)

theorem cutOff_logins (n : Nat) :
    cutOff sampleEnv draws "GDPR" allTime (logins n) = List.replicate (n - 10000) login := by
  have found : candidates sampleEnv draws allTime.filters (logins n) = List.replicate n login := by
    have stored := storedEvents_logins draws n
    unfold storedEvents at stored
    rw [candidates, selected, stored, List.filter_replicate]
    rfl
  rw [cutOff, found, List.drop_replicate, List.filter_replicate_of_pos rfl,
    List.filter_replicate_of_pos rfl]

/-- The login behind ten thousand others is not counted. -/
theorem last_login_uncounted : ¬∀ (env : Env) (draws : Nat → Draw) (calendar : Calendar)
    (standard : String) (period : Period calendar) (text : List Char),
    (∀ e ∈ storedEvents env draws text, e.WellFormed) →
      CountsEverything env draws standard period text := by
  intro counts
  have here := counts sampleEnv (fun _ => ⟨"", .nan⟩) firstDay "GDPR" allTime _
    (logins_wellFormed 10001)
  have lengths := (sameCounts_of_counts (logins_wellFormed 10001) here).2.length
  rw [cutOff_logins, letIn_eq_nil, List.length_replicate] at lengths
  · cases lengths
  · rintro bound (start | finish)
    · cases start
    · cases finish
  · intro e member
    rw [storedEvents_logins] at member
    rw [(List.mem_replicate.mp member).2]
    rfl

end BtApiSecurity.Audit
