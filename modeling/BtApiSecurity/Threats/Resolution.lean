import BtApiSecurity.Threats.Steps
import Mathlib.Data.List.Induction
import Mathlib.Data.List.Nodup

/-!
# Resolving a threat

The id of an event is its type and the second of the call. A threat can be resolved by
its id as long as no other event of the type was stored in the same second.
-/

namespace BtApiSecurity.Threats.ThreatDetector
open Py Machine

variable {env : Env} {s t : ThreatDetector}

/-! ### What resolving should do -/

def inWindow (now : Time) (timeWindow : Int) (threat : ThreatEvent) : Prop :=
  now - timeWindow ≤ threat.timestamp

instance (now : Time) (timeWindow : Int) (threat : ThreatEvent) : Decidable (inWindow now timeWindow threat) :=
  inferInstanceAs (Decidable (_ ≤ _))

/-- Between the summaries of `s` and `t` the threat was counted as resolved. -/
def DropsBy (threat : ThreatEvent) (s t : ThreatDetector) : Prop :=
  ∀ clock timeWindow, ∃ summary summary',
    (getThreatSummary clock timeWindow).run s = (.ok summary, s) ∧
      (getThreatSummary clock timeWindow).run t = (.ok summary', t) ∧
      summary.unresolved = summary'.unresolved +
        if inWindow (clock 0) timeWindow threat ∧ threat.resolved = false then 1 else 0

/-- Every stored event has an id of its own, which marks this event and no other. -/
structure Resolvable (s : ThreatDetector) : Prop where
  distinct : (ids s).Nodup
  marks : ∀ before threat after clock note, s.threatEvents = before ++ threat :: after →
    (resolveThreat clock threat.eventId note).run s =
      (.ok true, { s with threatEvents := before ++ resolvedAt (clock 0) note threat :: after })
  drops : ∀ before threat after clock note, s.threatEvents = before ++ threat :: after →
    DropsBy threat s ((resolveThreat clock threat.eventId note).run s).2

/-! ### Detections in one second -/

/-- What the calls of a run found, with the second of each call. -/
def detections (env : Env) (history : List Event) : List (ThreatType × Int) :=
  history.filterMap fun e => (found env e.pre e.input).map fun kind => (kind, truncate e.input.now)

def idText (detection : ThreatType × Int) : String := idPrefix detection.1 ++ intText detection.2

theorem ids_run (env : Env) (thresholds : Dict String Rat) (is : List Input) :
    ids (run (step env) (new thresholds) is) =
      (detections env (trace (step env) (new thresholds) is)).map idText := by
  induction is using List.reverseRecOn with
  | nil => rfl
  | append_singleton is i ih =>
    rw [run_append, trace_append, run_cons, run_nil, ids_step, ih, detections, detections,
      List.filterMap_append, List.map_append]
    congr 1
    rw [trace, trace, List.filterMap_cons, List.filterMap_nil]
    simp only [entry]
    cases found env (run (step env) (new thresholds) is) i with
    | none => rfl
    | some kind => rfl

/-- The types that a detection stores. -/
def producedTypes : List ThreatType :=
  [.bruteForce, .anomalousTraffic, .unauthorizedAccess, .suspiciousLogin, .dataExfiltration]

theorem produced_of_found {i : Input} {kind : ThreatType} (finds : found env s i = some kind) :
    kind ∈ producedTypes := by
  obtain ⟨clock, call⟩ := i
  cases call with
  | detectFailedLogin | detectSuspiciousAccessPattern | analyzeLoginAnomaly =>
    simp only [found, Option.bind_eq_some_iff, Option.ite_none_right_eq_some] at finds
    obtain ⟨_, -, -, is_kind⟩ := finds
    cases is_kind
    decide
  | detectUnauthorizedAccessAttempt =>
    obtain ⟨_, -, rfl⟩ := Option.map_eq_some_iff.mp finds
    decide
  | detectDataExfiltration =>
    simp only [found, Option.ite_none_right_eq_some] at finds
    obtain ⟨-, is_kind⟩ := finds
    cases is_kind
    decide
  | getThreatSummary | resolveThreat => cases finds

theorem mem_detections {history : List Event} {detection : ThreatType × Int}
    (member : detection ∈ detections env history) : detection.1 ∈ producedTypes := by
  obtain ⟨e, -, finds⟩ := List.mem_filterMap.mp member
  obtain ⟨kind, kind_found, rfl⟩ := Option.map_eq_some_iff.mp finds
  exact produced_of_found kind_found

theorem initial_injective : ∀ kind ∈ producedTypes, ∀ kind' ∈ producedTypes,
    (idPrefix kind).toList.head? = (idPrefix kind').toList.head? → kind = kind' := by
  decide +kernel

theorem idPrefix_ne_nil : ∀ kind ∈ producedTypes, (idPrefix kind).toList ≠ [] := by
  decide +kernel

theorem idText_injective {d d' : ThreatType × Int} (produced : d.1 ∈ producedTypes)
    (produced' : d'.1 ∈ producedTypes) (same : idText d = idText d') : d = d' := by
  have lists := congrArg String.toList same
  rw [idText, idText, String.toList_append, String.toList_append] at lists
  have kinds : d.1 = d'.1 := by
    apply initial_injective d.1 produced d'.1 produced'
    rw [← List.head?_append_of_ne_nil _ (idPrefix_ne_nil d.1 produced), lists,
      List.head?_append_of_ne_nil _ (idPrefix_ne_nil d'.1 produced')]
  rw [kinds] at lists
  exact Prod.ext kinds (intText_injective (String.toList_inj.mp (List.append_cancel_left lists)))

theorem nodup_ids_iff (env : Env) (thresholds : Dict String Rat) (is : List Input) :
    (ids (run (step env) (new thresholds) is)).Nodup ↔
      (detections env (trace (step env) (new thresholds) is)).Nodup := by
  rw [ids_run]
  constructor
  · exact List.Nodup.of_map idText
  · intro spaced
    apply spaced.map_on
    intro d member d' member' same
    exact idText_injective (mem_detections member) (mem_detections member') same

/-! ### What resolving does -/

theorem run_resolveThreat (distinct : (ids s).Nodup) {before after : List ThreatEvent}
    {threat : ThreatEvent} (clock : Clock) (note : String)
    (split : s.threatEvents = before ++ threat :: after) :
    (resolveThreat clock threat.eventId note).run s =
      (.ok true, { s with threatEvents := before ++ resolvedAt (clock 0) note threat :: after }) := by
  rw [ids, split] at distinct
  have mark : markThreat (resolvedAt (clock 0) note) threat.eventId s.threatEvents =
      some (before ++ resolvedAt (clock 0) note threat :: after) := by
    rw [split]
    exact markFirst_of_first (key_ne_of_distinct distinct)
  simp only [resolveThreat, Method.run_bind, Method.run_read, mark]
  rfl

/-- How many events a summary counts as unresolved. -/
def unresolvedIn (now : Time) (timeWindow : Int) (threats : List ThreatEvent) : Nat :=
  ((threats.filter fun threat => now - timeWindow ≤ threat.timestamp).filter
    fun threat => !threat.resolved).length

theorem unresolvedIn_split (now : Time) (timeWindow : Int) (before : List ThreatEvent)
    (threat : ThreatEvent) (after : List ThreatEvent) :
    unresolvedIn now timeWindow (before ++ threat :: after) =
      unresolvedIn now timeWindow before + unresolvedIn now timeWindow after +
        if inWindow now timeWindow threat ∧ threat.resolved = false then 1 else 0 := by
  simp only [unresolvedIn, List.filter_append, List.length_append, List.filter_cons, inWindow]
  by_cases inside : now - timeWindow ≤ threat.timestamp
  · cases resolved : threat.resolved with
    | true => simp [inside, resolved]
    | false =>
      simp only [inside, resolved, decide_true, if_true, List.filter_cons, Bool.not_false,
        List.length_cons, true_and]
      omega
  · simp [inside]

theorem dropsBy_marked (clock : Clock) (note : String) {before after : List ThreatEvent}
    {threat : ThreatEvent} (split : s.threatEvents = before ++ threat :: after) :
    DropsBy threat s
      { s with threatEvents := before ++ resolvedAt (clock 0) note threat :: after } := by
  intro clock' timeWindow
  refine ⟨_, _, rfl, rfl, ?_⟩
  have earlier := unresolvedIn_split (clock' 0) timeWindow before threat after
  have later := unresolvedIn_split (clock' 0) timeWindow before (resolvedAt (clock 0) note threat) after
  rw [← split] at earlier
  refine earlier.trans ?_
  rw [if_neg (fun counted => Bool.noConfusion counted.2)] at later
  exact congrArg (· + _) later.symm

/-- After a run every event can be resolved, if and only if no two detections of one type fell into
one second. -/
theorem resolvable_iff (env : Env) (thresholds : Dict String Rat) (is : List Input) :
    Resolvable (run (step env) (new thresholds) is) ↔
      (detections env (trace (step env) (new thresholds) is)).Nodup := by
  rw [← nodup_ids_iff]
  constructor
  · intro resolvable
    exact resolvable.distinct
  · intro distinct
    refine ⟨distinct, ?_, ?_⟩
    · intro before threat after clock note split
      exact run_resolveThreat distinct clock note split
    · intro before threat after clock note split
      rw [run_resolveThreat distinct clock note split]
      exact dropsBy_marked clock note split

def attemptAt (t : Time) (userId : String) : Input :=
  ⟨fun _ => t, .detectUnauthorizedAccessAttempt userId "admin" "10.0.0.1" none⟩

/-- Two users are refused within half a second. -/
theorem burst_not_resolvable : ¬∀ (env : Env) (thresholds : Dict String Rat) (is : List Input),
    Resolvable (run (step env) (new thresholds) is) := by
  intro holds
  have distinct := (holds ⟨fun _ => none⟩ defaultThresholds
    [attemptAt 5000 "ann", attemptAt (10001 / 2) "bob"]).distinct
  revert distinct
  decide +kernel

end BtApiSecurity.Threats.ThreatDetector
