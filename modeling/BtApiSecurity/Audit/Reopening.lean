import BtApiSecurity.Audit.Limits

/-!
# Reopening a log

A new logger reads the last line of the file, the verifier reads all lines and
skips the blank ones. They agree on the last hash where the last line carries it.
-/

namespace BtApiSecurity.Audit
open Py

variable {κ : Type} {env : Env} {draws : Nat → Draw} {draw : Draw} {text line : List Char}
  {limits opening verifying : Limits} {foreign : List Char → Foreign} {before : Option Value} {hash : String}

/-- A logger can be opened on the file, and where the verifier accepts the file it knows the last
hash that the verifier reports. -/
def Resumes (κ : Type) (env : Env) (draws : Nat → Draw) (opening verifying : Limits)
    (foreign : List Char → Foreign) (text : List Char) (enableRealTime : Bool) : Prop :=
  ∃ logger : AuditLogger κ, openLoggerWithin opening foreign (some text) enableRealTime = some logger ∧
    ((verifyLogIntegrityWithin verifying foreign env draws (some text)).status = .verified →
      (verifyLogIntegrityWithin verifying foreign env draws (some text)).lastHash = some logger.lastHash)

/-! ### What the text says -/

/-- The last line is blank, or it is no JSON, or it holds an object. -/
def EndsInObject (limits : Limits) (text : List Char) : Prop :=
  ∀ line, (fileLines text).getLast? = some line → stripChars line ≠ [] →
    loading limits (stripChars line) = .decodeError ∨
      (loading limits (stripChars line)).isObject = true

def AllBlank (text : List Char) : Prop := ∀ line ∈ fileLines text, stripChars line = []

/-- The line is an object with an `event_hash` that is not false. -/
def carriesHash (limits : Limits) (foreign : List Char → Foreign) (line : List Char) : Bool :=
  match loading limits line with
  | .foreign true => (foreign line).eventHash.truthy
  | _ => !lacksHash line

/-- The last line is not blank and carries a hash. -/
def EndsInHash (limits : Limits) (foreign : List Char → Foreign) (text : List Char) : Prop :=
  ∃ line, (fileLines text).getLast? = some line ∧ stripChars line ≠ [] ∧
    carriesHash limits foreign (stripChars line) = true

/-! ### The last line -/

theorem loadLastHashWithin_isSome_iff (foreign : List Char → Foreign) :
    (loadLastHashWithin limits foreign (some text)).isSome = true ↔ EndsInObject limits text := by
  unfold loadLastHashWithin EndsInObject
  cases last : (fileLines text).getLast? with
  | none => simp [last]
  | some line =>
    by_cases blank : stripChars line = []
    · simp [last, blank]
    · cases read : loading limits (stripChars line) with
      | value v => cases v <;> simp [last, blank, read, Loading.isObject]
      | foreign object => cases object <;> simp [last, blank, read, Loading.isObject]
      | decodeError | otherError => simp [last, blank, read, Loading.isObject]

theorem loadLastHashWithin_of_blank (limits : Limits) (foreign : List Char → Foreign)
    (blank : ∀ line, (fileLines text).getLast? = some line → stripChars line = []) :
    loadLastHashWithin limits foreign (some text) = some .none := by
  cases last : (fileLines text).getLast? with
  | none => simp [loadLastHashWithin, last]
  | some line => simp [loadLastHashWithin, last, blank line last]

theorem load_native (foreign : List Char → Foreign) {items : List (Key × Value)}
    (loaded : loads (stripChars line) = some (.dict items)) (last : (fileLines text).getLast? = some line)
    (solid : stripChars line ≠ []) (object : EndsInObject limits text) :
    loadLastHashWithin limits foreign (some text) = some ((storedHash (stripChars line)).getD .none) ∧
      carriesHash limits foreign (stripChars line) = !lacksHash (stripChars line) := by
  have within : exceeds limits (stripChars line) = false := by
    apply exceeds_of_loading
    intro stopped
    rcases object line last solid with failed | kind
    · cases failed.symm.trans stopped
    · rw [stopped] at kind
      cases kind
  have ends := loading_of_loads loaded within
  have stored : storedHash (stripChars line) = find (.str "event_hash") items := by
    simp [storedHash, storedField, loaded]
  constructor
  · simp [loadLastHashWithin, last, solid, ends, stored]
  · simp [carriesHash, ends]

theorem load_foreign (foreign : List Char → Foreign) (nothing : loads (stripChars line) = none)
    (last : (fileLines text).getLast? = some line) (solid : stripChars line ≠ [])
    (object : EndsInObject limits text) :
    (loadLastHashWithin limits foreign (some text) = some .none ∧
        carriesHash limits foreign (stripChars line) = false) ∨
      loadLastHashWithin limits foreign (some text) = some (foreign (stripChars line)).eventHash ∧
        carriesHash limits foreign (stripChars line) = (foreign (stripChars line)).eventHash.truthy := by
  rcases object line last solid with failed | kind
  · left
    constructor
    · simp [loadLastHashWithin, last, solid, failed]
    · simp [carriesHash, failed, lacksHash, storedHash, storedField, nothing, Value.truthy]
  · right
    have ends : loading limits (stripChars line) = .foreign true := by
      cases found : loading limits (stripChars line) with
      | value v => cases nothing.symm.trans (loads_of_loading found)
      | foreign object => simpa [found, Loading.isObject] using kind
      | decodeError | otherError =>
        rw [found] at kind
        cases kind
    constructor
    · simp [loadLastHashWithin, last, solid, ends]
    · simp [carriesHash, ends]

/-- Of a line that holds an event its hash is loaded, exactly if the line carries it. -/
theorem loadLastHashWithin_holds_iff (holds : Holds verifying foreign env draw before (stripChars line) hash)
    (last : (fileLines text).getLast? = some line) (solid : stripChars line ≠ [])
    (object : EndsInObject opening text) :
    loadLastHashWithin opening foreign (some text) = some (.str hash) ↔
      carriesHash opening foreign (stripChars line) = true := by
  have truthy : (Value.str hash).truthy = true := by simpa [Value.truthy] using holds.hash_ne
  cases holds with
  | native e within read calculated filled linked =>
    obtain ⟨v, loaded, built⟩ := Option.bind_eq_some_iff.mp read
    cases v with
    | dict items =>
      obtain ⟨loads, carries⟩ := load_native foreign loaded last solid object
      rw [loads, carries, Option.some.injEq]
      constructor
      · intro same
        simp [lacksHash, same, truthy]
      · intro present
        rw [filledHash, if_neg (by simpa using present)] at filled
        rw [filled]
        rfl
    | _ => cases built
  | foreign e ends read calculated filled linked =>
    rcases load_foreign foreign (loads_of_foreign ends) last solid object with
      ⟨loads, carries⟩ | ⟨loads, carries⟩
    · simp [loads, carries]
    · rw [loads, carries, Option.some.injEq]
      constructor
      · intro same
        rw [same, truthy]
      · intro present
        rwa [Foreign.filledHash, if_pos present] at filled

/-! ### Agreement of the two readers -/

/-- In a chained file with an event the two readers agree exactly where the file ends in a hash. -/
theorem last_agrees_iff (chain : ChainedWithin verifying foreign env draws none 1 (fileLines text))
    (solid : ¬AllBlank text) (object : EndsInObject opening text) :
    loadLastHashWithin opening foreign (some text) =
        (verifyLogIntegrityWithin verifying foreign env draws (some text)).lastHash ↔
      EndsInHash opening foreign text := by
  unfold AllBlank at solid
  push Not at solid
  obtain ⟨hash, reached, -, held⟩ := Scan.exists_last {} isHash_none rfl chain solid
  have reported : (verifyLogIntegrityWithin verifying foreign env draws (some text)).lastHash =
      some (.str hash) := congrArg some reached
  rw [reported]
  by_cases ends : ∃ line, (fileLines text).getLast? = some line ∧ stripChars line ≠ []
  · obtain ⟨line, last, there⟩ := ends
    obtain ⟨draw, before, holds⟩ := held line last there
    rw [loadLastHashWithin_holds_iff holds last there object]
    constructor
    · intro carries
      exact ⟨line, last, there, carries⟩
    · rintro ⟨line', last', -, carries⟩
      rw [last, Option.some.injEq] at last'
      exact last' ▸ carries
  · push Not at ends
    rw [loadLastHashWithin_of_blank opening foreign ends]
    refine iff_of_false (by simp) ?_
    rintro ⟨line, last, there, -⟩
    exact there (ends line last)

/-- A new logger resumes the chain, if and only if the last line is blank, no JSON or an object, and
the last line of a chained log that has events carries a hash. -/
theorem resumes_iff (env : Env) (draws : Nat → Draw) (opening verifying : Limits)
    (foreign : List Char → Foreign) (text : List Char) (enableRealTime : Bool) :
    Resumes κ env draws opening verifying foreign text enableRealTime ↔
      EndsInObject opening text ∧
        (ChainedWithin verifying foreign env draws none 1 (fileLines text) →
          AllBlank text ∨ EndsInHash opening foreign text) := by
  have opens : Resumes κ env draws opening verifying foreign text enableRealTime ↔
      EndsInObject opening text ∧
        ∀ lastHash, loadLastHashWithin opening foreign (some text) = some lastHash →
          (verifyLogIntegrityWithin verifying foreign env draws (some text)).status = .verified →
            (verifyLogIntegrityWithin verifying foreign env draws (some text)).lastHash = some lastHash := by
    rw [← loadLastHashWithin_isSome_iff foreign, Resumes, openLoggerWithin]
    cases loadLastHashWithin opening foreign (some text) with
    | none => simp
    | some lastHash => simp
  rw [opens]
  refine and_congr_right fun object => ?_
  obtain ⟨lastHash, loaded⟩ := Option.isSome_iff_exists.mp
    ((loadLastHashWithin_isSome_iff foreign).mpr object)
  simp only [loaded, Option.some.injEq, forall_eq']
  rw [verifiedWithin_iff]
  refine imp_congr_right fun chain => ?_
  by_cases blank : AllBlank text
  · have nothing := loadLastHashWithin_of_blank opening foreign
      fun line last => blank line (List.mem_of_getLast? last)
    have reported : (verifyLogIntegrityWithin verifying foreign env draws (some text)).lastHash =
        some .none := by
      rw [verifyLogIntegrityWithin, Scan.linesWithin_blank blank]
    rw [reported, ← loaded, nothing]
    exact iff_of_true rfl (.inl blank)
  · rw [← last_agrees_iff chain blank object, loaded, eq_comm]
    exact (or_iff_right blank).symm

/-- A line with a number. -/
def numberLine : List Char := ['1']

theorem numberLine_not_resumed : ¬∀ (env : Env) (draws : Nat → Draw) (opening verifying : Limits)
    (foreign : List Char → Foreign) (text : List Char),
    Resumes Nat env draws opening verifying foreign text true := by
  intro resumes
  obtain ⟨logger, opened, -⟩ := resumes sampleEnv (fun _ => ⟨"", .nan⟩) ⟨4300, 900⟩ ⟨4300, 900⟩
    (fun _ => ⟨.none, none⟩) numberLine
  obtain ⟨lastHash, loaded, -⟩ := Option.map_eq_some_iff.mp opened
  have raises : loadLastHashWithin ⟨4300, 900⟩ (fun _ => ⟨.none, none⟩) (some numberLine) = none := by rfl
  cases raises.symm.trans loaded

end BtApiSecurity.Audit
