import BtApiSecurity.Data.Masking
import BtApiSecurity.Data.Patterns

/-!
# Anonymisation

Each string at the top level of a dictionary is replaced by a form that the last
pattern found in it gives. Nothing is done to the strings further down, and the pattern
of IP addresses gives no form.
-/

namespace BtApiSecurity.Data
open Py

def anonymizeLocal (local_ : List Char) : List Char :=
  if local_.length ≤ 2 then stars 2
  else local_.take 1 ++ stars (local_.length - 2) ++ local_.drop (local_.length - 1)

def anonymizeEmail (email : List Char) : List Char :=
  if '@' ∈ email then anonymizeLocal (splitAt1 email).1 ++ '@' :: (splitAt1 email).2
  else "*****@*****.com".toList

/-- `value[-4:]`. -/
def lastFour (value : List Char) : List Char := value.drop (value.length - 4)

/-- What takes the place of a value in which the pattern is found. -/
def replacement (value : List Char) : PatternName → Option (List Char)
  | .email => some (anonymizeEmail value)
  | .phone => some ("***-***-".toList ++ lastFour value)
  | .creditCard => some ("****-****-****-".toList ++ lastFour value)
  | .ssn => some ("***-**-".toList ++ lastFour value)
  | .ipAddress => none

variable (classes : CharClasses)

/-- One turn of the loop over the patterns. -/
def applyPattern (fieldName : String) (value : List Char) (anonymized : Dict String Value)
    (name : PatternName) : Dict String Value :=
  if finds classes name value then
    match replacement value name with
    | some t => anonymized.set fieldName (.str (String.ofList t))
    | none => anonymized
  else anonymized

def anonymizeField (anonymized : Dict String Value) (field : String × Value) : Dict String Value :=
  match field.2 with
  | .str s => patternNames.foldl (applyPattern classes field.1 s.toList) anonymized
  | _ => anonymized

/-- In its turn each field still has the value of the caller. -/
def anonymizeData (data : Dict String Value) : Dict String Value :=
  data.entries.foldl (anonymizeField classes) data

/-! ### What anonymisation should do -/

def StringAt (data : Dict String Value) (fieldName : String) (path : List Place) (s : String) : Prop :=
  (data.get? fieldName).bind (Value.at path) = some (.str s)

/-- A string stays a string, and no match in it is left over. -/
def Anonymizes (data : Dict String Value) : Prop :=
  ∀ fieldName path s, StringAt data fieldName path s →
    ∃ t, StringAt (anonymizeData classes data) fieldName path t ∧
      ∀ name m, Identifies classes name m s.toList → ¬m <:+: t.toList

/-! ### Field by field -/

variable {classes}

/-- The last pattern found in the value decides. -/
def anonymizedChars (classes : CharClasses) (value : List Char) : List Char :=
  if finds classes .creditCard value then "****-****-****-".toList ++ lastFour value
  else if finds classes .ssn value then "***-**-".toList ++ lastFour value
  else if finds classes .phone value then "***-***-".toList ++ lastFour value
  else if finds classes .email value then anonymizeEmail value
  else value

def anonymizedValue (classes : CharClasses) : Value → Value
  | .str s => .str (String.ofList (anonymizedChars classes s.toList))
  | v => v

/-- What the patterns make of a value whose field holds `t` before them. -/
def afterPatterns (classes : CharClasses) (value : List Char) (names : List PatternName) (t : List Char) :
    List Char :=
  names.foldl (fun t name => if finds classes name value then (replacement value name).getD t else t) t

theorem afterPatterns_patternNames (value : List Char) :
    afterPatterns classes value patternNames value = anonymizedChars classes value := by
  simp only [afterPatterns, patternNames, List.foldl_cons, List.foldl_nil, replacement, Option.getD_some,
    Option.getD_none, ite_self, anonymizedChars]

variable {anonymized data : Dict String Value} {fieldName : String} {done rest : List (String × Value)}

theorem entries_applyPattern {value t : List Char} {name : PatternName}
    (split : anonymized.entries = done ++ (fieldName, .str (String.ofList t)) :: rest) :
    (applyPattern classes fieldName value anonymized name).entries =
      done ++ (fieldName, .str (String.ofList (afterPatterns classes value [name] t))) :: rest := by
  simp only [applyPattern, afterPatterns, List.foldl_cons, List.foldl_nil]
  split
  · cases replacement value name with
    | some u => exact Dict.entries_set_of_split _ split
    | none => exact split
  · exact split

theorem entries_applyPatterns {value t : List Char} {names : List PatternName}
    (split : anonymized.entries = done ++ (fieldName, .str (String.ofList t)) :: rest) :
    (names.foldl (applyPattern classes fieldName value) anonymized).entries =
      done ++ (fieldName, .str (String.ofList (afterPatterns classes value names t))) :: rest := by
  induction names generalizing anonymized t with
  | nil => exact split
  | cons name names ih =>
    rw [List.foldl_cons]
    exact ih (entries_applyPattern split)

theorem entries_anonymizeField (classes : CharClasses) {v : Value}
    (split : anonymized.entries = done ++ (fieldName, v) :: rest) :
    (anonymizeField classes anonymized (fieldName, v)).entries =
      done ++ (fieldName, anonymizedValue classes v) :: rest := by
  cases v with
  | str s =>
    rw [← String.ofList_toList (s := s)] at split
    rw [anonymizedValue, ← afterPatterns_patternNames]
    exact entries_applyPatterns split
  | _ => exact split

/-- The loop over the fields, from where it has come. -/
theorem entries_anonymizeFields (split : anonymized.entries = done ++ rest) :
    (rest.foldl (anonymizeField classes) anonymized).entries =
      done ++ rest.map fun field => (field.1, anonymizedValue classes field.2) := by
  induction rest generalizing anonymized done with
  | nil => exact split
  | cons field rest ih =>
    have turn := entries_anonymizeField classes split
    rw [List.append_cons] at turn
    rw [List.foldl_cons, ih turn, List.append_assoc]
    rfl

/-- Each field is anonymised by itself. -/
theorem anonymizeData_eq : anonymizeData classes data = data.map (anonymizedValue classes) :=
  Dict.ext_entries (entries_anonymizeFields (List.nil_append _).symm)

/-! ### What is left of a match -/

variable {value m : List Char} {name : PatternName}

/-- The value from the last character in front of the first `@` on, or from the `@` on where at
most two characters stand before it. -/
def shown (value : List Char) : List Char :=
  let local_ := (splitAt1 value).1
  if local_.length ≤ 2 then value.drop local_.length else value.drop (local_.length - 1)

theorem splitAt1_whole (address : '@' ∈ value) : value = (splitAt1 value).1 ++ '@' :: (splitAt1 value).2 := by
  obtain ⟨local_, domain, rfl, absent⟩ := List.eq_append_cons_of_mem address
  rw [splitAt1_append absent]

theorem anonymizeEmail_shown (address : '@' ∈ value) : ∃ front n, 0 < n ∧ front.length ≤ 1 ∧
    anonymizeEmail value = front ++ (stars n ++ shown value) := by
  have whole := splitAt1_whole address
  rw [anonymizeEmail, if_pos address, anonymizeLocal, shown]
  generalize (splitAt1 value).1 = local_ at whole ⊢
  generalize (splitAt1 value).2 = domain at whole ⊢
  subst whole
  by_cases short : local_.length ≤ 2
  · refine ⟨[], 2, Nat.two_pos, Nat.zero_le _, ?_⟩
    simp only [if_pos short, List.drop_left, List.nil_append]
  · refine ⟨local_.take 1, local_.length - 2, by omega, List.length_take_le 1 local_, ?_⟩
    have tail : (local_ ++ '@' :: domain).drop (local_.length - 1) =
        local_.drop (local_.length - 1) ++ '@' :: domain :=
      List.drop_append_of_le_length (Nat.sub_le local_.length 1)
    simp only [if_neg short, tail, List.append_assoc]

/-- Behind the asterisks a match is in what follows them. -/
theorem Identifies.infix_of_stars (identifies : Identifies classes name m value) (front : List Char)
    (n : Nat) {rest : List Char} (positive : 0 < n) (short : front.length ≤ 5)
    (inside : m <:+: front ++ (stars n ++ rest)) : m <:+: rest := by
  have long := identifies.six_le
  rcases infix_of_append_replicate positive identifies.no_star inside with early | late
  · have fits := early.length_le
    omega
  · exact late

theorem length_lastFour (value : List Char) : (lastFour value).length ≤ 4 := by
  rw [lastFour, List.length_drop]
  omega

/-- A replacement that keeps only the last four characters has no match in it. -/
theorem Identifies.not_infix_groups (identifies : Identifies classes name m value) {a b : Nat}
    (first : 0 < a) (second : 0 < b) :
    ¬m <:+: stars a ++ (['-'] ++ (stars b ++ '-' :: lastFour value)) := by
  intro inside
  have behind := identifies.infix_of_stars ['-'] b second (by simp)
    (identifies.infix_of_stars [] a first (by simp) inside)
  have fits := behind.length_le
  have long := identifies.six_le
  have small := length_lastFour value
  rw [List.length_cons] at fits
  omega

theorem Identifies.not_infix_creditCard (identifies : Identifies classes name m value) :
    ¬m <:+: "****-****-****-".toList ++ lastFour value := by
  intro inside
  have behind : m <:+: ['-'] ++ (stars 4 ++ (['-'] ++ (stars 4 ++ '-' :: lastFour value))) :=
    identifies.infix_of_stars [] 4 (by omega) (by simp) inside
  have groups : m <:+: ['-'] ++ (stars 4 ++ '-' :: lastFour value) :=
    identifies.infix_of_stars ['-'] 4 (by omega) (by simp) behind
  have shorter : m <:+: stars 4 ++ (['-'] ++ (stars 4 ++ '-' :: lastFour value)) :=
    groups.trans List.infix_append_right
  exact identifies.not_infix_groups (by omega) (by omega) shorter

theorem Identifies.infix_anonymizeEmail_iff (address : '@' ∈ value)
    (identifies : Identifies classes name m value) :
    m <:+: anonymizeEmail value ↔ m <:+: shown value := by
  obtain ⟨front, n, positive, short, shape⟩ := anonymizeEmail_shown address
  rw [shape]
  constructor
  · intro inside
    exact identifies.infix_of_stars front n positive (by omega) inside
  · intro inside
    exact inside.trans ⟨front ++ stars n, [], by simp⟩

/-! ### The exact condition -/

variable (classes)

/-- At the top level a number is found in the string; or an address, and no match is in what stands
from there on; or nothing at all. -/
def Covered (value : List Char) : Prop :=
  finds classes .creditCard value = true ∨ finds classes .ssn value = true ∨
    finds classes .phone value = true ∨
    (finds classes .email value = true ∧ ∀ name m, Identifies classes name m value → ¬m <:+: shown value) ∨
    ∀ name, finds classes name value = false

variable {classes}

theorem finds_eq_false : finds classes name value = false ↔ ∀ m, ¬Identifies classes name m value := by
  rw [← Bool.not_eq_true, finds_iff, not_exists]

theorem infix_shown_of_covered (covered : Covered classes value)
    (identifies : Identifies classes name m value) : ¬m <:+: anonymizedChars classes value := by
  unfold anonymizedChars
  split
  · exact identifies.not_infix_creditCard
  · split
    · exact identifies.not_infix_groups (a := 3) (b := 2) (by omega) (by omega)
    · split
      · exact identifies.not_infix_groups (a := 3) (b := 3) (by omega) (by omega)
      · rename_i no_card no_ssn no_phone
        rcases covered with card | ssn | phone | ⟨address, hidden⟩ | nothing
        · exact absurd card no_card
        · exact absurd ssn no_ssn
        · exact absurd phone no_phone
        · obtain ⟨found, matched⟩ := finds_iff.mp address
          rw [if_pos address, identifies.infix_anonymizeEmail_iff (matched.within.subset matched.at_mem)]
          exact hidden name m identifies
        · exact absurd identifies (finds_eq_false.mp (nothing name) m)

theorem covered_of_hidden
    (hidden : ∀ name m, Identifies classes name m value → ¬m <:+: anonymizedChars classes value) :
    Covered classes value := by
  unfold anonymizedChars at hidden
  by_cases card : finds classes .creditCard value
  · exact .inl card
  · by_cases ssn : finds classes .ssn value
    · exact .inr (.inl ssn)
    · by_cases phone : finds classes .phone value
      · exact .inr (.inr (.inl phone))
      · simp only [if_neg card, if_neg ssn, if_neg phone] at hidden
        by_cases address : finds classes .email value
        · obtain ⟨found, matched⟩ := finds_iff.mp address
          refine .inr (.inr (.inr (.inl ⟨address, fun name m identifies => ?_⟩)))
          have gone := hidden name m identifies
          rwa [if_pos address, identifies.infix_anonymizeEmail_iff (matched.within.subset matched.at_mem)]
            at gone
        · simp only [if_neg address] at hidden
          refine .inr (.inr (.inr (.inr fun name => finds_eq_false.mpr fun m identifies => ?_)))
          exact hidden name m identifies identifies.within

/-! ### Every string of a dictionary -/

variable {path : List Place} {s t : String}

/-- Further down nothing may be found at all. -/
def CoveredAt (classes : CharClasses) (path : List Place) (s : String) : Prop :=
  (path = [] ∧ Covered classes s.toList) ∨ ∀ name, finds classes name s.toList = false

theorem stringAt_top (here : StringAt data fieldName [] s) :
    StringAt (anonymizeData classes data) fieldName [] t ↔
      t = String.ofList (anonymizedChars classes s.toList) := by
  unfold StringAt at here ⊢
  rw [anonymizeData_eq, Dict.get?_map]
  cases found : data.get? fieldName with
  | none =>
    rw [found] at here
    cases here
  | some v =>
    rw [found] at here
    obtain rfl : v = .str s := Option.some.inj here
    simp only [Option.map_some, Option.bind_some, Value.at, anonymizedValue, Option.some.injEq,
      Value.str.injEq]
    exact eq_comm

theorem stringAt_below (below : path ≠ []) (here : StringAt data fieldName path s) :
    StringAt (anonymizeData classes data) fieldName path t ↔ t = s := by
  have same : StringAt (anonymizeData classes data) fieldName path s := by
    unfold StringAt at here ⊢
    rw [anonymizeData_eq, Dict.get?_map]
    cases found : data.get? fieldName with
    | none =>
      rw [found] at here
      cases here
    | some v =>
      rw [found] at here
      cases path with
      | nil => exact absurd rfl below
      | cons place path =>
        cases v with
        | str text => cases place <;> cases here
        | _ => exact here
  unfold StringAt at same ⊢
  rw [same, Option.some.injEq, Value.str.injEq]
  exact eq_comm

theorem coveredAt_of_anonymizes (anonymizes : Anonymizes classes data)
    (here : StringAt data fieldName path s) : CoveredAt classes path s := by
  obtain ⟨t, there, hidden⟩ := anonymizes fieldName path s here
  by_cases top : path = []
  · subst top
    obtain rfl := (stringAt_top here).mp there
    rw [String.toList_ofList] at hidden
    exact .inl ⟨rfl, covered_of_hidden hidden⟩
  · obtain rfl := (stringAt_below top here).mp there
    refine .inr fun name => finds_eq_false.mpr fun m identifies => ?_
    exact hidden name m identifies identifies.within

theorem anonymizes_of_coveredAt
    (covered : ∀ fieldName path s, StringAt data fieldName path s → CoveredAt classes path s) :
    Anonymizes classes data := by
  intro fieldName path s here
  by_cases top : path = []
  · subst top
    refine ⟨_, (stringAt_top here).mpr rfl, fun name m identifies => ?_⟩
    rw [String.toList_ofList]
    rcases covered fieldName [] s here with ⟨-, covered⟩ | nothing
    · exact infix_shown_of_covered covered identifies
    · exact absurd identifies (finds_eq_false.mp (nothing name) m)
  · refine ⟨s, (stringAt_below top here).mpr rfl, fun name m identifies => ?_⟩
    rcases covered fieldName path s here with ⟨empty, -⟩ | nothing
    · exact absurd empty top
    · exact absurd identifies (finds_eq_false.mp (nothing name) m)

/-- No match is left over, if and only if every string is covered where it stands. -/
theorem anonymizes_iff (data : Dict String Value) : Anonymizes classes data ↔
    ∀ fieldName path s, StringAt data fieldName path s → CoveredAt classes path s :=
  ⟨fun anonymizes _ _ _ here => coveredAt_of_anonymizes anonymizes here, anonymizes_of_coveredAt⟩

def hostData : Dict String Value := Dict.empty.set "host" (.str "10.0.0.1")

theorem address_left : ¬∀ classes data, Anonymizes classes data := by
  intro anonymizes
  have here : StringAt hostData "host" [] "10.0.0.1" := rfl
  rcases coveredAt_of_anonymizes (anonymizes asciiClasses hostData) here with
    ⟨-, card | ssn | phone | ⟨address, -⟩ | nothing⟩ | nothing
  · revert card
    decide +kernel
  · revert ssn
    decide +kernel
  · revert phone
    decide +kernel
  · revert address
    decide +kernel
  · have ip := nothing .ipAddress
    revert ip
    decide +kernel
  · have ip := nothing .ipAddress
    revert ip
    decide +kernel

end BtApiSecurity.Data
