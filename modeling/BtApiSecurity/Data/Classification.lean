import BtApiSecurity.Data.Patterns
import BtApiSecurity.Py.Repr

/-!
# Classification

Patterns are looked for in the text of the whole dictionary. Of the five only addresses
and card numbers lead to a sensitive type; three names of fields lead to another.
-/

namespace BtApiSecurity.Data
open Py

inductive SensitiveDataType where
  | pii
  | financial
  | pciDss
  | health
  | biometric
  | location
  | communication
  | transaction
  deriving DecidableEq

/-- The types that were found, each with `True`. -/
abbrev Classification := Dict SensitiveDataType Bool

variable (classes : CharClasses) (printable : Char → Bool)

def classifyPattern (dataStr : List Char) (classification : Classification) (name : PatternName) :
    Classification :=
  if finds classes name dataStr then
    match name with
    | .email => classification.set .pii true
    | .creditCard => (classification.set .financial true).set .pciDss true
    | .phone | .ssn | .ipAddress => classification
  else classification

def transactionKeys : List String := ["amount", "currency", "transaction_id"]

def classifyData (data : Dict String Value) : Classification :=
  let classification :=
    patternNames.foldl (classifyPattern classes (dictText printable data)) Dict.empty
  if transactionKeys.any fun key => (data.get? key).isSome then classification.set .transaction true
  else classification

/-- `any(classification.values())`. -/
def hasSensitive (classification : Classification) : Bool := classification.values.any id

/-- What leads to a type: an address or a card number in the text of the dictionary, or a field of a
transaction. -/
def Recognised (data : Dict String Value) : Prop :=
  finds classes .email (dictText printable data) = true ∨
    finds classes .creditCard (dictText printable data) = true ∨
    ∃ key ∈ transactionKeys, (data.get? key).isSome = true

variable {classes printable} {data : Dict String Value}

theorem hasSensitive_iff {classification : Classification} :
    hasSensitive classification = true ↔ ∃ type, classification.get? type = some true := by
  rw [hasSensitive, List.any_eq_true]
  constructor
  · intro some_true
    obtain ⟨x, member, yes⟩ := some_true
    obtain ⟨⟨type, _⟩, entry, rfl⟩ := List.mem_map.mp member
    obtain rfl := yes
    exact ⟨type, classification.mem_entries.mp entry⟩
  · intro some_true
    obtain ⟨type, found⟩ := some_true
    exact ⟨true, List.mem_map.mpr ⟨_, classification.mem_entries.mpr found, rfl⟩, rfl⟩

theorem hasSensitive_classifyData :
    hasSensitive (classifyData classes printable data) = true ↔ Recognised classes printable data := by
  have keys : (transactionKeys.any fun key => (data.get? key).isSome) = true ↔
      ∃ key ∈ transactionKeys, (data.get? key).isSome = true := List.any_eq_true
  rw [Recognised, ← keys]
  simp only [classifyData, patternNames, List.foldl_cons, List.foldl_nil, classifyPattern, ite_self]
  generalize finds classes .email (dictText printable data) = address
  generalize finds classes .creditCard (dictText printable data) = card
  generalize transactionKeys.any (fun key => (data.get? key).isSome) = transaction
  revert address card transaction
  decide

/-- Nothing is found in the empty dictionary. -/
theorem not_recognised_empty : ¬Recognised classes printable Dict.empty := by
  have nothing : ∀ name, finds classes name (dictText printable Dict.empty) ≠ true := by
    intro name found
    obtain ⟨m, identifies⟩ := finds_iff.mp found
    exact absurd (identifies.six_le.trans identifies.within.length_le) (by decide : ¬6 ≤ 2)
  rintro (address | card | ⟨key, -, present⟩)
  · exact nothing .email address
  · exact nothing .creditCard card
  · cases present

end BtApiSecurity.Data
