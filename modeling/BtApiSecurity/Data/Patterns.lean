import BtApiSecurity.Py.Regex
import BtApiSecurity.Py.Text

/-!
# Patterns of identifying data

Five patterns for texts that identify somebody. Digits and word characters are those
of Unicode, so of them only what they are below 128 is fixed.
-/

namespace BtApiSecurity.Data
open Py Regex

/-- `\d` and `\w`. -/
structure CharClasses where
  digit : Char → Bool
  word : Char → Bool
  digit_ascii : ∀ c, c.toNat < 128 → digit c = c.isDigit
  word_ascii : ∀ c, c.toNat < 128 → word c = (c.isAlphanum || c == '_')

def asciiClasses : CharClasses where
  digit := Char.isDigit
  word c := c.isAlphanum || c == '_'
  digit_ascii _ _ := rfl
  word_ascii _ _ := rfl

inductive PatternName where
  | email
  | phone
  | ssn
  | creditCard
  | ipAddress
  deriving DecidableEq

variable (classes : CharClasses)

def literal (c : Char) : Piece Char := one (· == c)

def isLocal (c : Char) : Bool := c.isAlphanum || ['.', '_', '%', '+', '-'].contains c

def isDomain (c : Char) : Bool := c.isAlphanum || ['.', '-'].contains c

/-- The bar is in the class of the pattern. -/
def isTop (c : Char) : Bool := c.isAlpha || c == '|'

def emailPieces : List (Piece Char) :=
  [.boundary, .run isLocal 1 none, literal '@', .run isDomain 1 none, literal '.', .run isTop 2 none,
    .boundary]

def digits (n : Nat) : Piece Char := exactly n classes.digit

/-- `[-\s]?`. -/
def separator : Piece Char := .run (fun c => c == '-' || isSpace c) 0 (some 1)

def octet : Piece Char := .run classes.digit 1 (some 3)

def pattern : PatternName → Pattern Char
  | .email => [emailPieces]
  | .phone =>
    [[.boundary, digits classes 3, literal '-', digits classes 3, literal '-', digits classes 4, .boundary],
      [.boundary, digits classes 10, .boundary]]
  | .ssn =>
    [[.boundary, digits classes 3, literal '-', digits classes 2, literal '-', digits classes 4, .boundary]]
  | .creditCard =>
    [[.boundary, digits classes 4, separator, digits classes 4, separator, digits classes 4, separator,
      digits classes 4, .boundary]]
  | .ipAddress =>
    [[.boundary, octet classes, literal '.', octet classes, literal '.', octet classes, literal '.',
      octet classes, .boundary]]

/-- The patterns in the order of the dictionary. -/
def patternNames : List PatternName := [.email, .phone, .ssn, .creditCard, .ipAddress]

/-- `pattern.search(text)`. -/
def finds (name : PatternName) (text : List Char) : Bool :=
  search classes.word (pattern classes name) text

/-- A part of the text that a pattern matches where it stands. -/
def Identifies (name : PatternName) (m text : List Char) : Prop :=
  MatchesIn classes.word (pattern classes name) m text

variable {classes} {name : PatternName} {m text : List Char}

theorem finds_iff : finds classes name text = true ↔ ∃ m, Identifies classes name m text := search_iff _

/-! ### What every match is like -/

theorem star_not_digit (classes : CharClasses) : classes.digit '*' = false := classes.digit_ascii '*' (by decide)

theorem pattern_no_star :
    ∀ pieces ∈ pattern classes name, ∀ piece ∈ pieces, piece.allows '*' = false := by
  have digit := star_not_digit classes
  cases name with
  | email => simp [pattern, emailPieces, literal, one, isLocal, isDomain, isTop, Piece.allows]
  | phone => simp [pattern, digits, exactly, literal, one, Piece.allows, digit]
  | ssn => simp [pattern, digits, exactly, literal, one, Piece.allows, digit]
  | creditCard => simp [pattern, digits, exactly, separator, isSpace, Piece.allows, digit]
  | ipAddress => simp [pattern, octet, literal, one, Piece.allows, digit]

theorem pattern_long : ∀ pieces ∈ pattern classes name, 6 ≤ leastLength pieces := by
  cases name with
  | email => simp [pattern, emailPieces, literal, one, leastLength]
  | phone => simp [pattern, digits, exactly, literal, one, leastLength]
  | ssn => simp [pattern, digits, exactly, literal, one, leastLength]
  | creditCard => simp [pattern, digits, exactly, separator, leastLength]
  | ipAddress => simp [pattern, octet, literal, one, leastLength]

/-- No match has an asterisk in it. -/
theorem Identifies.no_star (identifies : Identifies classes name m text) : '*' ∉ m := by
  obtain ⟨before, after, -, pieces, alternative, matched⟩ := identifies
  intro star
  obtain ⟨piece, member, allows⟩ := matched.mem_allows star
  rw [pattern_no_star pieces alternative piece member] at allows
  cases allows

theorem Identifies.six_le (identifies : Identifies classes name m text) : 6 ≤ m.length := by
  obtain ⟨before, after, -, pieces, alternative, matched⟩ := identifies
  exact (pattern_long pieces alternative).trans matched.leastLength_le

theorem Identifies.at_mem (identifies : Identifies classes .email m text) : '@' ∈ m := by
  obtain ⟨before, after, -, pieces, alternative, matched⟩ := identifies
  obtain rfl : pieces = emailPieces := List.mem_singleton.mp alternative
  have piece : .run (· == '@') 1 (some 1) ∈ emailPieces := by simp [emailPieces, literal, one]
  obtain ⟨c, member, at_sign⟩ := matched.exists_mem piece Nat.one_pos
  rwa [beq_iff_eq.mp at_sign] at member

theorem Identifies.within (identifies : Identifies classes name m text) : m <:+: text := by
  obtain ⟨before, after, whole, -⟩ := identifies
  exact ⟨before, after, whole.symm⟩

end BtApiSecurity.Data
