import BtApiSecurity.Data.Envelopes

/-!
# Addresses are always recognised

The patterns are looked for in the text of a dictionary, where strings are quoted and
escaped. Of an address nothing is escaped, and what an escape in front of it leaves is
part of a longer one.
-/

namespace BtApiSecurity.Data
open Py Regex

variable {classes : CharClasses} {printable : Char → Bool} {quote c : Char}
variable {before after front rest m cs : List Char}

/-! ### Characters of an address -/

def IsQuote (quote : Char) : Prop := quote = '\'' ∨ quote = '"'

theorem isQuote_quoteOf (cs : List Char) : IsQuote (quoteOf cs) := by
  unfold quoteOf
  split
  · exact .inr rfl
  · exact .inl rfl

theorem escape_not_word : classes.word '\\' = false := classes.word_ascii '\\' (by decide)

theorem quote_not_word (is_quote : IsQuote quote) : classes.word quote = false := by
  rcases is_quote with rfl | rfl
  · exact classes.word_ascii '\'' (by decide)
  · exact classes.word_ascii '"' (by decide)

theorem word_of_alphanum (plain : c.isAlphanum = true) : classes.word c = true := by
  have bounds := toNat_of_alphanum plain
  rw [classes.word_ascii c (by omega), plain]
  rfl

/-- Characters of words are shown as they are. -/
theorem reprChar_word (words_printable : ∀ c, classes.word c = true → printable c = true)
    (is_quote : IsQuote quote) (word : classes.word c = true) : reprChar printable quote c = [c] := by
  have not_quote : c ≠ quote := by
    rintro rfl
    rw [quote_not_word is_quote] at word
    cases word
  have not_escape : c ≠ '\\' := by
    rintro rfl
    rw [escape_not_word] at word
    cases word
  by_cases ascii : c.toNat < 128
  · have visible : 48 ≤ c.toNat ∧ c.toNat < 127 := by
      rw [classes.word_ascii c ascii, Bool.or_eq_true, beq_iff_eq] at word
      rcases word with plain | rfl
      · have bounds := toNat_of_alphanum plain
        omega
      · decide
    exact reprChar_plain (by omega) (.inl visible.2) not_quote not_escape
  · exact reprChar_plain (by omega) (.inr ⟨by omega, words_printable c word⟩) not_quote not_escape

theorem emailChar {piece : Piece Char} (member : piece ∈ emailPieces) (allows : piece.allows c = true) :
    c.isAlphanum = true ∨ c ∈ ['.', '_', '%', '+', '-', '@', '|'] := by
  simp only [emailPieces, literal, one, List.mem_cons, List.not_mem_nil, or_false] at member
  rcases member with rfl | rfl | rfl | rfl | rfl | rfl | rfl <;>
    simp [Piece.allows, isLocal, isDomain, isTop, Char.isAlphanum] at allows ⊢ <;> grind

theorem reprChar_email (is_quote : IsQuote quote) {piece : Piece Char} (member : piece ∈ emailPieces)
    (allows : piece.allows c = true) : reprChar printable quote c = [c] := by
  have visible : 32 ≤ c.toNat ∧ c.toNat < 127 ∧ c ≠ '\'' ∧ c ≠ '"' ∧ c ≠ '\\' := by
    rcases emailChar member allows with plain | special
    · have bounds := toNat_of_alphanum plain
      refine ⟨by omega, by omega, ?_, ?_, ?_⟩
      all_goals
        rintro rfl
        revert bounds
        decide
    · simp only [List.mem_cons, List.not_mem_nil, or_false] at special
      rcases special with rfl | rfl | rfl | rfl | rfl | rfl | rfl <;> decide
  obtain ⟨low, high, single, double, not_escape⟩ := visible
  apply reprChar_plain low (.inl high) ?_ not_escape
  rcases is_quote with rfl | rfl
  · exact single
  · exact double

/-! ### What stands around an address -/

/-- The escape of the last character before an address leaves a text that may be its beginning. -/
theorem flatMap_before (printable : Char → Bool) (quote : Char)
    (front_ends : front.getLast?.any classes.word = false) (before : List Char) : ∃ front' e,
      front ++ before.flatMap (reprChar printable quote) = front' ++ e ∧
        (∀ d ∈ e, d.isAlphanum = true) ∧
        front'.getLast?.any classes.word = if e = [] then before.getLast?.any classes.word else false := by
  rcases List.eq_nil_or_concat before with rfl | ⟨earlier, b, rfl⟩
  · exact ⟨front, [], rfl, List.forall_mem_nil _, front_ends⟩
  · rw [List.concat_eq_append, List.flatMap_append, List.flatMap_singleton, ← List.append_assoc]
    generalize front ++ earlier.flatMap (reprChar printable quote) = start
    rcases @reprChar_cases printable quote b with shown | ⟨escaped, -⟩ | ⟨e, escaped, nonempty, plain⟩
    · refine ⟨start ++ [b], [], by rw [shown, List.append_nil], List.forall_mem_nil _, ?_⟩
      simp
    · refine ⟨start ++ ['\\', b], [], by rw [escaped, List.append_nil], List.forall_mem_nil _, ?_⟩
      simp
    · refine ⟨start ++ ['\\'], e, by rw [escaped]; simp, plain, ?_⟩
      simp [nonempty, escape_not_word]

theorem flatMap_after (words_printable : ∀ c, classes.word c = true → printable c = true)
    (is_quote : IsQuote quote) (rest_starts : rest.head?.any classes.word = false) (after : List Char) :
    (after.flatMap (reprChar printable quote) ++ rest).head?.any classes.word =
      after.head?.any classes.word := by
  cases after with
  | nil => exact rest_starts
  | cons a after =>
    rw [List.flatMap_cons, List.append_assoc]
    by_cases word : classes.word a = true
    · rw [reprChar_word words_printable is_quote word]
      rfl
    · rw [Bool.not_eq_true] at word
      rcases @reprChar_cases printable quote a with shown | ⟨escaped, -⟩ | ⟨e, escaped, -, -⟩
      · rw [shown]
        rfl
      · rw [escaped]
        exact escape_not_word.trans word.symm
      · rw [escaped]
        exact escape_not_word.trans word.symm

/-- An address is found in the escaped text, where quotes stand around it. -/
theorem finds_flatMap (words_printable : ∀ c, classes.word c = true → printable c = true)
    (is_quote : IsQuote quote) (front_ends : front.getLast?.any classes.word = false)
    (rest_starts : rest.head?.any classes.word = false) (identifies : Identifies classes .email m cs) :
    finds classes .email (front ++ cs.flatMap (reprChar printable quote) ++ rest) = true := by
  obtain ⟨before, after, rfl, pieces, alternative, matched⟩ := identifies
  obtain rfl : pieces = emailPieces := List.mem_singleton.mp alternative
  have kept : m.flatMap (reprChar printable quote) = m := by
    refine (List.flatMap_congr fun c member => ?_).trans (List.flatMap_singleton' m)
    obtain ⟨piece, inside, allows⟩ := matched.mem_allows member
    exact reprChar_email is_quote inside allows
  obtain ⟨front', e, split, plain, ends⟩ := flatMap_before printable quote front_ends before
  have starts := flatMap_after words_printable is_quote rest_starts after
  obtain ⟨here, local_, tail, rfl, inside, enough, few, matched_tail⟩ := matched
  obtain ⟨c, local_, rfl⟩ := List.exists_cons_of_length_pos (Nat.lt_of_succ_le enough)
  apply finds_iff.mpr
  refine ⟨e ++ (c :: local_ ++ tail), front', after.flatMap (reprChar printable quote) ++ rest, ?_,
    emailPieces, List.mem_singleton_self _, ?_, e ++ c :: local_, tail, ?_, ?_, ?_, rfl, ?_⟩
  · rw [List.flatMap_append, List.flatMap_append, kept, ← List.append_assoc, ← List.append_assoc, split]
    simp only [List.append_assoc]
  · cases e with
    | nil =>
      rw [if_pos rfl] at ends
      rw [atBoundary, ends]
      exact here
    | cons d e =>
      rw [if_neg (List.cons_ne_nil d e)] at ends
      have word : classes.word d = true := word_of_alphanum (plain d List.mem_cons_self)
      simp [atBoundary, ends, word]
  · rw [List.append_assoc]
  · intro d member
    rcases List.mem_append.mp member with escape | own
    · rw [isLocal, plain d escape]
      rfl
    · exact inside d own
  · rw [List.length_append]
    omega
  · refine matched_tail.of_context ?_ starts.symm
    have last := List.getLast?_eq_some_getLast (List.cons_ne_nil c local_)
    rw [List.getLast?_append, List.getLast?_append, List.getLast?_append, last]
    rfl

/-! ### Addresses in a dictionary -/

variable {data : Dict String Value} {v : Value} {s : String}

/-- An address in a string of the dictionary is recognised, at whatever depth it is. -/
theorem recognised_of_address (words_printable : ∀ c, classes.word c = true → printable c = true)
    (member : v ∈ data.values) (inside : s ∈ v.strings)
    (identifies : Identifies classes .email m s.toList) : Recognised classes printable data := by
  obtain ⟨before, after, whole⟩ := @infix_dictText printable data v s member inside
  have is_quote := isQuote_quoteOf s.toList
  have front_ends : (before ++ [quoteOf s.toList]).getLast?.any classes.word = false := by
    rw [List.getLast?_append]
    exact quote_not_word is_quote
  have rest_starts : (quoteOf s.toList :: after).head?.any classes.word = false := quote_not_word is_quote
  have found := finds_flatMap words_printable is_quote front_ends rest_starts identifies
  refine .inl ?_
  rw [← whole, reprText]
  simpa using found

/-- Data with an address in it is always encrypted. -/
theorem protects_of_address (words_printable : ∀ c, classes.word c = true → printable c = true)
    {cipher : Cipher} (succeeds : cipher.Succeeds) (member : v ∈ data.values) (inside : s ∈ v.strings)
    (identifies : Identifies classes .email m s.toList) (given : List String) :
    Protects classes printable cipher data given :=
  protects_of_recognised succeeds (recognised_of_address words_printable member inside identifies)

end BtApiSecurity.Data
