import Mathlib.Data.List.Basic
import Mathlib.Data.List.Infix

/-!
# Regular expressions

Patterns made of word boundaries and of runs of characters of a class, in
alternatives. The search agrees with what the pieces say about a text and what
stands around it.
-/

namespace BtApiSecurity.Py.Regex

/-- `\b`, or from `least` to `most` characters of a class, where `none` is no bound. -/
inductive Piece (α : Type*) where
  | boundary
  | run (cls : α → Bool) (least : Nat) (most : Option Nat)

variable {α : Type*} {word : α → Bool} {pieces : List (Piece α)} {before rest m after text : List α}

/-- The alternatives of a pattern. -/
abbrev Pattern (α : Type*) := List (List (Piece α))

/-- A character of the class. -/
def one (cls : α → Bool) : Piece α := .run cls 1 (some 1)

/-- Exactly `n` characters of the class. -/
def exactly (n : Nat) (cls : α → Bool) : Piece α := .run cls n (some n)

variable (word)

/-- Of the characters around the place one is a word character and the other is not, or is missing. -/
def atBoundary (before rest : List α) : Bool := before.getLast?.any word != rest.head?.any word

/-- The pieces match the text between `before` and `after`. -/
def Matches : List (Piece α) → List α → List α → List α → Prop
  | [], _, m, _ => m = []
  | .boundary :: pieces, before, m, after =>
    atBoundary word before (m ++ after) = true ∧ Matches pieces before m after
  | .run cls least most :: pieces, before, m, after =>
    ∃ x y, m = x ++ y ∧ (∀ c ∈ x, cls c = true) ∧ least ≤ x.length ∧ most.all (x.length ≤ ·) = true ∧
      Matches pieces (before ++ x) y after

/-- A match of the pieces starts behind `before`. -/
def starts : List (Piece α) → List α → List α → Bool
  | [], _, _ => true
  | .boundary :: pieces, before, rest => atBoundary word before rest && starts pieces before rest
  | .run cls least most :: pieces, before, rest =>
    (List.range (rest.length + 1)).any fun n =>
      least ≤ n && most.all (n ≤ ·) && (rest.take n).all cls &&
        starts pieces (before ++ rest.take n) (rest.drop n)

def searchFrom (pattern : Pattern α) : List α → List α → Bool
  | before, [] => pattern.any fun pieces => starts word pieces before []
  | before, c :: rest =>
    (pattern.any fun pieces => starts word pieces before (c :: rest)) ||
      searchFrom pattern (before ++ [c]) rest

/-- `pattern.search(text)`, as a truth value. -/
def search (pattern : Pattern α) (text : List α) : Bool := searchFrom word pattern [] text

/-- The pattern matches the part `m` of the text where it stands. -/
def MatchesIn (pattern : Pattern α) (m text : List α) : Prop :=
  ∃ before after, text = before ++ m ++ after ∧ ∃ pieces ∈ pattern, Matches word pieces before m after

/-! ### The search is exact -/

theorem starts_iff : starts word pieces before rest = true ↔
    ∃ m after, rest = m ++ after ∧ Matches word pieces before m after := by
  induction pieces generalizing before rest with
  | nil => exact iff_of_true rfl ⟨[], rest, rfl, rfl⟩
  | cons piece pieces ih =>
    cases piece with
    | boundary =>
      rw [starts, Bool.and_eq_true, ih]
      constructor
      · intro found
        obtain ⟨here, m, after, rfl, rest⟩ := found
        exact ⟨m, after, rfl, here, rest⟩
      · intro found
        obtain ⟨m, after, rfl, here, rest⟩ := found
        exact ⟨here, m, after, rfl, rest⟩
    | run cls least most =>
      simp only [starts, List.any_eq_true, List.mem_range, Bool.and_eq_true, decide_eq_true_eq,
        List.all_eq_true, ih, Matches]
      constructor
      · intro found
        obtain ⟨n, small, ⟨⟨enough, few⟩, inside⟩, m, after, split, matched⟩ := found
        have length : (rest.take n).length = n := List.length_take_of_le (Nat.lt_succ_iff.mp small)
        refine ⟨rest.take n ++ m, after, ?_, rest.take n, m, rfl, inside, ?_, ?_, matched⟩
        · rw [List.append_assoc, ← split, List.take_append_drop]
        · rw [length]
          exact enough
        · rw [length]
          exact few
      · intro found
        obtain ⟨_, after, rfl, x, y, rfl, inside, enough, few, matched⟩ := found
        refine ⟨x.length, ?_, ?_⟩
        · simp only [List.length_append]
          omega
        · rw [List.append_assoc, List.take_left, List.drop_left]
          exact ⟨⟨⟨enough, few⟩, inside⟩, y, after, rfl, matched⟩

theorem searchFrom_iff {pattern : Pattern α} : searchFrom word pattern before rest = true ↔
    ∃ skipped m after, rest = skipped ++ m ++ after ∧
      ∃ pieces ∈ pattern, Matches word pieces (before ++ skipped) m after := by
  have here : ∀ before rest, (pattern.any fun pieces => starts word pieces before rest) = true ↔
      ∃ m after, rest = m ++ after ∧ ∃ pieces ∈ pattern, Matches word pieces before m after := by
    intro before rest
    simp only [List.any_eq_true, starts_iff]
    constructor
    · intro found
      obtain ⟨pieces, member, m, after, split, matched⟩ := found
      exact ⟨m, after, split, pieces, member, matched⟩
    · intro found
      obtain ⟨m, after, split, pieces, member, matched⟩ := found
      exact ⟨pieces, member, m, after, split, matched⟩
  induction rest generalizing before with
  | nil =>
    rw [searchFrom, here]
    constructor
    · intro found
      obtain ⟨m, after, split, matched⟩ := found
      exact ⟨[], m, after, split, by rwa [List.append_nil]⟩
    · intro found
      obtain ⟨skipped, m, after, split, matched⟩ := found
      obtain ⟨rfl, rfl, rfl⟩ : skipped = [] ∧ m = [] ∧ after = [] := by simpa [and_assoc] using split.symm
      exact ⟨[], [], rfl, by rwa [List.append_nil] at matched⟩
  | cons c rest ih =>
    rw [searchFrom, Bool.or_eq_true]
    refine (or_congr (here before (c :: rest)) ih).trans ?_
    constructor
    · rintro (⟨m, after, split, matched⟩ | ⟨skipped, m, after, rfl, pieces, member, matched⟩)
      · exact ⟨[], m, after, split, by rwa [List.append_nil]⟩
      · rw [List.append_assoc, List.singleton_append] at matched
        exact ⟨c :: skipped, m, after, rfl, pieces, member, matched⟩
    · intro found
      obtain ⟨skipped, m, after, split, pieces, member, matched⟩ := found
      cases skipped with
      | nil =>
        rw [List.append_nil] at matched
        exact .inl ⟨m, after, split, pieces, member, matched⟩
      | cons d skipped =>
        obtain ⟨rfl, rfl⟩ := List.cons.inj split
        refine .inr ⟨skipped, m, after, rfl, pieces, member, ?_⟩
        rwa [List.append_assoc, List.singleton_append]

theorem search_iff {pattern : Pattern α} : search word pattern text = true ↔
    ∃ m, MatchesIn word pattern m text := by
  rw [search, searchFrom_iff]
  constructor
  · intro found
    obtain ⟨skipped, m, after, split, matched⟩ := found
    exact ⟨m, skipped, after, split, matched⟩
  · intro found
    obtain ⟨m, skipped, after, split, matched⟩ := found
    exact ⟨skipped, m, after, split, matched⟩

/-! ### What is in a match -/

variable {word}

/-- Of what stands around it a match sees the nearest characters, and of them whether they are word
characters. -/
theorem Matches.of_context (matched : Matches word pieces before m after) {before' after' : List α}
    (left : before.getLast?.any word = before'.getLast?.any word)
    (right : after.head?.any word = after'.head?.any word) : Matches word pieces before' m after' := by
  induction pieces generalizing before before' m with
  | nil => exact matched
  | cons piece pieces ih =>
    cases piece with
    | boundary =>
      obtain ⟨here, rest⟩ := matched
      refine ⟨?_, ih rest left⟩
      have next : (m ++ after).head?.any word = (m ++ after').head?.any word := by
        cases m with
        | nil => exact right
        | cons c m => rfl
      rwa [atBoundary, ← left, ← next]
    | run cls least most =>
      obtain ⟨x, y, split, inside, enough, few, rest⟩ := matched
      refine ⟨x, y, split, inside, enough, few, ih rest ?_⟩
      rw [List.getLast?_append, List.getLast?_append]
      cases x.getLast? with
      | none => exact left
      | some c => rfl

/-- The piece can match a text with the character in it. -/
def Piece.allows (c : α) : Piece α → Bool
  | .boundary => false
  | .run cls _ _ => cls c

def leastLength : List (Piece α) → Nat
  | [] => 0
  | .boundary :: pieces => leastLength pieces
  | .run _ least _ :: pieces => least + leastLength pieces

theorem Matches.leastLength_le (matched : Matches word pieces before m after) :
    leastLength pieces ≤ m.length := by
  induction pieces generalizing before m with
  | nil => exact Nat.zero_le _
  | cons piece pieces ih =>
    cases piece with
    | boundary => exact ih matched.2
    | run cls least most =>
      obtain ⟨x, y, rfl, -, enough, -, rest⟩ := matched
      have later := ih rest
      rw [leastLength, List.length_append]
      omega

/-- A run that may not be empty leaves a character of its class in the match. -/
theorem Matches.exists_mem (matched : Matches word pieces before m after) {cls : α → Bool} {least : Nat}
    {most : Option Nat} (piece : .run cls least most ∈ pieces) (positive : 0 < least) :
    ∃ c ∈ m, cls c = true := by
  induction pieces generalizing before m with
  | nil => cases piece
  | cons first pieces ih =>
    cases first with
    | boundary =>
      rcases List.mem_cons.mp piece with here | later
      · cases here
      · exact ih matched.2 later
    | run cls' least' most' =>
      obtain ⟨x, y, rfl, inside, enough, -, rest⟩ := matched
      rcases List.mem_cons.mp piece with here | later
      · cases here
        obtain ⟨c, member⟩ := List.exists_mem_of_length_pos (positive.trans_le enough)
        exact ⟨c, List.mem_append_left y member, inside c member⟩
      · obtain ⟨c, member, allowed⟩ := ih rest later
        exact ⟨c, List.mem_append_right x member, allowed⟩

/-- Every character of a match is in the class of one of the runs. -/
theorem Matches.mem_allows (matched : Matches word pieces before m after) {c : α} (member : c ∈ m) :
    ∃ piece ∈ pieces, piece.allows c = true := by
  induction pieces generalizing before m with
  | nil =>
    obtain rfl : m = [] := matched
    cases member
  | cons piece pieces ih =>
    cases piece with
    | boundary =>
      obtain ⟨piece, later, inside⟩ := ih matched.2 member
      exact ⟨piece, List.mem_cons_of_mem _ later, inside⟩
    | run cls least most =>
      obtain ⟨x, y, rfl, inside, -, -, rest⟩ := matched
      rcases List.mem_append.mp member with first | later
      · exact ⟨.run cls least most, List.mem_cons_self, inside c first⟩
      · obtain ⟨piece, later, inside⟩ := ih rest later
        exact ⟨piece, List.mem_cons_of_mem _ later, inside⟩

end BtApiSecurity.Py.Regex
