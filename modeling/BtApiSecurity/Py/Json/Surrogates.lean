import BtApiSecurity.Py.Json.Limits

/-!
# Lone surrogates

A string of a text may escape one half of a surrogate pair without the other. This is
the only reason for which a text that is walked over holds a value that is not read.
-/

namespace BtApiSecurity.Py

variable {α : Type*} {digits : Nat} {c : Char} {cs rest : List Char}

/-- Every string that begins in the text has its surrogates in pairs. -/
def Paired (cs : List Char) : Prop :=
  ∀ body, body <:+ cs → ∀ units rest, scanUnits body = some (units, rest) → (joinUnits units).isSome = true

theorem Paired.of_suffix (paired : Paired cs) (suffix : rest <:+ cs) : Paired rest :=
  fun body begins => paired body (begins.trans suffix)

theorem Paired.skipBlanks (paired : Paired cs) : Paired (skipBlanks cs) :=
  paired.of_suffix (suffix_skipBlanks cs)

/-- Where the walk ends, something is read, and the same is left. -/
def Reads (cs : List Char) (w : Except Stop (List Char)) (found : Option (α × List Char)) : Prop :=
  ∀ rest, w = .ok rest → rest <:+ cs ∧ ∃ x, found = some (x, rest)

theorem suffix_behind (found : behind c cs = some rest) : rest <:+ cs := by
  have skipped := suffix_skipBlanks cs
  rw [behind_eq_some_iff.mp found] at skipped
  exact (List.suffix_cons c rest).trans skipped

theorem behind_of_orRaise (found : orRaise (behind c cs) .malformed = (.ok rest : Except Stop _)) :
    skipBlanks cs = c :: rest := by
  cases next : behind c cs with
  | none =>
    rw [next] at found
    cases found
  | some rest' =>
    rw [next] at found
    cases found
    exact behind_eq_some_iff.mp next

theorem walked_bind {w : Except Stop (List Char)} {f : List Char → Except Stop (List Char)}
    (walked : w >>= f = .ok rest) : ∃ mid, w = .ok mid ∧ f mid = .ok rest := by
  cases w with
  | error stop => cases walked
  | ok mid => exact ⟨mid, rfl, walked⟩

theorem reads_walkString (paired : Paired cs) : Reads cs (walkString cs) (scanString cs) := by
  intro rest walked
  unfold walkString at walked
  split at walked
  · cases walked
  · rename_i units rest' scanned
    cases walked
    obtain ⟨chars, joined⟩ := Option.isSome_iff_exists.mp (paired cs List.suffix_rfl units rest scanned)
    refine ⟨(past_scanUnits scanned).suffix, String.ofList chars, ?_⟩
    simp only [scanString, scanned, joined, Option.map_some]

theorem reads_walkNumber : Reads cs (walkNumber digits cs) (scanNumber cs) := by
  intro rest walked
  unfold walkNumber at walked
  split at walked
  · cases walked
  · rename_i l rest' scanned
    split at walked
    · cases walked
    · cases walked
      exact ⟨(past_scanLiteral scanned).2.suffix, l.value, by simp only [scanNumber, scanned, Option.map_some]⟩

theorem not_next (filled : behind c cs = none) (rest : List Char) : skipBlanks cs ≠ c :: rest := by
  intro next
  cases filled.symm.trans (behind_eq_some_iff.mpr next)

mutual

theorem reads_walkValue : ∀ (fuel depth : Nat) {cs : List Char}, Paired cs →
    Reads cs (walkValue digits fuel depth cs) (scanValue fuel cs)
  | 0, _, _, _ => by
    intro rest walked
    simp [walkValue] at walked
  | fuel + 1, depth, cs, paired => by
    intro rest walked
    rw [walkValue.eq_def] at walked
    dsimp only at walked
    split at walked
    · rename_i body
      obtain ⟨left, s, read⟩ := reads_walkString (paired.of_suffix (List.suffix_cons _ body)) rest walked
      exact ⟨left.trans (List.suffix_cons _ body), .str s, by simp only [scanValue, read, Option.map_some]⟩
    · rename_i body
      cases depth with
      | zero => cases walked
      | succ depth =>
        have inside := (paired.of_suffix (List.suffix_cons _ body)).skipBlanks
        dsimp only at walked
        split at walked
        · rename_i after empty
          cases walked
          exact ⟨(suffix_behind empty).trans (List.suffix_cons _ body), .list [],
            by simp only [scanValue, behind_eq_some_iff.mp empty]⟩
        · rename_i filled
          -- the last equation of `scanValue` for an opening bracket asks for this
          have unclosed := not_next filled
          obtain ⟨left, xs, read⟩ := reads_walkElements fuel depth inside rest walked
          exact ⟨(left.trans (suffix_skipBlanks body)).trans (List.suffix_cons _ body), .list xs,
            by simp only [scanValue, read, Option.map_some]⟩
    · rename_i body
      cases depth with
      | zero => cases walked
      | succ depth =>
        have inside := (paired.of_suffix (List.suffix_cons _ body)).skipBlanks
        dsimp only at walked
        split at walked
        · rename_i after empty
          cases walked
          exact ⟨(suffix_behind empty).trans (List.suffix_cons _ body), .dict [],
            by simp only [scanValue, behind_eq_some_iff.mp empty]⟩
        · rename_i filled
          have unclosed := not_next filled
          obtain ⟨left, items, read⟩ := reads_walkItems fuel depth inside rest walked
          exact ⟨(left.trans (suffix_skipBlanks body)).trans (List.suffix_cons _ body), .dict (fromPairs items),
            by simp only [scanValue, read, Option.map_some]⟩
    · cases walked
      exact ⟨List.suffix_append ['n', 'u', 'l', 'l'] _, .none, rfl⟩
    · cases walked
      exact ⟨List.suffix_append ['t', 'r', 'u', 'e'] _, .bool true, rfl⟩
    · cases walked
      exact ⟨List.suffix_append ['f', 'a', 'l', 's', 'e'] _, .bool false, rfl⟩
    · cases walked
      exact ⟨List.suffix_append ['N', 'a', 'N'] _, .float .nan, rfl⟩
    · cases walked
      exact ⟨List.suffix_append ['I', 'n', 'f', 'i', 'n', 'i', 't', 'y'] _, .float (.infinite false), rfl⟩
    · cases walked
      exact ⟨List.suffix_append ['-', 'I', 'n', 'f', 'i', 'n', 'i', 't', 'y'] _, .float (.infinite true), rfl⟩
    · obtain ⟨left, v, read⟩ := reads_walkNumber rest walked
      refine ⟨left, v, ?_⟩
      rw [scanValue.eq_def]
      dsimp only
      split <;> first | exact read | simp_all

theorem reads_walkElements : ∀ (fuel depth : Nat) {cs : List Char}, Paired cs →
    Reads cs (walkElements digits fuel depth cs) (scanElements fuel cs)
  | 0, _, _, _ => by
    intro rest walked
    simp [walkElements] at walked
  | fuel + 1, depth, cs, paired => by
    intro rest walked
    rw [walkElements] at walked
    obtain ⟨mid, head, walked⟩ := walked_bind walked
    obtain ⟨left, x, read⟩ := reads_walkValue fuel depth paired mid head
    split at walked
    · rename_i after comma
      have next := behind_eq_some_iff.mp comma
      have ahead : after <:+ cs := (suffix_behind comma).trans left
      obtain ⟨left', xs, more⟩ :=
        reads_walkElements fuel depth (paired.of_suffix ahead).skipBlanks rest walked
      exact ⟨(left'.trans (suffix_skipBlanks after)).trans ahead, x :: xs,
        by simp only [scanElements, read, next, more, Option.map_some]⟩
    · have next := behind_of_orRaise walked
      exact ⟨(suffix_behind (behind_eq_some_iff.mpr next)).trans left, [x],
        by simp only [scanElements, read, next]⟩

theorem reads_walkItems : ∀ (fuel depth : Nat) {cs : List Char}, Paired cs →
    Reads cs (walkItems digits fuel depth cs) (scanItems fuel cs)
  | 0, _, _, _ => by
    intro rest walked
    simp [walkItems] at walked
  | fuel + 1, depth, cs, paired => by
    intro rest walked
    rw [walkItems.eq_def] at walked
    dsimp only at walked
    split at walked
    · rename_i body
      obtain ⟨named, key, walked⟩ := walked_bind walked
      obtain ⟨colon, apart, walked⟩ := walked_bind walked
      obtain ⟨mid, value, walked⟩ := walked_bind walked
      obtain ⟨left, k, name⟩ := reads_walkString (paired.of_suffix (List.suffix_cons _ body)) named key
      have next := behind_of_orRaise apart
      have ahead : colon <:+ '"' :: body :=
        (suffix_behind (behind_eq_some_iff.mpr next)).trans (left.trans (List.suffix_cons _ body))
      obtain ⟨left', x, read⟩ :=
        reads_walkValue fuel depth (paired.of_suffix ahead).skipBlanks mid value
      have beyond : mid <:+ '"' :: body := (left'.trans (suffix_skipBlanks colon)).trans ahead
      split at walked
      · rename_i after comma
        have next' := behind_eq_some_iff.mp comma
        have later : after <:+ '"' :: body := (suffix_behind comma).trans beyond
        obtain ⟨left'', items, more⟩ :=
          reads_walkItems fuel depth (paired.of_suffix later).skipBlanks rest walked
        exact ⟨(left''.trans (suffix_skipBlanks after)).trans later, (.str k, x) :: items,
          by simp only [scanItems, name, next, read, next', more, Option.map_some]⟩
      · have next' := behind_of_orRaise walked
        exact ⟨(suffix_behind (behind_eq_some_iff.mpr next')).trans beyond, [(.str k, x)],
          by simp only [scanItems, name, next, read, next']⟩
    · cases walked

end

theorem loads_of_walk {limits : Limits} {text : List Char} (paired : Paired text)
    (walked : walk limits text = .ok ()) : ∃ v, loads text = some v := by
  unfold walk at walked
  cases value : walkValue limits.digits (2 * text.length + 2) limits.depth (skipBlanks text) with
  | error stop =>
    rw [value] at walked
    cases walked
  | ok rest =>
    rw [value, ok_bind, ensure] at walked
    split at walked
    · rename_i ended
      obtain ⟨-, v, read⟩ := reads_walkValue _ limits.depth paired.skipBlanks rest value
      exact ⟨v, by simp only [loads, read, if_pos ended]⟩
    · cases walked

/-- Where all surrogates are in pairs, only the limits tell how a text is loaded. -/
theorem not_foreign_of_paired {limits : Limits} {text : List Char} (paired : Paired text) (object : Bool) :
    loading limits text ≠ .foreign object := by
  intro foreign
  unfold loading at foreign
  split at foreign
  · cases foreign
  · cases foreign
  · rename_i walked
    obtain ⟨v, read⟩ := loads_of_walk paired walked
    rw [read] at foreign
    cases foreign

end BtApiSecurity.Py
