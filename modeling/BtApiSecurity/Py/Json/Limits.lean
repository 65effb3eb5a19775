import BtApiSecurity.Py.Json.Parse
import BtApiSecurity.Py.Method

/-!
# What stops the reading of JSON

`json.loads` reads a text until something stops it: a text that is no JSON, an
integer with more digits than the interpreter converts, or brackets nested deeper
than its stack permits. The first one in the text decides which exception comes out.
-/

namespace BtApiSecurity.Py

inductive Stop where
  | limited
  | malformed
  deriving DecidableEq

/-- The longest integer that is converted, and the nesting that the stack permits. -/
structure Limits where
  digits : Nat
  depth : Nat

/-! ### Walking over a text -/

def walkString (cs : List Char) : Except Stop (List Char) :=
  match scanUnits cs with
  | none => .error .malformed
  | some (_, rest) => .ok rest

def Literal.isInt (l : Literal) : Bool := l.frac = [] && l.exp.isNone

def walkNumber (digits : Nat) (cs : List Char) : Except Stop (List Char) :=
  match scanLiteral cs with
  | none => .error .malformed
  | some (l, rest) => if l.isInt ∧ digits < l.int.length then .error .limited else .ok rest

/-- What is behind the character, if it comes next. -/
def behind (c : Char) (cs : List Char) : Option (List Char) :=
  match skipBlanks cs with
  | [] => none
  | d :: rest => if d = c then some rest else none

mutual

/-- What is behind a value, as `scanValue` reads it. -/
def walkValue (digits fuel depth : Nat) (cs : List Char) : Except Stop (List Char) :=
  match fuel with
  | 0 => .error .malformed
  | fuel + 1 =>
    match cs with
    | '"' :: rest => walkString rest
    | '[' :: rest =>
      match depth with
      | 0 => .error .limited
      | depth + 1 =>
        match behind ']' rest with
        | some rest => .ok rest
        | none => walkElements digits fuel depth (skipBlanks rest)
    | '{' :: rest =>
      match depth with
      | 0 => .error .limited
      | depth + 1 =>
        match behind '}' rest with
        | some rest => .ok rest
        | none => walkItems digits fuel depth (skipBlanks rest)
    | 'n' :: 'u' :: 'l' :: 'l' :: rest => .ok rest
    | 't' :: 'r' :: 'u' :: 'e' :: rest => .ok rest
    | 'f' :: 'a' :: 'l' :: 's' :: 'e' :: rest => .ok rest
    | 'N' :: 'a' :: 'N' :: rest => .ok rest
    | 'I' :: 'n' :: 'f' :: 'i' :: 'n' :: 'i' :: 't' :: 'y' :: rest => .ok rest
    | '-' :: 'I' :: 'n' :: 'f' :: 'i' :: 'n' :: 'i' :: 't' :: 'y' :: rest => .ok rest
    | cs => walkNumber digits cs

def walkElements (digits fuel depth : Nat) (cs : List Char) : Except Stop (List Char) :=
  match fuel with
  | 0 => .error .malformed
  | fuel + 1 => do
    let rest ← walkValue digits fuel depth cs
    match behind ',' rest with
    | some rest => walkElements digits fuel depth (skipBlanks rest)
    | none => orRaise (behind ']' rest) .malformed

def walkItems (digits fuel depth : Nat) (cs : List Char) : Except Stop (List Char) :=
  match fuel with
  | 0 => .error .malformed
  | fuel + 1 =>
    match cs with
    | '"' :: rest => do
      let rest ← walkString rest
      let rest ← orRaise (behind ':' rest) .malformed
      let rest ← walkValue digits fuel depth (skipBlanks rest)
      match behind ',' rest with
      | some rest => walkItems digits fuel depth (skipBlanks rest)
      | none => orRaise (behind '}' rest) .malformed
    | _ => .error .malformed

end

def walk (limits : Limits) (text : List Char) : Except Stop Unit := do
  let rest ← walkValue limits.digits (2 * text.length + 2) limits.depth (skipBlanks text)
  ensure (skipBlanks rest = []) .malformed

/-- How `json.loads` ends: with a value, with a `JSONDecodeError`, with an exception of another class,
or with a value that holds a lone surrogate, of which only the kind is told. -/
inductive Loading where
  | value (v : Value)
  | decodeError
  | otherError
  | foreign (object : Bool)

def loading (limits : Limits) (text : List Char) : Loading :=
  match walk limits text with
  | .error .limited => .otherError
  | .error .malformed => .decodeError
  | .ok _ =>
    match loads text with
    | some v => .value v
    | none => .foreign ((skipBlanks text).head? = some '{')

def Loading.isObject : Loading → Bool
  | .value (.dict _) => true
  | .foreign object => object
  | _ => false

/-- A limit is met before anything else stops the reading. -/
def exceeds (limits : Limits) (text : List Char) : Bool :=
  match walk limits text with
  | .error .limited => true
  | _ => false

example : exceeds ⟨3, 1⟩ ['[', '1', '0', '0', '0', ',', '}'] = true := by decide +kernel

example : exceeds ⟨3, 1⟩ ['[', '1', '0', '0', ',', '[', '[', '1', ']', ']', ']'] = true := by decide +kernel

example : exceeds ⟨3, 1⟩ ['[', '}', '1', '0', '0', '0', ']'] = false := by decide +kernel

/-! ### What is walked over is read -/

/-- The walk ends where the reading ends, unless a limit stops it before. -/
def Follows (w : Except Stop (List Char)) (rest : List Char) : Prop :=
  w = .error .limited ∨ w = .ok rest

variable {digits depth : Nat} {c d : Char} {cs rest : List Char}

theorem follows_limited : Follows (.error .limited) rest := .inl rfl

theorem follows_ok : Follows (.ok rest) rest := .inr rfl

theorem behind_eq_some_iff : behind c cs = some rest ↔ skipBlanks cs = c :: rest := by
  unfold behind
  cases next : skipBlanks cs with
  | nil => simp
  | cons d tail => simp

theorem behind_next (next : skipBlanks cs = c :: rest) : behind c cs = some rest :=
  behind_eq_some_iff.mpr next

theorem behind_other (next : skipBlanks cs = d :: rest) (other : d ≠ c) : behind c cs = none := by
  unfold behind
  rw [next]
  exact if_neg other

theorem behind_none (absent : ∀ rest, skipBlanks cs = c :: rest → False) : behind c cs = none := by
  cases next : skipBlanks cs with
  | nil => rw [behind, next]
  | cons d rest => exact behind_other next fun same => absent rest (same ▸ next)

theorem follows_walkString {s : String} (read : scanString cs = some (s, rest)) :
    Follows (walkString cs) rest := by
  unfold scanString at read
  unfold walkString
  cases scanned : scanUnits cs with
  | none => simp [scanned] at read
  | some found =>
    obtain ⟨units, rest'⟩ := found
    simp only [scanned, Option.map_eq_some_iff] at read
    obtain ⟨chars, -, same⟩ := read
    exact .inr (congrArg Except.ok (Prod.mk.inj same).2)

theorem follows_walkNumber {v : Value} (read : scanNumber cs = some (v, rest)) :
    Follows (walkNumber digits cs) rest := by
  obtain ⟨⟨l, rest'⟩, scanned, same⟩ := Option.map_eq_some_iff.mp read
  obtain ⟨-, rfl⟩ := Prod.mk.inj same
  unfold walkNumber
  simp only [scanned]
  split
  · exact follows_limited
  · exact follows_ok

mutual

theorem follows_walkValue : ∀ (fuel depth : Nat) {cs rest : List Char} {v : Value},
    scanValue fuel cs = some (v, rest) → Follows (walkValue digits fuel depth cs) rest
  | 0, _, _, _, _, h => by simp [scanValue] at h
  | fuel + 1, depth, cs, rest, v, h => by
    rw [scanValue.eq_def] at h
    dsimp only at h
    split at h
    · obtain ⟨⟨s, rest'⟩, read, same⟩ := Option.map_eq_some_iff.mp h
      obtain ⟨-, rfl⟩ := Prod.mk.inj same
      exact follows_walkString read
    · cases depth with
      | zero => exact follows_limited
      | succ depth =>
        split at h
        · rename_i empty
          obtain ⟨-, rfl⟩ := Prod.mk.inj (Option.some.inj h)
          simpa only [walkValue, behind_next empty] using follows_ok
        · rename_i filled
          obtain ⟨⟨xs, rest'⟩, read, same⟩ := Option.map_eq_some_iff.mp h
          obtain ⟨-, rfl⟩ := Prod.mk.inj same
          simpa only [walkValue, behind_none filled] using follows_walkElements fuel depth read
    · cases depth with
      | zero => exact follows_limited
      | succ depth =>
        split at h
        · rename_i empty
          obtain ⟨-, rfl⟩ := Prod.mk.inj (Option.some.inj h)
          simpa only [walkValue, behind_next empty] using follows_ok
        · rename_i filled
          obtain ⟨⟨items, rest'⟩, read, same⟩ := Option.map_eq_some_iff.mp h
          obtain ⟨-, rfl⟩ := Prod.mk.inj same
          simpa only [walkValue, behind_none filled] using follows_walkItems fuel depth read
    all_goals try exact .inr (congrArg Except.ok (Prod.mk.inj (Option.some.inj h)).2)
    rw [walkValue.eq_def]
    dsimp only
    split <;> first | exact follows_walkNumber h | simp_all

theorem follows_walkElements : ∀ (fuel depth : Nat) {cs rest : List Char} {xs : List Value},
    scanElements fuel cs = some (xs, rest) → Follows (walkElements digits fuel depth cs) rest
  | 0, _, _, _, _, h => by simp [scanElements] at h
  | fuel + 1, depth, cs, rest, xs, h => by
    rw [scanElements.eq_def] at h
    dsimp only at h
    rw [walkElements]
    split at h
    · cases h
    · rename_i x rest' head
      rcases follows_walkValue fuel depth head with limited | walked
      · rw [limited]
        exact follows_limited
      rw [walked, ok_bind]
      split at h
      · rename_i comma
        obtain ⟨⟨more, rest'⟩, read, same⟩ := Option.map_eq_some_iff.mp h
        obtain ⟨-, rfl⟩ := Prod.mk.inj same
        rw [behind_next comma]
        exact follows_walkElements fuel depth read
      · rename_i bracket
        obtain ⟨-, rfl⟩ := Prod.mk.inj (Option.some.inj h)
        rw [behind_other bracket (by decide), behind_next bracket]
        exact follows_ok
      · cases h

theorem follows_walkItems : ∀ (fuel depth : Nat) {cs rest : List Char} {items : List (Key × Value)},
    scanItems fuel cs = some (items, rest) → Follows (walkItems digits fuel depth cs) rest
  | 0, _, _, _, _, h => by simp [scanItems] at h
  | fuel + 1, depth, cs, rest, items, h => by
    rw [scanItems.eq_def] at h
    dsimp only at h
    split at h
    · split at h
      · cases h
      · rename_i k rest' key
        simp only [walkItems]
        rcases follows_walkString key with limited | named
        · rw [limited]
          exact follows_limited
        rw [named, ok_bind]
        split at h
        · rename_i colon
          rw [behind_next colon, orRaise_some, ok_bind]
          split at h
          · cases h
          · rename_i x rest' head
            rcases follows_walkValue fuel depth head with limited | walked
            · rw [limited]
              exact follows_limited
            rw [walked, ok_bind]
            split at h
            · rename_i comma
              obtain ⟨⟨more, rest'⟩, read, same⟩ := Option.map_eq_some_iff.mp h
              obtain ⟨-, rfl⟩ := Prod.mk.inj same
              rw [behind_next comma]
              exact follows_walkItems fuel depth read
            · rename_i brace
              obtain ⟨-, rfl⟩ := Prod.mk.inj (Option.some.inj h)
              rw [behind_other brace (by decide), behind_next brace]
              exact follows_ok
            · cases h
        · cases h
    · cases h

end

theorem walk_of_loads {text : List Char} {v : Value} (read : loads text = some v) (limits : Limits) :
    walk limits text = .error .limited ∨ walk limits text = .ok () := by
  unfold loads at read
  unfold walk
  split at read
  · rename_i rest scanned
    have follows : Follows (walkValue limits.digits _ limits.depth (skipBlanks text)) rest :=
      follows_walkValue _ limits.depth scanned
    rcases follows with limited | walked
    · rw [limited]
      exact .inl rfl
    · rw [walked, ok_bind]
      split at read
      · rename_i ended
        exact .inr (if_pos ended)
      · cases read
  · cases read

theorem exceeds_iff {limits : Limits} {text : List Char} :
    exceeds limits text = true ↔ walk limits text = .error .limited := by
  unfold exceeds
  split
  · simp_all
  · rename_i other
    exact iff_of_false (by simp) other

theorem loading_eq_otherError_iff {limits : Limits} {text : List Char} :
    loading limits text = .otherError ↔ exceeds limits text = true := by
  rw [exceeds_iff]
  unfold loading
  split
  · simp_all
  · simp_all
  · split <;> simp_all

/-- A text that has a value has it within any limits that it does not exceed. -/
theorem loading_of_loads {limits : Limits} {text : List Char} {v : Value} (read : loads text = some v)
    (within : exceeds limits text = false) : loading limits text = .value v := by
  unfold loading
  rcases walk_of_loads read limits with limited | walked
  · rw [exceeds_iff.mpr limited] at within
    cases within
  · rw [walked, read]

theorem loads_of_loading {limits : Limits} {text : List Char} {v : Value}
    (read : loading limits text = .value v) : loads text = some v := by
  unfold loading at read
  split at read
  · cases read
  · cases read
  · split at read
    · rename_i found
      rw [found, Loading.value.inj read]
    · cases read

theorem loads_of_decodeError {limits : Limits} {text : List Char}
    (failed : loading limits text = .decodeError) : loads text = none := by
  cases read : loads text with
  | none => rfl
  | some v =>
    cases within : exceeds limits text with
    | true => cases failed.symm.trans (loading_eq_otherError_iff.mpr within)
    | false => cases failed.symm.trans (loading_of_loads read within)

theorem exceeds_of_loading {limits : Limits} {text : List Char} (ends : loading limits text ≠ .otherError) :
    exceeds limits text = false := by
  rw [← Bool.not_eq_true, ← loading_eq_otherError_iff]
  exact ends

theorem loads_of_foreign {limits : Limits} {text : List Char} {object : Bool}
    (foreign : loading limits text = .foreign object) : loads text = none := by
  unfold loading at foreign
  split at foreign
  · cases foreign
  · cases foreign
  · split at foreign
    · cases foreign
    · assumption

/-- Without a lone surrogate, and within the limits, a text is loaded as `loads` reads it. -/
theorem loading_eq_loads {limits : Limits} {text : List Char} (within : exceeds limits text = false)
    (native : ∀ object, loading limits text ≠ .foreign object) :
    loading limits text = (loads text).elim .decodeError .value := by
  cases ends : loading limits text with
  | value v => rw [loads_of_loading ends, Option.elim_some]
  | decodeError => rw [loads_of_decodeError ends, Option.elim_none]
  | otherError =>
    rw [loading_eq_otherError_iff.mp ends] at within
    cases within
  | foreign object => exact absurd ends (native object)

/-! ### Limits that no part of a text reaches -/

/-- What is left of a text from which a character was taken at least. -/
def Past (rest cs : List Char) : Prop := ∃ c tail, cs = c :: tail ∧ rest <:+ tail

theorem Past.suffix (past : Past rest cs) : rest <:+ cs := by
  obtain ⟨c, tail, rfl, left⟩ := past
  exact left.trans (List.suffix_cons c tail)

theorem Past.length_lt (past : Past rest cs) : rest.length < cs.length := by
  obtain ⟨c, tail, rfl, left⟩ := past
  exact Nat.lt_succ_of_le left.length_le

theorem Past.head (c : Char) (past : Past rest cs) : Past rest (c :: cs) := ⟨c, cs, rfl, past.suffix⟩

theorem length_skipBlanks (cs : List Char) : (skipBlanks cs).length ≤ cs.length :=
  (List.dropWhile_sublist _).length_le

theorem suffix_skipBlanks (cs : List Char) : skipBlanks cs <:+ cs := List.dropWhile_suffix isBlank

theorem past_scanUnits {cs rest : List Char} {units : List Nat}
    (read : scanUnits cs = some (units, rest)) : Past rest cs := by
  fun_induction scanUnits cs generalizing units with
  | case1 => cases read
  | case2 =>
    obtain ⟨-, rfl⟩ := Prod.mk.inj (Option.some.inj read)
    exact ⟨_, _, rfl, List.suffix_rfl⟩
  | case3 a b c e tail unit units' rest' scanned hex ih =>
    obtain ⟨-, rfl⟩ := Prod.mk.inj (Option.some.inj read)
    exact ⟨_, _, rfl, (ih scanned).suffix.trans (List.suffix_append ['u', a, b, c, e] tail)⟩
  | case4 => cases read
  | case5 e tail plain unit units' rest' scanned known ih =>
    obtain ⟨-, rfl⟩ := Prod.mk.inj (Option.some.inj read)
    exact ⟨_, _, rfl, (ih scanned).suffix.trans (List.suffix_cons e tail)⟩
  | case6 => cases read
  | case7 => cases read
  | case8 c tail quote hex escape plain ih =>
    obtain ⟨⟨units', rest'⟩, scanned, same⟩ := Option.map_eq_some_iff.mp read
    obtain ⟨-, rfl⟩ := Prod.mk.inj same
    exact (ih scanned).head c

theorem length_span (p : Char → Bool) (cs : List Char) : (cs.span p).1.length ≤ cs.length := by
  rw [List.span_eq_takeWhile_dropWhile]
  exact (List.takeWhile_sublist _).length_le

theorem suffix_span (p : Char → Bool) (cs : List Char) : (cs.span p).2 <:+ cs := by
  rw [List.span_eq_takeWhile_dropWhile]
  exact List.dropWhile_suffix p

theorem past_scanInt {cs int rest : List Char} (read : scanInt cs = some (int, rest)) :
    int.length ≤ cs.length ∧ Past rest cs := by
  unfold scanInt at read
  split at read
  · cases read
  · rename_i c tail
    split at read
    · obtain ⟨rfl, rfl⟩ := Prod.mk.inj (Option.some.inj read)
      exact ⟨by simp, c, tail, rfl, List.suffix_rfl⟩
    · split at read
      · obtain ⟨rfl, rfl⟩ := Prod.mk.inj (Option.some.inj read)
        exact ⟨Nat.succ_le_succ (length_span _ tail), c, tail, rfl, suffix_span _ tail⟩
      · cases read

theorem suffix_scanFrac (cs : List Char) : (scanFrac cs).2 <:+ cs := by
  unfold scanFrac
  split
  · rename_i rest
    split
    · exact List.suffix_rfl
    · rename_i split
      have left := suffix_span Char.isDigit rest
      rw [split] at left
      exact left.trans (List.suffix_cons _ _)
  · exact List.suffix_rfl

theorem suffix_scanExpDigits (sign : Int) {cs back : List Char} (front : cs <:+ back) :
    (scanExpDigits sign cs back).2 <:+ back := by
  unfold scanExpDigits
  split
  · exact List.suffix_rfl
  · rename_i split
    have left := suffix_span Char.isDigit cs
    rw [split] at left
    exact left.trans front

theorem suffix_scanExp (cs : List Char) : (scanExp cs).2 <:+ cs := by
  unfold scanExp
  split
  · exact List.suffix_rfl
  · rename_i c rest
    split
    · split
      · exact suffix_scanExpDigits _ (List.suffix_append [c, '-'] _)
      · exact suffix_scanExpDigits _ (List.suffix_append [c, '+'] _)
      · exact suffix_scanExpDigits _ (List.suffix_cons c _)
    · exact List.suffix_rfl

theorem past_scanLiteral {l : Literal} (read : scanLiteral cs = some (l, rest)) :
    l.int.length ≤ cs.length ∧ Past rest cs := by
  have unsigned : ∀ {neg : Bool} {cs : List Char} {l : Literal} {rest : List Char},
      scanUnsigned neg cs = some (l, rest) → l.int.length ≤ cs.length ∧ Past rest cs := by
    intro neg cs l rest read
    obtain ⟨⟨int, tail⟩, scanned, same⟩ := Option.map_eq_some_iff.mp read
    obtain ⟨rfl, rfl⟩ := Prod.mk.inj same
    obtain ⟨short, c, behindFirst, rfl, left⟩ := past_scanInt scanned
    exact ⟨short, c, behindFirst, rfl, (suffix_scanExp _).trans ((suffix_scanFrac tail).trans left)⟩
  unfold scanLiteral at read
  split at read
  · have found := unsigned read
    exact ⟨found.1.trans (Nat.le_succ _), found.2.head _⟩
  · exact unsigned read

/-- No limit stops the walk, and it takes a character at least. -/
def Passes (cs : List Char) (w : Except Stop (List Char)) : Prop :=
  w ≠ .error .limited ∧ ∀ rest, w = .ok rest → rest.length < cs.length

theorem passes_walkNumber (small : cs.length ≤ digits) : Passes cs (walkNumber digits cs) := by
  unfold walkNumber
  split
  · exact ⟨by simp, by simp⟩
  · rename_i l rest read
    obtain ⟨short, past⟩ := past_scanLiteral read
    rw [if_neg (by omega)]
    refine ⟨by simp, ?_⟩
    rintro rest' same
    rw [← Except.ok.inj same]
    exact past.length_lt

theorem passes_walkString (c : Char) : Passes (c :: cs) (walkString cs) := by
  unfold walkString
  split
  · exact ⟨by simp, by simp⟩
  · rename_i units rest read
    have shorter := (past_scanUnits read).length_lt
    refine ⟨by simp, ?_⟩
    rintro rest' same
    rw [← Except.ok.inj same, List.length_cons]
    omega

theorem passes_ok (shorter : rest.length < cs.length) : Passes cs (.ok rest) := by
  refine ⟨by simp, ?_⟩
  rintro rest' same
  rw [← Except.ok.inj same]
  exact shorter

theorem passes_malformed : Passes cs (.error .malformed) := ⟨by simp, by simp⟩

theorem Passes.mono {w : Except Stop (List Char)} (passes : Passes rest w)
    (shorter : rest.length ≤ cs.length) : Passes cs w :=
  ⟨passes.1, fun rest' ended => (passes.2 rest' ended).trans_le shorter⟩

theorem Passes.bind {w : Except Stop (List Char)} {f : List Char → Except Stop (List Char)}
    (first : Passes cs w) (second : ∀ rest, rest.length < cs.length → Passes cs (f rest)) :
    Passes cs (w >>= f) := by
  obtain ⟨unlimited, shorter⟩ := first
  cases w with
  | error stop => exact ⟨unlimited, by simp⟩
  | ok rest => exact second rest (shorter rest rfl)

theorem length_behind (found : behind c cs = some rest) : rest.length < cs.length := by
  have skipped := length_skipBlanks cs
  rw [behind_eq_some_iff.mp found] at skipped
  exact skipped

theorem passes_behind (c : Char) (cs : List Char) : Passes cs (orRaise (behind c cs) .malformed) := by
  cases found : behind c cs with
  | none => exact passes_malformed
  | some rest => exact passes_ok (length_behind found)

mutual

theorem passes_walkValue : ∀ (fuel : Nat) {depth : Nat} {cs : List Char}, cs.length ≤ digits →
    cs.length ≤ depth → Passes cs (walkValue digits fuel depth cs)
  | 0, _, _, _, _ => by
    rw [walkValue]
    exact passes_malformed
  | fuel + 1, depth, cs, short, flat => by
    rw [walkValue.eq_def]
    dsimp only
    split
    · exact passes_walkString _
    · rename_i rest
      have skipped := length_skipBlanks rest
      rw [List.length_cons] at short flat
      cases depth with
      | zero => omega
      | succ depth =>
        dsimp only
        split
        · rename_i empty
          exact passes_ok ((length_behind empty).trans (Nat.lt_succ_self _))
        · exact (passes_walkElements fuel (by omega) (by omega)).mono (skipped.trans (Nat.le_succ _))
    · rename_i rest
      have skipped := length_skipBlanks rest
      rw [List.length_cons] at short flat
      cases depth with
      | zero => omega
      | succ depth =>
        dsimp only
        split
        · rename_i empty
          exact passes_ok ((length_behind empty).trans (Nat.lt_succ_self _))
        · exact (passes_walkItems fuel (by omega) (by omega)).mono (skipped.trans (Nat.le_succ _))
    all_goals try exact passes_ok (by simp only [List.length_cons]; omega)
    exact passes_walkNumber short

theorem passes_walkElements : ∀ (fuel : Nat) {depth : Nat} {cs : List Char}, cs.length ≤ digits →
    cs.length ≤ depth → Passes cs (walkElements digits fuel depth cs)
  | 0, _, _, _, _ => by
    rw [walkElements]
    exact passes_malformed
  | fuel + 1, depth, cs, short, flat => by
    rw [walkElements]
    refine (passes_walkValue fuel short flat).bind fun rest shorter => ?_
    split
    · rename_i next comma
      have nearer := length_behind comma
      have skipped := length_skipBlanks next
      exact (passes_walkElements fuel (by omega) (by omega)).mono (by omega)
    · exact (passes_behind ']' rest).mono shorter.le

theorem passes_walkItems : ∀ (fuel : Nat) {depth : Nat} {cs : List Char}, cs.length ≤ digits →
    cs.length ≤ depth → Passes cs (walkItems digits fuel depth cs)
  | 0, _, _, _, _ => by
    rw [walkItems]
    exact passes_malformed
  | fuel + 1, depth, cs, short, flat => by
    rw [walkItems.eq_def]
    dsimp only
    split
    · refine (passes_walkString _).bind fun named shorter => ?_
      refine ((passes_behind ':' named).mono shorter.le).bind fun value less => ?_
      have skipped := length_skipBlanks value
      have inner : Passes (skipBlanks value) (walkValue digits fuel depth (skipBlanks value)) :=
        passes_walkValue fuel (by omega) (by omega)
      refine (inner.mono (by omega)).bind fun rest shorter' => ?_
      split
      · rename_i next comma
        have nearer := length_behind comma
        have skipped' := length_skipBlanks next
        exact (passes_walkItems fuel (by omega) (by omega)).mono (by omega)
      · exact (passes_behind '}' rest).mono shorter'.le
    · exact passes_malformed

end

/-- Limits as large as the text stop nothing. -/
theorem exceeds_ample {limits : Limits} {text : List Char} (digits : text.length ≤ limits.digits)
    (depth : text.length ≤ limits.depth) : exceeds limits text = false := by
  have skipped := length_skipBlanks text
  have passes := passes_walkValue (2 * text.length + 2) (skipped.trans digits) (skipped.trans depth)
  rw [← Bool.not_eq_true, exceeds_iff]
  unfold walk
  cases walked : walkValue limits.digits (2 * text.length + 2) limits.depth (skipBlanks text) with
  | error stop =>
    rw [walked] at passes
    intro limited
    exact passes.1 (congrArg Except.error (Except.error.inj limited))
  | ok rest =>
    rw [ok_bind]
    unfold ensure
    split <;> simp

end BtApiSecurity.Py
