import BtApiSecurity.Py.Json.RoundTrip

/-!
# The lexical structure of JSON

Whether a text is inside a string, and how many brackets are open, read from left
to right. A text that loads closes everything it opens. Therefore the beginning
of an object is no JSON, and it does not become JSON when another object, or the
beginning of one, is written behind it.
-/

namespace BtApiSecurity.Py

inductive LexState where
  | outside (depth : Nat)
  | string (depth : Nat)
  | escape (depth : Nat)
  /-- Behind a string or a bracket, where only a separator or a bracket can follow. -/
  | closed (depth : Nat)
  | wrong
  deriving DecidableEq

namespace LexState

def close : Nat → LexState
  | 0 => .wrong
  | d + 1 => .closed d

def step : LexState → Char → LexState
  | .outside d, c =>
    if c = '"' then .string d
    else if c = '{' ∨ c = '[' then .outside (d + 1)
    else if c = '}' ∨ c = ']' then close d
    else .outside d
  | .string d, c => if c = '"' then .closed d else if c = '\\' then .escape d else .string d
  | .escape d, c => if c = 'u' ∨ (unescape c).isSome = true then .string d else .wrong
  | .closed d, c =>
    if isBlank c then .closed d
    else if c = '}' ∨ c = ']' then close d
    else if (c = ',' ∨ c = ':') ∧ 0 < d then .outside d
    else .wrong
  | .wrong, _ => .wrong

def run (s : LexState) (cs : List Char) : LexState := cs.foldl step s

@[simp] theorem run_nil (s : LexState) : s.run [] = s := rfl

@[simp] theorem run_cons (s : LexState) (c : Char) (cs : List Char) : s.run (c :: cs) = (s.step c).run cs :=
  rfl

theorem run_append (s : LexState) (xs ys : List Char) : s.run (xs ++ ys) = (s.run xs).run ys :=
  List.foldl_append

@[simp] theorem run_wrong (cs : List Char) : run .wrong cs = .wrong := by
  induction cs with
  | nil => rfl
  | cons c cs ih => exact ih

theorem run_dropWhile {s : LexState} {p : Char → Bool} (still : ∀ c, p c = true → s.step c = s)
    (cs : List Char) : s.run (cs.dropWhile p) = s.run cs := by
  induction cs with
  | nil => rfl
  | cons c cs ih =>
    rw [List.dropWhile_cons]
    split
    · rename_i here
      rw [ih, run_cons, still c here]
    · rfl

/-- A value has just ended at this depth. -/
def Ended (d : Nat) (s : LexState) : Prop := s = .outside d ∨ s = .closed d

theorem run_skipBlanks {d : Nat} {s : LexState} (ended : Ended d s) (cs : List Char) :
    s.run (skipBlanks cs) = s.run cs := by
  refine run_dropWhile ?_ cs
  intro c blank
  rcases ended with rfl | rfl
  · simp only [isBlank, Bool.or_eq_true, beq_iff_eq] at blank
    rcases blank with ((rfl | rfl) | rfl) | rfl <;> simp [step]
  · simp [step, blank]

/-! ### Tokens -/

theorem run_digits {d : Nat} (cs : List Char) :
    (outside d).run (cs.dropWhile Char.isDigit) = (outside d).run cs := by
  refine run_dropWhile ?_ cs
  intro c digit
  have ne : ∀ x : Char, x.isDigit = false → c ≠ x := by
    rintro x none rfl
    rw [none] at digit
    cases digit
  simp [step, ne '"' rfl, ne '{' rfl, ne '[' rfl, ne '}' rfl, ne ']' rfl]

theorem run_scanInt {d : Nat} {cs int rest : List Char} (h : scanInt cs = some (int, rest)) :
    (outside d).run cs = (outside d).run rest := by
  unfold scanInt at h
  split at h
  · cases h
  · rename_i c tail
    split at h
    · rename_i zero
      obtain ⟨-, rfl⟩ := Prod.mk.inj (Option.some.inj h)
      rw [zero]
      rfl
    · split at h
      · rename_i digit
        obtain ⟨-, rfl⟩ := Prod.mk.inj (Option.some.inj h)
        have whole := run_digits (d := d) (c :: tail)
        rw [List.dropWhile_cons_of_pos digit] at whole
        rw [List.span_eq_takeWhile_dropWhile, whole]
      · cases h

theorem run_scanFrac {d : Nat} (cs : List Char) :
    (outside d).run (scanFrac cs).2 = (outside d).run cs := by
  unfold scanFrac
  split
  · rename_i rest
    have digits := run_digits (d := d) rest
    rw [List.span_eq_takeWhile_dropWhile]
    split
    · rfl
    · rename_i same
      obtain ⟨-, rfl⟩ := Prod.mk.inj same
      simpa [step] using digits
  · rfl

theorem run_scanExpDigits {d : Nat} {sign : Int} {cs back : List Char}
    (same : (outside d).run cs = (outside d).run back) :
    (outside d).run (scanExpDigits sign cs back).2 = (outside d).run back := by
  unfold scanExpDigits
  rw [List.span_eq_takeWhile_dropWhile]
  split
  · rfl
  · rename_i split
    obtain ⟨-, rfl⟩ := Prod.mk.inj split
    rw [run_digits, same]

theorem run_scanExp {d : Nat} (cs : List Char) :
    (outside d).run (scanExp cs).2 = (outside d).run cs := by
  unfold scanExp
  split
  · rfl
  · rename_i c rest
    split
    · rename_i e
      have skip : (outside d).run (c :: rest) = (outside d).run rest := by
        rcases e with rfl | rfl <;> simp [step]
      split <;> refine run_scanExpDigits ?_
      · simpa [step] using skip.symm
      · simpa [step] using skip.symm
      · exact skip.symm
    · rfl

theorem run_scanNumber {d : Nat} {cs rest : List Char} {v : Value}
    (h : scanNumber cs = some (v, rest)) : (outside d).run cs = (outside d).run rest := by
  have unsigned : ∀ {neg : Bool} {cs : List Char} {l : Literal} {rest : List Char},
      scanUnsigned neg cs = some (l, rest) → (outside d).run cs = (outside d).run rest := by
    intro neg cs l rest h
    obtain ⟨⟨int, tail⟩, read, same⟩ := Option.map_eq_some_iff.mp h
    obtain ⟨-, same⟩ := Prod.mk.inj same
    rw [run_scanInt read, ← run_scanFrac tail, ← run_scanExp (scanFrac tail).2]
    exact congrArg _ same
  obtain ⟨⟨l, tail⟩, read, same⟩ := Option.map_eq_some_iff.mp h
  obtain ⟨-, rfl⟩ := Prod.mk.inj same
  unfold scanLiteral at read
  split at read
  · rw [← unsigned read]
    simp [step]
  · exact unsigned read

theorem run_hex {d : Nat} {c : Char} {n : Nat} (hex : hexVal c = some n) (rest : List Char) :
    (string d).run (c :: rest) = (string d).run rest := by
  have plain : c ≠ '"' ∧ c ≠ '\\' := by
    constructor <;> rintro rfl <;> simp [hexVal] at hex
  simp [step, plain.1, plain.2]

theorem run_unhex4 {d : Nat} {a b c e : Char} {n : Nat} (hex : unhex4 a b c e = some n)
    (rest : List Char) : (string d).run (a :: b :: c :: e :: rest) = (string d).run rest := by
  unfold unhex4 at hex
  split at hex
  · rename_i ha hb hc he
    rw [run_hex ha, run_hex hb, run_hex hc, run_hex he]
  · cases hex

theorem run_escape {d : Nat} {e : Char} (known : e = 'u' ∨ (unescape e).isSome = true)
    (rest : List Char) : (string d).run ('\\' :: e :: rest) = (string d).run rest := by
  simp [step, known]

theorem run_scanUnits {d : Nat} {cs rest : List Char} {units : List Nat}
    (h : scanUnits cs = some (units, rest)) : (string d).run cs = (closed d).run rest := by
  induction cs using scanUnits.induct generalizing units with
  | case1 => cases h
  | case2 rest =>
    obtain ⟨-, rfl⟩ := Prod.mk.inj (Option.some.inj h)
    simp [step]
  | case3 a b c e tail unit units' rest' read hex ih =>
    simp only [scanUnits, hex, read] at h
    obtain ⟨-, rfl⟩ := Prod.mk.inj (Option.some.inj h)
    rw [run_escape (.inl rfl), run_unhex4 hex]
    exact ih read
  | case4 a b c e tail bad ih =>
    simp only [scanUnits] at h
    cases h
  | case5 e tail plain unit units' rest' read known ih =>
    simp only [scanUnits, known, read] at h
    obtain ⟨-, rfl⟩ := Prod.mk.inj (Option.some.inj h)
    rw [run_escape (.inr (by simp [known]))]
    exact ih read
  | case6 e tail plain bad ih =>
    simp only [scanUnits] at h
    cases h
  | case7 c tail quote hex escape control =>
    simp only [scanUnits, control] at h
    cases h
  | case8 c tail quote hex escape plain ih =>
    simp only [scanUnits, plain] at h
    obtain ⟨⟨units', rest'⟩, read, same⟩ := Option.map_eq_some_iff.mp h
    obtain ⟨-, rfl⟩ := Prod.mk.inj same
    rw [not_or] at plain
    rw [run_cons, step, if_neg quote, if_neg plain.1]
    exact ih read

theorem run_scanString {d : Nat} {cs rest : List Char} {s : String}
    (h : scanString cs = some (s, rest)) : (string d).run cs = (closed d).run rest := by
  unfold scanString at h
  split at h
  · cases h
  · rename_i units tail read
    obtain ⟨chars, -, same⟩ := Option.map_eq_some_iff.mp h
    obtain ⟨-, rfl⟩ := Prod.mk.inj same
    exact run_scanUnits read

/-! ### Values -/

theorem run_closing {d : Nat} {s : LexState} (ended : Ended (d + 1) s) {c : Char} (close : c = '}' ∨ c = ']')
    (rest : List Char) : s.run (c :: rest) = (closed d).run rest := by
  rcases ended with rfl | rfl <;> rcases close with rfl | rfl <;> simp [step, isBlank, LexState.close]

theorem run_separator {d : Nat} {s : LexState} (ended : Ended (d + 1) s) {c : Char}
    (separates : c = ',' ∨ c = ':') (rest : List Char) :
    s.run (c :: rest) = (outside (d + 1)).run rest := by
  rcases ended with rfl | rfl <;> rcases separates with rfl | rfl <;> simp [step, isBlank]

mutual

theorem run_scanValue : ∀ (fuel : Nat) {cs rest : List Char} {v : Value} (d : Nat),
    scanValue fuel cs = some (v, rest) →
      ∃ s, Ended d s ∧ (outside d).run cs = s.run rest
  | 0, _, _, _, _, h => by simp [scanValue] at h
  | fuel + 1, cs, rest, v, d, h => by
    rw [scanValue.eq_def] at h
    dsimp only at h
    split at h
    · obtain ⟨⟨s, rest'⟩, read, same⟩ := Option.map_eq_some_iff.mp h
      obtain ⟨-, rfl⟩ := Prod.mk.inj same
      exact ⟨_, .inr rfl, run_scanString read⟩
    · rename_i inner
      have skip := run_skipBlanks (.inl rfl : Ended (d + 1) (outside (d + 1))) inner
      refine ⟨_, .inr rfl, skip.symm.trans ?_⟩
      split at h
      · rename_i empty
        obtain ⟨-, rfl⟩ := Prod.mk.inj (Option.some.inj h)
        rw [empty]
        exact run_closing (.inl rfl) (.inr rfl) _
      · obtain ⟨⟨xs, rest'⟩, scanned, same⟩ := Option.map_eq_some_iff.mp h
        obtain ⟨-, rfl⟩ := Prod.mk.inj same
        exact run_scanElements fuel d scanned
    · rename_i inner
      have skip := run_skipBlanks (.inl rfl : Ended (d + 1) (outside (d + 1))) inner
      refine ⟨_, .inr rfl, skip.symm.trans ?_⟩
      split at h
      · rename_i empty
        obtain ⟨-, rfl⟩ := Prod.mk.inj (Option.some.inj h)
        rw [empty]
        exact run_closing (.inl rfl) (.inl rfl) _
      · obtain ⟨⟨xs, rest'⟩, scanned, same⟩ := Option.map_eq_some_iff.mp h
        obtain ⟨-, rfl⟩ := Prod.mk.inj same
        exact run_scanItems fuel d scanned
    all_goals first
      | exact ⟨_, .inl rfl, run_scanNumber h⟩
      | obtain ⟨-, rfl⟩ := Prod.mk.inj (Option.some.inj h)
        exact ⟨_, .inl rfl, by simp [step]⟩

theorem run_scanElements : ∀ (fuel : Nat) {cs rest : List Char} {xs : List Value} (d : Nat),
    scanElements fuel cs = some (xs, rest) → (outside (d + 1)).run cs = (closed d).run rest
  | 0, _, _, _, _, h => by simp [scanElements] at h
  | fuel + 1, cs, rest, xs, d, h => by
    rw [scanElements.eq_def] at h
    dsimp only at h
    split at h
    · cases h
    · rename_i x rest' head
      obtain ⟨s, ended, here⟩ := run_scanValue fuel (d + 1) head
      rw [here, ← run_skipBlanks ended]
      split at h
      · rename_i tail separated
        obtain ⟨⟨more, _⟩, scanned, same⟩ := Option.map_eq_some_iff.mp h
        obtain ⟨-, rfl⟩ := Prod.mk.inj same
        rw [separated, run_separator ended (.inl rfl), ← run_skipBlanks (.inl rfl)]
        exact run_scanElements fuel d scanned
      · rename_i tail closes
        obtain ⟨-, rfl⟩ := Prod.mk.inj (Option.some.inj h)
        rw [closes]
        exact run_closing ended (.inr rfl) _
      · cases h

theorem run_scanItems : ∀ (fuel : Nat) {cs rest : List Char} {items : List (Key × Value)} (d : Nat),
    scanItems fuel cs = some (items, rest) → (outside (d + 1)).run cs = (closed d).run rest
  | 0, _, _, _, _, h => by simp [scanItems] at h
  | fuel + 1, cs, rest, items, d, h => by
    rw [scanItems.eq_def] at h
    dsimp only at h
    split at h
    · split at h
      · cases h
      · rename_i k rest' key
        have here : ∀ tail, (outside (d + 1)).run ('"' :: tail) = (string (d + 1)).run tail :=
          fun _ => rfl
        rw [here, run_scanString key, ← run_skipBlanks (.inr rfl)]
        split at h
        · rename_i tail separated
          rw [separated, run_separator (.inr rfl) (.inr rfl), ← run_skipBlanks (.inl rfl)]
          split at h
          · cases h
          · rename_i x rest' head
            obtain ⟨s, ended, here⟩ := run_scanValue fuel (d + 1) head
            rw [here, ← run_skipBlanks ended]
            split at h
            · rename_i tail separated
              obtain ⟨⟨more, _⟩, scanned, same⟩ := Option.map_eq_some_iff.mp h
              obtain ⟨-, rfl⟩ := Prod.mk.inj same
              rw [separated, run_separator ended (.inl rfl), ← run_skipBlanks (.inl rfl)]
              exact run_scanItems fuel d scanned
            · rename_i tail closes
              obtain ⟨-, rfl⟩ := Prod.mk.inj (Option.some.inj h)
              rw [closes]
              exact run_closing ended (.inl rfl) _
            · cases h
        · cases h
    · cases h

end

/-- A text that loads ends where it began, outside everything. -/
theorem ended_of_loads {text : List Char} {v : Value} (h : loads text = some v) :
    Ended 0 ((outside 0).run text) := by
  unfold loads at h
  split at h
  · rename_i rest scanned
    split at h
    · rename_i blank
      obtain ⟨s, ended, here⟩ := run_scanValue _ 0 scanned
      rw [← run_skipBlanks (.inl rfl), here, ← run_skipBlanks ended, blank]
      exact ended
    · cases h
  · cases h

/-! ### Beginnings of objects -/

/-- Inside some bracket. -/
def Deep : LexState → Prop
  | .outside d | .string d | .escape d | .closed d => 0 < d
  | .wrong => False

/-- What can become of a position inside the outermost bracket. -/
def Inner (s : LexState) : Prop := s.Deep ∨ s = .closed 0 ∨ s = .wrong

theorem inner_close {d : Nat} (deep : 0 < d) : (close d).Inner := by
  obtain ⟨d, rfl⟩ : ∃ e, d = e + 1 := ⟨d - 1, by omega⟩
  rcases Nat.eq_zero_or_pos d with rfl | more
  · exact .inr (.inl rfl)
  · exact .inl more

theorem inner_step {s : LexState} (inner : s.Inner) (c : Char) : (s.step c).Inner := by
  rcases inner with deep | rfl | rfl
  · cases s with
    | outside d =>
      rw [step]
      split
      · exact .inl deep
      · split
        · exact .inl (Nat.succ_pos d)
        · split
          · exact inner_close deep
          · exact .inl deep
    | string d =>
      rw [step]
      split
      · exact .inl deep
      · split <;> exact .inl deep
    | escape d =>
      rw [step]
      split
      · exact .inl deep
      · exact .inr (.inr rfl)
    | closed d =>
      rw [step]
      split
      · exact .inl deep
      · split
        · exact inner_close deep
        · split
          · exact .inl deep
          · exact .inr (.inr rfl)
    | wrong => exact .inr (.inr rfl)
  · by_cases blank : isBlank c = true <;> simp [step, blank, close, Inner]
  · exact .inr (.inr rfl)

theorem inner_run {s : LexState} (inner : s.Inner) (cs : List Char) : (s.run cs).Inner := by
  induction cs generalizing s with
  | nil => exact inner
  | cons c cs ih => exact ih (inner_step inner c)

theorem run_closed {cs : List Char} (ends : (closed 0).run cs = .closed 0) :
    ∀ c ∈ cs, isBlank c = true := by
  induction cs with
  | nil => simp
  | cons c cs ih =>
    by_cases blank : isBlank c = true
    · rw [run_cons, step, if_pos blank] at ends
      exact List.forall_mem_cons.mpr ⟨blank, ih ends⟩
    · have wrong : (closed 0).step c = .wrong := by simp [step, blank, close]
      rw [run_cons, wrong, run_wrong] at ends
      cases ends

/-- The same text further inside. -/
def shift (k : Nat) : LexState → LexState
  | .outside d => .outside (d + k)
  | .string d => .string (d + k)
  | .escape d => .escape (d + k)
  | .closed d => .closed (d + k)
  | .wrong => .wrong

theorem shift_close {k d : Nat} (fine : close d ≠ .wrong) : close (d + k) = (close d).shift k := by
  cases d with
  | zero => exact absurd rfl fine
  | succ d =>
    rw [Nat.add_right_comm]
    rfl

theorem shift_step {k : Nat} {s : LexState} {c : Char} (fine : s.step c ≠ .wrong) :
    (s.shift k).step c = (s.step c).shift k := by
  cases s with
  | outside d =>
    rw [step] at fine
    rw [shift, step, step]
    split
    · rfl
    · rename_i quote
      rw [if_neg quote] at fine
      split
      · rw [Nat.add_right_comm]
        rfl
      · rename_i opens
        rw [if_neg opens] at fine
        split
        · rename_i closes
          rw [if_pos closes] at fine
          exact shift_close fine
        · rfl
  | string d =>
    rw [shift, step, step]
    split
    · rfl
    · split <;> rfl
  | escape d =>
    rw [shift, step, step]
    split <;> rfl
  | closed d =>
    rw [step] at fine
    rw [shift, step, step]
    split
    · rfl
    · rename_i solid
      rw [if_neg solid] at fine
      split
      · rename_i closes
        rw [if_pos closes] at fine
        exact shift_close fine
      · rename_i closes
        rw [if_neg closes] at fine
        by_cases separates : (c = ',' ∨ c = ':') ∧ 0 < d
        · rw [if_pos separates, if_pos ⟨separates.1, by omega⟩]
          rfl
        · rw [if_neg separates] at fine
          exact absurd rfl fine
  | wrong => rfl

theorem shift_run (k : Nat) {s : LexState} {cs : List Char} (fine : s.run cs ≠ .wrong) :
    (s.shift k).run cs = (s.run cs).shift k := by
  induction cs generalizing s with
  | nil => rfl
  | cons c cs ih =>
    have here : s.step c ≠ .wrong := by
      intro wrong
      rw [run_cons, wrong, run_wrong] at fine
      exact fine rfl
    rw [run_cons, run_cons, shift_step here]
    exact ih fine

end LexState

/-- A text that opens an object with a string and closes it at the very end. -/
structure ObjectText (t : List Char) : Prop where
  head : ∃ k rest, t = '{' :: '"' :: k :: rest ∧ ∀ d, (LexState.closed d).step k = .wrong
  ends : (LexState.outside 0).run t = .closed 0
  last : ∀ c ∈ t.getLast?, isBlank c = false
  printable : Printable t

namespace ObjectText

open LexState

variable {t p : List Char}

theorem run_prefix (whole : ObjectText t) (begins : p <+: t) (solid : p ≠ []) :
    p = t ∨ ((outside 0).run p).Deep := by
  obtain ⟨q, rfl⟩ := begins
  obtain ⟨k, rest, shape, -⟩ := whole.head
  obtain ⟨c, p, rfl⟩ := List.exists_cons_of_ne_nil solid
  obtain rfl : c = '{' := (List.cons.inj shape).1
  have inner : ((outside 0).run ('{' :: p)).Inner := inner_run (s := outside 1) (.inl Nat.one_pos) p
  have ends := whole.ends
  rw [run_append] at ends
  rcases inner with deep | closed | wrong
  · exact .inr deep
  · rw [closed] at ends
    have blanks := run_closed ends
    cases last : q.getLast? with
    | none =>
      left
      rw [List.getLast?_eq_none_iff.mp last, List.append_nil]
    | some c =>
      have solid := whole.last c (by rw [List.getLast?_append, last]; rfl)
      rw [blanks c (List.mem_of_getLast? last)] at solid
      cases solid
  · rw [wrong, run_wrong] at ends
    cases ends

theorem run_fine (whole : ObjectText t) (begins : p <+: t) (solid : p ≠ []) :
    ((outside 0).run p).Deep ∨ (outside 0).run p = .closed 0 := by
  rcases whole.run_prefix begins solid with rfl | deep
  · exact .inr whole.ends
  · exact .inl deep

/-- The first characters of what begins an object. -/
theorem prefix_cases (whole : ObjectText t) (begins : p <+: t) (solid : p ≠ []) :
    p = ['{'] ∨ p = ['{', '"'] ∨
      ∃ k rest, p = '{' :: '"' :: k :: rest ∧ ∀ d, (closed d).step k = .wrong := by
  obtain ⟨k, rest, rfl, ends⟩ := whole.head
  rcases p with _ | ⟨c, _ | ⟨c', _ | ⟨c'', p⟩⟩⟩
  · exact absurd rfl solid
  · rw [List.cons_prefix_cons] at begins
    exact .inl (by rw [begins.1])
  · rw [List.cons_prefix_cons, List.cons_prefix_cons] at begins
    exact .inr (.inl (by rw [begins.1, begins.2.1]))
  · rw [List.cons_prefix_cons, List.cons_prefix_cons, List.cons_prefix_cons] at begins
    obtain ⟨rfl, rfl, rfl, -⟩ := begins
    exact .inr (.inr ⟨c'', p, rfl, ends⟩)

/-- Behind an unfinished object nothing that begins an object leads out again. -/
theorem run_behind (whole : ObjectText t) (begins : p <+: t) (solid : p ≠ []) {s : LexState}
    (deep : s.Deep) : (s.run p).Deep ∨ s.run p = .wrong := by
  cases s with
  | outside d =>
    have fine := whole.run_fine begins solid
    have inside : (outside d).run p = ((outside 0).run p).shift d := by
      have moved := shift_run d (by
        rcases fine with deep | closed
        · intro wrong
          rw [wrong] at deep
          exact deep
        · rw [closed]
          exact LexState.noConfusion : (outside 0).run p ≠ .wrong)
      rwa [shift, Nat.zero_add] at moved
    left
    rw [inside]
    have positive : 0 < d := deep
    cases place : (outside 0).run p with
    | wrong => simp [place, Deep] at fine
    | _ => exact Nat.add_pos_right _ positive
  | string d =>
    rcases whole.prefix_cases begins solid with rfl | rfl | ⟨k, rest, rfl, stops⟩
    · exact .inl deep
    · exact .inl deep
    · right
      have opened : (string d).run ('{' :: '"' :: k :: rest) = ((closed d).step k).run rest := rfl
      rw [opened, stops d, run_wrong]
  | escape d =>
    right
    obtain ⟨rest, rfl⟩ : ∃ rest, p = '{' :: rest := by
      rcases whole.prefix_cases begins solid with rfl | rfl | ⟨k, rest, rfl, -⟩ <;> exact ⟨_, rfl⟩
    exact run_wrong rest
  | closed d =>
    right
    obtain ⟨rest, rfl⟩ : ∃ rest, p = '{' :: rest := by
      rcases whole.prefix_cases begins solid with rfl | rfl | ⟨k, rest, rfl, -⟩ <;> exact ⟨_, rfl⟩
    exact run_wrong rest
  | wrong => exact absurd deep id

theorem run_behind_whole (whole : ObjectText t) (begins : p <+: t) (solid : p ≠ []) :
    (closed 0).run p = .wrong := by
  obtain ⟨rest, rfl⟩ : ∃ rest, p = '{' :: rest := by
    rcases whole.prefix_cases begins solid with rfl | rfl | ⟨k, rest, rfl, -⟩ <;> exact ⟨_, rfl⟩
  exact run_wrong rest

/-! ### Several of them in a row -/

/-- A text that begins an object, with at least one character. -/
def Begins (p : List Char) : Prop := p ≠ [] ∧ ∃ t, ObjectText t ∧ p <+: t

theorem run_beginnings {ps : List (List Char)} (each : ∀ p ∈ ps, Begins p) {s : LexState}
    (deep : s.Deep) : (s.run ps.flatten).Deep ∨ s.run ps.flatten = .wrong := by
  induction ps generalizing s with
  | nil => exact .inl deep
  | cons p ps ih =>
    obtain ⟨⟨solid, t, whole, begins⟩, rest⟩ := List.forall_mem_cons.mp each
    rw [List.flatten_cons, run_append]
    rcases whole.run_behind begins solid deep with deep | wrong
    · exact ih rest deep
    · rw [wrong, run_wrong]
      exact .inr rfl

/-- Beginnings of objects in a row end outside everything only where there is one, a whole object. -/
theorem whole_of_ended {p : List Char} {ps : List (List Char)} (each : ∀ q ∈ p :: ps, Begins q)
    (ended : Ended 0 ((outside 0).run (p :: ps).flatten)) : ObjectText p ∧ ps = [] := by
  have unfinished : ∀ s : LexState, s.Deep ∨ s = .wrong → ¬Ended 0 s := by
    rintro s (deep | rfl) ended
    · rcases ended with rfl | rfl <;> exact absurd deep (Nat.lt_irrefl 0)
    · rcases ended with wrong | wrong <;> cases wrong
  obtain ⟨⟨solid, t, whole, begins⟩, rest⟩ := List.forall_mem_cons.mp each
  rw [List.flatten_cons, run_append] at ended
  rcases whole.run_prefix begins solid with rfl | deep
  · refine ⟨whole, ?_⟩
    rw [whole.ends] at ended
    rcases ps with _ | ⟨q, qs⟩
    · rfl
    · obtain ⟨⟨solid, t, whole, begins⟩, -⟩ := List.forall_mem_cons.mp rest
      rw [List.flatten_cons, run_append, whole.run_behind_whole begins solid, run_wrong] at ended
      exact absurd ended (unfinished _ (.inr rfl))
  · exact absurd ended (unfinished _ (run_beginnings rest deep))

theorem run_blanks {d : Nat} {s : LexState} (ended : Ended d s) {cs : List Char}
    (blank : ∀ c ∈ cs, isBlank c = true) : s.run cs = s := by
  have skipped := run_skipBlanks ended cs
  rw [skipBlanks, List.dropWhile_eq_nil_iff.mpr blank] at skipped
  exact skipped.symm

theorem blank_of_space {c : Char} (printable : 32 ≤ c.toNat ∧ c.toNat ≤ 126)
    (space : isSpace c = true) : isBlank c = true := by
  have here : c.toNat = 32 := by
    simp [isSpace] at space
    omega
  have blank : c = ' ' := Char.ext (UInt32.toNat_inj.mp here)
  rw [blank]
  rfl

theorem run_stripChars {cs : List Char} (printable : Printable cs)
    (ended : Ended 0 ((outside 0).run (stripChars cs))) : Ended 0 ((outside 0).run cs) := by
  obtain ⟨front, back, whole, before, behind⟩ := exists_stripChars cs
  have blank : ∀ c ∈ cs, isSpace c = true → isBlank c = true :=
    fun c h => blank_of_space (printable c h)
  have blankFront : ∀ c ∈ front, isBlank c = true :=
    fun c h => blank c (by rw [whole]; simp [h]) (before c h)
  have blankBack : ∀ c ∈ back, isBlank c = true :=
    fun c h => blank c (by rw [whole]; simp [h]) (behind c h)
  rw [whole, run_append, run_append, run_blanks (.inl rfl) blankFront, run_blanks ended blankBack]
  exact ended

/-- Beginnings of objects in a row load only where they are one whole object. -/
theorem whole_of_loads {ps : List (List Char)} (each : ∀ p ∈ ps, Begins p) {v : Value}
    (loaded : loads (stripChars ps.flatten) = some v) : ∃ t, ObjectText t ∧ ps = [t] := by
  rcases ps with _ | ⟨p, ps⟩
  · cases loaded
  · have printable : Printable (p :: ps).flatten := by
      intro c h
      obtain ⟨q, mem, here⟩ := List.mem_flatten.mp h
      obtain ⟨-, t, whole, begins⟩ := each q mem
      exact whole.printable c (begins.subset here)
    obtain ⟨whole, rfl⟩ := whole_of_ended each (run_stripChars printable (ended_of_loads loaded))
    exact ⟨p, whole, rfl⟩

/-! ### Dumped records -/

theorem dumps_record_cons (name : String) (v : Value) (fields : List (String × Value)) :
    ∃ rest, dumps (.record ((name, v) :: fields)) =
      '{' :: '"' :: (name.toList.flatMap escapeChar ++ rest) := by
  refine ⟨'"' :: (':' :: ' ' :: (v.render compact 1 ++ renderItems compact 1
    (fields.map fun field => (.str field.1, field.2)) ++ ['}'])), ?_⟩
  simp [dumps, Value.record, Value.render, Layout.newline, compact, quote, Key.chars]

theorem objectText_dumps {name : String} {v : Value} {fields : List (String × Value)} {k : Char}
    {cs : List Char} (first : name.toList.flatMap escapeChar = k :: cs)
    (stops : ∀ d, (closed d).step k = .wrong) : ObjectText (dumps (.record ((name, v) :: fields))) := by
  obtain ⟨rest, shape⟩ := dumps_record_cons name v fields
  have ended := ended_of_loads (loads_dumps_image (.record ((name, v) :: fields)))
  refine ⟨⟨k, cs ++ rest, by rw [shape, first]; rfl, stops⟩, ?_, ?_, printable_render 0 _⟩
  · have inner : ((outside 0).run (dumps (.record ((name, v) :: fields)))).Inner := by
      rw [shape]
      exact inner_run (s := outside 1) (.inl Nat.one_pos) _
    rcases ended with outer | closed
    · rw [outer] at inner
      rcases inner with deep | closed | wrong
      · exact absurd deep (Nat.lt_irrefl 0)
      · cases closed
      · cases wrong
    · exact closed
  · intro c last
    have solid := (trimmed_dumps_dict _).2 c last
    by_contra blank
    simp only [isBlank, Bool.not_eq_false, Bool.or_eq_true, beq_iff_eq] at blank
    rcases blank with ((rfl | rfl) | rfl) | rfl <;> cases solid

end ObjectText

end BtApiSecurity.Py
