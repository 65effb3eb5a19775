import Mathlib.Algebra.Order.Field.Rat
import Mathlib.Data.List.DropRight
import Mathlib.Data.Nat.Digits.Lemmas

/-!
# Numbers as text

`int.__repr__` and `float.__repr__`, and the scanner that reads both back.

A float is kept as the decimal its `repr` shows: a sign, the significant digits
and the place of the decimal point. Every double has one such decimal, and
different doubles have different ones; literals are read without rounding.
-/

namespace BtApiSecurity.Py

/-! ### Natural numbers and integers -/

def charVal (c : Char) : Nat := c.toNat - 48

def charsNat (cs : List Char) : Nat := cs.foldl (fun acc c => 10 * acc + charVal c) 0

def natChars (n : Nat) : List Char :=
  if n = 0 then ['0'] else (Nat.digits 10 n).reverse.map Nat.digitChar

def intChars (i : Int) : List Char :=
  if i < 0 then '-' :: natChars i.natAbs else natChars i.natAbs

/-- `str(i)`. -/
def intText (i : Int) : String := String.ofList (intChars i)

/-- `int(x)` rounds towards zero. -/
def truncate (x : Rat) : Int := x.num.tdiv x.den

theorem charVal_digitChar : ∀ d, d < 10 → charVal (Nat.digitChar d) = d := by decide

theorem isDigit_digitChar : ∀ d, d < 10 → (Nat.digitChar d).isDigit = true := by decide

theorem digitChar_ne_zero : ∀ d, d < 10 → d ≠ 0 → Nat.digitChar d ≠ '0' := by decide

theorem charsNat_digits {ds : List Nat} (small : ∀ d ∈ ds, d < 10) :
    charsNat (ds.reverse.map Nat.digitChar) = Nat.ofDigits 10 ds := by
  induction ds with
  | nil => rfl
  | cons d ds ih =>
    have rest := ih (fun x hx => small x (by simp [hx]))
    simp only [charsNat, List.reverse_cons, List.map_append, List.foldl_append] at rest ⊢
    rw [rest]
    simp [Nat.ofDigits_cons, charVal_digitChar d (small d (by simp)), Nat.add_comm]

theorem charsNat_natChars (n : Nat) : charsNat (natChars n) = n := by
  unfold natChars
  split
  · subst n; rfl
  · rw [charsNat_digits (fun d hd => Nat.digits_lt_base (by decide) hd), Nat.ofDigits_digits]

theorem isDigit_natChars (n : Nat) : ∀ c ∈ natChars n, c.isDigit = true := by
  unfold natChars
  split
  · simp
  · intro c hc
    obtain ⟨d, hd, rfl⟩ := List.mem_map.mp hc
    exact isDigit_digitChar d (Nat.digits_lt_base (by decide) (List.mem_reverse.mp hd))

theorem natChars_injective : Function.Injective natChars := fun m n same => by
  rw [← charsNat_natChars m, same, charsNat_natChars]

theorem minus_natChars (n m : Nat) : '-' :: natChars n ≠ natChars m := by
  intro same
  have digit := isDigit_natChars m '-' (by rw [← same]; exact List.mem_cons_self)
  revert digit
  decide

theorem intChars_injective : Function.Injective intChars := by
  intro i j same
  unfold intChars at same
  split at same
  · split at same
    · have size := natChars_injective (List.cons.inj same).2
      omega
    · exact absurd same (minus_natChars _ _)
  · split at same
    · exact absurd same.symm (minus_natChars _ _)
    · have size := natChars_injective same
      omega

theorem intText_injective : Function.Injective intText := fun _ _ same =>
  intChars_injective (String.ofList_injective same)

def Leading (cs : List Char) : Prop :=
  cs = ['0'] ∨ ∃ c rest, cs = c :: rest ∧ c.isDigit = true ∧ c ≠ '0'

theorem leading_natChars (n : Nat) : Leading (natChars n) := by
  unfold natChars
  split
  · exact Or.inl rfl
  · rename_i positive
    have nonempty : Nat.digits 10 n ≠ [] := Nat.digits_ne_nil_iff_ne_zero.mpr positive
    have last := Nat.getLast_digit_ne_zero 10 positive
    have small : (Nat.digits 10 n).getLast nonempty < 10 :=
      Nat.digits_lt_base (by decide) (List.getLast_mem nonempty)
    refine Or.inr ⟨Nat.digitChar ((Nat.digits 10 n).getLast nonempty),
      ((Nat.digits 10 n).dropLast).reverse.map Nat.digitChar, ?_, isDigit_digitChar _ small,
      digitChar_ne_zero _ small last⟩
    conv_lhs => rw [← List.dropLast_append_getLast nonempty]
    simp

/-! ### Literals -/

structure Literal where
  neg : Bool
  int : List Char
  frac : List Char
  exp : Option Int

/-- The exponent with its sign and at least two digits. -/
def expChars (e : Int) : List Char :=
  (if e < 0 then '-' else '+') ::
    (if e.natAbs < 10 then '0' :: natChars e.natAbs else natChars e.natAbs)

def Literal.chars (l : Literal) : List Char :=
  (if l.neg then ['-'] else []) ++ l.int ++ (if l.frac = [] then [] else '.' :: l.frac) ++
    match l.exp with
    | none => []
    | some e => 'e' :: expChars e

def scanInt : List Char → Option (List Char × List Char)
  | [] => none
  | c :: rest =>
    if c = '0' then some (['0'], rest)
    else if c.isDigit then some (c :: (rest.span Char.isDigit).1, (rest.span Char.isDigit).2)
    else none

def scanFrac : List Char → List Char × List Char
  | '.' :: rest =>
    match rest.span Char.isDigit with
    | ([], _) => ([], '.' :: rest)
    | (digits, rest') => (digits, rest')
  | cs => ([], cs)

def scanExpDigits (sign : Int) (cs back : List Char) : Option Int × List Char :=
  match cs.span Char.isDigit with
  | ([], _) => (none, back)
  | (digits, rest) => (some (sign * charsNat digits), rest)

def scanExp : List Char → Option Int × List Char
  | [] => (none, [])
  | c :: rest =>
    if c = 'e' ∨ c = 'E' then
      match rest with
      | '-' :: cs => scanExpDigits (-1) cs (c :: rest)
      | '+' :: cs => scanExpDigits 1 cs (c :: rest)
      | cs => scanExpDigits 1 cs (c :: rest)
    else (none, c :: rest)

def scanUnsigned (neg : Bool) (cs : List Char) : Option (Literal × List Char) :=
  (scanInt cs).map fun (int, rest) =>
    let (frac, rest) := scanFrac rest
    let (exp, rest) := scanExp rest
    (⟨neg, int, frac, exp⟩, rest)

def scanLiteral : List Char → Option (Literal × List Char)
  | '-' :: cs => scanUnsigned true cs
  | cs => scanUnsigned false cs

def NumberEnd (cs : List Char) : Prop :=
  ∀ c ∈ cs.head?, c.isDigit = false ∧ c ≠ '.' ∧ c ≠ 'e' ∧ c ≠ 'E'

/-- Literals as `repr` writes them. -/
structure Literal.WellFormed (l : Literal) : Prop where
  leading : Leading l.int
  digits : ∀ c ∈ l.int, c.isDigit = true
  fracDigits : ∀ c ∈ l.frac, c.isDigit = true

theorem span_digits {ds rest : List Char} (digits : ∀ c ∈ ds, c.isDigit = true)
    (stop : ∀ c ∈ rest.head?, c.isDigit = false) :
    (ds ++ rest).span Char.isDigit = (ds, rest) := by
  rw [List.span_eq_takeWhile_dropWhile]
  have front : rest.takeWhile Char.isDigit = [] ∧ rest.dropWhile Char.isDigit = rest := by
    cases rest with
    | nil => simp
    | cons c cs => simp [stop c (by simp)]
  rw [List.takeWhile_append_of_pos digits, List.dropWhile_append_of_pos digits, front.1, front.2,
    List.append_nil]

theorem scanInt_append {int rest : List Char} (leading : Leading int)
    (digits : ∀ c ∈ int, c.isDigit = true) (stop : ∀ c ∈ rest.head?, c.isDigit = false) :
    scanInt (int ++ rest) = some (int, rest) := by
  rcases leading with rfl | ⟨c, cs, rfl, digit, nonzero⟩
  · rfl
  · have tail := span_digits (fun d hd => digits d (List.mem_cons_of_mem _ hd)) stop
    rw [List.span_eq_takeWhile_dropWhile, Prod.mk.injEq] at tail
    simp [scanInt, nonzero, digit, tail.1, tail.2]

theorem scanFrac_append {frac rest : List Char} (digits : ∀ c ∈ frac, c.isDigit = true)
    (stop : ∀ c ∈ rest.head?, c.isDigit = false ∧ c ≠ '.') :
    scanFrac ((if frac = [] then [] else '.' :: frac) ++ rest) = (frac, rest) := by
  cases frac with
  | nil =>
    rw [if_pos rfl, List.nil_append]
    unfold scanFrac
    split
    · exact absurd rfl (stop '.' (by simp)).2
    · rfl
  | cons c cs =>
    simp only [reduceCtorEq, if_false, List.cons_append, scanFrac]
    rw [← List.cons_append, span_digits digits (fun d hd => (stop d hd).1)]

theorem scanExp_none {rest : List Char} (stop : ∀ c ∈ rest.head?, c ≠ 'e' ∧ c ≠ 'E') :
    scanExp rest = (none, rest) := by
  cases rest with
  | nil => rfl
  | cons c cs =>
    have := stop c (by simp)
    simp [scanExp, this.1, this.2]

theorem scanExpDigits_append (sign : Int) (n : Nat) (rest back : List Char)
    (stop : ∀ c ∈ rest.head?, c.isDigit = false) :
    scanExpDigits sign ((if n < 10 then '0' :: natChars n else natChars n) ++ rest) back =
      (some (sign * n), rest) := by
  have digits : ∀ c ∈ (if n < 10 then '0' :: natChars n else natChars n), c.isDigit = true := by
    intro c hc
    split at hc
    · rcases List.mem_cons.mp hc with rfl | hc
      · rfl
      · exact isDigit_natChars n c hc
    · exact isDigit_natChars n c hc
  have value : charsNat (if n < 10 then '0' :: natChars n else natChars n) = n := by
    split
    · exact charsNat_natChars n
    · exact charsNat_natChars n
  unfold scanExpDigits
  rw [span_digits digits stop]
  split
  · rename_i empty
    have : natChars n ≠ [] := by
      rcases leading_natChars n with h | ⟨c, cs, h, -⟩ <;> simp [h]
    simp only [Prod.mk.injEq] at empty
    split at empty <;> simp_all
  · rename_i same
    obtain ⟨rfl, rfl⟩ := Prod.mk.inj same
    rw [value]

theorem scanExp_append (e : Int) {rest : List Char} (stop : ∀ c ∈ rest.head?, c.isDigit = false) :
    scanExp ('e' :: expChars e ++ rest) = (some e, rest) := by
  unfold expChars
  by_cases neg : e < 0
  · simp only [scanExp, neg, if_true, List.cons_append, true_or]
    rw [scanExpDigits_append _ _ _ _ stop]
    congr 2; omega
  · simp only [scanExp, neg, if_false, if_true, List.cons_append, true_or]
    rw [scanExpDigits_append _ _ _ _ stop]
    congr 2; omega

theorem scanLiteral_chars {l : Literal} (ok : l.WellFormed) {rest : List Char}
    (stop : NumberEnd rest) : scanLiteral (l.chars ++ rest) = some (l, rest) := by
  obtain ⟨neg, int, frac, exp⟩ := l
  obtain ⟨leading, digits, fracDigits⟩ := ok
  dsimp only at leading digits fracDigits
  obtain ⟨tail, htail⟩ : ∃ tail, tail = (match exp with
      | none => []
      | some e => 'e' :: expChars e) ++ rest := ⟨_, rfl⟩
  have tailExp : scanExp tail = (exp, rest) := by
    cases exp with
    | none => rw [htail]; exact scanExp_none fun c hc => (stop c hc).2.2
    | some e => rw [htail]; exact scanExp_append e fun c hc => (stop c hc).1
  have tailStop : ∀ c ∈ tail.head?, c.isDigit = false ∧ c ≠ '.' := by
    intro c hc
    cases exp with
    | none => rw [htail] at hc; exact ⟨(stop c hc).1, (stop c hc).2.1⟩
    | some e =>
      rw [htail] at hc
      simp only [List.cons_append, List.head?_cons, Option.mem_some_iff] at hc
      subst hc
      decide
  have unsigned : scanUnsigned neg (int ++ ((if frac = [] then [] else '.' :: frac) ++ tail)) =
      some (⟨neg, int, frac, exp⟩, rest) := by
    have intStop : ∀ c ∈ ((if frac = [] then [] else '.' :: frac) ++ tail).head?,
        c.isDigit = false := by
      intro c hc
      split at hc
      · exact (tailStop c hc).1
      · simp only [List.cons_append, List.head?_cons, Option.mem_some_iff] at hc
        subst hc
        decide
    unfold scanUnsigned
    rw [scanInt_append leading digits intStop, Option.map_some]
    dsimp only
    rw [scanFrac_append fracDigits tailStop]
    dsimp only
    rw [tailExp]
  have shape : Literal.chars ⟨neg, int, frac, exp⟩ ++ rest =
      (if neg then ['-'] else []) ++ (int ++ ((if frac = [] then [] else '.' :: frac) ++ tail)) := by
    rw [htail]
    simp only [Literal.chars, List.append_assoc]
  rw [shape]
  cases neg with
  | true => exact unsigned
  | false =>
    have first : ∀ cs, int ++ cs ≠ [] ∧ (int ++ cs).head? ≠ some '-' := by
      intro cs
      rcases leading with rfl | ⟨c, _, rfl, digit, -⟩
      · simp
      · refine ⟨by simp, ?_⟩
        rintro h
        obtain rfl : c = '-' := by simpa using h
        exact absurd digit (by decide)
    rw [if_neg (by simp), List.nil_append, ← unsigned]
    unfold scanLiteral
    split
    · rename_i heq
      exact absurd (by rw [heq]; rfl) (first _).2
    · rfl

/-! ### Floats -/

/-- `±0.d₁d₂… × 10^point` with the significant digits `d₁d₂…`; zero has none. -/
structure Decimal where
  neg : Bool
  digits : List Char
  point : Int
  isDigits : ∀ c ∈ digits, c.isDigit = true
  noLeadingZero : digits.head? ≠ some '0'
  noTrailingZero : digits.getLast? ≠ some '0'
  zeroPoint : digits = [] → point = 0
  deriving DecidableEq

def isZero (c : Char) : Bool := c == '0'

def Decimal.ofLiteral (l : Literal) : Decimal :=
  let all := (l.int ++ l.frac).filter Char.isDigit
  let kept := all.dropWhile isZero
  let digits := kept.rdropWhile isZero
  { neg := l.neg
    digits := digits
    point := if digits = [] then 0
      else l.int.length + l.exp.getD 0 - (all.length - kept.length)
    isDigits := by
      intro c hc
      have := (List.dropWhile_suffix isZero).subset ((List.rdropWhile_prefix isZero _).subset hc)
      exact (List.mem_filter.mp this).2
    noLeadingZero := by
      intro h
      obtain ⟨rest, whole⟩ : digits <+: kept := List.rdropWhile_prefix isZero kept
      have first : kept.head? = some '0' := by rw [← whole, List.head?_append, h]; rfl
      have := List.head?_dropWhile_not isZero all
      rw [show all.dropWhile isZero = kept from rfl, first] at this
      exact absurd this (by decide)
    noTrailingZero := by
      intro h
      have nonempty : digits ≠ [] := by rintro empty; simp [empty] at h
      have := List.rdropWhile_last_not isZero kept nonempty
      rw [List.getLast?_eq_some_getLast nonempty, Option.some.injEq] at h
      apply this
      simp only [digits] at h
      simp [isZero, h]
    zeroPoint := fun h => if_pos h }

/-- The shape in which `repr` writes a float: an exponent outside `1e-4 ≤ x < 1e16`. -/
def Decimal.literal (d : Decimal) : Literal :=
  match d.digits with
  | [] => ⟨d.neg, ['0'], ['0'], none⟩
  | c :: cs =>
    if d.point ≤ -4 ∨ 16 < d.point then ⟨d.neg, [c], cs, some (d.point - 1)⟩
    else if d.point ≤ 0 then ⟨d.neg, ['0'], List.replicate d.point.natAbs '0' ++ c :: cs, none⟩
    else if (c :: cs).length ≤ d.point.natAbs then
      ⟨d.neg, c :: cs ++ List.replicate (d.point.natAbs - (c :: cs).length) '0', ['0'], none⟩
    else ⟨d.neg, (c :: cs).take d.point.natAbs, (c :: cs).drop d.point.natAbs, none⟩

def Decimal.toRat (d : Decimal) : Rat :=
  (if d.neg then -1 else 1) * charsNat d.digits * 10 ^ (d.point - d.digits.length)

theorem Decimal.literal_wellFormed (d : Decimal) : d.literal.WellFormed := by
  have zeros : ∀ n, ∀ c ∈ List.replicate n '0', c.isDigit = true := by
    intro n c hc
    rw [List.eq_of_mem_replicate hc]; rfl
  unfold literal
  split
  · exact ⟨Or.inl rfl, by simp, by simp⟩
  · rename_i c cs shape
    have all := d.isDigits
    have first := d.noLeadingZero
    rw [shape] at all first
    have leading : ∀ rest, Leading (c :: rest) := fun rest =>
      Or.inr ⟨c, rest, rfl, all c (by simp), by simpa using first⟩
    split
    · exact ⟨leading [], fun x hx => all x (by simp_all), fun x hx => all x (by simp [hx])⟩
    split
    · refine ⟨Or.inl rfl, by simp, fun x hx => ?_⟩
      rcases List.mem_append.mp hx with hx | hx
      · exact zeros _ x hx
      · exact all x hx
    split
    · refine ⟨leading _, fun x hx => ?_, by simp⟩
      rcases List.mem_append.mp hx with hx | hx
      · exact all x hx
      · exact zeros _ x hx
    · rename_i _ positive _
      refine ⟨?_, fun x hx => all x (List.mem_of_mem_take hx),
        fun x hx => all x (List.mem_of_mem_drop hx)⟩
      obtain ⟨n, hn⟩ : ∃ n, d.point.natAbs = n + 1 := ⟨d.point.natAbs - 1, by omega⟩
      rw [hn, List.take_succ_cons]
      exact leading _

theorem Decimal.ofLiteral_padded (before after : Nat) {d : Decimal} {l : Literal}
    (nonzero : d.digits ≠ []) (neg : l.neg = d.neg)
    (padded : l.int ++ l.frac = List.replicate before '0' ++ d.digits ++ List.replicate after '0')
    (point : (l.int.length : Int) + l.exp.getD 0 - before = d.point) : ofLiteral l = d := by
  have zeros : ∀ n, ∀ c ∈ List.replicate n '0', isZero c = true := by
    intro n c hc
    rw [List.eq_of_mem_replicate hc]; rfl
  have all : (l.int ++ l.frac).filter Char.isDigit = l.int ++ l.frac := by
    rw [List.filter_eq_self, padded]
    intro c hc
    simp only [List.mem_append] at hc
    rcases hc with (hc | hc) | hc
    · rw [List.eq_of_mem_replicate hc]; rfl
    · exact d.isDigits c hc
    · rw [List.eq_of_mem_replicate hc]; rfl
  have kept : (l.int ++ l.frac).dropWhile isZero = d.digits ++ List.replicate after '0' := by
    rw [padded, List.append_assoc, List.dropWhile_append_of_pos (zeros before)]
    cases h : d.digits with
    | nil => exact absurd h nonzero
    | cons c cs =>
      have : c ≠ '0' := by
        have := d.noLeadingZero
        rw [h] at this
        simpa using this
      simp [isZero, this]
  have digits : ((l.int ++ l.frac).dropWhile isZero).rdropWhile isZero = d.digits := by
    rw [kept, List.rdropWhile, List.reverse_append, List.reverse_replicate,
      List.dropWhile_append_of_pos (zeros after), ← List.rdropWhile, List.rdropWhile_eq_self_iff]
    intro nonempty
    have := d.noTrailingZero
    rw [List.getLast?_eq_some_getLast nonempty] at this
    simpa [isZero] using this
  have lengths : ((l.int ++ l.frac).length : Int) - ((l.int ++ l.frac).dropWhile isZero).length =
      before := by
    rw [kept, padded]
    simp only [List.length_append, List.length_replicate]
    omega
  have fields : (ofLiteral l).neg = d.neg ∧ (ofLiteral l).digits = d.digits ∧
      (ofLiteral l).point = d.point := by
    refine ⟨neg, ?_, ?_⟩
    · simp only [ofLiteral, all, digits]
    · simp only [ofLiteral, all, digits, if_neg nonzero, lengths, point]
  obtain ⟨h₁, h₂, h₃⟩ := fields
  cases hl : ofLiteral l
  cases d
  simp_all

/-- `float(repr(x)) == x`. -/
theorem Decimal.ofLiteral_literal (d : Decimal) : ofLiteral d.literal = d := by
  unfold literal
  split
  · rename_i empty
    have point := d.zeroPoint empty
    obtain ⟨neg, digits, p, _, _, _, _⟩ := d
    dsimp only at empty point
    subst empty point
    rfl
  · rename_i c cs shape
    have nonzero : d.digits ≠ [] := by simp [shape]
    split
    · apply ofLiteral_padded 0 0 nonzero rfl (by simp [shape])
      simp
    split
    · refine ofLiteral_padded (d.point.natAbs + 1) 0 nonzero rfl ?_ ?_
      · simp [shape, List.replicate_succ]
      · simp only [List.length_singleton, Option.getD_none]
        omega
    split
    · rename_i fits
      refine ofLiteral_padded 0 (d.point.natAbs - (c :: cs).length + 1)
        nonzero rfl ?_ ?_
      · simp [shape, List.replicate_succ']
      · simp only [List.length_append, List.length_replicate, Option.getD_none]
        omega
    · apply ofLiteral_padded 0 0 nonzero rfl (by simp [shape])
      simp only [List.length_take, Option.getD_none]
      omega

inductive PyFloat where
  | nan
  | infinite (neg : Bool)
  | finite (d : Decimal)
  deriving DecidableEq

end BtApiSecurity.Py
