import BtApiSecurity.Py.Text
import BtApiSecurity.Py.Value

/-!
# Writing JSON

`json.dumps` with `ensure_ascii=True`: compact, or with an indent. Sorting the
keys is `Value.sortKeys`, applied before.
-/

namespace BtApiSecurity.Py

/-! ### Strings -/

def hex4 (n : Nat) : List Char :=
  [Nat.digitChar (n / 4096 % 16), Nat.digitChar (n / 256 % 16), Nat.digitChar (n / 16 % 16),
    Nat.digitChar (n % 16)]

def charUnits (c : Char) : List Nat :=
  if c.toNat < 0x10000 then [c.toNat]
  else [0xD800 + (c.toNat - 0x10000) / 1024, 0xDC00 + (c.toNat - 0x10000) % 1024]

def escapeChar (c : Char) : List Char :=
  if c = '"' then ['\\', '"']
  else if c = '\\' then ['\\', '\\']
  else if c = '\n' then ['\\', 'n']
  else if c = '\r' then ['\\', 'r']
  else if c = '\t' then ['\\', 't']
  else if c = '\x0c' then ['\\', 'f']
  else if c = '\x08' then ['\\', 'b']
  else if 32 ≤ c.toNat ∧ c.toNat ≤ 126 then [c]
  else (charUnits c).flatMap fun unit => '\\' :: 'u' :: hex4 unit

def quote (cs : List Char) : List Char := '"' :: (cs.flatMap escapeChar ++ ['"'])

/-! ### Values -/

structure Layout where
  indent : Option Nat

def compact : Layout := ⟨none⟩

def Layout.newline (st : Layout) (level : Nat) : List Char :=
  match st.indent with
  | none => []
  | some n => '\n' :: List.replicate (n * level) ' '

def Layout.separator (st : Layout) (level : Nat) : List Char :=
  match st.indent with
  | none => [',', ' ']
  | some _ => ',' :: st.newline level

def PyFloat.chars : PyFloat → List Char
  | .nan => ['N', 'a', 'N']
  | .infinite neg => (if neg then ['-'] else []) ++ ['I', 'n', 'f', 'i', 'n', 'i', 't', 'y']
  | .finite d => d.literal.chars

def boolChars (b : Bool) : List Char :=
  if b then ['t', 'r', 'u', 'e'] else ['f', 'a', 'l', 's', 'e']

def nullChars : List Char := ['n', 'u', 'l', 'l']

def Key.chars : Key → List Char
  | .str s => s.toList
  | .int i => intChars i
  | .float x => x.chars
  | .bool b => boolChars b
  | .none => nullChars

mutual

def Value.render (st : Layout) (level : Nat) : Value → List Char
  | .none => nullChars
  | .bool b => boolChars b
  | .int i => intChars i
  | .float x => x.chars
  | .str s => quote s.toList
  | .list [] | .tuple [] => ['[', ']']
  | .list (x :: xs) | .tuple (x :: xs) =>
    '[' :: (st.newline (level + 1) ++ (x.render st (level + 1) ++
      (renderElements st (level + 1) xs ++ (st.newline level ++ [']']))))
  | .dict [] => ['{', '}']
  | .dict ((k, x) :: items) =>
    '{' :: (st.newline (level + 1) ++ (quote k.chars ++ (':' :: ' ' :: (x.render st (level + 1) ++
      (renderItems st (level + 1) items ++ (st.newline level ++ ['}']))))))

def renderElements (st : Layout) (level : Nat) : List Value → List Char
  | [] => []
  | x :: xs => st.separator level ++ (x.render st level ++ renderElements st level xs)

def renderItems (st : Layout) (level : Nat) : List (Key × Value) → List Char
  | [] => []
  | (k, x) :: items =>
    st.separator level ++ (quote k.chars ++ (':' :: ' ' :: (x.render st level ++
      renderItems st level items)))

end

def dumps (v : Value) : List Char := v.render compact 0

def dumpsIndent (n : Nat) (v : Value) : List Char := v.render ⟨some n⟩ 0

/-! ### The text is printable ASCII -/

def Printable (cs : List Char) : Prop := ∀ c ∈ cs, 32 ≤ c.toNat ∧ c.toNat ≤ 126

theorem printable_append {xs ys : List Char} (hx : Printable xs) (hy : Printable ys) :
    Printable (xs ++ ys) := by
  intro c hc
  rcases List.mem_append.mp hc with hc | hc
  · exact hx c hc
  · exact hy c hc

theorem printable_cons {c : Char} {cs : List Char} (hc : 32 ≤ c.toNat ∧ c.toNat ≤ 126)
    (h : Printable cs) : Printable (c :: cs) := by
  intro d hd
  rcases List.mem_cons.mp hd with rfl | hd
  · exact hc
  · exact h d hd

theorem printable_of_digits {cs : List Char} (h : ∀ c ∈ cs, c.isDigit = true) : Printable cs := by
  intro c hc
  have := h c hc
  simp only [Char.isDigit, Bool.and_eq_true, decide_eq_true_eq, UInt32.le_iff_toNat_le] at this
  change 48 ≤ c.toNat ∧ c.toNat ≤ 57 at this
  omega

theorem printable_hex4 (n : Nat) : Printable (hex4 n) := by
  have all : ∀ d, d < 16 → 32 ≤ (Nat.digitChar d).toNat ∧ (Nat.digitChar d).toNat ≤ 126 := by decide
  intro c hc
  simp only [hex4, List.mem_cons, List.not_mem_nil, or_false] at hc
  rcases hc with rfl | rfl | rfl | rfl <;> exact all _ (Nat.mod_lt _ (by decide))

theorem printable_escapeChar (c : Char) : Printable (escapeChar c) := by
  unfold escapeChar
  iterate 7
    split
    · simp [Printable]
  split
  · rename_i ok
    simpa [Printable] using ok
  · intro d hd
    obtain ⟨unit, -, hd⟩ := List.mem_flatMap.mp hd
    exact printable_cons (by decide) (printable_cons (by decide) (printable_hex4 unit)) d hd

theorem printable_quote (cs : List Char) : Printable (quote cs) := by
  refine printable_cons (by decide) (printable_append ?_ (by simp [Printable]))
  intro c hc
  obtain ⟨d, -, hc⟩ := List.mem_flatMap.mp hc
  exact printable_escapeChar d c hc

theorem printable_natChars (n : Nat) : Printable (natChars n) :=
  printable_of_digits (isDigit_natChars n)

theorem printable_intChars (i : Int) : Printable (intChars i) := by
  unfold intChars
  split
  · exact printable_cons (by decide) (printable_natChars _)
  · exact printable_natChars _

theorem printable_expChars (e : Int) : Printable (expChars e) := by
  apply printable_cons (by split <;> decide)
  split
  · exact printable_cons (by decide) (printable_natChars _)
  · exact printable_natChars _

theorem printable_literal {l : Literal} (ok : l.WellFormed) : Printable l.chars := by
  refine printable_append (printable_append (printable_append ?_ (printable_of_digits ok.digits)) ?_) ?_
  · split <;> simp [Printable]
  · split
    · simp [Printable]
    · exact printable_cons (by decide) (printable_of_digits ok.fracDigits)
  · split
    · simp [Printable]
    · exact printable_cons (by decide) (printable_expChars _)

theorem printable_float (x : PyFloat) : Printable x.chars := by
  match x with
  | .nan => simp [PyFloat.chars, Printable]
  | .infinite true | .infinite false => simp [PyFloat.chars, Printable]
  | .finite d => exact printable_literal d.literal_wellFormed

theorem printable_separator (level : Nat) : Printable (compact.separator level) := by
  simp [compact, Layout.separator, Printable]

mutual

theorem printable_render (level : Nat) : ∀ v : Value, Printable (v.render compact level)
  | .none => by simp [Value.render, nullChars, Printable]
  | .bool b => by cases b <;> simp [Value.render, boolChars, Printable]
  | .int i => by simpa only [Value.render] using printable_intChars i
  | .float x => by simpa only [Value.render] using printable_float x
  | .str s => by simpa only [Value.render] using printable_quote _
  | .list [] | .tuple [] | .dict [] => by simp [Value.render, Printable]
  | .list (x :: xs) | .tuple (x :: xs) => by
    simp only [Value.render, Layout.newline, compact, List.nil_append]
    exact printable_cons (by decide) (printable_append (printable_render _ x)
      (printable_append (printable_renderElements _ xs) (by simp [Printable])))
  | .dict ((k, x) :: items) => by
    simp only [Value.render, Layout.newline, compact, List.nil_append]
    exact printable_cons (by decide) (printable_append (printable_quote _)
      (printable_cons (by decide) (printable_cons (by decide) (printable_append (printable_render _ x)
        (printable_append (printable_renderItems _ items) (by simp [Printable]))))))

theorem printable_renderElements (level : Nat) :
    ∀ xs : List Value, Printable (renderElements compact level xs)
  | [] => by simp [renderElements, Printable]
  | x :: xs => by
    simp only [renderElements]
    exact printable_append (printable_separator _)
      (printable_append (printable_render _ x) (printable_renderElements _ xs))

theorem printable_renderItems (level : Nat) :
    ∀ items : List (Key × Value), Printable (renderItems compact level items)
  | [] => by simp [renderItems, Printable]
  | (k, x) :: items => by
    simp only [renderItems]
    exact printable_append (printable_separator _) (printable_append (printable_quote _)
      (printable_cons (by decide) (printable_cons (by decide) (printable_append (printable_render _ x)
        (printable_renderItems _ items)))))

end

theorem oneLine_of_printable {cs : List Char} (h : Printable cs) : OneLine cs := by
  intro c hc
  have := h c hc
  constructor <;> (rintro rfl; revert this; decide)

theorem oneLine_dumps (v : Value) : OneLine (dumps v) := oneLine_of_printable (printable_render 0 v)

theorem trimmed_dumps_dict (items : List (Key × Value)) : Trimmed (dumps (.dict items)) := by
  have ends : ∀ inner : List Char, Trimmed ('{' :: (inner ++ ['}'])) := by
    intro inner
    constructor
    · intro c hc
      obtain rfl : '{' = c := by simpa using hc
      rfl
    · intro c hc
      rw [← List.cons_append, List.getLast?_append] at hc
      obtain rfl : '}' = c := by simpa using hc
      rfl
  match items with
  | [] => exact ends []
  | (k, x) :: rest =>
    simp only [dumps, Value.render, Layout.newline, compact, List.nil_append]
    have whole := ends (quote k.chars ++ (':' :: ' ' :: (x.render compact 1 ++
      renderItems compact 1 rest)))
    simpa [compact] using whole

end BtApiSecurity.Py
