import BtApiSecurity.Py.Nested

/-!
# `str` and `repr`

The text of a value as Python shows it. Above 127 it depends on the Unicode database
which characters are printable.
-/

namespace BtApiSecurity.Py

def hexPadded : Nat → Nat → List Char
  | 0, _ => []
  | width + 1, n => hexPadded width (n / 16) ++ [Nat.digitChar (n % 16)]

section
variable (printable : Char → Bool)

/-- A character inside of quotes of this kind. -/
def reprChar (quote c : Char) : List Char :=
  if c = quote ∨ c = '\\' then ['\\', c]
  else if c = '\t' then ['\\', 't']
  else if c = '\n' then ['\\', 'n']
  else if c = '\r' then ['\\', 'r']
  else if c.toNat < 32 ∨ c.toNat = 127 then '\\' :: 'x' :: hexPadded 2 c.toNat
  else if c.toNat < 127 ∨ printable c = true then [c]
  else if c.toNat < 0x100 then '\\' :: 'x' :: hexPadded 2 c.toNat
  else if c.toNat < 0x10000 then '\\' :: 'u' :: hexPadded 4 c.toNat
  else '\\' :: 'U' :: hexPadded 8 c.toNat

/-- Double quotes are for a text with single ones in it and no double ones. -/
def quoteOf (cs : List Char) : Char := if '\'' ∈ cs ∧ '"' ∉ cs then '"' else '\''

def reprText (cs : List Char) : List Char :=
  quoteOf cs :: (cs.flatMap (reprChar printable (quoteOf cs)) ++ [quoteOf cs])

def PyFloat.reprChars : PyFloat → List Char
  | .nan => ['n', 'a', 'n']
  | .infinite neg => (if neg then ['-'] else []) ++ ['i', 'n', 'f']
  | .finite d => d.literal.chars

def reprBool (b : Bool) : List Char := if b then ['T', 'r', 'u', 'e'] else ['F', 'a', 'l', 's', 'e']

def Key.repr : Key → List Char
  | .str s => reprText printable s.toList
  | .int i => intChars i
  | .float x => x.reprChars
  | .bool b => reprBool b
  | .none => ['N', 'o', 'n', 'e']

/-- What stands between two elements, if any follows. -/
def commaBefore {α : Type} (rest : List α) : List Char := if rest.isEmpty then [] else [',', ' ']

mutual

def Value.repr : Value → List Char
  | .none => ['N', 'o', 'n', 'e']
  | .bool b => reprBool b
  | .int i => intChars i
  | .float x => x.reprChars
  | .str s => reprText printable s.toList
  | .list xs => '[' :: (reprAll xs ++ [']'])
  | .tuple xs => '(' :: (reprAll xs ++ if xs.length = 1 then [',', ')'] else [')'])
  | .dict items => '{' :: (reprItems items ++ ['}'])

def reprAll : List Value → List Char
  | [] => []
  | x :: xs => x.repr ++ (commaBefore xs ++ reprAll xs)

def reprItems : List (Key × Value) → List Char
  | [] => []
  | (k, x) :: items => k.repr printable ++ (':' :: ' ' :: (x.repr ++ (commaBefore items ++ reprItems items)))

end

/-- `str(value)`. -/
def Value.text : Value → List Char
  | .str s => s.toList
  | v => v.repr printable

/-- `str(data)` of a dictionary with strings as keys. -/
def dictText (data : Dict String Value) : List Char :=
  (Value.record data.entries).repr printable

end

/-! ### Single characters -/

variable {printable : Char → Bool}

theorem toNat_of_alphanum {c : Char} (plain : c.isAlphanum = true) :
    48 ≤ c.toNat ∧ c.toNat ≤ 122 ∧ c.toNat ≠ 92 := by
  rcases (Bool.or_eq_true _ _).mp plain with letter | digit
  · rcases (Bool.or_eq_true _ _).mp letter with upper | lower
    · have bounds : 65 ≤ c.toNat ∧ c.toNat ≤ 90 := of_decide_eq_true upper
      omega
    · obtain ⟨low, high⟩ := (Bool.and_eq_true _ _).mp lower
      have least : 97 ≤ c.toNat := of_decide_eq_true low
      have most : c.toNat ≤ 122 := of_decide_eq_true high
      omega
  · have bounds : 48 ≤ c.toNat ∧ c.toNat ≤ 57 := Char.isDigit_iff_toNat.mp digit
    omega

theorem digitChar_alphanum : ∀ n < 16, (Nat.digitChar n).isAlphanum = true := by decide

theorem hexPadded_alphanum (width n : Nat) : ∀ c ∈ hexPadded width n, c.isAlphanum = true := by
  induction width generalizing n with
  | zero =>
    intro c member
    cases member
  | succ width ih =>
    intro c member
    rcases List.mem_append.mp member with high | low
    · exact ih _ c high
    · rw [List.mem_singleton.mp low]
      exact digitChar_alphanum _ (Nat.mod_lt _ (by omega))

theorem reprChar_cases (quote c : Char) :
    reprChar printable quote c = [c] ∨
      (reprChar printable quote c = ['\\', c] ∧ (c = quote ∨ c = '\\')) ∨
      ∃ e, reprChar printable quote c = '\\' :: e ∧ e ≠ [] ∧ ∀ d ∈ e, d.isAlphanum = true := by
  have hex : ∀ (letter : Char) (width : Nat), letter.isAlphanum = true →
      ∀ d ∈ letter :: hexPadded width c.toNat, d.isAlphanum = true :=
    fun letter width first => List.forall_mem_cons.mpr ⟨first, hexPadded_alphanum width c.toNat⟩
  unfold reprChar
  split
  · rename_i special
    exact .inr (.inl ⟨rfl, special⟩)
  split
  · exact .inr (.inr ⟨['t'], rfl, by simp, List.forall_mem_singleton.mpr rfl⟩)
  split
  · exact .inr (.inr ⟨['n'], rfl, by simp, List.forall_mem_singleton.mpr rfl⟩)
  split
  · exact .inr (.inr ⟨['r'], rfl, by simp, List.forall_mem_singleton.mpr rfl⟩)
  split
  · exact .inr (.inr ⟨_, rfl, by simp, hex 'x' 2 rfl⟩)
  split
  · exact .inl rfl
  split
  · exact .inr (.inr ⟨_, rfl, by simp, hex 'x' 2 rfl⟩)
  split
  · exact .inr (.inr ⟨_, rfl, by simp, hex 'u' 4 rfl⟩)
  · exact .inr (.inr ⟨_, rfl, by simp, hex 'U' 8 rfl⟩)

theorem reprChar_plain {quote c : Char} (shown : 32 ≤ c.toNat)
    (ascii : c.toNat < 127 ∨ 127 < c.toNat ∧ printable c = true) (not_quote : c ≠ quote)
    (not_escape : c ≠ '\\') : reprChar printable quote c = [c] := by
  have other : ∀ d : Char, d.toNat < 32 → c ≠ d := by
    rintro d small rfl
    omega
  rw [reprChar, if_neg (by simp [not_quote, not_escape]), if_neg (other '\t' (by decide)),
    if_neg (other '\n' (by decide)), if_neg (other '\r' (by decide)), if_neg (by omega), if_pos]
  rcases ascii with low | ⟨-, high⟩
  · exact .inl low
  · exact .inr high

/-! ### Strings inside values -/

theorem infix_reprAll {x : Value} {xs : List Value} (member : x ∈ xs) :
    x.repr printable <:+: reprAll printable xs := by
  induction xs with
  | nil => cases member
  | cons y ys ih =>
    rw [reprAll]
    rcases List.mem_cons.mp member with rfl | later
    · exact List.infix_append_left
    · exact (ih later).trans ((List.suffix_append _ _).isInfix.trans List.infix_append_right)

theorem infix_reprItems {item : Key × Value} {items : List (Key × Value)} (member : item ∈ items) :
    item.2.repr printable <:+: reprItems printable items := by
  induction items with
  | nil => cases member
  | cons first items ih =>
    obtain ⟨k, x⟩ := first
    rw [reprItems]
    rcases List.mem_cons.mp member with rfl | later
    · exact ⟨k.repr printable ++ [':', ' '], commaBefore items ++ reprItems printable items, by simp⟩
    · obtain ⟨before, after, whole⟩ := ih later
      refine ⟨k.repr printable ++ ':' :: ' ' :: (x.repr printable ++ (commaBefore items ++ before)),
        after, ?_⟩
      rw [← whole]
      simp

/-- A string is quoted wherever it stands in a value. -/
theorem infix_repr {s : String} {v : Value} (inside : s ∈ v.strings) :
    reprText printable s.toList <:+: v.repr printable := by
  induction v using Value.induct with
  | none | bool | int | float => cases inside
  | str t =>
    obtain rfl := List.mem_singleton.mp inside
    exact List.infix_rfl
  | list xs ih =>
    obtain ⟨x, member, inside⟩ := mem_stringsAll.mp inside
    exact (ih x member inside).trans ((infix_reprAll member).trans ⟨['['], [']'], rfl⟩)
  | tuple xs ih =>
    obtain ⟨x, member, inside⟩ := mem_stringsAll.mp inside
    exact (ih x member inside).trans ((infix_reprAll member).trans ⟨['('], _, rfl⟩)
  | dict items ih =>
    obtain ⟨item, member, inside⟩ := mem_stringsItems.mp inside
    exact (ih item member inside).trans ((infix_reprItems member).trans ⟨['{'], ['}'], rfl⟩)

theorem infix_dictText {data : Dict String Value} {v : Value} {s : String} (member : v ∈ data.values)
    (inside : s ∈ v.strings) : reprText printable s.toList <:+: dictText printable data := by
  obtain ⟨entry, present, rfl⟩ := List.mem_map.mp member
  apply infix_repr
  exact mem_stringsItems.mpr ⟨_, List.mem_map_of_mem present, inside⟩

end BtApiSecurity.Py
