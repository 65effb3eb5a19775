import BtApiSecurity.Py.Value

/-!
# Reading JSON

`json.loads` as the standard scanner does it: blanks between tokens, the number
grammar, the tokens `NaN` and `Infinity`, strict strings, and the last of two
equal keys wins. An escaped lone surrogate is refused, since no `Char` stands for it.
-/

namespace BtApiSecurity.Py

/-! ### Strings -/

def hexVal (c : Char) : Option Nat :=
  if '0' ≤ c ∧ c ≤ '9' then some (c.toNat - 48)
  else if 'a' ≤ c ∧ c ≤ 'f' then some (c.toNat - 87)
  else if 'A' ≤ c ∧ c ≤ 'F' then some (c.toNat - 55)
  else none

def unhex4 (a b c d : Char) : Option Nat :=
  match hexVal a, hexVal b, hexVal c, hexVal d with
  | some a, some b, some c, some d => some (4096 * a + 256 * b + 16 * c + d)
  | _, _, _, _ => none

def unescape (c : Char) : Option Nat :=
  if c = '"' ∨ c = '\\' ∨ c = '/' then some c.toNat
  else if c = 'n' then some 10
  else if c = 'r' then some 13
  else if c = 't' then some 9
  else if c = 'f' then some 12
  else if c = 'b' then some 8
  else none

/-- The code units of a string body, up to and without the closing quote. -/
def scanUnits : List Char → Option (List Nat × List Char)
  | [] => none
  | '"' :: rest => some ([], rest)
  | '\\' :: 'u' :: a :: b :: c :: d :: rest =>
    match unhex4 a b c d, scanUnits rest with
    | some unit, some (units, rest) => some (unit :: units, rest)
    | _, _ => none
  | '\\' :: e :: rest =>
    match unescape e, scanUnits rest with
    | some unit, some (units, rest) => some (unit :: units, rest)
    | _, _ => none
  | c :: rest =>
    if c = '\\' ∨ c.toNat < 32 then none
    else (scanUnits rest).map fun (units, rest) => (c.toNat :: units, rest)

def isHigh (unit : Nat) : Bool := 0xD800 ≤ unit && unit < 0xDC00

def isLow (unit : Nat) : Bool := 0xDC00 ≤ unit && unit < 0xE000

def joinUnits : List Nat → Option (List Char)
  | [] => some []
  | unit :: rest =>
    if isHigh unit then
      match rest with
      | [] => none
      | low :: rest =>
        if isLow low then
          (joinUnits rest).map
            (Char.ofNat (0x10000 + ((unit - 0xD800) * 1024 + (low - 0xDC00))) :: ·)
        else none
    else if isLow unit then none
    else (joinUnits rest).map (Char.ofNat unit :: ·)

def scanString (cs : List Char) : Option (String × List Char) :=
  match scanUnits cs with
  | none => none
  | some (units, rest) => (joinUnits units).map fun chars => (String.ofList chars, rest)

/-! ### Values -/

def isBlank (c : Char) : Bool := c == ' ' || c == '\t' || c == '\n' || c == '\r'

def skipBlanks (cs : List Char) : List Char := cs.dropWhile isBlank

def Literal.value (l : Literal) : Value :=
  if l.frac = [] ∧ l.exp = none then .int (if l.neg then -charsNat l.int else charsNat l.int)
  else .float (.finite (.ofLiteral l))

def scanNumber (cs : List Char) : Option (Value × List Char) :=
  (scanLiteral cs).map fun (l, rest) => (l.value, rest)

mutual

/-- `fuel` bounds the nesting; `loads` provides enough for any text. -/
def scanValue (fuel : Nat) (cs : List Char) : Option (Value × List Char) :=
  match fuel with
  | 0 => none
  | fuel + 1 =>
    match cs with
    | '"' :: rest => (scanString rest).map fun (s, rest) => (.str s, rest)
    | '[' :: rest =>
      match skipBlanks rest with
      | ']' :: rest => some (.list [], rest)
      | rest => (scanElements fuel rest).map fun (xs, rest) => (.list xs, rest)
    | '{' :: rest =>
      match skipBlanks rest with
      | '}' :: rest => some (.dict [], rest)
      | rest => (scanItems fuel rest).map fun (items, rest) => (.dict (fromPairs items), rest)
    | 'n' :: 'u' :: 'l' :: 'l' :: rest => some (.none, rest)
    | 't' :: 'r' :: 'u' :: 'e' :: rest => some (.bool true, rest)
    | 'f' :: 'a' :: 'l' :: 's' :: 'e' :: rest => some (.bool false, rest)
    | 'N' :: 'a' :: 'N' :: rest => some (.float .nan, rest)
    | 'I' :: 'n' :: 'f' :: 'i' :: 'n' :: 'i' :: 't' :: 'y' :: rest =>
      some (.float (.infinite false), rest)
    | '-' :: 'I' :: 'n' :: 'f' :: 'i' :: 'n' :: 'i' :: 't' :: 'y' :: rest =>
      some (.float (.infinite true), rest)
    | cs => scanNumber cs

def scanElements (fuel : Nat) (cs : List Char) : Option (List Value × List Char) :=
  match fuel with
  | 0 => none
  | fuel + 1 =>
    match scanValue fuel cs with
    | none => none
    | some (x, rest) =>
      match skipBlanks rest with
      | ',' :: rest => (scanElements fuel (skipBlanks rest)).map fun (xs, rest) => (x :: xs, rest)
      | ']' :: rest => some ([x], rest)
      | _ => none

def scanItems (fuel : Nat) (cs : List Char) : Option (List (Key × Value) × List Char) :=
  match fuel with
  | 0 => none
  | fuel + 1 =>
    match cs with
    | '"' :: rest =>
      match scanString rest with
      | none => none
      | some (k, rest) =>
        match skipBlanks rest with
        | ':' :: rest =>
          match scanValue fuel (skipBlanks rest) with
          | none => none
          | some (x, rest) =>
            match skipBlanks rest with
            | ',' :: rest =>
              (scanItems fuel (skipBlanks rest)).map fun (items, rest) => ((.str k, x) :: items, rest)
            | '}' :: rest => some ([(.str k, x)], rest)
            | _ => none
        | _ => none
    | _ => none

end

/-- `json.loads(text)`; `none` is a `JSONDecodeError`. -/
def loads (text : List Char) : Option Value :=
  match scanValue (2 * text.length + 2) (skipBlanks text) with
  | some (v, rest) => if skipBlanks rest = [] then some v else none
  | none => none

/-! ### What is read -/

theorem isJson_scanNumber {cs rest : List Char} {v : Value} (h : scanNumber cs = some (v, rest)) :
    v.isJson = true := by
  obtain ⟨⟨l, rest'⟩, -, same⟩ := Option.map_eq_some_iff.mp h
  obtain rfl := (Prod.mk.inj same).1
  unfold Literal.value
  split <;> rfl

mutual

theorem isJson_scanValue : ∀ (fuel : Nat) {cs rest : List Char} {v : Value},
    scanValue fuel cs = some (v, rest) → v.isJson = true
  | 0, _, _, _, h => by simp [scanValue] at h
  | fuel + 1, cs, rest, v, h => by
    rw [scanValue.eq_def] at h
    dsimp only at h
    split at h
    · obtain ⟨_, -, same⟩ := Option.map_eq_some_iff.mp h
      obtain rfl := (Prod.mk.inj same).1
      rfl
    · split at h
      · obtain rfl := (Prod.mk.inj (Option.some.inj h)).1
        rfl
      · obtain ⟨⟨xs, rest'⟩, scanned, same⟩ := Option.map_eq_some_iff.mp h
        obtain rfl := (Prod.mk.inj same).1
        unfold Value.isJson
        rw [isJsonAll_iff]
        exact isJson_scanElements fuel scanned
    · split at h
      · obtain rfl := (Prod.mk.inj (Option.some.inj h)).1
        rfl
      · obtain ⟨⟨items, rest'⟩, scanned, same⟩ := Option.map_eq_some_iff.mp h
        obtain rfl := (Prod.mk.inj same).1
        have each := isJson_scanItems fuel scanned
        exact isJson_fromPairs (fun pair h => (each pair h).1) fun pair h => (each pair h).2
    · obtain rfl := (Prod.mk.inj (Option.some.inj h)).1; rfl
    · obtain rfl := (Prod.mk.inj (Option.some.inj h)).1; rfl
    · obtain rfl := (Prod.mk.inj (Option.some.inj h)).1; rfl
    · obtain rfl := (Prod.mk.inj (Option.some.inj h)).1; rfl
    · obtain rfl := (Prod.mk.inj (Option.some.inj h)).1; rfl
    · obtain rfl := (Prod.mk.inj (Option.some.inj h)).1; rfl
    · exact isJson_scanNumber h

theorem isJson_scanElements : ∀ (fuel : Nat) {cs rest : List Char} {xs : List Value},
    scanElements fuel cs = some (xs, rest) → ∀ x ∈ xs, x.isJson = true
  | 0, _, _, _, h => by simp [scanElements] at h
  | fuel + 1, cs, rest, xs, h => by
    rw [scanElements.eq_def] at h
    dsimp only at h
    split at h
    · cases h
    · rename_i x _ head
      have first := isJson_scanValue fuel head
      split at h
      · obtain ⟨⟨more, _⟩, scanned, same⟩ := Option.map_eq_some_iff.mp h
        obtain rfl := (Prod.mk.inj same).1
        rw [List.forall_mem_cons]
        exact ⟨first, isJson_scanElements fuel scanned⟩
      · obtain rfl := (Prod.mk.inj (Option.some.inj h)).1
        simpa using first
      · cases h

theorem isJson_scanItems : ∀ (fuel : Nat) {cs rest : List Char} {items : List (Key × Value)},
    scanItems fuel cs = some (items, rest) →
      ∀ item ∈ items, item.1.isStr = true ∧ item.2.isJson = true
  | 0, _, _, _, h => by simp [scanItems] at h
  | fuel + 1, cs, rest, items, h => by
    rw [scanItems.eq_def] at h
    dsimp only at h
    split at h
    · split at h
      · cases h
      · split at h
        · split at h
          · cases h
          · rename_i x _ head
            have first := isJson_scanValue fuel head
            split at h
            · obtain ⟨⟨more, _⟩, scanned, same⟩ := Option.map_eq_some_iff.mp h
              obtain rfl := (Prod.mk.inj same).1
              rw [List.forall_mem_cons]
              exact ⟨⟨rfl, first⟩, isJson_scanItems fuel scanned⟩
            · obtain rfl := (Prod.mk.inj (Option.some.inj h)).1
              simpa [Key.isStr] using first
            · cases h
        · cases h
    · cases h

end

theorem isJson_of_loads {text : List Char} {v : Value} (h : loads text = some v) :
    v.isJson = true := by
  unfold loads at h
  split at h
  · rename_i scanned
    split at h
    · obtain rfl := Option.some.inj h
      exact isJson_scanValue _ scanned
    · cases h
  · cases h

end BtApiSecurity.Py
