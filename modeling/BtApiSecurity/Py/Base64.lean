import BtApiSecurity.Py.Text

/-!
# Base64

`base64.b64encode`, `base64.urlsafe_b64encode`, and `base64.b64decode` as
`binascii.a2b_base64` does it outside strict mode: characters of no alphabet are
passed over, and the first complete padding ends the text.
-/

namespace BtApiSecurity.Py

def b64Digit (n : Nat) : Char :=
  if n < 26 then Char.ofNat (65 + n)
  else if n < 52 then Char.ofNat (71 + n)
  else if n < 62 then Char.ofNat (n - 4)
  else if n = 62 then '+'
  else '/'

def b64Val (c : Char) : Option Nat :=
  if 'A' ≤ c ∧ c ≤ 'Z' then some (c.toNat - 65)
  else if 'a' ≤ c ∧ c ≤ 'z' then some (c.toNat - 71)
  else if '0' ≤ c ∧ c ≤ '9' then some (c.toNat + 4)
  else if c = '+' then some 62
  else if c = '/' then some 63
  else none

def b64Chars : Bytes → List Char
  | a :: b :: c :: rest =>
    b64Digit (a.toNat / 4) :: b64Digit (a.toNat % 4 * 16 + b.toNat / 16) ::
      b64Digit (b.toNat % 16 * 4 + c.toNat / 64) :: b64Digit (c.toNat % 64) :: b64Chars rest
  | [a, b] =>
    [b64Digit (a.toNat / 4), b64Digit (a.toNat % 4 * 16 + b.toNat / 16),
      b64Digit (b.toNat % 16 * 4), '=']
  | [a] => [b64Digit (a.toNat / 4), b64Digit (a.toNat % 4 * 16), '=', '=']
  | [] => []

/-- The decoder's loop: how far the current group of four got, its leftover bits, and the
padding seen in it. -/
def b64Loop (quad left pads : Nat) : List Char → Option Bytes
  | [] => if quad = 0 then some [] else none
  | c :: cs =>
    if c = '=' then
      if 2 ≤ quad then
        if 4 ≤ quad + (pads + 1) then some [] else b64Loop quad left (pads + 1) cs
      else b64Loop quad left pads cs
    else
      match b64Val c with
      | none => b64Loop quad left pads cs
      | some v =>
        match quad with
        | 0 => b64Loop 1 v 0 cs
        | 1 => (b64Loop 2 (v % 16) 0 cs).map (UInt8.ofNat (left * 4 + v / 16) :: ·)
        | 2 => (b64Loop 3 (v % 4) 0 cs).map (UInt8.ofNat (left * 16 + v / 4) :: ·)
        | _ => (b64Loop 0 0 0 cs).map (UInt8.ofNat (left * 64 + v) :: ·)

def b64encode (bytes : Bytes) : String := String.ofList (b64Chars bytes)

def urlChar (c : Char) : Char := if c = '+' then '-' else if c = '/' then '_' else c

def urlsafeB64encode (bytes : Bytes) : String := String.ofList ((b64Chars bytes).map urlChar)

def b64decodeChars (cs : List Char) : Option Bytes :=
  if cs.all fun c => c.toNat < 128 then b64Loop 0 0 0 cs else none

/-- `base64.b64decode(text)`; `none` is a `binascii.Error` or, outside ASCII, a `ValueError`. -/
def b64decode (text : String) : Option Bytes := b64decodeChars text.toList

/-! ### Round trip -/

theorem b64Digit_spec : ∀ n, n < 64 →
    b64Val (b64Digit n) = some n ∧ b64Digit n ≠ '=' ∧ (b64Digit n).toNat < 128 := by
  decide

theorem b64Loop_digit {n : Nat} (small : n < 64) (quad left pads : Nat) (cs : List Char) :
    b64Loop quad left pads (b64Digit n :: cs) =
      match quad with
      | 0 => b64Loop 1 n 0 cs
      | 1 => (b64Loop 2 (n % 16) 0 cs).map (UInt8.ofNat (left * 4 + n / 16) :: ·)
      | 2 => (b64Loop 3 (n % 4) 0 cs).map (UInt8.ofNat (left * 16 + n / 4) :: ·)
      | _ => (b64Loop 0 0 0 cs).map (UInt8.ofNat (left * 64 + n) :: ·) := by
  obtain ⟨value, notPad, -⟩ := b64Digit_spec n small
  rw [b64Loop, if_neg notPad, value]

theorem byte_of {n : Nat} {a : UInt8} (h : n = a.toNat) : UInt8.ofNat n = a := by
  rw [h, UInt8.ofNat_toNat]

/-- Of what follows the digits and the padding, only what stands behind complete groups is read. -/
theorem b64Loop_append (bytes : Bytes) {cs : List Char} (blank : b64Loop 0 0 0 cs = some []) :
    b64Loop 0 0 0 (b64Chars bytes ++ cs) = some bytes := by
  induction bytes using b64Chars.induct with
  | case1 a b c rest ih =>
    have ha := a.toNat_lt
    have hb := b.toNat_lt
    have hc := c.toNat_lt
    simp only [b64Chars, List.cons_append, b64Loop_digit (show a.toNat / 4 < 64 by omega),
      b64Loop_digit (show a.toNat % 4 * 16 + b.toNat / 16 < 64 by omega),
      b64Loop_digit (show b.toNat % 16 * 4 + c.toNat / 64 < 64 by omega),
      b64Loop_digit (show c.toNat % 64 < 64 by omega), ih, Option.map_some]
    rw [byte_of (a := a) (by omega), byte_of (a := b) (by omega), byte_of (a := c) (by omega)]
  | case2 a b =>
    have ha := a.toNat_lt
    have hb := b.toNat_lt
    have pad : b64Loop 3 (b.toNat % 16 * 4 % 4) 0 ('=' :: cs) = some [] := by simp [b64Loop]
    simp only [b64Chars, List.cons_append, List.nil_append, b64Loop_digit (show a.toNat / 4 < 64 by omega),
      b64Loop_digit (show a.toNat % 4 * 16 + b.toNat / 16 < 64 by omega),
      b64Loop_digit (show b.toNat % 16 * 4 < 64 by omega), pad, Option.map_some]
    rw [byte_of (a := a) (by omega), byte_of (a := b) (by omega)]
  | case3 a =>
    have ha := a.toNat_lt
    have pad : b64Loop 2 (a.toNat % 4 * 16 % 16) 0 ('=' :: '=' :: cs) = some [] := by simp [b64Loop]
    simp only [b64Chars, List.cons_append, List.nil_append, b64Loop_digit (show a.toNat / 4 < 64 by omega),
      b64Loop_digit (show a.toNat % 4 * 16 < 64 by omega), pad, Option.map_some]
    rw [byte_of (a := a) (by omega)]
  | case4 => exact blank

theorem b64Loop_b64Chars (bytes : Bytes) : b64Loop 0 0 0 (b64Chars bytes) = some bytes := by
  have bare := @b64Loop_append bytes [] rfl
  rwa [List.append_nil] at bare

/-- What holds of the digits and of the padding holds of a whole text. -/
theorem forall_b64Chars {P : Char → Prop} (digit : ∀ n, n < 64 → P (b64Digit n)) (pad : P '=')
    (bytes : Bytes) : ∀ c ∈ b64Chars bytes, P c := by
  induction bytes using b64Chars.induct with
  | case1 a b c rest ih =>
    have ha := a.toNat_lt
    have hb := b.toNat_lt
    have hc := c.toNat_lt
    simp only [b64Chars, List.forall_mem_cons]
    exact ⟨digit _ (by omega), digit _ (by omega), digit _ (by omega), digit _ (by omega), ih⟩
  | case2 a b =>
    have ha := a.toNat_lt
    have hb := b.toNat_lt
    simp only [b64Chars, List.forall_mem_cons]
    exact ⟨digit _ (by omega), digit _ (by omega), digit _ (by omega), pad, by simp⟩
  | case3 a =>
    have ha := a.toNat_lt
    simp only [b64Chars, List.forall_mem_cons]
    exact ⟨digit _ (by omega), digit _ (by omega), pad, pad, by simp⟩
  | case4 => simp [b64Chars]

theorem b64Chars_ascii (bytes : Bytes) : ∀ c ∈ b64Chars bytes, c.toNat < 128 :=
  forall_b64Chars (fun n small => (b64Digit_spec n small).2.2) (by decide) bytes

theorem b64decode_b64encode (bytes : Bytes) : b64decode (b64encode bytes) = some bytes := by
  have ascii : (b64Chars bytes).all (fun c => decide (c.toNat < 128)) = true := by
    simpa using b64Chars_ascii bytes
  simp only [b64decode, b64decodeChars, b64encode, String.toList_ofList, ascii, if_true, b64Loop_b64Chars]

/-! ### The URL-safe alphabet -/

def standardChar (c : Char) : Char := if c = '-' then '+' else if c = '_' then '/' else c

theorem standardChar_urlChar : ∀ n, n < 64 → standardChar (urlChar (b64Digit n)) = b64Digit n := by
  decide

theorem map_standardChar (bytes : Bytes) :
    ((b64Chars bytes).map urlChar).map standardChar = b64Chars bytes := by
  have back := forall_b64Chars (P := fun c => standardChar (urlChar c) = c) standardChar_urlChar rfl
    bytes
  rw [List.map_map]
  exact (List.map_congr_left back).trans (List.map_id' _)

/-- The standard alphabet is its own. -/
theorem map_standardChar_b64Chars (bytes : Bytes) :
    (b64Chars bytes).map standardChar = b64Chars bytes := by
  have same := forall_b64Chars (P := fun c => standardChar c = c) (by decide) rfl bytes
  exact (List.map_congr_left same).trans (List.map_id' _)

theorem urlsafeB64encode_injective : Function.Injective urlsafeB64encode := by
  intro xs ys same
  have texts := congrArg (List.map standardChar) (String.ofList_injective same)
  rw [map_standardChar, map_standardChar] at texts
  have decoded := b64Loop_b64Chars xs
  rw [texts, b64Loop_b64Chars] at decoded
  exact (Option.some.inj decoded).symm

end BtApiSecurity.Py
