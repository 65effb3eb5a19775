import Mathlib.Data.List.DropRight
import Mathlib.Data.List.Basic

/-!
# Text

Python strings as the standard library cuts them: `str.strip`, the lines of a
text file under universal newlines, and the UTF-8 codec. A string is a `String`,
its characters are a `List Char`, and bytes are a `List UInt8`.
-/

namespace BtApiSecurity.Py

abbrev Bytes := List UInt8

def isSpace (c : Char) : Bool :=
  let n := c.toNat
  (9 ≤ n && n ≤ 13) || (28 ≤ n && n ≤ 32) || n == 0x85 || n == 0xA0 || n == 0x1680 ||
    (0x2000 ≤ n && n ≤ 0x200A) || n == 0x2028 || n == 0x2029 || n == 0x202F || n == 0x205F ||
    n == 0x3000

def stripChars (cs : List Char) : List Char := (cs.dropWhile isSpace).rdropWhile isSpace

def strip (s : String) : String := String.ofList (stripChars s.toList)

@[simp] theorem stripChars_nil : stripChars [] = [] := rfl

def Trimmed (cs : List Char) : Prop :=
  (∀ c ∈ cs.head?, isSpace c = false) ∧ (∀ c ∈ cs.getLast?, isSpace c = false)

theorem stripChars_of_trimmed {cs : List Char} (h : Trimmed cs) : stripChars cs = cs := by
  obtain ⟨first, last⟩ := h
  have front : cs.dropWhile isSpace = cs := by
    cases cs with
    | nil => rfl
    | cons c rest => exact List.dropWhile_cons_of_neg (by simp [first c (by simp)])
  unfold stripChars
  rw [front, List.rdropWhile_eq_self_iff]
  intro nonempty
  simpa using last _ (List.getLast?_eq_some_getLast nonempty)

theorem trimmed_stripChars (cs : List Char) : Trimmed (stripChars cs) := by
  constructor
  · intro c hc
    obtain ⟨rest, whole⟩ : stripChars cs <+: cs.dropWhile isSpace := List.rdropWhile_prefix isSpace _
    cases h : stripChars cs with
    | nil => simp [h] at hc
    | cons d ds =>
      rw [h] at hc whole
      obtain rfl : d = c := by simpa using hc
      have := List.head?_dropWhile_not isSpace cs
      rw [← whole] at this
      simpa using this
  · intro c hc
    have nonempty : stripChars cs ≠ [] := by rintro h; simp [h] at hc
    have := List.rdropWhile_last_not isSpace (cs.dropWhile isSpace) nonempty
    rw [List.getLast?_eq_some_getLast nonempty] at hc
    obtain rfl := Option.mem_some_iff.mp hc
    simpa [stripChars] using this

theorem stripChars_stripChars (cs : List Char) : stripChars (stripChars cs) = stripChars cs :=
  stripChars_of_trimmed (trimmed_stripChars cs)

/-- Only spaces are stripped. -/
theorem exists_stripChars (cs : List Char) : ∃ front back, cs = front ++ stripChars cs ++ back ∧
    (∀ c ∈ front, isSpace c = true) ∧ ∀ c ∈ back, isSpace c = true := by
  let tail := cs.dropWhile isSpace
  refine ⟨cs.takeWhile isSpace, (tail.reverse.takeWhile isSpace).reverse, ?_, ?_, ?_⟩
  · have whole : stripChars cs ++ (tail.reverse.takeWhile isSpace).reverse = tail := by
      rw [stripChars, List.rdropWhile, ← List.reverse_append, List.takeWhile_append_dropWhile,
        List.reverse_reverse]
    rw [List.append_assoc, whole, List.takeWhile_append_dropWhile]
  · intro c h
    exact List.mem_takeWhile_imp h
  · intro c h
    exact List.mem_takeWhile_imp (List.mem_reverse.mp h)

@[simp] theorem toList_strip (s : String) : (strip s).toList = stripChars s.toList := by
  simp [strip]

@[simp] theorem strip_strip (s : String) : strip (strip s) = strip s := by
  simp [strip, stripChars_stripChars]

/-- A letter, a digit, `-` or `_`. -/
def isUrlSafe (c : Char) : Bool :=
  let n := c.toNat
  (48 ≤ n && n ≤ 57) || (65 ≤ n && n ≤ 90) || (97 ≤ n && n ≤ 122) || n == 45 || n == 95

theorem isSpace_of_urlSafe {c : Char} (safe : isUrlSafe c = true) : isSpace c = false := by
  have printable : 45 ≤ c.toNat ∧ c.toNat ≤ 122 := by
    simp only [isUrlSafe, Bool.or_eq_true, Bool.and_eq_true, decide_eq_true_eq, beq_iff_eq] at safe
    omega
  unfold isSpace
  grind

theorem strip_of_urlSafe {text : String} (safe : ∀ c ∈ text.toList, isUrlSafe c = true) :
    strip text = text := by
  rw [strip, stripChars_of_trimmed, String.ofList_toList]
  constructor
  · intro c first
    exact isSpace_of_urlSafe (safe c (List.mem_of_head? first))
  · intro c last
    exact isSpace_of_urlSafe (safe c (List.mem_of_getLast? last))

/-! ### Lines of a text file -/

/-- Reading a file in text mode turns `\r\n` and `\r` into `\n`. -/
def universalNewlines : List Char → List Char
  | '\r' :: '\n' :: cs => '\n' :: universalNewlines cs
  | '\r' :: cs => '\n' :: universalNewlines cs
  | c :: cs => c :: universalNewlines cs
  | [] => []

/-- The lines of a text, without their terminators. A terminator at the very end starts no new line. -/
def lines : List Char → List (List Char)
  | [] => []
  | c :: cs =>
    if c = '\n' then [] :: lines cs
    else match lines cs with
      | [] => [[c]]
      | l :: ls => (c :: l) :: ls

def fileLines (text : List Char) : List (List Char) := lines (universalNewlines text)

def OneLine (cs : List Char) : Prop := ∀ c ∈ cs, c ≠ '\n' ∧ c ≠ '\r'

@[simp] theorem fileLines_nil : fileLines [] = [] := rfl

theorem universalNewlines_append {line : List Char} (h : OneLine line) (rest : List Char) :
    universalNewlines (line ++ rest) = line ++ universalNewlines rest := by
  induction line with
  | nil => rfl
  | cons c cs ih =>
    have hc := h c (by simp)
    have step : universalNewlines (c :: (cs ++ rest)) = c :: universalNewlines (cs ++ rest) := by
      rw [universalNewlines.eq_def]
      split <;> simp_all
    rw [List.cons_append, step, ih (fun d hd => h d (by simp [hd])), List.cons_append]

theorem lines_append {line : List Char} (h : OneLine line) (rest : List Char) :
    lines (line ++ '\n' :: rest) = line :: lines rest := by
  induction line with
  | nil => simp [lines]
  | cons c cs ih =>
    have hc := (h c (by simp)).1
    simp [lines, hc, ih (fun d hd => h d (by simp [hd]))]

theorem fileLines_append {line : List Char} (h : OneLine line) (rest : List Char) :
    fileLines (line ++ '\n' :: rest) = line :: fileLines rest := by
  have newline : universalNewlines ('\n' :: rest) = '\n' :: universalNewlines rest := rfl
  rw [fileLines, universalNewlines_append h, newline, lines_append h, fileLines]

theorem fileLines_flatMap_append {ls : List (List Char)} (h : ∀ l ∈ ls, OneLine l)
    (rest : List Char) : fileLines (ls.flatMap (· ++ ['\n']) ++ rest) = ls ++ fileLines rest := by
  induction ls with
  | nil => rfl
  | cons l ls ih =>
    rw [List.flatMap_cons, List.append_assoc, List.append_assoc, List.singleton_append,
      fileLines_append (h l (by simp)), ih fun l' hl => h l' (by simp [hl]), List.cons_append]

/-- A file to which every line was appended with its terminator reads back as these lines. -/
theorem fileLines_flatMap {ls : List (List Char)} (h : ∀ l ∈ ls, OneLine l) :
    fileLines (ls.flatMap (· ++ ['\n'])) = ls := by
  simpa using fileLines_flatMap_append h []

theorem fileLines_oneLine {line : List Char} (h : OneLine line) (ne : line ≠ []) :
    fileLines line = [line] := by
  have plain := universalNewlines_append h []
  rw [List.append_nil] at plain
  unfold fileLines
  rw [plain, universalNewlines, List.append_nil]
  clear plain
  induction line with
  | nil => exact absurd rfl ne
  | cons c cs ih =>
    have hc := (h c (by simp)).1
    cases cs with
    | nil => simp [lines, hc]
    | cons d ds =>
      unfold lines
      rw [if_neg hc, ih (fun x hx => h x (by simp [hx])) (by simp)]

theorem universalNewlines_noReturn (text : List Char) : '\r' ∉ universalNewlines text := by
  fun_induction universalNewlines text with
  | case1 cs ih => simpa using ih
  | case2 cs _ ih => simpa using ih
  | case3 c cs pair single ih => simpa [eq_comm] using ⟨fun h => single h, ih⟩
  | case4 => simp

theorem oneLine_of_mem_lines {text : List Char} (noReturn : '\r' ∉ text) :
    ∀ line ∈ lines text, OneLine line := by
  induction text with
  | nil => simp [lines]
  | cons c cs ih =>
    simp only [List.mem_cons, not_or] at noReturn
    have rest := ih noReturn.2
    unfold lines
    split
    · exact List.forall_mem_cons.mpr ⟨by simp [OneLine], rest⟩
    · rename_i other
      have first : c ≠ '\n' ∧ c ≠ '\r' := ⟨other, fun h => noReturn.1 h.symm⟩
      split
      · simpa [OneLine] using first
      · rename_i l ls shape
        rw [shape] at rest
        obtain ⟨here, later⟩ := List.forall_mem_cons.mp rest
        exact List.forall_mem_cons.mpr ⟨List.forall_mem_cons.mpr ⟨first, here⟩, later⟩

/-- A line that was read has no newline inside. -/
theorem oneLine_of_mem_fileLines {text line : List Char} (mem : line ∈ fileLines text) : OneLine line :=
  oneLine_of_mem_lines (universalNewlines_noReturn text) line mem

theorem length_universalNewlines (text : List Char) : (universalNewlines text).length ≤ text.length := by
  fun_induction universalNewlines text with
  | case1 cs ih => exact Nat.le_succ_of_le (Nat.succ_le_succ ih)
  | case2 cs _ ih => exact Nat.succ_le_succ ih
  | case3 c cs _ _ ih => exact Nat.succ_le_succ ih
  | case4 => exact le_rfl

theorem length_of_mem_lines {text : List Char} : ∀ line ∈ lines text, line.length ≤ text.length := by
  induction text with
  | nil => simp [lines]
  | cons c cs ih =>
    have later : ∀ line ∈ lines cs, line.length ≤ (c :: cs).length := fun line mem =>
      (ih line mem).trans (Nat.le_succ _)
    unfold lines
    split
    · exact List.forall_mem_cons.mpr ⟨Nat.zero_le _, later⟩
    · split
      · simp
      · rename_i l ls shape
        rw [shape] at ih later
        exact List.forall_mem_cons.mpr
          ⟨Nat.succ_le_succ (ih l List.mem_cons_self), (List.forall_mem_cons.mp later).2⟩

theorem length_of_mem_fileLines {text line : List Char} (mem : line ∈ fileLines text) :
    line.length ≤ text.length :=
  (length_of_mem_lines line mem).trans (length_universalNewlines text)

theorem length_stripChars (cs : List Char) : (stripChars cs).length ≤ cs.length :=
  (List.rdropWhile_prefix isSpace _).length_le.trans (List.dropWhile_suffix isSpace).length_le

theorem stripChars_subset (cs : List Char) : stripChars cs ⊆ cs := fun _ h =>
  (List.dropWhile_suffix isSpace).subset ((List.rdropWhile_prefix isSpace _).subset h)

/-! ### Stretches of a text -/

section
variable {α : Type*} {m xs ys : List α} {c : α}

/-- What does not have the separator in it lies on one side of it. -/
theorem infix_of_append_cons (absent : c ∉ m) (inside : m <:+: xs ++ c :: ys) :
    m <:+: xs ∨ m <:+: ys := by
  obtain ⟨before, after, whole⟩ := inside
  rcases List.append_eq_append_iff.mp whole with ⟨rest, first, -⟩ | ⟨rest, first, later⟩
  · exact .inl ⟨before, rest, first.symm⟩
  · cases rest with
    | nil => exact .inl ⟨before, [], by rw [List.append_nil, first, List.append_nil]⟩
    | cons d rest =>
      obtain ⟨rfl, rfl⟩ := List.cons.inj later
      rcases List.append_eq_append_iff.mp first with ⟨middle, -, split⟩ | ⟨middle, -, split⟩
      · exact absurd (by rw [split]; simp) absent
      · cases middle with
        | nil => exact absurd (by rw [← List.nil_append m, ← split]; simp) absent
        | cons e middle =>
          obtain ⟨-, rfl⟩ := List.cons.inj split
          exact .inr ⟨middle, after, rfl⟩

/-- A text has one last separator. -/
theorem last_separator {xs' ys' : List α} (absent : c ∉ ys) (absent' : c ∉ ys')
    (same : xs ++ c :: ys = xs' ++ c :: ys') : xs = xs' ∧ ys = ys' := by
  rcases List.append_eq_append_iff.mp same with ⟨rest, front, later⟩ | ⟨rest, front, later⟩
  · cases rest with
    | nil => exact ⟨by rw [front, List.append_nil], (List.cons.inj later).2⟩
    | cons d rest =>
      obtain ⟨-, split⟩ := List.cons.inj later
      exact absurd (by rw [split]; simp) absent
  · cases rest with
    | nil => exact ⟨by rw [front, List.append_nil], (List.cons.inj later).2.symm⟩
    | cons d rest =>
      obtain ⟨-, split⟩ := List.cons.inj later
      exact absurd (by rw [split]; simp) absent'

theorem first_separator {xs' ys' : List α} (absent : c ∉ xs) (absent' : c ∉ xs')
    (same : xs ++ c :: ys = xs' ++ c :: ys') : xs = xs' ∧ ys = ys' := by
  have mirrored := congrArg List.reverse same
  simp only [List.reverse_append, List.reverse_cons, List.append_assoc, List.singleton_append] at mirrored
  obtain ⟨back, front⟩ := last_separator (by simpa using absent) (by simpa using absent') mirrored
  exact ⟨List.reverse_inj.mp front, List.reverse_inj.mp back⟩

theorem infix_of_append_replicate {n : Nat} (positive : 0 < n) (absent : c ∉ m)
    (inside : m <:+: xs ++ (List.replicate n c ++ ys)) : m <:+: xs ∨ m <:+: ys := by
  induction n generalizing xs with
  | zero => omega
  | succ n ih =>
    rw [List.replicate_succ, List.cons_append] at inside
    rcases infix_of_append_cons absent inside with front | rest
    · exact .inl front
    · cases n with
      | zero => exact .inr rest
      | succ n =>
        have behind : m <:+: [] ∨ m <:+: ys := ih (Nat.succ_pos n) rest
        rcases behind with nothing | back
        · exact .inl (nothing.trans List.nil_infix)
        · exact .inr back

end

/-! ### UTF-8 -/

def encodeUtf8 (s : String) : Bytes := s.toByteArray.data.toList

/-- `bytes.decode("utf-8")`; `none` is a `UnicodeDecodeError`. -/
def decodeUtf8 (bytes : Bytes) : Option String := String.fromUTF8? ⟨⟨bytes⟩⟩

@[simp] theorem decodeUtf8_encodeUtf8 (s : String) : decodeUtf8 (encodeUtf8 s) = some s := by
  have whole : (⟨⟨encodeUtf8 s⟩⟩ : ByteArray) = s.toByteArray := rfl
  simp only [decodeUtf8, whole, String.fromUTF8?]
  split
  · rfl
  · rename_i invalid
    exact absurd s.isValidUTF8 (by simpa using invalid)

theorem encodeUtf8_of_decodeUtf8 {bytes : Bytes} {s : String} (h : decodeUtf8 bytes = some s) :
    encodeUtf8 s = bytes := by
  unfold decodeUtf8 String.fromUTF8? at h
  split at h
  · obtain rfl := Option.some.inj h
    rfl
  · cases h

theorem encodeUtf8_injective : Function.Injective encodeUtf8 := by
  intro s t h
  have := decodeUtf8_encodeUtf8 s
  rw [h, decodeUtf8_encodeUtf8] at this
  exact (Option.some.inj this).symm

end BtApiSecurity.Py
