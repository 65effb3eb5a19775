import BtApiSecurity.Py.Json.Parse
import BtApiSecurity.Py.Json.Print

/-!
# What is written reads back

`loads_dumps`: `json.loads(json.dumps(v)) == v` for every JSON value, compact or
indented. It follows that the written text determines the value.
-/

namespace BtApiSecurity.Py

/-! ### Strings -/

theorem hexVal_digitChar : ∀ d, d < 16 → hexVal (Nat.digitChar d) = some d := by decide

theorem scanUnits_unicode {n : Nat} (small : n < 65536) (rest : List Char) :
    scanUnits ('\\' :: 'u' :: (hex4 n ++ rest)) =
      (scanUnits rest).map fun (units, rest) => (n :: units, rest) := by
  have digits : unhex4 (Nat.digitChar (n / 4096 % 16)) (Nat.digitChar (n / 256 % 16))
      (Nat.digitChar (n / 16 % 16)) (Nat.digitChar (n % 16)) = some n := by
    simp only [unhex4, hexVal_digitChar _ (Nat.mod_lt _ (by decide : 16 > 0)), Option.some.injEq]
    omega
  simp only [hex4, List.cons_append, List.nil_append, scanUnits, digits]
  cases scanUnits rest <;> rfl

theorem charUnits_small {c : Char} (small : c.toNat < 0x10000) : charUnits c = [c.toNat] := by
  simp [charUnits, small]

theorem toNat_lt (c : Char) : c.toNat < 0x110000 := by
  have := c.valid
  rcases this with h | ⟨-, h⟩
  · apply Nat.lt_trans h
    decide
  · exact h

theorem scanUnits_charUnits {units : List Nat} (small : ∀ u ∈ units, u < 65536) (rest : List Char) :
    scanUnits ((units.flatMap fun unit => '\\' :: 'u' :: hex4 unit) ++ rest) =
      (scanUnits rest).map fun (us, rest) => (units ++ us, rest) := by
  induction units with
  | nil => cases h : scanUnits rest <;> simp [h]
  | cons u us ih =>
    have tail := ih fun x hx => small x (by simp [hx])
    rw [List.flatMap_cons, List.append_assoc, List.cons_append, List.cons_append,
      scanUnits_unicode (small u (by simp)), tail]
    cases scanUnits rest <;> simp

theorem charUnits_lt (c : Char) : ∀ u ∈ charUnits c, u < 65536 := by
  have := toNat_lt c
  intro u hu
  unfold charUnits at hu
  split at hu
  · simp only [List.mem_singleton] at hu
    omega
  · simp only [List.mem_cons, List.not_mem_nil, or_false] at hu
    omega

theorem scanUnits_escapeChar (c : Char) (rest : List Char) :
    scanUnits (escapeChar c ++ rest) =
      (scanUnits rest).map fun (units, rest) => (charUnits c ++ units, rest) := by
  unfold escapeChar
  iterate 7
    split
    · subst_vars
      cases h : scanUnits rest <;> simp [scanUnits, unescape, charUnits, h]
  split
  · rename_i notQuote notBackslash _ _ _ _ _ printable
    rw [charUnits_small (by omega), List.singleton_append, scanUnits.eq_def]
    split
    · simp_all
    · simp_all
    · simp_all
    · simp_all
    · rename_i same
      obtain ⟨rfl, rfl⟩ := List.cons.inj same
      rw [if_neg (by simp only [notBackslash, false_or]; omega)]
      cases scanUnits rest <;> rfl
  · exact scanUnits_charUnits (charUnits_lt c) rest

theorem joinUnits_charUnits (c : Char) (units : List Nat) :
    joinUnits (charUnits c ++ units) = (joinUnits units).map (c :: ·) := by
  have valid := c.valid
  change c.toNat < 0xD800 ∨ (0xDFFF < c.toNat ∧ c.toNat < 0x110000) at valid
  unfold charUnits
  split
  · have notHigh : isHigh c.toNat = false := by simp [isHigh]; omega
    have notLow : isLow c.toNat = false := by simp [isLow]; omega
    simp only [List.singleton_append, joinUnits.eq_def (c.toNat :: units), notHigh, notLow,
      Bool.false_eq_true, if_false, Char.ofNat_toNat]
  · have high : isHigh (0xD800 + (c.toNat - 0x10000) / 1024) = true := by simp [isHigh]; omega
    have low : isLow (0xDC00 + (c.toNat - 0x10000) % 1024) = true := by simp [isLow]; omega
    have whole : 0x10000 + ((0xD800 + (c.toNat - 0x10000) / 1024 - 0xD800) * 1024 +
        (0xDC00 + (c.toNat - 0x10000) % 1024 - 0xDC00)) = c.toNat := by omega
    simp only [List.cons_append, List.nil_append, joinUnits, high, low, if_true, whole,
      Char.ofNat_toNat]

theorem scanUnits_body (cs rest : List Char) :
    scanUnits (cs.flatMap escapeChar ++ '"' :: rest) = some (cs.flatMap charUnits, rest) := by
  induction cs with
  | nil => rfl
  | cons c cs ih => simp [List.append_assoc, scanUnits_escapeChar, ih]

theorem joinUnits_body (cs : List Char) : joinUnits (cs.flatMap charUnits) = some cs := by
  induction cs with
  | nil => rfl
  | cons c cs ih => simp [joinUnits_charUnits, ih]

theorem scanString_quoted (cs rest : List Char) :
    scanString (cs.flatMap escapeChar ++ '"' :: rest) = some (String.ofList cs, rest) := by
  simp [scanString, scanUnits_body, joinUnits_body]

/-! ### Numbers -/

theorem intChars_literal (i : Int) :
    ∃ l : Literal, l.WellFormed ∧ l.chars = intChars i ∧ l.value = .int i := by
  refine ⟨⟨decide (i < 0), natChars i.natAbs, [], none⟩,
    ⟨leading_natChars _, isDigit_natChars _, by simp⟩, ?_, ?_⟩
  · by_cases neg : i < 0 <;> simp [Literal.chars, intChars, neg]
  · simp only [Literal.value, and_self, if_true, charsNat_natChars, decide_eq_true_eq]
    congr 1
    split <;> omega

theorem decimal_literal (d : Decimal) : d.literal.value = .float (.finite d) := by
  have notInt : ¬(d.literal.frac = [] ∧ d.literal.exp = none) := by
    unfold Decimal.literal
    split
    · simp
    · rename_i c cs shape
      split
      · simp
      split
      · simp
      split
      · simp
      · rename_i _ _ short
        simp only [List.drop_eq_nil_iff, and_true]
        omega
  unfold Literal.value
  rw [if_neg notInt, d.ofLiteral_literal]

theorem scanNumber_chars {l : Literal} (ok : l.WellFormed) {rest : List Char}
    (stop : NumberEnd rest) : scanNumber (l.chars ++ rest) = some (l.value, rest) := by
  rw [scanNumber, scanLiteral_chars ok stop]; rfl

/-- A literal starts with a digit, or with a sign and a digit. -/
theorem literal_head {l : Literal} (ok : l.WellFormed) :
    ∃ c rest, l.chars = c :: rest ∧
      (c.isDigit = true ∨ c = '-' ∧ ∃ d rest', rest = d :: rest' ∧ d.isDigit = true) := by
  have int : ∃ d rest, l.int = d :: rest ∧ d.isDigit = true := by
    rcases ok.leading with h | ⟨c, rest, h, digit, -⟩
    · exact ⟨'0', [], h, rfl⟩
    · exact ⟨c, rest, h, digit⟩
  obtain ⟨d, rest, hint, digit⟩ := int
  obtain ⟨tail, chars⟩ : ∃ tail, l.chars = (if l.neg then ['-'] else []) ++ (d :: (rest ++ tail)) :=
    ⟨_, by simp only [Literal.chars, hint, List.append_assoc, List.cons_append]; rfl⟩
  cases hneg : l.neg with
  | true => exact ⟨'-', d :: (rest ++ tail), by simp [chars, hneg], Or.inr ⟨rfl, d, _, rfl, digit⟩⟩
  | false => exact ⟨d, rest ++ tail, by simp [chars, hneg], Or.inl digit⟩

theorem scanValue_number {c : Char} {cs : List Char}
    (head : c.isDigit = true ∨ c = '-' ∧ ∃ d rest, cs = d :: rest ∧ d.isDigit = true) (fuel : Nat) :
    scanValue (fuel + 1) (c :: cs) = scanNumber (c :: cs) := by
  rw [scanValue.eq_def]
  dsimp only
  split
  case h_10 => rfl
  all_goals
    rename_i same
    obtain ⟨first, tail⟩ := List.cons.inj same
    rcases head with digit | ⟨minus, d, rest', hd, digit⟩
    · exact absurd digit (by rw [first]; decide)
    · first
        | exact absurd (first.symm.trans minus) (by decide)
        | exact absurd digit (by rw [← (List.cons.inj (tail.symm.trans hd)).1]; decide)

theorem scanValue_literal {l : Literal} (ok : l.WellFormed) (fuel : Nat) {rest : List Char}
    (stop : NumberEnd rest) : scanValue (fuel + 1) (l.chars ++ rest) = some (l.value, rest) := by
  rw [← scanNumber_chars ok stop]
  obtain ⟨c, cs, shape, head⟩ := literal_head ok
  rw [shape, List.cons_append]
  refine scanValue_number (head.imp_right ?_) fuel
  rintro ⟨minus, d, rest', hd, digit⟩
  exact ⟨minus, d, rest' ++ rest, by rw [hd]; rfl, digit⟩

/-! ### Blanks -/

theorem skipBlanks_newline (st : Layout) (level : Nat) (cs : List Char) :
    skipBlanks (st.newline level ++ cs) = skipBlanks cs := by
  apply List.dropWhile_append_of_pos
  intro c hc
  unfold Layout.newline at hc
  split at hc
  · simp at hc
  · rcases List.mem_cons.mp hc with rfl | hc
    · rfl
    · rw [List.eq_of_mem_replicate hc]; rfl

theorem skipBlanks_cons {c : Char} (solid : isBlank c = false) (cs : List Char) :
    skipBlanks (c :: cs) = c :: cs :=
  List.dropWhile_cons_of_neg (by simp [solid])

theorem separator_eq (st : Layout) (level : Nat) :
    ∃ blanks, st.separator level = ',' :: blanks ∧ ∀ cs, skipBlanks (blanks ++ cs) = skipBlanks cs := by
  unfold Layout.separator
  cases h : st.indent with
  | none => exact ⟨[' '], rfl, fun cs => rfl⟩
  | some n => exact ⟨st.newline level, rfl, skipBlanks_newline st level⟩

/-- The first character of a rendered value: no blank, and no closing bracket. -/
theorem render_head (st : Layout) (level : Nat) (v : Value) :
    ∃ c cs, v.render st level = c :: cs ∧ isBlank c = false ∧ c ≠ ']' := by
  have ofLiteral : ∀ l : Literal, l.WellFormed →
      ∃ c cs, l.chars = c :: cs ∧ isBlank c = false ∧ c ≠ ']' := by
    intro l ok
    obtain ⟨c, cs, shape, head⟩ := literal_head ok
    refine ⟨c, cs, shape, ?_⟩
    rcases head with digit | ⟨rfl, -⟩
    · refine ⟨?_, ?_⟩
      · by_contra blank
        simp only [isBlank, Bool.not_eq_false, Bool.or_eq_true, beq_iff_eq] at blank
        rcases blank with ((rfl | rfl) | rfl) | rfl <;> (revert digit; decide)
      · rintro rfl; revert digit; decide
    · decide
  match v with
  | .none => exact ⟨'n', _, rfl, by decide⟩
  | .bool true => exact ⟨'t', _, rfl, by decide⟩
  | .bool false => exact ⟨'f', _, rfl, by decide⟩
  | .int i =>
    obtain ⟨l, ok, chars, -⟩ := intChars_literal i
    unfold Value.render
    rw [← chars]
    exact ofLiteral l ok
  | .float .nan => exact ⟨'N', _, rfl, by decide⟩
  | .float (.infinite true) => exact ⟨'-', _, rfl, by decide⟩
  | .float (.infinite false) => exact ⟨'I', _, rfl, by decide⟩
  | .float (.finite d) =>
    unfold Value.render
    rw [PyFloat.chars]
    exact ofLiteral _ d.literal_wellFormed
  | .str s => exact ⟨'"', _, by rw [Value.render]; rfl, by decide⟩
  | .list [] | .tuple [] => exact ⟨'[', _, by rw [Value.render], by decide⟩
  | .list (x :: xs) | .tuple (x :: xs) => exact ⟨'[', _, by rw [Value.render], by decide⟩
  | .dict [] => exact ⟨'{', _, by rw [Value.render], by decide⟩
  | .dict ((k, x) :: items) => exact ⟨'{', _, by rw [Value.render], by decide⟩

theorem skipBlanks_render (st : Layout) (level : Nat) (v : Value) (rest : List Char) :
    skipBlanks (v.render st level ++ rest) = v.render st level ++ rest := by
  obtain ⟨c, cs, shape, solid, -⟩ := render_head st level v
  rw [shape, List.cons_append, skipBlanks_cons solid]

/-! ### Values -/

mutual

def Value.fuel : Value → Nat
  | .list xs | .tuple xs => 1 + fuelAll xs
  | .dict items => 1 + fuelItems items
  | _ => 1

def fuelAll : List Value → Nat
  | [] => 0
  | x :: xs => 1 + x.fuel + fuelAll xs

def fuelItems : List (Key × Value) → Nat
  | [] => 0
  | (_, x) :: items => 1 + x.fuel + fuelItems items

end

theorem numberEnd_newline (st : Layout) (level : Nat) {c : Char} (rest : List Char)
    (close : c = ']' ∨ c = '}') : NumberEnd (st.newline level ++ c :: rest) := by
  intro d hd
  unfold Layout.newline at hd
  split at hd
  · obtain rfl : c = d := by simpa using hd
    rcases close with rfl | rfl <;> decide
  · obtain rfl : '\n' = d := by simpa using hd
    decide

theorem numberEnd_elements (st : Layout) (level level' : Nat) (xs : List Value) (rest : List Char) :
    NumberEnd (renderElements st level xs ++ (st.newline level' ++ ']' :: rest)) := by
  cases xs with
  | nil => exact numberEnd_newline st level' rest (Or.inl rfl)
  | cons x xs =>
    obtain ⟨blanks, shape, -⟩ := separator_eq st level
    intro d hd
    obtain rfl : ',' = d := by simpa [renderElements, shape] using hd
    decide

theorem numberEnd_items (st : Layout) (level level' : Nat) (items : List (Key × Value))
    (rest : List Char) :
    NumberEnd (renderItems st level items ++ (st.newline level' ++ '}' :: rest)) := by
  cases items with
  | nil => exact numberEnd_newline st level' rest (Or.inr rfl)
  | cons item items =>
    obtain ⟨blanks, shape, -⟩ := separator_eq st level
    intro d hd
    obtain rfl : ',' = d := by simpa [renderItems, shape] using hd
    decide

theorem scanValue_list (fuel : Nat) (rest : List Char) :
    scanValue (fuel + 1) ('[' :: rest) =
      match skipBlanks rest with
      | ']' :: rest => some (.list [], rest)
      | rest => (scanElements fuel rest).map fun (xs, rest) => (.list xs, rest) := by
  rw [scanValue.eq_def]; rfl

theorem scanValue_dict (fuel : Nat) (rest : List Char) :
    scanValue (fuel + 1) ('{' :: rest) =
      match skipBlanks rest with
      | '}' :: rest => some (.dict [], rest)
      | rest => (scanItems fuel rest).map fun (items, rest) => (.dict (fromPairs items), rest) := by
  rw [scanValue.eq_def]; rfl

theorem scanElements_last {fuel : Nat} {cs rest rest' : List Char} {x : Value}
    (head : scanValue fuel cs = some (x, rest)) (close : skipBlanks rest = ']' :: rest') :
    scanElements (fuel + 1) cs = some ([x], rest') := by
  simp [scanElements, head, close]

theorem scanElements_more {fuel : Nat} {cs rest rest' rest'' : List Char} {x : Value}
    {xs : List Value} (head : scanValue fuel cs = some (x, rest))
    (comma : skipBlanks rest = ',' :: rest')
    (tail : scanElements fuel (skipBlanks rest') = some (xs, rest'')) :
    scanElements (fuel + 1) cs = some (x :: xs, rest'') := by
  simp [scanElements, head, comma, tail]

theorem scanItems_last {fuel : Nat} {s : String} {cs rest rest' : List Char} {x : Value}
    (head : scanValue fuel (skipBlanks cs) = some (x, rest)) (close : skipBlanks rest = '}' :: rest') :
    scanItems (fuel + 1) (quote s.toList ++ ':' :: cs) = some ([(.str s, x)], rest') := by
  have colon : skipBlanks (':' :: cs) = ':' :: cs := skipBlanks_cons (by decide) _
  simp [scanItems, quote, scanString_quoted, colon, head, close]

theorem scanItems_more {fuel : Nat} {s : String} {cs rest rest' rest'' : List Char} {x : Value}
    {items : List (Key × Value)} (head : scanValue fuel (skipBlanks cs) = some (x, rest))
    (comma : skipBlanks rest = ',' :: rest')
    (tail : scanItems fuel (skipBlanks rest') = some (items, rest'')) :
    scanItems (fuel + 1) (quote s.toList ++ ':' :: cs) = some ((.str s, x) :: items, rest'') := by
  have colon : skipBlanks (':' :: cs) = ':' :: cs := skipBlanks_cons (by decide) _
  simp [scanItems, quote, scanString_quoted, colon, head, comma, tail]

def elementsText (st : Layout) (level : Nat) : List Value → List Char
  | [] => []
  | x :: xs => x.render st level ++ renderElements st level xs

def itemsText (st : Layout) (level : Nat) : List (Key × Value) → List Char
  | [] => []
  | (k, x) :: items =>
    quote k.chars ++ (':' :: ' ' :: (x.render st level ++ renderItems st level items))

theorem skipBlanks_elementsText (st : Layout) (level : Nat) (x : Value) (xs : List Value)
    (rest : List Char) : skipBlanks (elementsText st level (x :: xs) ++ rest) =
      elementsText st level (x :: xs) ++ rest := by
  unfold elementsText
  rw [List.append_assoc, skipBlanks_render]

theorem skipBlanks_itemsText (st : Layout) (level : Nat) (item : Key × Value)
    (items : List (Key × Value)) (rest : List Char) :
    skipBlanks (itemsText st level (item :: items) ++ rest) =
      itemsText st level (item :: items) ++ rest := by
  obtain ⟨k, x⟩ := item
  simp only [itemsText, quote, List.cons_append]
  exact skipBlanks_cons (by decide) _

/-! ### What comes back -/

mutual

/-- A value as JSON keeps it: lists for tuples, strings for keys, and the last of two equal keys. -/
def Value.image : Value → Value
  | .list xs | .tuple xs => .list (imageAll xs)
  | .dict items => .dict (fromPairs (imageItems items))
  | v => v

def imageAll : List Value → List Value
  | [] => []
  | x :: xs => x.image :: imageAll xs

def imageItems : List (Key × Value) → List (Key × Value)
  | [] => []
  | (k, x) :: items => (.str (String.ofList k.chars), x.image) :: imageItems items

end

mutual

theorem image_of_isJson : ∀ {v : Value}, v.isJson = true → v.image = v
  | .none, _ | .bool _, _ | .int _, _ | .float _, _ | .str _, _ => rfl
  | .list xs, json => by
    simp only [Value.isJson] at json
    unfold Value.image
    rw [imageAll_of_isJson json]
  | .dict items, json => by
    simp only [Value.isJson, Bool.and_eq_true, decide_eq_true_eq] at json
    unfold Value.image
    rw [imageItems_of_isJson json.1.1 json.2, fromPairs_of_nodup json.1.2]

theorem imageAll_of_isJson : ∀ {xs : List Value}, isJsonAll xs = true → imageAll xs = xs
  | [], _ => rfl
  | x :: xs, json => by
    simp only [isJsonAll, Bool.and_eq_true] at json
    unfold imageAll
    rw [image_of_isJson json.1, imageAll_of_isJson json.2]

theorem imageItems_of_isJson : ∀ {items : List (Key × Value)},
    (items.map Prod.fst).all Key.isStr = true → isJsonItems items = true → imageItems items = items
  | [], _, _ => rfl
  | (k, x) :: items, keys, json => by
    simp only [isJsonItems, Bool.and_eq_true] at json
    simp only [List.map_cons, List.all_cons, Bool.and_eq_true] at keys
    obtain ⟨s, rfl⟩ : ∃ s, k = .str s := by
      cases k with
      | str s => exact ⟨s, rfl⟩
      | _ => exact absurd keys.1 (by simp [Key.isStr])
    rw [imageItems, image_of_isJson json.1, imageItems_of_isJson keys.2 json.2, Key.chars,
      String.ofList_toList]

end

mutual

theorem isJson_image : ∀ v : Value, v.image.isJson = true
  | .none | .bool _ | .int _ | .float _ | .str _ => rfl
  | .list xs | .tuple xs => by
    unfold Value.image
    rw [Value.isJson, isJsonAll_iff]
    exact isJson_imageAll xs
  | .dict items => by
    unfold Value.image
    exact isJson_fromPairs (fun pair h => (isJson_imageItems items pair h).1)
      fun pair h => (isJson_imageItems items pair h).2

theorem isJson_imageAll : ∀ (xs : List Value), ∀ x ∈ imageAll xs, x.isJson = true
  | [] => by simp [imageAll]
  | x :: xs => by
    unfold imageAll
    rw [List.forall_mem_cons]
    exact ⟨isJson_image x, isJson_imageAll xs⟩

theorem isJson_imageItems : ∀ (items : List (Key × Value)),
    ∀ item ∈ imageItems items, item.1.isStr = true ∧ item.2.isJson = true
  | [] => by simp [imageItems]
  | (k, x) :: items => by
    unfold imageItems
    rw [List.forall_mem_cons]
    exact ⟨⟨rfl, isJson_image x⟩, isJson_imageItems items⟩

end

mutual

theorem scanValue_render (st : Layout) (level : Nat) : ∀ (v : Value) (fuel : Nat), v.fuel ≤ fuel →
    ∀ rest, NumberEnd rest → scanValue fuel (v.render st level ++ rest) = some (v.image, rest)
  | v, 0, h, _, _ => by
    exfalso
    cases v <;> simp [Value.fuel] at h
  | .none, fuel + 1, _, rest, _ => rfl
  | .bool true, fuel + 1, _, rest, _ | .bool false, fuel + 1, _, rest, _ => rfl
  | .int i, fuel + 1, _, rest, stop => by
    obtain ⟨l, ok, chars, value⟩ := intChars_literal i
    unfold Value.render
    rw [← chars, scanValue_literal ok fuel stop, value]
    rfl
  | .float .nan, fuel + 1, _, rest, _ => rfl
  | .float (.infinite true), fuel + 1, _, rest, _ => rfl
  | .float (.infinite false), fuel + 1, _, rest, _ => rfl
  | .float (.finite d), fuel + 1, _, rest, stop => by
    unfold Value.render
    rw [PyFloat.chars, scanValue_literal d.literal_wellFormed fuel stop, decimal_literal]
    rfl
  | .str s, fuel + 1, _, rest, _ => by
    simp only [Value.render, quote, List.cons_append, List.append_assoc, List.nil_append, scanValue,
      scanString_quoted, Option.map_some, String.ofList_toList, Value.image]
  | .list [], fuel + 1, _, rest, _ | .tuple [], fuel + 1, _, rest, _ => by
    simp [Value.render, scanValue, skipBlanks_cons (show isBlank ']' = false by decide), Value.image,
      imageAll]
  | .list (x :: xs), fuel + 1, enough, rest, _ | .tuple (x :: xs), fuel + 1, enough, rest, _ => by
    have elements := scanElements_render st (level + 1) level (x :: xs) (by simp) fuel
      (by simp only [Value.fuel] at enough; omega) rest
    obtain ⟨c, cs, shape, -, notClose⟩ := render_head st (level + 1) x
    simp only [Value.render, Value.image, List.cons_append, List.append_assoc, List.nil_append]
    have text : x.render st (level + 1) ++ (renderElements st (level + 1) xs ++
        (st.newline level ++ ']' :: rest)) =
          elementsText st (level + 1) (x :: xs) ++ (st.newline level ++ ']' :: rest) := by
      simp only [elementsText, List.append_assoc]
    rw [text, scanValue_list, skipBlanks_newline, skipBlanks_elementsText]
    split
    · rename_i same
      rw [elementsText, shape] at same
      exact absurd (List.cons.inj same).1 notClose
    · rw [elements]; rfl
  | .dict [], fuel + 1, _, rest, _ => by
    simp [Value.render, scanValue, skipBlanks_cons (show isBlank '}' = false by decide), Value.image,
      imageItems, fromPairs]
  | .dict ((k, x) :: items), fuel + 1, enough, rest, _ => by
    have pairs := scanItems_render st (level + 1) level ((k, x) :: items) (by simp) fuel
      (by simp only [Value.fuel] at enough; omega) rest
    have text : Value.render st level (.dict ((k, x) :: items)) ++ rest =
        '{' :: (st.newline (level + 1) ++ (itemsText st (level + 1) ((k, x) :: items) ++
          (st.newline level ++ '}' :: rest))) := by
      simp only [Value.render, itemsText, List.cons_append, List.append_assoc, List.nil_append]
    rw [text, scanValue_dict, skipBlanks_newline, skipBlanks_itemsText]
    split
    · rename_i same
      rw [itemsText, quote] at same
      exact absurd (List.cons.inj same).1 (by decide)
    · rw [pairs, Value.image]; rfl

theorem scanElements_render (st : Layout) (level level' : Nat) : ∀ (xs : List Value), xs ≠ [] →
    ∀ fuel, fuelAll xs ≤ fuel → ∀ rest,
      scanElements fuel (elementsText st level xs ++ (st.newline level' ++ ']' :: rest)) =
        some (imageAll xs, rest)
  | [], nonempty, _, _, _ => absurd rfl nonempty
  | x :: xs, _, 0, enough, _ => by
    exfalso
    simp only [fuelAll] at enough
    omega
  | x :: xs, _, fuel + 1, enough, rest => by
    simp only [fuelAll] at enough
    have head := scanValue_render st level x fuel (by omega) _
      (numberEnd_elements st level level' xs rest)
    unfold elementsText
    rw [List.append_assoc]
    match xs with
    | [] =>
      apply scanElements_last head
      unfold renderElements
      rw [List.nil_append, skipBlanks_newline, skipBlanks_cons (by decide)]
    | y :: ys =>
      obtain ⟨blanks, shape, skip⟩ := separator_eq st level
      have tail := scanElements_render st level level' (y :: ys) (by simp) fuel (by omega) rest
      have next : renderElements st level (y :: ys) ++ (st.newline level' ++ ']' :: rest) =
          ',' :: (blanks ++ (elementsText st level (y :: ys) ++ (st.newline level' ++ ']' :: rest))) := by
        simp only [renderElements, elementsText, shape, List.cons_append, List.append_assoc]
      apply scanElements_more head (by rw [next, skipBlanks_cons (by decide)])
      rw [skip, skipBlanks_elementsText, tail]

theorem scanItems_render (st : Layout) (level level' : Nat) : ∀ (items : List (Key × Value)),
    items ≠ [] → ∀ fuel, fuelItems items ≤ fuel → ∀ rest,
      scanItems fuel (itemsText st level items ++ (st.newline level' ++ '}' :: rest)) =
        some (imageItems items, rest)
  | [], nonempty, _, _, _ => absurd rfl nonempty
  | (k, x) :: items, _, 0, enough, _ => by
    exfalso
    simp only [fuelItems] at enough
    omega
  | (k, x) :: items, _, fuel + 1, enough, rest => by
    simp only [fuelItems] at enough
    have head := scanValue_render st level x fuel (by omega) _
      (numberEnd_items st level level' items rest)
    have text : itemsText st level ((k, x) :: items) ++ (st.newline level' ++ '}' :: rest) =
        quote (String.ofList k.chars).toList ++ ':' :: ' ' :: (x.render st level ++
          (renderItems st level items ++ (st.newline level' ++ '}' :: rest))) := by
      simp only [itemsText, String.toList_ofList, List.cons_append, List.append_assoc]
    have value : scanValue fuel (skipBlanks (' ' :: (x.render st level ++
        (renderItems st level items ++ (st.newline level' ++ '}' :: rest))))) =
          some (x.image, renderItems st level items ++ (st.newline level' ++ '}' :: rest)) := by
      have blank : ∀ cs, skipBlanks (' ' :: cs) = skipBlanks cs := fun cs => rfl
      rw [blank, skipBlanks_render, head]
    rw [text]
    match items with
    | [] =>
      apply scanItems_last value
      unfold renderItems
      rw [List.nil_append, skipBlanks_newline, skipBlanks_cons (by decide)]
    | item :: more =>
      obtain ⟨blanks, shape, skip⟩ := separator_eq st level
      have tail := scanItems_render st level level' (item :: more) (by simp) fuel (by omega) rest
      have next : renderItems st level (item :: more) ++ (st.newline level' ++ '}' :: rest) =
          ',' :: (blanks ++ (itemsText st level (item :: more) ++
            (st.newline level' ++ '}' :: rest))) := by
        obtain ⟨k', y⟩ := item
        simp only [renderItems, itemsText, shape, List.cons_append, List.append_assoc]
      apply scanItems_more value (by rw [next, skipBlanks_cons (by decide)])
      rw [skip, skipBlanks_itemsText, tail]

end

/-! ### The fuel of `loads` -/

theorem fuel_le_render_of_leaf (st : Layout) (level : Nat) {v : Value} (leaf : v.fuel = 1) :
    v.fuel ≤ 2 * (v.render st level).length := by
  obtain ⟨c, cs, shape, -⟩ := render_head st level v
  rw [leaf, shape, List.length_cons]
  omega

mutual

theorem fuel_le_render (st : Layout) (level : Nat) :
    ∀ v : Value, v.fuel ≤ 2 * (v.render st level).length
  | .none | .bool _ | .int _ | .float _ | .str _ =>
    fuel_le_render_of_leaf st level (by simp only [Value.fuel])
  | .list [] | .tuple [] | .dict [] => by simp [Value.fuel, fuelAll, fuelItems, Value.render]
  | .list (x :: xs) | .tuple (x :: xs) => by
    have head := fuel_le_render st (level + 1) x
    have tail := fuelAll_le_render st (level + 1) xs
    simp only [Value.fuel, fuelAll, Value.render, List.length_cons, List.length_append]
    omega
  | .dict ((k, x) :: items) => by
    have head := fuel_le_render st (level + 1) x
    have tail := fuelItems_le_render st (level + 1) items
    simp only [Value.fuel, fuelItems, Value.render, List.length_cons, List.length_append]
    omega

theorem fuelAll_le_render (st : Layout) (level : Nat) :
    ∀ xs : List Value, fuelAll xs ≤ 2 * (renderElements st level xs).length
  | [] => by simp [fuelAll]
  | x :: xs => by
    have head := fuel_le_render st level x
    have tail := fuelAll_le_render st level xs
    obtain ⟨blanks, shape, -⟩ := separator_eq st level
    simp only [fuelAll, renderElements, shape, List.length_cons, List.length_append]
    omega

theorem fuelItems_le_render (st : Layout) (level : Nat) :
    ∀ items : List (Key × Value), fuelItems items ≤ 2 * (renderItems st level items).length
  | [] => by simp [fuelItems]
  | (k, x) :: items => by
    have head := fuel_le_render st level x
    have tail := fuelItems_le_render st level items
    obtain ⟨blanks, shape, -⟩ := separator_eq st level
    simp only [fuelItems, renderItems, shape, List.length_cons, List.length_append]
    omega

end

theorem loads_render (st : Layout) (level : Nat) (v : Value) :
    loads (v.render st level) = some v.image := by
  have enough := fuel_le_render st level v
  have scanned := scanValue_render st level v (2 * (v.render st level).length + 2) (by omega) []
    (by simp [NumberEnd])
  rw [List.append_nil] at scanned
  have skip := skipBlanks_render st level v []
  rw [List.append_nil] at skip
  unfold loads
  rw [skip, scanned]
  rfl

theorem loads_dumps_image (v : Value) : loads (dumps v) = some v.image := loads_render compact 0 v

/-- `json.loads(json.dumps(v)) == v`. -/
theorem loads_dumps {v : Value} (json : v.isJson = true) : loads (dumps v) = some v := by
  rw [loads_dumps_image, image_of_isJson json]

theorem loads_dumpsIndent (n : Nat) {v : Value} (json : v.isJson = true) :
    loads (dumpsIndent n v) = some v := by
  unfold dumpsIndent
  rw [loads_render, image_of_isJson json]

end BtApiSecurity.Py
