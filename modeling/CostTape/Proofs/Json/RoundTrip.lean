import CostTape.Json.Reading
import CostTape.Proofs.Decimal.Spelling

/-! A JSON value is read back from its written form. -/

namespace CostTape

namespace JsonValue

open Decimal

/-- The characters that are written by their code. -/
def IsCoded (char : Char) : Prop :=
  char ≠ '\n' ∧ char ≠ '\r' ∧ char ≠ '\t' ∧ char.toNat ≠ 0x08 ∧ char.toNat ≠ 0x0c ∧
    (char.toNat < 0x20 ∨ char = '<' ∨ char = '>' ∨ char = '&' ∨ char.toNat = 0x2028 ∨
      char.toNat = 0x2029)

instance : DecidablePred IsCoded := fun char =>
  inferInstanceAs (Decidable (char ≠ '\n' ∧ _))

theorem IsCoded.toNat_lt {char : Char} (coded : IsCoded char) : char.toNat < 0xd800 := by
  obtain ⟨-, -, -, -, -, low | rfl | rfl | rfl | code | code⟩ := coded
  · omega
  · decide
  · decide
  · decide
  · omega
  · omega

/-- The unit that is read for a written character. -/
def unitOf (char : Char) : TextUnit :=
  if IsCoded char then .code char.toNat else .char char

theorem hexDigit?_digitChar : ∀ digit < 16, hexDigit? digit.digitChar = some digit := by
  decide

theorem hexUnit?_hexDigits {code : ℕ} (fits : code < 0x10000) :
    ∃ a b c d, (Text.hexDigits 4 code).toList = [a, b, c, d] ∧
      hexUnit? a b c d = some code := by
  have length := Text.length_hexDigits (by norm_num : 0 < 4) (by omega : code < 16 ^ 4)
  have value := Text.valueBy_hexDigits hexDigit?_digitChar 4 code
  obtain ⟨a, b, c, d, chars⟩ : ∃ a b c d, (Text.hexDigits 4 code).toList = [a, b, c, d] :=
    List.length_eq_four.mp length
  refine ⟨a, b, c, d, chars, ?_⟩
  rw [chars] at value
  rw [← value]
  simp [Text.valueBy, hexUnit?, Option.map_eq_bind, mul_comm, Option.bind_assoc]

theorem textUnits_coded {code : ℕ} (fits : code < 0x10000) (tail : List Char) :
    textUnits (("\\u" ++ Text.hexDigits 4 code).toList ++ tail) =
      (textUnits tail).map fun (units, rest) => (.code code :: units, rest) := by
  obtain ⟨a, b, c, d, chars, value⟩ := hexUnit?_hexDigits fits
  have start : ("\\u" ++ Text.hexDigits 4 code).toList ++ tail =
      '\\' :: 'u' :: a :: b :: c :: d :: tail := by
    simp [chars]
  rw [start, textUnits, value]
  cases textUnits tail <;> rfl

theorem textUnits_plain {char : Char} (tail : List Char) (quote : char ≠ '"')
    (slash : char ≠ '\\') (printable : ¬char.toNat < 0x20) :
    textUnits (char :: tail) =
      (textUnits tail).map fun (units, rest) => (.char char :: units, rest) := by
  rw [textUnits.eq_def]
  split <;> simp_all

theorem textUnits_escapedChar (char : Char) (tail : List Char) :
    textUnits ((escapedChar char).toList ++ tail) =
      (textUnits tail).map fun (units, rest) => (unitOf char :: units, rest) := by
  have short {named : Char} (read : shortEscape? named = some char) (other : named ≠ 'u')
      (plain : ¬IsCoded char) :
      textUnits ('\\' :: named :: tail) =
        (textUnits tail).map fun (units, rest) => (unitOf char :: units, rest) := by
    rw [textUnits.eq_def]
    cases following : textUnits tail <;> simp_all [unitOf]
  unfold escapedChar
  split
  · exact short rfl (by decide) (by decide)
  · exact short rfl (by decide) (by decide)
  · exact short rfl (by decide) (by decide)
  · exact short rfl (by decide) (by decide)
  · exact short rfl (by decide) (by decide)
  · rename_i quote slash feed carriage tab
    simp only
    split
    · rename_i code
      obtain rfl : char = Char.ofNat 0x08 := by rw [← code, Char.ofNat_toNat]
      exact short rfl (by decide) (by decide)
    · rename_i backspace
      split
      · rename_i code
        obtain rfl : char = Char.ofNat 0x0c := by rw [← code, Char.ofNat_toNat]
        exact short rfl (by decide) (by decide)
      · rename_i form
        split
        · rename_i coded
          have mark : IsCoded char := ⟨feed, carriage, tab, backspace, form, coded⟩
          rw [textUnits_coded (by have := mark.toNat_lt; omega), unitOf, if_pos mark]
        · rename_i plain
          have single : char.toString.toList ++ tail = char :: tail := by simp
          rw [unitOf, if_neg fun mark => plain mark.2.2.2.2.2, single]
          exact textUnits_plain tail quote slash (by tauto)

theorem joinUnits_unitOf (char : Char) (units : List TextUnit) :
    joinUnits (unitOf char :: units) = char :: joinUnits units := by
  unfold unitOf
  split
  · rename_i coded
    have low := coded.toNat_lt
    have lone : loneChar char.toNat = char := by
      simp [loneChar, isHighUnit, isLowUnit]
      omega
    have single : isHighUnit char.toNat = false := by
      simp [isHighUnit]
      omega
    cases units with
    | nil => simp [joinUnits, lone]
    | cons next rest => cases next <;> simp [joinUnits, single, lone]
  · rw [joinUnits]

theorem joinUnits_map_unitOf (chars : List Char) :
    joinUnits (chars.map unitOf) = chars := by
  induction chars with
  | nil => rfl
  | cons char chars ih => rw [List.map_cons, joinUnits_unitOf, ih]

theorem textUnits_chars (chars rest : List Char) :
    textUnits (chars.flatMap (fun char => (escapedChar char).toList) ++ '"' :: rest) =
      some (chars.map unitOf, rest) := by
  induction chars with
  | nil => simp [textUnits]
  | cons char chars ih =>
      rw [List.flatMap_cons, List.append_assoc, textUnits_escapedChar, ih]
      rfl

theorem toList_textForm (body : String) :
    (textForm body).toList =
      '"' :: (body.toList.flatMap (fun char => (escapedChar char).toList) ++ ['"']) := by
  simp [textForm, List.flatMap_map]

theorem readText_textForm (body : String) (rest : List Char) :
    ∃ tail, (textForm body).toList ++ rest = '"' :: tail ∧
      readText tail = some (body, rest) := by
  refine ⟨_, by rw [toList_textForm, List.cons_append, List.append_assoc], ?_⟩
  rw [readText, List.singleton_append, textUnits_chars, Option.map_some]
  simp [joinUnits_map_unitOf]

theorem isNumberChar_of_isDigit {char : Char} (digit : isDigit char = true) :
    isNumberChar char = true := by
  rw [isNumberChar, digit, Bool.true_or]

theorem all_isNumberChar {digits : List Char} (decimal : digits.all isDigit = true) :
    digits.all isNumberChar = true := by
  rw [List.all_eq_true] at decimal ⊢
  exact fun char mem => isNumberChar_of_isDigit (decimal char mem)

theorem all_isNumberChar_exponent {chars : List Char}
    (read : (Parts.exponentOf chars).isSome = true) : chars.all isNumberChar = true := by
  have accepted {digits : List Char} {value : ℤ}
      (read : (if digits.isEmpty || !digits.all isDigit then none
        else some value).isSome = true) : digits.all isNumberChar = true := by
    split at read
    · cases read
    · rename_i decimal
      rw [Bool.or_eq_true, not_or, Bool.not_eq_true', Bool.not_eq_false] at decimal
      exact all_isNumberChar decimal.2
  unfold Parts.exponentOf at read
  split at read
  · rw [List.all_cons, accepted read]
    rfl
  · rw [List.all_cons, accepted read]
    rfl
  · exact accepted read

/-- What is taken for the parts of a number has only characters of numbers. -/
theorem all_isNumberChar_of_ofChars? {chars : List Char} {parts : Parts}
    (read : Parts.ofChars? chars = some parts) : chars.all isNumberChar = true := by
  obtain ⟨tail, rfl, whole, fraction, isTail⟩ := Parts.exists_of_ofChars? read
  have point : (if parts.hasPoint then '.' :: parts.fraction else []).all isNumberChar =
      true := by
    split
    · rw [List.all_cons, all_isNumberChar fraction]
      rfl
    · rfl
  have ending : tail.all isNumberChar = true := by
    rcases isTail with ⟨rfl, -⟩ | ⟨mark, exponent, rfl, isMark, read, some⟩
    · rfl
    · rw [List.all_cons, all_isNumberChar_exponent (read ▸ some), Bool.and_true]
      rcases isMark with rfl | rfl <;> rfl
  rw [List.all_append, List.all_append, all_isNumberChar whole, point, ending]
  rfl

/-- The value has a written form in which objects and arrays stand no deeper than
`depth` in each other. -/
inductive Fits : ℕ → JsonValue → Prop
  | null (depth : ℕ) : Fits depth null
  | bool (depth : ℕ) (flag : Bool) : Fits depth (bool flag)
  | number (depth : ℕ) {digits : String} (written : isNumber digits.toList = true) :
      Fits depth (number digits)
  | text (depth : ℕ) (body : String) : Fits depth (text body)
  | array {depth : ℕ} {items : List JsonValue} (fit : ∀ item ∈ items, Fits depth item) :
      Fits (depth + 1) (array items)
  | object {depth : ℕ} {fields : List (String × JsonValue)}
      (fit : ∀ field ∈ fields, Fits depth field.2) : Fits (depth + 1) (object fields)

theorem exists_cons_of_isNumber {chars : List Char} (written : isNumber chars = true) :
    ∃ first rest, chars = first :: rest ∧ (isDigit first = true ∨ first = '-') := by
  unfold isNumber at written
  by_cases minus : (chars.head? == some '-') = true
  · cases chars with
    | nil => cases minus
    | cons first rest => exact ⟨first, rest, rfl, .inr (by simpa using minus)⟩
  · rw [Bool.not_eq_true] at minus
    simp only [minus, Bool.false_eq_true, if_false] at written
    split at written
    · cases written
    · rename_i parts read
      simp only [Bool.and_eq_true, Bool.not_eq_true',
        List.isEmpty_eq_false_iff] at written
      obtain ⟨tail, same, digits, -, -⟩ := Parts.exists_of_ofChars? read
      obtain ⟨first, rest, whole⟩ := List.exists_cons_of_ne_nil written.1.1
      rw [whole, List.all_cons, Bool.and_eq_true] at digits
      exact ⟨first, _, by rw [same, whole, List.cons_append], .inl digits.1⟩

theorem all_isNumberChar_of_isNumber {chars : List Char}
    (written : isNumber chars = true) : chars.all isNumberChar = true := by
  unfold isNumber at written
  simp only at written
  split at written
  · cases written
  · rename_i parts read
    have body := all_isNumberChar_of_ofChars? read
    split at body
    · rename_i minus
      cases chars with
      | nil => rfl
      | cons first rest =>
          obtain rfl : first = '-' := by simpa using minus
          rw [List.all_cons]
          exact body
    · exact body

/-- What follows a number does not go on with it. -/
def EndsNumber (rest : List Char) : Prop :=
  ∀ char ∈ rest.head?, isNumberChar char = false

theorem readValue_number {steps depth : ℕ} {digits rest : List Char}
    (written : isNumber digits = true) (ends : EndsNumber rest) :
    readValue (steps + 1) depth (digits ++ rest) =
      some (number (String.ofList digits), rest) := by
  have chars := List.all_eq_true.mp (all_isNumberChar_of_isNumber written)
  obtain ⟨first, more, same, start⟩ := exists_cons_of_isNumber written
  have taken : (digits ++ rest).takeWhile isNumberChar = digits := by
    rw [List.takeWhile_append_of_pos chars]
    cases rest with
    | nil => simp
    | cons next rest => simp [ends next rfl]
  have dropped : (digits ++ rest).dropWhile isNumberChar = rest := by
    rw [List.dropWhile_append_of_pos chars]
    cases rest with
    | nil => rfl
    | cons next rest => simp [ends next rfl]
  -- Every other form starts with a character that no number starts with.
  have other {char : Char} {tail : List Char} (starts : digits ++ rest = char :: tail)
      (noDigit : isDigit char = false) (noMinus : char ≠ '-') : False := by
    rw [same, List.cons_append] at starts
    cases starts
    rcases start with digit | minus
    · simp [noDigit] at digit
    · exact noMinus minus
  rw [readValue.eq_def]
  simp only
  split
  · exact (other ‹_› rfl (by decide)).elim
  · exact (other ‹_› rfl (by decide)).elim
  · exact (other ‹_› rfl (by decide)).elim
  · exact (other ‹_› rfl (by decide)).elim
  · exact (other ‹_› rfl (by decide)).elim
  · exact (other ‹_› rfl (by decide)).elim
  · rw [taken, dropped, if_pos written]

/-- A written value starts with neither white space nor a closing bracket. -/
theorem Fits.exists_cons {depth : ℕ} {value : JsonValue} (fits : Fits depth value) :
    ∃ first rest, value.compact.toList = first :: rest ∧ isSpace first = false ∧
      first ≠ ']' ∧ first ≠ '\x7d' := by
  cases fits with
  | null => exact ⟨_, _, rfl, rfl, by decide, by decide⟩
  | bool _ flag => cases flag <;> exact ⟨_, _, rfl, rfl, by decide, by decide⟩
  | number _ written =>
      obtain ⟨first, rest, same, start⟩ := exists_cons_of_isNumber written
      refine ⟨first, rest, by rw [compact, same], ?_⟩
      rcases start with digit | rfl
      · have different {char : Char} (other : isDigit char = false) : first ≠ char := by
          rintro rfl
          simp [other] at digit
        refine ⟨?_, different rfl, different rfl⟩
        have space := @different ' ' rfl
        have feed := @different '\n' rfl
        have carriage := @different '\r' rfl
        have tab := @different '\t' rfl
        simp [isSpace, space, feed, carriage, tab]
      · exact ⟨rfl, by decide, by decide⟩
  | text _ body =>
      rw [compact, toList_textForm]
      exact ⟨_, _, rfl, rfl, by decide, by decide⟩
  | array fit =>
      rw [compact, String.toList_append, String.toList_append]
      exact ⟨'[', _, rfl, rfl, by decide, by decide⟩
  | object fit =>
      rw [compact, String.toList_append, String.toList_append]
      exact ⟨'\x7b', _, rfl, rfl, by decide, by decide⟩

theorem skipSpace_cons {first : Char} {rest : List Char}
    (visible : isSpace first = false) : skipSpace (first :: rest) = first :: rest := by
  simp [skipSpace, visible]

/-- The characters of parts with commas between them. -/
def joined (parts : List String) : List Char :=
  (",".intercalate parts).toList

theorem joined_cons (part : String) {parts : List String} (some : parts ≠ []) :
    joined (part :: parts) = part.toList ++ ',' :: joined parts := by
  rw [joined, String.intercalate_cons_of_ne_nil some]
  simp [joined]

theorem readItems_compact {depth : ℕ} {items : List JsonValue} (some_item : items ≠ [])
    (fit : ∀ item ∈ items, Fits depth item)
    (read : ∀ item ∈ items, ∀ (steps : ℕ) (rest : List Char),
      item.compact.toList.length ≤ steps → EndsNumber rest →
        readValue steps depth (item.compact.toList ++ rest) = some (item, rest))
    (steps : ℕ) (rest : List Char)
    (enough : (joined (compactItems items)).length < steps) :
    readItems steps depth (joined (compactItems items) ++ ']' :: rest) =
      some (items, rest) := by
  induction items generalizing steps with
  | nil => exact absurd rfl some_item
  | cons item items ih =>
      obtain ⟨steps, rfl⟩ : ∃ less, steps = less + 1 := ⟨steps - 1, by omega⟩
      obtain ⟨first, tail, start, visible, -⟩ := (fit item List.mem_cons_self).exists_cons
      have skipped (after : List Char) :
          skipSpace (item.compact.toList ++ after) = item.compact.toList ++ after := by
        rw [start, List.cons_append, skipSpace_cons visible]
      rw [compactItems] at enough ⊢
      by_cases last : items = []
      · subst last
        have alone : joined [item.compact] = item.compact.toList := by
          rw [joined, String.intercalate_singleton]
        rw [compactItems, alone] at enough ⊢
        rw [readItems, skipped,
          read item List.mem_cons_self steps _ (by omega) (by simp [EndsNumber]; decide)]
        rfl
      · have more : compactItems items ≠ [] := by
          cases items with
          | nil => exact absurd rfl last
          | cons => simp [compactItems]
        rw [joined_cons _ more, List.length_append, List.length_cons] at enough
        rw [joined_cons _ more, List.append_assoc, readItems, skipped,
          read item List.mem_cons_self steps _ (by omega) (by simp [EndsNumber]; decide)]
        have rest_read := ih last (fun item mem => fit item (List.mem_cons_of_mem _ mem))
          (fun item mem => read item (List.mem_cons_of_mem _ mem)) steps (by omega)
        have comma : skipSpace (',' :: joined (compactItems items) ++ ']' :: rest) =
            ',' :: (joined (compactItems items) ++ ']' :: rest) := rfl
        simp only [Option.bind_some, comma, rest_read, Option.map_some]

/-- One field, up to the choice on what follows it. -/
theorem readFields_field {depth steps : ℕ} {name : String} {value : JsonValue}
    {after : List Char} (fits : Fits depth value)
    (read : readValue steps depth (value.compact.toList ++ after) = some (value, after)) :
    readFields (steps + 1) depth ((textForm name ++ ":" ++ value.compact).toList ++
      after) = match skipSpace after with
      | '\x7d' :: rest => some ([(name, value)], rest)
      | ',' :: rest =>
          (readFields steps depth rest).map fun (fields, rest) =>
            ((name, value) :: fields, rest)
      | _ => none := by
  obtain ⟨chars, quote, named⟩ :=
    readText_textForm name (':' :: (value.compact.toList ++ after))
  obtain ⟨first, tail, start, visible, -⟩ := fits.exists_cons
  have skipped : skipSpace (value.compact.toList ++ after) =
      value.compact.toList ++ after := by
    rw [start, List.cons_append, skipSpace_cons visible]
  have shape : (textForm name ++ ":" ++ value.compact).toList ++ after =
      '"' :: chars := by
    rw [← quote]
    simp
  have colon : skipSpace (':' :: (value.compact.toList ++ after)) =
      ':' :: (value.compact.toList ++ after) := rfl
  rw [shape, readFields, skipSpace_cons (by rfl)]
  simp only [named, Option.bind_some, colon, skipped]
  rewrite [read]
  rfl

theorem readFields_compact {depth : ℕ} {fields : List (String × JsonValue)}
    (some_field : fields ≠ []) (fit : ∀ field ∈ fields, Fits depth field.2)
    (read : ∀ field ∈ fields, ∀ (steps : ℕ) (rest : List Char),
      field.2.compact.toList.length ≤ steps → EndsNumber rest →
        readValue steps depth (field.2.compact.toList ++ rest) = some (field.2, rest))
    (steps : ℕ) (rest : List Char)
    (enough : (joined (compactFields fields)).length < steps) :
    readFields steps depth (joined (compactFields fields) ++ '\x7d' :: rest) =
      some (fields, rest) := by
  induction fields generalizing steps with
  | nil => exact absurd rfl some_field
  | cons field fields ih =>
      obtain ⟨name, value⟩ := field
      obtain ⟨steps, rfl⟩ : ∃ less, steps = less + 1 := ⟨steps - 1, by omega⟩
      have value_read : ∀ after, value.compact.toList.length ≤ steps → EndsNumber after →
          readValue steps depth (value.compact.toList ++ after) = some (value, after) :=
        read _ List.mem_cons_self steps
      have fits := fit _ List.mem_cons_self
      rw [compactFields] at enough ⊢
      by_cases last : fields = []
      · subst last
        rw [compactFields, joined, String.intercalate_singleton] at enough ⊢
        simp only [String.toList_append, List.length_append] at enough
        rw [readFields_field fits (value_read _ (by omega)
          (by simp [EndsNumber]; decide))]
        rfl
      · have more : compactFields fields ≠ [] := by
          cases fields with
          | nil => exact absurd rfl last
          | cons => simp [compactFields]
        rw [joined_cons _ more] at enough ⊢
        simp only [String.toList_append, List.length_append, List.length_cons] at enough
        rw [List.append_assoc,
          readFields_field fits (value_read _ (by omega) (by simp [EndsNumber]; decide))]
        have rest_read :=
          ih last (fun field mem => fit field (List.mem_cons_of_mem _ mem))
          (fun field mem => read field (List.mem_cons_of_mem _ mem)) steps (by omega)
        have comma : skipSpace (',' :: joined (compactFields fields) ++ '\x7d' :: rest) =
            ',' :: (joined (compactFields fields) ++ '\x7d' :: rest) := rfl
        simp only [comma, rest_read, Option.map_some]

theorem exists_cons_joined_items {depth : ℕ} {items : List JsonValue}
    (some_item : items ≠ []) (fit : ∀ item ∈ items, Fits depth item) :
    ∃ first tail, joined (compactItems items) = first :: tail ∧ isSpace first = false ∧
      first ≠ ']' := by
  obtain ⟨item, items, rfl⟩ := List.exists_cons_of_ne_nil some_item
  obtain ⟨first, tail, start, visible, other, -⟩ :=
    (fit item List.mem_cons_self).exists_cons
  cases items with
  | nil => exact ⟨first, tail, by simp [joined, compactItems, start], visible, other⟩
  | cons next items =>
      rw [compactItems, joined_cons _ (by simp [compactItems]), start, List.cons_append]
      exact ⟨first, _, rfl, visible, other⟩

theorem exists_cons_joined_fields {fields : List (String × JsonValue)}
    (some_field : fields ≠ []) : ∃ tail, joined (compactFields fields) = '"' :: tail := by
  obtain ⟨⟨name, value⟩, fields, rfl⟩ := List.exists_cons_of_ne_nil some_field
  have start : (textForm name ++ ":" ++ value.compact).toList =
      '"' :: ((textForm name).toList.tail ++ ':' :: value.compact.toList) := by
    simp [toList_textForm]
  cases fields with
  | nil =>
      rw [compactFields, compactFields, joined, String.intercalate_singleton, start]
      exact ⟨_, rfl⟩
  | cons next fields =>
      rw [compactFields, joined_cons _ (by simp [compactFields]), start, List.cons_append]
      exact ⟨_, rfl⟩

theorem readValue_array {steps depth : ℕ} {first : Char} {rest : List Char}
    (visible : isSpace first = false) (other : first ≠ ']') :
    readValue (steps + 1) (depth + 1) ('[' :: first :: rest) =
      (readItems steps depth (first :: rest)).map fun (items, rest) =>
        (array items, rest) := by
  rw [readValue, if_neg (by omega), skipSpace_cons visible]
  split
  · rename_i same
    cases same
    exact absurd rfl other
  · rfl

theorem readValue_object {steps depth : ℕ} {rest : List Char} :
    readValue (steps + 1) (depth + 1) ('\x7b' :: '"' :: rest) =
      (readFields steps depth ('"' :: rest)).map fun (fields, rest) =>
        (object fields, rest) := by
  rfl

/-- A value is read off the front of a text, whatever follows it. -/
theorem readValue_compact {depth : ℕ} {value : JsonValue} (fits : Fits depth value) :
    ∀ (steps : ℕ) (rest : List Char), value.compact.toList.length ≤ steps →
      EndsNumber rest →
      readValue steps depth (value.compact.toList ++ rest) = some (value, rest) := by
  induction fits with
  | null depth =>
      intro steps rest enough ends
      have length : null.compact.toList.length = 4 := by simp [compact]
      obtain ⟨steps, rfl⟩ : ∃ less, steps = less + 1 := ⟨steps - 1, by omega⟩
      rfl
  | bool depth flag =>
      intro steps rest enough ends
      obtain ⟨steps, rfl⟩ : ∃ less, steps = less + 1 :=
        ⟨steps - 1, by cases flag <;> simp [compact] at enough <;> omega⟩
      cases flag <;> rfl
  | number depth written =>
      intro steps rest enough ends
      obtain ⟨first, more, same, -⟩ := exists_cons_of_isNumber written
      rw [compact] at enough ⊢
      obtain ⟨steps, rfl⟩ : ∃ less, steps = less + 1 :=
        ⟨steps - 1, by rw [same, List.length_cons] at enough; omega⟩
      rw [readValue_number written ends, String.ofList_toList]
  | text depth body =>
      intro steps rest enough ends
      rw [compact] at enough ⊢
      obtain ⟨steps, rfl⟩ : ∃ less, steps = less + 1 :=
        ⟨steps - 1, by rw [toList_textForm, List.length_cons] at enough; omega⟩
      obtain ⟨chars, quote, named⟩ := readText_textForm body rest
      rw [quote, readValue]
      simp [named]
  | @array depth items fit ih =>
      intro steps rest enough ends
      have shape : (array items).compact.toList ++ rest =
          '[' :: (joined (compactItems items) ++ ']' :: rest) := by
        simp [compact, joined]
      have length : (array items).compact.toList.length =
          (joined (compactItems items)).length + 2 := by
        simp [compact, joined]
      obtain ⟨steps, rfl⟩ : ∃ less, steps = less + 1 := ⟨steps - 1, by omega⟩
      rw [shape]
      by_cases none : items = []
      · subst none
        rfl
      · have read := readItems_compact none fit ih steps rest (by omega)
        obtain ⟨first, tail, start, visible, other⟩ := exists_cons_joined_items none fit
        rw [start, List.cons_append] at read ⊢
        rw [readValue_array visible other, read, Option.map_some]
  | @object depth fields fit ih =>
      intro steps rest enough ends
      have shape : (object fields).compact.toList ++ rest =
          '\x7b' :: (joined (compactFields fields) ++ '\x7d' :: rest) := by
        simp [compact, joined]
      have length : (object fields).compact.toList.length =
          (joined (compactFields fields)).length + 2 := by
        simp [compact, joined]
      obtain ⟨steps, rfl⟩ : ∃ less, steps = less + 1 := ⟨steps - 1, by omega⟩
      rw [shape]
      by_cases none : fields = []
      · subst none
        rfl
      · have read := readFields_compact none fit ih steps rest (by omega)
        obtain ⟨tail, start⟩ := exists_cons_joined_fields none
        rw [start, List.cons_append] at read ⊢
        rw [readValue_object, read, Option.map_some]

/-- Reading undoes writing, for values that do not stand too deep in each other. -/
theorem read?_compact {value : JsonValue} (fits : Fits maxDepth value) :
    read? value.compact = some value := by
  obtain ⟨first, tail, start, visible, -⟩ := fits.exists_cons
  have skipped : skipSpace value.compact.toList = value.compact.toList := by
    rw [start, skipSpace_cons visible]
  have read := readValue_compact fits (value.compact.toList.length + 1) [] (by omega)
    (by simp [EndsNumber])
  rw [List.append_nil] at read
  simp only [read?, skipped, read]
  rfl

end JsonValue

end CostTape
