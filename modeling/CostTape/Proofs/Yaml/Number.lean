import CostTape.Proofs.Decimal.Spelling
import CostTape.Proofs.Yaml.Scalar

/-! The words of numbers, and the meaning that they have as words. -/

namespace CostTape

open Decimal

namespace YamlWord

/-- The characters of which the written form of a finite number is made. -/
def numberChars : List Char :=
  ['0', '1', '2', '3', '4', '5', '6', '7', '8', '9', '.', 'e', 'E', '+', '-']

theorem mem_numberChars_of_isDigit {char : Char} (digit : isDigit char = true) :
    char ∈ numberChars := by
  obtain ⟨least, most⟩ : 48 ≤ char.toNat ∧ char.toNat ≤ 57 := by
    simpa [isDigit, Char.le_def, UInt32.le_iff_toNat_le] using digit
  rw [← Char.ofNat_toNat char]
  generalize char.toNat = code at least most
  interval_cases code <;> decide

theorem mem_numberChars_of_all {digits : List Char} (all : digits.all isDigit = true) :
    ∀ char ∈ digits, char ∈ numberChars :=
  fun char mem => mem_numberChars_of_isDigit (List.all_eq_true.mp all char mem)

theorem mem_numberChars_of_exponentOf {chars : List Char} {value : ℤ}
    (read : Parts.exponentOf chars = some value) :
    ∀ char ∈ chars, char ∈ numberChars := by
  have digits {digits : List Char} {number : ℤ}
      (read : (if (digits.isEmpty || !digits.all isDigit) = true then none
        else some number) = some value) : ∀ char ∈ digits, char ∈ numberChars := by
    refine mem_numberChars_of_all ?_
    cases all : digits.all isDigit with
    | true => rfl
    | false => simp [all] at read
  rw [Parts.exponentOf.eq_def] at read
  split at read
  · exact List.forall_mem_cons.mpr ⟨by decide, digits read⟩
  · exact List.forall_mem_cons.mpr ⟨by decide, digits read⟩
  · exact digits read

/-- A regular decimal after an optional minus sign. -/
structure IsNumeral (chars : List Char) (negative : Bool) (body : List Char)
    (parts : Parts) : Prop where
  shape : chars = if negative then '-' :: body else body
  read : Parts.ofChars? body = some parts
  regular : parts.Regular

theorem isNumeral_toString (number : ℤ) :
    IsNumeral (toString number).toList (number < 0) (toString number.natAbs).toList
      ⟨(toString number.natAbs).toList, [], false, none, false⟩ :=
  ⟨toList_toString_int number, ofChars?_toString _, regular_toString _⟩

namespace IsNumeral

variable {chars body : List Char} {negative : Bool} {parts : Parts}

theorem splitSign (numeral : IsNumeral chars negative body parts) :
    splitSign chars = (negative, body) := by
  rw [numeral.shape]
  exact splitSign_of_regular numeral.regular numeral.read negative

theorem exists_cons (numeral : IsNumeral chars negative body parts) :
    ∃ first rest, body = first :: rest ∧ isDigit first = true :=
  numeral.regular.exists_cons numeral.read

theorem mem_numberChars (numeral : IsNumeral chars negative body parts) :
    ∀ char ∈ chars, char ∈ numberChars := by
  have inBody : ∀ char ∈ body, char ∈ numberChars := by
    obtain ⟨tail, rfl, whole, fraction, ends⟩ := Parts.exists_of_ofChars? numeral.read
    simp only [List.forall_mem_append]
    refine ⟨mem_numberChars_of_all whole, ?_, ?_⟩
    · split
      · exact List.forall_mem_cons.mpr ⟨by decide, mem_numberChars_of_all fraction⟩
      · simp
    · rcases ends with ⟨rfl, -⟩ | ⟨mark, exponent, rfl, isMark, value, known⟩
      · simp
      · obtain ⟨number, some⟩ := Option.isSome_iff_exists.mp known
        refine List.forall_mem_cons.mpr ⟨?_,
          mem_numberChars_of_exponentOf (value.trans some)⟩
        rcases isMark with rfl | rfl <;> decide
  rw [numeral.shape]
  cases negative with
  | true => exact List.forall_mem_cons.mpr ⟨by decide, inBody⟩
  | false => exact inBody

theorem startsMarked_eq_false (numeral : IsNumeral chars negative body parts) :
    YamlValue.startsMarked chars = false := by
  obtain ⟨first, rest, rfl, digit⟩ := numeral.exists_cons
  have known := mem_numberChars_of_isDigit digit
  have other : first ≠ '-' ∧ first ≠ '.' := by
    refine ⟨?_, ?_⟩ <;> rintro rfl <;> cases digit
  have unmarked : numberChars.all (fun char => !YamlValue.isBlank char &&
      !"#,[]\x7b\x7d&*!|>'\"%@`".toList.contains char && char != '?' &&
        char != ':') = true := by
    decide
  have fits := List.all_eq_true.mp unmarked first known
  simp only [Bool.and_eq_true, Bool.not_eq_true', bne_iff_ne] at fits
  obtain ⟨⟨⟨solid, mark⟩, question⟩, colon⟩ := fits
  rw [numeral.shape]
  cases negative with
  | true => simp [YamlValue.startsMarked, List.isPrefixOf, solid, Ne.symm other.1]
  | false =>
      rw [if_neg (by decide), YamlValue.startsMarked, mark]
      simp [List.isPrefixOf, other.1, Ne.symm other.1, Ne.symm other.2, question, colon]

end IsNumeral

end YamlWord

namespace YamlValue

theorem hasPair_eq_false_of_first {first second : Char → Bool} {chars : List Char}
    (absent : ∀ char ∈ chars, first char = false) :
    hasPair first second chars = false := by
  induction chars with
  | nil => rfl
  | cons char chars ih =>
      have others := ih fun char mem => absent char (List.mem_cons_of_mem _ mem)
      refine hasPair_cons_eq_false.mpr ⟨?_, others⟩
      intro found
      rw [absent char List.mem_cons_self] at found
      cases found

theorem hasPair_eq_false_of_second {first second : Char → Bool} {chars : List Char}
    (absent : ∀ char ∈ chars, second char = false) :
    hasPair first second chars = false := by
  induction chars with
  | nil => rfl
  | cons char chars ih =>
      have others := fun char mem => absent char (List.mem_cons_of_mem _ mem)
      refine hasPair_cons_eq_false.mpr ⟨?_, ih others⟩
      intro _ next isNext
      exact others next (List.mem_of_mem_head? isNext)

/-- A word of such characters is in need of quotes only because of its start. -/
theorem allowsWord_of_numberChars {chars : List Char}
    (known : ∀ char ∈ chars, char ∈ YamlWord.numberChars)
    (start : startsMarked chars = false) : allowsWord chars = true := by
  have plain : YamlWord.numberChars.all (fun char => isPlainChar char && !isBreak char &&
      char != ' ' && !(char == ':') && !(char == '#')) = true := by
    decide
  have fits : ∀ char ∈ chars, (isPlainChar char && !isBreak char) = true ∧ char ≠ ' ' ∧
      (char == ':') = false ∧ (char == '#') = false := by
    intro char mem
    simpa [and_assoc] using List.all_eq_true.mp plain char (known char mem)
  have head : (chars.head? == some ' ') = false := by
    rw [beq_eq_false_iff_ne]
    intro space
    exact (fits ' ' (List.mem_of_mem_head? space)).2.1 rfl
  have last {char : Char} (other : ∀ other ∈ chars, other ≠ char) :
      (chars.getLast? == some char) = false := by
    rw [beq_eq_false_iff_ne]
    intro ends
    exact other char (List.mem_of_getLast? ends) rfl
  have space := last fun char mem => (fits char mem).2.1
  have colon : (chars.getLast? == some ':') = false :=
    last fun char mem => by simpa using (fits char mem).2.2.1
  simp only [allowsWord, endsInSpace, hasMark, head, space, colon, start,
    hasPair_eq_false_of_first fun char mem => (fits char mem).2.2.1,
    hasPair_eq_false_of_second fun char mem => (fits char mem).2.2.2]
  simpa using fun char mem => (fits char mem).1

end YamlValue

namespace YamlWord

namespace IsNumeral

variable {word : String} {body : List Char} {negative : Bool} {parts : Parts}

theorem allowsWord (numeral : IsNumeral word.toList negative body parts) :
    YamlValue.allowsWord word.toList = true :=
  YamlValue.allowsWord_of_numberChars numeral.mem_numberChars
    numeral.startsMarked_eq_false

theorem ne_empty (numeral : IsNumeral word.toList negative body parts) : word ≠ "" := by
  rintro rfl
  obtain ⟨first, rest, rfl, -⟩ := numeral.exists_cons
  have shape := numeral.shape
  cases negative <;> cases shape

/-- No keyword but the empty one is made of such characters. -/
theorem keyword?_eq_none (numeral : IsNumeral word.toList negative body parts) :
    keyword? word = none := by
  have other {keywords : List String}
      (foreign : keywords.all (fun keyword => keyword == "" ||
        keyword.toList.any (!numberChars.contains ·)) = true) :
        keywords.contains word = false := by
    rw [List.contains_eq_mem, decide_eq_false_iff_not]
    intro mem
    have outside := List.all_eq_true.mp foreign word mem
    rw [Bool.or_eq_true, beq_iff_eq, List.any_eq_true] at outside
    rcases outside with empty | ⟨char, inside, outside⟩
    · exact numeral.ne_empty empty
    · simp [numeral.mem_numberChars char inside] at outside
  simp only [keyword?]
  rw [other (by decide), other (by decide), other (by decide),
    other (by decide), other (by decide), other (by decide)]
  rfl

/-- The whole part ends at a point, at an exponent or with the number. -/
theorem exists_rest (numeral : IsNumeral word.toList negative body parts) :
    parts.whole.all isDigit = true ∧
      ∃ rest, body = parts.whole ++ rest ∧
        (rest = [] → parts.decimal = ⟨natValue parts.whole, 0⟩) ∧
        ∀ char ∈ rest.head?, char = '.' ∨ char = 'e' ∨ char = 'E' := by
  have read := numeral.read
  obtain ⟨tail, shape, digits, -, ends⟩ := Parts.exists_of_ofChars? read
  refine ⟨digits, _, shape, ?_, ?_⟩
  · intro none
    have alone := @Parts.ofChars?_append parts.whole []
      [] false digits rfl (fun _ => rfl) (by simp)
    rw [shape, none] at read
    have same := Option.some.inj (read.symm.trans alone)
    generalize parts.whole = whole at same
    rw [same]
    simp [Parts.decimal]
  · intro char first
    split at first
    · cases first
      exact .inl rfl
    · rcases ends with ⟨rfl, -⟩ | ⟨mark, exponent, rfl, isMark, -⟩
      · cases first
      · cases first
        exact .inr isMark

/-- A minus sign stands at the start of a number or in its exponent, never after the four
digits of a year. -/
theorem isDate_eq_false (numeral : IsNumeral word.toList negative body parts) :
    isDate word.toList = false := by
  obtain ⟨digits, rest, shape, -, ends⟩ := numeral.exists_rest
  rw [numeral.shape]
  cases negative with
  | true =>
      have sign : isDigit '-' = false := rfl
      simp [isDate, sign]
  | false =>
      have year : (parts.whole ++ rest).takeWhile isDigit = parts.whole := by
        rw [List.takeWhile_append_of_pos (List.all_eq_true.mp digits)]
        cases rest with
        | nil => simp
        | cons first rest =>
            rcases ends first rfl with rfl | rfl | rfl <;> simp [isDigit]
      rw [if_neg (by decide), shape, isDate, year]
      by_cases four : parts.whole.length = 4
      · have after : dropChar? '-' ((parts.whole ++ rest).drop 4) = none := by
          rw [← four, List.drop_left]
          cases rest with
          | nil => rfl
          | cons first rest =>
              rcases ends first rfl with rfl | rfl | rfl <;> rfl
        simp [after]
      · simp [four]

end IsNumeral

section Integers

variable {digits : List Char}

theorem digitIn?_ten {char : Char} (digit : isDigit char = true) :
    digitIn? 10 char = some (digitValue char) := by
  have small : digitValue char < 10 := by
    obtain ⟨-, most⟩ : 48 ≤ char.toNat ∧ char.toNat ≤ 57 := by
      simpa [isDigit, Char.le_def, UInt32.le_iff_toNat_le] using digit
    have zero : '0'.toNat = 48 := rfl
    rw [digitValue, zero]
    omega
  simp [digitIn?, digit, small]

theorem natIn?_ten (all : digits.all isDigit = true) :
    natIn? 10 digits = some (natValue digits) := by
  have general (start : ℕ) :
      digits.foldlM (fun value char => (digitIn? 10 char).map (10 * value + ·)) start =
        some (digits.foldl (fun value char => 10 * value + digitValue char) start) := by
    induction digits generalizing start with
    | nil => rfl
    | cons digit digits ih =>
        rw [List.all_cons, Bool.and_eq_true] at all
        rw [List.foldlM_cons, digitIn?_ten all.1, Option.map_some]
        exact ih all.2 _
  exact general 0

theorem natIn?_eq_none {base : ℕ} {char : Char} (foreign : digitIn? base char = none)
    (first rest : List Char) : natIn? base (first ++ char :: rest) = none := by
  rw [natIn?, List.foldlM_append]
  refine Option.bind_eq_none_iff.mpr fun value _ => ?_
  rw [List.foldlM_cons, foreign]
  rfl

theorem magnitude?_of_head (some_digit : digits ≠ []) (start : digits.head? ≠ some '0') :
    magnitude? digits = natIn? 10 digits := by
  rw [magnitude?.eq_def]
  split
  · exact absurd rfl some_digit
  · exact absurd rfl start
  · exact absurd rfl start
  · rfl

theorem magnitude?_of_digits (all : digits.all isDigit = true) (some_digit : digits ≠ [])
    (no_zero : digits.length = 1 ∨ digits.head? ≠ some '0') :
    magnitude? digits = some (natValue digits) := by
  by_cases start : digits.head? = some '0'
  · obtain rfl : digits = ['0'] := by
      have single := no_zero.resolve_right (not_not.mpr start)
      obtain ⟨digit, rfl⟩ := List.length_eq_one_iff.mp single
      simpa using start
    rfl
  · rw [magnitude?_of_head some_digit start, natIn?_ten all]

end Integers

namespace IsNumeral

variable {word : String} {body : List Char} {negative : Bool} {parts : Parts}

/-- A regular decimal is taken for an integer only if it is nothing but digits. -/
theorem decimal_of_magnitude? (numeral : IsNumeral word.toList negative body parts)
    {number : ℕ} (found : magnitude? body = some number) :
    parts.decimal = ⟨number, 0⟩ := by
  obtain ⟨digits, rest, rfl, alone, ends⟩ := numeral.exists_rest
  obtain ⟨some_whole, no_zero, -⟩ := numeral.regular
  cases rest with
  | nil =>
      rw [List.append_nil, magnitude?_of_digits digits some_whole no_zero] at found
      cases found
      exact alone rfl
  | cons mark rest =>
      have foreign : digitIn? 10 mark = none ∧ magnitude? ('0' :: mark :: rest) =
          none := by
        rcases ends mark rfl with rfl | rfl | rfl <;> exact ⟨rfl, rfl⟩
      have refused : magnitude? (parts.whole ++ mark :: rest) = none := by
        by_cases start : parts.whole.head? = some '0'
        · have single := no_zero.resolve_right (not_not.mpr start)
          obtain ⟨digit, whole⟩ := List.length_eq_one_iff.mp single
          rw [whole] at start ⊢
          cases start
          exact foreign.2
        · rw [magnitude?_of_head (by simp), natIn?_eq_none foreign.1]
          rwa [List.head?_append_of_ne_nil _ some_whole]
      rw [refused] at found
      cases found

theorem int?_eq (numeral : IsNumeral word.toList negative body parts) :
    int? word.toList = (magnitude? body).bind fun magnitude =>
      if negative then
        if magnitude ≤ 0x8000000000000000 then some (-(magnitude : ℤ)) else none
      else if magnitude < 0x10000000000000000 then some (magnitude : ℤ)
      else none := by
  rw [int?, numeral.splitSign]
  dsimp only
  congr 1
  funext magnitude
  cases negative with
  | true => rfl
  | false =>
      have same : word.toList = body := numeral.shape
      have bound : (magnitude < 0x8000000000000000 ∨
          (!decide (body.length < word.toList.length)) = true ∧ magnitude < UInt64.size) ↔
          magnitude < 0x10000000000000000 := by
        rw [same]
        simp [UInt64.size]
        omega
      simp only [bound, Bool.false_eq_true, if_false]

theorem ofWord_eq (numeral : IsNumeral word.toList negative body parts) :
    ofWord word =
      match int? word.toList, float? word.toList, markedInt? word.toList with
      | some value, _, _ => int value
      | none, some value, _ => float value
      | none, none, some value => int value
      | none, none, none => text := by
  have clean : word.toList.filter (· != '_') = word.toList := by
    have plain : numberChars.all (· != '_') = true := by decide
    exact List.filter_eq_self.mpr fun char mem =>
      List.all_eq_true.mp plain char (numeral.mem_numberChars char mem)
  have dated := numeral.isDate_eq_false
  obtain ⟨first, rest, spelled, start, dot⟩ : ∃ first rest, word.toList = first :: rest ∧
      (first = '+' ∨ first = '-' ∨ isDigit first = true) ∧ first ≠ '.' := by
    obtain ⟨first, rest, rfl, digit⟩ := numeral.exists_cons
    cases negative with
    | true => exact ⟨'-', _, numeral.shape, by simp, by decide⟩
    | false =>
        refine ⟨first, rest, numeral.shape, .inr (.inr digit), ?_⟩
        rintro rfl
        cases digit
  rw [spelled] at clean dated ⊢
  simp only [ofWord, numeral.keyword?_eq_none, spelled, if_neg dot, if_pos start,
    clean, dated]
  rfl

theorem ofWord_of_int? (numeral : IsNumeral word.toList negative body parts) {number : ℤ}
    (found : int? word.toList = some number) : ofWord word = int number := by
  rw [numeral.ofWord_eq, found]

theorem ofWord_of_float? (numeral : IsNumeral word.toList negative body parts)
    {value : Float} (other : int? word.toList = none)
    (found : float? word.toList = some value) : ofWord word = float value := by
  rw [numeral.ofWord_eq, other, found]

theorem float?_eq (numeral : IsNumeral word.toList negative body parts) {value : Float}
    (same : signed negative parts.decimal.toFloat = value)
    (bounded : value.isInf = false) : float? word.toList = some value := by
  have digits : parts.hasDigits = true := by
    simp [Parts.hasDigits, numeral.regular.some_whole]
  simp [float?, numeral.splitSign, numeral.read, same, digits, bounded]

end IsNumeral

theorem ofWord_toString {number : ℤ} (least : -0x8000000000000000 ≤ number)
    (most : number < 0x8000000000000000) : ofWord (toString number) = int number := by
  have numeral := isNumeral_toString number
  refine numeral.ofWord_of_int? ?_
  have magnitude : magnitude? (toString number.natAbs).toList = some number.natAbs := by
    have regular := regular_toString number.natAbs
    rw [magnitude?_of_digits (all_isDigit_toString _) regular.some_whole regular.no_zero,
      natValue_toString]
  rw [numeral.int?_eq, magnitude]
  simp only [Option.bind_some, decide_eq_true_eq]
  split
  · rw [if_pos (by omega)]
    congr 1
    omega
  · rw [if_pos (by omega)]
    congr 1
    omega

/-- A natural number is read in the same way with and without an exponent. -/
theorem ofInt_eq_signed {number : ℕ} (negative : Bool)
    (bounded : (signed negative (Decimal.toFloat ⟨number, 0⟩)).isInf = false)
    (nonzero : (signed negative (Decimal.toFloat ⟨number, 0⟩) == 0.0) = false) :
    Float.ofInt (if negative then -(number : ℤ) else number) =
      signed negative (Decimal.toFloat ⟨number, 0⟩) := by
  have some : number ≠ 0 := by
    rintro rfl
    cases negative <;> exact absurd nonzero (by decide)
  have low : ¬(Decimal.mk number 0).scale < -400 := by
    have size : (Decimal.mk number 0).scale = 0 + (toString number).length - 1 := rfl
    omega
  have high : ¬400 < (Decimal.mk number 0).scale := by
    intro beyond
    rw [toFloat, if_neg some, if_pos beyond] at bounded
    cases negative <;> exact absurd bounded (by decide)
  rw [toFloat, if_neg some, if_neg high, if_neg low]
  obtain ⟨less, rfl⟩ := Nat.exists_eq_succ_of_ne_zero some
  cases negative <;> rfl

/-- The word of a finite number other than zero stands for that number. -/
theorem ofWord_of_denotes {word : String} {value : Float}
    (denotes : NumberLayout.Denotes word.toList value) (bounded : value.isInf = false)
    (nonzero : (value == 0.0) = false) :
    ofWord word = float value ∨
      ∃ number, ofWord word = int number ∧ Float.ofInt number = value := by
  obtain ⟨negative, body, parts, shape, read, regular, same⟩ := denotes
  have numeral : IsNumeral word.toList negative body parts := ⟨shape, read, regular⟩
  cases found : int? word.toList with
  | none =>
      exact .inl (numeral.ofWord_of_float? found (numeral.float?_eq (same _ rfl) bounded))
  | some number =>
      refine .inr ⟨number, numeral.ofWord_of_int? found, ?_⟩
      rw [numeral.int?_eq] at found
      obtain ⟨magnitude, read, fits⟩ := Option.bind_eq_some_iff.mp found
      obtain rfl : (if negative then -(magnitude : ℤ) else magnitude) = number := by
        cases negative with
        | true => exact Option.some.inj (Option.ite_none_right_eq_some.mp fits).2
        | false => exact Option.some.inj (Option.ite_none_right_eq_some.mp fits).2
      rw [← same ⟨magnitude, 0⟩ (by rw [numeral.decimal_of_magnitude? read])]
        at bounded nonzero ⊢
      exact ofInt_eq_signed negative bounded nonzero

end YamlWord

end CostTape
