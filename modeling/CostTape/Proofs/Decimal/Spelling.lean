import CostTape.Decimal.Layout
import CostTape.Proofs.Decimal.Shortest
import CostTape.Proofs.Text.Hexadecimal

/-! Every written form of a finite binary64 value is read as that value. -/

namespace CostTape

namespace Decimal

theorem length_toString_digits (positive : 0 < number) :
    10 ^ ((toString number).length - 1) ≤ number ∧
      number < 10 ^ (toString number).length := by
  have some : 0 < (toString number).length := by
    rw [Nat.toString_eq_repr]
    exact Nat.length_repr_pos
  have short {size : ℕ} (positive : 0 < size) :
      (toString number).length ≤ size ↔ number < 10 ^ size := by
    rw [Nat.toString_eq_repr]
    exact Nat.length_repr_le_iff positive
  refine ⟨?_, (short some).mp le_rfl⟩
  by_cases one : (toString number).length = 1
  · rw [one]
    exact positive
  · by_contra less
    have := (short (by omega)).mpr (not_le.mp less)
    omega

theorem zpow_scale_le {decimal : Decimal} (positive : 0 < decimal.digits) :
    (10 : ℚ) ^ decimal.scale ≤ decimal.value := by
  obtain ⟨least, -⟩ := length_toString_digits positive
  have some : 0 < (toString decimal.digits).length := by
    rw [Nat.toString_eq_repr]
    exact Nat.length_repr_pos
  have cast : (10 : ℚ) ^ ((toString decimal.digits).length - 1) ≤ decimal.digits := by
    exact_mod_cast least
  have split : decimal.scale = ((toString decimal.digits).length - 1 : ℕ) +
      decimal.exponent := by
    rw [scale]
    omega
  rw [split, zpow_add₀ (by norm_num), zpow_natCast, value]
  gcongr

theorem value_lt_zpow_scale {decimal : Decimal} (positive : 0 < decimal.digits) :
    decimal.value < (10 : ℚ) ^ (decimal.scale + 1) := by
  obtain ⟨-, most⟩ := length_toString_digits positive
  have cast : (decimal.digits : ℚ) < 10 ^ (toString decimal.digits).length := by
    exact_mod_cast most
  have split : decimal.scale + 1 = (toString decimal.digits).length +
      decimal.exponent := by
    rw [scale]
    omega
  rw [split, zpow_add₀ (by norm_num), zpow_natCast, value]
  gcongr

theorem digits_pos_of_attracts {magnitude : Magnitude} {decimal : Decimal}
    (canonical : magnitude.Canonical) (attracts : magnitude.Attracts decimal.value) :
    0 < decimal.digits := by
  have above := Rounding.two_zpow_le_of_attracts canonical attracts
  apply Nat.pos_of_ne_zero
  intro none
  rw [value, none, Nat.cast_zero, zero_mul] at above
  exact absurd above (not_le.mpr (by positivity))

/-- Reading a decimal takes the value that attracts it; the bounds on the scale never
cut off a finite one. -/
theorem toFloat_of_attracts {magnitude : Magnitude} {decimal : Decimal}
    (canonical : magnitude.Canonical) (attracts : magnitude.Attracts decimal.value) :
    decimal.toFloat = Rounding.toFloat canonical .positive := by
  have above := Rounding.two_zpow_le_of_attracts canonical attracts
  have below := Rounding.lt_two_zpow_of_attracts canonical attracts
  have positive := digits_pos_of_attracts canonical attracts
  have high : ¬400 < decimal.scale := by
    intro beyond
    have : (2 : ℚ) ^ (1024 : ℤ) ≤ decimal.value :=
      calc
        (2 : ℚ) ^ (1024 : ℤ) ≤ 10 ^ (400 : ℤ) := by
            exact_mod_cast (by decide +kernel : 2 ^ 1024 ≤ 10 ^ 400)
        _ ≤ 10 ^ decimal.scale := zpow_le_zpow_right₀ (by norm_num) (by omega)
        _ ≤ decimal.value := zpow_scale_le positive
    exact absurd below (not_lt.mpr this)
  have low : ¬decimal.scale < -400 := by
    intro beyond
    have : decimal.value < (2 : ℚ) ^ (-1075 : ℤ) :=
      calc
        decimal.value < 10 ^ (decimal.scale + 1) := value_lt_zpow_scale positive
        _ ≤ 10 ^ (-400 : ℤ) := zpow_le_zpow_right₀ (by norm_num) (by omega)
        _ ≤ 2 ^ (-1075 : ℤ) := by
            rw [zpow_neg, zpow_neg]
            gcongr
            exact_mod_cast (by decide +kernel : 2 ^ 1075 ≤ 10 ^ 400)
    exact absurd above (not_le.mpr this)
  rw [toFloat, if_neg positive.ne', if_neg high, if_neg low]
  refine Rounding.ofScientific_of_attracts canonical positive ?_
  have exponent :
      (if decide (decimal.exponent < 0) = true then -(decimal.exponent.natAbs : ℤ)
      else decimal.exponent.natAbs) = decimal.exponent := by
    simp only [decide_eq_true_eq]
    split <;> omega
  rw [exponent]
  exact attracts

theorem natValue_eq (digits : List Char) :
    natValue digits = Nat.ofDigitChars 10 digits 0 := rfl

theorem natValue_append (first second : List Char) :
    natValue (first ++ second) = 10 ^ second.length * natValue first +
      natValue second := by
  rw [natValue_eq, Nat.ofDigitChars_append, Nat.ofDigitChars_eq_ofDigitChars_zero]
  rfl

theorem natValue_replicate_zero (count : ℕ) :
    natValue (List.replicate count '0') = 0 := by
  rw [natValue_eq, Nat.ofDigitChars_replicate_zero, mul_zero]

theorem natValue_toString (number : ℕ) : natValue (toString number).toList = number := by
  rw [Nat.toString_eq_repr, Nat.toList_repr, natValue_eq, Nat.ofDigitChars_ten_toDigits]

theorem isDigit_eq (char : Char) : isDigit char = char.isDigit := rfl

theorem all_isDigit_toString (number : ℕ) :
    (toString number).toList.all isDigit = true := by
  rw [Nat.toString_eq_repr, Nat.toList_repr, List.all_eq_true]
  intro char mem
  rw [isDigit_eq]
  exact Nat.isDigit_of_mem_toDigits (by norm_num) le_rfl mem

theorem toString_ne_nil (number : ℕ) : (toString number).toList ≠ [] := by
  rw [Nat.toString_eq_repr, Nat.toList_repr]
  exact Nat.toDigits_ne_nil

theorem head?_toString_ne_zero {number : ℕ} (positive : 0 < number) :
    (toString number).toList.head? ≠ some '0' := by
  rw [Nat.toString_eq_repr, Nat.toList_repr]
  induction number using Nat.strongRecOn with
  | _ number ih =>
      rw [Nat.toDigits_eq_if (by norm_num)]
      split
      · interval_cases number <;> decide
      · rename_i large
        rw [List.head?_append_of_ne_nil _ Nat.toDigits_ne_nil]
        exact ih _ (by omega) (by omega)

namespace Parts

/-- The parts when only the exponent is left to read. -/
def ofTail? (whole fraction : List Char) (hasPoint : Bool) : List Char → Option Parts
  | [] => some ⟨whole, fraction, hasPoint, none, false⟩
  | mark :: exponent =>
      if mark = 'e' ∨ mark = 'E' then
        (exponentOf exponent).map fun value =>
          ⟨whole, fraction, hasPoint, some value, true⟩
      else
        none

/-- Digits, then perhaps a point with digits, then what cannot belong to them. -/
theorem ofChars?_append {whole fraction tail : List Char} {hasPoint : Bool}
    (wholeDigits : whole.all isDigit = true)
    (fractionDigits : fraction.all isDigit = true)
    (pointed : hasPoint = false → fraction = [])
    (ends : ∀ char ∈ tail.head?, isDigit char = false ∧ char ≠ '.') :
    ofChars? (whole ++ ((if hasPoint then '.' :: fraction else []) ++ tail)) =
      ofTail? whole fraction hasPoint tail := by
  have stops : tail.takeWhile isDigit = [] ∧ tail.dropWhile isDigit = tail := by
    cases tail with
    | nil => exact ⟨rfl, rfl⟩
    | cons first rest =>
        have other := (ends first rfl).1
        simp [other]
  have digits := List.all_eq_true.mp wholeDigits
  have more := List.all_eq_true.mp fractionDigits
  cases hasPoint with
  | true =>
      have point : isDigit '.' = false := rfl
      simp only [ofChars?, List.takeWhile_append_of_pos digits,
        List.dropWhile_append_of_pos digits]
      simp [point, List.takeWhile_append_of_pos more,
        List.dropWhile_append_of_pos more, stops]
      cases tail <;> rfl
  | false =>
      obtain rfl := pointed rfl
      have head : (tail.head? == some '.') = false := by
        cases tail with
        | nil => rfl
        | cons first rest => simpa using (ends first rfl).2
      simp only [ofChars?, List.takeWhile_append_of_pos digits,
        List.dropWhile_append_of_pos digits]
      simp [stops, head]
      cases tail <;> rfl

/-- The texts that end the parts of a number. -/
def IsTail (tail : List Char) (parts : Parts) : Prop :=
  tail = [] ∧ parts.exponent = none ∨
    ∃ mark exponent, tail = mark :: exponent ∧ (mark = 'e' ∨ mark = 'E') ∧
      exponentOf exponent = parts.exponent ∧ parts.exponent.isSome = true

theorem of_ofTail? {whole fraction tail : List Char} {hasPoint : Bool} {parts : Parts}
    (read : ofTail? whole fraction hasPoint tail = some parts) :
    parts.whole = whole ∧ parts.fraction = fraction ∧ parts.hasPoint = hasPoint ∧
      IsTail tail parts := by
  unfold ofTail? at read
  split at read
  · cases read
    exact ⟨rfl, rfl, rfl, .inl ⟨rfl, rfl⟩⟩
  · rename_i mark exponent
    split at read
    · rename_i isMark
      obtain ⟨value, found, rfl⟩ := Option.map_eq_some_iff.mp read
      exact ⟨rfl, rfl, rfl, .inr ⟨mark, exponent, rfl, isMark, found, rfl⟩⟩
    · cases read

/-- What a text must look like to have parts. -/
theorem exists_of_ofChars? {chars : List Char} {parts : Parts}
    (read : ofChars? chars = some parts) :
    ∃ tail, chars = parts.whole ++
        ((if parts.hasPoint then '.' :: parts.fraction else []) ++ tail) ∧
      parts.whole.all isDigit = true ∧ parts.fraction.all isDigit = true ∧
      IsTail tail parts := by
  have pieces := List.takeWhile_append_dropWhile (p := isDigit) (l := chars)
  have digits : (chars.takeWhile isDigit).all isDigit = true := List.all_takeWhile
  simp only [ofChars?] at read
  generalize chars.takeWhile isDigit = whole at pieces digits read
  generalize chars.dropWhile isDigit = rest at pieces read
  subst pieces
  by_cases point : (rest.head? == some '.') = true
  · obtain ⟨after, rfl⟩ : ∃ after, rest = '.' :: after := by
      cases rest with
      | nil => cases point
      | cons first after => exact ⟨after, by simpa using point⟩
    have inner := List.takeWhile_append_dropWhile (p := isDigit) (l := after)
    have more : (after.takeWhile isDigit).all isDigit = true := List.all_takeWhile
    simp only [point, if_true, List.drop_succ_cons, List.drop_zero] at read
    generalize after.takeWhile isDigit = fraction at inner more read
    generalize after.dropWhile isDigit = tail at inner read
    have tailRead : ofTail? whole fraction true tail = some parts := by
      cases tail <;> exact read
    obtain ⟨rfl, rfl, pointed, isTail⟩ := of_ofTail? tailRead
    exact ⟨tail, by rw [pointed, ← inner]; rfl, digits, more, isTail⟩
  · rw [Bool.not_eq_true] at point
    simp only [point, Bool.false_eq_true, if_false] at read
    have tailRead : ofTail? whole [] false rest = some parts := by
      cases rest <;> exact read
    obtain ⟨rfl, none, pointed, isTail⟩ := of_ofTail? tailRead
    exact ⟨rest, by rw [pointed]; rfl, digits, by rw [none]; rfl, isTail⟩

/-- The form that every reader takes: a whole part without a needless zero, and no point
without digits after it. -/
structure Regular (parts : Parts) : Prop where
  some_whole : parts.whole ≠ []
  no_zero : parts.whole.length = 1 ∨ parts.whole.head? ≠ some '0'
  some_fraction : parts.hasPoint = true → parts.fraction ≠ []

end Parts

end Decimal

namespace NumberLayout

open Decimal Float.Model Float.Model.UnpackedFloat

/-- The text spells the decimal in a regular form. -/
def Spells (text : List Char) (decimal : Decimal) : Prop :=
  ∃ parts, Parts.ofChars? text = some parts ∧ parts.Regular ∧
    parts.decimal.value = decimal.value

variable {decimal : Decimal}

theorem all_isDigit_replicate (count : ℕ) :
    (List.replicate count '0').all isDigit = true := by
  rw [List.all_replicate]
  split <;> rfl

theorem spells_whole {whole : List Char} (digits : whole.all isDigit = true)
    (some_whole : whole ≠ [])
    (no_zero : whole.length = 1 ∨ whole.head? ≠ some '0')
    (value : (natValue whole : ℚ) = decimal.value) : Spells whole decimal := by
  have read := @Parts.ofChars?_append whole [] [] false digits rfl (fun _ => rfl)
    (by simp)
  rw [if_neg (by decide), List.nil_append, List.append_nil] at read
  refine ⟨_, read, ⟨some_whole, no_zero, by simp⟩, ?_⟩
  simpa [Parts.decimal, Decimal.value] using value

theorem spells_point {whole fraction : List Char}
    (digits : (whole ++ fraction).all isDigit = true) (some_whole : whole ≠ [])
    (some_fraction : fraction ≠ []) (no_zero : whole.length = 1 ∨ whole.head? ≠ some '0')
    (same : natValue (whole ++ fraction) = decimal.digits)
    (length : -(fraction.length : ℤ) = decimal.exponent) :
    Spells (whole ++ '.' :: fraction) decimal := by
  rw [List.all_append, Bool.and_eq_true] at digits
  have read := @Parts.ofChars?_append whole fraction [] true digits.1 digits.2 (by simp)
    (by simp)
  rw [if_pos rfl, List.append_nil] at read
  refine ⟨_, read, ⟨some_whole, no_zero, fun _ => some_fraction⟩, ?_⟩
  simp [Parts.decimal, Decimal.value, same, ← length]

theorem spells_positionalText (positive : 0 < decimal.digits) :
    Spells (positionalText decimal).toList decimal := by
  have digits := all_isDigit_toString decimal.digits
  have some := toString_ne_nil decimal.digits
  have lead := head?_toString_ne_zero positive
  have spelled := natValue_toString decimal.digits
  have size : decimal.scale = decimal.exponent +
      (toString decimal.digits).toList.length - 1 := by
    rw [scale, String.length_toList]
  simp only [positionalText]
  generalize (toString decimal.digits) = text at *
  split
  · rename_i whole
    have zeros : ((text ++ "".pushn '0' decimal.exponent.toNat).toList) =
        text.toList ++ List.replicate decimal.exponent.toNat '0' := by
      simp [Text.toList_pushn]
    rw [zeros]
    refine spells_whole ?_ ?_ (.inr ?_) ?_
    · rw [List.all_append, digits, all_isDigit_replicate]
      rfl
    · simp [some]
    · rwa [List.head?_append_of_ne_nil _ some]
    · rw [natValue_append, natValue_replicate_zero, spelled, List.length_replicate,
        Decimal.value]
      obtain ⟨height, same⟩ := Int.eq_ofNat_of_zero_le whole
      rw [same, Int.toNat_natCast, zpow_natCast]
      push_cast
      ring
  · rename_i fraction
    split
    · rename_i inside
      have point : (String.ofList (text.toList.take (decimal.scale + 1).toNat) ++ "." ++
          String.ofList (text.toList.drop (decimal.scale + 1).toNat)).toList =
          text.toList.take (decimal.scale + 1).toNat ++
            '.' :: text.toList.drop (decimal.scale + 1).toNat := by
        simp
      have pieces := List.take_append_drop (decimal.scale + 1).toNat text.toList
      rw [point]
      refine spells_point ?_ ?_ ?_ (.inr ?_) ?_ ?_
      · rwa [pieces]
      · rw [Ne, List.take_eq_nil_iff, not_or]
        exact ⟨by omega, some⟩
      · rw [Ne, List.drop_eq_nil_iff]
        omega
      · rwa [List.head?_take, if_neg (by omega)]
      · rwa [pieces]
      · rw [List.length_drop]
        omega
    · rename_i outside
      have point : ("0." ++ "".pushn '0' (-decimal.scale - 1).toNat ++ text).toList =
          ['0'] ++ '.' :: (List.replicate (-decimal.scale - 1).toNat '0' ++
            text.toList) := by
        simp [Text.toList_pushn]
      rw [point]
      refine spells_point ?_ (by simp) (by simp [some]) (.inl rfl) ?_ ?_
      · rw [List.all_append, List.all_append, digits, all_isDigit_replicate]
        rfl
      · rw [natValue_append, natValue_append, natValue_replicate_zero, spelled]
        simp [natValue, digitValue]
      · rw [List.length_append, List.length_replicate]
        omega

theorem exponentOf_signed {sign : Char} {digits : List Char}
    (isSign : sign = '-' ∨ sign = '+') (decimal : digits.all isDigit = true)
    (some_digits : digits ≠ []) : Parts.exponentOf (sign :: digits) =
      some (if sign = '-' then -(natValue digits : ℤ) else natValue digits) := by
  rcases isSign with rfl | rfl <;> simp [Parts.exponentOf, decimal, some_digits]

theorem exponentOf_scale (scale : ℤ) (zeros : ℕ) :
    Parts.exponentOf ((if scale < 0 then '-' else '+') ::
      (List.replicate zeros '0' ++ (toString scale.natAbs).toList)) = some scale := by
  have digits : (List.replicate zeros '0' ++ (toString scale.natAbs).toList).all isDigit =
      true := by
    rw [List.all_append, all_isDigit_replicate, all_isDigit_toString]
    rfl
  have value : natValue (List.replicate zeros '0' ++ (toString scale.natAbs).toList) =
      scale.natAbs := by
    rw [natValue_append, natValue_replicate_zero, natValue_toString, mul_zero, zero_add]
  rw [exponentOf_signed (by split <;> simp) digits
    (List.append_ne_nil_of_right_ne_nil _ (toString_ne_nil _)), value]
  congr 1
  by_cases negative : scale < 0
  · rw [if_pos negative, if_pos rfl]
    omega
  · rw [if_neg negative, if_neg (by decide)]
    omega

theorem spells_exponentText (width : ℕ) (decimal : Decimal) :
    Spells (exponentText width decimal).toList decimal := by
  have digits := all_isDigit_toString decimal.digits
  have spelled := natValue_toString decimal.digits
  have size : decimal.scale = decimal.exponent +
      (toString decimal.digits).toList.length - 1 := by
    rw [scale, String.length_toList]
  obtain ⟨first, rest, text⟩ := List.exists_cons_of_ne_nil
    (toString_ne_nil decimal.digits)
  rw [text] at digits spelled size
  rw [List.all_cons, Bool.and_eq_true] at digits
  obtain ⟨tail, tail_eq⟩ : ∃ tail, tail = (if decimal.scale < 0 then '-' else '+') ::
      (List.replicate (width - (toString decimal.scale.natAbs).length) '0' ++
        (toString decimal.scale.natAbs).toList) := ⟨_, rfl⟩
  have exponent : Parts.exponentOf tail = some decimal.scale := by
    rw [tail_eq, exponentOf_scale]
  have chars : (exponentText width decimal).toList =
      [first] ++ ((if !rest.isEmpty then '.' :: rest else []) ++ 'e' :: tail) := by
    have mark : (if decimal.scale < 0 then "e-" else "e+").toList =
        ['e', if decimal.scale < 0 then '-' else '+'] := by
      split <;> rfl
    rw [tail_eq]
    simp only [exponentText, text]
    cases rest <;> simp [Text.toList_pushn, mark]
  have read := @Parts.ofChars?_append [first] rest ('e' :: tail) (!rest.isEmpty)
    (by simpa using digits.1) digits.2 (by simp) (by simp; decide)
  have parts : Parts.ofTail? [first] rest (!rest.isEmpty) ('e' :: tail) =
      some ⟨[first], rest, !rest.isEmpty, some decimal.scale, true⟩ := by
    simp [Parts.ofTail?, exponent]
  rw [chars]
  refine ⟨_, read.trans parts, ⟨by simp, .inl rfl, by simp⟩, ?_⟩
  have places : decimal.scale - rest.length = decimal.exponent := by
    rw [size, List.length_cons]
    omega
  simp [Parts.decimal, Decimal.value, spelled, places]

/-- After its sign the text is a regular decimal, and whatever decimal of the same value
is read for it gives the binary64 value. -/
def Denotes (text : List Char) (value : Float) : Prop :=
  ∃ (negative : Bool) (body : List Char) (parts : Parts),
    text = (if negative then '-' :: body else body) ∧
    Parts.ofChars? body = some parts ∧ parts.Regular ∧
    ∀ decimal : Decimal, decimal.value = parts.decimal.value →
      signed negative decimal.toFloat = value

theorem eq_ofModel_pack_unpack (value : Float) :
    value = .ofModel (.pack value.toModel.unpack) := by
  rw [Rounding.pack_unpack]

theorem signed_toFloat {magnitude : Magnitude} (canonical : magnitude.Canonical)
    (negative : Bool) :
    signed negative (Rounding.toFloat canonical .positive) =
      Rounding.toFloat canonical (if negative then .negative else .positive) := by
  cases negative with
  | false => rfl
  | true =>
      show Float.ofModel (.pack (UnpackedFloat.neg (Float.Model.pack
        (.finite .positive magnitude.mantissa magnitude.exponent
          canonical.positive)).unpack)) = _
      rw [Rounding.unpack_pack canonical]
      rfl

theorem signed_zero (negative : Bool) :
    signed negative 0.0 =
      .ofModel (.pack (.zero (if negative then .negative else .positive))) := by
  cases negative <;> decide +kernel

theorem spells_decimalText (layout : NumberLayout) {decimal : Decimal}
    (positive : 0 < decimal.digits) :
    Spells (layout.decimalText decimal).toList decimal := by
  rw [decimalText]
  split
  · exact spells_positionalText positive
  · exact spells_exponentText _ _

theorem spells_zero (layout : NumberLayout) :
    Spells (layout.decimalText ⟨0, 0⟩).toList ⟨0, 0⟩ := by
  rw [decimalText]
  split
  · have zero : positionalText ⟨0, 0⟩ = "0" := by decide +kernel
    rw [zero]
    exact spells_whole rfl (by decide) (.inl rfl)
      (by simp [Decimal.value, natValue, digitValue])
  · exact spells_exponentText _ _

theorem toFloat_of_value_eq_zero {decimal : Decimal} (zero : decimal.value = 0) :
    decimal.toFloat = 0.0 := by
  have none : decimal.digits = 0 := by
    rw [value, mul_eq_zero] at zero
    exact_mod_cast zero.resolve_right (by positivity)
  rw [toFloat, if_pos none]

theorem isFinite_iff (value : Float) :
    value.isFinite = true ↔ value.isNaN = false ∧ value.isInf = false := by
  show value.toModel.unpack.isFinite = true ↔
    value.toModel.unpack.isNaN = false ∧ value.toModel.unpack.isInf = false
  cases value.toModel.unpack <;>
    simp [UnpackedFloat.isFinite, UnpackedFloat.isNaN, UnpackedFloat.isInf]

theorem denotes_text (layout : NumberLayout) {value : Float}
    (finite : value.isFinite = true) : Denotes (layout.text value).toList value := by
  obtain ⟨number, bounded⟩ := (isFinite_iff value).mp finite
  have sign : (if value.toBits >>> 63 == 1 then Sign.negative else .positive) =
    Magnitude.signOf value := rfl
  rw [text, number, bounded]
  simp only [Bool.false_eq_true, if_false]
  generalize (value.toBits >>> 63 == 1) = negative at sign ⊢
  refine ⟨negative, (layout.decimalText (Magnitude.ofFloat value).shortest).toList, ?_⟩
  have shown :
      (if negative = true then "-" ++ layout.decimalText
        (Magnitude.ofFloat value).shortest
      else layout.decimalText (Magnitude.ofFloat value).shortest).toList =
      if negative = true then '-' ::
        (layout.decimalText (Magnitude.ofFloat value).shortest).toList
      else (layout.decimalText (Magnitude.ofFloat value).shortest).toList := by
    cases negative <;> simp
  rcases Magnitude.unpack_of_isFinite finite with ⟨unpacked, zero⟩ | ⟨canonical, unpacked⟩
  · have shortest : (Magnitude.ofFloat value).shortest = ⟨0, 0⟩ := by
      rw [Magnitude.shortest, if_pos zero]
    rw [shortest] at shown ⊢
    obtain ⟨parts, read, regular, same⟩ := spells_zero layout
    refine ⟨parts, shown, read, regular, ?_⟩
    intro decimal equal
    rw [toFloat_of_value_eq_zero (by rw [equal, same]; simp [Decimal.value]),
      signed_zero, sign, ← unpacked]
    exact (eq_ofModel_pack_unpack value).symm
  · have attracts := Magnitude.attracts_shortest canonical
    have positive := digits_pos_of_attracts canonical attracts
    obtain ⟨parts, read, regular, same⟩ := spells_decimalText layout positive
    refine ⟨parts, shown, read, regular, ?_⟩
    intro decimal equal
    rw [← same, ← equal] at attracts
    rw [toFloat_of_attracts canonical attracts, signed_toFloat, sign, Rounding.toFloat,
      ← unpacked]
    exact (eq_ofModel_pack_unpack value).symm

end NumberLayout

namespace Decimal

theorem Parts.Regular.exists_cons {body : List Char} {parts : Parts}
    (regular : parts.Regular) (read : Parts.ofChars? body = some parts) :
    ∃ first rest, body = first :: rest ∧ isDigit first = true := by
  obtain ⟨tail, rfl, digits, -, -⟩ := Parts.exists_of_ofChars? read
  obtain ⟨first, rest, whole⟩ := List.exists_cons_of_ne_nil regular.some_whole
  rw [whole, List.all_cons, Bool.and_eq_true] at digits
  exact ⟨first, _, by rw [whole, List.cons_append], digits.1⟩

theorem splitSign_of_regular {body : List Char} {parts : Parts} (regular : parts.Regular)
    (read : Parts.ofChars? body = some parts) (negative : Bool) :
    splitSign (if negative then '-' :: body else body) = (negative, body) := by
  cases negative with
  | true => rfl
  | false =>
      obtain ⟨first, rest, rfl, digit⟩ := regular.exists_cons read
      rw [if_neg (by decide), splitSign.eq_def]
      split
      · rename_i same
        cases same
        cases digit
      · rename_i same
        cases same
        cases digit
      · rfl

theorem readChars?_of_denotes {text : List Char} {value : Float}
    (denotes : NumberLayout.Denotes text value) : readChars? text = some value := by
  obtain ⟨negative, body, parts, rfl, read, regular, same⟩ := denotes
  have digits : parts.hasDigits = true := by
    simp [Parts.hasDigits, regular.some_whole]
  rw [readChars?, splitSign_of_regular regular read]
  simp only [readUnsigned?, read, Option.bind_some, if_pos digits, Option.map_some]
  rw [same _ rfl]

theorem toList_toString_int (number : ℤ) :
    (toString number).toList =
      if (number < 0 : Bool) then '-' :: (toString number.natAbs).toList
      else (toString number.natAbs).toList := by
  rw [Int.toString_eq_repr, Int.repr_eq_if, Nat.toString_eq_repr]
  by_cases negative : number < 0
  · have size : (-number).toNat = number.natAbs := by omega
    simp [negative, not_le.mpr negative, size]
  · have size : number.toNat = number.natAbs := by omega
    simp [negative, not_lt.mp negative, size]

theorem ofChars?_toString (number : ℕ) :
    Parts.ofChars? (toString number).toList =
      some ⟨(toString number).toList, [], false, none, false⟩ := by
  have read := @Parts.ofChars?_append (toString number).toList [] [] false
    (all_isDigit_toString number) rfl (fun _ => rfl) (by simp)
  rwa [if_neg (by decide), List.nil_append, List.append_nil] at read

theorem regular_toString (number : ℕ) :
    Parts.Regular ⟨(toString number).toList, [], false, none, false⟩ := by
  refine ⟨toString_ne_nil number, ?_, by simp⟩
  rcases Nat.eq_zero_or_pos number with rfl | positive
  · exact .inl rfl
  · exact .inr (head?_toString_ne_zero positive)

theorem isNaN_toFloat (decimal : Decimal) : decimal.toFloat.isNaN = false := by
  unfold toFloat
  split
  · decide +kernel
  · split
    · decide +kernel
    · split
      · decide +kernel
      · exact Rounding.isNaN_ofScientific (Nat.pos_of_ne_zero ‹_›) _ _

theorem isNaN_signed (negative : Bool) {value : Float} (number : value.isNaN = false) :
    (signed negative value).isNaN = false := by
  cases negative with
  | false => exact number
  | true =>
      refine Rounding.isNaN_ofModel_pack ?_
      change value.toModel.unpack.isNaN = false at number
      cases unpacked : value.toModel.unpack with
      | notANumber =>
          rw [unpacked] at number
          cases number
      | _ => exact nofun

theorem isNaN_of_readChars? {chars : List Char} {value : Float}
    (read : readChars? chars = some value) : value.isNaN = false := by
  simp only [readChars?, readUnsigned?, Option.map_eq_some_iff,
    Option.bind_eq_some_iff] at read
  obtain ⟨magnitude, ⟨parts, -, taken⟩, rfl⟩ := read
  split at taken
  · cases taken
    exact isNaN_signed _ (isNaN_toFloat _)
  · cases taken

end Decimal

end CostTape
