import CostTape.Proofs.Decimal.Nearest

/-! The shortest decimal of a binary64 value is one that the value attracts. -/

namespace CostTape

open Float.Model Float.Model.UnpackedFloat

namespace Magnitude

/-- The sign that a written form of the value shows. -/
def signOf (value : Float) : Sign :=
  if value.toBits >>> 63 == 1 then .negative else .positive

theorem toNat_unpackExponent (bits : UInt64) :
    (@unpackExponent Format.binary64 bits.toBitVec).toNat =
      ((bits >>> 52) &&& 0x7FF).toNat := by
  have mask : bits.toNat >>> 52 &&& 2047 = bits.toNat >>> 52 % 2048 :=
    Nat.and_two_pow_sub_one_eq_mod _ 11
  simp [unpackExponent, BitVec.extractLsb_toNat, Format.binary64, mask]

theorem toNat_unpackMantissa (bits : UInt64) :
    (@unpackMantissa Format.binary64 bits.toBitVec).toNat =
      (bits &&& 0xFFFFFFFFFFFFF).toNat := by
  have mask : bits.toNat &&& 4503599627370495 = bits.toNat % 4503599627370496 :=
    Nat.and_two_pow_sub_one_eq_mod _ 52
  simp [unpackMantissa, BitVec.extractLsb_toNat, Format.binary64, mask]

theorem ofBitVec_unpackSign (value : Float) :
    Sign.ofBitVec (@unpackSign Format.binary64 value.toBits.toBitVec) = signOf value := by
  generalize same : value.toBits = bits
  have narrow : bits.toNat >>> 63 < 2 := by
    have := bits.toNat_lt
    rw [Nat.shiftRight_eq_div_pow]
    omega
  have unpacked : (@unpackSign Format.binary64 bits.toBitVec).toNat =
      bits.toNat >>> 63 := by
    simp [unpackSign, BitVec.extractLsb_toNat, Format.binary64]
    omega
  have shown : (bits >>> 63).toNat = bits.toNat >>> 63 := by simp
  rw [signOf, same, Sign.ofBitVec]
  by_cases set : bits >>> 63 = 1
  · have one : bits.toNat >>> 63 = 1 := by rw [← shown, set]; rfl
    have other : @unpackSign Format.binary64 bits.toBitVec ≠ 0#1 := by
      intro none
      rw [none, one] at unpacked
      cases unpacked
    rw [if_neg other, if_pos (beq_iff_eq.mpr set)]
  · have zero : bits.toNat >>> 63 = 0 := by
      by_contra some
      refine set (UInt64.toNat_inj.mp ?_)
      rw [shown]
      show _ = 1
      omega
    have none : @unpackSign Format.binary64 bits.toBitVec = 0#1 :=
      BitVec.eq_of_toNat_eq (unpacked.trans zero)
    rw [if_pos none, if_neg (by simpa using set)]

/-- The magnitude with these exponent and fraction bits. -/
def ofFields (biased : BitVec 11) (fraction : BitVec 52) : Magnitude :=
  if biased.toNat = 0 then
    ⟨fraction.toNat, -1074, false⟩
  else
    ⟨0x10000000000000 + fraction.toNat, (biased.toNat : Int) - 1075,
      fraction.toNat == 0 && 1 < biased.toNat⟩

theorem ofFloat_eq_ofFields (value : Float) :
    ofFloat value = ofFields (@unpackExponent Format.binary64 value.toBits.toBitVec)
      (@unpackMantissa Format.binary64 value.toBits.toBitVec) := by
  rw [ofFields, toNat_unpackExponent, toNat_unpackMantissa]
  rfl

theorem canonical_ofFields {biased : BitVec 11} {fraction : BitVec 52}
    (bounded : biased ≠ -1#11) (positive : biased ≠ 0#11 ∨ fraction ≠ 0#52) :
    (ofFields biased fraction).Canonical := by
  have fraction_lt := fraction.isLt
  have biased_lt : biased.toNat < 2047 := by
    have bound := biased.isLt
    have other : biased.toNat ≠ 2047 := fun same => bounded (BitVec.eq_of_toNat_eq same)
    omega
  unfold ofFields
  split
  · rename_i least
    have some : fraction.toNat ≠ 0 := by
      intro none
      rcases positive with other | other
      · exact other (BitVec.eq_of_toNat_eq least)
      · exact other (BitVec.eq_of_toNat_eq none)
    refine ⟨?_, ?_, ?_, ?_, .inl rfl, ?_⟩ <;> simp <;> omega
  · rename_i normal
    refine ⟨?_, ?_, ?_, ?_, .inr ?_, ?_⟩ <;> simp <;> omega

theorem unpack_packComponents (sign : Sign) {biased : BitVec 11} {fraction : BitVec 52}
    (bounded : biased ≠ -1#11) (positive : biased ≠ 0#11 ∨ fraction ≠ 0#52) :
    UnpackedFloat.unpack Format.binary64
        (packComponents Format.binary64 sign biased fraction) =
      .finite sign (ofFields biased fraction).mantissa (ofFields biased fraction).exponent
        (canonical_ofFields bounded positive).positive := by
  have canonical := canonical_ofFields bounded positive
  have fraction_lt := fraction.isLt
  by_cases least : biased = 0#11
  · subst least
    have some := canonical.positive
    have fields : ofFields 0#11 fraction = ⟨fraction.toNat, -1074, false⟩ := rfl
    simp only [fields] at some ⊢
    have unpacked := Rounding.unpack_packComponents_subnormal sign some fraction_lt
    rwa [BitVec.ofNat_toNat, BitVec.setWidth_eq] at unpacked
  · have normal : biased.toNat ≠ 0 := fun zero => least (BitVec.eq_of_toNat_eq zero)
    have top : biased.toNat ≠ 2047 := fun all => bounded (BitVec.eq_of_toNat_eq all)
    have bound := biased.isLt
    have fields : ofFields biased fraction = ⟨0x10000000000000 + fraction.toNat,
        (biased.toNat : Int) - 1075, fraction.toNat == 0 && 1 < biased.toNat⟩ :=
      if_neg normal
    simp only [fields]
    have unpacked := @Rounding.unpack_packComponents_normal sign
      (0x10000000000000 + fraction.toNat) biased.toNat (by omega) (by omega) (by omega)
      (by omega)
    have low : BitVec.ofNat 52 (0x10000000000000 + fraction.toNat) = fraction := by
      apply BitVec.eq_of_toNat_eq
      rw [BitVec.toNat_ofNat]
      omega
    rwa [BitVec.ofNat_toNat, BitVec.setWidth_eq, low] at unpacked

theorem unpack_packComponents_isFinite {sign : Sign} {biased : BitVec 11}
    {fraction : BitVec 52}
    (finite : (UnpackedFloat.unpack Format.binary64
      (packComponents Format.binary64 sign biased fraction)).isFinite = true) :
    biased ≠ -1#11 := by
  rintro rfl
  rw [UnpackedFloat.unpack] at finite
  simp only [unpackExponent_packComponents] at finite
  rw [if_pos trivial] at finite
  split at finite <;> cases finite

/-- A finite value is a zero, or the magnitude that its written form starts from. -/
theorem unpack_of_isFinite {value : Float} (finite : value.isFinite = true) :
    (value.toModel.unpack = .zero (signOf value) ∧ (ofFloat value).mantissa = 0) ∨
    ∃ canonical : (ofFloat value).Canonical,
      value.toModel.unpack = .finite (signOf value) (ofFloat value).mantissa
        (ofFloat value).exponent canonical.positive := by
  obtain ⟨biased, biased_eq⟩ : ∃ biased : BitVec 11,
    @unpackExponent Format.binary64 value.toBits.toBitVec = biased := ⟨_, rfl⟩
  obtain ⟨fraction, fraction_eq⟩ : ∃ fraction : BitVec 52,
    @unpackMantissa Format.binary64 value.toBits.toBitVec = fraction := ⟨_, rfl⟩
  have packed : value.toModel.unpack = UnpackedFloat.unpack Format.binary64
      (packComponents Format.binary64 (signOf value) biased fraction) := by
    rw [← ofBitVec_unpackSign, ← biased_eq, ← fraction_eq,
      packComponents_unpackSign_unpackExponent_unpackMantissa]
    rfl
  have fields : ofFloat value = ofFields biased fraction := by
    rw [ofFloat_eq_ofFields, biased_eq, fraction_eq]
  have bounded : biased ≠ -1#11 := by
    change value.toModel.unpack.isFinite = true at finite
    rw [packed] at finite
    exact unpack_packComponents_isFinite finite
  rw [packed, fields]
  by_cases some : biased ≠ 0#11 ∨ fraction ≠ 0#52
  · exact .inr ⟨canonical_ofFields bounded some, unpack_packComponents _ bounded some⟩
  · obtain ⟨rfl, rfl⟩ : biased = 0#11 ∧ fraction = 0#52 := by simpa using some
    exact .inl ⟨unpack_packedZero, rfl⟩

end Magnitude

namespace Decimal

def value (decimal : Decimal) : ℚ :=
  decimal.digits * 10 ^ decimal.exponent

@[simp] theorem value_stripZeros (decimal : Decimal) :
    decimal.stripZeros.value = decimal.value := by
  fun_induction stripZeros decimal with
  | case1 decimal whole ih =>
      rw [ih, value, value, zpow_add_one₀ (by norm_num)]
      have split : decimal.digits / 10 * 10 = decimal.digits :=
        Nat.div_mul_cancel (Nat.dvd_of_mod_eq_zero whole.2)
      have cast : ((decimal.digits / 10 : ℕ) : ℚ) * 10 = decimal.digits := by
        exact_mod_cast split
      rw [← cast]
      ring
  | case2 => rfl

end Decimal

namespace Magnitude

variable {magnitude : Magnitude} {decimal : Decimal}

theorem ten_zpow_mul_toNat (exponent : ℤ) :
    (10 : ℚ) ^ exponent * 10 ^ (-exponent).toNat = 10 ^ exponent.toNat := by
  rw [← zpow_natCast, ← zpow_natCast, ← zpow_add₀ (by norm_num)]
  congr 1
  omega

theorem compareScaled_eq (decimal : Decimal) (quarters : ℕ) (exponent : ℤ) :
    compareScaled decimal quarters exponent =
      compare (decimal.value / 2 ^ exponent) (quarters : ℚ) := by
  let factor : ℚ := 2 ^ exponent * 2 ^ (-exponent).toNat * 10 ^ (-decimal.exponent).toNat
  have positive : 0 < factor := by positivity
  have left : ((decimal.digits * Nat.pow 10 decimal.exponent.toNat *
      Nat.pow 2 (-exponent).toNat : ℕ) : ℚ) = decimal.value / 2 ^ exponent * factor := by
    simp only [Nat.pow_eq]
    push_cast
    rw [← ten_zpow_mul_toNat, Decimal.value]
    simp only [factor]
    field_simp
  have right : ((quarters * Nat.pow 2 exponent.toNat *
      Nat.pow 10 (-decimal.exponent).toNat : ℕ) : ℚ) = quarters * factor := by
    simp only [Nat.pow_eq]
    push_cast
    rw [← Rounding.two_zpow_mul_toNat]
    simp only [factor]
    ring
  rw [compareScaled]
  generalize decimal.digits * Nat.pow 10 _ * Nat.pow 2 _ = first at left ⊢
  generalize quarters * Nat.pow 2 _ * Nat.pow 10 _ = second at right ⊢
  rcases lt_trichotomy (decimal.value / 2 ^ exponent) quarters with below | same | above
  · have order : (first : ℚ) < second := by
      rw [left, right]
      gcongr
    rw [compare_lt_iff_lt.mpr below, compare_lt_iff_lt]
    exact_mod_cast order
  · have order : (first : ℚ) = second := by rw [left, right, same]
    rw [compare_eq_iff_eq.mpr same, compare_eq_iff_eq]
    exact_mod_cast order
  · have order : (second : ℚ) < first := by
      rw [left, right]
      gcongr
    rw [compare_gt_iff_gt.mpr above, compare_gt_iff_gt]
    exact_mod_cast order

theorem readsBack_iff (positive : 0 < magnitude.mantissa) :
    magnitude.readsBack decimal = true ↔ magnitude.Attracts decimal.value := by
  have least : ((4 * magnitude.mantissa - magnitude.quartersBelow : ℕ) : ℚ) =
      4 * magnitude.mantissa - magnitude.quartersBelow := by
    rw [Nat.cast_sub]
    · push_cast
      rfl
    · have := magnitude.quartersBelow_le
      omega
  simp only [readsBack, compareScaled_eq, Attracts, Bool.and_eq_true, Bool.or_eq_true,
    beq_iff_eq, compare_gt_iff_gt, compare_lt_iff_lt, compare_eq_iff_eq]
  rw [← least]
  push_cast
  simp only [quartersBelow, eq_comm]

theorem readsBack_of_neighbour? {grid : ℤ}
    (found : magnitude.neighbour? grid = some decimal) :
    magnitude.readsBack decimal = true := by
  simp only [neighbour?] at found
  split at found
  · cases found
  · rename_i below _
    cases found
    exact below
  · rename_i _ above
    cases found
    exact above
  · rename_i below above
    split at found
    · cases found
      exact below
    · cases found
      exact above
    · split at found
      · cases found
        exact below
      · cases found
        exact above

theorem value_exact (magnitude : Magnitude) :
    magnitude.exact.value = magnitude.value := by
  rw [Decimal.value, exact, value]
  simp only [Nat.pow_eq]
  push_cast
  split
  · rename_i negative
    obtain ⟨depth, same⟩ : ∃ depth : ℕ, magnitude.exponent = -depth :=
      ⟨(-magnitude.exponent).toNat, by omega⟩
    -- In base ten the halves are fives of the next place.
    have ten : (10 : ℚ) ^ depth = 5 ^ depth * 2 ^ depth := by
      rw [← mul_pow]
      norm_num
    rw [same, neg_neg, Int.toNat_natCast, Int.toNat_neg_natCast, zpow_neg, zpow_neg,
      zpow_natCast, zpow_natCast, ten]
    field_simp
  · rename_i whole
    obtain ⟨height, same⟩ := Int.eq_ofNat_of_zero_le (not_lt.mp whole)
    rw [same, Int.toNat_natCast, Int.toNat_neg_natCast, zpow_natCast]
    simp

theorem attracts_shortest (canonical : magnitude.Canonical) :
    magnitude.Attracts magnitude.shortest.value := by
  rw [shortest, if_neg canonical.positive.ne', Decimal.value_stripZeros]
  generalize found_eq : List.findSome? _ _ = found
  cases found with
  | none =>
      rw [Option.getD_none, value_exact]
      exact attracts_value magnitude
  | some decimal =>
      obtain ⟨index, -, found⟩ := List.exists_of_findSome?_eq_some found_eq
      exact (readsBack_iff canonical.positive).mp (readsBack_of_neighbour? found)

end Magnitude

end CostTape
