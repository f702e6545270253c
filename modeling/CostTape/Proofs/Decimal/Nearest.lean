import Mathlib
import CostTape.Decimal.Reading
import CostTape.Proofs.Decimal.Rounding

/-! A decimal is read as the binary64 value that attracts it, and never as `NaN`.

The lemmas on how the bits of a `Float` are packed are in none of the parts of Mathlib;
they come with the whole of it. -/

namespace CostTape

namespace Rounding

open Float.Model Float.Model.UnpackedFloat Magnitude

variable {magnitude : Magnitude} {number : ℚ} {mantissa : ℕ} {exponent : ℤ}

theorem enough_of_bits (bits : 2 ^ 52 ≤ mantissa ∨ exponent ≤ -1074) :
    exponent ≤ Format.binary64.targetExponent (totalExponent mantissa exponent) := by
  rw [targetExponent_eq, totalExponent]
  rcases bits with full | least
  · have positive : mantissa ≠ 0 := by
      rintro rfl
      simp at full
    have bits := (Nat.le_log2 positive).mpr full
    omega
  · omega

theorem locates_exact (mantissa : ℕ) :
    Locates (.ofMantissaAndAccuracy mantissa .exact) mantissa := rfl

theorem mul_eq (canonical : magnitude.Canonical) {first second : ℕ} {left right : ℤ}
    (firstPositive : 0 < first) (secondPositive : 0 < second)
    (bits : 2 ^ 52 ≤ first * second)
    (attracts : magnitude.Attracts (first * 2 ^ left * (second * 2 ^ right))) :
    mul Format.binary64 (.finite .positive first left firstPositive)
        (.finite .positive second right secondPositive) =
      .finite .positive magnitude.mantissa magnitude.exponent canonical.positive := by
  refine roundWithAccuracy_eq canonical attracts ?_ (enough_of_bits (.inl bits)) _
  have scaled : (first * 2 ^ left * (second * 2 ^ right) : ℚ) / 2 ^ (left + right) =
      (first * second : ℕ) := by
    rw [zpow_add₀ (by norm_num)]
    push_cast
    field_simp
  rw [scaled]
  exact locates_exact _

theorem locates_quotient (dividend : ℕ) {divisor : ℕ} (positive : 0 < divisor) :
    Locates (.ofMantissaAndAccuracy (dividend / divisor)
      (accuracyOfFraction (dividend % divisor) divisor)) (dividend / divisor) := by
  have split : ((dividend / divisor : ℕ) : ℚ) * divisor + (dividend % divisor : ℕ) =
      dividend := by
    exact_mod_cast Nat.div_add_mod' dividend divisor
  have cast : (0 : ℚ) < divisor := by exact_mod_cast positive
  have inside : ((dividend % divisor : ℕ) : ℚ) < divisor := by
    exact_mod_cast Nat.mod_lt dividend positive
  have whole : (dividend / divisor : ℚ) =
      (dividend / divisor : ℕ) + (dividend % divisor : ℕ) / divisor := by
    field_simp
    linarith
  rw [whole]
  generalize dividend / divisor = quotient
  generalize dividend % divisor = rest at inside
  unfold accuracyOfFraction
  split
  · rename_i none
    simp [Locates, ExtendedMantissa.ofMantissaAndAccuracy, none]
  · rename_i some
    have above : (0 : ℚ) < rest := by exact_mod_cast Nat.pos_of_ne_zero some
    rcases order : compare (2 * rest) divisor with _ | _ | _
    · have half : (2 * rest : ℚ) < divisor := by
        exact_mod_cast Nat.compare_eq_lt.mp order
      have below : (rest / divisor : ℚ) < 1 / 2 := by
        rw [div_lt_iff₀ cast]
        linarith
      simp only [Locates, ExtendedMantissa.ofMantissaAndAccuracy]
      exact ⟨by linarith [div_pos above cast], by linarith⟩
    · have half : (2 * rest : ℚ) = divisor := by
        exact_mod_cast Nat.compare_eq_eq.mp order
      simp only [Locates, ExtendedMantissa.ofMantissaAndAccuracy]
      rw [← half]
      field_simp
    · have half : (divisor : ℚ) < 2 * rest := by
        exact_mod_cast Nat.compare_eq_gt.mp order
      have beyond : (1 / 2 : ℚ) < rest / divisor := by
        rw [lt_div_iff₀ cast]
        linarith
      have below : (rest / divisor : ℚ) < 1 := by
        rw [div_lt_iff₀ cast]
        linarith
      simp only [Locates, ExtendedMantissa.ofMantissaAndAccuracy]
      exact ⟨by linarith, by linarith⟩

/-- The dividend is shifted so far that the quotient has all the bits of a mantissa. -/
theorem bits_quotient {first second shift : ℕ} {left right target : ℤ}
    (firstPositive : 0 < first) (secondPositive : 0 < second)
    (shifted : left - right = target + shift)
    (target_le : target ≤
      Format.binary64.targetExponent
        (totalExponent first left - totalExponent second right)) :
    2 ^ 52 ≤ (first <<< shift) / second ∨ target ≤ -1074 := by
  rw [targetExponent_eq, totalExponent, totalExponent] at target_le
  by_cases least : target ≤ -1074
  · exact .inr least
  left
  rw [Nat.le_div_iff_mul_le secondPositive, Nat.shiftLeft_eq]
  have wide : second < 2 ^ (second.log2 + 1) := Nat.lt_log2_self
  have narrow : 2 ^ first.log2 ≤ first := Nat.log2_self_le firstPositive.ne'
  calc
    2 ^ 52 * second ≤ 2 ^ 52 * 2 ^ (second.log2 + 1) := by gcongr
    _ = 2 ^ (52 + (second.log2 + 1)) := (pow_add _ _ _).symm
    _ ≤ 2 ^ (first.log2 + shift) := Nat.pow_le_pow_right (by norm_num) (by omega)
    _ = 2 ^ first.log2 * 2 ^ shift := by rw [pow_add]
    _ ≤ first * 2 ^ shift := by gcongr

theorem div_eq (canonical : magnitude.Canonical) {first second : ℕ} {left right : ℤ}
    (firstPositive : 0 < first) (secondPositive : 0 < second)
    (attracts : magnitude.Attracts (first * 2 ^ left / (second * 2 ^ right))) :
    div Format.binary64 (.finite .positive first left firstPositive)
        (.finite .positive second right secondPositive) =
      .finite .positive magnitude.mantissa magnitude.exponent canonical.positive := by
  let target := min (left - right)
    (Format.binary64.targetExponent
      (totalExponent first left - totalExponent second right))
  let shift := (left - right - target).toNat
  have shifted : left - right = target + shift := by omega
  have scaled : (first * 2 ^ left / (second * 2 ^ right) : ℚ) / 2 ^ target =
      (first <<< shift : ℕ) / second := by
    have powers : (2 : ℚ) ^ left = 2 ^ target * 2 ^ shift * 2 ^ right := by
      rw [← zpow_natCast, ← zpow_add₀ (by norm_num), ← shifted, ← zpow_add₀ (by norm_num),
        sub_add_cancel]
    rw [powers, Nat.shiftLeft_eq]
    push_cast
    field_simp
  refine roundWithAccuracy_eq canonical attracts ?_ (enough_of_bits ?_) _
  · have located := locates_quotient (first <<< shift) secondPositive
    rwa [← scaled] at located
  · exact bits_quotient firstPositive secondPositive shifted (min_le_right _ _)

theorem pack_unpack (model : Float.Model) : Float.Model.pack model.unpack = model := by
  obtain ⟨bits, valid⟩ := model
  simp only [Float.Model.pack, Float.Model.unpack, pack_unpack_of_valid valid]

theorem unpack_packComponents_normal (sign : Sign) {mantissa biased : ℕ}
    (full : 2 ^ 52 ≤ mantissa) (fits : mantissa < 2 ^ 53) (positive : 0 < biased)
    (finite : biased < 2047) :
    unpack Format.binary64 (packComponents Format.binary64 sign (BitVec.ofNat 11 biased)
      (BitVec.ofNat 52 mantissa)) =
      .finite sign mantissa (biased - 1075) (by omega) := by
  have kept : (BitVec.ofNat 11 biased).toNat = biased := by
    rw [BitVec.toNat_ofNat, Nat.mod_eq_of_lt (by omega)]
  have some : BitVec.ofNat 11 biased ≠ 0#11 := by
    intro none
    have := congrArg BitVec.toNat none
    rw [kept] at this
    simp at this
    omega
  have bounded : BitVec.ofNat 11 biased ≠ -1#11 := by
    intro all
    have := congrArg BitVec.toNat all
    rw [kept] at this
    simp at this
    omega
  have whole : (1#1 ++ BitVec.ofNat 52 mantissa).toNat = mantissa := by
    rw [BitVec.toNat_append, BitVec.toNat_ofNat, BitVec.toNat_ofNat,
      ← Nat.shiftLeft_add_eq_or_of_lt (Nat.mod_lt _ (by norm_num)), Nat.shiftLeft_eq]
    omega
  simp only [UnpackedFloat.unpack, unpackExponent_packComponents,
    unpackMantissa_packComponents, unpackSign_packComponents, Sign.ofBitVec_toBitVec,
    if_neg bounded, if_neg some, whole, kept]
  rfl

theorem unpack_packComponents_subnormal (sign : Sign) {mantissa : ℕ}
    (positive : 0 < mantissa) (fits : mantissa < 2 ^ 52) :
    unpack Format.binary64 (packComponents Format.binary64 sign 0#11
      (BitVec.ofNat 52 mantissa)) =
      .finite sign mantissa (-1074) positive := by
  have kept : (BitVec.ofNat 52 mantissa).toNat = mantissa := by
    rw [BitVec.toNat_ofNat, Nat.mod_eq_of_lt fits]
  have some : BitVec.ofNat 52 mantissa ≠ 0#52 := by
    intro none
    have := congrArg BitVec.toNat none
    rw [kept] at this
    simp at this
    omega
  have bounded : 0#11 ≠ -1#11 := by decide
  simp only [UnpackedFloat.unpack, unpackExponent_packComponents,
    unpackMantissa_packComponents, unpackSign_packComponents, Sign.ofBitVec_toBitVec,
    if_neg bounded, if_true, dif_neg some, kept]
  rfl

/-- Packing loses nothing of a magnitude. -/
theorem unpack_pack (canonical : magnitude.Canonical) (sign : Sign) :
    (Float.Model.pack
        (.finite sign magnitude.mantissa magnitude.exponent canonical.positive)).unpack =
      .finite sign magnitude.mantissa magnitude.exponent canonical.positive := by
  obtain ⟨mantissa, exponent, narrow⟩ := magnitude
  obtain ⟨positive, mantissa_lt, least_le, le_greatest, full, -⟩ := canonical
  simp only at positive mantissa_lt least_le le_greatest full ⊢
  obtain ⟨biased, biased_eq⟩ : ∃ biased : ℕ, exponent = biased - 1075 :=
    ⟨(exponent + 1075).toNat, by omega⟩
  subst biased_eq
  have bias : ((biased : ℤ) - 1075 + Format.binary64.exponentBias +
      Format.binary64.mantissaBitsWithoutImplicit).toNat = biased := by
    show ((biased : ℤ) - 1075 + 1023 + 52).toNat = biased
    omega
  have finite : ¬2 ^ Format.binary64.exponentBits ≤ biased + 1 := by
    show ¬2 ^ 11 ≤ biased + 1
    omega
  simp only [Float.Model.unpack, Float.Model.pack, UnpackedFloat.pack, bias,
    if_neg finite]
  by_cases normal : 2 ^ 52 ≤ mantissa
  · have bits : mantissa.log2 + 1 = Format.binary64.mantissaBits := by
      have least := (Nat.le_log2 positive.ne').mpr normal
      have most := (Nat.log2_lt positive.ne').mpr mantissa_lt
      show mantissa.log2 + 1 = 53
      omega
    rw [if_pos bits]
    exact unpack_packComponents_normal sign normal mantissa_lt (by omega) (by omega)
  · have bits : mantissa.log2 + 1 ≠ Format.binary64.mantissaBits := by
      have most := (Nat.log2_lt positive.ne').mpr (not_le.mp normal)
      show mantissa.log2 + 1 ≠ 53
      omega
    rw [if_neg bits]
    have least := full.resolve_right normal
    rw [unpack_packComponents_subnormal sign positive (not_le.mp normal)]
    congr 1
    exact least.symm

/-- The magnitude of a whole number of at most 53 bits. -/
def ofNat (number : ℕ) : Magnitude where
  mantissa := number <<< (52 - number.log2)
  exponent := -(52 - number.log2 : ℕ)
  narrowBelow := number <<< (52 - number.log2) == 2 ^ 52

theorem full_ofNat {number : ℕ} (positive : 0 < number) (fits : number < 2 ^ 53) :
    2 ^ 52 ≤ (ofNat number).mantissa ∧ (ofNat number).mantissa < 2 ^ 53 := by
  have bits := (Nat.log2_lt positive.ne').mpr fits
  have least := Nat.log2_self_le positive.ne'
  have most := Nat.lt_log2_self (n := number)
  simp only [ofNat, Nat.shiftLeft_eq]
  constructor
  · calc
      2 ^ 52 = 2 ^ number.log2 * 2 ^ (52 - number.log2) := by
          rw [← pow_add]
          congr 1
          omega
      _ ≤ number * 2 ^ (52 - number.log2) := by gcongr
  · calc
      number * 2 ^ (52 - number.log2) < 2 ^ (number.log2 + 1) * 2 ^
        (52 - number.log2) := by
          gcongr
      _ = 2 ^ 53 := by
          rw [← pow_add]
          congr 1
          omega

theorem canonical_ofNat {number : ℕ} (positive : 0 < number) (fits : number < 2 ^ 53) :
    (ofNat number).Canonical := by
  obtain ⟨least, most⟩ := full_ofNat positive fits
  refine ⟨by omega, most, ?_, ?_, .inr least, ?_⟩
  · show (-1074 : ℤ) ≤ -(52 - number.log2 : ℕ)
    omega
  · show (-(52 - number.log2 : ℕ) : ℤ) ≤ 971
    omega
  · have above : (-1074 : ℤ) < (ofNat number).exponent := by
      show (-1074 : ℤ) < -(52 - number.log2 : ℕ)
      omega
    rw [and_iff_left above]
    exact beq_iff_eq

theorem value_ofNat (number : ℕ) : (ofNat number).value = number := by
  simp only [value, ofNat, Nat.shiftLeft_eq, zpow_neg, zpow_natCast]
  push_cast
  field_simp

theorem log2_shiftLeft {number : ℕ} (positive : number ≠ 0) (shift : ℕ) :
    (number <<< shift).log2 = number.log2 + shift := by
  induction shift with
  | zero => rfl
  | succ shift ih =>
      have some : number <<< shift ≠ 0 := by simp [Nat.shiftLeft_eq, positive]
      rw [Nat.shiftLeft_succ, Nat.log2_two_mul some, ih, Nat.add_assoc]

theorem round_eq (canonical : magnitude.Canonical) (positive : mantissa ≠ 0)
    (attracts : magnitude.Attracts (mantissa * 2 ^ exponent)) (sign : Sign) :
    UnpackedFloat.round Format.binary64 sign mantissa exponent =
      .finite sign magnitude.mantissa magnitude.exponent canonical.positive := by
  let target := Format.binary64.targetExponent (totalExponent mantissa exponent)
  let shift := (exponent - target).toNat
  have total : totalExponent (mantissa <<< shift) (exponent - shift) =
      totalExponent mantissa exponent := by
    rw [totalExponent, totalExponent, log2_shiftLeft positive]
    push_cast
    ring
  refine roundWithAccuracy_eq canonical attracts ?_ ?_ sign
  · have scaled : (mantissa * 2 ^ exponent : ℚ) / 2 ^ (exponent - shift) =
        (mantissa <<< shift : ℕ) := by
      rw [zpow_sub₀ (by norm_num), Nat.shiftLeft_eq, zpow_natCast]
      push_cast
      field_simp
    show Locates _ ((mantissa * 2 ^ exponent : ℚ) / 2 ^ (exponent - shift))
    rw [scaled]
    exact locates_exact _
  · show exponent - shift ≤ Format.binary64.targetExponent
      (totalExponent (mantissa <<< shift) (exponent - shift))
    rw [total]
    omega

theorem unpack_toFloat {number : ℕ} (positive : 0 < number) (fits : number < 2 ^ 53) :
    number.toUInt64.toFloat.toModel.unpack =
      .finite .positive (ofNat number).mantissa (ofNat number).exponent
        (canonical_ofNat positive fits).positive := by
  have canonical := canonical_ofNat positive fits
  have kept : number.toUInt64.toNat = number :=
    UInt64.toNat_ofNat_of_lt' (by
      show number < 2 ^ 64
      omega)
  have order : compare (number : ℤ) 0 = .gt := by
    rw [Int.compare_eq_gt]
    exact_mod_cast positive
  have attracts : (ofNat number).Attracts (number * 2 ^ (0 : ℤ)) := by
    rw [zpow_zero, mul_one, ← value_ofNat]
    exact attracts_value _
  show (Float.Model.pack
    (UnpackedFloat.normalize Format.binary64 number.toUInt64.toNat 0 .positive)).unpack =
      _
  rw [kept, UnpackedFloat.normalize, order, ← unpack_pack canonical]
  simp only [Int.toNat_natCast, round_eq canonical positive.ne' attracts]

/-- The value is `10 ^ power`, without rounding. -/
def isPowerOfTen (power : ℕ) : UnpackedFloat → Bool
  | .finite .positive mantissa exponent _ =>
      mantissa * 2 ^ exponent.toNat == 10 ^ power * 2 ^ (-exponent).toNat
  | _ => false

theorem isPowerOfTen_unpack (power : Fin 23) :
    isPowerOfTen power (Float.exactlyRepresentablePowersOfTen[power]).toModel.unpack =
      true := by
  revert power
  decide +kernel

theorem two_zpow_mul_toNat (exponent : ℤ) :
    (2 : ℚ) ^ exponent * 2 ^ (-exponent).toNat = 2 ^ exponent.toNat := by
  rw [← zpow_natCast, ← zpow_natCast, ← zpow_add₀ (by norm_num)]
  congr 1
  omega

theorem exists_of_isPowerOfTen {power : ℕ} {unpacked : UnpackedFloat}
    (exact : isPowerOfTen power unpacked = true) :
    ∃ (mantissa : ℕ) (exponent : ℤ) (positive : 0 < mantissa),
      unpacked = .finite .positive mantissa exponent positive ∧
        (mantissa * 2 ^ exponent : ℚ) = 10 ^ power := by
  unfold isPowerOfTen at exact
  split at exact
  · rename_i mantissa exponent positive
    refine ⟨mantissa, exponent, positive, rfl, ?_⟩
    have same : (mantissa * 2 ^ exponent.toNat : ℚ) =
        10 ^ power * 2 ^ (-exponent).toNat := by
      exact_mod_cast beq_iff_eq.mp exact
    rw [← two_zpow_mul_toNat, ← mul_assoc] at same
    exact mul_right_cancel₀ (by positivity) same
  · cases exact

/-- The binary64 value of a magnitude with a sign. -/
def toFloat (canonical : magnitude.Canonical) (sign : Sign) : Float :=
  .ofModel (.pack (.finite sign magnitude.mantissa magnitude.exponent canonical.positive))

theorem two_zpow_le_of_attracts (canonical : magnitude.Canonical)
    (attracts : magnitude.Attracts number) : (2 : ℚ) ^ (-1075 : ℤ) ≤ number := by
  have positive : (1 : ℚ) ≤ magnitude.mantissa := by exact_mod_cast canonical.positive
  have quarters : (magnitude.quartersBelow : ℚ) ≤ 2 := by
    exact_mod_cast magnitude.quartersBelow_le
  have half : (1 / 2 : ℚ) ≤ number / 2 ^ magnitude.exponent := by
    linarith [attracts.least_le]
  rw [le_div_iff₀ (by positivity)] at half
  calc
    (2 : ℚ) ^ (-1075 : ℤ) = 1 / 2 * 2 ^ (-1074 : ℤ) := by
        rw [show (-1075 : ℤ) = -1 + -1074 by norm_num, zpow_add₀ (by norm_num)]
        norm_num
    _ ≤ 1 / 2 * 2 ^ magnitude.exponent := by
        gcongr
        · norm_num
        · exact canonical.least_le
    _ ≤ number := half

theorem lt_two_zpow_of_attracts (canonical : magnitude.Canonical)
    (attracts : magnitude.Attracts number) : number < 2 ^ (1024 : ℤ) := by
  refine (attracts.lt_two_zpow canonical).trans_le ?_
  have greatest := canonical.le_greatest
  exact zpow_le_zpow_right₀ (by norm_num) (by omega)

theorem power_le_of_attracts {digits : ℕ} {power : ℤ} (canonical : magnitude.Canonical)
    (positive : 0 < digits) (attracts : magnitude.Attracts (digits * 10 ^ power)) :
    power ≤ 2048 := by
  by_contra beyond
  have least : (1 : ℚ) ≤ digits := by exact_mod_cast positive
  have : (2 : ℚ) ^ (1024 : ℤ) ≤ digits * 10 ^ power :=
    calc
      (2 : ℚ) ^ (1024 : ℤ) ≤ 2 ^ power := zpow_le_zpow_right₀ (by norm_num) (by omega)
      _ ≤ 10 ^ power := zpow_le_zpow_left₀ (by omega) (by norm_num) (by norm_num)
      _ ≤ digits * 10 ^ power := le_mul_of_one_le_left (by positivity) least
  exact absurd (lt_two_zpow_of_attracts canonical attracts) (not_lt.mpr this)

theorem le_power_of_attracts {digits : ℕ} {power : ℤ} (canonical : magnitude.Canonical)
    (attracts : magnitude.Attracts (digits * 10 ^ power)) :
    -(2048 + digits.log2) ≤ power := by
  by_contra beyond
  have most : (digits : ℚ) < 2 ^ (digits.log2 + 1 : ℤ) := by
    exact_mod_cast (Nat.lt_log2_self : digits < _)
  have small : (10 : ℚ) ^ power ≤ 2 ^ power := by
    obtain ⟨depth, rfl⟩ : ∃ depth : ℕ, power = -depth := ⟨(-power).toNat, by omega⟩
    rw [zpow_neg, zpow_neg, zpow_natCast, zpow_natCast]
    gcongr
    norm_num
  have : digits * (10 : ℚ) ^ power < 2 ^ (-1075 : ℤ) :=
    calc
      digits * (10 : ℚ) ^ power ≤ digits * 2 ^ power := by gcongr
      _ < 2 ^ (digits.log2 + 1 : ℤ) * 2 ^ power := by gcongr
      _ = 2 ^ (digits.log2 + 1 + power) := (zpow_add₀ (by norm_num) _ _).symm
      _ ≤ 2 ^ (-1075 : ℤ) := zpow_le_zpow_right₀ (by norm_num) (by omega)
  exact absurd (two_zpow_le_of_attracts canonical attracts) (not_le.mpr this)

theorem unpacked_ofScientific {digits : ℕ} {power : ℤ} (canonical : magnitude.Canonical)
    (positive : 0 < digits) (attracts : magnitude.Attracts (digits * 10 ^ power)) :
    UnpackedFloat.ofScientific Format.binary64 digits power =
      .finite .positive magnitude.mantissa magnitude.exponent canonical.positive := by
  have most : ¬power > 2 ^ Format.binary64.exponentBits :=
    not_lt.mpr (power_le_of_attracts canonical positive attracts)
  have least : ¬power < -((2 ^ Format.binary64.exponentBits : ℤ) + digits.log2) :=
    not_lt.mpr (le_power_of_attracts canonical attracts)
  rw [UnpackedFloat.ofScientific, dif_neg positive.ne', if_neg most, if_neg least]
  split
  · rename_i whole
    obtain ⟨height, rfl⟩ := Int.eq_ofNat_of_zero_le whole
    refine mul_eq canonical _ _ ?_ ?_
    · show 2 ^ 52 ≤ digits <<< 53 * 10 ^ height
      rw [Nat.shiftLeft_eq]
      calc
        2 ^ 52 ≤ 1 * 2 ^ 53 * 1 := by norm_num
        _ ≤ digits * 2 ^ 53 * 10 ^ height := by
            gcongr
            · exact positive
            · exact Nat.one_le_pow _ _ (by norm_num)
    · have scaled : ((digits <<< 53 : ℕ) : ℚ) * 2 ^ (-53 : ℤ) = digits := by
        rw [Nat.shiftLeft_eq, zpow_neg]
        push_cast
        exact mul_inv_cancel_right₀ (by norm_num) _
      show magnitude.Attracts ((digits <<< 53 : ℕ) * 2 ^ (-53 : ℤ) *
        ((10 ^ height : ℕ) * 2 ^ (0 : ℤ)))
      rwa [scaled, zpow_zero, mul_one, Nat.cast_pow, ← zpow_natCast]
  · rename_i fraction
    refine div_eq canonical _ _ ?_
    have inverse : (10 : ℚ) ^ power = ((10 ^ (-power).toNat : ℕ) : ℚ)⁻¹ := by
      push_cast
      rw [← zpow_natCast, ← zpow_neg]
      congr 1
      omega
    rwa [zpow_zero, mul_one, mul_one, div_eq_mul_inv, ← inverse]

/-- Few digits and a small power are turned into values of their own first, which are
exact. -/
theorem exists_ofScientific_of_small {digits power : ℕ} (positive : 0 < digits)
    (small : digits < 2 ^ 53 ∧ power ≤ 22) (negative : Bool) :
    ∃ (factor : ℕ) (shift : ℤ) (factorPositive : 0 < factor),
      (factor * 2 ^ shift : ℚ) = 10 ^ power ∧
      Float.ofScientific digits negative power =
        .ofModel (.pack ((if negative then UnpackedFloat.div else UnpackedFloat.mul)
          Format.binary64
          (.finite .positive (ofNat digits).mantissa (ofNat digits).exponent
            (canonical_ofNat positive small.1).positive)
          (.finite .positive factor shift factorPositive))) := by
  let index : Fin 23 := ⟨power, by omega⟩
  obtain ⟨factor, shift, factorPositive, unpacked, same⟩ :=
    exists_of_isPowerOfTen (isPowerOfTen_unpack index)
  refine ⟨factor, shift, factorPositive, same, ?_⟩
  rw [← unpack_toFloat positive small.1, ← unpacked]
  unfold Float.ofScientific
  rw [dif_pos small]
  cases negative <;> rfl

/-- Otherwise the exact product or quotient is rounded. -/
theorem ofScientific_of_large {digits power : ℕ} (large : ¬(digits < 2 ^ 53 ∧ power ≤ 22))
    (negative : Bool) :
    Float.ofScientific digits negative power =
      .ofModel (.pack (UnpackedFloat.ofScientific Format.binary64 digits
        (if negative then -power else power : ℤ))) := by
  have sign : (if negative = true then Int.negOfNat power else Int.ofNat power) =
      if negative = true then -(power : ℤ) else power := by
    rw [Int.negOfNat_eq]
    rfl
  unfold Float.ofScientific
  rw [dif_neg large, ← sign]
  rfl

theorem ofScientific_of_attracts {digits power : ℕ} {negative : Bool}
    (canonical : magnitude.Canonical) (positive : 0 < digits)
    (attracts : magnitude.Attracts
      (digits * 10 ^ (if negative then -power else power : ℤ))) :
    Float.ofScientific digits negative power = toFloat canonical .positive := by
  by_cases small : digits < 2 ^ 53 ∧ power ≤ 22
  · obtain ⟨factor, shift, factorPositive, same, computed⟩ :=
      exists_ofScientific_of_small positive small negative
    have kept := value_ofNat digits
    rw [Magnitude.value] at kept
    rw [computed, toFloat]
    cases negative with
    | true =>
        rw [if_pos rfl, div_eq canonical]
        rw [kept, same, div_eq_mul_inv, ← zpow_natCast, ← zpow_neg]
        exact attracts
    | false =>
        rw [if_neg Bool.false_ne_true, mul_eq canonical]
        · exact (full_ofNat positive small.1).1.trans
            (Nat.le_mul_of_pos_right _ factorPositive)
        · rw [kept, same, ← zpow_natCast]
          exact attracts
  · rw [ofScientific_of_large small, unpacked_ofScientific canonical positive attracts]
    rfl

theorem packComponents_ne_packedNaN {sign : Sign} {biased : BitVec 11}
    {fraction : BitVec 52} (bounded : biased ≠ -1#11 ∨ fraction = 0#52) :
    packComponents Format.binary64 sign biased fraction ≠ packedNaN Format.binary64 := by
  intro same
  have exponents := congrArg (@unpackExponent Format.binary64) same
  have mantissas := congrArg (@unpackMantissa Format.binary64) same
  rw [packedNaN, unpackExponent_packComponents, unpackExponent_packComponents]
    at exponents
  rw [packedNaN, unpackMantissa_packComponents, unpackMantissa_packComponents]
    at mantissas
  rcases bounded with other | rfl
  · exact other exponents
  · exact absurd mantissas (by decide)

/-- Packing makes no `NaN` of what is a number. -/
theorem pack_ne_packedNaN {unpacked : UnpackedFloat} (number : unpacked ≠ .notANumber) :
    UnpackedFloat.pack Format.binary64 unpacked ≠ packedNaN Format.binary64 := by
  cases unpacked with
  | notANumber => exact absurd rfl number
  | infinity sign => exact packComponents_ne_packedNaN (.inr rfl)
  | zero sign => exact packComponents_ne_packedNaN (.inr rfl)
  | finite sign mantissa exponent positive =>
      simp only [UnpackedFloat.pack]
      split
      · exact packComponents_ne_packedNaN (.inr rfl)
      · rename_i finite
        split
        · refine packComponents_ne_packedNaN (.inl ?_)
          intro all
          have value := congrArg BitVec.toNat all
          rw [BitVec.toNat_ofNat] at value
          change _ % 2 ^ 11 = 2047 at value
          change ¬2 ^ 11 ≤ _ + 1 at finite
          omega
        · exact packComponents_ne_packedNaN (.inl (by decide))

theorem isNaN_ofModel_pack {unpacked : UnpackedFloat} (number : unpacked ≠ .notANumber) :
    (Float.ofModel (.pack unpacked)).isNaN = false := by
  rw [← Bool.not_eq_true]
  intro nan
  have packed :=
    (isNaN_unpack_iff_of_valid (Float.Model.pack unpacked).valid (by decide)).mp nan
  exact pack_ne_packedNaN number packed

theorem roundWithAccuracy_ne_notANumber (sign : Sign) (mantissa : ℕ) (exponent : ℤ)
    (accuracy : Accuracy) :
    roundWithAccuracy Format.binary64 sign mantissa exponent accuracy ≠ .notANumber := by
  simp only [roundWithAccuracy]
  split <;> simp

theorem isNaN_ofScientific {digits : ℕ} (positive : 0 < digits) (negative : Bool)
    (power : ℕ) : (Float.ofScientific digits negative power).isNaN = false := by
  by_cases small : digits < 2 ^ 53 ∧ power ≤ 22
  · obtain ⟨factor, shift, factorPositive, -, computed⟩ :=
      exists_ofScientific_of_small positive small negative
    rw [computed]
    cases negative <;> exact isNaN_ofModel_pack (roundWithAccuracy_ne_notANumber _ _ _ _)
  · rw [ofScientific_of_large small]
    refine isNaN_ofModel_pack ?_
    generalize (if negative = true then -(power : ℤ) else power) = exponent
    rw [UnpackedFloat.ofScientific, dif_neg positive.ne']
    split
    · simp
    · split
      · simp
      · split
        · exact roundWithAccuracy_ne_notANumber _ _ _ _
        · exact roundWithAccuracy_ne_notANumber _ _ _ _

end Rounding

end CostTape
