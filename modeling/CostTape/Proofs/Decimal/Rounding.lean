import Mathlib.Algebra.Order.Field.Power
import Mathlib.Algebra.Order.Field.Rat
import Mathlib.Tactic.FieldSimp
import Mathlib.Tactic.Linarith
import Mathlib.Tactic.NormNum
import Mathlib.Tactic.Positivity
import Mathlib.Tactic.Ring
import CostTape.Decimal.Shortest

/-! Rounding to binary64: a rational number that lies among those that round to a value
is rounded to it, however the number is given. -/

namespace CostTape

namespace Magnitude

def value (magnitude : Magnitude) : ℚ :=
  magnitude.mantissa * 2 ^ magnitude.exponent

/-- The mantissa has 53 bits unless the exponent is the least one. -/
structure Canonical (magnitude : Magnitude) : Prop where
  positive : 0 < magnitude.mantissa
  mantissa_lt : magnitude.mantissa < 2 ^ 53
  least_le : -1074 ≤ magnitude.exponent
  le_greatest : magnitude.exponent ≤ 971
  full : magnitude.exponent = -1074 ∨ 2 ^ 52 ≤ magnitude.mantissa
  narrow_iff : magnitude.narrowBelow = true ↔
    magnitude.mantissa = 2 ^ 52 ∧ -1074 < magnitude.exponent

/-- How many quarters of its last place a number may lie below the magnitude. -/
def quartersBelow (magnitude : Magnitude) : ℕ :=
  if magnitude.narrowBelow then 1 else 2

/-- The number is nearer to the magnitude than to any other, or as near and the
magnitude is even. -/
def Attracts (magnitude : Magnitude) (number : ℚ) : Prop :=
  let quarters := number / 2 ^ (magnitude.exponent - 2)
  let least : ℚ := 4 * magnitude.mantissa - magnitude.quartersBelow
  let greatest : ℚ := 4 * magnitude.mantissa + 2
  (least < quarters ∨ magnitude.mantissa % 2 = 0 ∧ least = quarters) ∧
    (quarters < greatest ∨ magnitude.mantissa % 2 = 0 ∧ quarters = greatest)

theorem quarters_eq (number : ℚ) (exponent : ℤ) :
    number / 2 ^ (exponent - 2) = 4 * (number / 2 ^ exponent) := by
  rw [zpow_sub₀ (by norm_num)]
  field_simp
  norm_num

theorem attracts_value (magnitude : Magnitude) : magnitude.Attracts magnitude.value := by
  have scaled : magnitude.value / 2 ^ (magnitude.exponent - 2) =
      4 * magnitude.mantissa := by
    rw [quarters_eq, value, mul_div_cancel_right₀ _ (zpow_ne_zero _ two_ne_zero)]
  unfold Attracts quartersBelow
  rw [scaled]
  refine ⟨.inl ?_, .inl (by linarith)⟩
  split <;> norm_num

theorem quartersBelow_le (magnitude : Magnitude) : magnitude.quartersBelow ≤ 2 := by
  unfold quartersBelow
  split <;> omega

namespace Attracts

variable {magnitude : Magnitude} {number : ℚ}

theorem least_le (attracts : magnitude.Attracts number) :
    4 * magnitude.mantissa - magnitude.quartersBelow ≤
      4 * (number / 2 ^ magnitude.exponent) := by
  rw [← quarters_eq]
  rcases attracts.1 with above | ⟨-, same⟩ <;> linarith

theorem le_greatest (attracts : magnitude.Attracts number) :
    4 * (number / 2 ^ magnitude.exponent) ≤ 4 * magnitude.mantissa + 2 := by
  rw [← quarters_eq]
  rcases attracts.2 with below | ⟨-, same⟩ <;> linarith

theorem half_below (attracts : magnitude.Attracts number) :
    magnitude.mantissa < number / 2 ^ magnitude.exponent + 1 / 2 ∨
      magnitude.mantissa % 2 = 0 ∧
        magnitude.mantissa = number / 2 ^ magnitude.exponent + 1 / 2 := by
  obtain ⟨lower, -⟩ := attracts
  have quarters : (magnitude.quartersBelow : ℚ) ≤ 2 := by
    exact_mod_cast magnitude.quartersBelow_le
  rw [quarters_eq] at lower
  rcases lower with above | ⟨even, same⟩
  · left
    linarith
  · rcases quarters.lt_or_eq with few | two
    · left
      linarith
    · right
      exact ⟨even, by linarith⟩

theorem half_above (attracts : magnitude.Attracts number) :
    number / 2 ^ magnitude.exponent < magnitude.mantissa + 1 / 2 ∨
      magnitude.mantissa % 2 = 0 ∧
        number / 2 ^ magnitude.exponent = magnitude.mantissa + 1 / 2 := by
  obtain ⟨-, upper⟩ := attracts
  rw [quarters_eq] at upper
  rcases upper with below | ⟨even, same⟩
  · left
    linarith
  · right
    exact ⟨even, by linarith⟩

theorem lt_two_zpow (attracts : magnitude.Attracts number)
    (canonical : magnitude.Canonical) : number < 2 ^ (53 + magnitude.exponent) := by
  have unit : (0 : ℚ) < 2 ^ magnitude.exponent := by positivity
  have mantissa : (magnitude.mantissa + 1 : ℚ) ≤ 2 ^ 53 := by
    exact_mod_cast canonical.mantissa_lt
  have bound : number / 2 ^ magnitude.exponent < 2 ^ 53 := by
    linarith [attracts.le_greatest]
  rw [div_lt_iff₀ unit] at bound
  rwa [zpow_add₀ (by norm_num)]

/-- A number that is attracted from below the binade of the magnitude. -/
def FromBelow (magnitude : Magnitude) (number : ℚ) : Prop :=
  magnitude.narrowBelow = true ∧ number < 2 ^ (52 + magnitude.exponent)

theorem two_zpow_le_or (attracts : magnitude.Attracts number)
    (canonical : magnitude.Canonical) :
    magnitude.exponent = -1074 ∨ 2 ^ (52 + magnitude.exponent) ≤ number ∨
      FromBelow magnitude number := by
  have unit : (0 : ℚ) < 2 ^ magnitude.exponent := by positivity
  rcases canonical.full with least | full
  · exact .inl least
  by_cases least : magnitude.exponent = -1074
  · exact .inl least
  refine .inr ?_
  by_cases inside : (2 : ℚ) ^ (52 + magnitude.exponent) ≤ number
  · exact .inl inside
  refine .inr ⟨?_, not_le.mp inside⟩
  -- Beyond the least mantissa there is room for half a place within the binade.
  by_contra wide
  have larger : 2 ^ 52 + 1 ≤ magnitude.mantissa := by
    have above : -1074 < magnitude.exponent :=
      lt_of_le_of_ne canonical.least_le (Ne.symm least)
    have other : magnitude.mantissa ≠ 2 ^ 52 :=
      fun same => wide (canonical.narrow_iff.mpr ⟨same, above⟩)
    omega
  have mantissa : (2 ^ 52 + 1 : ℚ) ≤ magnitude.mantissa := by exact_mod_cast larger
  have quarters : (magnitude.quartersBelow : ℚ) ≤ 2 := by
    exact_mod_cast magnitude.quartersBelow_le
  have bound : (2 : ℚ) ^ 52 ≤ number / 2 ^ magnitude.exponent := by
    linarith [attracts.least_le]
  rw [le_div_iff₀ unit] at bound
  rw [zpow_add₀ (by norm_num)] at inside
  exact inside bound

theorem fromBelow_bounds (attracts : magnitude.Attracts number)
    (canonical : magnitude.Canonical) (fromBelow : FromBelow magnitude number) :
    2 ^ 53 - 1 / 2 ≤ number / 2 ^ (magnitude.exponent - 1) ∧
      number / 2 ^ (magnitude.exponent - 1) < 2 ^ 53 := by
  obtain ⟨narrow, below⟩ := fromBelow
  have unit : (0 : ℚ) < 2 ^ magnitude.exponent := by positivity
  have mantissa : (magnitude.mantissa : ℚ) = 2 ^ 52 := by
    exact_mod_cast (canonical.narrow_iff.mp narrow).1
  have least := attracts.least_le
  rw [zpow_add₀ (by norm_num), ← div_lt_iff₀ unit] at below
  rw [quartersBelow, if_pos narrow, mantissa] at least
  have halves : number / 2 ^ (magnitude.exponent - 1) =
      2 * (number / 2 ^ magnitude.exponent) := by
    rw [zpow_sub₀ (by norm_num)]
    field_simp
  rw [halves]
  norm_num at least below ⊢
  constructor <;> linarith

end Attracts

end Magnitude

namespace Rounding

open Float.Model Float.Model.UnpackedFloat

/-- The mantissa and its two further bits say where the number lies. -/
def Locates (extended : ExtendedMantissa) (number : ℚ) : Prop :=
  match extended.roundBit, extended.stickyBit with
  | false, false => number = extended.mantissa
  | false, true => extended.mantissa < number ∧ number < extended.mantissa + 1 / 2
  | true, false => number = extended.mantissa + 1 / 2
  | true, true => extended.mantissa + 1 / 2 < number ∧ number < extended.mantissa + 1

theorem Locates.bounds {extended : ExtendedMantissa} {number : ℚ}
    (locates : Locates extended number) :
    extended.mantissa ≤ number ∧ number < extended.mantissa + 1 := by
  obtain ⟨mantissa, round, sticky⟩ := extended
  cases round <;> cases sticky <;> simp only [Locates] at locates ⊢ <;>
    constructor <;> linarith

theorem Locates.shiftRightOne {extended : ExtendedMantissa} {number : ℚ}
    (locates : Locates extended number) :
    Locates extended.shiftRightOne (number / 2) := by
  obtain ⟨mantissa, round, sticky⟩ := extended
  obtain ⟨half, rfl | rfl⟩ := Nat.even_or_odd' mantissa
  · cases round <;> cases sticky <;>
      simp [Locates, ExtendedMantissa.shiftRightOne] at locates ⊢ <;>
      (try constructor) <;> linarith
  · have whole : (2 * half + 1) / 2 = half := by omega
    cases round <;> cases sticky <;>
      simp [Locates, ExtendedMantissa.shiftRightOne, whole] at locates ⊢ <;>
      (try constructor) <;> linarith

theorem Locates.shiftRight {extended : ExtendedMantissa} {number : ℚ}
    (locates : Locates extended number) (count : ℕ) :
    Locates (extended >>> count) (number / 2 ^ count) := by
  induction count with
  | zero =>
      rw [pow_zero, div_one]
      exact locates
  | succ count induction =>
      have halved := induction.shiftRightOne
      rwa [div_div, ← pow_succ] at halved

/-- The rounded mantissa is the nearest whole number, of two the even one. -/
theorem Locates.roundedMantissa_eq {extended : ExtendedMantissa} {number : ℚ}
    {nearest : ℕ} (locates : Locates extended number)
    (lower : nearest < number + 1 / 2 ∨ nearest % 2 = 0 ∧ nearest = number + 1 / 2)
    (upper : number < nearest + 1 / 2 ∨ nearest % 2 = 0 ∧ number = nearest + 1 / 2) :
    extended.roundedMantissa = nearest := by
  obtain ⟨mantissa, round, sticky⟩ := extended
  have least : (2 * nearest : ℚ) ≤ 2 * number + 1 := by
    rcases lower with near | ⟨-, near⟩ <;> linarith
  have greatest : 2 * number ≤ (2 * nearest + 1 : ℚ) := by
    rcases upper with near | ⟨-, near⟩ <;> linarith
  cases round <;> cases sticky <;>
    simp only [Locates, ExtendedMantissa.roundedMantissa, ExtendedMantissa.accuracy,
      Accuracy.roundToNearestEven] at locates ⊢
  · subst locates
    norm_cast at least greatest
    omega
  · have above : (nearest : ℚ) < mantissa + 1 := by linarith
    have below : (mantissa : ℚ) < nearest + 1 := by linarith
    norm_cast at above below
    omega
  · -- A tie goes to the even neighbour, and only an even number attracts ties.
    subst locates
    have above : (2 * nearest : ℚ) ≤ 2 * mantissa + 2 := by linarith
    have below : (2 * mantissa : ℚ) ≤ 2 * nearest := by linarith
    norm_cast at above below
    have even : nearest % 2 = 0 := by
      by_cases same : nearest = mantissa
      · rcases upper with near | ⟨even, -⟩
        · rw [same] at near
          exact absurd near (lt_irrefl _)
        · exact even
      · have next : nearest = mantissa + 1 := by omega
        rcases lower with near | ⟨even, -⟩
        · rw [next] at near
          push_cast at near
          linarith
        · exact even
    omega
  · have above : (nearest : ℚ) < mantissa + 2 := by linarith
    have below : (mantissa : ℚ) < nearest := by linarith
    norm_cast at above below
    omega

theorem targetExponent_eq (total : ℤ) :
    Format.binary64.targetExponent total = max (total - 53) (-1074) := rfl

theorem lt_two_zpow_total {mantissa : ℕ} {exponent : ℤ} {number : ℚ}
    (below : number < (mantissa + 1) * 2 ^ exponent) :
    number < 2 ^ totalExponent mantissa exponent := by
  have bits : mantissa + 1 ≤ 2 ^ (mantissa.log2 + 1) := Nat.lt_log2_self
  have wide : ((mantissa + 1 : ℕ) : ℚ) ≤ 2 ^ (mantissa.log2 + 1) := by exact_mod_cast bits
  calc
    number < ((mantissa + 1 : ℕ) : ℚ) * 2 ^ exponent := by exact_mod_cast below
    _ ≤ 2 ^ (mantissa.log2 + 1) * 2 ^ exponent := by gcongr
    _ = 2 ^ totalExponent mantissa exponent := by
        rw [totalExponent, zpow_add₀ (by norm_num)]
        norm_cast

theorem two_zpow_total_le {mantissa : ℕ} {exponent : ℤ} (positive : mantissa ≠ 0) :
    (2 : ℚ) ^ (totalExponent mantissa exponent - 1) ≤ mantissa * 2 ^ exponent := by
  have bits : 2 ^ mantissa.log2 ≤ mantissa := Nat.log2_self_le positive
  have narrow : (2 : ℚ) ^ mantissa.log2 ≤ mantissa := by exact_mod_cast bits
  calc
    (2 : ℚ) ^ (totalExponent mantissa exponent - 1) =
      2 ^ mantissa.log2 * 2 ^ exponent := by
        rw [totalExponent, show (mantissa.log2 + 1 + exponent - 1 : ℤ) =
          mantissa.log2 + exponent by ring, zpow_add₀ (by norm_num), zpow_natCast]
    _ ≤ mantissa * 2 ^ exponent := by gcongr

open Magnitude

variable {magnitude : Magnitude} {number : ℚ} {mantissa : ℕ} {exponent : ℤ}

theorem targetExponent_of_attracts (canonical : magnitude.Canonical)
    (attracts : magnitude.Attracts number)
    (lower : mantissa ≤ number / 2 ^ exponent)
    (upper : number / 2 ^ exponent < mantissa + 1)
    (enough : exponent ≤
      Format.binary64.targetExponent (totalExponent mantissa exponent)) :
    Format.binary64.targetExponent (totalExponent mantissa exponent) =
        magnitude.exponent ∨
      Format.binary64.targetExponent (totalExponent mantissa exponent) =
        magnitude.exponent - 1 ∧ Attracts.FromBelow magnitude number := by
  have unit : (0 : ℚ) < 2 ^ exponent := by positivity
  rw [le_div_iff₀ unit] at lower
  rw [div_lt_iff₀ unit] at upper
  have order : StrictMono fun power : ℤ => (2 : ℚ) ^ power :=
    zpow_right_strictMono₀ (by norm_num)
  have below := lt_two_zpow_total upper
  rw [targetExponent_eq] at enough ⊢
  -- Without a mantissa the number is smaller than the least exponent can tell.
  have above : mantissa ≠ 0 →
      (2 : ℚ) ^ (totalExponent mantissa exponent - 1) ≤ number :=
    fun positive => (two_zpow_total_le positive).trans lower
  have small : mantissa = 0 → totalExponent mantissa exponent ≤ -1073 := by
    rintro rfl
    simp only [totalExponent, Nat.log2_zero] at enough ⊢
    omega
  have reach : totalExponent mantissa exponent ≤ 53 + magnitude.exponent := by
    by_cases zero : mantissa = 0
    · have := small zero
      have := canonical.least_le
      omega
    · have := order.lt_iff_lt.mp ((above zero).trans_lt (attracts.lt_two_zpow canonical))
      omega
  by_cases fromBelow : Attracts.FromBelow magnitude number
  · right
    refine ⟨?_, fromBelow⟩
    have beyond : (2 : ℚ) ^ (51 + magnitude.exponent) < number := by
      have bound := (attracts.fromBelow_bounds canonical fromBelow).1
      rw [le_div_iff₀ (by positivity)] at bound
      refine lt_of_lt_of_le ?_ bound
      rw [show 51 + magnitude.exponent = 52 + (magnitude.exponent - 1) by ring,
        zpow_add₀ (by norm_num)]
      gcongr
      norm_num
    have high := order.lt_iff_lt.mp (beyond.trans below)
    have narrow := (canonical.narrow_iff.mp fromBelow.1).2
    have positive : mantissa ≠ 0 := by
      intro zero
      have := small zero
      omega
    have low := order.lt_iff_lt.mp ((above positive).trans_lt fromBelow.2)
    omega
  · left
    rcases attracts.two_zpow_le_or canonical with least | inside | absurd
    · omega
    · have := order.lt_iff_lt.mp (inside.trans_lt below)
      have := canonical.least_le
      omega
    · exact (fromBelow absurd).elim

theorem shiftToTargetExponent_of_fits (fits : mantissa < 2 ^ 53)
    (least : -1074 ≤ exponent) :
    shiftToTargetExponent Format.binary64 mantissa exponent .exact =
      (⟨mantissa, false, false⟩, exponent) := by
  have bits : mantissa.log2 ≤ 52 := by
    rcases Nat.eq_zero_or_pos mantissa with rfl | positive
    · simp
    · exact Nat.le_of_lt_succ ((Nat.log2_lt positive.ne').mpr fits)
  have still : (Format.binary64.targetExponent (totalExponent mantissa exponent) -
      exponent).toNat = 0 := by
    rw [targetExponent_eq, totalExponent]
    omega
  simp only [shiftToTargetExponent, shiftToExponent, still]
  simp [ExtendedMantissa.ofMantissaAndAccuracy, HShiftRight.hShiftRight, Nat.repeat]

theorem shiftToTargetExponent_of_carry (least : -1074 ≤ exponent) :
    shiftToTargetExponent Format.binary64 (2 ^ 53) exponent .exact =
      (⟨2 ^ 52, false, false⟩, exponent + 1) := by
  have once : (Format.binary64.targetExponent (totalExponent (2 ^ 53) exponent) -
      exponent).toNat = 1 := by
    rw [targetExponent_eq, totalExponent, Nat.log2_two_pow]
    omega
  simp only [shiftToTargetExponent, shiftToExponent, once]
  rfl

theorem exists_shiftToTargetExponent {accuracy : Accuracy}
    (locates : Locates (.ofMantissaAndAccuracy mantissa accuracy) (number / 2 ^ exponent))
    (enough : exponent ≤ Format.binary64.targetExponent
      (totalExponent mantissa exponent)) :
    ∃ extended, shiftToTargetExponent Format.binary64 mantissa exponent accuracy =
        (extended, Format.binary64.targetExponent (totalExponent mantissa exponent)) ∧
      Locates extended
        (number / 2 ^ Format.binary64.targetExponent
          (totalExponent mantissa exponent)) := by
  rw [shiftToTargetExponent, shiftToExponent]
  generalize Format.binary64.targetExponent (totalExponent mantissa exponent) = target
    at enough ⊢
  have counted : exponent + (target - exponent).toNat = target := by omega
  have shifted := locates.shiftRight (target - exponent).toNat
  rw [div_div, ← zpow_natCast, ← zpow_add₀ (by norm_num), counted] at shifted
  exact ⟨_, by rw [counted], shifted⟩

theorem roundWithAccuracy_of_shifts {accuracy : Accuracy} {extended : ExtendedMantissa}
    {middle last : ℤ} {rounded : ℕ} (positive : 0 < rounded)
    (first : shiftToTargetExponent Format.binary64 mantissa exponent accuracy =
      (extended, middle))
    (second : shiftToTargetExponent Format.binary64 extended.roundedMantissa middle
      .exact = (⟨rounded, false, false⟩, last))
    (sign : Sign) :
    roundWithAccuracy Format.binary64 sign mantissa exponent accuracy =
      .finite sign rounded last positive := by
  unfold roundWithAccuracy
  rw [first]
  dsimp only
  rw [second]
  exact dif_neg positive.ne'

/-- A number is rounded to the magnitude that attracts it, if it is given with enough
bits. -/
theorem roundWithAccuracy_eq (canonical : magnitude.Canonical)
    (attracts : magnitude.Attracts number) {accuracy : Accuracy}
    (locates : Locates (.ofMantissaAndAccuracy mantissa accuracy) (number / 2 ^ exponent))
    (enough : exponent ≤ Format.binary64.targetExponent (totalExponent mantissa exponent))
    (sign : Sign) :
    roundWithAccuracy Format.binary64 sign mantissa exponent accuracy =
      .finite sign magnitude.mantissa magnitude.exponent canonical.positive := by
  obtain ⟨lower, upper⟩ := locates.bounds
  have kept : (ExtendedMantissa.ofMantissaAndAccuracy mantissa accuracy).mantissa =
      mantissa := by
    rcases accuracy with _ | _ | _ | _ <;> rfl
  rw [kept] at lower upper
  obtain ⟨extended, first, located⟩ := exists_shiftToTargetExponent locates enough
  rcases targetExponent_of_attracts canonical attracts lower upper enough with
    target | ⟨target, fromBelow⟩ <;> rw [target] at first located
  · have nearest : extended.roundedMantissa = magnitude.mantissa :=
      located.roundedMantissa_eq attracts.half_below attracts.half_above
    refine roundWithAccuracy_of_shifts canonical.positive first ?_ sign
    rw [nearest]
    exact shiftToTargetExponent_of_fits canonical.mantissa_lt canonical.least_le
  · -- In the binade below the mantissa is rounded up to the next power of two.
    obtain ⟨least, greatest⟩ := attracts.fromBelow_bounds canonical fromBelow
    obtain ⟨narrow, above⟩ := canonical.narrow_iff.mp fromBelow.1
    have nearest : extended.roundedMantissa = 2 ^ 53 := by
      apply located.roundedMantissa_eq
      · rcases least.lt_or_eq with below | same
        · left
          push_cast
          linarith
        · right
          push_cast
          exact ⟨by norm_num, by linarith⟩
      · left
        push_cast
        linarith
    refine roundWithAccuracy_of_shifts canonical.positive first ?_ sign
    rw [nearest, shiftToTargetExponent_of_carry (by omega), narrow, sub_add_cancel]

end Rounding

end CostTape
