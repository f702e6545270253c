import Mathlib.Tactic.NormNum
import CostTape.Text.Quoted

/-! Codes written with hexadecimal digits, whichever function reads the digits. -/

namespace CostTape.Text

theorem toList_pushn (text : String) (char : Char) (count : ℕ) :
    (text.pushn char count).toList = text.toList ++ List.replicate count char := by
  rw [String.pushn_eq_repeat_push]
  induction count with
  | zero => simp [Nat.repeat]
  | succ count ih =>
      rw [Nat.repeat, String.toList_push, ih, List.replicate_succ', List.append_assoc]

theorem toList_hexDigits (width code : ℕ) :
    (hexDigits width code).toList =
      List.replicate (width - (Nat.toDigits 16 code).length) '0' ++
        Nat.toDigits 16 code := by
  simp [hexDigits, toList_pushn]

theorem length_hexDigits {width code : ℕ} (positive : 0 < width)
    (fits : code < 16 ^ width) : (hexDigits width code).toList.length = width := by
  have short := (Nat.length_toDigits_le_iff (by norm_num : 1 < 16) positive).mpr fits
  rw [toList_hexDigits, List.length_append, List.length_replicate]
  omega

theorem exists_digit_of_mem_toDigits {base code : ℕ} (large : 1 < base) {char : Char}
    (mem : char ∈ Nat.toDigits base code) : ∃ digit < base, char = digit.digitChar := by
  induction code using Nat.strongRecOn with
  | _ code ih =>
      rw [Nat.toDigits_eq_if large] at mem
      split at mem
      · exact ⟨code, ‹_›, List.mem_singleton.mp mem⟩
      · rcases List.mem_append.mp mem with front | last
        · exact ih _ (Nat.div_lt_self (by omega) large) front
        · exact ⟨code % base, Nat.mod_lt _ (by omega), List.mem_singleton.mp last⟩

theorem exists_digit_of_mem_hexDigits {width code : ℕ} {char : Char}
    (mem : char ∈ (hexDigits width code).toList) :
    ∃ digit < 16, char = digit.digitChar := by
  rw [toList_hexDigits, List.mem_append] at mem
  rcases mem with zero | digit
  · exact ⟨0, by norm_num, List.eq_of_mem_replicate zero⟩
  · exact exists_digit_of_mem_toDigits (by norm_num) digit

/-- The value of digits under a reading of single ones. -/
def valueBy (digit? : Char → Option ℕ) (digits : List Char) (start : ℕ) : Option ℕ :=
  digits.foldlM (fun value char => (digit? char).map (16 * value + ·)) start

section

variable {digit? : Char → Option ℕ}
    (reads : ∀ digit < 16, digit? digit.digitChar = some digit)

include reads

theorem valueBy_toDigits (code : ℕ) :
    valueBy digit? (Nat.toDigits 16 code) 0 = some code := by
  induction code using Nat.strongRecOn with
  | _ code ih =>
      rw [Nat.toDigits_eq_if (by norm_num)]
      split
      · rename_i small
        simp [valueBy, reads code small]
      · rename_i large
        have last := reads (code % 16) (by omega)
        have front := ih (code / 16) (by omega)
        unfold valueBy at front ⊢
        rw [List.foldlM_append, front]
        simp [last]
        omega

theorem valueBy_replicate_zero (count : ℕ) (digits : List Char) :
    valueBy digit? (List.replicate count '0' ++ digits) 0 = valueBy digit? digits 0 := by
  have zero : digit? '0' = some 0 := reads 0 (by norm_num)
  induction count with
  | zero => rfl
  | succ count ih =>
      rw [← ih, List.replicate_succ]
      simp [valueBy, zero]

theorem valueBy_hexDigits (width code : ℕ) :
    valueBy digit? (hexDigits width code).toList 0 = some code := by
  rw [toList_hexDigits, valueBy_replicate_zero reads, valueBy_toDigits reads]

end

end CostTape.Text
