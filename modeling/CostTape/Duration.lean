import CostTape.Decimal.Reading
import CostTape.Text.Quoted

/-! Spans of time in nanoseconds: their text, and reading it. -/

namespace CostTape

structure Duration where
  nanoseconds : Int
deriving DecidableEq

namespace Duration

/-- A count of small units as a decimal count of the unit `10 ^ places` times
as large, without trailing zeros. -/
private def scaledText (places count : Nat) : String :=
  let whole := count / Nat.pow 10 places
  let digits := toString (count % Nat.pow 10 places)
  let padded := "".pushn '0' (places - digits.length) ++ digits
  let fraction := (padded.toList.reverse.dropWhile (· == '0')).reverse
  if count % Nat.pow 10 places = 0 then toString whole
  else s!"{whole}." ++ String.ofList fraction

private def magnitudeText (count : Nat) : String :=
  if count = 0 then "0s"
  else if count < 1000 then s!"{count}ns"
  else if count < 1000000 then scaledText 3 count ++ "µs"
  else if count < 1000000000 then scaledText 6 count ++ "ms"
  else
    let seconds := count / 1000000000
    let minutes := seconds / 60
    let hours := minutes / 60
    (if hours = 0 then "" else s!"{hours}h") ++
      (if minutes = 0 then "" else toString (minutes % 60) ++ "m") ++
      scaledText 9 (seconds % 60 * 1000000000 + count % 1000000000) ++ "s"

def text (duration : Duration) : String :=
  (if duration.nanoseconds < 0 then "-" else "") ++
    magnitudeText duration.nanoseconds.natAbs

inductive ReadFault where
  | invalid (text : String)
  | missingUnit (text : String)
  | unknownUnit (unit text : String)
deriving DecidableEq

/-- A text between double quotes, where every byte of a character that is not
plain ASCII is written by its code. -/
private def quotedBytes (text : String) : String :=
  "\"" ++ String.join (text.toList.map fun char =>
    if char.toNat < 0x20 || 0x80 ≤ char.toNat then
      String.join (char.toString.toUTF8.toList.map fun byte =>
        "\\x" ++ Text.hexDigits 2 byte.toNat)
    else if char == '"' || char == '\\' then "\\" ++ char.toString
    else char.toString) ++ "\""

def ReadFault.message : ReadFault → String
  | .invalid text => "time: invalid duration " ++ quotedBytes text
  | .missingUnit text => "time: missing unit in duration " ++ quotedBytes text
  | .unknownUnit unit text =>
      "time: unknown unit " ++ quotedBytes unit ++ " in duration " ++ quotedBytes text

private def unitNanoseconds? (unit : String) : Option Nat :=
  if unit == "ns" then some 1
  else if unit == "us" || unit == "µs" || unit == "μs" then some 1000
  else if unit == "ms" then some 1000000
  else if unit == "s" then some 1000000000
  else if unit == "m" then some 60000000000
  else if unit == "h" then some 3600000000000
  else none

private def isUnitChar (char : Char) : Bool :=
  char != '.' && !Decimal.isDigit char

private def limit : Nat :=
  0x8000000000000000

/-- The digits of a fraction that count: the longest start whose value fits. -/
private def fractionDigits (value : Nat) : List Char → List Char
  | [] => []
  | char :: rest =>
      let longer := 10 * value + Decimal.digitValue char
      if (limit - 1) / 10 < value ∨ limit < longer then []
      else char :: fractionDigits longer rest

private def fractionNanoseconds (size : Nat) (digits : List Char) : Nat :=
  let counted := fractionDigits 0 digits
  let scale := counted.foldl (fun scale _ => scale * 10.0) 1.0
  (Float.ofNat (Decimal.natValue counted) * (Float.ofNat size / scale)).toUInt64.toNat

private def readTerms (text : String) : Nat → Nat → List Char → Except ReadFault Nat
  | _, total, [] => .ok total
  | 0, _, _ => .error (.invalid text)
  | terms + 1, total, chars =>
      let whole := chars.takeWhile Decimal.isDigit
      let rest := chars.dropWhile Decimal.isDigit
      let hasPoint := rest.head? == some '.'
      let fraction :=
        if hasPoint then (rest.drop 1).takeWhile Decimal.isDigit else []
      let rest := if hasPoint then (rest.drop 1).dropWhile Decimal.isDigit else rest
      let unit := String.ofList (rest.takeWhile isUnitChar)
      if whole.isEmpty && fraction.isEmpty || limit < Decimal.natValue whole then
        .error (.invalid text)
      else if unit.isEmpty then
        .error (.missingUnit text)
      else
        match unitNanoseconds? unit with
        | none => .error (.unknownUnit unit text)
        | some size =>
            let count := Decimal.natValue whole * size + fractionNanoseconds size fraction
            if limit < total + count then
              .error (.invalid text)
            else
              readTerms text terms (total + count) (rest.dropWhile isUnitChar)

/-- Reads a signed sum of decimal counts with units, such as `-1h30m`. -/
def read (text : String) : Except ReadFault Duration := do
  let (negative, body) := Decimal.splitSign text.toList
  if body == ['0'] then
    return ⟨0⟩
  else if body.isEmpty then
    throw (.invalid text)
  else
    let total ← readTerms text body.length 0 body
    if negative then
      return ⟨-(total : Int)⟩
    else if total < limit then
      return ⟨total⟩
    else
      throw (.invalid text)

end Duration

end CostTape
