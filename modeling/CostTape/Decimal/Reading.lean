import CostTape.Decimal.Shortest

/-! Reading decimal texts as the nearest binary64 value. -/

namespace CostTape

namespace Decimal

def isDigit (char : Char) : Bool :=
  '0' ≤ char && char ≤ '9'

def digitValue (char : Char) : Nat :=
  char.toNat - '0'.toNat

def natValue (digits : List Char) : Nat :=
  digits.foldl (fun value char => 10 * value + digitValue char) 0

/-- The nearest binary64 value; beyond the range it is an infinity or zero. -/
def toFloat (decimal : Decimal) : Float :=
  if decimal.digits = 0 then
    0.0
  else if 400 < decimal.scale then
    1.0 / 0.0
  else if decimal.scale < -400 then
    0.0
  else
    Float.ofScientific decimal.digits (decimal.exponent < 0)
      decimal.exponent.natAbs

structure Parts where
  whole : List Char
  fraction : List Char
  hasPoint : Bool
  /-- The exponent without its mark, if there is one. -/
  exponent : Option Int
  hasMark : Bool
deriving DecidableEq

namespace Parts

def exponentOf : List Char → Option Int
  | '-' :: digits =>
      if digits.isEmpty || !digits.all isDigit then none
      else some (-(natValue digits : Int))
  | '+' :: digits =>
      if digits.isEmpty || !digits.all isDigit then none
      else some (natValue digits)
  | digits =>
      if digits.isEmpty || !digits.all isDigit then none
      else some (natValue digits)

/-- Splits a text into its parts.  Something other than digits, one point and
one complete exponent is refused. -/
def ofChars? (chars : List Char) : Option Parts :=
  let whole := chars.takeWhile isDigit
  let rest := chars.dropWhile isDigit
  let hasPoint := rest.head? == some '.'
  let afterPoint := if hasPoint then rest.drop 1 else rest
  let fraction := if hasPoint then afterPoint.takeWhile isDigit else []
  let tail := if hasPoint then afterPoint.dropWhile isDigit else rest
  match tail with
  | [] => some ⟨whole, fraction, hasPoint, none, false⟩
  | mark :: exponent =>
      if mark = 'e' ∨ mark = 'E' then
        (exponentOf exponent).map fun value =>
          ⟨whole, fraction, hasPoint, some value, true⟩
      else
        none

def decimal (parts : Parts) : Decimal :=
  ⟨natValue (parts.whole ++ parts.fraction),
    parts.exponent.getD 0 - parts.fraction.length⟩

def hasDigits (parts : Parts) : Bool :=
  !(parts.whole.isEmpty && parts.fraction.isEmpty)

end Parts

def splitSign : List Char → Bool × List Char
  | '-' :: rest => (true, rest)
  | '+' :: rest => (false, rest)
  | rest => (false, rest)

def signed (negative : Bool) (value : Float) : Float :=
  if negative then -value else value

def readUnsigned? (chars : List Char) : Option Float :=
  (Parts.ofChars? chars).bind fun parts =>
    if parts.hasDigits then some parts.decimal.toFloat else none

def readChars? (chars : List Char) : Option Float :=
  let (negative, body) := splitSign chars
  (readUnsigned? body).map (signed negative)

/-- The binary64 value nearest to a natural number times a power of two; of two
that are equally near it is the even one. -/
def ofBinary (mantissa : Nat) (exponent : Int) : Float :=
  if mantissa = 0 then
    0.0
  else
    let quantum := max ((mantissa.log2 : Int) + exponent - 52) (-1074)
    let shift := quantum - exponent
    let units :=
      if shift ≤ 0 then
        mantissa <<< (-shift).toNat
      else
        let floor := mantissa >>> shift.toNat
        let rest := mantissa - floor <<< shift.toNat
        let half := 1 <<< (shift.toNat - 1)
        if half < rest ∨ (rest = half ∧ floor % 2 = 1) then floor + 1 else floor
    let (units, quantum) :=
      if units = 0x20000000000000 then (0x10000000000000, quantum + 1)
      else (units, quantum)
    if 971 < quantum then
      1.0 / 0.0
    else if units < 0x10000000000000 then
      Float.ofBits (UInt64.ofNat units)
    else
      Float.ofBits (UInt64.ofNat
        ((quantum + 1075).toNat * 0x10000000000000 + (units - 0x10000000000000)))

def hexValue? (char : Char) : Option Nat :=
  if isDigit char then some (digitValue char)
  else if 'a' ≤ char ∧ char ≤ 'f' then some (char.toNat - 'a'.toNat + 10)
  else if 'A' ≤ char ∧ char ≤ 'F' then some (char.toNat - 'A'.toNat + 10)
  else none

def isHexDigit (char : Char) : Bool :=
  (hexValue? char).isSome

def hexNatValue (digits : List Char) : Nat :=
  digits.foldl (fun value char => 16 * value + (hexValue? char).getD 0) 0

/-- Reads a hexadecimal value after its base: digits with at most one point, and
a binary exponent, which must be there. -/
private def readHexChars? (chars : List Char) : Option Float :=
  let whole := chars.takeWhile isHexDigit
  let rest := chars.dropWhile isHexDigit
  let hasPoint := rest.head? == some '.'
  let fraction := if hasPoint then (rest.drop 1).takeWhile isHexDigit else []
  let tail := if hasPoint then (rest.drop 1).dropWhile isHexDigit else rest
  match tail with
  | mark :: exponent =>
      if (mark = 'p' ∨ mark = 'P') ∧ !(whole.isEmpty && fraction.isEmpty) then
        (Parts.exponentOf exponent).map fun value =>
          let mantissa := hexNatValue (whole ++ fraction)
          let power := min (max value (-100000)) 100000
          ofBinary mantissa (power - 4 * fraction.length)
      else
        none
  | [] => none

private inductive Neighbour where
  | digit
  | underscore
  | other
deriving DecidableEq

/-- Underscores stand between digits. -/
private def separatesDigits (isDigit : Char → Bool) : Neighbour → List Char → Bool
  | last, [] => last ≠ .underscore
  | last, char :: rest =>
      if isDigit char then separatesDigits isDigit .digit rest
      else if char = '_' then
        last = .digit && separatesDigits isDigit .underscore rest
      else
        last ≠ .underscore && separatesDigits isDigit .other rest

/-- The characters of an unsigned number without the underscores between its
digits.  A base counts as a digit. -/
private def withoutUnderscores? (chars : List Char) : Option (List Char) :=
  let allowed :=
    match chars with
    | '0' :: base :: rest =>
        if "xX".toList.contains base then separatesDigits isHexDigit .digit rest
        else if "bBoO".toList.contains base then separatesDigits isDigit .digit rest
        else separatesDigits isDigit .other chars
    | _ => separatesDigits isDigit .other chars
  if !chars.contains '_' then some chars
  else if allowed then some (chars.filter (· != '_'))
  else none

private def lowerAscii (text : String) : String :=
  text.map Char.toLower

def read? (text : String) : Option Float :=
  let (negative, body) := splitSign text.toList
  let name := lowerAscii (String.ofList body)
  if name == "inf" || name == "infinity" then
    some (signed negative (1.0 / 0.0))
  else if lowerAscii text == "nan" then
    some (0.0 / 0.0)
  else
    (withoutUnderscores? body).bind fun body =>
      (match body with
        | '0' :: 'x' :: rest | '0' :: 'X' :: rest => readHexChars? rest
        | _ => readUnsigned? body).map (signed negative)

end Decimal

end CostTape
