import CostTape.Decimal.Shortest

/-! Written forms of binary64 values: the shortest digits under one record of
layout decisions. -/

namespace CostTape

/-- The decisions of a number format.  `positional scale` says that a value
whose leading digit has that exponent is written without an exponent. -/
structure NumberLayout where
  positional : Int → Bool
  exponentWidth : Nat
  notANumber : String
  infinity : String
  negativeInfinity : String

namespace NumberLayout

def positionalText (decimal : Decimal) : String :=
  let digits := toString decimal.digits
  let scale := decimal.scale
  if 0 ≤ decimal.exponent then
    digits ++ "".pushn '0' decimal.exponent.toNat
  else if 0 ≤ scale then
    let whole := (scale + 1).toNat
    String.ofList (digits.toList.take whole) ++ "." ++
      String.ofList (digits.toList.drop whole)
  else
    "0." ++ "".pushn '0' (-scale - 1).toNat ++ digits

def exponentText (width : Nat) (decimal : Decimal) : String :=
  let digits := (toString decimal.digits).toList
  let fraction := String.ofList (digits.drop 1)
  let scale := decimal.scale
  let exponent := toString scale.natAbs
  String.ofList (digits.take 1) ++
    (if fraction.isEmpty then "" else "." ++ fraction) ++
    (if scale < 0 then "e-" else "e+") ++
    "".pushn '0' (width - exponent.length) ++ exponent

def decimalText (layout : NumberLayout) (decimal : Decimal) : String :=
  if layout.positional decimal.scale then
    positionalText decimal
  else
    exponentText layout.exponentWidth decimal

/-- The text of a binary64 value; a negative zero keeps its sign. -/
def text (layout : NumberLayout) (value : Float) : String :=
  if value.isNaN then
    layout.notANumber
  else
    let negative := value.toBits >>> 63 == 1
    if value.isInf then
      if negative then layout.negativeInfinity else layout.infinity
    else
      let body := layout.decimalText (Magnitude.ofFloat value).shortest
      if negative then "-" ++ body else body

/-- Numbers in traces: positional for exponents from -4 to 5, otherwise an
exponent of at least two digits. -/
def trace : NumberLayout where
  positional scale := -4 ≤ scale && scale < 6
  exponentWidth := 2
  notANumber := "NaN"
  infinity := "+Inf"
  negativeInfinity := "-Inf"

def plain : NumberLayout :=
  { trace with positional := fun _ => true }

def scientific : NumberLayout :=
  { trace with positional := fun _ => false }

end NumberLayout

end CostTape
