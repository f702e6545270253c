/-! The fewest decimal digits that identify a binary64 value. -/

namespace CostTape

/-- The number `digits * 10 ^ exponent`. -/
structure Decimal where
  digits : Nat
  exponent : Int
deriving DecidableEq

namespace Decimal

def stripZeros (decimal : Decimal) : Decimal :=
  if 0 < decimal.digits ∧ decimal.digits % 10 = 0 then
    stripZeros ⟨decimal.digits / 10, decimal.exponent + 1⟩
  else
    decimal
termination_by decimal.digits
decreasing_by exact Nat.div_lt_self (by omega) (by omega)

def scale (decimal : Decimal) : Int :=
  decimal.exponent + (toString decimal.digits).length - 1

end Decimal

/-- A finite magnitude `mantissa * 2 ^ exponent`.  `narrowBelow` says that the
gap to the value below is half the gap to the value above. -/
structure Magnitude where
  mantissa : Nat
  exponent : Int
  narrowBelow : Bool
deriving DecidableEq

namespace Magnitude

def ofFloat (value : Float) : Magnitude :=
  let bits := value.toBits
  let biased := ((bits >>> 52) &&& 0x7FF).toNat
  let fraction := (bits &&& 0xFFFFFFFFFFFFF).toNat
  if biased = 0 then
    ⟨fraction, -1074, false⟩
  else
    ⟨0x10000000000000 + fraction, (biased : Int) - 1075, fraction == 0 && 1 < biased⟩

/-- The exact quotient of the magnitude by `10 ^ grid`, as a fraction. -/
def overGrid (magnitude : Magnitude) (grid : Int) : Nat × Nat :=
  (magnitude.mantissa * Nat.pow 2 magnitude.exponent.toNat * Nat.pow 10 (-grid).toNat,
    Nat.pow 2 (-magnitude.exponent).toNat * Nat.pow 10 grid.toNat)

def compareScaled (decimal : Decimal) (quarters : Nat) (exponent : Int) :
    Ordering :=
  compare
    (decimal.digits * Nat.pow 10 decimal.exponent.toNat * Nat.pow 2 (-exponent).toNat)
    (quarters * Nat.pow 2 exponent.toNat * Nat.pow 10 (-decimal.exponent).toNat)

/-- The decimal lies among the reals that round to the magnitude, to nearest
with ties to even. -/
def readsBack (magnitude : Magnitude) (decimal : Decimal) : Bool :=
  let below := 4 * magnitude.mantissa - if magnitude.narrowBelow then 1 else 2
  let above := 4 * magnitude.mantissa + 2
  let closed := magnitude.mantissa % 2 == 0
  let lower := compareScaled decimal below (magnitude.exponent - 2)
  let upper := compareScaled decimal above (magnitude.exponent - 2)
  (lower == .gt || (closed && lower == .eq)) &&
    (upper == .lt || (closed && upper == .eq))

def ceilingScale (magnitude : Magnitude) : Int :=
  let binary := (magnitude.mantissa.log2 : Int) + magnitude.exponent
  let estimate := Int.fdiv (binary * 30103) 100000
  let above (power : Int) : Bool :=
    let quotient := magnitude.overGrid power
    quotient.1 < quotient.2
  ([estimate, estimate + 1].find? above).getD (estimate + 2)

/-- The neighbour of the magnitude on the grid `10 ^ grid` that reads back; of
two, the nearer, and of two equally near the even one. -/
def neighbour? (magnitude : Magnitude) (grid : Int) : Option Decimal :=
  let quotient := magnitude.overGrid grid
  let below : Decimal := ⟨quotient.1 / quotient.2, grid⟩
  let above : Decimal := ⟨quotient.1 / quotient.2 + 1, grid⟩
  match magnitude.readsBack below, magnitude.readsBack above with
  | false, false => none
  | true, false => some below
  | false, true => some above
  | true, true =>
      match compare (2 * quotient.1) ((below.digits + above.digits) * quotient.2) with
      | .lt => some below
      | .gt => some above
      | .eq => some (if below.digits % 2 = 0 then below else above)

def exact (magnitude : Magnitude) : Decimal :=
  ⟨magnitude.mantissa * Nat.pow 2 magnitude.exponent.toNat *
      Nat.pow 5 (-magnitude.exponent).toNat,
    if magnitude.exponent < 0 then magnitude.exponent else 0⟩

/-- The decimal with the fewest digits that reads back, found on the coarsest
grid that has one; zero is its own decimal. -/
def shortest (magnitude : Magnitude) : Decimal :=
  if magnitude.mantissa = 0 then
    ⟨0, 0⟩
  else
    let top := magnitude.ceilingScale
    let found := (List.range 17).findSome? fun index =>
      magnitude.neighbour? (top - (index + 1 : Nat))
    (found.getD magnitude.exact).stripZeros

end Magnitude

end CostTape
