import CostTape.Recording.Operator

/-! Dual numbers over handles: a primal value and its partial derivatives. -/

namespace CostTape

/-- `slots` is absent as long as the number of partials is open. -/
structure Dual where
  primal : Handle
  slots : Option (List Handle)
deriving DecidableEq

namespace Dual

def zero : Dual :=
  ⟨.unset, none⟩

instance : Inhabited Dual := ⟨zero⟩

def of (primal : Handle) (partials : List Handle) : Dual :=
  ⟨primal, some partials⟩

def partials (dual : Dual) : List Handle :=
  dual.slots.getD []

def dims (dual : Dual) : Nat :=
  dual.partials.length

def text (dual : Dual) : String :=
  "[" ++ dual.primal.text ++ "; [" ++
    " ".intercalate (dual.partials.map Handle.text) ++ "]]"

@[simp] theorem partials_of (primal : Handle) (partials : List Handle) :
    (of primal partials).partials = partials := rfl

@[simp] theorem dims_of (primal : Handle) (partials : List Handle) :
    (of primal partials).dims = partials.length := rfl

def partialAt (dual : Dual) (slot : Int) : Except RecordingFault Handle :=
  if 0 ≤ slot then
    match dual.partials[slot.toNat]? with
    | some handle => .ok handle
    | none => .error .noSuchPartial
  else
    .error .noSuchPartial

/-- The longest list of partials that the address space can hold. -/
def maximalDims : Int :=
  0x1000000000000 / 24

def zeroPartials (dims : Int) : Recording (List Handle) :=
  if 0 ≤ dims ∧ dims ≤ maximalDims then
    (List.replicate dims.toNat (Handle.literal 0.0)).mapM (Recording.assign .unset)
  else
    throw .dimsOutOfRange

def constant (value : Float) (dims : Int) : Recording Dual := do
  let primal ← Recording.assign .unset (.literal value)
  of primal <$> zeroPartials dims

def ofHandle (primal : Handle) (dims : Int) : Recording Dual :=
  of primal <$> zeroPartials dims

/-- Assigns one to a partial, so that the seeding is visible in the trace. -/
def seed (dual : Dual) (slot : Nat) : Recording Dual :=
  match dual.partials[slot]? with
  | some handle => do
      let seeded ← Recording.assign handle (.literal 1.0)
      pure (of dual.primal (dual.partials.set slot seeded))
  | none => throw .noSuchPartial

def seeded (value : Float) (slot dims : Int) : Recording Dual := do
  if slot < 0 ∨ dims ≤ slot then
    throw (.seedOutside slot dims)
  else
    let dual ← constant value dims
    dual.seed slot.toNat

def demandEqualDims (operation : String) (left right : Dual) : Recording Unit :=
  if left.dims = right.dims then
    pure ()
  else
    throw (.unequalDims operation left.dims right.dims)

def zipWith (operator : BinaryOperator) (left right : Dual) : Recording Dual := do
  let primal ← Recording.binary operator left.primal right.primal
  of primal <$> (left.partials.zip right.partials).mapM fun (first, second) =>
    Recording.binary operator first second

def add (left right : Dual) : Recording Dual := do
  demandEqualDims "add" left right
  zipWith .add left right

def sub (left right : Dual) : Recording Dual := do
  demandEqualDims "sub" left right
  zipWith .sub left right

def neg (dual : Dual) : Recording Dual := do
  let primal ← Recording.unary .negate dual.primal
  of primal <$> dual.partials.mapM (Recording.unary .negate)

/-- The product rule: both cross terms of a slot come before their sum. -/
def mul (left right : Dual) : Recording Dual := do
  demandEqualDims "mul" left right
  let primal ← Recording.binary .mul left.primal right.primal
  of primal <$> (left.partials.zip right.partials).mapM fun (first, second) => do
    let outer ← Recording.binary .mul left.primal second
    let inner ← Recording.binary .mul first right.primal
    Recording.binary .add outer inner

/-- The quotient rule: with `a = x / y`, each partial is `(dx - a * dy) / y`. -/
def div (left right : Dual) : Recording Dual := do
  demandEqualDims "div" left right
  let inverse ← Recording.binary .div (.literal 1.0) right.primal
  let primal ← Recording.binary .mul left.primal inverse
  of primal <$> (left.partials.zip right.partials).mapM fun (first, second) => do
    let product ← Recording.binary .mul primal second
    let difference ← Recording.binary .sub first product
    Recording.binary .mul difference inverse

def scale (dual : Dual) (factor : Handle) : Recording Dual := do
  let primal ← Recording.binary .mul dual.primal factor
  of primal <$> dual.partials.mapM fun slot => Recording.binary .mul slot factor

/-- Adds a scalar; the partials stay, and an empty list of them stays open. -/
def addScalar (dual : Dual) (scalar : Handle) : Recording Dual := do
  let primal ← Recording.binary .add dual.primal scalar
  pure ⟨primal, if dual.partials.isEmpty then none else some dual.partials⟩

def chain (primal derivative : Handle) (inner : Dual) : Recording Dual :=
  of primal <$> inner.partials.mapM fun slot =>
    Recording.binary .mul slot derivative

def sin (dual : Dual) : Recording Dual := do
  let primal ← Recording.unary .sin dual.primal
  let derivative ← Recording.unary .cos dual.primal
  chain primal derivative dual

def cos (dual : Dual) : Recording Dual := do
  let primal ← Recording.unary .cos dual.primal
  let sine ← Recording.unary .sin dual.primal
  let derivative ← Recording.unary .negate sine
  chain primal derivative dual

def sqrt (dual : Dual) : Recording Dual := do
  let primal ← Recording.unary .sqrt dual.primal
  let twice ← Recording.binary .mul (.literal 2.0) primal
  let derivative ← Recording.binary .div (.literal 1.0) twice
  chain primal derivative dual

def exp (dual : Dual) : Recording Dual := do
  let primal ← Recording.unary .exp dual.primal
  chain primal primal dual

def log (dual : Dual) : Recording Dual := do
  let primal ← Recording.unary .log dual.primal
  let derivative ← Recording.binary .div (.literal 1.0) dual.primal
  chain primal derivative dual

/-- Assigns sources to destinations in order.  The result holds what the
destinations have become, also when a later assignment fails. -/
def assignEach : List Handle → List Handle →
    StateM Session (List Handle × Except RecordingFault Unit)
  | destination :: destinations, source :: sources => do
      match ← (Recording.assign destination source).run with
      | .ok assigned =>
          let (others, outcome) ← assignEach destinations sources
          pure (assigned :: others, outcome)
      | .error fault => pure (destination :: destinations, .error fault)
  | destinations, _ => pure (destinations, .ok ())

/-- Assigns a dual number, primal first.  A destination whose number of
partials is open takes that of the source. -/
def assign (destination source : Dual) :
    StateM Session (Dual × Except RecordingFault Unit) := do
  let slots := destination.slots.getD (List.replicate source.dims .unset)
  if slots.length ≠ source.dims then
    pure (destination, .error (.unequalDims "assign" slots.length source.dims))
  else
    let (handles, outcome) ←
      assignEach (destination.primal :: slots) (source.primal :: source.partials)
    pure (of (handles.headD destination.primal) handles.tail, outcome)

end Dual

end CostTape
