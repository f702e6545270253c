import CostTape.Script.CallFault
import CostTape.Script.Storage

/-! The functions on plain values. -/

namespace CostTape.Script

namespace Value

/-- The operations of arithmetic, on each class of numbers.  A quotient of
integers is an integer if it is exact. -/
inductive Arithmetic where
  | add
  | sub
  | mul
  | div
deriving DecidableEq

namespace Arithmetic

def onInts (operation : Arithmetic) (left right : Int64) : Except CallFault Literal :=
  match operation with
  | add => .ok (.int (left + right))
  | sub => .ok (.int (left - right))
  | mul => .ok (.int (left * right))
  | div =>
      if right = 0 then .error (.divisionByZero "/")
      else if left % right = 0 then .ok (.int (left / right))
      else .ok (.float (left.toFloat / right.toFloat) false)

def onWords (operation : Arithmetic) (left right : UInt64) : Except CallFault Literal :=
  match operation with
  | add => .ok (.word (left + right))
  | sub => .ok (.word (left - right))
  | mul => .ok (.word (left * right))
  | div =>
      if right = 0 then .error (.divisionByZero "/")
      else if left % right = 0 then .ok (.word (left / right))
      else .ok (.float (left.toFloat / right.toFloat) false)

def onFloats (operation : Arithmetic) (left right : Float) : Literal :=
  match operation with
  | add => .float (left + right) false
  | sub => .float (left - right) false
  | mul => .float (left * right) false
  | div => .float (left / right) false

/-- A float makes floats of both operands, otherwise an unsigned integer makes
unsigned integers of them.  What starts with a character stays one. -/
def onLiterals (operation : Arithmetic) : Literal → Literal → Except CallFault Literal
  | .float left _, .float right _ => .ok (operation.onFloats left right)
  | .float left _, .int right => .ok (operation.onFloats left right.toFloat)
  | .float left _, .char right => .ok (operation.onFloats left right.toInt64.toFloat)
  | .float left _, .word right => .ok (operation.onFloats left right.toFloat)
  | .int left, .float right _ => .ok (operation.onFloats left.toFloat right)
  | .int left, .int right => operation.onInts left right
  | .int left, .word right => operation.onWords left.toUInt64 right
  | .int left, .char right => operation.onInts left right.toInt64
  | .word left, .float right _ => .ok (operation.onFloats left.toFloat right)
  | .word left, .int right => operation.onWords left right.toUInt64
  | .word left, .word right => operation.onWords left right
  | .word left, .char right => operation.onWords left right.toInt64.toUInt64
  | .char left, .float right _ => .ok (operation.onFloats left.toInt64.toFloat right)
  | .char left, .int right => (operation.onInts left.toInt64 right).map ofInt
  | .char left, .char right => (operation.onInts left.toInt64 right.toInt64).map ofInt
  | _, _ => .error .operandType
where
  ofInt : Literal → Literal
    | .int value => .char value.toInt32
    | other => other

def apply (operation : Arithmetic) : Value → Value → Except CallFault Value
  | .literal left, .literal right => (operation.onLiterals left right).map Value.literal
  | _, _ => .error .operandType

end Arithmetic

private def wholeNumber? : Value → Option Int64
  | literal (.int value) => some value
  | literal (.char code) => some code.toInt64
  | _ => none

def mod (left right : Value) : Except CallFault Value :=
  match wholeNumber? left, wholeNumber? right with
  | some first, some second =>
      if second = 0 then .error (.divisionByZero "mod")
      else .ok (int (first % second))
  | _, _ => .error .operandType

def shiftLeft (left right : Value) : Except CallFault Value :=
  match wholeNumber? left, wholeNumber? right with
  | some first, some second =>
      .ok (int (if 0 ≤ second ∧ second < 64 then first <<< second else 0))
  | _, _ => .error .operandType

/-- How two values compare; `none` where one of them is not a number to be
compared, as `NaN`. -/
abbrev Comparison := Except CallFault (Option Ordering)

private def signInt (difference : Int64) : Ordering :=
  if difference < 0 then .lt else if difference = 0 then .eq else .gt

private def signFloat (difference : Float) : Ordering :=
  if difference < 0.0 then .lt else if 0.0 < difference then .gt else .eq

private def compareFloats (left right : Float) : Option Ordering :=
  if left.isNaN || right.isNaN then none else some (signFloat (left - right))

private def compareTexts (left right : String) : Ordering :=
  if left == right then .eq else if left < right then .lt else .gt

/-- Compares plain values of one class.  After an integer `NaN` counts as equal,
since no difference shows. -/
private def compareLiterals (left right : Literal) : Comparison :=
  let mismatch (code : Nat) : Comparison :=
    .error (.uncomparable code (.literal left) (.literal right))
  match left, right with
  | .int first, .int second => .ok (signInt (first - second))
  | .int first, .float second _ => .ok (signFloat (first.toFloat - second))
  | .int first, .char second => .ok (signInt (first - second.toInt64))
  | .int _, _ => mismatch 92
  | .float first _, .float second _ => .ok (compareFloats first second)
  | .float first _, .int second => .ok (compareFloats first second.toFloat)
  | .float first _, .char second => .ok (compareFloats first second.toInt64.toFloat)
  | .float _ _, _ => mismatch 91
  | .char first, .int second => .ok (signInt (first.toInt64 - second))
  | .char first, .float second _ => .ok (signFloat (first.toInt64.toFloat - second))
  | .char first, .char second => .ok (signInt (first.toInt64 - second.toInt64))
  | .char _, _ => mismatch 93
  | .word first, .word second => .ok (some (Ord.compare first.toNat second.toNat))
  | .word first, .int second => .ok (some (Ord.compare (first.toNat : Int) second.toInt))
  | .word _, _ => mismatch 101
  | .text first _, .text second _ => .ok (compareTexts first second)
  | .text _ _, _ => mismatch 94
  | .bool first, .bool second => .ok (some (Ord.compare first.toNat second.toNat))
  | .bool _, _ => mismatch 98
  | .nil, .nil => .ok (some .eq)
  | .nil, _ => .ok (some .lt)
  | .comma, _ => mismatch 100

mutual

def compare (left right : Value) : Comparison :=
  match left, right with
  | literal .nil, literal .nil => .ok (some .eq)
  | literal .nil, _ => .ok (some .lt)
  | literal first, literal second => compareLiterals first second
  | literal (.int _), _ => .error (.uncomparable 92 left right)
  | literal (.float _ _), _ => .error (.uncomparable 91 left right)
  | literal (.char _), _ => .error (.uncomparable 93 left right)
  | literal (.text _ _), _ => .error (.uncomparable 94 left right)
  | literal (.bool _), _ => .error (.uncomparable 98 left right)
  | symbol first _, symbol second _ => .ok (compareTexts first second)
  | symbol _ _, _ => .error (.uncomparable 95 left right)
  | array _ first, array _ second => compareItems first second
  | array _ _, _ => .error (.uncomparable 97 left right)
  | list first firsts, list second seconds => do
      match ← compare first second with
      | some .eq => compareTails firsts seconds
      | other => pure other
  | list _ _, _ => .error (.uncomparable 96 left right)
  | _, _ => .error (.uncomparable 100 left right)

def compareItems : List Value → List Value → Comparison
  | [], [] => .ok (some .eq)
  | [], _ :: _ => .ok (some .lt)
  | _ :: _, [] => .ok (some .gt)
  | first :: firsts, second :: seconds => do
      match ← compare first second with
      | some .eq => compareItems firsts seconds
      | other => pure other

/-- Compares the rest of two lists.  A list is not to be compared with the end of
another. -/
def compareTails : List Value → List Value → Comparison
  | [], [] => .ok (some .eq)
  | [], _ :: _ => .ok (some .lt)
  | head :: tail, [] => .error (.uncomparable 96 (list head tail) nil)
  | first :: firsts, second :: seconds => do
      match ← compare first second with
      | some .eq => compareTails firsts seconds
      | other => pure other

end

private def comparison (holds : Ordering → Bool) (unordered : Bool)
    (args : List Value) : Except CallFault Value :=
  match args with
  | [left, right] =>
      (compare left right).map fun order =>
        match order with
        | some order => bool (holds order)
        | none => bool unordered
  | _ => .error .argumentCount

private def fold (operation : Value → Value → Except CallFault Value) :
    List Value → Except CallFault Value
  | [] => .error .argumentCount
  | head :: tail => tail.foldlM operation head

private def first : Value → Except CallFault Value
  | list head _ => .ok head
  | array _ (head :: _) => .ok head
  | array _ [] => .error .emptyArray
  | _ => .error .operandType

/-- What is left without the first item.  That of an array stays in its
store. -/
private def rest : Value → Except CallFault Value
  | list _ tail => .ok (ofList tail)
  | array place (_ :: items) =>
      .ok (array
        { place with offset := place.offset + 1, length := place.length - 1 } items)
  | array place [] => .ok (array place [])
  | literal .nil => .ok nil
  | _ => .error .operandType

private def aget : List Value → Except CallFault Value
  | array _ items :: index :: fallback =>
      if 1 < fallback.length then
        .error .argumentCount
      else
        match wholeNumber? index with
        | none => .error (.indexType index)
        | some index =>
            match (if 0 ≤ index then items[index.toInt.toNat]? else none), fallback with
            | some item, _ => .ok item
            | none, value :: _ => .ok value
            | none, [] => .error .indexOutOfBounds
  | [_, _] | [_, _, _] => .error .notAnArray
  | _ => .error .argumentCount

private def len : Value → Except CallFault Value
  | literal .nil => .ok (int 0)
  | array _ items => .ok (int (Int64.ofNat items.length))
  | list _ tail => .ok (int (Int64.ofNat (tail.length + 1)))
  | literal (.text body _) => .ok (int (Int64.ofNat body.utf8ByteSize))
  | _ => .error .noLength

private def concatTexts (body : String) : Nat → List Value → Except CallFault Value
  | _, [] => .ok (text body)
  | place, value :: values =>
      match value.text? with
      | some more => concatTexts (body ++ more) (place + 1) values
      | none => .error (.notAText place value)

private def concatLists (items : List Value) : List Value → Except CallFault Value
  | [] => .ok (ofList items)
  | value :: values =>
      match value with
      | list head tail => concatLists (items ++ head :: tail) values
      | literal .nil => concatLists items values
      | _ => .error .notAList

private def one (function : Value → Except CallFault Value) :
    List Value → Except CallFault Value
  | [value] => function value
  | _ => .error .argumentCount

private def two (function : Value → Value → Except CallFault Value) :
    List Value → Except CallFault Value
  | [left, right] => function left right
  | _ => .error .argumentCount

end Value

/-- A call that works on storage.  What it has stored before it fails stays. -/
abbrev CoreCall := ExceptT CallFault (StateM Storage)

namespace CoreCall

def ofExcept : Except CallFault Value → CoreCall Value
  | .ok value => pure value
  | .error fault => throw fault

def newArray (items : List Value) (kind : Option ValueKind) : CoreCall Value := do
  let (array, storage) := (← get).add items items.length kind
  set storage
  pure array

def concatArrays (place : ArrayPlace) : Nat → List Value → CoreCall Value
  | _, [] => do pure (.array place ((← get).read place))
  | index, value :: values => do
      match value with
      | .array more _ =>
          let storage ← get
          let (place, storage) := storage.append place (storage.read more)
          set storage
          concatArrays place (index + 1) values
      | _ => throw (.notAnArrayAt index)

def concat : List Value → CoreCall Value
  | [] => throw .argumentCount
  | .literal (.text body _) :: values => ofExcept (Value.concatTexts body 0 values)
  | .array place _ :: values => concatArrays { place with kind := none } 0 values
  | .list head tail :: values => ofExcept (Value.concatLists (head :: tail) values)
  | _ => throw .notConcatenable

end CoreCall

/-- The value of a core function under the name that it is called by.  The name
decides which of its family it is: under a name of no such function arithmetic
adds, comparisons do not hold, and nothing is constructed.  `map` is left to the
machine, which alone can call the function that it is given; here it fails as
one called with a single argument. -/
def CoreFunction.apply (function : CoreFunction) (name : String) (args : List Value) :
    CoreCall Value :=
  let known := CoreFunction.ofName? name
  let arithmetic : Except CallFault Value :=
    match known with
    | some .sub => Value.fold (Value.Arithmetic.apply .sub) args
    | some .mul => Value.fold (Value.Arithmetic.apply .mul) args
    | some .div => Value.fold (Value.Arithmetic.apply .div) args
    | _ => Value.fold (Value.Arithmetic.apply .add) args
  let comparison : Except CallFault Value :=
    match known with
    | some .less => Value.comparison (· == .lt) false args
    | some .greater => Value.comparison (· == .gt) false args
    | some .lessEqual => Value.comparison (· != .gt) false args
    | some .greaterEqual => Value.comparison (· != .lt) false args
    | some .equal => Value.comparison (· == .eq) false args
    | some .notEqual => Value.comparison (· != .eq) true args
    | _ => Value.comparison (fun _ => false) false args
  let construction : CoreCall Value :=
    match known with
    | some .list => pure (.ofList args)
    | some .array => CoreCall.newArray args none
    | _ => throw .constructorName
  match function with
  | .add | .sub | .div => CoreCall.ofExcept arithmetic
  | .mul =>
      match args with
      | [value] => throw (.notAPointer value)
      | _ => CoreCall.ofExcept arithmetic
  | .mod =>
      CoreCall.ofExcept
        (Value.two (if known = some .mod then Value.mod else Value.shiftLeft) args)
  | .less | .greater | .lessEqual | .greaterEqual | .equal | .notEqual =>
      CoreCall.ofExcept comparison
  | .not => CoreCall.ofExcept (Value.one (fun value => .ok (.bool !value.isTruthy)) args)
  | .list | .array => construction
  | .first => CoreCall.ofExcept (Value.one Value.first args)
  | .rest => CoreCall.ofExcept (Value.one Value.rest args)
  | .aget => CoreCall.ofExcept (Value.aget args)
  | .len => CoreCall.ofExcept (Value.one Value.len args)
  | .concat => CoreCall.concat args
  | .str => CoreCall.ofExcept (Value.one (fun value => .ok (.text value.print)) args)
  | .map => throw .argumentCount

end CostTape.Script
