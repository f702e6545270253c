import CostTape.Decimal.Layout
import CostTape.Text.Quoted

/-! Data: the tree form of a script. -/

namespace CostTape.Script

inductive Literal where
  | nil
  | bool (flag : Bool)
  | int (value : Int64)
  /-- An unsigned integer, marked as such where it is written. -/
  | word (value : UInt64)
  /-- The flag says that the number was written with an exponent. -/
  | float (value : Float) (scientific : Bool)
  /-- The flag says that the text was written between backticks. -/
  | text (body : String) (raw : Bool)
  | char (code : Int32)
  | comma
deriving DecidableEq

namespace Literal

instance : Inhabited Literal := ⟨nil⟩

/-- A code between single quotes; one that no character has is shown by the
replacement character. -/
private def charText (code : Int32) : String :=
  let place := code.toInt.toNat
  Text.quotedChar
    (if 0 ≤ code.toInt ∧ place.isValidChar then Char.ofNat place else Char.ofNat 0xfffd)

def print : Literal → String
  | nil => "nil"
  | bool flag => if flag then "true" else "false"
  | int value => toString value.toInt
  | word value => toString value.toNat ++ "ULL"
  | float value scientific =>
      if scientific then NumberLayout.scientific.text value
      else NumberLayout.plain.text value
  | text body raw => if raw then "`" ++ body ++ "`" else Text.quoted body
  | char code => charText code
  | comma => ","

end Literal

/-- A list is never empty: `()` is the literal `nil`. -/
inductive Datum where
  | literal (value : Literal)
  /-- The flag says that the symbol stands for itself and not for a variable. -/
  | symbol (name : String) (inert : Bool)
  | list (head : Datum) (tail : List Datum)
  | array (items : List Datum)

namespace Datum

instance : Inhabited Datum := ⟨literal .nil⟩

def named (name : String) : Datum :=
  symbol name false

def ofList : List Datum → Datum
  | [] => literal .nil
  | head :: tail => list head tail

def spaced (parts : List String) : String :=
  " ".intercalate parts

mutual

def print : Datum → String
  | literal value => value.print
  | symbol name _ => name
  | list head tail => "(" ++ spaced (head.print :: printAll tail) ++ ")"
  | array items => "[" ++ spaced (printAll items) ++ "]"

def printAll : List Datum → List String
  | [] => []
  | head :: tail => head.print :: printAll tail

end

mutual

def names : Datum → List String
  | literal _ => []
  | symbol name _ => [name]
  | list head tail => head.names ++ namesAll tail
  | array items => namesAll items

def namesAll : List Datum → List String
  | [] => []
  | head :: tail => head.names ++ namesAll tail

end

def symbolName? : Datum → Option String
  | symbol name _ => some name
  | _ => none

end Datum

end CostTape.Script
