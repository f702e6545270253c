import CostTape.Decimal.Layout
import CostTape.Text.Quoted

/-! JSON values and their written forms. -/

namespace CostTape

/-- A number is kept as it is written, and an object keeps the order and the
repetitions of its fields. -/
inductive JsonValue where
  | null
  | bool (flag : Bool)
  | number (digits : String)
  | text (body : String)
  | array (items : List JsonValue)
  | object (fields : List (String × JsonValue))

namespace JsonValue

instance : Inhabited JsonValue := ⟨null⟩

/-- Numbers are positional from a millionth up to `10 ^ 21`, otherwise their
exponent has no leading zero. -/
def numberLayout : NumberLayout :=
  { NumberLayout.trace with
    positional := fun scale => -6 ≤ scale && scale < 21
    exponentWidth := 1 }

def int (value : Int) : JsonValue :=
  number (toString value)

def float? (value : Float) : Option JsonValue :=
  if value.isNaN || value.isInf then none else some (number (numberLayout.text value))

/-- A character inside of a JSON text.  Markup characters and the separators
U+2028 and U+2029 are written by their code. -/
def escapedChar (char : Char) : String :=
  match char with
  | '"' => "\\\""
  | '\\' => "\\\\"
  | '\n' => "\\n"
  | '\r' => "\\r"
  | '\t' => "\\t"
  | _ =>
      let code := char.toNat
      if code = 0x08 then "\\b"
      else if code = 0x0c then "\\f"
      else if code < 0x20 ∨ char = '<' ∨ char = '>' ∨ char = '&' ∨ code = 0x2028 ∨
          code = 0x2029 then
        "\\u" ++ Text.hexDigits 4 code
      else char.toString

def textForm (body : String) : String :=
  "\"" ++ String.join (body.toList.map escapedChar) ++ "\""

mutual

def compact : JsonValue → String
  | null => "null"
  | bool flag => if flag then "true" else "false"
  | number digits => digits
  | text body => textForm body
  | array items => "[" ++ ",".intercalate (compactItems items) ++ "]"
  | object fields => "\x7b" ++ ",".intercalate (compactFields fields) ++ "\x7d"

def compactItems : List JsonValue → List String
  | [] => []
  | item :: items => item.compact :: compactItems items

def compactFields : List (String × JsonValue) → List String
  | [] => []
  | (name, value) :: fields =>
      (textForm name ++ ":" ++ value.compact) :: compactFields fields

end

def lineStart (depth : Nat) : String :=
  "\n" ++ "".pushn ' ' (2 * depth)

def block (opening closing : String) (depth : Nat) (parts : List String) : String :=
  if parts.isEmpty then
    opening ++ closing
  else
    opening ++ lineStart (depth + 1) ++
      ("," ++ lineStart (depth + 1)).intercalate parts ++ lineStart depth ++ closing

mutual

def indented (depth : Nat) : JsonValue → String
  | null => "null"
  | bool flag => if flag then "true" else "false"
  | number digits => digits
  | text body => textForm body
  | array items => block "[" "]" depth (indentedItems (depth + 1) items)
  | object fields => block "\x7b" "\x7d" depth (indentedFields (depth + 1) fields)

def indentedItems (depth : Nat) : List JsonValue → List String
  | [] => []
  | item :: items => item.indented depth :: indentedItems depth items

def indentedFields (depth : Nat) : List (String × JsonValue) → List String
  | [] => []
  | (name, value) :: fields =>
      (textForm name ++ ": " ++ value.indented depth) :: indentedFields depth fields

end

end JsonValue

end CostTape
