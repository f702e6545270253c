import CostTape.Text.Printable

/-! Texts and characters between quotes, with escapes for what cannot be
printed. -/

namespace CostTape.Text

def hexDigits (width code : Nat) : String :=
  let digits := String.ofList (Nat.toDigits 16 code)
  "".pushn '0' (width - digits.length) ++ digits

/-- The character between quotes of one kind: itself if it is printable,
otherwise a short escape or its code. -/
def escapedChar (quote char : Char) : String :=
  match char with
  | '\\' => "\\\\"
  | '\n' => "\\n"
  | '\r' => "\\r"
  | '\t' => "\\t"
  | _ =>
      let code := char.toNat
      if char = quote then String.ofList ['\\', quote]
      else if code = 0x07 then "\\a"
      else if code = 0x08 then "\\b"
      else if code = 0x0b then "\\v"
      else if code = 0x0c then "\\f"
      else if isPrintable char then char.toString
      else if code < 0x20 ∨ code = 0x7f then "\\x" ++ hexDigits 2 code
      else if code < 0x10000 then "\\u" ++ hexDigits 4 code
      else "\\U" ++ hexDigits 8 code

def quoted (text : String) : String :=
  "\"" ++ String.join (text.toList.map (escapedChar '"')) ++ "\""

def quotedChar (char : Char) : String :=
  "'" ++ escapedChar '\'' char ++ "'"

end CostTape.Text
