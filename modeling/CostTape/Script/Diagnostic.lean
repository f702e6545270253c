import CostTape.Decimal.Reading
import CostTape.Text.Blank

/-! Diagnostics: what went wrong in a script, and on which line. -/

namespace CostTape

/-- The line is positive where it is known. -/
structure Diagnostic where
  line : Int
  column : Int
  message : String
deriving DecidableEq

namespace Diagnostic

def text (diagnostic : Diagnostic) : String :=
  if 0 < diagnostic.line then
    s!"line {diagnostic.line}: " ++ diagnostic.message
  else
    diagnostic.message

def lastLine : Nat :=
  0x7FFFFFFFFFFFFFFF

def isGap (char : Char) : Bool :=
  char == ' ' || char == '\t' || char == '\n' || char == '\r' || char.toNat == 0x0c

def dropWord? : List Char → List Char → Option (List Char)
  | [], rest => some rest
  | _ :: _, [] => none
  | letter :: word, char :: rest =>
      if char.toLower = letter then dropWord? word rest else none

/-- A header: the word, a line number and a colon.  Its message is the rest of
the line, with the gap after the colon left out. -/
def header? (word : List Char) (chars : List Char) : Option Diagnostic :=
  (dropWord? word chars).bind fun rest =>
    let digits := rest.takeWhile Decimal.isDigit
    match digits, rest.dropWhile Decimal.isDigit with
    | [], _ => none
    | _, ':' :: rest =>
        let message := (rest.dropWhile isGap).takeWhile (· != '\n')
        some ⟨min (Decimal.natValue digits) lastLine, 0,
          String.ofList (Text.trimChars message)⟩
    | _, _ => none

def firstHeader? (word : List Char) : List Char → Option Diagnostic
  | [] => header? word []
  | char :: rest => (header? word (char :: rest)).orElse fun _ => firstHeader? word rest

/-- Reads an error text.  `on line N:` is looked for everywhere, `line N:` only
at the start; without either the line is not known. -/
def ofText (text : String) : Diagnostic :=
  let chars := text.toList
  ((firstHeader? "on line ".toList chars).orElse fun _ =>
      header? "line ".toList chars).getD ⟨0, 0, Text.trim text⟩

end Diagnostic

end CostTape
