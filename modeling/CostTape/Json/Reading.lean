import CostTape.Decimal.Reading
import CostTape.Json.Value

/-! Reading JSON texts. -/

namespace CostTape

namespace JsonValue

def isSpace (char : Char) : Bool :=
  char == ' ' || char == '\n' || char == '\r' || char == '\t'

def skipSpace (chars : List Char) : List Char :=
  chars.dropWhile isSpace

def hexDigit? (char : Char) : Option Nat :=
  if '0' ≤ char ∧ char ≤ '9' then some (char.toNat - '0'.toNat)
  else if 'a' ≤ char ∧ char ≤ 'f' then some (char.toNat - 'a'.toNat + 10)
  else if 'A' ≤ char ∧ char ≤ 'F' then some (char.toNat - 'A'.toNat + 10)
  else none

def hexUnit? (a b c d : Char) : Option Nat := do
  let a ← hexDigit? a
  let b ← hexDigit? b
  let c ← hexDigit? c
  let d ← hexDigit? d
  pure (((a * 16 + b) * 16 + c) * 16 + d)

def shortEscape? (char : Char) : Option Char :=
  match char with
  | '"' | '\\' | '/' => some char
  | 'b' => some (Char.ofNat 0x08)
  | 'f' => some (Char.ofNat 0x0c)
  | 'n' => some '\n'
  | 'r' => some '\r'
  | 't' => some '\t'
  | _ => none

/-- A character, or a 16-bit unit given by its code. -/
inductive TextUnit where
  | char (char : Char)
  | code (unit : Nat)
deriving DecidableEq

def textUnits : List Char → Option (List TextUnit × List Char)
  | [] => none
  | '"' :: rest => some ([], rest)
  | '\\' :: 'u' :: a :: b :: c :: d :: rest =>
      match hexUnit? a b c d, textUnits rest with
      | some unit, some (units, rest) => some (.code unit :: units, rest)
      | _, _ => none
  | '\\' :: char :: rest =>
      match shortEscape? char, textUnits rest with
      | some char, some (units, rest) => some (.char char :: units, rest)
      | _, _ => none
  | char :: rest =>
      if char.toNat < 0x20 ∨ char = '\\' then none
      else (textUnits rest).map fun (units, rest) => (.char char :: units, rest)

def isHighUnit (unit : Nat) : Bool :=
  0xd800 ≤ unit && unit < 0xdc00

def isLowUnit (unit : Nat) : Bool :=
  0xdc00 ≤ unit && unit < 0xe000

/-- The character of a unit on its own; half of a pair stands for none. -/
def loneChar (unit : Nat) : Char :=
  if isHighUnit unit || isLowUnit unit then Char.ofNat 0xfffd else Char.ofNat unit

/-- Joins the two halves of characters beyond 16 bits. -/
def joinUnits : List TextUnit → List Char
  | [] => []
  | .char char :: rest => char :: joinUnits rest
  | .code high :: .code low :: rest =>
      if isHighUnit high && isLowUnit low then
        Char.ofNat (0x10000 + (high - 0xd800) * 0x400 + (low - 0xdc00)) :: joinUnits rest
      else
        loneChar high :: joinUnits (.code low :: rest)
  | .code unit :: rest => loneChar unit :: joinUnits rest

def readText (chars : List Char) : Option (String × List Char) :=
  (textUnits chars).map fun (units, rest) => (String.ofList (joinUnits units), rest)

def isNumberChar (char : Char) : Bool :=
  Decimal.isDigit char || "+-.eE".toList.contains char

/-- A number has no leading zero and no empty part. -/
def isNumber (chars : List Char) : Bool :=
  let body := if chars.head? == some '-' then chars.drop 1 else chars
  match Decimal.Parts.ofChars? body with
  | none => false
  | some parts =>
      !parts.whole.isEmpty && (parts.whole.length == 1 ||
        parts.whole.head? != some '0') &&
        (!parts.hasPoint || !parts.fraction.isEmpty)

def dropWord? (word : String) (chars : List Char) : Option (List Char) :=
  if word.toList.isPrefixOf chars then some (chars.drop word.length) else none

def maxDepth : Nat := 10000

mutual

def readValue : Nat → Nat → List Char → Option (JsonValue × List Char)
  | 0, _, _ => none
  | steps + 1, depth, chars =>
      match chars with
      | '\x7b' :: rest =>
          if depth = 0 then none
          else
            match skipSpace rest with
            | '\x7d' :: rest => some (object [], rest)
            | rest =>
                (readFields steps (depth - 1) rest).map fun (fields, rest) =>
                  (object fields, rest)
      | '[' :: rest =>
          if depth = 0 then none
          else
            match skipSpace rest with
            | ']' :: rest => some (array [], rest)
            | rest =>
                (readItems steps (depth - 1) rest).map fun (items, rest) =>
                  (array items, rest)
      | '"' :: rest => (readText rest).map fun (body, rest) => (text body, rest)
      | 't' :: _ => (dropWord? "true" chars).map fun rest => (bool true, rest)
      | 'f' :: _ => (dropWord? "false" chars).map fun rest => (bool false, rest)
      | 'n' :: _ => (dropWord? "null" chars).map fun rest => (null, rest)
      | _ =>
          let digits := chars.takeWhile isNumberChar
          if isNumber digits then
            some (number (String.ofList digits), chars.dropWhile isNumberChar)
          else
            none

def readItems : Nat → Nat → List Char → Option (List JsonValue × List Char)
  | 0, _, _ => none
  | steps + 1, depth, chars =>
      (readValue steps depth (skipSpace chars)).bind fun (item, rest) =>
        match skipSpace rest with
        | ']' :: rest => some ([item], rest)
        | ',' :: rest =>
            (readItems steps depth rest).map fun (items, rest) => (item :: items, rest)
        | _ => none

def readFields : Nat → Nat → List Char → Option (List (String × JsonValue) × List Char)
  | 0, _, _ => none
  | steps + 1, depth, chars =>
      match skipSpace chars with
      | '"' :: rest =>
          (readText rest).bind fun (name, rest) =>
            match skipSpace rest with
            | ':' :: rest =>
                (readValue steps depth (skipSpace rest)).bind fun (value, rest) =>
                  match skipSpace rest with
                  | '\x7d' :: rest => some ([(name, value)], rest)
                  | ',' :: rest =>
                      (readFields steps depth rest).map fun (fields, rest) =>
                        ((name, value) :: fields, rest)
                  | _ => none
            | _ => none
      | _ => none

end

def read? (source : String) : Option JsonValue :=
  let chars := source.toList
  match readValue (chars.length + 1) maxDepth (skipSpace chars) with
  | some (value, rest) => if (skipSpace rest).isEmpty then some value else none
  | none => none

end JsonValue

end CostTape
