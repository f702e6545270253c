import CostTape.Decimal.Reading

/-! What an unquoted YAML word stands for. -/

namespace CostTape

inductive YamlWord where
  | null
  | bool (flag : Bool)
  | int (value : Int)
  | float (value : Float)
  | date
  | text
deriving DecidableEq

namespace YamlWord

def keyword? (word : String) : Option YamlWord :=
  if ["", "~", "null", "Null", "NULL"].contains word then some null
  else if ["true", "True", "TRUE"].contains word then some (bool true)
  else if ["false", "False", "FALSE"].contains word then some (bool false)
  else if [".nan", ".NaN", ".NAN"].contains word then some (float (0.0 / 0.0))
  else if [".inf", ".Inf", ".INF", "+.inf", "+.Inf", "+.INF"].contains word then
    some (float (1.0 / 0.0))
  else if ["-.inf", "-.Inf", "-.INF"].contains word then some (float (-1.0 / 0.0))
  else none

def digitIn? (base : Nat) (char : Char) : Option Nat :=
  let digit :=
    if Decimal.isDigit char then Decimal.digitValue char
    else if 'a' ≤ char ∧ char ≤ 'f' then char.toNat - 'a'.toNat + 10
    else if 'A' ≤ char ∧ char ≤ 'F' then char.toNat - 'A'.toNat + 10
    else 16
  if digit < base then some digit else none

def natIn? (base : Nat) (digits : List Char) : Option Nat :=
  digits.foldlM (fun value char => (digitIn? base char).map (base * value + ·)) 0

def basedDigits? (base : Nat) (digits : List Char) : Option Nat :=
  if digits.isEmpty then none else natIn? base digits

/-- An unsigned integer: hexadecimal, binary or octal after its mark, octal
after a leading zero, otherwise decimal. -/
def magnitude? : List Char → Option Nat
  | [] => none
  | ['0'] => some 0
  | '0' :: mark :: digits =>
      if mark = 'x' ∨ mark = 'X' then basedDigits? 16 digits
      else if mark = 'o' ∨ mark = 'O' then basedDigits? 8 digits
      else if mark = 'b' ∨ mark = 'B' then basedDigits? 2 digits
      else natIn? 8 (mark :: digits)
  | digits => natIn? 10 digits

/-- An integer of 64 bits; one without a sign may also be an unsigned one. -/
def int? (chars : List Char) : Option Int :=
  let (negative, body) := Decimal.splitSign chars
  let signed := body.length < chars.length
  (magnitude? body).bind fun magnitude =>
    if negative then
      if magnitude ≤ 0x8000000000000000 then some (-(magnitude : Int)) else none
    else if magnitude < 0x8000000000000000 ∨ (!signed ∧ magnitude < UInt64.size) then
      some magnitude
    else none

/-- A binary or octal integer whose sign stands after the mark of its base. -/
def markedInt? : List Char → Option Int
  | '0' :: 'b' :: rest => signedIn? 2 rest
  | '0' :: 'o' :: rest => signedIn? 8 rest
  | _ => none
where
  signedIn? (base : Nat) (chars : List Char) : Option Int :=
    let (negative, digits) := Decimal.splitSign chars
    (basedDigits? base digits).bind fun magnitude =>
      if negative then
        if magnitude ≤ 0x8000000000000000 then some (-(magnitude : Int)) else none
      else if magnitude < 0x8000000000000000 then some magnitude
      else none

def float? (chars : List Char) : Option Float :=
  let (negative, body) := Decimal.splitSign chars
  match Decimal.Parts.ofChars? body with
  | none => none
  | some parts =>
      let value := Decimal.signed negative parts.decimal.toFloat
      if parts.hasDigits && !value.isInf then some value else none

def shortNumber? (low high : Nat) (chars : List Char) : Option (Nat × List Char) :=
  let digits := (chars.take 2).takeWhile Decimal.isDigit
  let value := Decimal.natValue digits
  if !digits.isEmpty && low ≤ value && value ≤ high then
    some (value, chars.drop digits.length)
  else
    none

def dropChar? (char : Char) : List Char → Option (List Char)
  | [] => none
  | first :: rest => if first = char then some rest else none

private def daysIn (year month : Nat) : Nat :=
  if month = 2 then
    if year % 4 = 0 ∧ (year % 100 ≠ 0 ∨ year % 400 = 0) then 29 else 28
  else if [4, 6, 9, 11].contains month then 30
  else 31

private def dropClock? (chars : List Char) : Option (List Char) := do
  let (_, rest) ← shortNumber? 0 23 chars
  let (_, rest) ← shortNumber? 0 59 (← dropChar? ':' rest)
  let (_, rest) ← shortNumber? 0 59 (← dropChar? ':' rest)
  match rest with
  | mark :: digits =>
      if (mark = '.' ∨ mark = ',') ∧ digits.head?.any Decimal.isDigit then
        pure (digits.dropWhile Decimal.isDigit)
      else
        pure rest
  | [] => pure []

private def isZone : List Char → Bool
  | ['Z'] => true
  | [sign, a, b, ':', c, d] =>
      (sign == '+' || sign == '-') && [a, b, c, d].all Decimal.isDigit &&
        Decimal.natValue [a, b] ≤ 24 && Decimal.natValue [c, d] ≤ 60
  | _ => false

def isDate (chars : List Char) : Bool :=
  let year := chars.takeWhile Decimal.isDigit
  let tail? : Option (List Char) := do
    let rest ← dropChar? '-' (chars.drop 4)
    let (month, rest) ← shortNumber? 1 12 rest
    let rest ← dropChar? '-' rest
    let (_, rest) ← shortNumber? 1 (daysIn (Decimal.natValue year) month) rest
    pure rest
  year.length == 4 &&
    match tail? with
    | none => false
    | some [] => true
    | some (mark :: rest) =>
        if mark = 'T' ∨ mark = 't' then (dropClock? rest).any isZone
        else if mark = ' ' then
          (dropClock? (rest.dropWhile (· == ' '))).any List.isEmpty
        else false

/-- The meaning of a word.  Underscores between the digits of a number do not
count. -/
def ofWord (word : String) : YamlWord :=
  let chars := word.toList
  match keyword? word, chars with
  | some meaning, _ => meaning
  | none, [] => null
  | none, first :: _ =>
      if first = '.' then
        match Decimal.read? word with
        | some value => if value.isInf then text else float value
        | none => text
      else if first = '+' ∨ first = '-' ∨ Decimal.isDigit first then
        let plain := chars.filter (· != '_')
        if isDate chars then date
        else
          match int? plain, float? plain, markedInt? plain with
          | some value, _, _ => int value
          | none, some value, _ => float value
          | none, none, some value => int value
          | none, none, none => text
      else
        text

def isOldBool (word : String) : Bool :=
  ["y", "Y", "yes", "Yes", "YES", "on", "On", "ON",
    "n", "N", "no", "No", "NO", "off", "Off", "OFF"].contains word

/-- The groups of a base 60 number after the first: a colon and one or two
digits below 60, then perhaps a fraction. -/
private def isBase60Tail : List Char → Bool
  | ':' :: a :: b :: rest =>
      if Decimal.isDigit a && Decimal.isDigit b then
        a ≤ '5' && (rest.isEmpty || isBase60Tail rest)
      else
        Decimal.isDigit a && isBase60Tail (b :: rest)
  | [':', a] => Decimal.isDigit a
  | '.' :: rest => rest.all fun char => Decimal.isDigit char || char == '_'
  | _ => false

def isBase60 (word : String) : Bool :=
  match (Decimal.splitSign word.toList).2 with
  | [] => false
  | first :: rest =>
      let tail := rest.dropWhile fun char => Decimal.isDigit char || char == '_'
      Decimal.isDigit first && tail.head? == some ':' && isBase60Tail tail

/-- Every reader takes the word for a text. -/
def isText (word : String) : Bool :=
  ofWord word == text && !isOldBool word && !isBase60 word

end YamlWord

end CostTape
