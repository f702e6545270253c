import CostTape.Text.Quoted
import CostTape.Yaml.Word

/-! YAML values and their written form, in which no tags, anchors and aliases occur. -/

namespace CostTape

inductive YamlValue where
  /-- A word without quotes, which has the meaning of its characters. -/
  | word (body : String)
  /-- A text, whatever its characters mean as a word. -/
  | text (body : String)
  | list (items : List YamlValue)
  | mapping (entries : List (YamlValue × YamlValue))

namespace YamlValue

instance : Inhabited YamlValue := ⟨word ""⟩

def isBlank (char : Char) : Bool :=
  char == ' ' || char == '\t'

def isBreak (char : Char) : Bool :=
  char == '\n' || char == '\r' || char.toNat == 0x85 || char.toNat == 0x2028 ||
    char.toNat == 0x2029

def isPlainChar (char : Char) : Bool :=
  let code := char.toNat
  char == '\n' || 0x20 ≤ code && code ≤ 0x7e || 0xa0 ≤ code && code ≤ 0xd7ff ||
    0xe000 ≤ code && code ≤ 0xfffd && code != 0xfeff

def endsInSpace (chars : List Char) : Bool :=
  chars.getLast? == some ' '

def hasPair (first second : Char → Bool) : List Char → Bool
  | a :: b :: rest => first a && second b || hasPair first second (b :: rest)
  | _ => false

/-- A start that would be taken for something else than a word. -/
def startsMarked : List Char → Bool
  | [] => false
  | first :: rest =>
      "#,[]\x7b\x7d&*!|>'\"%@`".toList.contains first ||
        ['-', '?', ':'].contains first && rest.head?.all isBlank ||
        ['-', '-', '-'].isPrefixOf (first :: rest) ||
          ['.', '.', '.'].isPrefixOf (first :: rest)

/-- A colon before a blank or at the end, or a number sign after a blank. -/
def hasMark (chars : List Char) : Bool :=
  hasPair (· == ':') isBlank chars || chars.getLast? == some ':' ||
    hasPair (fun char => isBlank char || isBreak char || char.toNat == 0) (· == '#') chars

def allowsWord (chars : List Char) : Bool :=
  !(chars.head? == some ' ' || endsInSpace chars || startsMarked chars ||
    hasMark chars) &&
    chars.all fun char => isPlainChar char && !isBreak char

def allowsSingle (chars : List Char) : Bool :=
  chars.all isPlainChar && !hasPair isBreak (· == ' ') chars &&
    !hasPair (· == ' ') isBreak chars

def allowsBlock (chars : List Char) : Bool :=
  chars.all (fun char => isPlainChar char || char == '\t') && !endsInSpace chars &&
    !hasPair (· == ' ') isBreak chars

def upperHex (width code : Nat) : String :=
  (Text.hexDigits width code).map Char.toUpper

def escapeCode (char : Char) : String :=
  let code := char.toNat
  match code with
  | 0x00 => "\\0"
  | 0x07 => "\\a"
  | 0x08 => "\\b"
  | 0x09 => "\\t"
  | 0x0a => "\\n"
  | 0x0b => "\\v"
  | 0x0c => "\\f"
  | 0x0d => "\\r"
  | 0x1b => "\\e"
  | 0x22 => "\\\""
  | 0x5c => "\\\\"
  | 0x85 => "\\N"
  | 0xa0 => "\\_"
  | 0x2028 => "\\L"
  | 0x2029 => "\\P"
  | _ =>
      if code < 0x100 then "\\x" ++ upperHex 2 code
      else if code < 0x10000 then "\\u" ++ upperHex 4 code
      else "\\U" ++ upperHex 8 code

def escapedChar (char : Char) : String :=
  if isPlainChar char && !isBreak char && char != '"' && char != '\\' then char.toString
  else escapeCode char

/-- After a byte order mark nothing is written as it is. -/
def doubleQuoted (chars : List Char) : String :=
  let marked := chars.head?.any (·.toNat == 0xfeff)
  "\"" ++ String.join (chars.map (if marked then escapeCode else escapedChar)) ++ "\""

def padding (width : Nat) : String :=
  "".pushn ' ' width

def singleBody (width : Nat) (broken : Bool) : List Char → String
  | [] => ""
  | char :: rest =>
      if isBreak char then
        char.toString ++ singleBody width true rest
      else
        (if broken then padding width else "") ++
          (if char = '\'' then "''" else char.toString) ++ singleBody width false rest

def singleQuoted (width : Nat) (chars : List Char) : String :=
  "'" ++ singleBody width false chars ++ "'"

inductive BlockPlace where
  | header
  | lineStart
  | line
deriving DecidableEq

/-- The lines of a literal block.  A break at the start of the text ends the
line of the header. -/
def blockBody (width : Nat) (place : BlockPlace) : List Char → String
  | [] => ""
  | char :: rest =>
      if isBreak char then
        char.toString ++ blockBody width .lineStart rest
      else
        (match place with
          | .header => "\n" ++ padding width
          | .lineStart => padding width
          | .line => "") ++
          char.toString ++ blockBody width .line rest

/-- What a literal block says about its indentation and its last line breaks. -/
def blockHints (unit : Nat) (chars : List Char) : String :=
  (if chars.head?.any fun char => char == ' ' || isBreak char then toString unit
    else "") ++
    match chars.reverse with
    | [] => "-"
    | last :: earlier =>
        if !isBreak last then "-"
        else if earlier.head?.all isBreak then "+"
        else ""

def literalBlock (unit width : Nat) (chars : List Char) : String :=
  "|" ++ blockHints unit chars ++ blockBody width .header chars

/-- The form of a text in an indentation unit; `width` is the indentation of
its further lines. -/
def textForm (unit width : Nat) (body : String) : String :=
  let chars := body.toList
  if chars.contains '\n' then
    if allowsBlock chars then literalBlock unit width chars else doubleQuoted chars
  else if YamlWord.isText body then
    if allowsWord chars then body
    else if allowsSingle chars then singleQuoted width chars
    else doubleQuoted chars
  else
    doubleQuoted chars

/-- A text as it is written: as a word, if that is allowed and the word means nothing
else. -/
def ofText (body : String) : YamlValue :=
  if body.toList.contains '\n' = false ∧ YamlWord.isText body = true ∧
      allowsWord body.toList = true then
    word body
  else
    text body

/-- The indentation below an indentation: the next multiple of the unit. -/
def deeper (unit column : Nat) : Nat :=
  unit * ((column + unit) / unit)

def endLine (line : String) : String :=
  if line.toList.getLast?.any isBreak then line else line ++ "\n"

def keyForm (unit column : Nat) : YamlValue → String
  | word body => body
  | text body => textForm unit (deeper unit column) body
  | _ => ""

mutual

/-- What follows the colon of an entry whose key stands at `column`. -/
def afterColon (unit column : Nat) : YamlValue → String
  | word body => endLine (" " ++ body)
  | text body => endLine (" " ++ textForm unit (deeper unit column) body)
  | list [] => " []\n"
  | list items => "\n" ++ writeItems unit (deeper unit column) items
  | mapping [] => " \x7b\x7d\n"
  | mapping entries => "\n" ++ writeEntries unit (deeper unit column) true entries

def afterDash (unit column : Nat) : YamlValue → String
  | word body => endLine (" " ++ body)
  | text body => endLine (" " ++ textForm unit (column + 2) body)
  | list [] => " []\n"
  | list items => "\n" ++ writeItems unit (column + 2) items
  | mapping [] => " \x7b\x7d\n"
  | mapping entries => " " ++ writeEntries unit (column + 2) false entries

def writeItems (unit column : Nat) : List YamlValue → String
  | [] => ""
  | item :: items =>
      padding column ++ "-" ++ afterDash unit column item ++ writeItems unit column items

def writeEntries (unit column : Nat) (indented : Bool) :
    List (YamlValue × YamlValue) → String
  | [] => ""
  | (key, value) :: entries =>
      (if indented then padding column else "") ++ keyForm unit column key ++ ":" ++
        afterColon unit column value ++ writeEntries unit column true entries

end

def document (unit : Nat) : YamlValue → String
  | word body => endLine body
  | text body => endLine (textForm unit unit body)
  | list [] => "[]\n"
  | list items => writeItems unit 0 items
  | mapping [] => "\x7b\x7d\n"
  | mapping entries => writeEntries unit 0 true entries

end YamlValue

end CostTape
