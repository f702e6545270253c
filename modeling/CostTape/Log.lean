import CostTape.Text.Blank
import CostTape.Text.Quoted

/-! Log records and the lines that are written for them. -/

namespace CostTape

/-- Levels are ordered by number; the named ones are four apart. -/
abbrev LogLevel := Int

namespace LogLevel

def debug : LogLevel := -4
def info : LogLevel := 0
def warn : LogLevel := 4
def error : LogLevel := 8

def ofSetting (setting : String) : LogLevel :=
  match setting with
  | "debug" => debug
  | "warn" => warn
  | "error" => error
  | _ => info

private def withOffset (name : String) (offset : Int) : String :=
  if offset = 0 then name
  else if 0 < offset then name ++ "+" ++ toString offset
  else name ++ toString offset

/-- The name of the nearest level that is not above, and the distance to it. -/
def name (level : LogLevel) : String :=
  if level < info then withOffset "DEBUG" (level - debug)
  else if level < warn then withOffset "INFO" (level - info)
  else if level < error then withOffset "WARN" (level - warn)
  else withOffset "ERROR" (level - error)

/-- The only letter outside ASCII whose upper case is in a level's name is the
one of `I` without its dot. -/
private def upperLetter (char : Char) : Char :=
  if char.toNat = 0x131 then 'I' else char.toUpper

private def ofName? (name : String) : Option LogLevel :=
  match name.map upperLetter with
  | "DEBUG" => some debug
  | "INFO" => some info
  | "WARN" => some warn
  | "ERROR" => some error
  | _ => none

private def offset? : List Char → Option Int
  | [] => some 0
  | sign :: digits =>
      if digits.isEmpty || !digits.all Char.isDigit then none
      else
        let distance : Int := digits.foldl
          (fun value char => 10 * value + (char.toNat - '0'.toNat)) 0
        let offset := if sign = '-' then -distance else distance
        if -0x8000000000000000 ≤ offset ∧ offset < 0x8000000000000000 then some offset
        else none

/-- Reads a level's name with an optional distance; their sum wraps around at 64
bits. -/
def read? (text : String) : Option LogLevel := do
  let isSign := fun char : Char => char == '+' || char == '-'
  let chars := text.toList
  let base ← ofName? (String.ofList (chars.takeWhile fun char => !isSign char))
  let offset ← offset? (chars.dropWhile fun char => !isSign char)
  pure (Int.bmod (base + offset) UInt64.size)

end LogLevel

inductive LogValue where
  | text (body : String)
  | int (value : Int)
deriving DecidableEq

structure LogRecord where
  level : LogLevel
  message : String
  attributes : List (String × LogValue)
deriving DecidableEq

inductive LogFormat where
  | text
  | json
deriving DecidableEq

namespace LogFormat

def ofSetting (setting : String) : LogFormat :=
  if setting == "json" then json else text

end LogFormat

namespace LogRecord

/-- Pairs names with values; a name that is left over is a value without one. -/
def pairs : List String → List (String × LogValue)
  | [] => []
  | [value] => [("!BADKEY", .text value)]
  | name :: value :: rest => (name, .text value) :: pairs rest

def needsQuotes (char : Char) : Bool :=
  let code := char.toNat
  if code < 0x80 then code ≤ 0x20 || char == '"' || char == '='
  else code == 0xfffd || Text.isBlank char || !Text.isPrintable char

def wordForm (word : String) : String :=
  if word.isEmpty || word.toList.any needsQuotes then Text.quoted word else word

def escapedChar (char : Char) : String :=
  match char with
  | '"' => "\\\""
  | '\\' => "\\\\"
  | '\n' => "\\n"
  | '\r' => "\\r"
  | '\t' => "\\t"
  | _ =>
      let code := char.toNat
      if code < 0x20 || code == 0x2028 || code == 0x2029 then
        "\\u" ++ Text.hexDigits 4 code
      else
        char.toString

def jsonForm (text : String) : String :=
  "\"" ++ String.join (text.toList.map escapedChar) ++ "\""

private def wordOf : LogValue → String
  | .text body => wordForm body
  | .int value => toString value

private def jsonOf : LogValue → String
  | .text body => jsonForm body
  | .int value => toString value

def fields (time : String) (record : LogRecord) : List (String × LogValue) :=
  [("time", .text time), ("level", .text (LogLevel.name record.level)),
    ("msg", .text record.message)] ++ record.attributes

def line (format : LogFormat) (time : String) (record : LogRecord) : String :=
  let fields := record.fields time
  match format with
  | .text =>
      " ".intercalate (fields.map fun (name, value) =>
        wordForm name ++ "=" ++ wordOf value) ++ "\n"
  | .json =>
      "\x7b" ++ ",".intercalate
        (fields.map fun (name, value) => jsonForm name ++ ":" ++ jsonOf value) ++ "\x7d\n"

end LogRecord

structure Logger where
  level : LogLevel
  format : LogFormat
deriving DecidableEq

namespace Logger

def ofSettings (level format : String) : Logger :=
  ⟨.ofSetting level, .ofSetting format⟩

def accepts (logger : Logger) (record : LogRecord) : Bool :=
  logger.level ≤ record.level

def text (logger : Logger) (time : String) (records : List LogRecord) : String :=
  String.join ((records.filter logger.accepts).map (·.line logger.format time))

end Logger

end CostTape
