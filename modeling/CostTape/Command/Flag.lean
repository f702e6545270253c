import CostTape.Duration
import CostTape.Report.Format

/-! The flags of the command line. -/

namespace CostTape

structure Settings where
  logLevel : String
  logFormat : String
  format : String
  timeout : Duration
  help : Bool
deriving DecidableEq

def Settings.initial : Settings :=
  ⟨"info", "text", "text", ⟨0⟩, false⟩

inductive Flag where
  | logLevel
  | logFormat
  | format
  | timeout
  | help
deriving DecidableEq

inductive UsageFault where
  | unknownCommand (name : String) (similar : List String)
  | badSyntax (argument : String)
  | unknownFlag (name : String)
  /-- Letters after one dash, of which the first is no flag. -/
  | unknownLetter (letters : String)
  /-- A flag without the value that it needs, by its name or by letters. -/
  | missingValue (argument : String)
  | missingLetterValue (letters : String)
  | badDuration (value : String) (fault : Duration.ReadFault)
  | badTruth (value : String)
  | argumentCount (count : Nat)
  | unknownFormat (name : String)
deriving DecidableEq

namespace UsageFault

/-- The first byte of a text as a character between single quotes. -/
private def quotedLetter (letters : String) : String :=
  match letters.toUTF8.toList with
  | [] => "''"
  | byte :: _ => Text.quotedChar (Char.ofNat byte.toNat)

def message : UsageFault → String
  | unknownCommand name similar =>
      "unknown command " ++ Text.quoted name ++ " for \"exprgraph\"" ++
        if similar.isEmpty then ""
        else
          "\n\nDid you mean this?\n" ++
            String.join (similar.map fun other => "\t" ++ other ++ "\n")
  | badSyntax argument => "bad flag syntax: " ++ argument
  | unknownFlag name => "unknown flag: --" ++ name
  | unknownLetter letters =>
      "unknown shorthand flag: " ++ quotedLetter letters ++ " in -" ++ letters
  | missingValue argument => "flag needs an argument: " ++ argument
  | missingLetterValue letters =>
      "flag needs an argument: " ++ quotedLetter letters ++ " in -" ++ letters
  | badDuration value fault =>
      "invalid argument " ++ Text.quoted value ++ " for \"--timeout\" flag: " ++
        fault.message
  | badTruth value =>
      "invalid argument " ++ Text.quoted value ++
        " for \"-h, --help\" flag: strconv.ParseBool: parsing " ++ Text.quoted value ++
        ": invalid syntax"
  | argumentCount count => s!"accepts 1 arg(s), received {count}"
  | unknownFormat name => Format.unknownMessage name

end UsageFault

namespace Flag

def ofName? (name : String) : Option Flag :=
  match name with
  | "log-level" => some logLevel
  | "log-format" => some logFormat
  | "format" => some format
  | "timeout" => some timeout
  | "help" => some help
  | _ => none

def ofLetter? (letter : Char) : Option Flag :=
  match letter with
  | 'f' => some format
  | 'h' => some help
  | _ => none

def truth? (value : String) : Option Bool :=
  if ["1", "t", "T", "true", "TRUE", "True"].contains value then some true
  else if ["0", "f", "F", "false", "FALSE", "False"].contains value then some false
  else none

def assign (settings : Settings) (value : String) : Flag → Except UsageFault Settings
  | logLevel => .ok { settings with logLevel := value }
  | logFormat => .ok { settings with logFormat := value }
  | format => .ok { settings with format := value }
  | timeout =>
      match Duration.read value with
      | .ok duration => .ok { settings with timeout := duration }
      | .error fault => .error (.badDuration value fault)
  | help =>
      match truth? value with
      | some flag => .ok { settings with help := flag }
      | none => .error (.badTruth value)

end Flag

inductive Argument where
  | word (body : String)
  | endOfFlags
  | assigned (option : Flag) (value : String)
  /-- A flag whose value is the next argument; without one it has a fault. -/
  | awaiting (option : Flag) (fault : UsageFault)
deriving DecidableEq

namespace Argument

private def readName (argument : String) (name : List Char) :
    Except UsageFault Argument :=
  if name.head? == some '=' || name.head? == some '-' then
    .error (.badSyntax argument)
  else
    let label := String.ofList (name.takeWhile (· != '='))
    match Flag.ofName? label, name.dropWhile (· != '=') with
    | none, _ => .error (.unknownFlag label)
    | some flag, _ :: value => .ok (.assigned flag (String.ofList value))
    | some .help, [] => .ok (.assigned .help "true")
    | some flag, [] => .ok (.awaiting flag (.missingValue argument))

/-- Letters after one dash.  A letter that needs a value takes the rest for it,
and a rest with the name of a test flag is passed over. -/
private def readLetters : List Char → List (Except UsageFault Argument)
  | [] => []
  | letter :: rest =>
      let letters := String.ofList (letter :: rest)
      if "test.".toList.isPrefixOf (letter :: rest) then []
      else
        match Flag.ofLetter? letter, rest with
        | none, _ => [.error (.unknownLetter letters)]
        | some flag, '=' :: first :: value =>
            [.ok (.assigned flag (String.ofList (first :: value)))]
        | some .help, _ => .ok (.assigned .help "true") :: readLetters rest
        | some flag, [] => [.ok (.awaiting flag (.missingLetterValue letters))]
        | some flag, _ :: _ => [.ok (.assigned flag (String.ofList rest))]

/-- The parts of one argument: a single dash is a word, two end the flags. -/
def read (argument : String) : List (Except UsageFault Argument) :=
  match argument.toList with
  | ['-', '-'] => [.ok .endOfFlags]
  | '-' :: '-' :: name => [readName argument name]
  | '-' :: letter :: rest => readLetters (letter :: rest)
  | _ => [.ok (.word argument)]

end Argument

structure SettingsRead where
  settings : Settings
  words : List String := []
  /-- A flag that takes the next argument as its value. -/
  waiting : Option (Flag × UsageFault) := none
  /-- All further arguments are words. -/
  ended : Bool := false

namespace SettingsRead

def add (read : SettingsRead) : Except UsageFault Argument →
    Except UsageFault SettingsRead
  | .error fault => .error fault
  | .ok (.word body) => .ok { read with words := read.words ++ [body] }
  | .ok .endOfFlags => .ok { read with ended := true }
  | .ok (.assigned flag value) =>
      (flag.assign read.settings value).map fun settings => { read with settings }
  | .ok (.awaiting flag fault) => .ok { read with waiting := some (flag, fault) }

def addArgument (read : SettingsRead) (argument : String) :
    Except UsageFault SettingsRead :=
  if read.ended then
    .ok { read with words := read.words ++ [argument] }
  else
    match read.waiting with
    | some (flag, _) =>
        (flag.assign read.settings argument).map fun settings =>
          { read with settings, waiting := none }
    | none => (Argument.read argument).foldlM add read

end SettingsRead

def Settings.read (settings : Settings) (arguments : List String) :
    Except UsageFault (Settings × List String) := do
  let final ← arguments.foldlM SettingsRead.addArgument { settings }
  match final.waiting with
  | some (_, fault) => .error fault
  | none => .ok (final.settings, final.words)

end CostTape
