import CostTape.Command.Flag

/-! What a command line asks for. -/

namespace CostTape

inductive Command where
  | record
  | check
deriving DecidableEq

inductive Request where
  | help
  | run (command : Command) (settings : Settings) (format : Format) (path : String)
deriving DecidableEq

namespace Request

def path? : Request → Option String
  | help => none
  | run _ _ _ path => some path

private def startsWithDash (argument : String) : Bool :=
  argument.toList.head? == some '-'

/-- An argument that takes the next one as its value, as far as can be told
without knowing the flags. -/
def takesNext (argument : String) : Bool :=
  let chars := argument.toList
  !chars.contains '=' &&
    (['-', '-'].isPrefixOf chars || startsWithDash argument && argument.utf8ByteSize == 2)

/-- The first word of a command line.  An argument that would take the last one
as its value ends the search. -/
def firstWord? (skipping : Bool) : List String → Option String
  | [] => none
  | argument :: rest =>
      if skipping then firstWord? false rest
      else if argument == "--" then none
      else if takesNext argument then
        if rest.length ≤ 1 then none else firstWord? true rest
      else if argument != "" && !startsWithDash argument then some argument
      else firstWord? false rest

def withoutWord (word : String) (skipping : Bool) : List String → List String
  | [] => []
  | argument :: rest =>
      if skipping then argument :: withoutWord word false rest
      else if argument == "--" then argument :: rest
      else if takesNext argument then argument :: withoutWord word true rest
      else if argument == word then rest
      else argument :: withoutWord word false rest

private def distanceRow [BEq α] (item : α) (diagonal left : Nat) :
    List α → List Nat → List Nat
  | other :: others, above :: row =>
      let distance :=
        if item == other then diagonal else min (min left above) diagonal + 1
      distance :: distanceRow item above distance others row
  | _, _ => []

/-- The least number of insertions, deletions and replacements that turn one
list into another. -/
def editDistance [BEq α] (first second : List α) : Nat :=
  let start := List.range (second.length + 1)
  let final := first.foldl (fun row item =>
    match row with
    | [] => []
    | corner :: above =>
        (corner + 1) :: distanceRow item corner (corner + 1) second above) start
  final.getLast?.getD 0

def similarNames (word : String) : List String :=
  let lower := word.map Text.lowerChar
  ["record", "check", "completion"].filter fun name =>
    editDistance lower.toUTF8.toList name.toUTF8.toList ≤ 2 ||
      lower.toList.isPrefixOf name.toList

private def runOf (command : Command) (arguments : List String) :
    Except UsageFault Request := do
  let (settings, words) ← Settings.initial.read arguments
  if settings.help then
    return .help
  match words with
  | [path] =>
      match Format.ofName? settings.format with
      | some format => pure (.run command settings format path)
      | none => throw (.unknownFormat settings.format)
  | _ => throw (.argumentCount words.length)

/-- Reads a command line.  Its first word names the command, flags may stand
anywhere, and the number of arguments is checked before the format. -/
def read (arguments : List String) : Except UsageFault Request :=
  match firstWord? false arguments with
  | none => (Settings.initial.read arguments).map fun _ => .help
  | some word =>
      match word with
      | "record" => runOf .record (withoutWord word false arguments)
      | "check" => runOf .check (withoutWord word false arguments)
      | "help" | "completion" => .ok .help
      | _ => .error (.unknownCommand word (similarNames word))

end Request

end CostTape
