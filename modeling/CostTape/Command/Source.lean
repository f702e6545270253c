/-! Where the text of a program comes from. -/

namespace CostTape

inductive SourceFault where
  | missing
  | directory
  | notDirectory
  | longName
  | invalidName
deriving DecidableEq

def SourceFault.message (path : String) : SourceFault → String
  | .missing => "open " ++ path ++ ": no such file or directory"
  | .directory => "read " ++ path ++ ": is a directory"
  | .notDirectory => "open " ++ path ++ ": not a directory"
  | .longName => "open " ++ path ++ ": file name too long"
  | .invalidName => "open " ++ path ++ ": invalid argument"

structure Surroundings where
  input : String
  files : List (String × String)
deriving DecidableEq

/-- Where a path has led: a directory inside of that of the command, one that
many levels above it, or a file. -/
inductive PathPlace where
  | inside (steps : List String)
  | above (levels : Nat)
  | file (text : String)
deriving DecidableEq

namespace Surroundings

private def hasDirectory (surroundings : Surroundings) (steps : List String) : Bool :=
  surroundings.files.any fun (name, _) =>
    let parts := name.splitOn "/"
    steps.length < parts.length && steps.isPrefixOf parts

/-- One step of a path.  Of the directories above only the way up is known. -/
def step (surroundings : Surroundings) (place : PathPlace) (name : String) :
    Except SourceFault PathPlace :=
  match place with
  | .file _ => .error .notDirectory
  | .above levels =>
      if name == "" || name == "." then .ok place
      else if name == ".." then .ok (.above (levels + 1))
      else if 255 < name.utf8ByteSize then .error .longName
      else .error .missing
  | .inside steps =>
      if name == "" || name == "." then .ok place
      else if name == ".." then
        .ok (if steps.isEmpty then .above 1 else .inside steps.dropLast)
      else if 255 < name.utf8ByteSize then .error .longName
      else
        let longer := steps ++ [name]
        match surroundings.files.find? fun (other, _) => other.splitOn "/" == longer with
        | some (_, text) => .ok (.file text)
        | none =>
            if surroundings.hasDirectory longer then .ok (.inside longer)
            else .error .missing

/-- A single dash stands for the input. -/
def read (surroundings : Surroundings) (path : String) : Except SourceFault String :=
  if path == "-" then
    .ok surroundings.input
  else if path == "" then
    .error .missing
  else if path.toList.any (·.toNat == 0) then
    .error .invalidName
  else if 4096 ≤ path.utf8ByteSize then
    .error .longName
  else
    let start := if path.toList.head? == some '/' then PathPlace.above 1 else .inside []
    match (path.splitOn "/").foldlM surroundings.step start with
    | .ok (.file text) => .ok text
    | .ok _ => .error .directory
    | .error fault => .error fault

end Surroundings

end CostTape
