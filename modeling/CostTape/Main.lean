import CostTape.Command.Run
import Std.Time.Format

/-! The command line program. -/

namespace CostTape

def freshLabel : IO String := do
  let bytes := (← IO.getRandomBytes 16).toList.map UInt8.toNat
  let marked := bytes.mapIdx fun index byte =>
    if index = 6 then 0x40 + byte % 0x10
    else if index = 8 then 0x80 + byte % 0x40
    else byte
  let part := fun start count =>
    String.join (((marked.drop start).take count).map (Text.hexDigits 2))
  return "-".intercalate [part 0 4, part 4 2, part 6 2, part 8 2, part 10 6]

def timeText : IO String := do
  let now ← Std.Time.Timestamp.now
  return (Std.Time.DateTime.ofTimestamp now .UTC).toISO8601String

def readSource (path : String) : IO (Except SourceFault String) := do
  if path == "-" then
    return .ok (← (← IO.getStdin).readToEnd)
  try
    return .ok (← IO.FS.readFile path)
  catch
    | .inappropriateType .. => return .error .directory
    | .noFileOrDirectory .. => return .error .missing
    | fault => throw fault

def perform (arguments : List String) : IO CommandOutcome := do
  match Request.read arguments with
  | .error fault => return .failed (.usage fault)
  | .ok request =>
      let source ←
        match request.path? with
        | some path => readSource path
        | none => pure (.error .missing)
      return request.answer (← timeText) (← freshLabel) fun _ => source

end CostTape

def main (arguments : List String) : IO UInt32 := do
  let outcome ← CostTape.perform arguments
  (← IO.getStderr).putStr outcome.log
  (← IO.getStdout).putStr outcome.output
  match outcome.fault with
  | none => return 0
  | some fault =>
      (← IO.getStderr).putStr fault.notice
      return 1
