import CostTape.Script.Token

/-! Programs: the data that the text of a script spells. -/

namespace CostTape.Script

namespace Program

/-- What is still open: a bracket with what it holds so far, last first, or a
word that waits for its datum. -/
inductive Open where
  | bracket (kind : Bracket) (items : List Datum)
  | before (word : String)

/-- What has been read: what is open, from the inside out, and the complete data
at the top, last first. -/
structure Reading where
  opened : List Open
  finished : List Datum

def Reading.empty : Reading :=
  ⟨[], []⟩

def addTo (finished : List Datum) : List Open → Datum → Reading
  | [], datum => ⟨[], datum :: finished⟩
  | .bracket kind items :: outer, datum =>
      ⟨.bracket kind (datum :: items) :: outer, finished⟩
  | .before word :: outer, datum => addTo finished outer (.list (.named word) [datum])

def Reading.add (reading : Reading) (datum : Datum) : Reading :=
  addTo reading.finished reading.opened datum

def enclosed (kind : Bracket) (items : List Datum) : Datum :=
  match kind with
  | .round => .ofList items
  | .square => .array items
  | .curly => .list (.named "infix") [.array items]

/-- Takes one token.  Commas vanish in arrays; a closing bracket must match the
innermost open one. -/
def Reading.take (reading : Reading) : Token → Except ReadProblem Reading
  | .atom datum => .ok (reading.add datum)
  | .opening kind => .ok { reading with opened := .bracket kind [] :: reading.opened }
  | .before word => .ok { reading with opened := .before word :: reading.opened }
  | .comma =>
      match reading.opened with
      | .bracket .square _ :: _ => .ok reading
      | _ => .ok (reading.add (.literal .comma))
  | .closing kind =>
      match reading.opened with
      | .bracket inner items :: outer =>
          if inner = kind then
            .ok (addTo reading.finished outer (enclosed kind items.reverse))
          else
            .error (.strayClosing kind)
      | _ => .error (.strayClosing kind)

def Reading.isInside (reading : Reading) : Bool :=
  reading.opened.any fun
    | .bracket _ _ => true
    | .before _ => false

def Reading.takeAll (line : Nat) : Reading → List Token → Except ReadFault Reading
  | reading, [] => .ok reading
  | reading, token :: tokens =>
      match reading.take token with
      | .ok next => next.takeAll line tokens
      | .error problem => .error ⟨line, problem⟩

/-- Reads on from a point.  What is unfinished at the end is dropped, unless a
bracket, a text between backticks or a block comment is open. -/
def readFrom : Scan.State → Reading → List Char → Except ReadFault (List Datum)
  | state, reading, [] =>
      if reading.isInside || state.mode.isOpen then .error ⟨state.line, .needsMoreInput⟩
      else .ok reading.finished.reverse
  | state, reading, char :: rest =>
      match Scan.step state char with
      | .error fault => .error fault
      | .ok (tokens, next) =>
          match reading.takeAll next.line tokens with
          | .error fault => .error fault
          | .ok reading => readFrom next reading rest

def read (source : String) : Except ReadFault (List Datum) :=
  readFrom Scan.start .empty source.toList

end Program

end CostTape.Script
