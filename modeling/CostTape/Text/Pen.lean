import CostTape.Text.Glyph

/-! The look and the link that escape sequences give to the text after them. -/

namespace CostTape.Text

inductive Colour where
  | basic (index : Nat)
  | indexed (index : Nat)
  | direct (red green blue : Nat)
deriving DecidableEq

namespace Colour

/-- The codes that choose a colour; `base` is 30 for the text, 40 for its ground
and 50 for its underline. -/
def codes (base : Nat) : Colour → List Nat
  | .basic index => if index < 8 then [base + index] else [base + 60 + (index - 8)]
  | .indexed index => [base + 8, 5, index]
  | .direct red green blue => [base + 8, 2, red, green, blue]

end Colour

structure PenCode where
  value : Nat
  continued : Bool

structure Pen where
  /-- The codes of the attributes that are on. -/
  attributes : List Nat := []
  underline : Nat := 0
  text : Option Colour := none
  ground : Option Colour := none
  line : Option Colour := none
  /-- The parameters and the address of the link. -/
  link : String × String := ("", "")

namespace Pen

def attributeCodes : List Nat := [1, 2, 3, 5, 6, 7, 8, 9]

def isStyled (pen : Pen) : Bool :=
  !pen.attributes.isEmpty || pen.underline != 0 || pen.text.isSome || pen.ground.isSome ||
    pen.line.isSome

def isLinked (pen : Pen) : Bool :=
  pen.link != ("", "")

def hidesSpaces (pen : Pen) : Bool :=
  !pen.attributes.contains 7 && pen.ground.isNone && pen.underline == 0

/-- Plain text with the same link. -/
def plain (pen : Pen) : Pen :=
  { link := pen.link }

def without (codes : List Nat) (pen : Pen) : Pen :=
  { pen with attributes := pen.attributes.filter fun code => !codes.contains code }

def codes (pen : Pen) : List (List Nat) :=
  (attributeCodes.filter pen.attributes.contains).map (fun code => [code]) ++
    (match pen.underline with
      | 0 => []
      | 1 => [[4]]
      | style => [[4, style]]) ++
    (pen.text.toList.map (Colour.codes 30)) ++
    (pen.ground.toList.map (Colour.codes 40)) ++
    (pen.line.toList.map (Colour.codes 50))

private def codeText (codes : List Nat) : String :=
  let mark := if codes.head? = some 4 then ":" else ";"
  mark.intercalate (codes.map toString)

def closing (pen : Pen) : String :=
  (if pen.isStyled then "\x1b[m" else "") ++ (if pen.isLinked then "\x1b]8;;\x07" else "")

def opening (pen : Pen) : String :=
  (if pen.isLinked then "\x1b]8;" ++ pen.link.1 ++ ";" ++ pen.link.2 ++ "\x07" else "") ++
    (if pen.isStyled then "\x1b[" ++ ";".intercalate (pen.codes.map codeText) ++ "m"
      else "")

/-- The end of a text closes the link first. -/
def ending (pen : Pen) : String :=
  (if pen.isLinked then "\x1b]8;;\x07" else "") ++ (if pen.isStyled then "\x1b[m" else "")

def colour? : List PenCode → Option (Colour × List PenCode)
  | kind :: index :: rest =>
      if kind.value = 5 then some (.indexed (index.value % 256), rest)
      else if kind.value = 2 then
        match rest with
        | green :: blue :: rest =>
            some (.direct (index.value % 256) (green.value % 256) (blue.value % 256),
              rest)
        | _ => none
      else none
  | _ => none

def applied (code : Nat) (pen : Pen) : Pen :=
  if code = 0 then pen.plain
  else if code = 4 then { pen with underline := 1 }
  else if attributeCodes.contains code then
    { pen with attributes := code :: pen.attributes }
  else if code = 22 then pen.without [1, 2]
  else if code = 24 then { pen with underline := 0 }
  else if code = 25 then pen.without [5, 6]
  else if code = 23 ∨ code = 27 ∨ code = 28 ∨ code = 29 then pen.without [code - 20]
  else if 30 ≤ code ∧ code ≤ 37 then { pen with text := some (.basic (code - 30)) }
  else if code = 39 then { pen with text := none }
  else if 40 ≤ code ∧ code ≤ 47 then { pen with ground := some (.basic (code - 40)) }
  else if code = 49 then { pen with ground := none }
  else if code = 59 then { pen with line := none }
  else if 90 ≤ code ∧ code ≤ 97 then { pen with text := some (.basic (code - 82)) }
  else if 100 ≤ code ∧ code ≤ 107 then { pen with ground := some (.basic (code - 92)) }
  else pen

/-- All codes of one sequence; each step takes at least one of them. -/
def appliedAll : Nat → List PenCode → Pen → Pen
  | 0, _, pen => pen
  | _ + 1, [], pen => pen
  | steps + 1, code :: rest, pen =>
      if code.value = 38 ∨ code.value = 48 ∨ code.value = 58 then
        match colour? rest with
        | none => appliedAll steps rest pen
        | some (colour, rest) =>
            appliedAll steps rest
              (if code.value = 38 then { pen with text := some colour }
              else if code.value = 48 then { pen with ground := some colour }
              else { pen with line := some colour })
      else if code.value = 4 ∧ code.continued then
        match rest with
        | style :: rest =>
            if style.value ≤ 5 then
              appliedAll steps rest { pen with underline := style.value }
            else appliedAll steps (style :: rest) pen
        | [] => pen
      else appliedAll steps rest (pen.applied code.value)

def readCodes (value : Nat) : List Char → Option (List PenCode)
  | [] => some [⟨value, false⟩]
  | char :: rest =>
      if char.isDigit then readCodes (value * 10 + (char.toNat - 48)) rest
      else if char = ';' then (readCodes 0 rest).map (⟨value, false⟩ :: ·)
      else if char = ':' then (readCodes 0 rest).map (⟨value, true⟩ :: ·)
      else none

def readLink (payload : List Char) : Option (String × String) :=
  match (String.ofList payload).splitOn ";" with
  | ["8", parameters, address] => some (parameters, address)
  | _ => none

private def withoutTerminator (payload : List Char) : List Char :=
  payload.takeWhile fun char => char ≠ '\x07'

def after (pen : Pen) : List Char → Pen
  | '\x1b' :: '[' :: body =>
      if body = ['m'] then pen.plain
      else if body.getLast? = some 'm' then
        match readCodes 0 body.dropLast with
        | some codes => appliedAll codes.length codes pen
        | none => pen
      else pen
  | '\x1b' :: ']' :: payload =>
      match readLink (withoutTerminator payload) with
      | some link => { pen with link }
      | none => pen
  | _ => pen

end Pen

end CostTape.Text
