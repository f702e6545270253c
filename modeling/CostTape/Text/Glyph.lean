import CostTape.Text.Width

/-! What a terminal makes of a text: signs, control characters and escape
sequences. -/

namespace CostTape.Text

inductive Glyph where
  | letter (char : Char)
  | sign (first : Char) (marks : List Char) (width : Nat)
  | control (char : Char)
  | escape (sequence : List Char)

namespace Glyph

def width : Glyph → Nat
  | .letter _ => 1
  | .sign _ _ width => width
  | .control _ => 0
  | .escape _ => 0

def chars : Glyph → List Char
  | .letter char => [char]
  | .sign first marks _ => first :: marks
  | .control char => [char]
  | .escape sequence => sequence

end Glyph

structure GrowingSign where
  first : Char
  firstClass : SignClass
  marks : List Char
  width : Nat
  state : SignState

namespace GrowingSign

def start (char : Char) : GrowingSign :=
  let charClass := SignClass.ofChar char
  ⟨char, charClass, [], charWidth charClass char, SignState.start charClass⟩

/-- The columns of a sign with one more character.  A pictograph keeps its width
unless a variation is chosen; flags and syllables keep that of their first
letter. -/
def widthWith (sign : GrowingSign) (charClass : SignClass) (char : Char) : Nat :=
  match sign.firstClass with
  | .pictograph =>
      if char.toNat = 0xfe0e then 1
      else if char.toNat = 0xfe0f then 2
      else sign.width
  | .regional | .hangulLead => sign.width
  | _ => sign.width + charWidth charClass char

def add? (sign : GrowingSign) (char : Char) : Option GrowingSign :=
  let charClass := SignClass.ofChar char
  (sign.state.next? charClass).map fun state =>
    { sign with
      marks := sign.marks ++ [char]
      width := sign.widthWith charClass char
      state }

def glyph (sign : GrowingSign) : Glyph :=
  .sign sign.first sign.marks sign.width

end GrowingSign

/-- The parts of an escape sequence. -/
inductive EscapeState where
  | opened
  | selected
  | parameters
  | parametersEnd
  | payload (bell : Bool)

namespace EscapeState

def next? : EscapeState → Char → Option EscapeState
  | .opened, '[' => some .parameters
  | .opened, ']' => some (.payload true)
  | .opened, 'P' | .opened, 'X' | .opened, '^' | .opened, '_' => some (.payload false)
  | .opened, char | .selected, char =>
      if char.toNat ≤ 0x2f then some .selected else none
  | .parameters, char =>
      if char.toNat ≤ 0x2f then some .parametersEnd
      else if char.toNat ≤ 0x3f then some .parameters
      else none
  | .parametersEnd, char =>
      if char.toNat ≤ 0x2f then some .parametersEnd else none
  | .payload bell, char =>
      if bell = true ∧ char = '\x07' then none else some (.payload bell)

end EscapeState

inductive GlyphState where
  | ground
  | sign (growing : GrowingSign)
  | escape (state : EscapeState) (sequence : List Char)

namespace GlyphState

def close : GlyphState → List Glyph
  | .ground => []
  | .sign growing => [growing.glyph]
  | .escape _ [] => []
  | .escape _ sequence => [.escape sequence]

def isControl (char : Char) : Bool :=
  char.toNat < 0x20 || char = '\x7f'

def begin (char : Char) : List Glyph × GlyphState :=
  if char = '\x1b' then ([], .escape .opened [char])
  else if isControl char then ([.control char], .ground)
  else if char.toNat < 0x80 then ([.letter char], .ground)
  else ([], .sign (GrowingSign.start char))

def isPayload : EscapeState → Bool
  | .payload _ => true
  | _ => false

/-- One character.  A payload takes all that comes; other escape sequences end at
a character outside ASCII and let control characters through. -/
def step (state : GlyphState) (char : Char) : List Glyph × GlyphState :=
  match state with
  | .ground => begin char
  | .sign growing =>
      match growing.add? char with
      | some longer => ([], .sign longer)
      | none => (growing.glyph :: (begin char).1, (begin char).2)
  | .escape part sequence =>
      if char = '\x1b' ∨ char = '\x18' ∨ char = '\x1a' ∨
          (0x80 ≤ char.toNat ∧ !isPayload part) then
        (state.close ++ (begin char).1, (begin char).2)
      else if isControl char ∧ !isPayload part then
        (state.close ++ [.control char], .escape part [])
      else
        match part.next? char with
        | some next => ([], .escape next (sequence ++ [char]))
        | none => ([.escape (sequence ++ [char])], .ground)

def glyphs : GlyphState → List Char → List Glyph
  | state, [] => state.close
  | state, char :: rest =>
      let (found, next) := state.step char
      found ++ glyphs next rest

end GlyphState

def glyphs (text : List Char) : List Glyph :=
  GlyphState.ground.glyphs text

def width (text : List Char) : Nat :=
  ((glyphs text).map Glyph.width).foldl (· + ·) 0

/-- The glyphs that fit into some columns; escape sequences stay wherever they
are. -/
def fitting (columns : Nat) : List Glyph → List Glyph
  | [] => []
  | glyph :: rest =>
      match glyph with
      | .escape _ => glyph :: fitting columns rest
      | .control _ => glyph :: fitting columns rest
      | .letter _ | .sign _ _ _ =>
          if glyph.width ≤ columns then glyph :: fitting (columns - glyph.width) rest
          else rest.filter isEscape
where
  isEscape : Glyph → Bool
    | .escape _ => true
    | _ => false

def cut (columns : Nat) (text : List Char) : List Char :=
  if width text ≤ columns then text
  else (fitting columns (glyphs text)).flatMap Glyph.chars

end CostTape.Text
