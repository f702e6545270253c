import CostTape.Text.Blank
import CostTape.Text.Lines
import CostTape.Text.Pen

/-! Breaking lines to a width. -/

namespace CostTape.Text

/-- The lines that a text needs, counted without drawing it: the breaks so far,
the columns that are taken, the bytes of the blanks after them, and the columns
of the word that follows. -/
structure BreakCount where
  breaks : Nat := 0
  column : Nat := 0
  blanks : Nat := 0
  word : Nat := 0
  inWord : Bool := false

namespace BreakCount

def addWord (count : BreakCount) : BreakCount :=
  if count.inWord then
    { count with
      column := count.column + count.blanks + count.word
      blanks := 0
      word := 0
      inWord := false }
  else
    count

def addBreak (count : BreakCount) : BreakCount :=
  { count with breaks := count.breaks + 1, column := 0, blanks := 0 }

def addBlank (bytes : Nat) (count : BreakCount) : BreakCount :=
  let ended := count.addWord
  { ended with blanks := ended.blanks + bytes }

def lengthen (columns : Nat) (count : BreakCount) : BreakCount :=
  { count with word := count.word + columns, inWord := true }

/-- The word moves to a new line if it does not fit on this one. -/
def settle (limit : Nat) (count : BreakCount) : BreakCount :=
  if limit < count.column + count.word + count.blanks then count.addBreak else count

/-- A character of one byte: blanks end a word, and so does a hyphen that fits;
control characters count for one column. -/
def addByte (limit : Nat) (count : BreakCount) (char : Char) : BreakCount :=
  if isBlank char then count.addBlank 1
  else if char = '-' then
    let opened := { count with column := count.column + count.blanks, blanks := 0 }
    if limit ≤ opened.column + opened.word then opened.lengthen 1
    else
      let ended := opened.addWord
      { ended with column := ended.column + 1 }
  else
    let fresh := if count.column = limit then count.addBreak else count
    let longer := fresh.lengthen 1
    (if longer.word = limit then longer.addWord else longer).settle limit

def add (limit : Nat) (count : BreakCount) : Glyph → BreakCount
  | .letter char => count.addByte limit char
  | .control char => count.addByte limit char
  | .escape _ => count.lengthen 0
  | .sign first _ width =>
      if isBlank first ∧ first.toNat ≠ 0xa0 then count.addBlank first.utf8Size
      else
        ((if limit < count.word + width then count.addWord else count).lengthen
          width).settle limit

end BreakCount

def wrappedHeight (limit : Nat) (line : List Char) : Nat :=
  ((glyphs line).foldl (BreakCount.add limit) {}).breaks + 1

/-- A text that is being drawn: what is written, the columns of its last line,
the blanks and the word after it with its columns, and the pen before and after
that word. -/
structure Wrapping where
  written : List Char := []
  column : Nat := 0
  blanks : List Char := []
  word : List Char := []
  wordWidth : Nat := 0
  pen : Pen := {}
  nextPen : Pen := {}

namespace Wrapping

def addBlanks (wrapping : Wrapping) : Wrapping :=
  { wrapping with
    written := wrapping.written ++ wrapping.blanks
    column := wrapping.column + wrapping.blanks.length
    blanks := [] }

def addWord (wrapping : Wrapping) : Wrapping :=
  if wrapping.word.isEmpty then wrapping
  else
    let opened := wrapping.addBlanks
    { opened with
      written := opened.written ++ opened.word
      column := opened.column + opened.wordWidth
      word := []
      wordWidth := 0
      pen := opened.nextPen }

/-- Starts a new line and drops the blanks before it; the pen is put down and
taken up around the break. -/
def addBreak (wrapping : Wrapping) : Wrapping :=
  { wrapping with
    written := wrapping.written ++ wrapping.pen.closing.toList ++
      '\n' :: wrapping.pen.opening.toList
    column := 0
    blanks := [] }

def endLine (limit : Nat) (wrapping : Wrapping) : Wrapping :=
  let ended :=
    if wrapping.wordWidth = 0 then
      if limit < wrapping.column + wrapping.blanks.length then
        { wrapping with column := 0, blanks := [] }
      else
        { wrapping with written := wrapping.written ++ wrapping.blanks, blanks := [] }
    else
      wrapping
  ended.addWord

def lengthen (limit columns : Nat) (chars : List Char) (wrapping : Wrapping) : Wrapping :=
  let ended := if limit < wrapping.wordWidth + columns then wrapping.addWord else wrapping
  let longer :=
    { ended with word := ended.word ++ chars, wordWidth := ended.wordWidth + columns }
  if limit < longer.column + longer.wordWidth + longer.blanks.length then longer.addBreak
  else longer

/-- What takes no column goes with the word. -/
def addHidden (chars : List Char) (wrapping : Wrapping) : Wrapping :=
  { wrapping with word := wrapping.word ++ chars }

def addLetter (limit : Nat) (wrapping : Wrapping) (char : Char) : Wrapping :=
  if char = ' ' ∧ wrapping.nextPen.hidesSpaces then
    let ended := wrapping.addWord
    { ended with blanks := ended.blanks ++ [char] }
  else if char = '-' then
    let opened := wrapping.addBlanks
    if opened.column + opened.wordWidth + 1 ≤ limit then
      let ended := opened.addWord
      { ended with written := ended.written ++ [char], column := ended.column + 1 }
    else
      opened.lengthen limit 1 [char]
  else
    wrapping.lengthen limit 1 [char]

def add (limit : Nat) (wrapping : Wrapping) : Glyph → Wrapping
  | .letter char => wrapping.addLetter limit char
  | .sign first marks 0 => wrapping.addHidden (first :: marks)
  | .sign first marks width => wrapping.lengthen limit width (first :: marks)
  | .control '\n' => (wrapping.endLine limit).addBreak
  | .control char => wrapping.addHidden [char]
  | .escape sequence =>
      { wrapping.addHidden sequence with nextPen := wrapping.nextPen.after sequence }

def finish (limit : Nat) (wrapping : Wrapping) : List Char :=
  let ended := wrapping.endLine limit
  ended.written ++ ended.pen.ending.toList

end Wrapping

/-- Breaks a text into lines that, but for blanks, are no wider than a limit. -/
def wrap (limit : Nat) (text : List Char) : List (List Char) :=
  splitLines (((glyphs text).foldl (Wrapping.add limit) {}).finish limit)

end CostTape.Text
