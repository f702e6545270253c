import CostTape.Yaml.Value

/-! Characters of a YAML text with their places, and the scalars among them.  A scalar has
no tag: what it stands for is told by its quotes and its characters alone. -/

namespace CostTape

structure Spot where
  char : Char
  index : Nat
  line : Nat
  column : Nat
deriving DecidableEq

namespace Spot

def placeFrom (index line column : Nat) : List Char → List Spot
  | [] => []
  | char :: rest =>
      ⟨char, index, line, column⟩ ::
        if YamlValue.isBreak char then placeFrom (index + 1) (line + 1) 0 rest
        else placeFrom (index + 1) line (column + 1) rest

def place (chars : List Char) : List Spot :=
  placeFrom 0 0 0 chars

def isBlank (spot : Spot) : Bool :=
  YamlValue.isBlank spot.char

def isBreak (spot : Spot) : Bool :=
  YamlValue.isBreak spot.char

def endsWord : List Spot → Bool
  | [] => true
  | spot :: _ => spot.isBlank || spot.isBreak

def isDivider : List Spot → Bool
  | a :: b :: c :: rest =>
      a.column == 0 && (a.char == '-' || a.char == '.') && a.char == b.char &&
        b.char == c.char && endsWord rest
  | _ => false

inductive SkipMode where
  | blanks
  | comment
  | toComment
deriving DecidableEq

def commentFollows (spots : List Spot) : Bool :=
  (spots.dropWhile fun spot => spot.isBlank || spot.isBreak).head?.any (·.char == '#')

/-- Skips blanks, comments and line breaks, and says whether a line break was
among them.  Tabs are skipped within a line if `tabs` holds, and at the start of
a line within brackets or between two comments. -/
def skip (inBrackets : Bool) (mode : SkipMode) (tabs newLine : Bool) :
    List Spot → Bool × List Spot
  | [] => (newLine, [])
  | spot :: rest =>
      match mode with
      | .toComment =>
          skip inBrackets (if spot.char == '#' then .comment else .toComment) tabs
            newLine rest
      | .comment =>
          if !spot.isBreak then skip inBrackets .comment tabs newLine rest
          else if commentFollows rest then skip inBrackets .toComment inBrackets true rest
          else skip inBrackets .blanks inBrackets true rest
      | .blanks =>
          if spot.isBreak then skip inBrackets .blanks inBrackets true rest
          else if spot.char == ' ' || tabs && spot.char == '\t' then
            skip inBrackets .blanks tabs newLine rest
          else if spot.char == '#' then skip inBrackets .comment tabs newLine rest
          else (newLine, spot :: rest)

def skipLineComment (spots : List Spot) : List Spot :=
  match spots.dropWhile isBlank with
  | [] => spots
  | spot :: rest =>
      if spot.char == '#' then rest.dropWhile fun spot => !spot.isBreak else spots

end Spot

/-- The blanks and line breaks met inside of a scalar. -/
inductive ScalarGap where
  | none
  | blanks (chars : List Char)
  /-- Line breaks after the first, which may be escaped. -/
  | lines (first : Option Char) (more : List Char)
deriving DecidableEq

namespace ScalarGap

def isNone : ScalarGap → Bool
  | none => true
  | _ => false

def isLines : ScalarGap → Bool
  | lines _ _ => true
  | _ => false

def addBlank (char : Char) : ScalarGap → ScalarGap
  | none => blanks [char]
  | blanks chars => blanks (chars ++ [char])
  | lines first more => lines first more

def addBreak (char : Char) : ScalarGap → ScalarGap
  | none | blanks _ => lines (some char) []
  | lines first more => lines first (more ++ [char])

/-- Blanks stay within a line; one line break becomes a space, and of several
the first is dropped. -/
def chars : ScalarGap → List Char
  | none => []
  | blanks chars => chars
  | lines (some '\n') [] => [' ']
  | lines (some '\n') more => more
  | lines (some char) more => char :: more
  | lines .none more => more

end ScalarGap

namespace YamlValue

private def isFlowMark (char : Char) : Bool :=
  ",?[]\x7b\x7d".toList.contains char

def startsWord (inBrackets : Bool) : List Spot → Bool
  | [] => false
  | spot :: rest =>
      let follows := rest.head?.any fun next => !next.isBlank && !next.isBreak
      if spot.char == '-' then follows
      else if spot.char == '?' || spot.char == ':' then !inBrackets && follows
      else
        !(spot.isBlank || spot.isBreak ||
          ",[]\x7b\x7d#&*!|>'\"%@`".toList.contains spot.char)

/-- The characters of a word, whether a line break follows them, and the next
part.  A word goes on over lines that are indented to `least`, which tabs do not
do. -/
def wordChars (inBrackets : Bool) (least : Nat) (gap : ScalarGap) :
    List Spot → Option (List Char × Bool × List Spot)
  | [] => some ([], gap.isLines, [])
  | spot :: rest =>
      if spot.isBlank then
        if gap.isLines && spot.char == '\t' && spot.column < least then .none
        else wordChars inBrackets least (gap.addBlank spot.char) rest
      else if spot.isBreak then
        wordChars inBrackets least (gap.addBreak spot.char) rest
      else if !gap.isNone && (spot.char == '#' || Spot.isDivider (spot :: rest) ||
          !inBrackets && spot.column < least) then
        some ([], gap.isLines, spot :: rest)
      else if spot.char == ':' && Spot.endsWord rest ||
          inBrackets && isFlowMark spot.char then
        some ([], gap.isLines, spot :: rest)
      else
        (wordChars inBrackets least .none rest).map fun (chars, newLine, after) =>
          (gap.chars ++ spot.char :: chars, newLine, after)

def singleChars (gap : ScalarGap) : List Spot → Option (List Char × List Spot)
  | [] => none
  | spot :: rest =>
      if spot.isBlank then singleChars (gap.addBlank spot.char) rest
      else if spot.isBreak then singleChars (gap.addBreak spot.char) rest
      else if Spot.isDivider (spot :: rest) then none
      else if spot.char == '\'' then
        match rest with
        | next :: rest =>
            if next.char == '\'' then
              (singleChars .none rest).map fun (chars, after) =>
                (gap.chars ++ '\'' :: chars, after)
            else
              some (gap.chars, next :: rest)
        | [] => some (gap.chars, [])
      else
        (singleChars .none rest).map fun (chars, after) =>
          (gap.chars ++ spot.char :: chars, after)

inductive DoubleMode where
  | body (gap : ScalarGap)
  | escape
  | code (missing value : Nat)
deriving DecidableEq

def shortEscape? (char : Char) : Option Char :=
  match char with
  | '0' => some (Char.ofNat 0)
  | 'a' => some (Char.ofNat 0x07)
  | 'b' => some (Char.ofNat 0x08)
  | 't' | '\t' => some '\t'
  | 'n' => some '\n'
  | 'v' => some (Char.ofNat 0x0b)
  | 'f' => some (Char.ofNat 0x0c)
  | 'r' => some '\r'
  | 'e' => some (Char.ofNat 0x1b)
  | ' ' | '"' | '\'' | '\\' => some char
  | 'N' => some (Char.ofNat 0x85)
  | '_' => some (Char.ofNat 0xa0)
  | 'L' => some (Char.ofNat 0x2028)
  | 'P' => some (Char.ofNat 0x2029)
  | _ => none

def codeLength? (char : Char) : Option Nat :=
  match char with
  | 'x' => some 2
  | 'u' => some 4
  | 'U' => some 8
  | _ => none

def doubleChars : DoubleMode → List Spot → Option (List Char × List Spot)
  | _, [] => none
  | .body gap, spot :: rest =>
      if spot.isBlank then doubleChars (.body (gap.addBlank spot.char)) rest
      else if spot.isBreak then doubleChars (.body (gap.addBreak spot.char)) rest
      else if Spot.isDivider (spot :: rest) then none
      else if spot.char == '"' then some (gap.chars, rest)
      else if spot.char == '\\' then
        (doubleChars .escape rest).map fun (chars, after) => (gap.chars ++ chars, after)
      else
        (doubleChars (.body .none) rest).map fun (chars, after) =>
          (gap.chars ++ spot.char :: chars, after)
  | .escape, spot :: rest =>
      if spot.isBreak then doubleChars (.body (.lines none [])) rest
      else
        match shortEscape? spot.char, codeLength? spot.char with
        | some char, _ =>
            (doubleChars (.body .none) rest).map fun (chars, after) =>
              (char :: chars, after)
        | none, some digits => doubleChars (.code digits 0) rest
        | none, none => none
  | .code missing value, spot :: rest =>
      match YamlWord.natIn? 16 [spot.char] with
      | none => none
      | some digit =>
          if 1 < missing then doubleChars (.code (missing - 1) (16 * value + digit)) rest
          else if (16 * value + digit).isValidChar then
            (doubleChars (.body .none) rest).map fun (chars, after) =>
              (Char.ofNat (16 * value + digit) :: chars, after)
          else
            none

inductive LastBreaks where
  | none
  | one
  | all
deriving DecidableEq

structure BlockHeader where
  folded : Bool
  /-- The indentation relative to the surrounding block, if it is given. -/
  indentation : Option Nat
  lastBreaks : LastBreaks
deriving DecidableEq

namespace BlockHeader

def addMark (header : BlockHeader) (char : Char) : Option BlockHeader :=
  if char == '-' && header.lastBreaks == .one then
    some { header with lastBreaks := .none }
  else if char == '+' && header.lastBreaks == .one then
    some { header with lastBreaks := .all }
  else if '1' ≤ char && char ≤ '9' && header.indentation.isNone then
    some { header with indentation := some (Decimal.digitValue char) }
  else
    none

def read (folded : Bool) (spots : List Spot) : Option (BlockHeader × List Spot) := do
  let marks := spots.takeWhile fun spot =>
    !spot.isBlank && !spot.isBreak && spot.char != '#'
  let header ← marks.foldlM (fun header spot => header.addMark spot.char)
    (BlockHeader.mk folded none .one)
  let rest := (spots.drop marks.length).dropWhile Spot.isBlank
  match rest.head? with
  | none => pure (header, [])
  | some spot =>
      if spot.isBreak then pure (header, rest.drop 1)
      else if spot.char == '#' then
        pure (header, (rest.dropWhile fun spot => !spot.isBreak).drop 1)
      else none

end BlockHeader

/-- The indentation of a block whose header gives none: the deepest column
reached before its first character, but at least `least`. -/
def blockIndentation (least : Nat) : List Spot → Option Nat
  | [] => some least
  | spot :: rest =>
      if spot.char == ' ' then blockIndentation (max least (spot.column + 1)) rest
      else if spot.char == '\t' then none
      else if spot.isBreak then blockIndentation least rest
      else some (max least spot.column)

inductive BlockState where
  /-- At the start of a line, after the break of the last line with text, which
  began with a blank or not, and further breaks. -/
  | lineStart (last : List Char) (startedBlank : Bool) (breaks : List Char)
  | line (startedBlank : Bool)

def joined (folded : Bool) (last : List Char) (startedBlank : Bool)
    (breaks : List Char) (next : Spot) : List Char :=
  if folded && last == ['\n'] && !startedBlank && !next.isBlank then
    if breaks.isEmpty then [' '] else breaks
  else
    last ++ breaks

def blockChars (header : BlockHeader) (width : Nat) :
    BlockState → List Spot → Option (List Char × List Spot)
  | state, [] => some (ending state, [])
  | .line startedBlank, spot :: rest =>
      if spot.isBreak then
        blockChars header width (.lineStart [spot.char] startedBlank []) rest
      else
        (blockChars header width (.line startedBlank) rest).map fun (chars, after) =>
          (spot.char :: chars, after)
  | .lineStart last startedBlank breaks, spot :: rest =>
      if spot.char == ' ' && spot.column < width then
        blockChars header width (.lineStart last startedBlank breaks) rest
      else if spot.isBreak then
        blockChars header width (.lineStart last startedBlank (breaks ++ [spot.char]))
          rest
      else if spot.column < width then
        if spot.char == '\t' then none
        else some (ending (.lineStart last startedBlank breaks), spot :: rest)
      else
        (blockChars header width (.line spot.isBlank) rest).map fun (chars, after) =>
          (joined header.folded last startedBlank breaks spot ++ spot.char :: chars,
            after)
where
  ending : BlockState → List Char
    | .line _ => []
    | .lineStart last _ breaks =>
        match header.lastBreaks with
        | .none => []
        | .one => last
        | .all => last ++ breaks

/-- A block scalar after its first character; `least` is the first column
inside of the surrounding block, from which a given indentation counts. -/
def readBlockText (folded : Bool) (least : Nat) (spots : List Spot) :
    Option (YamlValue × List Spot) := do
  let (header, rest) ← BlockHeader.read folded spots
  let width ←
    match header.indentation with
    | some columns => pure (least - 1 + columns)
    | none => blockIndentation (max least 1) rest
  let (chars, rest) ← blockChars header width (.lineStart [] false []) rest
  pure (text (String.ofList chars), rest)

end YamlValue

end CostTape
