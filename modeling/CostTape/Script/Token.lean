import CostTape.Decimal.Reading
import CostTape.Script.Datum

/-! Tokens of a script, each with the line that the scan had reached when the
token was complete. -/

namespace CostTape.Script

inductive Bracket where
  | round
  | square
  | curly
deriving DecidableEq

inductive Token where
  | opening (bracket : Bracket)
  | closing (bracket : Bracket)
  | comma
  /-- The word stands before the datum that follows, in a list of the two. -/
  | before (word : String)
  | atom (datum : Datum)

inductive ReadProblem where
  | invalidEscape
  | unexpected (what : String)
  | intOutOfRange (digits : String)
  | wordOutOfRange (digits : String)
  | wordSyntax (digits : String)
  | floatOutOfRange (digits : String)
  | floatSyntax (digits : String)
  | unrecognizedAtom (atom : String)
  | strayClosing (bracket : Bracket)
  | needsMoreInput
deriving DecidableEq

namespace ReadProblem

private def parsing (function digits problem : String) : String :=
  "strconv." ++ function ++ ": parsing " ++ Text.quoted digits ++ ": " ++ problem

def message : ReadProblem → String
  | invalidEscape => "invalid escape sequence"
  | unexpected what => "Unexpected " ++ what
  | intOutOfRange digits => parsing "ParseInt" digits "value out of range"
  | wordOutOfRange digits => parsing "ParseUint" digits "value out of range"
  | wordSyntax digits => parsing "ParseUint" digits "invalid syntax"
  | floatOutOfRange digits => parsing "ParseFloat" digits "value out of range"
  | floatSyntax digits => parsing "ParseFloat" digits "invalid syntax"
  | unrecognizedAtom atom => "Unrecognized atom: '" ++ atom ++ "'"
  | strayClosing .round => "Invalid syntax, don't know what to do with 2 ')'"
  | strayClosing .square => "Invalid syntax, don't know what to do with 4 ']'"
  | strayClosing .curly => "Invalid syntax, don't know what to do with 6 '\x7d'"
  | needsMoreInput => "parser needs more input"

end ReadProblem

structure ReadFault where
  line : Nat
  problem : ReadProblem
deriving DecidableEq

def ReadFault.message (fault : ReadFault) : String :=
  s!"Error on line {fault.line}: " ++ fault.problem.message ++ "\n"

/-- The character that a letter after a backslash stands for. -/
def escaped? (char : Char) : Option Char :=
  match char with
  | 'n' => some '\n'
  | 'r' => some '\r'
  | 't' => some '\t'
  | 'a' => some (Char.ofNat 7)
  | '\\' | '"' | '\'' | '#' => some char
  | _ => none

namespace Atom

private def digitsValue? (base : Nat) (digits : List Char) : Option Nat :=
  if digits.isEmpty then none
  else digits.foldlM (fun value char =>
    (Decimal.hexValue? char).bind fun digit =>
      if digit < base then some (base * value + digit) else none) 0

private def boundedInt (digits : List Char) (value : Int) : Except ReadProblem Datum :=
  if -0x8000000000000000 ≤ value ∧ value < 0x8000000000000000 then
    .ok (.literal (.int (Int64.ofInt value)))
  else
    .error (.intOutOfRange (String.ofList digits))

/-- The value of an integer in decimal, with an optional minus, or in a base
given by `0x`, `0o` or `0b`. -/
private def int? (chars : List Char) : Option (Except ReadProblem Datum) :=
  let based (base : Nat) (digits : List Char) :=
    (digitsValue? base digits).map fun value => boundedInt digits value
  match chars with
  | '0' :: 'x' :: digits => based 16 digits
  | '0' :: 'o' :: digits => based 8 digits
  | '0' :: 'b' :: digits => based 2 digits
  | '-' :: digits =>
      (digitsValue? 10 digits).map fun value => boundedInt chars (-(value : Int))
  | digits => (digitsValue? 10 digits).map fun value => boundedInt chars value

private def wordDigits? (chars : List Char) : Option (Nat × List Char) :=
  match chars.reverse with
  | 'L' :: 'L' :: 'U' :: reversed =>
      let (base, digits) :=
        match reversed.reverse with
        | '0' :: 'x' :: digits => (16, digits)
        | '0' :: 'o' :: digits => (8, digits)
        | digits => (10, digits)
      if !digits.isEmpty && digits.all Decimal.isHexDigit then some (base, digits)
      else none
  | _ => none

private def word? (chars : List Char) : Option (Except ReadProblem Datum) :=
  (wordDigits? chars).map fun (base, digits) =>
    match digitsValue? base digits with
    | none => .error (.wordSyntax (String.ofList digits))
    | some value =>
        if value < UInt64.size then .ok (.literal (.word (UInt64.ofNat value)))
        else .error (.wordOutOfRange (String.ofList digits))

def isIntLike (chars : List Char) : Bool :=
  let body := if chars.head? == some '-' then chars.drop 1 else chars
  !body.isEmpty && body.all Decimal.isDigit

/-- What counts as a float: digits with a point, or anything that ends in a
point and digits or in a digit with an exponent. -/
def isFloatLike (chars : List Char) : Bool :=
  let body := if chars.head? == some '-' then chars.drop 1 else chars
  let whole := body.takeWhile Decimal.isDigit
  let pointed :=
    match body.dropWhile Decimal.isDigit with
    | '.' :: fraction => !whole.isEmpty && fraction.all Decimal.isDigit
    | _ => false
  let reversed := chars.reverse
  let last := reversed.takeWhile Decimal.isDigit
  let stem := reversed.dropWhile Decimal.isDigit
  let stem :=
    match stem with
    | '-' :: rest | '+' :: rest =>
        if rest.head?.any ("eE".toList.contains ·) then rest else stem
    | _ => stem
  let ended :=
    !last.isEmpty &&
      match stem with
      | '.' :: _ => true
      | mark :: '.' :: digit :: _ => "eE".toList.contains mark && Decimal.isDigit digit
      | mark :: digit :: _ => "eE".toList.contains mark && Decimal.isDigit digit
      | _ => false
  pointed || ended

private def float? (chars : List Char) : Option (Except ReadProblem Datum) :=
  let text := String.ofList chars
  if isFloatLike chars then
    match Decimal.read? text with
    | none => some (.error (.floatSyntax text))
    | some value =>
        if value.isInf then some (.error (.floatOutOfRange text))
        else some (.ok (.literal (.float value (chars.any ("eE".toList.contains ·)))))
  else
    none

private def isForeign (char : Char) : Bool :=
  "'#:;\\~@[]\x7b\x7d^|\"()%,&*-".toList.contains char

private def isSigil (char : Char) : Bool :=
  "#$?".toList.contains char

private def isPiece : List Char → Bool
  | [] => false
  | first :: rest =>
      (first == '*' || first == '-' || first == '&' || !isForeign first) &&
        !Decimal.isDigit first && first != '.' &&
        rest.all fun char =>
          char == '&' || (!isForeign char && char != '.' && char != '+')

/-- A point, or pieces with points between them and perhaps one before them. -/
private def isPath (chars : List Char) : Bool :=
  chars == ['.'] ||
    match chars.splitOn '.' with
    | [] :: first :: rest => isPiece first && rest.all isPiece
    | first :: second :: rest => isPiece first && isPiece second && rest.all isPiece
    | _ => false

private def isName (chars : List Char) : Bool :=
  let body := if chars.head?.any isSigil then chars.drop 1 else chars
  match body with
  | [] => false
  | first :: rest =>
      (first == '\'' || first == '*' || first == '-' || !isForeign first) &&
        !isSigil first && !Decimal.isDigit first &&
        rest.all fun char => !isForeign char

/-- The character between single quotes, by its first byte. -/
private def char? : List Char → Option (Except ReadProblem Datum)
  | ['\'', char, '\''] => some (ofChar char)
  | ['\'', '\\', char, '\''] =>
      match escaped? char with
      | some char => some (ofChar char)
      | none => some (.error .invalidEscape)
  | _ => none
where
  ofChar (char : Char) : Except ReadProblem Datum :=
    let byte := (char.toString.toUTF8.toList.head?.map (·.toNat)).getD 0
    .ok (.literal (.char (Int32.ofNat byte)))

/-- The datum that an atom spells: a truth value, a number, a symbol or a
character.  A colon at its end is left out, and makes a symbol stand for
itself, as a sigil or points do. -/
def read (chars : List Char) : Except ReadProblem Datum :=
  let colon := chars.getLast? == some ':' && 1 < chars.length
  let chars := if colon then chars.dropLast else chars
  let text := String.ofList chars
  if text == "true" then .ok (.literal (.bool true))
  else if text == "false" then .ok (.literal (.bool false))
  else if text == "&" then .ok (.symbol text false)
  else
    match ((word? chars).orElse fun _ => int? chars).orElse fun _ => float? chars with
    | some result => result
    | none =>
        if text == "NaN" || text == "nan" then .ok (.literal (.float (0.0 / 0.0) false))
        else if isPath chars then .ok (.symbol text true)
        else if text == ":" then .ok (.symbol text colon)
        else if isName chars then
          .ok (.symbol text (colon || chars.head?.any isSigil))
        else
          (char? chars).getD (.error (.unrecognizedAtom text))

def awaitsExponent : List Char → Bool
  | mark :: stem =>
      "eE".toList.contains mark && (isIntLike stem.reverse || isFloatLike stem.reverse)
  | [] => false

end Atom

namespace Scan

/-- Where a scan stands.  Collected characters are kept last first. -/
inductive Mode where
  | normal (atom : List Char)
  | slash (atom : List Char)
  | colon (atom : List Char)
  | operator (first : Char)
  | tilde
  | text (chars : List Char)
  | escape (chars : List Char)
  | char (chars : List Char)
  | charEscape (chars : List Char)
  | raw (chars : List Char)
  | lineComment
  | blockComment
  | blockStar
deriving DecidableEq

def Mode.isOpen : Mode → Bool
  | raw _ | blockComment | blockStar => true
  | _ => false

structure State where
  mode : Mode
  line : Nat
deriving DecidableEq

def start : State :=
  ⟨.normal [], 1⟩

abbrev Step := Except ReadFault (List Token × State)

private def finishAtom (line : Nat) : List Char → Except ReadFault (List Token)
  | [] => .ok []
  | atom =>
      match Atom.read atom.reverse with
      | .ok datum => .ok [.atom datum]
      | .error problem => .error ⟨line, problem⟩

private def symbolToken (name : String) : Token :=
  .atom (.named name)

def isOperatorChar (char : Char) : Bool :=
  "+-*<>=!".toList.contains char

def pairOperators : List String :=
  ["++", "--", "+=", "-=", "==", "<=", ">=", "!=", ":=", "->", "<-", "*=", "/=",
    "**", "<!"]

def normalStep (line : Nat) (atom : List Char) (char : Char) : Step :=
  let finish (token : List Token) (state : State) : Step :=
    (finishAtom state.line atom).map fun tokens => (tokens ++ token, state)
  let alone (what : String) (tokens : List Token) (mode : Mode) : Step :=
    if atom.isEmpty then .ok (tokens, ⟨mode, line⟩) else .error ⟨line, .unexpected what⟩
  match char with
  | '(' => finish [.opening .round] ⟨.normal [], line⟩
  | ')' => finish [.closing .round] ⟨.normal [], line⟩
  | '[' => finish [.opening .square] ⟨.normal [], line⟩
  | ']' => finish [.closing .square] ⟨.normal [], line⟩
  | '\x7b' => finish [.opening .curly] ⟨.normal [], line⟩
  | '\x7d' => finish [.closing .curly] ⟨.normal [], line⟩
  | ',' => finish [.comma] ⟨.normal [], line⟩
  | '\n' => finish [] ⟨.normal [], line + 1⟩
  | ' ' | '\t' | '\r' => finish [] ⟨.normal [], line⟩
  | '/' => .ok ([], ⟨.slash atom, line⟩)
  | ':' => .ok ([], ⟨.colon atom, line⟩)
  | '"' => alone "quote" [] (.text [])
  | '`' => alone "backtick" [] (.raw [])
  | '\'' => alone "single quote" [] (.char ['\''])
  | '%' => alone "% quote" [.before "quote"] (.normal [])
  | '^' => alone "^ caret" [.before "syntaxQuote"] (.normal [])
  | '~' => alone "tilde" [] .tilde
  | _ =>
      if isOperatorChar char then
        if (char == '+' || char == '-') && Atom.awaitsExponent atom then
          .ok ([], ⟨.normal (char :: atom), line⟩)
        else
          finish [] ⟨.operator char, line⟩
      else
        .ok ([], ⟨.normal (char :: atom), line⟩)

def operatorStep (line : Nat) (first char : Char) : Step :=
  let pair := String.ofList [first, char]
  if first = '-' ∧ Decimal.isDigit char then
    .ok ([], ⟨.normal [char, '-'], line⟩)
  else if pairOperators.contains pair then
    .ok ([symbolToken pair], ⟨.normal [], line⟩)
  else
    (normalStep line [] char).map fun (tokens, state) =>
      (symbolToken first.toString :: tokens, state)

def step (state : State) (char : Char) : Step :=
  let line := state.line
  match state.mode with
  | .normal atom => normalStep line atom char
  | .slash atom =>
      if char = '/' then
        (finishAtom line atom).map fun tokens => (tokens, ⟨.lineComment, line⟩)
      else if char = '*' then
        (finishAtom line atom).map fun tokens => (tokens, ⟨.blockComment, line⟩)
      else do
        let before ← finishAtom line atom
        let (tokens, state) ← operatorStep line '/' char
        pure (before ++ tokens, state)
  | .colon atom =>
      if char = '=' then
        (finishAtom line atom).map fun tokens =>
          (tokens ++ [symbolToken ":="], ⟨.normal [], line⟩)
      else do
        let before ← finishAtom line (':' :: atom)
        let (tokens, state) ← normalStep line [] char
        pure (before ++ tokens, state)
  | .operator first => operatorStep line first char
  | .tilde =>
      if char = '@' then .ok ([.before "unquote-splicing"], ⟨.normal [], line⟩)
      else
        (normalStep line [] char).map fun (tokens, state) =>
          (.before "unquote" :: tokens, state)
  | .text chars =>
      if char = '\\' then .ok ([], ⟨.escape chars, line⟩)
      else if char = '"' then
        .ok ([.atom (.literal (.text (String.ofList chars.reverse) false))],
          ⟨.normal [], line⟩)
      else .ok ([], ⟨.text (char :: chars), line⟩)
  | .escape chars =>
      match escaped? char with
      | some char => .ok ([], ⟨.text (char :: chars), line⟩)
      | none => .error ⟨line, .invalidEscape⟩
  | .char chars =>
      if char = '\'' then
        (finishAtom line (char :: chars)).map fun tokens => (tokens, ⟨.normal [], line⟩)
      else if char = '\\' then .ok ([], ⟨.charEscape (char :: chars), line⟩)
      else .ok ([], ⟨.char (char :: chars), line⟩)
  | .charEscape chars => .ok ([], ⟨.char (char :: chars), line⟩)
  | .raw chars =>
      if char = '`' then
        .ok ([.atom (.literal (.text (String.ofList chars.reverse) true))],
          ⟨.normal [], line⟩)
      else .ok ([], ⟨.raw (char :: chars), line⟩)
  | .lineComment =>
      .ok ([], ⟨if char = '\n' then .normal [] else .lineComment, line⟩)
  | .blockComment =>
      .ok ([], ⟨if char = '*' then .blockStar else .blockComment, line⟩)
  | .blockStar =>
      .ok ([], ⟨if char = '/' then .normal [] else .blockComment, line⟩)

end Scan

end CostTape.Script
