import CostTape.Yaml.Text

/-! The tokens of a YAML text.  Tags, anchors, aliases and directives are not modelled:
there are no tokens for them, and a text that has one where a token starts is not divided
further. -/

namespace CostTape

inductive YamlToken where
  | documentStart
  | documentEnd
  /-- A list or a mapping that is shown by indentation, and its end. -/
  | listStart
  | mappingStart
  | blockEnd
  | openList
  | closeList
  | openMapping
  | closeMapping
  | comma
  | dash
  | key
  | colon
  | scalar (value : YamlValue)
  | textEnd

namespace YamlToken

def isTextEnd : YamlToken → Bool
  | textEnd => true
  | _ => false

end YamlToken

/-- A token that may turn out to be a key, as a colon may still follow. -/
structure PossibleKey where
  token : Nat
  spot : Spot
  /-- The place allows nothing but a key. -/
  required : Bool

namespace PossibleKey

/-- A colon makes the token a key on the same line and not too far behind it. -/
def reaches (possible : PossibleKey) (colon : Spot) : Bool :=
  colon.line ≤ possible.spot.line && colon.index ≤ possible.spot.index + 1024

end PossibleKey

structure YamlScan where
  rest : List Spot
  tokens : Array YamlToken := #[]
  /-- The columns of the open blocks, the innermost first. -/
  columns : List Nat := []
  possible : Option PossibleKey := none
  /-- The possible keys outside of each open bracket. -/
  outer : List (Option PossibleKey) := []
  /-- A key may start here. -/
  keyAllowed : Bool := true

namespace YamlScan

def inBrackets (scan : YamlScan) : Bool :=
  !scan.outer.isEmpty

def least (scan : YamlScan) : Nat :=
  match scan.columns with
  | [] => 0
  | column :: _ => column + 1

def push (token : YamlToken) (scan : YamlScan) : YamlScan :=
  { scan with tokens := scan.tokens.push token }

def withRest (rest : List Spot) (scan : YamlScan) : YamlScan :=
  { scan with rest }

def allowKey (allowed : Bool) (scan : YamlScan) : YamlScan :=
  { scan with keyAllowed := allowed }

/-- Gives up the possible key; one that is required must not be given up. -/
def dropKey? (scan : YamlScan) : Option YamlScan :=
  if scan.possible.any (·.required) then none else some { scan with possible := none }

/-- The token that comes next is a possible key, if one may start here. -/
def saveKey? (spot : Spot) (scan : YamlScan) : Option YamlScan :=
  if scan.keyAllowed then
    scan.dropKey?.map fun scan =>
      let required := !scan.inBrackets && scan.columns.head? == some spot.column
      { scan with possible := some ⟨scan.tokens.size, spot, required⟩ }
  else
    some scan

/-- Opens a block at a column, unless it is open already, with a token before
that of an index. -/
def openBlock (column index : Nat) (token : YamlToken) (scan : YamlScan) : YamlScan :=
  if !scan.inBrackets && scan.least ≤ column then
    { scan with
      tokens := scan.tokens.insertIdxIfInBounds index token
      columns := column :: scan.columns }
  else
    scan

def closeBlocks (closes : Nat → Bool) (scan : YamlScan) : YamlScan :=
  if scan.inBrackets then
    scan
  else
    { scan with
      tokens := scan.tokens ++
        Array.replicate (scan.columns.takeWhile closes).length YamlToken.blockEnd
      columns := scan.columns.dropWhile closes }

/-- Skips to the next part; outside of brackets a key may start on a new line. -/
def skip (scan : YamlScan) : YamlScan :=
  let (newLine, rest) :=
    Spot.skip scan.inBrackets .blanks (scan.inBrackets || !scan.keyAllowed) false
      scan.rest
  { scan with rest, keyAllowed := scan.keyAllowed || newLine && !scan.inBrackets }

def finish? (scan : YamlScan) : Option YamlScan :=
  (scan.closeBlocks fun _ => true).dropKey?.map (·.push .textEnd)

def divider? (spot : Spot) (scan : YamlScan) : Option YamlScan :=
  (scan.closeBlocks fun _ => true).dropKey?.map fun scan =>
    (scan.push (if spot.char == '-' then .documentStart else .documentEnd)).allowKey false
      |>.withRest (scan.rest.drop 3)

/-- A bracket that opens may start a key, and so may what follows it. -/
def open? (token : YamlToken) (spot : Spot) (scan : YamlScan) : Option YamlScan :=
  (scan.saveKey? spot).map fun scan =>
    { scan.push token with
      possible := none
      outer := scan.possible :: scan.outer
      keyAllowed := true }

def close? (token : YamlToken) (scan : YamlScan) : Option YamlScan :=
  scan.dropKey?.map fun scan =>
    match scan.outer with
    | [] => (scan.push token).allowKey false
    | possible :: outer =>
        { scan.push token with possible, outer, keyAllowed := false }

def comma? (scan : YamlScan) : Option YamlScan :=
  scan.dropKey?.map fun scan => (scan.push .comma).allowKey true

def dash? (spot : Spot) (scan : YamlScan) : Option YamlScan :=
  if scan.inBrackets || scan.keyAllowed then
    (scan.openBlock spot.column scan.tokens.size .listStart).dropKey?.map fun scan =>
      (scan.push .dash).allowKey true
  else
    none

def keyMark? (spot : Spot) (scan : YamlScan) : Option YamlScan :=
  if scan.inBrackets || scan.keyAllowed then
    (scan.openBlock spot.column scan.tokens.size .mappingStart).dropKey?.map fun scan =>
      (scan.push .key).allowKey (!scan.inBrackets)
  else
    none

/-- A colon makes the possible key a key if it reaches it; otherwise it must
stand where a key may start. -/
def colon? (spot : Spot) (scan : YamlScan) : Option YamlScan :=
  let reached := scan.possible.filter (·.reaches spot)
  match reached with
  | some possible =>
      let marked :=
        { scan with
          tokens := scan.tokens.insertIdxIfInBounds possible.token .key
          possible := none }
      some (((marked.openBlock possible.spot.column possible.token .mappingStart).push
        .colon).allowKey false)
  | none =>
      if scan.possible.any (·.required) || !scan.inBrackets && !scan.keyAllowed then none
      else
        let opened := { scan with possible := none }.openBlock spot.column
          scan.tokens.size .mappingStart
        some ((opened.push .colon).allowKey (!scan.inBrackets))

def quoted? (spot : Spot) (body : Option (List Char × List Spot)) (scan : YamlScan) :
    Option YamlScan :=
  (scan.saveKey? spot).bind fun scan =>
    body.map fun (chars, rest) =>
      ((scan.push (.scalar (.text (String.ofList chars)))).allowKey false).withRest
        (Spot.skipLineComment rest)

def blockText? (folded : Bool) (after : List Spot) (scan : YamlScan) : Option YamlScan :=
  scan.dropKey?.bind fun scan =>
    (YamlValue.readBlockText folded scan.least after).map fun (value, rest) =>
      ((scan.push (.scalar value)).allowKey true).withRest rest

/-- A word without quotes; after a line break a key may start. -/
def word? (spot : Spot) (scan : YamlScan) : Option YamlScan :=
  if YamlValue.startsWord scan.inBrackets scan.rest then
    (scan.saveKey? spot).bind fun scan =>
      (YamlValue.wordChars scan.inBrackets scan.least .none scan.rest).map
        fun (chars, newLine, rest) =>
          ((scan.push (.scalar (.word (String.ofList chars)))).allowKey newLine).withRest
            (if newLine then rest else Spot.skipLineComment rest)
  else
    none

def part? (spot : Spot) (after : List Spot) (scan : YamlScan) : Option YamlScan :=
  let marked := fun scan? : Option YamlScan =>
    scan?.map (·.withRest (Spot.skipLineComment after))
  let endsMark := scan.inBrackets || Spot.endsWord after
  if spot.char == '[' then marked (scan.open? .openList spot)
  else if spot.char == '\x7b' then marked (scan.open? .openMapping spot)
  else if spot.char == ']' then marked (scan.close? .closeList)
  else if spot.char == '\x7d' then marked (scan.close? .closeMapping)
  else if spot.char == ',' then marked scan.comma?
  else if spot.char == '-' && Spot.endsWord after then
    (scan.dash? spot).map (·.withRest after)
  else if spot.char == '?' && endsMark then marked (scan.keyMark? spot)
  else if spot.char == ':' && endsMark then marked (scan.colon? spot)
  else if spot.char == '|' && !scan.inBrackets then scan.blockText? false after
  else if spot.char == '>' && !scan.inBrackets then scan.blockText? true after
  else if spot.char == '\'' then
    scan.quoted? spot (YamlValue.singleChars .none after)
  else if spot.char == '"' then
    scan.quoted? spot (YamlValue.doubleChars (.body .none) after)
  else scan.word? spot

def next? (scan : YamlScan) : Option YamlScan :=
  let scan := scan.skip
  match scan.rest with
  | [] => scan.finish?
  | spot :: after =>
      let scan := scan.closeBlocks (spot.column < ·)
      if spot.column == 0 && spot.char == '%' then none
      else if Spot.isDivider scan.rest then scan.divider? spot
      else scan.part? spot after

def isFinished (scan : YamlScan) : Bool :=
  scan.tokens.back?.any YamlToken.isTextEnd

/-- Divides a text as far as it has tokens; every step takes a character of it
or ends it. -/
def run : Nat → YamlScan → YamlScan
  | 0, scan => scan
  | steps + 1, scan =>
      if scan.isFinished then scan
      else
        match scan.next? with
        | none => scan
        | some next => run steps next

def ofChars (chars : List Char) : YamlScan :=
  run (chars.length + 1) { rest := Spot.place chars }

def isOpenKey (index : Nat) (scan : YamlScan) : Bool :=
  (scan.possible :: scan.outer).any fun possible =>
    possible.any fun possible =>
      possible.token == index && scan.rest.head?.any possible.reaches

/-- A document may end before the token at an index: two further tokens are
known, or the text has been divided to its end. -/
def allowsEndAt (index : Nat) (scan : YamlScan) : Bool :=
  scan.isFinished || index + 3 ≤ scan.tokens.size && !scan.isOpenKey index

end YamlScan

end CostTape
