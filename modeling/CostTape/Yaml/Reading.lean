import CostTape.Yaml.Token

/-! Reading YAML documents, as far as they have no tags, anchors, aliases and directives.
A document with any of these is not read; how deep values may stand in each other is not
limited. -/

namespace CostTape

namespace YamlValue

private def endsPlainItem : List YamlToken → Bool
  | .dash :: _ | .key :: _ | .colon :: _ | .blockEnd :: _ => true
  | _ => false

def endsItem : List YamlToken → Bool
  | .dash :: _ | .blockEnd :: _ => true
  | _ => false

def endsEntryPart : List YamlToken → Bool
  | .key :: _ | .colon :: _ | .blockEnd :: _ => true
  | _ => false

private def endsListPart : List YamlToken → Bool
  | .comma :: _ | .closeList :: _ => true
  | _ => false

private def endsMappingPart : List YamlToken → Bool
  | .comma :: _ | .closeMapping :: _ => true
  | _ => false

private def startsColon : List YamlToken → Bool
  | .colon :: _ => true
  | _ => false

private def afterComma? (first : Bool) : List YamlToken → Option (List YamlToken)
  | .comma :: rest => if first then some (.comma :: rest) else some rest
  | tokens => if first then some tokens else none

mutual

/-- A value.  Blocks are allowed if `block` holds, and a list without an
indentation of its own if `plainList` holds. -/
def readNode : Nat → Bool → Bool → List YamlToken → Option (YamlValue × List YamlToken)
  | 0, _, _, _ => none
  | steps + 1, block, plainList, tokens =>
      match tokens with
      | .scalar value :: rest => some (value, rest)
      | .openList :: rest =>
          (readListParts steps true rest).map fun (items, rest) => (list items, rest)
      | .openMapping :: rest =>
          (readMappingParts steps true rest).map fun (entries, rest) =>
            (mapping entries, rest)
      | .dash :: _ =>
          if plainList then
            (readPlainItems steps tokens).map fun (items, rest) => (list items, rest)
          else
            none
      | .listStart :: rest =>
          if block then
            (readItems steps rest).map fun (items, rest) => (list items, rest)
          else
            none
      | .mappingStart :: rest =>
          if block then
            (readEntries steps rest).map fun (entries, rest) => (mapping entries, rest)
          else
            none
      | _ => none

/-- A value, or the null word if the next token ends its place. -/
def readPart : Nat → Bool → Bool → Bool → List YamlToken →
    Option (YamlValue × List YamlToken)
  | 0, _, _, _, _ => none
  | steps + 1, ended, block, plainList, tokens =>
      if ended then some (word "", tokens) else readNode steps block plainList tokens

def readItems : Nat → List YamlToken → Option (List YamlValue × List YamlToken)
  | 0, _ => none
  | steps + 1, tokens =>
      match tokens with
      | .dash :: rest =>
          (readPart steps (endsItem rest) true false rest).bind fun (item, rest) =>
            (readItems steps rest).map fun (items, rest) => (item :: items, rest)
      | .blockEnd :: rest => some ([], rest)
      | _ => none

def readPlainItems : Nat → List YamlToken → Option (List YamlValue × List YamlToken)
  | 0, _ => none
  | steps + 1, tokens =>
      match tokens with
      | [] => none
      | .dash :: rest =>
          (readPart steps (endsPlainItem rest) true false rest).bind fun (item, rest) =>
            (readPlainItems steps rest).map fun (items, rest) => (item :: items, rest)
      | _ => some ([], tokens)

def readEntries :
    Nat → List YamlToken → Option (List (YamlValue × YamlValue) × List YamlToken)
  | 0, _ => none
  | steps + 1, tokens =>
      match tokens with
      | .key :: rest =>
          (readPart steps (endsEntryPart rest) true true rest).bind fun (key, rest) =>
            (readEntryValue steps rest).bind fun (value, rest) =>
              (readEntries steps rest).map fun (entries, rest) =>
                ((key, value) :: entries, rest)
      | .blockEnd :: rest => some ([], rest)
      | _ => none

def readEntryValue : Nat → List YamlToken → Option (YamlValue × List YamlToken)
  | 0, _ => none
  | steps + 1, tokens =>
      match tokens with
      | [] => none
      | .colon :: rest => readPart steps (endsEntryPart rest) true true rest
      | _ => some (word "", tokens)

/-- The items of a list in brackets; a pair among them is a mapping of its own. -/
def readListParts : Nat → Bool → List YamlToken → Option (List YamlValue × List YamlToken)
  | 0, _, _ => none
  | steps + 1, first, tokens =>
      match tokens with
      | .closeList :: rest => some ([], rest)
      | _ =>
          (afterComma? first tokens).bind fun tokens =>
            match tokens with
            | .closeList :: rest => some ([], rest)
            | .key :: rest =>
                let absent := endsListPart rest || startsColon rest
                (readPart steps absent false false
                  (if absent then rest.drop 1 else rest)).bind
                  fun (key, rest) =>
                    (readPairValue steps endsListPart rest).bind fun (value, rest) =>
                      (readListParts steps false rest).map fun (items, rest) =>
                        (mapping [(key, value)] :: items, rest)
            | _ =>
                (readNode steps false false tokens).bind fun (item, rest) =>
                  (readListParts steps false rest).map fun (items, rest) =>
                    (item :: items, rest)

def readMappingParts : Nat → Bool → List YamlToken →
    Option (List (YamlValue × YamlValue) × List YamlToken)
  | 0, _, _ => none
  | steps + 1, first, tokens =>
      match tokens with
      | .closeMapping :: rest => some ([], rest)
      | _ =>
          (afterComma? first tokens).bind fun tokens =>
            match tokens with
            | .closeMapping :: rest => some ([], rest)
            | .key :: rest =>
                (readPart steps (endsMappingPart rest || startsColon rest) false false
                  rest).bind
                  fun (key, rest) =>
                    (readPairValue steps endsMappingPart rest).bind fun (value, rest) =>
                      (readMappingParts steps false rest).map fun (entries, rest) =>
                        ((key, value) :: entries, rest)
            | _ =>
                (readNode steps false false tokens).bind fun (key, rest) =>
                  (readMappingParts steps false rest).map fun (entries, rest) =>
                    ((key, word "") :: entries, rest)

/-- The value after the colon of a pair in brackets; without a colon it is null. -/
def readPairValue : Nat → (List YamlToken → Bool) → List YamlToken →
    Option (YamlValue × List YamlToken)
  | 0, _, _ => none
  | steps + 1, ends, tokens =>
      match tokens with
      | [] => none
      | .colon :: rest => readPart steps (ends rest) false false rest
      | _ => some (word "", tokens)

end

def readDocument (steps : Nat) : List YamlToken → Option (YamlValue × List YamlToken)
  | .textEnd :: rest => some (word "", .textEnd :: rest)
  | .documentStart :: rest =>
      match rest with
      | .documentStart :: _ | .documentEnd :: _ | .textEnd :: _ => some (word "", rest)
      | _ => readNode steps true false rest
  | tokens => readNode steps true false tokens

def isDocumentChar (char : Char) : Bool :=
  let code := char.toNat
  char == '\t' || char == '\r' || isPlainChar char || code == 0x85 || code == 0xfeff ||
    0x10000 ≤ code

def unifyBreaks : List Char → List Char
  | [] => []
  | '\r' :: '\n' :: rest => '\n' :: unifyBreaks rest
  | char :: rest =>
      (if char = '\r' ∨ char.toNat = 0x85 then '\n' else char) :: unifyBreaks rest

def withoutOrderMark : List Char → List Char
  | [] => []
  | first :: rest => if first.toNat = 0xfeff then rest else first :: rest

/-- The value of the first document of a text.  What follows it is read only as
far as needed to know that the document has ended. -/
def read? (source : String) : Option YamlValue :=
  let chars := withoutOrderMark source.toList
  if chars.all isDocumentChar then
    let scan := YamlScan.ofChars (unifyBreaks chars)
    match readDocument (4 * (scan.tokens.size + 1)) scan.tokens.toList with
    | none => none
    | some (value, rest) =>
        if scan.allowsEndAt (scan.tokens.size - rest.length) then some value else none
  else
    none

end YamlValue

end CostTape
