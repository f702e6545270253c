/-! The spelling of scripts: `;` comments, `:keywords` and kebab-case names are
respelled for the reader; literals stay as they are. -/

namespace CostTape.Spelling

def isLetter (char : Char) : Bool :=
  ('a' ≤ char && char ≤ 'z') || ('A' ≤ char && char ≤ 'Z')

def isNameChar (char : Char) : Bool :=
  isLetter char || ('0' ≤ char && char ≤ '9') || char == '_'

def isKeywordChar (char : Char) : Bool :=
  isNameChar char || char == '-'

def keywordMark : String :=
  "__kw_"

def keywordName? (text : String) : Option String :=
  if keywordMark.toList.isPrefixOf text.toList then
    some (String.ofList (text.toList.drop keywordMark.length))
  else
    none

/-- Where a scan stands.  In code it knows the character before. -/
inductive Mode where
  | code (previous : Option Char)
  | text
  | raw
  | commentMark
  | comment
  | keyword
deriving DecidableEq

def respellFrom : Mode → List Char → List Char
  | _, [] => []
  | .code previous, char :: rest =>
      match char with
      | '"' => '"' :: respellFrom .text rest
      | '`' => '`' :: respellFrom .raw rest
      | ';' => '/' :: '/' :: respellFrom .commentMark rest
      | ':' =>
          if rest.head?.any isLetter then
            '"' :: keywordMark.toList ++ respellFrom .keyword rest
          else
            ':' :: respellFrom (.code ':') rest
      | '-' =>
          if previous.any isNameChar && rest.head?.any isLetter then
            '_' :: respellFrom (.code '-') rest
          else
            '-' :: respellFrom (.code '-') rest
      | _ => char :: respellFrom (.code char) rest
  | .text, '\\' :: char :: rest => '\\' :: char :: respellFrom .text rest
  | .text, char :: rest =>
      if char = '"' then '"' :: respellFrom (.code '"') rest
      else char :: respellFrom .text rest
  | .raw, char :: rest =>
      if char = '`' then '`' :: respellFrom (.code '`') rest
      else char :: respellFrom .raw rest
  | .commentMark, char :: rest =>
      if char = ';' then respellFrom .commentMark rest
      else if char = '\n' then '\n' :: respellFrom (.code '\n') rest
      else char :: respellFrom .comment rest
  | .comment, char :: rest =>
      if char = '\n' then '\n' :: respellFrom (.code '\n') rest
      else char :: respellFrom .comment rest
  | .keyword, char :: rest =>
      if rest.head?.any isKeywordChar then
        char :: respellFrom .keyword rest
      else
        char :: '"' :: respellFrom (.code char) rest

def respell (source : String) : String :=
  String.ofList (respellFrom (.code none) source.toList)

end CostTape.Spelling
