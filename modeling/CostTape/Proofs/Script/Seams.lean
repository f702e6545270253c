import CostTape.Script.Spelling

/-! Where a script can be cut.  At a seam the spelling starts afresh, so a script is
respelled piece by piece: every line on its own, and literals as they stand. -/

namespace CostTape.Spelling

/-- The part of a script that a text ends in. -/
inductive Region where
  | code
  | text
  /-- In a text, right behind a backslash. -/
  | escape
  | raw
  | comment
deriving DecidableEq

namespace Region

/-- The region behind one more character. -/
def after (char : Char) : Region → Region
  | code =>
      if char = '"' then text
      else if char = '`' then raw
      else if char = ';' then comment
      else code
  | text => if char = '\\' then escape else if char = '"' then code else text
  | escape => text
  | raw => if char = '`' then code else raw
  | comment => if char = '\n' then code else comment

def afterAll (region : Region) (chars : List Char) : Region :=
  chars.foldl (fun region char => region.after char) region

def isQuoted : Region → Bool
  | text | escape | raw => true
  | code | comment => false

@[simp] theorem afterAll_nil (region : Region) : region.afterAll [] = region := rfl

@[simp] theorem afterAll_cons (region : Region) (char : Char) (chars : List Char) :
    region.afterAll (char :: chars) = (region.after char).afterAll chars := rfl

theorem afterAll_tail {region moved final : Region} {char : Char} {rest : List Char}
    (ends : region.afterAll (char :: rest) = final) (moves : region.after char = moved) :
    moved.afterAll rest = final := by
  rw [← moves]
  exact ends

theorem after_code {char : Char} (quote : char ≠ '"') (tick : char ≠ '`')
    (semicolon : char ≠ ';') : code.after char = code := by
  simp [after, quote, tick, semicolon]

end Region

/-- The region at the end of a script. -/
def region (source : String) : Region :=
  Region.code.afterAll source.toList

/-- The character may be read together with the one behind it. -/
def reachesOn (char : Char) : Bool :=
  isKeywordChar char || char == ':'

/-- Between the two characters a text can be cut: in code where they are not read
together, at the end of a comment, and anywhere in a literal. -/
def IsSeam (last next : Option Char) : Region → Prop
  | .code => last.any reachesOn = false ∨ next.any isKeywordChar = false
  | .comment => next = some '\n'
  | .text | .escape | .raw => True

/-- Respells what stands behind a seam. -/
def respellBehind : Region → List Char → List Char
  | .code, chars | .comment, chars => respellFrom (.code none) chars
  | .text, chars => respellFrom .text chars
  | .escape, [] => []
  | .escape, char :: chars => char :: respellFrom .text chars
  | .raw, chars => respellFrom .raw chars

theorem isKeywordChar_of_isLetter {char : Char} (letter : isLetter char = true) :
    isKeywordChar char = true := by
  simp [isKeywordChar, isNameChar, letter]

theorem reachesOn_of_isKeywordChar {char : Char} (word : isKeywordChar char = true) :
    reachesOn char = true := by
  simp [reachesOn, word]

theorem after_code_of_reachesOn {char : Char} (reaches : reachesOn char = true) :
    Region.code.after char = .code := by
  apply Region.after_code <;> rintro rfl <;> cases reaches

namespace IsSeam

variable {before next : Option Char} {region : Region} {char : Char}
    {rest second : List Char}

theorem tail (seam : IsSeam ((char :: rest).getLast?.or before) next region) :
    IsSeam (rest.getLast?.or (some char)) next region := by
  simpa [List.getLast?_cons] using seam

/-- What a character finds behind it does not depend on what is behind the seam. -/
theorem any_head?_append {test : Char → Bool}
    (seam : IsSeam ((char :: rest).getLast?.or before) second.head? region)
    (ends : Region.code.afterAll (char :: rest) = region)
    (reaches : reachesOn char = true)
    (narrow : ∀ other, test other = true → isKeywordChar other = true) :
    (rest ++ second).head?.any test = rest.head?.any test := by
  cases rest with
  | cons next rest => rfl
  | nil =>
      rw [← ends, Region.afterAll_cons, after_code_of_reachesOn reaches] at seam
      have foreign : second.head?.any isKeywordChar = false := by
        simpa [IsSeam, reaches] using seam
      cases second with
      | nil => rfl
      | cons next second =>
          have fails : test next = false := by
            rw [Bool.eq_false_iff]
            intro passes
            rw [List.head?_cons, Option.any_some, narrow next passes] at foreign
            cases foreign
          simpa using fails

end IsSeam

namespace Mode

def region : Mode → Region
  | code _ | keyword => .code
  | text => .text
  | raw => .raw
  | commentMark | comment => .comment

/-- A scan can come to the characters in this mode, behind that character. -/
def Meets (before : Option Char) (chars : List Char) : Mode → Prop
  | code previous => previous = before
  | keyword => chars.head?.any isKeywordChar = true
  | text | raw | commentMark | comment => True

end Mode

theorem respellFrom_code_eq {previous : Option Char} {chars : List Char}
    (apart : previous.any isNameChar = false ∨ chars.head?.any isKeywordChar = false) :
    respellFrom (.code previous) chars = respellFrom (.code none) chars := by
  cases chars with
  | nil => rfl
  | cons char rest =>
      simp only [respellFrom]
      split
      case h_5 =>
        -- Only a hyphen looks back.
        have unnamed : previous.any isNameChar = false := by
          simpa [isKeywordChar] using apart
        simp [unnamed]
      all_goals rfl

theorem respellFrom_of_isSeam {mode : Mode} {before : Option Char} {chars : List Char}
    (meets : mode.Meets before []) (seam : IsSeam before chars.head? mode.region) :
    respellFrom mode chars = respellBehind mode.region chars := by
  cases mode with
  | code previous =>
      apply respellFrom_code_eq
      rw [show previous = before from meets]
      refine seam.imp_left fun ends => ?_
      cases before with
      | none => rfl
      | some char =>
          simp only [Option.any_some, reachesOn, isKeywordChar,
            Bool.or_eq_false_iff] at ends
          exact ends.1.1
  | text | raw => rfl
  | commentMark | comment =>
      obtain ⟨rest, rfl⟩ := List.head?_eq_some_iff.mp seam
      rfl
  | keyword => cases meets

/-- Behind a seam a scan goes on as the region says, whatever went before. -/
theorem respellFrom_append {mode : Mode} {before : Option Char} {first second : List Char}
    {region : Region} (meets : mode.Meets before first)
    (ends : mode.region.afterAll first = region)
    (seam : IsSeam (first.getLast?.or before) second.head? region) :
    respellFrom mode (first ++ second) =
      respellFrom mode first ++ respellBehind region second := by
  fun_induction respellFrom mode first generalizing before with
  | case1 mode =>
      subst ends
      exact respellFrom_of_isSeam meets seam
  | case2 previous rest induction | case3 previous rest induction
  | case4 previous rest induction =>
      simp only [List.cons_append, respellFrom]
      rw [induction trivial ends seam.tail]
  | case5 previous rest letter induction =>
      have same := seam.any_head?_append ends (by decide) fun _ =>
        isKeywordChar_of_isLetter
      have word : rest.head?.any isKeywordChar = true := by
        cases rest with
        | nil => cases letter
        | cons char rest => exact isKeywordChar_of_isLetter letter
      simp only [List.cons_append, respellFrom, same, letter]
      rw [induction word ends seam.tail]
      simp
  | case6 previous rest letter induction | case7 previous rest letter induction
  | case8 previous rest letter induction =>
      have same := seam.any_head?_append ends (by decide) fun _ =>
        isKeywordChar_of_isLetter
      simp only [List.cons_append, respellFrom, same, letter]
      rw [induction rfl ends seam.tail]
      rfl
  | case9 previous char rest quote tick semicolon _ _ induction =>
      have stays := Region.after_code quote tick semicolon
      simp only [List.cons_append, respellFrom]
      rw [induction rfl (Region.afterAll_tail ends stays) seam.tail]
  | case10 char rest induction =>
      simp only [List.cons_append, respellFrom]
      rw [induction trivial ends seam.tail.tail]
  | case12 char rest single quote induction =>
      by_cases escapes : char = '\\'
      · -- The text ends in a backslash, which takes along what is first behind the seam.
        subst escapes
        cases rest with
        | nil =>
            subst ends
            cases second <;> rfl
        | cons other rest => exact (single other rest rfl rfl).elim
      · have stays : Region.text.after char = .text := by
          simp [Region.after, escapes, quote]
        simp [respellFrom, escapes, quote,
          induction trivial (Region.afterAll_tail ends stays) seam.tail]
  | case11 rest _ induction | case13 rest induction | case16 rest _ induction
  | case18 rest induction =>
      simp [respellFrom, induction rfl ends seam.tail]
  | case15 rest induction => simp [respellFrom, induction trivial ends seam.tail]
  | case14 char rest tick induction =>
      have stays : Region.raw.after char = .raw := if_neg tick
      simp [respellFrom, tick,
        induction trivial (Region.afterAll_tail ends stays) seam.tail]
  | case17 char rest semicolon newline induction =>
      have stays : Region.comment.after char = .comment := if_neg newline
      simp [respellFrom, semicolon, newline,
        induction trivial (Region.afterAll_tail ends stays) seam.tail]
  | case19 char rest newline induction =>
      have stays : Region.comment.after char = .comment := if_neg newline
      simp [respellFrom, newline,
        induction trivial (Region.afterAll_tail ends stays) seam.tail]
  | case20 char rest more induction =>
      have reaches := reachesOn_of_isKeywordChar meets
      have stays := after_code_of_reachesOn reaches
      have same := seam.any_head?_append ends reaches fun _ => id
      simp only [List.cons_append, respellFrom, same, more]
      rw [induction more (Region.afterAll_tail ends stays) seam.tail]
      rfl
  | case21 char rest more induction =>
      have reaches := reachesOn_of_isKeywordChar meets
      have stays := after_code_of_reachesOn reaches
      have same := seam.any_head?_append ends reaches fun _ => id
      simp only [List.cons_append, respellFrom, same, more]
      rw [induction rfl (Region.afterAll_tail ends stays) seam.tail]
      rfl

theorem respell_append {first second : String}
    (seam : IsSeam first.toList.getLast? second.toList.head? (region first)) :
    respell (first ++ second) =
      respell first ++ String.ofList (respellBehind (region first) second.toList) := by
  have begins : (Mode.code none).Meets none first.toList := rfl
  have ends : (Mode.code none).region.afterAll first.toList = region first := rfl
  rw [respell, String.toList_append,
    respellFrom_append begins ends (by rw [Option.or_none]; exact seam),
    String.ofList_append]
  rfl

theorem respell_append_of_unquoted {first second : String}
    (unquoted : (region first).isQuoted = false)
    (seam : IsSeam first.toList.getLast? second.toList.head? (region first)) :
    respell (first ++ second) = respell first ++ respell second := by
  have fresh : respellBehind (region first) second.toList =
      respellFrom (.code none) second.toList := by
    cases here : region first with
    | code | comment => rfl
    | text | escape | raw =>
        rw [here] at unquoted
        cases unquoted
  rw [respell_append seam, fresh]
  rfl

theorem respell_between {before piece behind : String}
    (unquoted : (region before).isQuoted = false)
    (opened : IsSeam before.toList.getLast? (piece ++ behind).toList.head?
      (region before))
    (complete : (region piece).isQuoted = false)
    (closed : IsSeam piece.toList.getLast? behind.toList.head? (region piece)) :
    respell (before ++ piece ++ behind) = respell before ++ respell piece ++
      respell behind := by
  rw [String.append_assoc, respell_append_of_unquoted unquoted opened,
    respell_append_of_unquoted complete closed, String.append_assoc]

/-- Whatever is respelled, no line comes or goes. -/
theorem count_newline_respellFrom (mode : Mode) (chars : List Char) :
    (respellFrom mode chars).count '\n' = chars.count '\n' := by
  have mark : keywordMark.toList.count '\n' = 0 := by decide
  fun_induction respellFrom mode chars <;> simp_all [List.count_cons]

/-- What stands between the quotes of a text: a backslash takes the character behind it
along. -/
inductive IsTextBody : List Char → Prop
  | nil : IsTextBody []
  | plain {char : Char} {rest : List Char} :
      char ≠ '"' → char ≠ '\\' → IsTextBody rest → IsTextBody (char :: rest)
  | escaped {char : Char} {rest : List Char} :
      IsTextBody rest → IsTextBody ('\\' :: char :: rest)

/-- A complete literal. -/
inductive IsLiteral : List Char → Prop
  | text {body : List Char} : IsTextBody body → IsLiteral ('"' :: (body ++ ['"']))
  | raw {body : List Char} : '`' ∉ body → IsLiteral ('`' :: (body ++ ['`']))

namespace IsTextBody

variable {body : List Char}

theorem respellFrom_eq (isBody : IsTextBody body) :
    respellFrom .text (body ++ ['"']) = body ++ ['"'] := by
  induction isBody with
  | nil => rfl
  | plain quote escapes _ induction => simp [respellFrom, quote, escapes, induction]
  | escaped _ induction => simp [respellFrom, induction]

theorem afterAll_eq (isBody : IsTextBody body) :
    Region.text.afterAll (body ++ ['"']) = .code := by
  induction isBody with
  | nil => rfl
  | plain quote escapes _ induction =>
      simpa [Region.after, quote, escapes] using induction
  | escaped _ induction => exact induction

end IsTextBody

theorem respellFrom_raw {body : List Char} (closed : '`' ∉ body) :
    respellFrom .raw (body ++ ['`']) = body ++ ['`'] := by
  induction body with
  | nil => rfl
  | cons char body induction =>
      rw [List.mem_cons, not_or] at closed
      simp [respellFrom, Ne.symm closed.1, induction closed.2]

theorem afterAll_raw {body : List Char} (closed : '`' ∉ body) :
    Region.raw.afterAll (body ++ ['`']) = .code := by
  induction body with
  | nil => rfl
  | cons char body induction =>
      rw [List.mem_cons, not_or] at closed
      simpa [Region.after, Ne.symm closed.1] using induction closed.2

namespace IsLiteral

variable {literal : List Char}

theorem respellFrom_eq (isLiteral : IsLiteral literal) :
    respellFrom (.code none) literal = literal := by
  cases isLiteral with
  | text isBody => exact congrArg _ isBody.respellFrom_eq
  | raw closed => exact congrArg _ (respellFrom_raw closed)

theorem afterAll_eq (isLiteral : IsLiteral literal) :
    Region.code.afterAll literal = .code := by
  cases isLiteral with
  | text isBody => exact isBody.afterAll_eq
  | raw closed => exact afterAll_raw closed

theorem any_head?_append (isLiteral : IsLiteral literal) (rest : List Char) :
    (literal ++ rest).head?.any isKeywordChar = false := by
  cases isLiteral <;> rfl

theorem any_getLast? (isLiteral : IsLiteral literal) :
    literal.getLast?.any reachesOn = false := by
  cases isLiteral <;> rw [← List.cons_append, List.getLast?_concat] <;> rfl

end IsLiteral

theorem respell_line {first : String} (unquoted : (region first).isQuoted = false)
    (second : String) :
    respell (first ++ "\n" ++ second) = respell first ++ "\n" ++ respell second := by
  have ended : IsSeam first.toList.getLast? ("\n" ++ second).toList.head?
      (region first) := by
    rw [String.toList_append]
    cases region first with
    | code => exact .inr rfl
    | comment => rfl
    | text | escape | raw => trivial
  exact respell_between unquoted ended rfl (.inl rfl)

/-- In an open literal a keyword is none, though a line begins with it. -/
theorem exists_ne_respell_line {first : String}
    (quoted : (region first).isQuoted = true) : ∃ second : String,
      respell (first ++ "\n" ++ second) ≠ respell first ++ "\n" ++ respell second := by
  have copied : respell (first ++ "\n:k") = respell first ++ "\n:k" := by
    cases here : region first with
    | code | comment =>
        rw [here] at quoted
        cases quoted
    | text | escape | raw =>
        rw [respell_append (by rw [here]; trivial), here]
        rfl
  refine ⟨":k", fun same => ?_⟩
  have split : respell first ++ "\n:k" = respell first ++ "\n\"__kw_k\"" := by
    rw [← copied]
    rw [String.append_assoc, String.append_assoc] at same
    exact same
  exact absurd (String.append_right_inj _ |>.mp split) (by decide)

/-- Scripts are respelled piece by piece, whatever stands around a piece.  There are as
many lines after as before.  A line and the next are respelled apart exactly if no literal
is open where the line ends.  A complete literal in code stays as it is and keeps apart
what stands around it. -/
theorem respelled_piece_by_piece :
    (∀ source : String,
      (respell source).toList.count '\n' = source.toList.count '\n') ∧
    (∀ first : String, (region first).isQuoted = false ↔ ∀ second : String,
      respell (first ++ "\n" ++ second) = respell first ++ "\n" ++ respell second) ∧
    ∀ before literal behind : String, region before = .code → IsLiteral literal.toList →
      respell (before ++ literal ++ behind) = respell before ++ literal ++
        respell behind := by
  refine ⟨fun source => ?_, fun first => ⟨respell_line, fun apart => ?_⟩,
    fun before literal behind inCode isLiteral => ?_⟩
  · rw [respell, String.toList_ofList]
    exact count_newline_respellFrom _ _
  · rw [Bool.eq_false_iff]
    intro quoted
    obtain ⟨second, differs⟩ := exists_ne_respell_line quoted
    exact differs (apart second)
  · have opened : IsSeam before.toList.getLast? (literal ++ behind).toList.head?
        (region before) := by
      rw [inCode, String.toList_append]
      exact .inr (isLiteral.any_head?_append behind.toList)
    have complete : region literal = .code := isLiteral.afterAll_eq
    have closed : IsSeam literal.toList.getLast? behind.toList.head?
        (region literal) := by
      rw [complete]
      exact .inl isLiteral.any_getLast?
    have kept : respell literal = literal := by
      rw [respell, isLiteral.respellFrom_eq, String.ofList_toList]
    rw [respell_between (by rw [inCode]; rfl) opened (by rw [complete]; rfl) closed, kept]

/-- A text that holds a quote and a semicolon, between a name and a comment, and a comment
that holds a quote. -/
theorem guarded_text_stays :
    region "(set a-b " = .code ∧ IsLiteral "\"\\\";\"".toList ∧
    respell ("(set a-b " ++ "\"\\\";\"" ++ ":k) ;; c-d") =
      "(set a_b " ++ "\"\\\";\"" ++ "\"__kw_k\") // c-d" ∧
    (region ":k ; \"c-d").isQuoted = false ∧
    respell (":k ; \"c-d" ++ "\n" ++ "-e") = "\"__kw_k\" // \"c-d" ++ "\n" ++ "-e" := by
  have isLiteral : IsLiteral "\"\\\";\"".toList :=
    .text (.escaped (.plain (by decide) (by decide) .nil))
  obtain ⟨-, lines, literals⟩ := respelled_piece_by_piece
  exact ⟨rfl, isLiteral, (literals _ _ _ rfl isLiteral).trans rfl, rfl,
    ((lines _).mp rfl _).trans rfl⟩

end CostTape.Spelling
