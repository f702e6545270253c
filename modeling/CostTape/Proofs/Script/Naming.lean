import CostTape.Proofs.Script.Seams
import CostTape.Script.Program

/-! Names and keywords of a script are respelled the same wherever they stand, and the
name of a keyword can be read off the text that it becomes. -/

namespace CostTape

namespace Spelling

/-- A name, or what follows the colon of a keyword. -/
structure IsWord (chars : List Char) : Prop where
  begins : chars.head?.any isLetter = true
  holds : ∀ char ∈ chars, isKeywordChar char = true

/-- The name with an underscore for every hyphen between a name character and a letter. -/
def snakeCase (name : String) : String :=
  String.ofList (name.toList.mapIdx fun place char =>
    if char = '-' ∧ 0 < place ∧ name.toList[place - 1]?.any isNameChar = true ∧
        name.toList[place + 1]?.any isLetter = true then
      '_'
    else
      char)

theorem IsWord.ne_nil {chars : List Char} (isWord : IsWord chars) : chars ≠ [] := by
  rintro rfl
  cases isWord.begins

theorem afterAll_of_reachesOn {chars : List Char}
    (reach : ∀ char ∈ chars, reachesOn char = true) :
    Region.code.afterAll chars = .code := by
  induction chars with
  | nil => rfl
  | cons char chars induction =>
      rw [List.forall_mem_cons] at reach
      rw [Region.afterAll_cons, after_code_of_reachesOn reach.1, induction reach.2]

theorem respellFrom_code_cons {previous : Option Char} {char : Char} {rest : List Char}
    (word : isKeywordChar char = true) :
    respellFrom (.code previous) (char :: rest) =
      (if char = '-' ∧ previous.any isNameChar = true ∧
        rest.head?.any isLetter = true then '_'
        else char) :: respellFrom (.code (some char)) rest := by
  simp only [respellFrom]
  split
  case h_5 => split <;> simp_all
  case h_6 => simp_all
  all_goals cases word

/-- Each character of a word keeps its place, and what becomes of it depends on its
neighbours only. -/
theorem getElem?_respellFrom_code {previous : Option Char} {chars : List Char}
    (words : ∀ char ∈ chars, isKeywordChar char = true) (place : Nat) :
    (respellFrom (.code previous) chars)[place]? = chars[place]?.map fun char =>
      if char = '-' ∧ (if place = 0 then previous else chars[place - 1]?).any
          isNameChar = true ∧ chars[place + 1]?.any isLetter = true then
        '_'
      else
        char := by
  induction chars generalizing previous place with
  | nil => rfl
  | cons char rest induction =>
      rw [List.forall_mem_cons] at words
      rw [respellFrom_code_cons words.1]
      cases place with
      | zero => simp [List.head?_eq_getElem?]
      | succ place =>
          have behind : (if place = 0 then some char else rest[place - 1]?) =
              (char :: rest)[place]? := by
            cases place <;> rfl
          rw [List.getElem?_cons_succ, induction words.2, behind]
          rfl

theorem respell_name {name : String} (isWord : IsWord name.toList) :
    respell name = snakeCase name := by
  apply congrArg String.ofList
  apply List.ext_getElem?
  intro place
  rw [getElem?_respellFrom_code isWord.holds, List.getElem?_mapIdx]
  cases place <;> simp

theorem respellFrom_keyword {chars : List Char} (nonempty : chars ≠ [])
    (words : ∀ char ∈ chars, isKeywordChar char = true) :
    respellFrom .keyword chars = chars ++ ['"'] := by
  induction chars with
  | nil => exact absurd rfl nonempty
  | cons char rest induction =>
      rw [List.forall_mem_cons] at words
      cases rest with
      | nil => rfl
      | cons next rest =>
          have more := words.2 next List.mem_cons_self
          rw [respellFrom, List.head?_cons, Option.any_some, more,
            induction (List.cons_ne_nil next rest) words.2]
          rfl

theorem respell_keyword {name : String} (isWord : IsWord name.toList) :
    respell (":" ++ name) = "\"" ++ keywordMark ++ name ++ "\"" := by
  have spelled : respellFrom (.code none) (':' :: name.toList) =
      '"' :: keywordMark.toList ++ (name.toList ++ ['"']) := by
    rw [← respellFrom_keyword isWord.ne_nil isWord.holds]
    exact if_pos isWord.begins
  apply String.toList_inj.mp
  rw [respell, String.toList_ofList, String.toList_append]
  refine spelled.trans ?_
  simp

theorem keywordName?_mark (name : String) :
    keywordName? (keywordMark ++ name) = some name := by
  have marked : keywordMark.toList.isPrefixOf (keywordMark ++ name).toList = true := by
    rw [String.toList_append, List.isPrefixOf_iff_prefix]
    exact List.prefix_append _ _
  rw [keywordName?, if_pos marked, String.toList_append, ← String.length_toList,
    List.drop_left, String.ofList_toList]

end Spelling

namespace Script.Program

theorem readFrom_text {line : Nat} {taken body : List Char} {reading : Reading}
    {rest : List Char} (plain : ∀ char ∈ body, char ≠ '"' ∧ char ≠ '\\') :
    readFrom ⟨.text taken, line⟩ reading (body ++ rest) =
      readFrom ⟨.text (body.reverse ++ taken), line⟩ reading rest := by
  induction body generalizing taken with
  | nil => rfl
  | cons char body induction =>
      rw [List.forall_mem_cons] at plain
      have step : Scan.step ⟨.text taken, line⟩ char =
          .ok ([], ⟨.text (char :: taken), line⟩) := by
        simp only [Scan.step]
        rw [if_neg plain.1.2, if_neg plain.1.1]
      rw [List.cons_append, readFrom, step]
      exact (induction plain.2).trans (by simp)

/-- A text without escapes is read as its body. -/
theorem read_text {body : String}
    (plain : ∀ char ∈ body.toList, char ≠ '"' ∧ char ≠ '\\') :
    read ("\"" ++ body ++ "\"") = .ok [.literal (.text body false)] := by
  have scanned : read ("\"" ++ body ++ "\"") =
      readFrom ⟨.text [], 1⟩ .empty (body.toList ++ ['"']) := by
    rw [read, String.toList_append, String.toList_append]
    rfl
  have ended : readFrom ⟨.text (body.toList.reverse ++ []), 1⟩ .empty ['"'] =
      .ok [.literal (.text (String.ofList (body.toList.reverse ++ []).reverse) false)] :=
    rfl
  rw [scanned, readFrom_text plain, ended, List.append_nil, List.reverse_reverse,
    String.ofList_toList]

end Script.Program

namespace Spelling

theorem ne_of_isKeywordChar {char : Char} (word : isKeywordChar char = true) :
    char ≠ '"' ∧ char ≠ '\\' := by
  constructor <;> rintro rfl <;> cases word

/-- A word is respelled by itself wherever it stands apart in code: as a name it changes
hyphens only, and by a rule that looks no further than the word; as a keyword it becomes a
text that is read as such and gives the word back unchanged. -/
theorem words_respelled_alike {before name behind : String}
    (inCode : region before = .code)
    (apart : before.toList.getLast?.any reachesOn = false) (isWord : IsWord name.toList)
    (ends : behind.toList.head?.any isKeywordChar = false) :
    respell (before ++ name ++ behind) = respell before ++ snakeCase name ++
      respell behind ∧
    respell (before ++ (":" ++ name) ++ behind) =
      respell before ++ ("\"__kw_" ++ name ++ "\"") ++ respell behind ∧
    Script.Program.read ("\"__kw_" ++ name ++ "\"") =
      .ok [.literal (.text ("__kw_" ++ name) false)] ∧
    keywordName? ("__kw_" ++ name) = some name := by
  have between {piece : String} (reach : ∀ char ∈ piece.toList, reachesOn char = true) :
      respell (before ++ piece ++ behind) =
        respell before ++ respell piece ++ respell behind := by
    have stays : region piece = .code := afterAll_of_reachesOn reach
    apply respell_between
    · rw [inCode]
      rfl
    · rw [inCode]
      exact .inl apart
    · rw [stays]
      rfl
    · rw [stays]
      exact .inr ends
  have reach : ∀ char ∈ name.toList, reachesOn char = true :=
    fun char member => reachesOn_of_isKeywordChar (isWord.holds char member)
  refine ⟨?_, ?_, ?_, keywordName?_mark name⟩
  · rw [between reach, respell_name isWord]
  · have reachColon : ∀ char ∈ (":" ++ name).toList, reachesOn char = true := by
      rw [String.toList_append]
      exact List.forall_mem_cons.mpr ⟨rfl, reach⟩
    rw [between reachColon, respell_keyword isWord]
    rfl
  · have joined : "\"__kw_" ++ name ++ "\"" = "\"" ++ ("__kw_" ++ name) ++ "\"" := by
      rw [← String.append_assoc]
      rfl
    rw [joined]
    apply Script.Program.read_text
    intro char member
    rw [String.toList_append, List.mem_append] at member
    apply ne_of_isKeywordChar
    rcases member with marks | names
    · exact List.all_eq_true.mp (show "__kw_".toList.all isKeywordChar = true from rfl)
        char marks
    · exact isWord.holds char names

/-- Hyphens before a digit, behind one, in a row and at the end. -/
theorem hyphenated_word_respelled :
    region "(f " = .code ∧ IsWord "a-1-b--c-".toList ∧
    respell ("(f " ++ "a-1-b--c-" ++ ":d-e)") = "(f " ++ "a-1_b--c-" ++ "\"__kw_d-e\")" ∧
    respell ("(f " ++ (":" ++ "a-1-b--c-") ++ ":d-e)") =
      "(f " ++ "\"__kw_a-1-b--c-\"" ++ "\"__kw_d-e\")" := by
  have isWord : IsWord "a-1-b--c-".toList := ⟨rfl, List.all_eq_true.mp rfl⟩
  obtain ⟨named, keyed, -⟩ :=
    @words_respelled_alike "(f " "a-1-b--c-" ":d-e)" rfl rfl isWord rfl
  exact ⟨rfl, isWord, named.trans rfl, keyed.trans rfl⟩

end Spelling

end CostTape
