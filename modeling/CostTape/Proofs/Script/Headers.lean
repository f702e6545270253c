import CostTape.Proofs.Decimal.Spelling
import CostTape.Script.Diagnostic

/-! The line that an error text names is read off its first header, and the message is
what follows it. -/

namespace CostTape

namespace Diagnostic

open Decimal

/-- The words in any letter case, a line number and a colon stand at the start. -/
def BeginsHeader (words : String) (chars : List Char) : Prop :=
  ∃ spelled digits rest, chars = spelled ++ digits ++ ':' :: rest ∧
    spelled.map Char.toLower = words.toList ∧ digits ≠ [] ∧ digits.all isDigit = true

/-- A header stands somewhere. -/
def HoldsHeader (words : String) (chars : List Char) : Prop :=
  ∃ rest, rest <:+ chars ∧ BeginsHeader words rest

theorem isBlank_of_isGap {char : Char} (gap : isGap char = true) :
    Text.isBlank char = true := by
  simp only [isGap, Bool.or_eq_true, beq_iff_eq] at gap
  rcases gap with (((rfl | rfl) | rfl) | rfl) | code
  · rfl
  · rfl
  · rfl
  · rfl
  · simp [Text.isBlank, code]

theorem dropWord?_eq_some_iff {word chars rest : List Char} :
    dropWord? word chars = some rest ↔
      ∃ spelled, chars = spelled ++ rest ∧ spelled.map Char.toLower = word := by
  fun_induction dropWord? word chars with
  | case1 chars => simp [eq_comm]
  | case2 letter word => simp
  | case3 word char chars induction =>
      rw [induction]
      constructor
      · rintro ⟨spelled, rfl, rfl⟩
        exact ⟨char :: spelled, rfl, rfl⟩
      · rintro ⟨spelled, same, lower⟩
        obtain ⟨first, spelled, rfl, -, rest⟩ := List.map_eq_cons_iff.mp lower
        cases same
        exact ⟨spelled, rfl, rest⟩
  | case4 letter word char chars differs =>
      constructor
      · intro found
        cases found
      · rintro ⟨spelled, same, lower⟩
        obtain ⟨first, spelled, rfl, same', -⟩ := List.map_eq_cons_iff.mp lower
        cases same
        exact absurd same' differs

/-- The message behind the colon of a header, on its line. -/
def messageAfter (rest : List Char) : String :=
  String.ofList (Text.trimChars ((rest.dropWhile isGap).takeWhile (· != '\n')))

theorem header?_of_spelled {word spelled digits : List Char}
    (same : spelled.map Char.toLower = word) (nonempty : digits ≠ [])
    (decimal : digits.all isDigit = true) (rest : List Char) :
    header? word (spelled ++ digits ++ ':' :: rest) =
      some ⟨min (natValue digits) lastLine, 0, messageAfter rest⟩ := by
  have dropped : dropWord? word (spelled ++ digits ++ ':' :: rest) =
      some (digits ++ ':' :: rest) :=
    dropWord?_eq_some_iff.mpr ⟨spelled, List.append_assoc _ _ _, same⟩
  have taken : (digits ++ ':' :: rest).takeWhile isDigit = digits := by
    rw [List.takeWhile_append_of_pos (List.all_eq_true.mp decimal)]
    simp [isDigit]
  have left : (digits ++ ':' :: rest).dropWhile isDigit = ':' :: rest := by
    rw [List.dropWhile_append_of_pos (List.all_eq_true.mp decimal)]
    rfl
  obtain ⟨digit, more, rfl⟩ := List.exists_cons_of_ne_nil nonempty
  simp only [header?, dropped, Option.bind_some, taken, left]
  rfl

theorem beginsHeader_of_header? {words : String} {chars : List Char}
    {diagnostic : Diagnostic} (found : header? words.toList chars = some diagnostic) :
    BeginsHeader words chars := by
  obtain ⟨rest, dropped, read⟩ := Option.bind_eq_some_iff.mp found
  obtain ⟨spelled, rfl, same⟩ := dropWord?_eq_some_iff.mp dropped
  have split := List.takeWhile_append_dropWhile (p := isDigit) (l := rest)
  simp only at read
  split at read
  · cases read
  · rename_i rest' after nonempty
    refine ⟨spelled, rest.takeWhile isDigit, rest', ?_, same, nonempty,
      List.all_takeWhile⟩
    rw [List.append_assoc, ← after, split]
  · cases read

theorem header?_eq_none_iff {words : String} {chars : List Char} :
    header? words.toList chars = none ↔ ¬BeginsHeader words chars := by
  constructor
  · rintro none ⟨spelled, digits, rest, rfl, same, nonempty, decimal⟩
    rw [header?_of_spelled same nonempty decimal] at none
    cases none
  · intro absent
    rw [Option.eq_none_iff_forall_ne_some]
    exact fun diagnostic found => absent (beginsHeader_of_header? found)

theorem firstHeader?_eq_none_iff {words : String} {chars : List Char} :
    firstHeader? words.toList chars = none ↔ ¬HoldsHeader words chars := by
  induction chars with
  | nil =>
      rw [firstHeader?, header?_eq_none_iff]
      simp [HoldsHeader]
  | cons char chars induction =>
      rw [firstHeader?, Option.orElse_eq_or, Option.or_eq_none_iff, header?_eq_none_iff,
        induction]
      simp [HoldsHeader, List.suffix_cons_iff, or_and_right, exists_or]

theorem firstHeader?_of_header? {word chars : List Char} {diagnostic : Diagnostic}
    (found : header? word chars = some diagnostic) :
    firstHeader? word chars = some diagnostic := by
  cases chars with
  | nil => exact found
  | cons char chars => rw [firstHeader?, found, Option.orElse_some]

theorem firstHeader?_cons_of_dropWord? {word : List Char} {char : Char} {rest : List Char}
    (none : dropWord? word (char :: rest) = none) :
    firstHeader? word (char :: rest) = firstHeader? word rest := by
  rw [firstHeader?, header?, none]
  rfl

/-- A header is not looked for where its first letter does not stand. -/
theorem firstHeader?_append_of_initial {letter : Char} {word before : List Char}
    (other : ∀ char ∈ before, char.toLower ≠ letter) (rest : List Char) :
    firstHeader? (letter :: word) (before ++ rest) =
      firstHeader? (letter :: word) rest := by
  induction before with
  | nil => rfl
  | cons char before induction =>
      rw [List.forall_mem_cons] at other
      have none : dropWord? (letter :: word) (char :: (before ++ rest)) = none := by
        rw [dropWord?, if_neg other.1]
      rw [List.cons_append, firstHeader?_cons_of_dropWord? none, induction other.2]

theorem toLower_ne_of_map {spelled word : List Char} {letter : Char}
    (same : spelled.map Char.toLower = word) (absent : letter ∉ word) :
    ∀ char ∈ spelled, char.toLower ≠ letter := by
  rintro char member rfl
  rw [← same] at absent
  exact absent (List.mem_map_of_mem member)

theorem onLine_letters : "on line ".toList = 'o' :: 'n' :: " line ".toList := rfl

/-- No header begins inside of the word before it. -/
theorem firstHeader?_error {before : List Char}
    (same : before.map Char.toLower = "error ".toList) (rest : List Char) :
    firstHeader? "on line ".toList (before ++ rest) =
      firstHeader? "on line ".toList rest := by
  have parts : "error ".toList = "err".toList ++ 'o' :: 'r' :: [' '] := rfl
  rw [parts] at same
  obtain ⟨first, others, rfl, sameFirst, sameOthers⟩ := List.map_eq_append_iff.mp same
  obtain ⟨letter, last, rfl, isLetter, sameLast⟩ := List.map_eq_cons_iff.mp sameOthers
  rw [onLine_letters]
  -- The one letter that could begin a header is followed by another than its second.
  have none : dropWord? ('o' :: 'n' :: " line ".toList) (letter :: (last ++ rest)) =
      none := by
    obtain ⟨next, last, rfl, isNext, -⟩ := List.map_eq_cons_iff.mp sameLast
    have differs : next.toLower ≠ 'n' := by
      rw [isNext]
      decide
    rw [dropWord?, if_pos isLetter, List.cons_append, dropWord?, if_neg differs]
  rw [List.append_assoc, List.cons_append,
    firstHeader?_append_of_initial (toLower_ne_of_map sameFirst (by decide)),
    firstHeader?_cons_of_dropWord? none,
    firstHeader?_append_of_initial (toLower_ne_of_map sameLast (by decide))]

/-- A header ends before its line does. -/
theorem HoldsHeader.of_append {words : String} {chars ending : List Char}
    (breaks : ∀ char ∈ ending, char = '\n')
    (holds : HoldsHeader words (chars ++ ending)) : HoldsHeader words chars := by
  obtain ⟨_, ⟨before, whole⟩, spelled, digits, rest, rfl, same, nonempty, decimal⟩ :=
    holds
  rw [← List.append_assoc, eq_comm, List.append_eq_append_iff] at whole
  have noColon : ':' ∉ ending := fun member => by cases breaks ':' member
  rcases whole with ⟨more, -, tail⟩ | ⟨more, inside, tail⟩
  · rw [tail] at noColon
    simp at noColon
  · cases more with
    | nil =>
        rw [List.nil_append] at tail
        rw [← tail] at noColon
        simp at noColon
    | cons first more =>
        cases tail
        refine ⟨spelled ++ digits ++ ':' :: more, ⟨before, ?_⟩, spelled, digits, more,
          rfl, same, nonempty, decimal⟩
        rw [← List.append_assoc, ← inside]

theorem trimStart_dropWhile_isGap (chars : List Char) :
    Text.trimStart (chars.dropWhile isGap) = Text.trimStart chars := by
  have gaps : ∀ char ∈ chars.takeWhile isGap, Text.isBlank char = true :=
    fun char member => isBlank_of_isGap (List.mem_takeWhile_imp member)
  calc
    Text.trimStart (chars.dropWhile isGap)
        = Text.trimStart (chars.takeWhile isGap ++ chars.dropWhile isGap) :=
          (List.dropWhile_append_of_pos gaps).symm
    _ = Text.trimStart chars := by rw [List.takeWhile_append_dropWhile]

/-- The gap behind the colon may reach over the end of the line only where the message is
blank. -/
theorem messageAfter_blank {message : String} {ending : List Char}
    (oneLine : '\n' ∉ message.toList) (breaks : ∀ char ∈ ending, char = '\n') :
    messageAfter (' ' :: message.toList ++ ending) = Text.trim message := by
  have endsLine : ending.takeWhile (· != '\n') = [] := by
    cases ending with
    | nil => rfl
    | cons char ending => simp [breaks char List.mem_cons_self]
  have isGapEnding : ending.dropWhile isGap = [] := by
    rw [List.dropWhile_eq_nil_iff]
    intro char member
    rw [breaks char member]
    rfl
  let body := (' ' :: message.toList).dropWhile isGap
  have stays : (body ++ ending).takeWhile (· != '\n') = body := by
    rw [List.takeWhile_append_of_pos, endsLine, List.append_nil]
    intro char member
    have inside : char ∈ ' ' :: message.toList :=
      (List.dropWhile_suffix isGap).subset member
    rw [bne_iff_ne]
    rintro rfl
    rcases List.mem_cons.mp inside with same | inMessage
    · cases same
    · exact oneLine inMessage
  have taken :
      ((' ' :: message.toList ++ ending).dropWhile isGap).takeWhile (· != '\n') =
        body := by
    rw [List.dropWhile_append]
    split
    · rename_i empty
      rw [isGapEnding]
      exact (List.isEmpty_iff.mp empty).symm
    · exact stays
  rw [messageAfter, taken, Text.trim, Text.trimChars, Text.trimChars,
    trimStart_dropWhile_isGap]
  rfl

theorem toLower_ne_of_isDigit {char : Char} (digit : isDigit char = true) :
    char.toLower ≠ 'o' := by
  have notUpper : ¬char.isUpper = true := by
    simp only [isDigit, Bool.and_eq_true, decide_eq_true_eq, Char.le_def,
      UInt32.le_iff_toNat_le] at digit
    simp only [Char.isUpper, decide_eq_true_eq, ge_iff_le, UInt32.le_iff_toNat_le]
    have below : '9'.val.toNat < 'A'.val.toNat := by decide
    omega
  rw [Char.toLower_eq_of_not_isUpper notUpper]
  rintro rfl
  cases digit

theorem min_lastLine {line : Nat} (fits : line < 2 ^ 63) :
    min (natValue (toString line).toList : Int) lastLine = line := by
  rw [natValue_toString, lastLine]
  omega

/-- An error text with `on line` in its first header, wherever else it mentions lines. -/
theorem ofText_of_error {words message : String} {line : Nat} {ending : String}
    (same : words.toList.map Char.toLower = "error on line ".toList)
    (fits : line < 2 ^ 63) (oneLine : '\n' ∉ message.toList)
    (breaks : ∀ char ∈ ending.toList, char = '\n') :
    ofText (words ++ toString line ++ ": " ++ message ++ ending) =
      ⟨line, 0, Text.trim message⟩ := by
  have parts : "error on line ".toList = "error ".toList ++ "on line ".toList := rfl
  rw [parts] at same
  obtain ⟨first, second, spelled, sameFirst, sameSecond⟩ := List.map_eq_append_iff.mp same
  have chars : (words ++ toString line ++ ": " ++ message ++ ending).toList =
      first ++ (second ++ (toString line).toList ++
        ':' :: (' ' :: message.toList ++ ending.toList)) := by
    simp [spelled]
  have found :=
    firstHeader?_of_header? (header?_of_spelled sameSecond (toString_ne_nil line)
    (all_isDigit_toString line) (' ' :: message.toList ++ ending.toList))
  rw [ofText, chars, firstHeader?_error sameFirst, found, Option.orElse_some,
    Option.getD_some, min_lastLine fits, messageAfter_blank oneLine breaks]

theorem ofText_of_line {words message : String} {line : Nat} {ending : String}
    (same : words.toList.map Char.toLower = "line ".toList) (fits : line < 2 ^ 63)
    (oneLine : '\n' ∉ message.toList) (breaks : ∀ char ∈ ending.toList, char = '\n')
    (plain : ¬HoldsHeader "on line " message.toList) :
    ofText (words ++ toString line ++ ": " ++ message ++ ending) =
      ⟨line, 0, Text.trim message⟩ := by
  have chars : (words ++ toString line ++ ": " ++ message ++ ending).toList =
      words.toList ++ (toString line).toList ++
        ':' :: (' ' :: message.toList ++ ending.toList) := by
    simp
  have none : firstHeader? "on line ".toList (words.toList ++ (toString line).toList ++
      ':' :: (' ' :: message.toList ++ ending.toList)) = none := by
    have skipped : ∀ char ∈ words.toList ++ (toString line).toList ++ [':', ' '],
        char.toLower ≠ 'o' := by
      intro char member
      rw [List.mem_append, List.mem_append] at member
      rcases member with (inWords | inDigits) | behind
      · exact toLower_ne_of_map same (by decide) char inWords
      · exact toLower_ne_of_isDigit (List.all_eq_true.mp (all_isDigit_toString line) char
          inDigits)
      · have same : [':', ' '].map Char.toLower = [':', ' '] := rfl
        exact toLower_ne_of_map same (by decide) char behind
    have absent : ¬HoldsHeader "on line " (message.toList ++ ending.toList) :=
      fun holds => plain (holds.of_append breaks)
    have regrouped : words.toList ++ (toString line).toList ++
        ':' :: (' ' :: message.toList ++ ending.toList) =
        words.toList ++ (toString line).toList ++ [':', ' '] ++
          (message.toList ++ ending.toList) := by
      simp
    rw [regrouped, onLine_letters, firstHeader?_append_of_initial skipped,
      ← onLine_letters]
    exact firstHeader?_eq_none_iff.mpr absent
  have found := header?_of_spelled same (toString_ne_nil line)
    (all_isDigit_toString line) (' ' :: message.toList ++ ending.toList)
  rw [ofText, chars, none, Option.orElse_none, found, Option.getD_some, min_lastLine fits,
    messageAfter_blank oneLine breaks]

theorem ofText_of_plain {text : String} (plain : ¬HoldsHeader "on line " text.toList)
    (bare : ¬BeginsHeader "line " text.toList) : ofText text =
      ⟨0, 0, Text.trim text⟩ := by
  rw [ofText, firstHeader?_eq_none_iff.mpr plain, Option.orElse_none,
    header?_eq_none_iff.mpr bare, Option.getD_none]

/-- The line and the message of an error text.  In `error on line N: M` they are read off
that header, whatever `M` mentions; in `line N: M` as well, unless `on line` stands as a
header in `M`; the line is not known, and the text is all message, if neither header is
there.  The words may be in any letter case, and line breaks may follow the message. -/
theorem first_header_counts :
    (∀ (words message ending : String) (line : Nat),
      words.toList.map Char.toLower = "error on line ".toList → line < 2 ^ 63 →
      '\n' ∉ message.toList → (∀ char ∈ ending.toList, char = '\n') →
      ofText (words ++ toString line ++ ": " ++ message ++ ending) =
        ⟨line, 0, Text.trim message⟩) ∧
    (∀ (words message ending : String) (line : Nat),
      words.toList.map Char.toLower = "line ".toList → line < 2 ^ 63 →
      '\n' ∉ message.toList → (∀ char ∈ ending.toList, char = '\n') →
      ¬HoldsHeader "on line " message.toList →
      ofText (words ++ toString line ++ ": " ++ message ++ ending) =
        ⟨line, 0, Text.trim message⟩) ∧
    ∀ text : String, ¬HoldsHeader "on line " text.toList →
      ¬BeginsHeader "line " text.toList → ofText text = ⟨0, 0, Text.trim text⟩ :=
  ⟨fun _ _ _ _ => ofText_of_error, fun _ _ _ _ => ofText_of_line, fun _ =>
    ofText_of_plain⟩

/-- A message that mentions other lines, one that only seems to, and one without a
number. -/
theorem quoted_headers_read :
    ofText "eRRor ON line 9223372036854775807: \t in \"on line 3: x\" line 4: \n" =
        ⟨9223372036854775807, 0, "in \"on line 3: x\" line 4:"⟩ ∧
      ofText "LINE 12: on line : 5" = ⟨12, 0, "on line : 5"⟩ ∧
      ofText " line 12: on line x:\n" = ⟨0, 0, "line 12: on line x:"⟩ := by
  obtain ⟨error, line, plain⟩ := first_header_counts
  refine ⟨?_, ?_, ?_⟩
  · exact error "eRRor ON line " "\t in \"on line 3: x\" line 4: " "\n"
      9223372036854775807 rfl
      (by decide) (by decide +kernel) (List.forall_mem_singleton.mpr rfl)
  · refine line "LINE " "on line : 5" "" 12 rfl (by decide) (by decide +kernel)
      (List.forall_mem_nil _) ?_
    exact firstHeader?_eq_none_iff.mp (by decide +kernel)
  · refine plain " line 12: on line x:\n"
      (firstHeader?_eq_none_iff.mp (by decide +kernel)) ?_
    exact header?_eq_none_iff.mp (by decide +kernel)

end Diagnostic

end CostTape
