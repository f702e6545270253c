import CostTape.Proofs.Yaml.Written
import CostTape.Yaml.Reading

/-! A YAML value is read back from its written form. -/

namespace CostTape

namespace YamlValue

section Tokens

/-- The first token of a value does not end the part in which it stands. -/
theorem ends_tokens (value : YamlValue) (rest : List YamlToken) :
    endsItem (value.tokens ++ rest) = false ∧ endsEntryPart (value.tokens ++ rest) =
      false := by
  match value with
  | word body => exact ⟨rfl, rfl⟩
  | text body => exact ⟨rfl, rfl⟩
  | list [] => exact ⟨rfl, rfl⟩
  | list (item :: items) => exact ⟨rfl, rfl⟩
  | mapping [] => exact ⟨rfl, rfl⟩
  | mapping (entry :: entries) => exact ⟨rfl, rfl⟩

/-- With enough steps the value is read and what follows it is left. -/
def NodeReads (value : YamlValue) : Prop :=
  ∀ {steps : ℕ} (plainList : Bool) (rest : List YamlToken),
  4 * value.tokens.length ≤ steps →
    readNode steps true plainList (value.tokens ++ rest) = some (value.asRead, rest)

theorem readPart_of_nodeReads {value : YamlValue} (reads : NodeReads value) {steps : ℕ}
    (plainList : Bool) (rest : List YamlToken)
    (enough : 4 * value.tokens.length < steps) :
    readPart steps false true plainList (value.tokens ++ rest) =
      some (value.asRead, rest) := by
  obtain ⟨steps, rfl⟩ : ∃ fewer, steps = fewer + 1 := ⟨steps - 1, by omega⟩
  rw [readPart, if_neg (by simp)]
  exact reads plainList rest (by omega)

theorem readItems_itemTokens {items : List YamlValue}
    (reads : ∀ item ∈ items, NodeReads item) {steps : ℕ} (rest : List YamlToken)
    (enough : 4 * (itemTokens items).length < steps) :
    readItems steps (itemTokens items ++ .blockEnd :: rest) =
      some (itemsAsRead items, rest) := by
  induction items generalizing steps with
  | nil =>
      obtain ⟨steps, rfl⟩ : ∃ fewer, steps = fewer + 1 := ⟨steps - 1, by omega⟩
      rfl
  | cons item items ih =>
      obtain ⟨steps, rfl⟩ : ∃ fewer, steps = fewer + 1 := ⟨steps - 1, by omega⟩
      have others := @ih fun item mem => reads item (List.mem_cons_of_mem _ mem)
      simp only [itemTokens, List.length_cons, List.length_append] at enough
      rw [itemTokens, List.cons_append, List.append_assoc, readItems,
        (ends_tokens item _).1, readPart_of_nodeReads (reads item List.mem_cons_self)
          false _ (by omega), Option.bind_some]
      simp only [@others steps (by omega), Option.map_some, itemsAsRead]

theorem readEntries_entryTokens {entries : List (YamlValue × YamlValue)}
    (reads : ∀ entry ∈ entries, NodeReads entry.2) {steps : ℕ} (rest : List YamlToken)
    (enough : 4 * (entryTokens entries).length < steps) :
    readEntries steps (entryTokens entries ++ .blockEnd :: rest) =
      some (entriesAsRead entries, rest) := by
  induction entries generalizing steps with
  | nil =>
      obtain ⟨steps, rfl⟩ : ∃ fewer, steps = fewer + 1 := ⟨steps - 1, by omega⟩
      rfl
  | cons entry entries ih =>
      obtain ⟨key, value⟩ := entry
      have others := @ih fun entry mem => reads entry (List.mem_cons_of_mem _ mem)
      simp only [entryTokens, List.length_cons, List.length_append] at enough
      obtain ⟨steps, rfl⟩ : ∃ fewer, steps = fewer + 3 := ⟨steps - 3, by omega⟩
      have keyRead (after : List YamlToken) : readPart (steps + 2) false true true
          (.scalar key :: after) = some (key, after) := by
        rw [readPart, if_neg (by simp), readNode]
      have valueRead : readEntryValue (steps + 2)
          (.colon :: (value.tokens ++ (entryTokens entries ++ .blockEnd :: rest))) =
            some (value.asRead, entryTokens entries ++ .blockEnd :: rest) := by
        have read : NodeReads value := reads (key, value) List.mem_cons_self
        rw [readEntryValue, (ends_tokens value _).2]
        exact readPart_of_nodeReads read true _ (by omega)
      simp only [entryTokens, List.cons_append, List.append_assoc]
      rw [readEntries]
      simp only [endsEntryPart, keyRead, Option.bind_some, valueRead]
      rw [others (by omega)]
      rfl

theorem nodeReads_of_kept {value : YamlValue} (kept : Kept value) : NodeReads value := by
  induction kept with
  | word filled allowed =>
      intro steps plainList rest enough
      simp only [tokens, List.length_singleton] at enough
      obtain ⟨steps, rfl⟩ : ∃ fewer, steps = fewer + 1 := ⟨steps - 1, by omega⟩
      rfl
  | text keeps =>
      intro steps plainList rest enough
      simp only [tokens, List.length_singleton] at enough
      obtain ⟨steps, rfl⟩ : ∃ fewer, steps = fewer + 1 := ⟨steps - 1, by omega⟩
      rfl
  | @list items kept reads =>
      intro steps plainList rest enough
      cases items with
      | nil =>
          simp only [tokens, List.length_cons] at enough
          obtain ⟨steps, rfl⟩ : ∃ fewer, steps = fewer + 2 := ⟨steps - 2, by omega⟩
          rfl
      | cons item items =>
          simp only [tokens, List.length_cons, List.length_append] at enough
          obtain ⟨steps, rfl⟩ : ∃ fewer, steps = fewer + 1 := ⟨steps - 1, by omega⟩
          have read := @readItems_itemTokens _ reads steps rest (by omega)
          simp only [tokens, List.cons_append, List.append_assoc, List.nil_append,
            readNode, if_true, read, asRead]
          rfl
  | @mapping entries keys kept reads =>
      intro steps plainList rest enough
      cases entries with
      | nil =>
          simp only [tokens, List.length_cons] at enough
          obtain ⟨steps, rfl⟩ : ∃ fewer, steps = fewer + 2 := ⟨steps - 2, by omega⟩
          rfl
      | cons entry entries =>
          simp only [tokens, List.length_cons, List.length_append] at enough
          obtain ⟨steps, rfl⟩ : ∃ fewer, steps = fewer + 1 := ⟨steps - 1, by omega⟩
          have read := @readEntries_entryTokens _ reads steps rest (by omega)
          simp only [tokens, List.cons_append, List.append_assoc, List.nil_append,
            readNode, if_true, read, asRead]
          rfl

end Tokens

section Characters

/-- Every character stands for itself in a document. -/
def Clean (text : String) : Prop :=
  ∀ char ∈ text.toList, isPlainChar char = true ∨ char = '\t'

theorem clean_append {first second : String} :
    Clean (first ++ second) ↔ Clean first ∧ Clean second := by
  simp [Clean, or_imp, forall_and]

theorem clean_empty : Clean "" := by
  intro char mem
  simp at mem

theorem clean_toString {char : Char} (clean : isPlainChar char = true ∨ char = '\t') :
    Clean char.toString := by
  intro other mem
  obtain rfl : other = char := by simpa using mem
  exact clean

theorem clean_literal {text : String} (plain : text.toList.all isPlainChar = true) :
    Clean text :=
  fun char mem => .inl (List.all_eq_true.mp plain char mem)

theorem clean_padding (width : ℕ) : Clean (padding width) := by
  intro char mem
  rw [padding, Text.toList_pushn, String.toList_empty, List.nil_append] at mem
  obtain rfl := List.eq_of_mem_replicate mem
  exact .inl rfl

theorem clean_of_allowsWord {body : String} (allowed : allowsWord body.toList = true) :
    Clean body :=
  fun char mem => .inl ((runs_of_allowsWord allowed).plain char mem).1

theorem clean_singleBody (width : ℕ) (broken : Bool) {chars : List Char}
    (plain : ∀ char ∈ chars, isPlainChar char = true) :
    Clean (singleBody width broken chars) := by
  induction chars generalizing broken with
  | nil => exact clean_empty
  | cons char chars ih =>
      have first := clean_toString (.inl (plain char List.mem_cons_self))
      have others broken := ih broken fun char mem =>
        plain char (List.mem_cons_of_mem _ mem)
      rw [singleBody]
      split
      · exact clean_append.mpr ⟨first, others true⟩
      · refine clean_append.mpr ⟨clean_append.mpr ⟨?_, ?_⟩, others false⟩
        · split
          · exact clean_padding width
          · exact clean_empty
        · split
          · exact clean_literal rfl
          · exact first

theorem clean_blockBody (width : ℕ) (place : BlockPlace) {chars : List Char}
    (clean : ∀ char ∈ chars, isPlainChar char = true ∨ char = '\t') :
    Clean (blockBody width place chars) := by
  induction chars generalizing place with
  | nil => exact clean_empty
  | cons char chars ih =>
      have first := clean_toString (clean char List.mem_cons_self)
      have others place := ih place fun char mem =>
        clean char (List.mem_cons_of_mem _ mem)
      rw [blockBody.eq_def]
      dsimp only
      split
      · exact clean_append.mpr ⟨first, others .lineStart⟩
      · refine clean_append.mpr ⟨clean_append.mpr ⟨?_, first⟩, others .line⟩
        cases place with
        | header => exact clean_append.mpr ⟨clean_literal rfl, clean_padding width⟩
        | lineStart => exact clean_padding width
        | line => exact clean_empty

theorem isPlainChar_digitChar : ∀ digit < 16, isPlainChar digit.digitChar = true ∧
    isPlainChar digit.digitChar.toUpper = true := by
  decide

theorem clean_blockHints (unit : ℕ) (chars : List Char) :
    Clean (blockHints unit chars) := by
  rw [blockHints]
  refine clean_append.mpr ⟨?_, ?_⟩
  · split
    · intro char mem
      obtain ⟨digit, small, rfl⟩ := Text.exists_digit_of_mem_toDigits
        (by norm_num : 1 < 10) (by simpa using mem : char ∈ Nat.toDigits 10 unit)
      exact .inl (isPlainChar_digitChar digit (by omega)).1
    · exact clean_empty
  · split
    · exact clean_literal rfl
    · split
      · exact clean_literal rfl
      · split
        · exact clean_literal rfl
        · exact clean_empty

theorem clean_escapeCode (char : Char) : Clean (escapeCode char) := by
  intro other mem
  rcases escapeCode_cases char with
    ⟨name, written, -, plain, -⟩ | ⟨mark, width, written, -, -, plain, -⟩
  · rw [written] at mem
    rcases List.mem_pair.mp mem with rfl | rfl
    · exact .inl rfl
    · exact .inl plain
  · rw [written, List.mem_cons, List.mem_cons] at mem
    rcases mem with rfl | rfl | digit
    · exact .inl rfl
    · exact .inl plain
    · obtain ⟨lower, inside, rfl⟩ : ∃ lower ∈ (Text.hexDigits width char.toNat).toList,
          lower.toUpper = other := by simpa [upperHex] using digit
      obtain ⟨value, small, rfl⟩ := Text.exists_digit_of_mem_hexDigits inside
      exact .inl (isPlainChar_digitChar value small).2

theorem clean_escapedChar (char : Char) : Clean (escapedChar char) := by
  rw [escapedChar]
  split
  · rename_i plain
    simp only [Bool.and_eq_true] at plain
    exact clean_toString (.inl plain.1.1.1)
  · exact clean_escapeCode char

theorem clean_doubleQuoted (chars : List Char) : Clean (doubleQuoted chars) := by
  obtain ⟨escape, escapes, written⟩ := toList_doubleQuoted chars
  have clean (char : Char) : Clean (escape char) := by
    rcases escapes with rfl | rfl
    · exact clean_escapeCode char
    · exact clean_escapedChar char
  intro char mem
  rw [written, List.mem_cons, List.mem_append, List.mem_singleton] at mem
  rcases mem with rfl | inside | rfl
  · exact .inl rfl
  · obtain ⟨source, -, inside⟩ := List.mem_flatMap.mp inside
    exact clean source char inside
  · exact .inl rfl

theorem clean_textForm (unit width : ℕ) (body : String) :
    Clean (textForm unit width body) := by
  rw [textForm]
  split
  · split
    · rename_i allowed
      simp only [allowsBlock, Bool.and_eq_true, List.all_eq_true, Bool.or_eq_true,
        beq_iff_eq] at allowed
      exact clean_append.mpr ⟨clean_append.mpr ⟨clean_literal rfl,
        clean_blockHints unit _⟩, clean_blockBody width .header allowed.1.1⟩
    · exact clean_doubleQuoted _
  · split
    · split
      · rename_i allowed
        exact clean_of_allowsWord allowed
      · split
        · rename_i allowed
          simp only [allowsSingle, Bool.and_eq_true, List.all_eq_true] at allowed
          exact clean_append.mpr ⟨clean_append.mpr ⟨clean_literal rfl,
            clean_singleBody width false allowed.1.1⟩, clean_literal rfl⟩
        · exact clean_doubleQuoted _
    · exact clean_doubleQuoted _

theorem clean_endLine {line : String} (clean : Clean line) : Clean (endLine line) := by
  rw [endLine]
  split
  · exact clean
  · exact clean_append.mpr ⟨clean, clean_literal rfl⟩

variable {unit : ℕ}

theorem clean_writeItems {items : List YamlValue} (column : ℕ)
    (clean : ∀ item ∈ items, Clean (afterDash unit column item)) :
    Clean (writeItems unit column items) := by
  induction items with
  | nil => exact clean_empty
  | cons item items ih =>
      have others := ih fun item mem => clean item (List.mem_cons_of_mem _ mem)
      exact clean_append.mpr ⟨clean_append.mpr ⟨clean_append.mpr ⟨clean_padding column,
        clean_literal rfl⟩, clean item List.mem_cons_self⟩, others⟩

theorem clean_writeEntries {entries : List (YamlValue × YamlValue)} (column : ℕ)
    (indented : Bool) (keys : ∀ entry ∈ entries, IsKey entry.1)
    (clean : ∀ entry ∈ entries, Clean (afterColon unit column entry.2)) :
    Clean (writeEntries unit column indented entries) := by
  induction entries generalizing indented with
  | nil => exact clean_empty
  | cons entry entries ih =>
      obtain ⟨key, value⟩ := entry
      obtain ⟨name, rfl, -, allowed, -⟩ := keys (key, value) List.mem_cons_self
      have others := ih true (fun entry mem => keys entry (List.mem_cons_of_mem _ mem))
        fun entry mem => clean entry (List.mem_cons_of_mem _ mem)
      have value := clean (word name, value) List.mem_cons_self
      rw [writeEntries]
      refine clean_append.mpr ⟨clean_append.mpr ⟨clean_append.mpr ⟨clean_append.mpr
        ⟨?_, clean_of_allowsWord allowed⟩, clean_literal rfl⟩, value⟩, others⟩
      split
      · exact clean_padding column
      · exact clean_empty

theorem clean_of_kept {value : YamlValue} (kept : Kept value) (column : ℕ) :
    Clean (afterColon unit column value) ∧ Clean (afterDash unit column value) := by
  have space : Clean " " := clean_literal rfl
  have newLine : Clean "\n" := clean_literal rfl
  induction kept generalizing column with
  | word filled allowed =>
      have line := clean_endLine (clean_append.mpr ⟨space, clean_of_allowsWord allowed⟩)
      exact ⟨by rwa [afterColon], by rwa [afterDash]⟩
  | @text body keeps =>
      have line width :=
        clean_endLine (clean_append.mpr ⟨space, clean_textForm unit width body⟩)
      exact ⟨by rw [afterColon]; exact line _, by rw [afterDash]; exact line _⟩
  | @list items kept clean =>
      have block column := clean_writeItems column fun item mem =>
        (clean item mem column).2
      cases items with
      | nil =>
          simp only [afterColon, afterDash]
          exact ⟨clean_literal rfl, clean_literal rfl⟩
      | cons item items =>
          simp only [afterColon, afterDash]
          exact ⟨clean_append.mpr ⟨newLine, block _⟩, clean_append.mpr ⟨newLine, block _⟩⟩
  | @mapping entries keys kept clean =>
      have block column indented := clean_writeEntries column indented keys
        fun entry mem => (clean entry mem column).1
      cases entries with
      | nil =>
          simp only [afterColon, afterDash]
          exact ⟨clean_literal rfl, clean_literal rfl⟩
      | cons entry entries =>
          simp only [afterColon, afterDash]
          exact ⟨clean_append.mpr ⟨newLine, block _ _⟩,
            clean_append.mpr ⟨space, block _ _⟩⟩

theorem Clean.isDocumentChar {char : Char}
    (clean : isPlainChar char = true ∨ char = '\t') :
    isDocumentChar char = true ∧ char ≠ '\r' ∧ char.toNat ≠ 0x85 ∧
      char.toNat ≠ 0xfeff := by
  rcases clean with plain | rfl
  · refine ⟨by simp [YamlValue.isDocumentChar, plain], ?_, ?_, ?_⟩
    · rintro rfl
      exact absurd plain (by decide)
    · intro same
      simp [isPlainChar, same, ← Char.toNat_inj] at plain
    · intro same
      simp [isPlainChar, same, ← Char.toNat_inj] at plain
  · decide

theorem unifyBreaks_eq_self {chars : List Char}
    (clean : ∀ char ∈ chars, char ≠ '\r' ∧ char.toNat ≠ 0x85) :
    unifyBreaks chars = chars := by
  induction chars with
  | nil => rfl
  | cons char chars ih =>
      obtain ⟨single, next⟩ := clean char List.mem_cons_self
      have others := ih fun char mem => clean char (List.mem_cons_of_mem _ mem)
      rw [unifyBreaks, if_neg (by simp [single, next]), others]
      rintro rest rfl
      exact absurd rfl single

end Characters

/-- A document of entries is read back, whatever its indentation. -/
theorem read?_document {unit : ℕ} (positive : 0 < unit) {entry : YamlValue × YamlValue}
    {entries : List (YamlValue × YamlValue)} (kept : Kept (mapping (entry :: entries))) :
    read? (document unit (mapping (entry :: entries))) =
      some (mapping (entry :: entries)).asRead := by
  obtain ⟨finished, found⟩ := tokens_ofChars_document positive kept
  have clean : Clean (document unit (mapping (entry :: entries))) := by
    cases kept with
    | mapping keys values =>
        exact clean_writeEntries 0 true keys fun other mem =>
          (clean_of_kept (values other mem) 0).1
  have plain : ∀ char ∈ (document unit (mapping (entry :: entries))).toList,
      isDocumentChar char = true ∧ char ≠ '\r' ∧ char.toNat ≠ 0x85 ∧
        char.toNat ≠ 0xfeff :=
    fun char mem => Clean.isDocumentChar (clean char mem)
  have unmarked : withoutOrderMark (document unit (mapping (entry :: entries))).toList =
      (document unit (mapping (entry :: entries))).toList := by
    generalize (document unit (mapping (entry :: entries))).toList = chars at plain
    cases chars with
    | nil => rfl
    | cons char chars => exact if_neg (plain char List.mem_cons_self).2.2.2
  have unified : unifyBreaks (document unit (mapping (entry :: entries))).toList =
      (document unit (mapping (entry :: entries))).toList :=
    unifyBreaks_eq_self fun char mem => ⟨(plain char mem).2.1, (plain char mem).2.2.1⟩
  have size := congrArg List.length found
  rw [Array.length_toList] at size
  have node (steps : ℕ) (enough : 4 * (mapping (entry :: entries)).tokens.length ≤
      steps) : readDocument steps ((mapping (entry :: entries)).tokens ++ [.textEnd]) =
        some ((mapping (entry :: entries)).asRead, [.textEnd]) :=
    nodeReads_of_kept kept false [.textEnd] enough
  rw [read?, unmarked, if_pos (List.all_eq_true.mpr fun char mem => (plain char mem).1),
    unified]
  dsimp only
  rw [found, node _ (by rw [size, List.length_append]; omega)]
  exact if_pos (by rw [YamlScan.allowsEndAt, finished, Bool.true_or])

end YamlValue

end CostTape
