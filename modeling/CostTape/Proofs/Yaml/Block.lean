import Mathlib.Data.List.Induction
import CostTape.Proofs.Yaml.Scalar

/-! Literal blocks are read as they were written. -/

namespace CostTape

namespace YamlValue

section LiteralBlock

variable {header : BlockHeader} {width index line column : ℕ} {char : Char}
  {chars rest : List Char}

theorem blockChars_spaces {last breaks : List Char} {startedBlank : Bool} {count : ℕ}
    (fits : column + count ≤ width) :
    blockChars header width (.lineStart last startedBlank breaks)
        (Spot.placeFrom index line column (List.replicate count ' ' ++ rest)) =
      blockChars header width (.lineStart last startedBlank breaks)
        (Spot.placeFrom (index + count) line (column + count) rest) := by
  induction count generalizing index column with
  | zero => rfl
  | succ count ih =>
      have inside : column < width := by omega
      rw [List.replicate_succ, List.cons_append,
        Spot.placeFrom_cons_of_not_isBreak (by decide), blockChars]
      simp only [beq_self_eq_true, inside, decide_true, Bool.and_self, if_true]
      rw [ih (by omega)]
      simp [Nat.add_assoc, Nat.add_comm 1]

theorem blockChars_break_of_line {startedBlank : Bool} (ends : isBreak char = true) :
    blockChars header width (.line startedBlank)
        (Spot.placeFrom index line column (char :: rest)) =
      blockChars header width (.lineStart [char] startedBlank [])
        (Spot.placeFrom (index + 1) (line + 1) 0 rest) := by
  rw [Spot.placeFrom_cons_of_isBreak ends, blockChars]
  simp [Spot.isBreak, ends]

theorem blockChars_break_of_lineStart {last breaks : List Char} {startedBlank : Bool}
    (ends : isBreak char = true) :
    blockChars header width (.lineStart last startedBlank breaks)
        (Spot.placeFrom index line column (char :: rest)) =
      blockChars header width (.lineStart last startedBlank (breaks ++ [char]))
        (Spot.placeFrom (index + 1) (line + 1) 0 rest) := by
  have solid : char ≠ ' ' := by
    rintro rfl
    cases ends
  rw [Spot.placeFrom_cons_of_isBreak ends, blockChars]
  simp [Spot.isBreak, ends, solid]

theorem blockChars_cons_of_line {startedBlank : Bool} (unbroken : isBreak char = false) :
    blockChars header width (.line startedBlank)
        (Spot.placeFrom index line column (char :: rest)) =
      (blockChars header width (.line startedBlank)
          (Spot.placeFrom (index + 1) line (column + 1) rest)).map
        fun (found, after) => (char :: found, after) := by
  rw [Spot.placeFrom_cons_of_not_isBreak unbroken, blockChars]
  simp [Spot.isBreak, unbroken]

/-- The first character of a line comes after all the breaks before it. -/
theorem blockChars_cons_of_lineStart {last breaks : List Char} {startedBlank : Bool}
    (literal : header.folded = false) (unbroken : isBreak char = false) :
    blockChars header width (.lineStart last startedBlank breaks)
        (Spot.placeFrom index line width (char :: rest)) =
      (blockChars header width (.line (isBlank char))
          (Spot.placeFrom (index + 1) line (width + 1) rest)).map
        fun (found, after) => (last ++ breaks ++ char :: found, after) := by
  rw [Spot.placeFrom_cons_of_not_isBreak unbroken, blockChars]
  simp [Spot.isBreak, Spot.isBlank, unbroken, joined, literal]

/-- What is taken up from a literal block and what is held back after its last line, the
breaks at its end; then the next character stands at a column. -/
inductive Leaves (chars : List Char) : List Char → BlockState → ℕ → Prop
  | line (startedBlank : Bool) (column : ℕ)
      (ends : ∀ last ∈ chars.getLast?, isBreak last = false) :
      Leaves chars chars (.line startedBlank) column
  | lineStart (taken : List Char) (first : Char) (startedBlank : Bool) (more : List Char)
      (split : chars = taken ++ first :: more)
      (breaks : ∀ char ∈ first :: more, isBreak char = true)
      (ends : ∀ last ∈ taken.getLast?, isBreak last = false) :
      Leaves chars taken (.lineStart [first] startedBlank more) 0

theorem Leaves.append_cons {taken : List Char} {state : BlockState}
    (leaves : Leaves chars taken state column) (before : List Char)
    (unbroken : isBreak char = false) :
    Leaves (before ++ char :: chars) (before ++ char :: taken) state column := by
  have last {list : List Char} (ends : ∀ last ∈ list.getLast?, isBreak last = false) :
      ∀ last ∈ (before ++ char :: list).getLast?, isBreak last = false := by
    cases list with
    | nil => simpa using unbroken
    | cons next list => simpa [List.getLast?_append] using ends
  cases leaves with
  | line startedBlank column ends => exact .line startedBlank column (last ends)
  | lineStart taken first startedBlank more split breaks ends =>
      exact .lineStart _ first startedBlank more (by simp [split]) breaks (last ends)

/-- From a state the block is read to the end of the characters as they are written. -/
def TakesUp (header : BlockHeader) (width : ℕ) (rest : List Char) (state : BlockState)
    (column : ℕ) (written held : List Char) : Prop :=
  ∀ index line, ∃ taken after index' line' column', Leaves held taken after column' ∧
    blockChars header width state (Spot.placeFrom index line column (written ++ rest)) =
      (blockChars header width after (Spot.placeFrom index' line' column' rest)).map
        fun (found, left) => (taken ++ found, left)

theorem takesUp_blockBody (literal : header.folded = false) :
    (∀ startedBlank column, TakesUp header width rest (.line startedBlank) column
      (blockBody width .line chars).toList chars) ∧
      ∀ first startedBlank more, (∀ char ∈ first :: more, isBreak char = true) →
        TakesUp header width rest (.lineStart [first] startedBlank more) 0
          (blockBody width .lineStart chars).toList (first :: more ++ chars) := by
  induction chars with
  | nil =>
      constructor
      · intro startedBlank column index line
        exact ⟨_, _, index, line, column,
          .line startedBlank column (by simp), by simp [blockBody]⟩
      · intro first startedBlank more breaks index line
        exact ⟨[], _, index, line, 0,
          .lineStart [] first startedBlank more (by simp) breaks
            (by simp), by simp [blockBody]⟩
  | cons char chars ih =>
      by_cases ends : isBreak char = true
      · constructor
        · intro startedBlank column index line
          obtain ⟨taken, after, index', line', column', leaves, read⟩ :=
            ih.2 char startedBlank [] (by simpa using ends) (index + 1) (line + 1)
          refine ⟨taken, after, index', line', column', by simpa using leaves, ?_⟩
          rw [blockBody, if_pos ends, String.toList_append, List.append_assoc,
            toList_toString_append, blockChars_break_of_line ends, read]
        · intro first startedBlank more breaks index line
          obtain ⟨taken, after, index', line', column', leaves, read⟩ :=
            ih.2 first startedBlank (more ++ [char])
              (List.forall_mem_append.mpr ⟨breaks, by simpa using ends⟩) (index + 1)
                (line + 1)
          refine ⟨taken, after, index', line', column', by simpa using leaves, ?_⟩
          rw [blockBody, if_pos ends, String.toList_append, List.append_assoc,
            toList_toString_append, blockChars_break_of_lineStart ends, read]
      · have unbroken : isBreak char = false := by simpa using ends
        constructor
        · intro startedBlank column index line
          obtain ⟨taken, after, index', line', column', leaves, read⟩ :=
            ih.1 startedBlank (column + 1) (index + 1) line
          refine ⟨char :: taken, after, index', line', column',
            leaves.append_cons [] unbroken, ?_⟩
          rw [blockBody, if_neg ends]
          simp only [String.toList_append, toList_toString_append, String.toList_empty,
            List.nil_append, List.cons_append]
          rw [blockChars_cons_of_line unbroken, read]
          simp [Function.comp_def]
        · intro first startedBlank more breaks index line
          obtain ⟨taken, after, index', line', column', leaves, read⟩ :=
            ih.1 (isBlank char) (width + 1) (index + width + 1) line
          refine ⟨first :: more ++ char :: taken, after, index', line', column',
            leaves.append_cons _ unbroken, ?_⟩
          rw [blockBody, if_neg ends]
          simp only [String.toList_append, List.append_assoc, toList_toString_append,
            padding, Text.toList_pushn, String.toList_empty, List.nil_append,
            List.cons_append]
          rw [blockChars_spaces (by omega), Nat.zero_add,
            blockChars_cons_of_lineStart literal unbroken, read]
          simp [Function.comp_def]

/-- The block ends before a line that stands further left. -/
theorem blockChars_end {last breaks : List Char} {startedBlank : Bool} {count : ℕ}
    (filled : ∀ next ∈ rest.head?, isBlank next = false ∧ isBreak next = false)
    (left : count < width) :
    blockChars header width (.lineStart last startedBlank breaks)
        (Spot.placeFrom index line 0 (List.replicate count ' ' ++ rest)) =
      some (blockChars.ending header (.lineStart last startedBlank breaks),
        Spot.placeFrom (index + count) line count rest) := by
  rw [blockChars_spaces (by omega), Nat.zero_add]
  cases rest with
  | nil => rfl
  | cons next rest =>
      obtain ⟨solid, unbroken⟩ := filled next rfl
      simp only [isBlank, Bool.or_eq_false_iff] at solid
      rw [Spot.placeFrom_cons_of_not_isBreak unbroken, blockChars]
      simp [Spot.isBreak, solid.1, solid.2, unbroken, left]

/-- The header that a text gets which starts with neither a blank nor a break. -/
def headerFor (chars : List Char) : BlockHeader where
  folded := false
  indentation := none
  lastBreaks :=
    match chars.reverse with
    | [] => .none
    | last :: earlier =>
        if !isBreak last then .none else if earlier.head?.all isBreak then .all else .one

theorem read_break :
    BlockHeader.read false (Spot.placeFrom index line column ('\n' :: rest)) =
      some (⟨false, none, .one⟩, Spot.placeFrom (index + 1) (line + 1) 0 rest) := by
  rw [Spot.placeFrom_cons_of_isBreak (by decide), BlockHeader.read]
  simp [Spot.isBreak, Spot.isBlank, isBreak, isBlank]

theorem read_mark_break {mark : Char} (solid : isBlank mark = false)
    (unbroken : isBreak mark = false) (uncommented : mark ≠ '#')
    (added : BlockHeader.addMark ⟨false, none, .one⟩ mark = some header) :
    BlockHeader.read false (Spot.placeFrom index line column (mark :: '\n' :: rest)) =
      some (header, Spot.placeFrom (index + 1 + 1) (line + 1) 0 rest) := by
  have blank : isBlank '\n' = false := rfl
  have ends : isBreak '\n' = true := rfl
  rw [Spot.placeFrom_cons_of_not_isBreak unbroken, Spot.placeFrom_cons_of_isBreak ends,
    BlockHeader.read]
  simp [Spot.isBreak, Spot.isBlank, solid, unbroken, uncommented, added, blank, ends]

theorem read_blockHints (unit : ℕ)
    (filled : ∀ first ∈ chars.head?, isBlank first = false ∧ isBreak first = false) :
    ∃ index', BlockHeader.read false
        (Spot.placeFrom index line column
          ((blockHints unit chars).toList ++ '\n' :: rest)) =
      some (headerFor chars, Spot.placeFrom index' (line + 1) 0 rest) := by
  have unhinted : (chars.head?.any fun char => char == ' ' || isBreak char) = false := by
    cases chars with
    | nil => rfl
    | cons first chars =>
        obtain ⟨solid, unbroken⟩ := filled first rfl
        simp only [isBlank, Bool.or_eq_false_iff] at solid
        simp [solid.1, unbroken]
  have stripped : BlockHeader.addMark ⟨false, none, .one⟩ '-' =
    some ⟨false, none, .none⟩ := rfl
  have kept : BlockHeader.addMark ⟨false, none, .one⟩ '+' = some ⟨false, none, .all⟩ :=
    rfl
  have dash : ("-" : String).toList = ['-'] := rfl
  have plus : ("+" : String).toList = ['+'] := rfl
  simp only [blockHints, headerFor, unhinted, Bool.false_eq_true, if_false,
    String.empty_append]
  cases chars.reverse with
  | nil =>
      simp only [dash]
      exact ⟨_, read_mark_break (by decide) (by decide) (by decide) stripped⟩
  | cons last earlier =>
      cases ends : isBreak last with
      | false =>
          simp only [ends, dash, Bool.not_false, if_true]
          exact ⟨_, read_mark_break (by decide) (by decide) (by decide) stripped⟩
      | true =>
          cases several : earlier.head?.all isBreak with
          | true =>
              simp only [ends, several, plus, Bool.not_true, Bool.false_eq_true,
                if_false, if_true]
              exact ⟨_, read_mark_break (by decide) (by decide) (by decide) kept⟩
          | false =>
              simp only [ends, several, Bool.not_true, Bool.false_eq_true, if_false,
                String.toList_empty, List.nil_append]
              exact ⟨_, read_break⟩

theorem blockIndentation_spaces {least count : ℕ} (solid : isBlank char = false)
    (unbroken : isBreak char = false) :
    blockIndentation least
        (Spot.placeFrom index line column (List.replicate count ' ' ++ char :: rest)) =
      some (max least (column + count)) := by
  induction count generalizing least index column with
  | zero =>
      simp only [isBlank, Bool.or_eq_false_iff, beq_eq_false_iff_ne] at solid
      rw [List.replicate_zero, List.nil_append,
        Spot.placeFrom_cons_of_not_isBreak unbroken, blockIndentation]
      simp [Spot.isBreak, solid.1, solid.2, unbroken]
  | succ count ih =>
      rw [List.replicate_succ, List.cons_append,
        Spot.placeFrom_cons_of_not_isBreak (by decide), blockIndentation]
      simp only [beq_self_eq_true, if_true, ih]
      congr 1
      omega

theorem lastBreaks_headerFor (ends : ∀ last ∈ chars.getLast?, isBreak last = false) :
    (headerFor chars).lastBreaks = .none := by
  rw [List.getLast?_eq_head?_reverse] at ends
  unfold headerFor
  cases backwards : chars.reverse with
  | nil => rfl
  | cons last earlier => simp [ends last (by simp [backwards])]

theorem ending_headerFor {taken more : List Char} {first : Char} (startedBlank : Bool)
    (filled : taken ≠ []) (ends : ∀ last ∈ taken.getLast?, isBreak last = false)
    (breaks : ∀ char ∈ first :: more, isBreak char = true) :
    blockChars.ending (headerFor (taken ++ first :: more))
    (.lineStart [first] startedBlank more) =
      first :: more := by
  obtain ⟨firstBreak, moreBreaks⟩ := List.forall_mem_cons.mp breaks
  cases more using List.reverseRecOn with
  | nil =>
      obtain ⟨last, isLast⟩ : ∃ last, taken.getLast? = some last :=
        ⟨_, List.getLast?_eq_some_getLast filled⟩
      have before : taken.reverse.head? = some last := by
        rw [← List.getLast?_eq_head?_reverse, isLast]
      simp [blockChars.ending, headerFor, firstBreak, before, ends last isLast]
  | append_singleton more last _ =>
      have lastBreak := moreBreaks last (by simp)
      have before : isBreak (more.getLast?.getD first) = true := by
        cases earlier : more.getLast? with
        | none => exact firstBreak
        | some other =>
            exact moreBreaks other (List.mem_append_left _ (List.mem_of_getLast? earlier))
      simp [blockChars.ending, headerFor, lastBreak, before]

/-- The end of a line, unless a text has ended it. -/
def lineEnd (chars : List Char) : List Char :=
  if chars.getLast?.any isBreak then [] else ['\n']

theorem toList_endLine (text : String) :
    (endLine text).toList = text.toList ++ lineEnd text.toList := by
  unfold endLine lineEnd
  split
  · simp
  · simp

theorem lineEnd_append {before : List Char} (filled : chars ≠ []) :
    lineEnd (before ++ chars) = lineEnd chars := by
  simp [lineEnd, List.getLast?_append, List.getLast?_eq_some_getLast filled]

theorem lineEnd_of_not_isBreak (ends : ∀ last ∈ chars.getLast?, isBreak last = false) :
    lineEnd chars = ['\n'] := by
  cases last : chars.getLast? with
  | none => simp [lineEnd, last]
  | some final => simp [lineEnd, last, ends final last]

theorem getLast?_cons_not_isBreak (unbroken : isBreak char = false)
    (ends : ∀ last ∈ chars.getLast?, isBreak last = false) :
    ∀ last ∈ (char :: chars).getLast?, isBreak last = false := by
  cases chars with
  | nil => simpa using unbroken
  | cons next chars => simpa using ends

/-- What is held back is what the header says about the breaks at the end. -/
theorem Leaves.blockChars {taken : List Char} {state : BlockState} {count : ℕ}
    (leaves : Leaves chars taken state column) (unbroken : isBreak char = false)
    (filled : ∀ next ∈ rest.head?, isBlank next = false ∧ isBreak next = false)
    (left : count < width) :
    ∃ held index' line', taken ++ held = chars ∧
      YamlValue.blockChars (headerFor (char :: chars)) width state
          (Spot.placeFrom index line column
            (lineEnd (char :: chars) ++ (List.replicate count ' ' ++ rest))) =
        some (held, Spot.placeFrom index' line' count rest) := by
  cases leaves with
  | line startedBlank column ends =>
      have last := getLast?_cons_not_isBreak unbroken ends
      refine ⟨[], index + 1 + count, line + 1, by simp, ?_⟩
      rw [lineEnd_of_not_isBreak last, List.singleton_append,
        blockChars_break_of_line (by decide), blockChars_end filled left,
        blockChars.ending, lastBreaks_headerFor last]
  | lineStart taken first startedBlank more split breaks ends =>
      have closed : lineEnd (char :: chars) = [] := by
        obtain ⟨final, isFinal⟩ : ∃ final, (first :: more).getLast? = some final :=
          ⟨_, List.getLast?_eq_some_getLast (by simp)⟩
        have whole : (char :: chars).getLast? = some final := by
          rw [split, ← List.cons_append, List.getLast?_append, isFinal]
          rfl
        rw [lineEnd, whole]
        simp [breaks final (List.mem_of_getLast? isFinal)]
      refine ⟨first :: more, index + count, line, split.symm, ?_⟩
      have ending := ending_headerFor startedBlank (List.cons_ne_nil char taken)
        (getLast?_cons_not_isBreak unbroken ends) breaks
      rw [closed, List.nil_append, blockChars_end filled left, split, ← List.cons_append,
        ending]

theorem readBlockText_literal {unit least count : ℕ} (inside : least ≤ width)
    (solid : isBlank char = false) (unbroken : isBreak char = false)
    (filled : ∀ next ∈ rest.head?, isBlank next = false ∧ isBreak next = false)
    (left : count < width) :
    ∃ index' line', readBlockText false least (Spot.placeFrom index line column
        ((blockHints unit (char :: chars)).toList ++
          ((blockBody width .header (char :: chars)).toList ++
            (lineEnd (char :: chars) ++ (List.replicate count ' ' ++ rest))))) =
      some (text (String.ofList (char :: chars)),
        Spot.placeFrom index' line' count rest) := by
  have body : (blockBody width .header (char :: chars)).toList =
      '\n' ::
        (List.replicate width ' ' ++ char :: (blockBody width .line chars).toList) := by
    rw [blockBody, if_neg (by simp [unbroken])]
    simp [padding, Text.toList_pushn]
  have head : ∀ first ∈ (char :: chars).head?, isBlank first = false ∧
      isBreak first = false := by
    simpa using ⟨solid, unbroken⟩
  obtain ⟨start, headed⟩ := @read_blockHints index line column (char :: chars)
    (List.replicate width ' ' ++ char ::
      ((blockBody width .line chars).toList ++
        (lineEnd (char :: chars) ++ (List.replicate count ' ' ++ rest)))) unit head
  obtain ⟨taken, state, place, line', column', leaves, read⟩ :=
    (@takesUp_blockBody (headerFor (char :: chars)) width chars
      (lineEnd (char :: chars) ++ (List.replicate count ' ' ++ rest)) rfl).1
        (isBlank char)
      (width + 1) (start + width + 1) (line + 1)
  obtain ⟨held, index'', line'', complete, ended⟩ :=
    @Leaves.blockChars width place line' column'
    char chars rest taken state count leaves unbroken filled left
  have indented : blockIndentation (max least 1) (Spot.placeFrom start (line + 1) 0
      (List.replicate width ' ' ++ char :: ((blockBody width .line chars).toList ++
        (lineEnd (char :: chars) ++ (List.replicate count ' ' ++ rest))))) =
          some width := by
    rw [blockIndentation_spaces solid unbroken]
    congr 1
    omega
  have unindented : (headerFor (char :: chars)).indentation = none := rfl
  refine ⟨index'', line'', ?_⟩
  rw [body, List.cons_append, List.append_assoc, List.cons_append]
  simp only [readBlockText, headed, unindented, indented, Option.bind_eq_bind,
    Option.bind_some]
  rw [blockChars_spaces (by omega), Nat.zero_add,
    blockChars_cons_of_lineStart rfl unbroken, read, ended]
  simp [complete]

theorem getLast?_blockBody (place : BlockPlace) :
    (blockBody width place chars).toList.getLast? = chars.getLast? := by
  induction chars generalizing place with
  | nil => rfl
  | cons char chars ih =>
      have further (before : List Char) (next : BlockPlace) :
          (before ++ char :: (blockBody width next chars).toList).getLast? =
            (char :: chars).getLast? := by
        rw [List.getLast?_append, List.getLast?_cons, List.getLast?_cons, ih]
        rfl
      by_cases ends : isBreak char = true
      · rw [blockBody.eq_def]
        simpa [ends] using further [] .lineStart
      · rw [blockBody.eq_def]
        simp only [if_neg ends, String.toList_append, List.append_assoc,
          toList_toString_append]
        exact further _ .line

/-- A literal block ends with the last character of its text. -/
theorem lineEnd_literalBlock (unit : ℕ) :
    lineEnd (literalBlock unit width (char :: chars)).toList =
      lineEnd (char :: chars) := by
  have last := @getLast?_blockBody width (char :: chars) .header
  rw [literalBlock, String.toList_append, lineEnd, List.getLast?_append, last, lineEnd,
    List.getLast?_cons]
  rfl

end LiteralBlock

end YamlValue

end CostTape
