import CostTape.Proofs.Text.Hexadecimal
import CostTape.Proofs.Yaml.Scan

/-! The scalars of a YAML text are read as they were written. -/

namespace CostTape

namespace ScalarGap

theorem isLines_addBlank {gap : ScalarGap} (within : gap.isLines = false) (char : Char) :
    (gap.addBlank char).isLines = false := by
  cases gap with
  | lines first more => cases within
  | _ => rfl

theorem chars_addBlank {gap : ScalarGap} (within : gap.isLines = false) (char : Char) :
    (gap.addBlank char).chars = gap.chars ++ [char] := by
  cases gap with
  | lines first more => cases within
  | _ => rfl

end ScalarGap

namespace YamlValue

theorem hasPair_cons_eq_false {first second : Char → Bool} {char : Char}
    {chars : List Char} : hasPair first second (char :: chars) = false ↔
      (first char = true → ∀ next ∈ chars.head?, second next = false) ∧
        hasPair first second chars = false := by
  cases chars with
  | nil => simp [hasPair]
  | cons next chars =>
      rw [hasPair, Bool.or_eq_false_iff]
      cases first char <;> simp

/-- The rest of a word from one of its characters on. -/
structure Runs (chars : List Char) : Prop where
  plain : ∀ char ∈ chars, isPlainChar char = true ∧ isBreak char = false
  colons : hasPair (· == ':') isBlank chars = false
  marks : hasPair (fun char => isBlank char || isBreak char || char.toNat == 0) (· == '#')
    chars = false
  last : ∀ char ∈ chars.getLast?, char ≠ ':' ∧ char ≠ ' '

theorem Runs.tail {char next : Char} {chars : List Char}
    (runs : Runs (char :: next :: chars)) : Runs (next :: chars) where
  plain := fun other mem => runs.plain other (List.mem_cons_of_mem _ mem)
  colons := (Bool.or_eq_false_iff.mp runs.colons).2
  marks := (Bool.or_eq_false_iff.mp runs.marks).2
  last := by simpa using runs.last

theorem runs_of_allowsWord {chars : List Char} (allowed : allowsWord chars = true) :
    Runs chars := by
  simp only [allowsWord, hasMark, endsInSpace, Bool.and_eq_true, Bool.not_eq_true',
    Bool.or_eq_false_iff, List.all_eq_true, beq_eq_false_iff_ne, ne_eq] at allowed
  obtain ⟨⟨⟨⟨-, space⟩, -⟩, ⟨colons, colon⟩, marks⟩, plain⟩ := allowed
  refine ⟨plain, colons, marks, fun char last => ⟨?_, ?_⟩⟩
  · rintro rfl
    exact colon last
  · rintro rfl
    exact space last

theorem eq_of_isBreak {char : Char} (ends : isBreak char = true) :
    char = '\n' ∨ char = '\r' ∨ char = Char.ofNat 0x85 ∨ char = Char.ofNat 0x2028 ∨
      char = Char.ofNat 0x2029 := by
  have code (number : ℕ) (same : char.toNat = number) : char = Char.ofNat number := by
    rw [← same, Char.ofNat_toNat]
  simp only [isBreak, Bool.or_eq_true, beq_iff_eq] at ends
  rcases ends with (((feed | carriage) | next) | separator) | separator
  · exact .inl feed
  · exact .inr (.inl carriage)
  · exact .inr (.inr (.inl (code _ next)))
  · exact .inr (.inr (.inr (.inl (code _ separator))))
  · exact .inr (.inr (.inr (.inr (code _ separator))))

theorem toList_toString_append (char : Char) (tail : List Char) :
    char.toString.toList ++ tail = char :: tail := by
  simp

theorem eq_space_of_isBlank {char : Char} (plain : isPlainChar char = true)
    (blank : isBlank char = true) : char = ' ' := by
  rcases (by simpa [isBlank] using blank : char = ' ' ∨ char = '\t') with rfl | rfl
  · rfl
  · cases plain

theorem isDivider_of_column_pos {index line column : ℕ} (right : 0 < column)
    (chars : List Char) :
    Spot.isDivider (Spot.placeFrom index line column chars) = false := by
  cases chars with
  | nil => rfl
  | cons char chars =>
      rw [Spot.placeFrom]
      generalize (if isBreak char = true then _ else _) = after
      rcases after with - | ⟨second, - | ⟨third, rest⟩⟩
      · rfl
      · rfl
      · simp [Spot.isDivider, Nat.ne_of_gt right]

section Word

variable {gap : ScalarGap} {least index line column : ℕ} {char : Char}
    {chars rest : List Char}

theorem wordChars_cons_of_isBlank (within : gap.isLines = false)
    (blank : isBlank char = true) (unbroken : isBreak char = false) :
    wordChars false least gap (Spot.placeFrom index line column (char :: rest)) =
      wordChars false least (gap.addBlank char)
        (Spot.placeFrom (index + 1) line (column + 1) rest) := by
  rw [Spot.placeFrom_cons_of_not_isBreak unbroken, wordChars]
  simp [Spot.isBlank, blank, within]

theorem wordChars_cons_of_not_isBlank (solid : isBlank char = false)
    (unbroken : isBreak char = false)
    (follows : gap.isNone = false → least ≤ column ∧ 0 < column ∧ char ≠ '#')
    (unmarked : char = ':' → ∀ next ∈ rest.head?, isBlank next = false ∧
      isBreak next = false)
    (last : char = ':' → rest ≠ []) :
    wordChars false least gap (Spot.placeFrom index line column (char :: rest)) =
      (wordChars false least .none (Spot.placeFrom (index + 1) line (column + 1)
        rest)).map
        fun (found, newLine, after) => (gap.chars ++ char :: found, newLine, after) := by
  have joined : (char == ':' &&
      Spot.endsWord (Spot.placeFrom (index + 1) line (column + 1) rest)) = false := by
    rw [Spot.endsWord_placeFrom, Bool.and_eq_false_iff]
    by_cases colon : char = ':'
    · right
      cases rest with
      | nil => exact absurd rfl (last colon)
      | cons next rest => simp [unmarked colon next rfl]
    · left
      simpa using colon
  have goesOn : (!gap.isNone && (char == '#' ||
      Spot.isDivider (Spot.placeFrom index line column (char :: rest)) ||
        !false && decide (column < least))) = false := by
    cases none : gap.isNone with
    | true => rfl
    | false =>
        obtain ⟨reached, right, uncommented⟩ := follows none
        simp [isDivider_of_column_pos right, uncommented, reached]
  rw [Spot.placeFrom_cons_of_not_isBreak unbroken] at goesOn ⊢
  rw [wordChars]
  simp only [Spot.isBlank, Spot.isBreak, solid, unbroken, goesOn, joined, Bool.false_and,
    Bool.or_false, Bool.false_eq_true, if_false]

/-- A stretch of a word is taken up together with the blanks before it. -/
theorem wordChars_append (runs : Runs chars) (filled : chars ≠ [])
    (within : gap.isLines = false) (reaches : least ≤ column + 1)
    (follows : gap.isNone = false → least ≤ column ∧ 0 < column ∧
      chars.head? ≠ some '#') :
    wordChars false least gap (Spot.placeFrom index line column (chars ++ rest)) =
      (wordChars false least .none
          (Spot.placeFrom (index + chars.length) line (column + chars.length) rest)).map
        fun (found, newLine, after) => (gap.chars ++ chars ++ found, newLine, after) := by
  induction chars generalizing gap index column with
  | nil => exact absurd rfl filled
  | cons char chars ih =>
      obtain ⟨plain, unbroken⟩ := runs.plain char List.mem_cons_self
      have uncommented (other : gap.isNone = false) : char ≠ '#' := by
        simpa using (follows other).2.2
      rw [List.cons_append]
      cases chars with
      | nil =>
          obtain ⟨colon, space⟩ := runs.last char rfl
          have solid : isBlank char = false := by
            rw [Bool.eq_false_iff]
            exact fun blank => space (eq_space_of_isBlank plain blank)
          rw [wordChars_cons_of_not_isBlank solid unbroken
            (fun other => ⟨(follows other).1, (follows other).2.1, uncommented other⟩)
            (fun same => absurd same colon) (fun same => absurd same colon)]
          simp
      | cons next chars =>
          have tail := runs.tail
          by_cases blank : isBlank char = true
          · have mark : next ≠ '#' := by
              have apart := (Bool.or_eq_false_iff.mp runs.marks).1
              simpa [blank] using apart
            rw [wordChars_cons_of_isBlank within blank unbroken,
              ih tail (by simp) (ScalarGap.isLines_addBlank within char) (by omega)
                (fun _ => ⟨by omega, by omega, by simpa using mark⟩),
              ScalarGap.chars_addBlank within]
            simp [Nat.add_assoc, Nat.add_comm 1]
          · have solid : isBlank char = false := by simpa using blank
            have colons (colon : char = ':') :
                ∀ other ∈ (next :: chars ++ rest).head?,
                  isBlank other = false ∧ isBreak other = false := by
              intro other first
              cases first
              have apart := (Bool.or_eq_false_iff.mp runs.colons).1
              simp only [colon, beq_self_eq_true, Bool.true_and] at apart
              exact ⟨apart, (runs.plain next (by simp)).2⟩
            rw [wordChars_cons_of_not_isBlank solid unbroken
                (fun other => ⟨(follows other).1, (follows other).2.1, uncommented other⟩)
                colons (by simp),
              ih tail (by simp) rfl (by omega) (by simp [ScalarGap.isNone])]
            simp [Nat.add_assoc, Nat.add_comm 1, Function.comp_def, ScalarGap.chars]

/-- A word ends before a colon that is followed by a blank or a line break. -/
theorem wordChars_colon (apart : ∀ next ∈ rest.head?, isBlank next = true ∨
    isBreak next = true) :
    wordChars false least .none (Spot.placeFrom index line column (':' :: rest)) =
      some ([], false, Spot.placeFrom index line column (':' :: rest)) := by
  have alone : Spot.endsWord (Spot.placeFrom (index + 1) line (column + 1) rest) =
      true := by
    rw [Spot.endsWord_placeFrom]
    cases rest with
    | nil => rfl
    | cons next rest => simpa using apart next rfl
  rw [Spot.placeFrom_cons_of_not_isBreak (by decide), wordChars]
  simp [Spot.isBlank, Spot.isBreak, isBlank, isBreak, ScalarGap.isNone,
    ScalarGap.isLines, alone]

theorem wordChars_spaces (first : Option Char) (more : List Char) (width : ℕ) :
    wordChars false least (.lines first more)
        (Spot.placeFrom index line column (List.replicate width ' ' ++ rest)) =
      wordChars false least (.lines first more)
        (Spot.placeFrom (index + width) line (column + width) rest) := by
  induction width generalizing index column with
  | zero => rfl
  | succ width ih =>
      rw [List.replicate_succ, List.cons_append,
        Spot.placeFrom_cons_of_not_isBreak (by decide), wordChars]
      simp [Spot.isBlank, isBlank, ScalarGap.addBlank, ih, Nat.add_assoc, Nat.add_comm 1]

/-- A word ends before a line that stands further left than it may go on. -/
theorem wordChars_break {width : ℕ}
    (filled : ∀ next ∈ rest.head?, isBlank next = false ∧ isBreak next = false)
    (left : rest = [] ∨ width < least) :
    wordChars false least .none
        (Spot.placeFrom index line column ('\n' :: (List.replicate width ' ' ++ rest))) =
      some ([], true, Spot.placeFrom (index + 1 + width) (line + 1) width rest) := by
  have broken : wordChars false least .none
      (Spot.placeFrom index line column ('\n' :: (List.replicate width ' ' ++ rest))) =
      wordChars false least (.lines (some '\n') [])
        (Spot.placeFrom (index + 1) (line + 1) 0 (List.replicate width ' ' ++ rest)) := by
    rw [Spot.placeFrom_cons_of_isBreak (by decide), wordChars]
    simp [Spot.isBlank, Spot.isBreak, isBlank, isBreak, ScalarGap.addBreak]
  rw [broken, wordChars_spaces, Nat.zero_add]
  cases rest with
  | nil => rfl
  | cons next rest =>
      obtain ⟨solid, unbroken⟩ := filled next rfl
      have outside : width < least := by simpa using left
      rw [Spot.placeFrom_cons_of_not_isBreak unbroken, wordChars]
      simp [Spot.isBlank, Spot.isBreak, solid, unbroken, outside, ScalarGap.isNone,
        ScalarGap.isLines]

end Word

section SingleQuoted

variable {gap : ScalarGap} {index line column : ℕ} {char : Char} {chars rest : List Char}

theorem isDivider_of_ne (dash : char ≠ '-') (dot : char ≠ '.') :
    Spot.isDivider (Spot.placeFrom index line column (char :: chars)) = false := by
  apply YamlScan.isDivider_placeFrom
  simp [YamlScan.Undivided, List.isPrefixOf, dash.symm, dot.symm]

/-- The step at a character that is neither blank nor a break. -/
theorem singleChars_of_solid {spot : Spot} {spots : List Spot}
    (divided : Spot.isDivider (spot :: spots) = false) (solid : spot.isBlank = false)
    (unbroken : spot.isBreak = false) :
    singleChars gap (spot :: spots) =
      if spot.char = '\'' then
        if spots.head?.map Spot.char = some '\'' then
          (singleChars .none spots.tail).map fun (found, after) =>
            (gap.chars ++ '\'' :: found, after)
        else some (gap.chars, spots)
      else
        (singleChars .none spots).map fun (found, after) =>
          (gap.chars ++ spot.char :: found, after) := by
  rw [singleChars.eq_def]
  simp only [solid, unbroken, divided, beq_iff_eq, Bool.false_eq_true, if_false]
  cases spots with
  | nil => simp
  | cons next spots => simp

theorem singleChars_cons (solid : isBlank char = false) (unbroken : isBreak char = false)
    (quote : char ≠ '\'') (right : 0 < column) :
    singleChars gap (Spot.placeFrom index line column (char :: rest)) =
      (singleChars .none (Spot.placeFrom (index + 1) line (column + 1) rest)).map
        fun (found, after) => (gap.chars ++ char :: found, after) := by
  have divided := @isDivider_of_column_pos index line column right (char :: rest)
  rw [Spot.placeFrom_cons_of_not_isBreak unbroken] at divided ⊢
  rw [singleChars_of_solid divided solid unbroken, if_neg quote]

theorem singleChars_quote_quote :
    singleChars gap (Spot.placeFrom index line column ('\'' :: '\'' :: rest)) =
      (singleChars .none (Spot.placeFrom (index + 2) line (column + 2) rest)).map
        fun (found, after) => (gap.chars ++ '\'' :: found, after) := by
  have divided := @isDivider_of_ne index line column '\'' ('\'' :: rest) (by decide)
    (by decide)
  rw [Spot.placeFrom_cons_of_not_isBreak (by decide),
    Spot.placeFrom_cons_of_not_isBreak (by decide)] at divided ⊢
  rw [singleChars_of_solid divided rfl rfl, if_pos rfl, List.head?_cons, Option.map_some,
    if_pos rfl, List.tail_cons]

theorem singleChars_quote (other : rest.head? ≠ some '\'') :
    singleChars gap (Spot.placeFrom index line column ('\'' :: rest)) =
      some (gap.chars, Spot.placeFrom (index + 1) line (column + 1) rest) := by
  have divided := @isDivider_of_ne index line column '\'' rest (by decide) (by decide)
  rw [Spot.placeFrom_cons_of_not_isBreak (by decide)] at divided ⊢
  have last : (Spot.placeFrom (index + 1) line (column + 1) rest).head?.map Spot.char ≠
      some '\'' := by
    cases rest with
    | nil => simp [Spot.placeFrom]
    | cons next rest => exact other
  rw [singleChars_of_solid divided rfl rfl, if_pos rfl, if_neg last]

theorem singleChars_cons_of_isBlank (blank : isBlank char = true)
    (unbroken : isBreak char = false) :
    singleChars gap (Spot.placeFrom index line column (char :: rest)) =
      singleChars (gap.addBlank char)
        (Spot.placeFrom (index + 1) line (column + 1) rest) := by
  rw [Spot.placeFrom_cons_of_not_isBreak unbroken, singleChars.eq_def]
  simp [Spot.isBlank, blank]

theorem singleChars_spaces (first : Option Char) (more : List Char) (width : ℕ) :
    singleChars (.lines first more)
        (Spot.placeFrom index line column (List.replicate width ' ' ++ rest)) =
      singleChars (.lines first more)
        (Spot.placeFrom (index + width) line (column + width) rest) := by
  induction width generalizing index column with
  | zero => rfl
  | succ width ih =>
      rw [List.replicate_succ, List.cons_append,
        singleChars_cons_of_isBlank rfl (by decide), ScalarGap.addBlank, ih]
      simp only [Nat.add_assoc, Nat.add_comm 1]

theorem singleChars_cons_of_isBreak (ends : isBreak char = true) :
    singleChars gap (Spot.placeFrom index line column (char :: rest)) =
      singleChars (gap.addBreak char) (Spot.placeFrom (index + 1) (line + 1) 0 rest) := by
  have solid : isBlank char = false := by
    rw [Bool.eq_false_iff]
    intro blank
    rcases (by simpa [isBlank] using blank : char = ' ' ∨ char = '\t') with rfl | rfl <;>
      cases ends
  rw [Spot.placeFrom_cons_of_isBreak ends, singleChars.eq_def]
  simp [Spot.isBlank, Spot.isBreak, solid, ends]

/-- What has been met before the rest of a single quoted text: nothing, blanks that go on,
or breaks at whose lines the text goes on. -/
inductive Precedes (chars : List Char) : ScalarGap → Bool → Prop
  | none : Precedes chars .none false
  | blanks (blanks : List Char) (inside : ∀ char ∈ chars.head?, isBreak char = false) :
      Precedes chars (.blanks blanks) false
  | lines (first : Char) (more : List Char) (other : first ≠ '\n')
      (solid : ∀ char ∈ chars.head?, char ≠ ' ') :
      Precedes chars (.lines (some first) more) true

theorem ScalarGap.chars_addBreak {broken : Bool}
    (precedes : Precedes (char :: chars) gap broken) (ends : isBreak char = true)
    (other : char ≠ '\n') : (gap.addBreak char).chars = gap.chars ++ [char] := by
  cases precedes with
  | none => simp [ScalarGap.addBreak, ScalarGap.chars, other]
  | blanks blanks inside => simp [inside char rfl] at ends
  | lines first more unlike solid => simp [ScalarGap.addBreak, ScalarGap.chars, unlike]

theorem Precedes.addBreak {broken : Bool} (precedes : Precedes (char :: chars) gap broken)
    (ends : isBreak char = true) (other : char ≠ '\n')
    (solid : ∀ next ∈ chars.head?, next ≠ ' ') :
    Precedes chars (gap.addBreak char) true := by
  cases precedes with
  | none => exact .lines char [] other solid
  | blanks blanks inside => simp [inside char rfl] at ends
  | lines first more unlike _ => exact .lines first (more ++ [char]) unlike solid

theorem Precedes.addBlank {broken : Bool} (precedes : Precedes (char :: chars) gap broken)
    (space : char = ' ') (inside : ∀ next ∈ chars.head?, isBreak next = false) :
    gap.isLines = false ∧ Precedes chars (gap.addBlank char) false := by
  cases precedes with
  | none => exact ⟨rfl, .blanks [char] inside⟩
  | blanks blanks _ => exact ⟨rfl, .blanks (blanks ++ [char]) inside⟩
  | lines first more unlike solid => exact absurd space (solid char rfl)

theorem singleChars_padding {broken : Bool} {width : ℕ} (wide : 0 < width)
    (precedes : Precedes chars gap broken) (right : broken = false → 0 < column)
    (index line : ℕ) :
    ∃ index' column', 0 < column' ∧ ∀ tail,
      singleChars gap (Spot.placeFrom index line column
          ((if broken then padding width else "").toList ++ tail)) =
        singleChars gap (Spot.placeFrom index' line column' tail) := by
  cases precedes with
  | none => exact ⟨index, column, right rfl, fun tail => rfl⟩
  | blanks blanks inside => exact ⟨index, column, right rfl, fun tail => rfl⟩
  | lines first more unlike solid =>
      refine ⟨index + width, column + width, by omega, fun tail => ?_⟩
      rw [if_pos rfl, padding, Text.toList_pushn]
      exact singleChars_spaces _ _ _

theorem singleChars_singleBody {broken : Bool} {width : ℕ} (wide : 0 < width)
    (precedes : Precedes chars gap broken)
    (plain : ∀ char ∈ chars, isPlainChar char = true) (unlined : '\n' ∉ chars)
    (after : hasPair isBreak (· == ' ') chars = false)
    (before : hasPair (· == ' ') isBreak chars = false)
    (right : broken = false → 0 < column) (other : rest.head? ≠ some '\'') :
    ∃ index' line' column',
      singleChars gap (Spot.placeFrom index line column
          ((singleBody width broken chars).toList ++ '\'' :: rest)) =
        some (gap.chars ++ chars, Spot.placeFrom index' line' column' rest) := by
  induction chars generalizing gap broken index line column with
  | nil =>
      refine ⟨index + 1, line, column + 1, ?_⟩
      simp [singleBody, singleChars_quote other]
  | cons char chars ih =>
      have charPlain := plain char List.mem_cons_self
      have restPlain : ∀ other ∈ chars, isPlainChar other = true :=
        fun other mem => plain other (List.mem_cons_of_mem _ mem)
      have line_free : char ≠ '\n' ∧ '\n' ∉ chars := by
        simpa [eq_comm] using unlined
      obtain ⟨afterBreak, after⟩ := hasPair_cons_eq_false.mp after
      obtain ⟨beforeBreak, before⟩ := hasPair_cons_eq_false.mp before
      by_cases ends : isBreak char = true
      · have goesOn := precedes.addBreak ends line_free.1
          (fun next first => by simpa using afterBreak ends next first)
        obtain ⟨index', line', column', read⟩ :=
          @ih _ (index + 1) (line + 1) 0 _ goesOn restPlain line_free.2 after before
            (by simp)
        refine ⟨index', line', column', ?_⟩
        rw [singleBody, if_pos ends, String.toList_append, List.append_assoc,
          toList_toString_append, singleChars_cons_of_isBreak ends, read,
          ScalarGap.chars_addBreak precedes ends line_free.1]
        simp
      · have unbroken : isBreak char = false := by simpa using ends
        obtain ⟨start, place, positive, indented⟩ :=
          singleChars_padding wide precedes right index line
        rw [singleBody, if_neg ends]
        simp only [String.toList_append, List.append_assoc, indented]
        by_cases quote : char = '\''
        · obtain ⟨index', line', column', read⟩ :=
            @ih _ (start + 2) line (place + 2) _ .none restPlain line_free.2 after before
              (by simp)
          refine ⟨index', line', column', ?_⟩
          have doubled : ("''" : String).toList = ['\'', '\''] := rfl
          rw [if_pos quote, doubled]
          simp [singleChars_quote_quote, read, quote, ScalarGap.chars]
        · rw [if_neg quote, toList_toString_append]
          by_cases blank : isBlank char = true
          · have space := eq_space_of_isBlank charPlain blank
            obtain ⟨within, goesOn⟩ := precedes.addBlank space
              (beforeBreak (by simp [space]))
            obtain ⟨index', line', column', read⟩ :=
              @ih _ (start + 1) line (place + 1) _ goesOn restPlain line_free.2
                after before
                (by simp)
            refine ⟨index', line', column', ?_⟩
            rw [singleChars_cons_of_isBlank blank unbroken, read,
              ScalarGap.chars_addBlank within]
            simp
          · have solid : isBlank char = false := by simpa using blank
            obtain ⟨index', line', column', read⟩ :=
              @ih _ (start + 1) line (place + 1) _ .none restPlain line_free.2
                after before
                (by simp)
            refine ⟨index', line', column', ?_⟩
            rw [singleChars_cons solid unbroken quote positive, read]
            simp [ScalarGap.chars]

/-- After its first quote a single quoted text is read up to its last one. -/
theorem singleChars_singleQuoted {width : ℕ} (wide : 0 < width)
    (allowed : allowsSingle chars = true) (unlined : '\n' ∉ chars) :
    ∃ body, (singleQuoted width chars).toList = '\'' :: body ∧
      ∀ rest index line column, rest.head? ≠ some '\'' → 0 < column →
        ∃ index' line' column',
          singleChars .none (Spot.placeFrom index line column (body ++ rest)) =
            some (chars, Spot.placeFrom index' line' column' rest) := by
  simp only [allowsSingle, Bool.and_eq_true, Bool.not_eq_true',
    List.all_eq_true] at allowed
  obtain ⟨⟨plain, after⟩, before⟩ := allowed
  have quote : ("'" : String).toList = ['\''] := rfl
  refine ⟨(singleBody width false chars).toList ++ ['\''], by simp [singleQuoted, quote],
    fun rest index line column other right => ?_⟩
  rw [List.append_assoc, List.singleton_append]
  exact singleChars_singleBody wide .none plain unlined after before
    (fun _ => right) other

end SingleQuoted

section DoubleQuoted

variable {gap : ScalarGap} {index line column : ℕ} {char : Char} {chars rest : List Char}

/-- The step at a character that is neither blank nor a break. -/
theorem doubleChars_of_solid {spot : Spot} {spots : List Spot}
    (divided : Spot.isDivider (spot :: spots) = false) (solid : spot.isBlank = false)
    (unbroken : spot.isBreak = false) :
    doubleChars (.body gap) (spot :: spots) =
      if spot.char = '"' then some (gap.chars, spots)
      else if spot.char = '\\' then
        (doubleChars .escape spots).map fun (found, after) => (gap.chars ++ found, after)
      else
        (doubleChars (.body .none) spots).map fun (found, after) =>
          (gap.chars ++ spot.char :: found, after) := by
  rw [doubleChars]
  simp only [solid, unbroken, divided, beq_iff_eq, Bool.false_eq_true, if_false]

theorem doubleChars_cons (solid : isBlank char = false) (unbroken : isBreak char = false)
    (quote : char ≠ '"') (slash : char ≠ '\\') (right : 0 < column) :
    doubleChars (.body gap) (Spot.placeFrom index line column (char :: rest)) =
      (doubleChars (.body .none) (Spot.placeFrom (index + 1) line (column + 1) rest)).map
        fun (found, after) => (gap.chars ++ char :: found, after) := by
  have divided := @isDivider_of_column_pos index line column right (char :: rest)
  rw [Spot.placeFrom_cons_of_not_isBreak unbroken] at divided ⊢
  rw [doubleChars_of_solid divided solid unbroken, if_neg quote, if_neg slash]

theorem doubleChars_cons_of_isBlank (blank : isBlank char = true)
    (unbroken : isBreak char = false) :
    doubleChars (.body gap) (Spot.placeFrom index line column (char :: rest)) =
      doubleChars (.body (gap.addBlank char))
        (Spot.placeFrom (index + 1) line (column + 1) rest) := by
  rw [Spot.placeFrom_cons_of_not_isBreak unbroken, doubleChars]
  simp [Spot.isBlank, blank]

theorem doubleChars_quote :
    doubleChars (.body gap) (Spot.placeFrom index line column ('"' :: rest)) =
      some (gap.chars, Spot.placeFrom (index + 1) line (column + 1) rest) := by
  have divided := @isDivider_of_ne index line column '"' rest (by decide) (by decide)
  rw [Spot.placeFrom_cons_of_not_isBreak (by decide)] at divided ⊢
  rw [doubleChars_of_solid divided rfl rfl, if_pos rfl]

theorem doubleChars_slash :
    doubleChars (.body gap) (Spot.placeFrom index line column ('\\' :: rest)) =
      (doubleChars .escape (Spot.placeFrom (index + 1) line (column + 1) rest)).map
        fun (found, after) => (gap.chars ++ found, after) := by
  have divided := @isDivider_of_ne index line column '\\' rest (by decide) (by decide)
  rw [Spot.placeFrom_cons_of_not_isBreak (by decide)] at divided ⊢
  rw [doubleChars_of_solid divided rfl rfl, if_neg (by simp), if_pos rfl]

theorem doubleChars_short {name : Char} (named : shortEscape? name = some char)
    (unbroken : isBreak name = false) :
    doubleChars .escape (Spot.placeFrom index line column (name :: rest)) =
      (doubleChars (.body .none) (Spot.placeFrom (index + 1) line (column + 1) rest)).map
        fun (found, after) => (char :: found, after) := by
  rw [Spot.placeFrom_cons_of_not_isBreak unbroken, doubleChars]
  simp [Spot.isBreak, unbroken, named]

theorem isBreak_of_natIn? {digit : Char} {value : ℕ}
    (read : YamlWord.natIn? 16 [digit] = some value) : isBreak digit = false := by
  rw [Bool.eq_false_iff]
  intro ends
  rcases eq_of_isBreak ends with rfl | rfl | rfl | rfl | rfl <;> cases read

theorem doubleChars_digits {digits : List Char} {missing value code : ℕ}
    (length : digits.length = missing) (filled : digits ≠ [])
    (read : Text.valueBy (fun digit => YamlWord.natIn? 16 [digit]) digits value =
      some code)
    (valid : code.isValidChar) :
    doubleChars (.code missing value)
    (Spot.placeFrom index line column (digits ++ rest)) =
      (doubleChars (.body .none)
          (Spot.placeFrom (index + missing) line (column + missing) rest)).map
        fun (found, after) => (Char.ofNat code :: found, after) := by
  induction digits generalizing missing value index column with
  | nil => exact absurd rfl filled
  | cons digit digits ih =>
      rw [Text.valueBy, List.foldlM_cons] at read
      obtain ⟨further, first, others⟩ := Option.bind_eq_some_iff.mp read
      obtain ⟨number, digitRead, rfl⟩ := Option.map_eq_some_iff.mp first
      rw [List.cons_append,
        Spot.placeFrom_cons_of_not_isBreak (isBreak_of_natIn? digitRead), doubleChars]
      simp only [digitRead]
      cases digits with
      | nil =>
          obtain rfl : missing = 1 := length.symm
          have same : 16 * value + number = code := by simpa using others
          simp [same, valid]
      | cons next digits =>
          obtain rfl : missing = digits.length + 2 := by simpa using length.symm
          rw [if_pos (by omega), ih (by simp) (by simp) others]
          simp [Nat.add_assoc, Nat.add_comm 1]

theorem natIn?_toUpper_digitChar :
    ∀ digit < 16, YamlWord.natIn? 16 [digit.digitChar.toUpper] = some digit := by
  decide

/-- A character by its code with a number of digits. -/
theorem doubleChars_code {mark : Char} {width : ℕ}
    (marked : codeLength? mark = some width) (long : shortEscape? mark = none)
    (unbroken : isBreak mark = false) (positive : 0 < width)
    (fits : char.toNat < 16 ^ width) : doubleChars .escape
        (Spot.placeFrom index line column
          (mark :: ((upperHex width char.toNat).toList ++ rest))) =
      (doubleChars (.body .none)
          (Spot.placeFrom (index + 1 + width) line (column + 1 + width) rest)).map
        fun (found, after) => (char :: found, after) := by
  have digits : (upperHex width char.toNat).toList =
      (Text.hexDigits width char.toNat).toList.map Char.toUpper := by
    simp [upperHex]
  have length : (upperHex width char.toNat).toList.length = width := by
    rw [digits, List.length_map, Text.length_hexDigits positive fits]
  have read : Text.valueBy (fun digit => YamlWord.natIn? 16 [digit])
      (upperHex width char.toNat).toList 0 = some char.toNat := by
    have upper : Text.valueBy (fun digit => YamlWord.natIn? 16 [digit.toUpper])
        (Text.hexDigits width char.toNat).toList 0 = some char.toNat :=
      Text.valueBy_hexDigits natIn?_toUpper_digitChar width char.toNat
    rw [digits, Text.valueBy, List.foldlM_map]
    exact upper
  have filled : (upperHex width char.toNat).toList ≠ [] := by
    rw [← List.length_pos_iff, length]
    exact positive
  rw [Spot.placeFrom_cons_of_not_isBreak unbroken, doubleChars]
  simp only [Spot.isBreak, unbroken, Bool.false_eq_true, if_false, long, marked]
  rw [doubleChars_digits length filled read char.valid, Char.ofNat_toNat]

/-- A character is written by a name of one character or by its code. -/
theorem escapeCode_cases (char : Char) :
    (∃ name, (escapeCode char).toList = ['\\', name] ∧ shortEscape? name = some char ∧
        isPlainChar name = true ∧ isBreak name = false) ∨
      ∃ mark width, (escapeCode char).toList =
          '\\' :: mark :: (upperHex width char.toNat).toList ∧
        codeLength? mark = some width ∧ shortEscape? mark = none ∧
          isPlainChar mark = true ∧
          isBreak mark = false ∧ 0 < width ∧ char.toNat < 16 ^ width := by
  have short {code : ℕ} {text : String} (name : Char) (same : char.toNat = code)
      (written : text.toList = ['\\', name])
      (named : shortEscape? name = some (Char.ofNat code))
        (plain : isPlainChar name = true)
      (unbroken : isBreak name = false) :
      ∃ name, text.toList = ['\\', name] ∧ shortEscape? name = some char ∧
        isPlainChar name = true ∧ isBreak name = false := by
    rw [← same, Char.ofNat_toNat] at named
    exact ⟨name, written, named, plain, unbroken⟩
  unfold escapeCode
  dsimp only
  split
  · exact .inl (short '0' ‹_› rfl rfl rfl rfl)
  · exact .inl (short 'a' ‹_› rfl rfl rfl rfl)
  · exact .inl (short 'b' ‹_› rfl rfl rfl rfl)
  · exact .inl (short 't' ‹_› rfl rfl rfl rfl)
  · exact .inl (short 'n' ‹_› rfl rfl rfl rfl)
  · exact .inl (short 'v' ‹_› rfl rfl rfl rfl)
  · exact .inl (short 'f' ‹_› rfl rfl rfl rfl)
  · exact .inl (short 'r' ‹_› rfl rfl rfl rfl)
  · exact .inl (short 'e' ‹_› rfl rfl rfl rfl)
  · exact .inl (short '"' ‹_› rfl rfl rfl rfl)
  · exact .inl (short '\\' ‹_› rfl rfl rfl rfl)
  · exact .inl (short 'N' ‹_› rfl rfl rfl rfl)
  · exact .inl (short '_' ‹_› rfl rfl rfl rfl)
  · exact .inl (short 'L' ‹_› rfl rfl rfl rfl)
  · exact .inl (short 'P' ‹_› rfl rfl rfl rfl)
  · split
    · exact .inr ⟨'x', 2, by simp, rfl, rfl, rfl, rfl, by decide, ‹_›⟩
    · split
      · exact .inr ⟨'u', 4, by simp, rfl, rfl, rfl, rfl, by decide, ‹_›⟩
      · have bound := char.val.toNat_lt
        exact .inr ⟨'U', 8, by simp, rfl, rfl, rfl, rfl, by decide, bound⟩

theorem doubleChars_escapeCode (right : 0 < column) :
    ∃ index' column', 0 < column' ∧
      doubleChars (.body gap)
          (Spot.placeFrom index line column ((escapeCode char).toList ++ rest)) =
        (doubleChars (.body .none) (Spot.placeFrom index' line column' rest)).map
          fun (found, after) => (gap.chars ++ char :: found, after) := by
  rcases escapeCode_cases char with
    ⟨name, written, named, -, unbroken⟩ |
      ⟨mark, width, written, marked, long, -, unbroken, positive, fits⟩
  · refine ⟨index + 1 + 1, column + 1 + 1, by omega, ?_⟩
    rw [written, List.cons_append, doubleChars_slash, List.singleton_append,
      doubleChars_short named unbroken]
    simp [Function.comp_def]
  · refine ⟨index + 1 + 1 + width, column + 1 + 1 + width, by omega, ?_⟩
    rw [written, List.cons_append, doubleChars_slash, List.cons_append,
      doubleChars_code marked long unbroken positive fits]
    simp [Function.comp_def]

/-- A character between double quotes, by its code or as it is. -/
theorem doubleChars_chars {escape : Char → String}
    (escapes : escape = escapeCode ∨ escape = escapedChar) (within : gap.isLines = false)
    (right : 0 < column) :
    ∃ index' column',
      doubleChars (.body gap) (Spot.placeFrom index line column
          (chars.flatMap (fun char => (escape char).toList) ++ '"' :: rest)) =
        some (gap.chars ++ chars, Spot.placeFrom index' line column' rest) := by
  induction chars generalizing gap index column with
  | nil =>
      refine ⟨index + 1, column + 1, ?_⟩
      simp [doubleChars_quote]
  | cons char chars ih =>
      rw [List.flatMap_cons, List.append_assoc]
      by_cases coded : escape char = escapeCode char
      · obtain ⟨start, place, positive, step⟩ :=
          @doubleChars_escapeCode gap index line column char
          (chars.flatMap (fun char => (escape char).toList) ++ '"' :: rest) right
        obtain ⟨index', column', read⟩ := @ih .none start place rfl positive
        refine ⟨index', column', ?_⟩
        rw [coded, step, read]
        simp [ScalarGap.chars]
      · obtain ⟨same, charPlain, unbroken, quote, slash⟩ : escape char = char.toString ∧
            isPlainChar char = true ∧ isBreak char = false ∧ char ≠ '"' ∧
              char ≠ '\\' := by
          rcases escapes with rfl | rfl
          · exact absurd rfl coded
          · unfold escapedChar at coded ⊢
            split at coded
            · rename_i plain
              simp only [Bool.and_eq_true, Bool.not_eq_true', bne_iff_ne, ne_eq] at plain
              exact ⟨if_pos (by simp [plain]), plain.1.1.1, plain.1.1.2, plain.1.2,
                plain.2⟩
            · exact absurd rfl coded
        rw [same, toList_toString_append]
        by_cases blank : isBlank char = true
        · obtain ⟨index', column', read⟩ :=
            @ih (gap.addBlank char) (index + 1) (column + 1)
              (ScalarGap.isLines_addBlank within char) (by omega)
          refine ⟨index', column', ?_⟩
          rw [doubleChars_cons_of_isBlank blank unbroken, read,
            ScalarGap.chars_addBlank within]
          simp
        · have solid : isBlank char = false := by simpa using blank
          obtain ⟨index', column', read⟩ :=
            @ih .none (index + 1) (column + 1) rfl (by omega)
          refine ⟨index', column', ?_⟩
          rw [doubleChars_cons solid unbroken quote slash right, read]
          simp [ScalarGap.chars]

theorem toList_doubleQuoted (chars : List Char) :
    ∃ escape, (escape = escapeCode ∨ escape = escapedChar) ∧
      (doubleQuoted chars).toList =
        '"' :: (chars.flatMap (fun char => (escape char).toList) ++ ['"']) := by
  refine ⟨if chars.head?.any (·.toNat == 0xfeff) then escapeCode else escapedChar, ?_, ?_⟩
  · split
    · exact .inl rfl
    · exact .inr rfl
  · simp [doubleQuoted, List.flatMap_map]

/-- After its first quote a double quoted text is read up to its last one. -/
theorem doubleChars_doubleQuoted (chars : List Char) :
    ∃ body, (doubleQuoted chars).toList = '"' :: body ∧
      ∀ rest index line column, 0 < column →
        ∃ index' column',
          doubleChars (.body .none) (Spot.placeFrom index line column (body ++ rest)) =
            some (chars, Spot.placeFrom index' line column' rest) := by
  obtain ⟨escape, escapes, written⟩ := toList_doubleQuoted chars
  refine ⟨_, written, fun rest index line column right => ?_⟩
  rw [List.append_assoc, List.singleton_append]
  exact doubleChars_chars escapes rfl right

end DoubleQuoted

end YamlValue

end CostTape
