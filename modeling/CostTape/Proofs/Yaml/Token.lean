import CostTape.Proofs.Yaml.Block

/-! The tokens of keys and of scalars. -/

namespace CostTape

namespace Spot

variable {index line column : ℕ} {chars : List Char}

/-- There is no comment on the line of what has been read. -/
theorem skipLineComment_placeFrom
    (uncommented : (chars.dropWhile YamlValue.isBlank).head? ≠ some '#') :
    skipLineComment (placeFrom index line column chars) =
      placeFrom index line column chars := by
  have same : ((placeFrom index line column chars).dropWhile isBlank).map Spot.char =
      chars.dropWhile YamlValue.isBlank := by
    conv_rhs => rw [← @map_char_placeFrom index line column chars, List.dropWhile_map]
    rfl
  rw [skipLineComment]
  cases dropped : (placeFrom index line column chars).dropWhile isBlank with
  | nil => rfl
  | cons spot rest =>
      rw [dropped] at same
      rw [← same] at uncommented
      have other : spot.char ≠ '#' := by simpa using uncommented
      simp [other]

end Spot

namespace YamlScan

open YamlValue (isBlank isBreak allowsWord startsMarked)

section Word

variable {first : Char} {chars tail : List Char}

theorem undivided_append (unmarked : startsMarked (first :: chars) = false)
    (apart : ∀ next ∈ tail.head?, next ≠ '-' ∧ next ≠ '.') :
    Undivided (first :: chars ++ tail) := by
  simp only [startsMarked, Bool.or_eq_false_iff] at unmarked
  obtain ⟨⟨-, dashes⟩, dots⟩ := unmarked
  have other {mark : Char}
      (whole : [mark, mark, mark].isPrefixOf (first :: chars) = false)
      (next_ne : ∀ next ∈ tail.head?, next ≠ mark) :
      [mark, mark, mark].isPrefixOf (first :: chars ++ tail) = false := by
    match chars, tail with
    | [], [] | [_], [] => simp [List.isPrefixOf]
    | [], next :: tail => simp [List.isPrefixOf, (Ne.symm (next_ne next rfl))]
    | [_], next :: tail => simp [List.isPrefixOf, (Ne.symm (next_ne next rfl))]
    | _ :: _ :: _, tail => simpa [List.isPrefixOf] using whole
  exact ⟨other dashes fun next mem => (apart next mem).1,
    other dots fun next mem => (apart next mem).2⟩

/-- What the first character of a word is not, and what it is not followed by. -/
theorem first_of_allowsWord (allowed : allowsWord (first :: chars) = true) :
    startsMarked (first :: chars) = false ∧
      first ∉ "#,[]\x7b\x7d&*!|>'\"%@`".toList ∧ Solid (first :: chars ++ tail) ∧
      (first ∈ ['-', '?', ':'] →
        ∃ next more, chars = next :: more ∧ isBlank next = false ∧
          isBreak next = false) := by
  have runs := YamlValue.runs_of_allowsWord allowed
  obtain ⟨plain, unbroken⟩ := runs.plain first List.mem_cons_self
  simp only [allowsWord, Bool.and_eq_true, Bool.not_eq_true',
    Bool.or_eq_false_iff] at allowed
  obtain ⟨⟨⟨⟨space, -⟩, unmarked⟩, -⟩, -⟩ := allowed
  have marks := unmarked
  simp only [startsMarked, Bool.or_eq_false_iff, List.contains_eq_mem,
    decide_eq_false_iff_not, Bool.and_eq_false_iff] at marks
  obtain ⟨⟨⟨unlisted, follows⟩, -⟩, -⟩ := marks
  refine ⟨unmarked, unlisted, ?_, ?_⟩
  · intro char isFirst
    cases isFirst
    refine ⟨?_, unbroken, ?_⟩
    · rw [Bool.eq_false_iff]
      intro blank
      rw [YamlValue.eq_space_of_isBlank plain blank] at space
      simp at space
    · rintro rfl
      exact unlisted (by decide)
  · intro mark
    have joined := follows.resolve_left (not_not_intro mark)
    cases chars with
    | nil => simp at joined
    | cons next more =>
        exact ⟨next, more, rfl, by simpa using joined, (runs.plain next (by simp)).2⟩

theorem endsWord_of_mark {index line column : ℕ}
    (allowed : allowsWord (first :: chars) = true) (mark : first ∈ ['-', '?', ':']) :
    Spot.endsWord (Spot.placeFrom index line column (chars ++ tail)) = false := by
  obtain ⟨next, more, rfl, solid, unbroken⟩ :=
    (@first_of_allowsWord _ _ tail allowed).2.2.2 mark
  rw [Spot.endsWord_placeFrom]
  simp [solid, unbroken]

theorem part?_eq_word? {scan : YamlScan} {index line column : ℕ} (outer : scan.outer = [])
    (allowed : allowsWord (first :: chars) = true) :
    scan.part? ⟨first, index, line, column⟩
        (Spot.placeFrom (index + 1) line (column + 1) (chars ++ tail)) =
      scan.word? ⟨first, index, line, column⟩ := by
  obtain ⟨-, unlisted, -, -⟩ := @first_of_allowsWord _ _ tail allowed
  have other {mark : Char} (listed : mark ∈ "#,[]\x7b\x7d&*!|>'\"%@`".toList) :
      first ≠ mark := fun same => unlisted (same ▸ listed)
  have joined {mark : Char} (listed : mark ∈ ['-', '?', ':']) :
      (first == mark && Spot.endsWord
        (Spot.placeFrom (index + 1) line (column + 1) (chars ++ tail))) = false := by
    by_cases same : first = mark
    · simp [endsWord_of_mark allowed (same ▸ listed)]
    · simp [same]
  simp only [part?, inBrackets_eq_false outer, Bool.false_or, @joined '-' (by decide),
    @joined '?' (by decide), @joined ':' (by decide)]
  simp [@other '[' (by decide), @other '\x7b' (by decide), @other ']' (by decide),
    @other '\x7d' (by decide), @other ',' (by decide), @other '|' (by decide),
    @other '>' (by decide), @other '\'' (by decide), @other '"' (by decide)]

theorem startsWord_of_allowsWord {index line column : ℕ}
    (allowed : allowsWord (first :: chars) = true) :
    YamlValue.startsWord false
      (Spot.placeFrom index line column (first :: chars ++ tail)) = true := by
  obtain ⟨-, unlisted, solid, follows⟩ := @first_of_allowsWord _ _ tail allowed
  obtain ⟨filled, unbroken, -⟩ := solid first rfl
  have marked (mark : first ∈ ['-', '?', ':']) :
      ((Spot.placeFrom (index + 1) line (column + 1)
      (chars ++ tail)).head?.any fun next => !next.isBlank && !next.isBreak) = true := by
    obtain ⟨next, more, rfl, nextSolid, nextUnbroken⟩ := follows mark
    rw [List.cons_append, Spot.placeFrom_cons_of_not_isBreak nextUnbroken]
    simp [Spot.isBlank, Spot.isBreak, nextSolid, nextUnbroken]
  have unlisted' : first ∉ ",[]\x7b\x7d#&*!|>'\"%@`".toList := by
    have others : ",[]\x7b\x7d#&*!|>'\"%@`".toList ⊆
      "#,[]\x7b\x7d&*!|>'\"%@`".toList := by decide
    exact fun listed => unlisted (others listed)
  rw [List.cons_append, Spot.placeFrom_cons_of_not_isBreak unbroken, YamlValue.startsWord]
  by_cases dash : first = '-'
  · simp only [dash, beq_self_eq_true, if_true]
    exact marked (by simp [dash])
  · by_cases other : first = '?' ∨ first = ':'
    · rw [if_neg (by simpa using dash), if_pos (by simpa using other),
        marked (by simpa using .inr other)]
      rfl
    · rw [if_neg (by simpa using dash), if_neg (by simpa using other)]
      simp only [Spot.isBlank, Spot.isBreak, filled, unbroken, Bool.false_or,
        Bool.not_eq_true', List.contains_eq_mem, decide_eq_false_iff_not]
      exact unlisted'

end Word

/-- What may follow a part of a block: the next line, which does not stand right of the
block. -/
structure Follows (inner width : ℕ) (rest : List Char) : Prop where
  left : width ≤ inner
  solid : Solid rest

theorem Follows.filled {inner width : ℕ} {rest : List Char}
    (follows : Follows inner width rest) :
    ∀ next ∈ rest.head?, isBlank next = false ∧ isBreak next = false :=
  fun next isNext => ⟨(follows.solid next isNext).1, (follows.solid next isNext).2.1⟩

theorem saveKey?_eq {scan : YamlScan} (outer : scan.outer = [])
    (optional : scan.possible.any (·.required) = false) (spot : Spot) :
    scan.saveKey? spot = some { scan with
      possible :=
        if scan.keyAllowed then
          some ⟨scan.tokens.size, spot, scan.columns.head? == some spot.column⟩
        else scan.possible } := by
  rw [saveKey?]
  split
  · simp [dropKey?, optional, inBrackets, outer]
  · rfl

/-- The possible key that a scalar right of the open blocks may leave need not become
one. -/
theorem possible_of_right {scan : YamlScan} {inner : ℕ} {outer : List ℕ} (spot : Spot)
    (optional : scan.possible.any (·.required) = false)
    (columns : scan.columns = inner :: outer) (right : inner < spot.column) :
    ((if scan.keyAllowed then
        some ⟨scan.tokens.size, spot, scan.columns.head? == some spot.column⟩
      else scan.possible : Option PossibleKey).any (·.required)) = false := by
  split
  · simp [columns, Nat.ne_of_lt right]
  · exact optional

theorem word?_eq {scan : YamlScan} {index line column : ℕ} {first : Char}
    {chars tail found : List Char} {newLine : Bool} {after : List Spot}
    (outer : scan.outer = []) (optional : scan.possible.any (·.required) = false)
    (placed : scan.rest = Spot.placeFrom index line column (first :: chars ++ tail))
    (word : allowsWord (first :: chars) = true)
    (read : YamlValue.wordChars false scan.least .none scan.rest =
      some (found, newLine, after)) :
    scan.word? ⟨first, index, line, column⟩ = some { scan with
      rest := if newLine then after else Spot.skipLineComment after
      tokens := scan.tokens.push (.scalar (.word (String.ofList found)))
      possible :=
        if scan.keyAllowed then
          some ⟨scan.tokens.size, ⟨first, index, line, column⟩,
            scan.columns.head? == some column⟩
        else scan.possible
      keyAllowed := newLine } := by
  have starts : YamlValue.startsWord scan.inBrackets scan.rest = true := by
    rw [inBrackets_eq_false outer, placed]
    exact startsWord_of_allowsWord word
  rw [word?, if_pos starts, saveKey?_eq outer optional, Option.bind_some]
  have same (possible : Option PossibleKey) : YamlValue.wordChars
      { scan with possible }.inBrackets { scan with possible }.least .none scan.rest =
        some (found, newLine, after) := by
    have outside : { scan with possible }.inBrackets = false := inBrackets_eq_false outer
    rw [outside]
    exact read
  simp only [same]
  rfl

section Value

variable {tokens : List YamlToken} {inner : ℕ} {outer : List ℕ} {allowed : Bool}
    {column : ℕ}

/-- A part that is a scalar is taken up, and the scan goes on from where it ends. -/
theorem leads_of_part? (value : YamlValue) (keyAllowed : Bool) (rest : List Char)
    {first : Char} {chars : List Char} {after : Stage} (solid : Solid (first :: chars))
    (undirected : first ≠ '%') (undivided : Undivided (first :: chars))
    (right : inner < column) (shorter : rest.length ≤ chars.length)
    (part : ∀ (scan : YamlScan) index line, scan.outer = [] →
      scan.columns = inner :: outer → scan.possible.any (·.required) = false →
      scan.rest = Spot.placeFrom index line column (first :: chars) →
      ∃ index' line' column', ∃ possible : Option PossibleKey,
      possible.any (·.required) = false ∧
        scan.part? ⟨first, index, line, column⟩
            (Spot.placeFrom (index + 1) line (column + 1) chars) =
          some { scan with
            rest := Spot.placeFrom index' line' column' rest
            tokens := scan.tokens.push (.scalar value), possible, keyAllowed } ∧
        Leads ⟨tokens ++ [.scalar value], inner :: outer, keyAllowed, column', rest⟩
          after) :
    Leads ⟨tokens, inner :: outer, allowed, column, first :: chars⟩ after := by
  intro scan shows
  obtain ⟨index, line, placed⟩ := shows.rest
  obtain ⟨index', line', column', possible, optional, taken, further⟩ :=
    part scan index line shows.outer shows.columns shows.possible placed
  rw [← next?_eq_part? shows.outer placed solid (by simpa [shows.columns] using right.le)
    undirected undivided] at taken
  let next : YamlScan := { scan with
    rest := Spot.placeFrom index' line' column' rest
    tokens := scan.tokens.push (.scalar value), possible, keyAllowed }
  have nextShows : Shows next
      ⟨tokens ++ [.scalar value], inner :: outer, keyAllowed, column', rest⟩ :=
    ⟨by simp [next, shows.tokens], shows.columns, rfl, ⟨_, _, rfl⟩, shows.outer, optional,
      by simp [next, isFinished, YamlToken.isTextEnd]⟩
  obtain ⟨last, lastShows, back⟩ := further next nextShows
  refine ⟨last, lastShows, fun final ends => ?_⟩
  refine Ends.of_next? shows.unfinished taken ?_ (back final ends)
  simp [placed]
  omega

theorem leads_word {first : Char} {chars : List Char}
    (word : allowsWord (first :: chars) = true) (right : inner < column) {width : ℕ}
    {rest : List Char} (follows : Follows inner width rest) :
    Leads ⟨tokens, inner :: outer, allowed, column,
        first :: (chars ++ '\n' :: (List.replicate width ' ' ++ rest))⟩
      ⟨tokens ++ [.scalar (.word (String.ofList (first :: chars)))], inner :: outer,
        true, width, rest⟩ := by
  obtain ⟨unmarked, unlisted, solid, -⟩ :=
    @first_of_allowsWord _ _ ('\n' :: (List.replicate width ' ' ++ rest)) word
  refine leads_of_part? (.word (String.ofList (first :: chars))) true rest solid
    (fun same => unlisted (same ▸ by decide)) (undivided_append unmarked (by simp)) right
    (by simp; omega) fun scan index line outside columns optional placed => ?_
  have read : YamlValue.wordChars false scan.least .none scan.rest =
      some (first :: chars, true,
        Spot.placeFrom (index + (first :: chars).length + 1 + width)
          (line + 1) width rest) := by
    have least : scan.least = inner + 1 := by rw [least, columns]
    rw [least, placed, ← List.cons_append,
      YamlValue.wordChars_append (YamlValue.runs_of_allowsWord word)
        (List.cons_ne_nil _ _) rfl
        (by omega) (by simp [ScalarGap.isNone]),
      YamlValue.wordChars_break follows.filled (.inr (by have := follows.left; omega))]
    simp [ScalarGap.chars]
  refine ⟨index + (first :: chars).length + 1 + width, line + 1, width, _,
    possible_of_right ⟨first, index, line, column⟩ optional columns right, ?_, .refl _⟩
  rw [part?_eq_word? outside word, word?_eq outside optional placed word read]
  rfl

theorem quoted?_eq {scan : YamlScan} {spot : Spot} {chars : List Char} {after : List Spot}
    (outside : scan.outer = []) (optional : scan.possible.any (·.required) = false) :
    scan.quoted? spot (some (chars, after)) = some { scan with
      rest := Spot.skipLineComment after
      tokens := scan.tokens.push (.scalar (.text (String.ofList chars)))
      possible :=
        if scan.keyAllowed then
          some ⟨scan.tokens.size, spot, scan.columns.head? == some spot.column⟩
        else scan.possible
      keyAllowed := false } := by
  rw [quoted?, saveKey?_eq outside optional]
  rfl

/-- A quoted text ends its line. -/
theorem leads_quoted {mark : Char} {body chars rest : List Char} (right : inner < column)
    (other : mark ≠ '%' ∧ mark ≠ '-' ∧ mark ≠ '.' ∧ mark ≠ '#' ∧ isBlank mark = false ∧
      isBreak mark = false)
    (read : ∀ (scan : YamlScan) index line, scan.outer = [] →
      ∃ index' line' column',
        scan.part? ⟨mark, index, line, column⟩
            (Spot.placeFrom (index + 1) line (column + 1) (body ++ '\n' :: rest)) =
          scan.quoted? ⟨mark, index, line, column⟩
            (some (chars, Spot.placeFrom index' line' column' ('\n' :: rest)))) :
    Leads ⟨tokens, inner :: outer, allowed, column, mark :: (body ++ '\n' :: rest)⟩
      ⟨tokens ++ [.scalar (.text (String.ofList chars))], inner :: outer, true, 0,
        rest⟩ := by
  obtain ⟨percent, dash, dot, comment, solid, unbroken⟩ := other
  refine leads_of_part? (.text (String.ofList chars)) false ('\n' :: rest) ?_ percent
    ?_ right (by simp) fun scan index line outside columns optional placed => ?_
  · intro first isFirst
    cases isFirst
    exact ⟨solid, unbroken, comment⟩
  · simp [Undivided, List.isPrefixOf, dash.symm, dot.symm]
  · obtain ⟨index', line', column', part⟩ := read scan index line outside
    refine ⟨index', line', column', _,
      possible_of_right ⟨mark, index, line, column⟩ optional columns right, ?_,
      leads_break _ _ _ _ _⟩
    rw [part, quoted?_eq outside optional,
      Spot.skipLineComment_placeFrom (by simp [isBlank])]

theorem leads_single {width : ℕ} (wide : 0 < width) {chars : List Char}
    (allowsSingle : YamlValue.allowsSingle chars = true) (unlined : '\n' ∉ chars)
    (right : inner < column) (rest : List Char) :
    Leads ⟨tokens, inner :: outer, allowed, column,
        (YamlValue.singleQuoted width chars).toList ++ '\n' :: rest⟩
      ⟨tokens ++ [.scalar (.text (String.ofList chars))], inner :: outer, true, 0,
        rest⟩ := by
  obtain ⟨body, written, read⟩ :=
    YamlValue.singleChars_singleQuoted wide allowsSingle unlined
  rw [written]
  refine leads_quoted right (by decide) fun scan index line outside => ?_
  obtain ⟨index', line', column', found⟩ :=
    read ('\n' :: rest) (index + 1) line (column + 1) (by simp) (by omega)
  refine ⟨index', line', column', ?_⟩
  simp [part?, found]

theorem leads_double (chars : List Char) (right : inner < column) (rest : List Char) :
    Leads ⟨tokens, inner :: outer, allowed, column,
        (YamlValue.doubleQuoted chars).toList ++ '\n' :: rest⟩
      ⟨tokens ++ [.scalar (.text (String.ofList chars))], inner :: outer, true, 0,
        rest⟩ := by
  obtain ⟨body, written, read⟩ := YamlValue.doubleChars_doubleQuoted chars
  rw [written]
  refine leads_quoted right (by decide) fun scan index line outside => ?_
  obtain ⟨index', column', found⟩ :=
    read ('\n' :: rest) (index + 1) line (column + 1) (by omega)
  refine ⟨index', line, column', ?_⟩
  simp [part?, found]

theorem leads_block {unit width count : ℕ} {char : Char} {chars rest : List Char}
    (deeper : inner < width) (solid : isBlank char = false)
    (unbroken : isBreak char = false) (right : inner < column)
    (follows : Follows inner count rest) : Leads ⟨tokens, inner :: outer, allowed, column,
        (YamlValue.literalBlock unit width (char :: chars)).toList ++
          (YamlValue.lineEnd (char :: chars) ++ (List.replicate count ' ' ++ rest))⟩
      ⟨tokens ++ [.scalar (.text (String.ofList (char :: chars)))], inner :: outer,
        true, count, rest⟩ := by
  have bar : ("|" : String).toList = ['|'] := rfl
  simp only [YamlValue.literalBlock, String.toList_append, bar, List.append_assoc,
    List.cons_append, List.nil_append]
  refine leads_of_part? (.text (String.ofList (char :: chars))) true rest ?_ (by decide)
    ⟨rfl, rfl⟩ right (by simp; omega)
    fun scan index line outside columns optional placed => ?_
  · intro first isFirst
    cases isFirst
    decide
  · have least : scan.least = inner + 1 := by rw [least, columns]
    obtain ⟨index', line', read⟩ :=
      @YamlValue.readBlockText_literal width (index + 1) line
      (column + 1) char chars rest unit (inner + 1) count (by omega) solid unbroken
        follows.filled
      (by have := follows.left; omega)
    refine ⟨index', line', count, none, rfl, ?_, .refl _⟩
    have dropped : scan.dropKey? = some { scan with possible := none } := by
      simp [dropKey?, optional]
    have same : { scan with possible := none }.least = inner + 1 := least
    have part (after : List Spot) : scan.part? ⟨'|', index, line, column⟩ after =
        scan.blockText? false after := by
      simp [part?, inBrackets_eq_false outside]
    rw [part, blockText?, dropped, Option.bind_some, same, read]
    rfl

/-- The marks of an empty list or mapping. -/
inductive Brackets : Char → YamlToken → Char → YamlToken → Prop
  | list : Brackets '[' .openList ']' .closeList
  | mapping : Brackets '\x7b' .openMapping '\x7d' .closeMapping

theorem next?_close {scan : YamlScan} {openMark closeMark : Char}
    {openToken closeToken : YamlToken}
    (brackets : Brackets openMark openToken closeMark closeToken) {index line column : ℕ}
    {possible : Option PossibleKey} {rest : List Char} (inside : scan.outer = [possible])
    (none : scan.possible = none)
    (placed : scan.rest = Spot.placeFrom index line column (closeMark :: '\n' :: rest)) :
    scan.next? = some { scan with
      rest := Spot.placeFrom (index + 1) line (column + 1) ('\n' :: rest)
      tokens := scan.tokens.push closeToken, possible, outer := []
      keyAllowed := false } := by
  have plain : isBlank closeMark = false ∧ isBreak closeMark = false ∧ closeMark ≠ '#' ∧
      closeMark ≠ '%' ∧ closeMark ≠ '-' ∧ closeMark ≠ '.' := by
    cases brackets <;> decide
  obtain ⟨solid, unbroken, comment, percent, dash, dot⟩ := plain
  simp only [isBlank, Bool.or_eq_false_iff] at solid
  have divided : Spot.isDivider scan.rest = false := by
    rw [placed]
    exact YamlValue.isDivider_of_ne dash dot
  have uncommented : ((('\n' :: rest).dropWhile isBlank).head? ≠ some '#') := by
    simp [isBlank]
  rw [Spot.placeFrom_cons_of_not_isBreak unbroken] at placed
  have within : scan.inBrackets = true := by simp [inBrackets, inside]
  have skipped : scan.skip = scan := by
    have nothing : Spot.skip true .blanks true false scan.rest = (false, scan.rest) := by
      rw [placed]
      simp [Spot.skip, Spot.isBreak, unbroken, solid, comment]
    simp [YamlScan.skip, within, nothing]
  have kept (closes : ℕ → Bool) : scan.closeBlocks closes = scan := by
    simp [closeBlocks, within]
  have closed : scan.part? ⟨closeMark, index, line, column⟩
      (Spot.placeFrom (index + 1) line (column + 1) ('\n' :: rest)) =
        (scan.close? closeToken).map
          (·.withRest (Spot.placeFrom (index + 1) line (column + 1) ('\n' :: rest))) := by
    cases brackets <;> simp [part?, Spot.skipLineComment_placeFrom uncommented]
  rw [next?, skipped, placed]
  simp only [kept, divided, beq_eq_false_iff_ne.mpr percent, Bool.and_false,
    Bool.false_eq_true, if_false, closed]
  simp [close?, dropKey?, none, inside, push, withRest]

/-- An empty list or mapping ends its line. -/
theorem leads_empty {openMark closeMark : Char} {openToken closeToken : YamlToken}
    (brackets : Brackets openMark openToken closeMark closeToken) (right : inner < column)
    (rest : List Char) :
    Leads ⟨tokens, inner :: outer, allowed, column, openMark :: closeMark :: '\n' :: rest⟩
      ⟨tokens ++ [openToken, closeToken], inner :: outer, true, 0, rest⟩ := by
  intro scan shows
  obtain ⟨index, line, placed⟩ := shows.rest
  let possible : Option PossibleKey :=
    if scan.keyAllowed then
      some ⟨scan.tokens.size, ⟨openMark, index, line, column⟩,
        scan.columns.head? == some column⟩
    else scan.possible
  let opened : YamlScan := { scan with
    rest := Spot.placeFrom (index + 1) line (column + 1) (closeMark :: '\n' :: rest)
    tokens := scan.tokens.push openToken, possible := none, outer := [possible],
    keyAllowed := true }
  have openStep : scan.next? = some opened := by
    have plain : Solid (openMark :: closeMark :: '\n' :: rest) ∧ openMark ≠ '%' ∧
        Undivided (openMark :: closeMark :: '\n' :: rest) ∧
          ((closeMark :: '\n' :: rest).dropWhile isBlank).head? ≠ some '#' := by
      cases brackets <;> refine ⟨?_, by decide, ⟨rfl, rfl⟩, by simp [isBlank]⟩ <;>
        simp [Solid, isBlank, isBreak]
    obtain ⟨solid, percent, undivided, uncommented⟩ := plain
    have part : scan.part? ⟨openMark, index, line, column⟩
        (Spot.placeFrom (index + 1) line (column + 1) (closeMark :: '\n' :: rest)) =
          (scan.open? openToken ⟨openMark, index, line, column⟩).map
            (·.withRest
              (Spot.placeFrom (index + 1) line (column + 1)
                (closeMark :: '\n' :: rest))) := by
      cases brackets <;> simp [part?, Spot.skipLineComment_placeFrom uncommented]
    rw [next?_eq_part? shows.outer placed solid (by simpa [shows.columns] using right.le)
      percent undivided, part, open?, saveKey?_eq shows.outer shows.possible]
    simp [push, withRest, shows.outer, opened, possible]
  let closed : YamlScan := { opened with
    rest := Spot.placeFrom (index + 1 + 1) line (column + 1 + 1) ('\n' :: rest)
    tokens := opened.tokens.push closeToken, possible, outer := [], keyAllowed := false }
  have closeStep : opened.next? = some closed := next?_close brackets rfl rfl rfl
  have unfinished : openToken.isTextEnd = false ∧ closeToken.isTextEnd = false := by
    cases brackets <;> exact ⟨rfl, rfl⟩
  have closedShows : Shows closed
      ⟨tokens ++ [openToken, closeToken], inner :: outer, false, column + 1 + 1,
        '\n' :: rest⟩ :=
    ⟨by simp [closed, opened, shows.tokens], shows.columns, rfl, ⟨_, _, rfl⟩, rfl,
      possible_of_right ⟨openMark, index, line, column⟩ shows.possible
        shows.columns right,
      by simp [closed, isFinished, unfinished.2]⟩
  obtain ⟨last, lastShows, back⟩ := leads_break _ _ _ _ _ closed closedShows
  refine ⟨last, lastShows, fun final ends => ?_⟩
  have openedEnds := Ends.of_next? (by simp [opened, isFinished, unfinished.1]) closeStep
    (by simp [opened, closed]) (back final ends)
  exact Ends.of_next? shows.unfinished openStep (by simp [opened, placed]) openedEnds

end Value

/-- What stands after the colon of a key. -/
def AfterColon (chars : List Char) : Prop :=
  (∀ next ∈ chars.head?, next = ' ' ∨ next = '\n') ∧
    (chars.dropWhile isBlank).head? ≠ some '#'

section Key

variable {column : ℕ} {columns opened : List ℕ} {marks : List YamlToken}

theorem AfterColon.endsWord {chars : List Char} (after : AfterColon chars)
    (index line : ℕ) : Spot.endsWord (Spot.placeFrom index line column chars) = true := by
  rw [Spot.endsWord_placeFrom]
  cases chars with
  | nil => rfl
  | cons char chars => rcases after.1 char rfl with rfl | rfl <;> rfl

/-- A colon puts the mark of a key before the token that it reaches, and before that the
mark of its mapping if it is not open. -/
theorem next?_colon {scan : YamlScan} {key : PossibleKey} {index line place : ℕ}
    {rest : List Char} {before following : List YamlToken}
    (opens : Opens key.spot.column .mappingStart scan.columns marks opened)
    (outside : scan.outer = [])
    (placed : scan.rest = Spot.placeFrom index line place (':' :: rest))
    (after : AfterColon rest) (right : key.spot.column ≤ place)
    (possible : scan.possible = some key)
    (reached : key.reaches ⟨':', index, line, place⟩ = true)
    (parts : scan.tokens.toList = before ++ following)
    (position : key.token = before.length) :
    ∃ changed : Array YamlToken, changed.toList = before ++ marks ++ .key :: following ∧
      scan.next? = some { scan with
        rest := Spot.placeFrom (index + 1) line (place + 1) rest
        tokens := changed.push .colon, columns := opened, possible := none,
        keyAllowed := false } := by
  let marked : YamlScan := { scan with
    tokens := scan.tokens.insertIdxIfInBounds key.token .key
    possible := none }
  have markedTokens : marked.tokens.toList = before ++ .key :: following := by
    simp only [marked, position]
    exact toList_insertIdxIfInBounds parts .key
  obtain ⟨changed, changedTokens, openedScan⟩ :=
    @Opens.openBlock _ _ _ _ _ marked opens outside rfl _ _ markedTokens
  refine ⟨changed, changedTokens, ?_⟩
  have colon : scan.part? ⟨':', index, line, place⟩
      (Spot.placeFrom (index + 1) line (place + 1) rest) =
        (scan.colon? ⟨':', index, line, place⟩).map
          (·.withRest (Spot.placeFrom (index + 1) line (place + 1) rest)) := by
    simp [part?, after.endsWord, Spot.skipLineComment_placeFrom after.2]
  rw [next?_eq_part? outside placed (by simp [Solid, isBlank, isBreak])
    (fun outer isHead => (opens.head_le outer isHead).trans right)
    (by decide) ⟨rfl, rfl⟩, colon, colon?]
  rw [← position] at openedScan
  simp only [possible, Option.filter_some, reached, if_true, Option.map_some]
  show some
    (((marked.openBlock key.spot.column key.token .mappingStart).push .colon).allowKey
    false |>.withRest _) = _
  rw [openedScan]
  rfl

/-- A word and a colon are a key, which opens its mapping if it is the first one. -/
theorem leads_key (opens : Opens column .mappingStart columns marks opened)
    (tokens : List YamlToken) {first : Char} {chars : List Char}
    (word : allowsWord (first :: chars) = true) (short : chars.length < 1024)
    {rest : List Char} (after : AfterColon rest) :
    Leads ⟨tokens, columns, true, column, first :: (chars ++ ':' :: rest)⟩
      ⟨tokens ++ marks ++ [.key, .scalar (.word (String.ofList (first :: chars))),
        .colon], opened, false, column + (chars.length + 1) + 1, rest⟩ := by
  intro scan shows
  obtain ⟨index, line, placed⟩ := shows.rest
  obtain ⟨unmarked, unlisted, solid, -⟩ := @first_of_allowsWord _ _ (':' :: rest) word
  have inside : ∀ outer ∈ scan.columns.head?, outer ≤ column := by
    simpa [shows.columns] using opens.head_le
  have read : YamlValue.wordChars false scan.least .none scan.rest =
      some (first :: chars, false, Spot.placeFrom (index + (chars.length + 1)) line
        (column + (chars.length + 1)) (':' :: rest)) := by
    have least : scan.least ≤ column + 1 := by
      rw [YamlScan.least]
      cases others : scan.columns with
      | nil => exact Nat.zero_le _
      | cons outer others => exact Nat.succ_le_succ (inside outer (by simp [others]))
    have apart : ∀ next ∈ rest.head?, isBlank next = true ∨ isBreak next = true := by
      intro next isNext
      rcases after.1 next isNext with rfl | rfl <;> decide
    rw [placed, ← List.cons_append,
      YamlValue.wordChars_append (YamlValue.runs_of_allowsWord word)
        (List.cons_ne_nil _ _) rfl
        least (by simp [ScalarGap.isNone]),
      YamlValue.wordChars_colon apart]
    simp [ScalarGap.chars]
  let key : PossibleKey :=
    ⟨scan.tokens.size, ⟨first, index, line, column⟩, scan.columns.head? == some column⟩
  let named : YamlScan := { scan with
    rest := Spot.placeFrom (index + (chars.length + 1)) line (column + (chars.length + 1))
      (':' :: rest)
    tokens := scan.tokens.push (.scalar (.word (String.ofList (first :: chars))))
    possible := some key
    keyAllowed := false }
  have wordStep : scan.next? = some named := by
    rw [next?_eq_part? shows.outer placed solid inside
        (fun same => unlisted (same ▸ by decide)) (undivided_append unmarked (by simp)),
      part?_eq_word? shows.outer word,
      word?_eq shows.outer shows.possible placed word read, shows.keyAllowed]
    simp only [if_true, Bool.false_eq_true, if_false]
    rw [Spot.skipLineComment_placeFrom (by simp [isBlank])]
  have namedOpens : Opens key.spot.column .mappingStart named.columns marks opened := by
    simpa [named, shows.columns] using opens
  obtain ⟨changed, changedTokens, colonStep⟩ := @next?_colon _ _ named key
    (index + (chars.length + 1)) line (column + (chars.length + 1)) rest tokens
    [.scalar (.word (String.ofList (first :: chars)))] namedOpens shows.outer rfl after
    (by simp [key]) rfl (by simp [key, PossibleKey.reaches]; omega)
    (by simp [named, shows.tokens]) shows.size.symm
  let next : YamlScan := { named with
    rest := Spot.placeFrom (index + (chars.length + 1) + 1) line
      (column + (chars.length + 1) + 1) rest
    tokens := changed.push .colon, columns := opened, possible := none
    keyAllowed := false }
  refine ⟨next, ⟨?_, rfl, rfl, ⟨_, _, rfl⟩, shows.outer, rfl, ?_⟩, fun final ends => ?_⟩
  · simp [next, changedTokens]
  · simp [next, isFinished, YamlToken.isTextEnd]
  · have namedEnds := Ends.of_next? (by simp [named, isFinished, YamlToken.isTextEnd])
      colonStep (by simp [named]) ends
    refine Ends.of_next? shows.unfinished wordStep ?_ namedEnds
    simp only [named, placed, Spot.length_placeFrom, List.length_cons, List.length_append]
    omega

end Key

end YamlScan

end CostTape
