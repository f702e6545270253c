import Mathlib.Data.List.Basic
import CostTape.Yaml.Token

/-! How a scan goes on outside of brackets, token by token. -/

namespace CostTape

namespace Spot

variable {index line column : ℕ} {char : Char}

theorem placeFrom_cons_of_not_isBreak (inside : YamlValue.isBreak char = false)
    (chars : List Char) :
    placeFrom index line column (char :: chars) =
      ⟨char, index, line, column⟩ :: placeFrom (index + 1) line (column + 1) chars := by
  rw [placeFrom, inside]
  rfl

theorem placeFrom_cons_of_isBreak (ends : YamlValue.isBreak char = true)
    (chars : List Char) : placeFrom index line column (char :: chars) =
      ⟨char, index, line, column⟩ :: placeFrom (index + 1) (line + 1) 0 chars := by
  rw [placeFrom, if_pos ends]

@[simp] theorem length_placeFrom (chars : List Char) :
    (placeFrom index line column chars).length = chars.length := by
  induction chars generalizing index line column with
  | nil => rfl
  | cons char chars ih =>
      rw [placeFrom]
      split <;> simp [ih]

@[simp] theorem map_char_placeFrom (chars : List Char) :
    (placeFrom index line column chars).map Spot.char = chars := by
  induction chars generalizing index line column with
  | nil => rfl
  | cons char chars ih =>
      rw [placeFrom]
      split <;> simp [ih]

theorem endsWord_placeFrom (chars : List Char) :
    endsWord (placeFrom index line column chars) =
      chars.head?.all fun char => YamlValue.isBlank char || YamlValue.isBreak char := by
  cases chars with
  | nil => rfl
  | cons char chars =>
      rw [placeFrom]
      rfl

theorem skip_newLine (inBrackets : Bool) (mode : SkipMode) (tabs newLine : Bool)
    (spots : List Spot) :
    skip inBrackets mode tabs newLine spots =
      (newLine || (skip inBrackets mode tabs false spots).1,
        (skip inBrackets mode tabs false spots).2) := by
  induction spots generalizing mode tabs newLine with
  | nil => simp [skip]
  | cons spot spots ih =>
      cases mode with
      | toComment =>
          simp only [skip]
          exact ih _ _ _
      | comment =>
          simp only [skip]
          split
          · exact ih _ _ _
          · split <;> simp [ih _ _ true]
      | blanks =>
          simp only [skip]
          split
          · simp [ih _ _ true]
          · split
            · exact ih _ _ _
            · split
              · exact ih _ _ _
              · simp

end Spot

namespace YamlScan

/-- What is left to scan does not start with something that is skipped. -/
def Solid (chars : List Char) : Prop :=
  ∀ char ∈ chars.head?, YamlValue.isBlank char = false ∧ YamlValue.isBreak char = false ∧
    char ≠ '#'

/-- What a scan outside of brackets has found and where it stands. -/
structure Stage where
  tokens : List YamlToken
  columns : List ℕ
  keyAllowed : Bool
  column : ℕ
  chars : List Char

structure Shows (scan : YamlScan) (stage : Stage) : Prop where
  tokens : scan.tokens.toList = stage.tokens
  columns : scan.columns = stage.columns
  keyAllowed : scan.keyAllowed = stage.keyAllowed
  rest : ∃ index line, scan.rest = Spot.placeFrom index line stage.column stage.chars
  outer : scan.outer = []
  possible : scan.possible.any (·.required) = false
  unfinished : scan.isFinished = false

theorem Shows.size {scan : YamlScan} {stage : Stage} (shows : Shows scan stage) :
    stage.tokens.length = scan.tokens.size := by
  rw [← Array.length_toList, shows.tokens]

/-- The scan comes to an end, as `final`, whenever there are more steps than
characters. -/
def Ends (scan final : YamlScan) : Prop :=
  final.isFinished = true ∧ ∀ steps, scan.rest.length < steps → run steps scan = final

/-- From a scan at the first stage one comes to a scan at the second that ends in the same
way. -/
def Leads (before after : Stage) : Prop :=
  ∀ scan, Shows scan before → ∃ next, Shows next after ∧ ∀ final, Ends next final →
    Ends scan final

theorem Leads.refl (stage : Stage) : Leads stage stage :=
  fun scan shows => ⟨scan, shows, fun _ ends => ends⟩

theorem Leads.trans {first second third : Stage} (before : Leads first second)
    (after : Leads second third) : Leads first third := by
  intro scan shows
  obtain ⟨middle, middleShows, back⟩ := before scan shows
  obtain ⟨last, lastShows, further⟩ := after middle middleShows
  exact ⟨last, lastShows, fun final ends => back final (further final ends)⟩

theorem Ends.of_next? {scan next final : YamlScan} (unfinished : scan.isFinished = false)
    (step : scan.next? = some next) (shorter : next.rest.length < scan.rest.length)
    (ends : Ends next final) : Ends scan final := by
  refine ⟨ends.1, fun steps enough => ?_⟩
  obtain ⟨steps, rfl⟩ : ∃ fewer, steps = fewer + 1 := ⟨steps - 1, by omega⟩
  rw [run, unfinished, step]
  exact ends.2 steps (by omega)

theorem Ends.of_next?_eq {scan other final : YamlScan}
    (unfinished : scan.isFinished = false) (otherUnfinished : other.isFinished = false)
    (same : scan.next? = other.next?) (shorter : other.rest.length ≤ scan.rest.length)
    (ends : Ends other final) : Ends scan final := by
  refine ⟨ends.1, fun steps enough => ?_⟩
  obtain ⟨steps, rfl⟩ : ∃ fewer, steps = fewer + 1 := ⟨steps - 1, by omega⟩
  have reached := ends.2 (steps + 1) (by omega)
  rw [run, otherUnfinished] at reached
  rw [run, unfinished, same]
  cases step : other.next? with
  | none =>
      -- A scan that is stuck has not come to an end.
      rw [step] at reached
      have stuck : other = final := reached
      have ended := ends.1
      rw [← stuck, otherUnfinished] at ended
      cases ended
  | some next =>
      rw [step] at reached
      exact reached

/-- Scans of which one only has skipped more than the other. -/
theorem next?_eq_of_skip {scan other : YamlScan} (same : scan.skip = other.skip) :
    scan.next? = other.next? := by
  rw [next?, next?, same]

theorem leads_space (tokens : List YamlToken) (columns : List ℕ) (allowed : Bool)
    (column : ℕ) (chars : List Char) :
    Leads ⟨tokens, columns, allowed, column, ' ' :: chars⟩
      ⟨tokens, columns, allowed, column + 1, chars⟩ := by
  intro scan shows
  obtain ⟨index, line, rest⟩ := shows.rest
  rw [Spot.placeFrom_cons_of_not_isBreak (by decide)] at rest
  refine ⟨scan.withRest (Spot.placeFrom (index + 1) line (column + 1) chars),
    ⟨shows.tokens, shows.columns, shows.keyAllowed, ⟨_, _, rfl⟩, shows.outer,
      shows.possible, shows.unfinished⟩, fun final => ?_⟩
  refine Ends.of_next?_eq shows.unfinished shows.unfinished (next?_eq_of_skip ?_) ?_
  · simp only [YamlScan.skip, withRest, inBrackets, rest]
    rfl
  · simp [rest, withRest]

theorem leads_spaces (tokens : List YamlToken) (columns : List ℕ) (allowed : Bool)
    (column width : ℕ) (chars : List Char) :
    Leads ⟨tokens, columns, allowed, column, List.replicate width ' ' ++ chars⟩
      ⟨tokens, columns, allowed, column + width, chars⟩ := by
  induction width generalizing column with
  | zero => exact .refl _
  | succ width ih =>
      rw [List.replicate_succ, List.cons_append, Nat.add_comm width, ← Nat.add_assoc]
      exact (leads_space _ _ _ _ _).trans (ih _)

theorem leads_break (tokens : List YamlToken) (columns : List ℕ) (allowed : Bool)
    (column : ℕ) (chars : List Char) :
    Leads ⟨tokens, columns, allowed, column, '\n' :: chars⟩
      ⟨tokens, columns, true, 0, chars⟩ := by
  intro scan shows
  obtain ⟨index, line, rest⟩ := shows.rest
  rw [Spot.placeFrom_cons_of_isBreak (by decide)] at rest
  refine ⟨(scan.withRest (Spot.placeFrom (index + 1) (line + 1) 0 chars)).allowKey true,
    ⟨shows.tokens, shows.columns, rfl, ⟨_, _, rfl⟩, shows.outer, shows.possible,
      shows.unfinished⟩, fun final => ?_⟩
  refine Ends.of_next?_eq shows.unfinished shows.unfinished (next?_eq_of_skip ?_) ?_
  · have skipped := Spot.skip_newLine false .blanks false true
      (Spot.placeFrom (index + 1) (line + 1) 0 chars)
    have first : Spot.skip false .blanks (!scan.keyAllowed) false scan.rest =
        Spot.skip false .blanks false true
          (Spot.placeFrom (index + 1) (line + 1) 0 chars) := by
      rw [rest]
      rfl
    have outside : scan.inBrackets = false := by simp [inBrackets, shows.outer]
    simp only [YamlScan.skip, outside, Bool.false_or, first, skipped]
    simp [withRest, allowKey, inBrackets, shows.outer]
  · simp [rest, withRest, allowKey]

theorem inBrackets_eq_false {scan : YamlScan} (outer : scan.outer = []) :
    scan.inBrackets = false := by
  simp [inBrackets, outer]

section

variable {scan : YamlScan} {index line column : ℕ} {char : Char} {chars : List Char}

theorem skip_of_solid (outer : scan.outer = [])
    (rest : scan.rest = Spot.placeFrom index line column chars) (solid : Solid chars) :
    scan.skip = scan := by
  have nothing : Spot.skip false .blanks (!scan.keyAllowed) false scan.rest =
      (false, scan.rest) := by
    cases chars with
    | nil =>
        rw [rest]
        rfl
    | cons char chars =>
        obtain ⟨filled, inside, uncommented⟩ := solid char rfl
        simp only [YamlValue.isBlank, Bool.or_eq_false_iff] at filled
        rw [rest, Spot.placeFrom_cons_of_not_isBreak inside]
        simp [Spot.skip, Spot.isBreak, inside, filled.1, filled.2, uncommented]
  simp only [YamlScan.skip, inBrackets_eq_false outer, Bool.false_or, nothing,
    Bool.false_and, Bool.or_false]

/-- The characters are not those of a line that divides documents. -/
def Undivided (chars : List Char) : Prop :=
  ['-', '-', '-'].isPrefixOf chars = false ∧ ['.', '.', '.'].isPrefixOf chars = false

theorem isDivider_placeFrom {chars : List Char} (undivided : Undivided chars)
    (index line column : ℕ) : Spot.isDivider (Spot.placeFrom index line column chars) =
      false := by
  rw [Undivided, ← @Spot.map_char_placeFrom index line column chars] at undivided
  generalize Spot.placeFrom index line column chars = spots at undivided
  rw [Bool.eq_false_iff]
  intro divides
  match spots with
  | [] | [_] | [_, _] => cases divides
  | a :: b :: c :: rest =>
      simp only [Spot.isDivider, Bool.and_eq_true, Bool.or_eq_true, beq_iff_eq] at divides
      obtain ⟨⟨⟨⟨-, mark⟩, first⟩, second⟩, -⟩ := divides
      rcases mark with mark | mark
      · simp [← second, ← first, mark] at undivided
      · simp [← second, ← first, mark] at undivided

/-- Nothing closes before what stands right of the open blocks. -/
theorem next?_eq_part? (outer : scan.outer = [])
    (rest : scan.rest = Spot.placeFrom index line column (char :: chars))
    (solid : Solid (char :: chars))
    (inside : ∀ outer ∈ scan.columns.head?, outer ≤ column) (undirected : char ≠ '%')
    (undivided : Undivided (char :: chars)) :
    scan.next? = scan.part? ⟨char, index, line, column⟩
      (Spot.placeFrom (index + 1) line (column + 1) chars) := by
  have unbroken := (solid char rfl).2.1
  have kept : scan.closeBlocks (column < ·) = scan := by
    have unclosed : scan.columns.takeWhile (column < ·) = [] ∧
        scan.columns.dropWhile (column < ·) = scan.columns := by
      cases columns : scan.columns with
      | nil => simp
      | cons outer others => simp [inside outer (by simp [columns])]
    simp [closeBlocks, inBrackets_eq_false outer, unclosed]
  have divided := isDivider_placeFrom undivided index line column
  rw [next?, skip_of_solid outer rest solid, rest]
  rw [Spot.placeFrom_cons_of_not_isBreak unbroken] at rest divided ⊢
  simp only [kept, rest, divided, beq_eq_false_iff_ne.mpr undirected]
  simp

end

theorem closeBlocks_cons {scan : YamlScan} {closes : ℕ → Bool} {column : ℕ}
    {columns : List ℕ} (outer : scan.outer = [])
    (open_ : scan.columns = column :: columns) (closed : closes column = true) :
    scan.closeBlocks closes =
      { scan with tokens := scan.tokens.push .blockEnd, columns }.closeBlocks closes := by
  have tokens (count : ℕ) : scan.tokens ++ Array.replicate (count + 1)
      YamlToken.blockEnd =
      scan.tokens.push .blockEnd ++ Array.replicate count YamlToken.blockEnd := by
    apply Array.toList_inj.mp
    simp [List.replicate_succ]
  simp [closeBlocks, inBrackets, outer, open_, closed, tokens]

/-- A block is closed as soon as something stands left of it, or the text ends. -/
theorem leads_close (tokens : List YamlToken) {inner : ℕ} (columns : List ℕ)
    (allowed : Bool) {column : ℕ} {chars : List Char} (solid : Solid chars)
    (outside : chars = [] ∨ column < inner) :
    Leads ⟨tokens, inner :: columns, allowed, column, chars⟩
      ⟨tokens ++ [.blockEnd], columns, allowed, column, chars⟩ := by
  intro scan shows
  let closed : YamlScan := { scan with tokens := scan.tokens.push .blockEnd, columns }
  have closedShows : Shows closed ⟨tokens ++ [.blockEnd], columns, allowed, column,
    chars⟩ :=
    ⟨by simp [closed, shows.tokens], rfl, shows.keyAllowed, shows.rest, shows.outer,
      shows.possible, by simp [closed, isFinished, YamlToken.isTextEnd]⟩
  refine ⟨closed, closedShows, fun final => ?_⟩
  refine Ends.of_next?_eq shows.unfinished closedShows.unfinished ?_ (Nat.le_refl _)
  obtain ⟨index, line, rest⟩ := shows.rest
  have closedRest : closed.rest = scan.rest := rfl
  rw [next?, next?, skip_of_solid shows.outer rest solid,
    skip_of_solid closedShows.outer (closedRest.trans rest) solid]
  rw [closedRest, rest]
  cases chars with
  | nil =>
      simp only [Spot.placeFrom, finish?]
      rw [closeBlocks_cons shows.outer shows.columns rfl]
  | cons char chars =>
      have inside := (solid char rfl).2.1
      have left : column < inner := by simpa using outside
      simp only [Spot.placeFrom_cons_of_not_isBreak inside]
      rw [closeBlocks_cons shows.outer shows.columns (decide_eq_true left)]

/-- How a block at a column is open before one of its parts: the marks that open it, and
the columns of the open blocks with it. -/
inductive Opens (column : ℕ) (mark : YamlToken) : List ℕ → List YamlToken → List ℕ → Prop
  | already (columns : List ℕ) :
    Opens column mark (column :: columns) [] (column :: columns)
  | anew {columns : List ℕ} (inside : ∀ outer ∈ columns.head?, outer < column) :
      Opens column mark columns [mark] (column :: columns)

theorem toList_insertIdxIfInBounds {tokens : Array YamlToken}
    {before after : List YamlToken} (parts : tokens.toList = before ++ after)
    (token : YamlToken) :
    (tokens.insertIdxIfInBounds before.length token).toList =
      before ++ token :: after := by
  have bounded : before.length ≤ tokens.size := by
    rw [← Array.length_toList, parts]
    simp
  rw [Array.insertIdxIfInBounds, dif_pos bounded, Array.toList_insertIdx, parts]
  clear parts bounded
  induction before with
  | nil => simp
  | cons first before ih => simp [ih]

section Opens

variable {column : ℕ} {mark : YamlToken} {columns opened : List ℕ}
    {marks : List YamlToken}

theorem Opens.head_le (opens : Opens column mark columns marks opened) :
    ∀ outer ∈ columns.head?, outer ≤ column := by
  cases opens with
  | already columns => simp
  | anew inside => exact fun outer mem => Nat.le_of_lt (inside outer mem)

theorem Opens.openBlock {scan : YamlScan} (opens : Opens column mark columns marks opened)
    (outer : scan.outer = []) (sameColumns : scan.columns = columns)
    {before after : List YamlToken} (tokens : scan.tokens.toList = before ++ after) :
    ∃ changed, changed.toList = before ++ marks ++ after ∧
      scan.openBlock column before.length mark =
        { scan with tokens := changed, columns := opened } := by
  cases opens with
  | already columns =>
      refine ⟨scan.tokens, by simpa using tokens, ?_⟩
      have shut : ¬ scan.least ≤ column := by simp [least, sameColumns]
      rw [YamlScan.openBlock, ← sameColumns]
      simp [shut]
  | anew inside =>
      have reached : scan.least ≤ column := by
        cases columns with
        | nil => simp [least, sameColumns]
        | cons outer columns =>
            have := inside outer rfl
            simp only [least, sameColumns]
            omega
      refine ⟨scan.tokens.insertIdxIfInBounds before.length mark, ?_, ?_⟩
      · rw [toList_insertIdxIfInBounds tokens]
        simp
      · simp [YamlScan.openBlock, inBrackets, outer, reached, sameColumns]

/-- The dash of an item, which opens its list if it is the first one. -/
theorem leads_dash (opens : Opens column .listStart columns marks opened)
    (tokens : List YamlToken) {chars : List Char}
    (apart : ∀ char ∈ chars.head?, char = ' ' ∨ char = '\n') :
    Leads ⟨tokens, columns, true, column, '-' :: chars⟩
      ⟨tokens ++ marks ++ [.dash], opened, true, column + 1, chars⟩ := by
  intro scan shows
  have solid : Solid ('-' :: chars) := by
    intro char first
    cases first
    decide
  have undivided : Undivided ('-' :: chars) := by
    cases chars with
    | nil => exact ⟨rfl, rfl⟩
    | cons char chars => rcases apart char rfl with rfl | rfl <;> exact ⟨rfl, rfl⟩
  obtain ⟨index, line, rest⟩ := shows.rest
  have step := next?_eq_part? shows.outer rest solid
    (by simpa [shows.columns] using opens.head_le) (by decide) undivided
  have alone : Spot.endsWord (Spot.placeFrom (index + 1) line (column + 1) chars) =
      true := by
    rw [Spot.endsWord_placeFrom]
    cases chars with
    | nil => rfl
    | cons char chars => rcases apart char rfl with rfl | rfl <;> rfl
  obtain ⟨changed, tokens_eq, opened_eq⟩ :=
    opens.openBlock shows.outer shows.columns
      (shows.tokens.trans (List.append_nil tokens).symm)
  have size : tokens.length = scan.tokens.size := shows.size
  rw [size] at opened_eq
  let next : YamlScan :=
    { scan with
      rest := Spot.placeFrom (index + 1) line (column + 1) chars
      tokens := changed.push .dash, columns := opened, possible := none
      keyAllowed := true }
  have dashed : scan.next? = some next := by
    rw [step, part?]
    simp [alone, dash?, shows.keyAllowed, opened_eq, dropKey?, shows.possible, push,
      allowKey, withRest, next]
  refine ⟨next, ⟨?_, rfl, rfl, ⟨_, _, rfl⟩, shows.outer, rfl, ?_⟩, fun final => ?_⟩
  · simp [next, tokens_eq]
  · simp [next, isFinished, YamlToken.isTextEnd]
  · refine Ends.of_next? shows.unfinished dashed ?_
    simp [next, rest]

end Opens

end YamlScan

end CostTape
