import CostTape.Proofs.Yaml.Token

/-! The tokens of a written value. -/

namespace CostTape

namespace YamlValue

/-- The text is not written as a block that starts with a blank or a line break: the
reader takes the indentation of such a block for a part of it, or a part of it for
indentation. -/
def KeepsText (body : String) : Prop :=
  '\n' ∈ body.toList → allowsBlock body.toList = true →
    body.toList.head?.any (fun first => isBlank first || isBreak first) = false

instance : DecidablePred KeepsText := fun _ => inferInstanceAs (Decidable (_ → _ → _ = _))

mutual

/-- What is read for a value: a text that is written without quotes is read as a word. -/
def asRead : YamlValue → YamlValue
  | word body => word body
  | text body => ofText body
  | list items => list (itemsAsRead items)
  | mapping entries => mapping (entriesAsRead entries)

def itemsAsRead : List YamlValue → List YamlValue
  | [] => []
  | item :: items => asRead item :: itemsAsRead items

def entriesAsRead : List (YamlValue × YamlValue) → List (YamlValue × YamlValue)
  | [] => []
  | (key, value) :: entries => (key, asRead value) :: entriesAsRead entries

end

mutual

/-- The tokens of the written form. -/
def tokens : YamlValue → List YamlToken
  | word body => [.scalar (word body)]
  | text body => [.scalar (ofText body)]
  | list [] => [.openList, .closeList]
  | list items => .listStart :: (itemTokens items ++ [.blockEnd])
  | mapping [] => [.openMapping, .closeMapping]
  | mapping entries => .mappingStart :: (entryTokens entries ++ [.blockEnd])

def itemTokens : List YamlValue → List YamlToken
  | [] => []
  | item :: items => .dash :: (tokens item ++ itemTokens items)

def entryTokens : List (YamlValue × YamlValue) → List YamlToken
  | [] => []
  | (key, value) :: entries =>
      .key :: .scalar key :: .colon :: (tokens value ++ entryTokens entries)

end

/-- A key that is a word, and not too long for a colon to reach it. -/
def IsKey (key : YamlValue) : Prop :=
  ∃ name, key = word name ∧ name ≠ "" ∧ allowsWord name.toList = true ∧ name.length ≤ 1024

/-- A value whose words and texts are read back. -/
inductive Kept : YamlValue → Prop
  | word {body : String} (filled : body ≠ "") (allowed : allowsWord body.toList = true) :
      Kept (word body)
  | text {body : String} (keeps : KeepsText body) : Kept (text body)
  | list {items : List YamlValue} (kept : ∀ item ∈ items, Kept item) : Kept (list items)
  | mapping {entries : List (YamlValue × YamlValue)}
      (keys : ∀ entry ∈ entries, IsKey entry.1)
      (kept : ∀ entry ∈ entries, Kept entry.2) : Kept (mapping entries)

theorem exists_cons_of_ne_empty {body : String} (filled : body ≠ "") :
    ∃ first chars, body.toList = first :: chars := by
  cases spelled : body.toList with
  | nil => exact absurd (String.toList_eq_nil_iff.mp spelled) filled
  | cons first chars => exact ⟨first, chars, rfl⟩

theorem allowsWord_ends {chars : List Char} (allowed : allowsWord chars = true) :
    ∀ last ∈ chars.getLast?, isBreak last = false :=
  fun last isLast =>
    ((runs_of_allowsWord allowed).plain last (List.mem_of_getLast? isLast)).2

section Leads

open YamlScan

variable {found : List YamlToken} {inner : ℕ} {outer : List ℕ} {allowed : Bool}
    {column : ℕ}
  {count : ℕ} {rest : List Char}

theorem leads_wordForm {body : String} (filled : body ≠ "")
    (word : allowsWord body.toList = true) (right : inner < column)
    (follows : Follows inner count rest) : Leads ⟨found, inner :: outer, allowed, column,
        body.toList ++ (lineEnd body.toList ++ (List.replicate count ' ' ++ rest))⟩
      ⟨found ++ [.scalar (.word body)], inner :: outer, true, count, rest⟩ := by
  rw [lineEnd_of_not_isBreak (allowsWord_ends word)]
  obtain ⟨first, chars, spelled⟩ := exists_cons_of_ne_empty filled
  have whole : String.ofList (first :: chars) = body := by
    rw [← spelled, String.ofList_toList]
  rw [spelled] at word ⊢
  have leads := @leads_word found inner outer allowed column _ _ word right _ _ follows
  rwa [whole] at leads

/-- A quoted text before the next line. -/
theorem leads_quotedForm {body form : String} (leads : ∀ after, Leads
      ⟨found, inner :: outer, allowed, column, form.toList ++ '\n' :: after⟩
      ⟨found ++ [.scalar (.text body)], inner :: outer, true, 0, after⟩)
    (ends : ∀ last ∈ form.toList.getLast?, isBreak last = false) :
    Leads ⟨found, inner :: outer, allowed, column,
        form.toList ++ (lineEnd form.toList ++ (List.replicate count ' ' ++ rest))⟩
      ⟨found ++ [.scalar (.text body)], inner :: outer, true, count, rest⟩ := by
  rw [lineEnd_of_not_isBreak ends]
  have spaces := leads_spaces (found ++ [.scalar (.text body)])
    (inner :: outer) true 0 count rest
  rw [Nat.zero_add] at spaces
  exact (leads _).trans spaces

theorem leads_doubleForm (body : String) (right : inner < column) :
    Leads ⟨found, inner :: outer, allowed, column,
        (doubleQuoted body.toList).toList ++
          (lineEnd (doubleQuoted body.toList).toList ++
            (List.replicate count ' ' ++ rest))⟩
      ⟨found ++ [.scalar (.text body)], inner :: outer, true, count, rest⟩ := by
  refine leads_quotedForm (fun after => ?_) ?_
  · have leads := @leads_double found inner outer allowed column body.toList right after
    rwa [String.ofList_toList] at leads
  · obtain ⟨escape, -, written⟩ := toList_doubleQuoted body.toList
    rw [written, ← List.cons_append, List.getLast?_concat]
    intro last isLast
    cases isLast
    decide

theorem leads_singleForm {width : ℕ} (wide : 0 < width) {body : String}
    (single : allowsSingle body.toList = true) (unlined : '\n' ∉ body.toList)
    (right : inner < column) :
    Leads ⟨found, inner :: outer, allowed, column,
        (singleQuoted width body.toList).toList ++
          (lineEnd (singleQuoted width body.toList).toList ++
            (List.replicate count ' ' ++ rest))⟩
      ⟨found ++ [.scalar (.text body)], inner :: outer, true, count, rest⟩ := by
  refine leads_quotedForm (fun after => ?_) ?_
  · have leads := @leads_single found inner outer allowed column width wide
      body.toList single unlined right after
    rwa [String.ofList_toList] at leads
  · have quote : ("'" : String).toList = ['\''] := rfl
    rw [singleQuoted, String.toList_append, quote, List.getLast?_concat]
    intro last isLast
    cases isLast
    decide

/-- A text in any of its forms. -/
theorem leads_textForm {unit width : ℕ} {body : String} (keeps : KeepsText body)
    (right : inner < column) (deep : inner < width) (follows : Follows inner count rest) :
    Leads ⟨found, inner :: outer, allowed, column,
        (textForm unit width body).toList ++
          (lineEnd (textForm unit width body).toList ++
            (List.replicate count ' ' ++ rest))⟩
      ⟨found ++ [.scalar (ofText body)], inner :: outer, true, count, rest⟩ := by
  unfold textForm
  by_cases lined : body.toList.contains '\n' = true
  · have breaks : '\n' ∈ body.toList := by simpa using lined
    have read : ofText body = text body := if_neg (by simp [breaks])
    rw [read]
    by_cases block : allowsBlock body.toList = true
    · obtain ⟨first, chars, spelled⟩ : ∃ first chars, body.toList = first :: chars :=
        List.exists_cons_of_ne_nil (List.ne_nil_of_mem breaks)
      obtain ⟨solid, unbroken⟩ : isBlank first = false ∧ isBreak first = false := by
        simpa [spelled] using keeps breaks block
      have leads := @leads_block found inner outer allowed column unit width count first
        chars rest deep solid unbroken right follows
      have ends := @lineEnd_literalBlock width first chars unit
      rw [← spelled] at leads ends
      rw [String.ofList_toList] at leads
      simp only [if_pos lined, if_pos block, ends]
      exact leads
    · simp only [if_pos lined, if_neg block]
      exact leads_doubleForm body right
  · have unlined : '\n' ∉ body.toList := by simpa using lined
    by_cases isText : YamlWord.isText body = true
    · by_cases plain : allowsWord body.toList = true
      · have filled : body ≠ "" := by
          rintro rfl
          exact absurd isText (by decide)
        have read : ofText body = word body :=
          if_pos ⟨by simpa using lined, isText, plain⟩
        simp only [if_neg lined, if_pos isText, if_pos plain, read]
        exact leads_wordForm filled plain right follows
      · have read : ofText body = text body := if_neg (by simp [plain])
        by_cases single : allowsSingle body.toList = true
        · simp only [if_neg lined, if_pos isText, if_neg plain, if_pos single, read]
          exact leads_singleForm (by omega) single unlined right
        · simp only [if_neg lined, if_pos isText, if_neg plain, if_neg single, read]
          exact leads_doubleForm body right
    · have read : ofText body = text body := if_neg (by simp [isText])
      simp only [if_neg lined, if_neg isText, read]
      exact leads_doubleForm body right

/-- What follows the colon of a key is read as the value. -/
def ColonLeads (unit : ℕ) (value : YamlValue) : Prop :=
  ∀ (found : List YamlToken) {inner : ℕ} (outer : List ℕ) {column count : ℕ}
    {rest : List Char}, inner < column → Follows inner count rest →
      Leads ⟨found, inner :: outer, false, column,
          (afterColon unit inner value).toList ++ (List.replicate count ' ' ++ rest)⟩
        ⟨found ++ value.tokens, inner :: outer, true, count, rest⟩

/-- What follows the dash of an item is read as the value. -/
def DashLeads (unit : ℕ) (value : YamlValue) : Prop :=
  ∀ (found : List YamlToken) {inner : ℕ} (outer : List ℕ) {count : ℕ} {rest : List Char},
    Follows inner count rest →
      Leads ⟨found, inner :: outer, true, inner + 1,
          (afterDash unit inner value).toList ++ (List.replicate count ' ' ++ rest)⟩
        ⟨found ++ value.tokens, inner :: outer, true, count, rest⟩

theorem toList_endLine_space (body : String) (tail : List Char) :
    (endLine (" " ++ body)).toList ++ tail =
      ' ' :: (body.toList ++ (lineEnd body.toList ++ tail)) := by
  have space : (" " : String).toList = [' '] := rfl
  have same : lineEnd (' ' :: body.toList) = lineEnd body.toList := by
    cases spelled : body.toList with
    | nil => rfl
    | cons first chars => exact @lineEnd_append _ [' '] (by simp)
  rw [toList_endLine, String.toList_append, space, List.singleton_append, same,
    List.cons_append, List.cons_append, List.append_assoc]

theorem toList_break_append (body : String) (tail : List Char) :
    ("\n" ++ body).toList ++ tail = '\n' :: (body.toList ++ tail) := by
  have feed : ("\n" : String).toList = ['\n'] := rfl
  simp [feed]

theorem toList_space_append (body : String) (tail : List Char) :
    (" " ++ body).toList ++ tail = ' ' :: (body.toList ++ tail) := by
  have space : (" " : String).toList = [' '] := rfl
  simp [space]

theorem toList_brackets : (" []\n" : String).toList = [' ', '[', ']', '\n'] := rfl

theorem toList_braces : (" \x7b\x7d\n" : String).toList = [' ', '\x7b', '\x7d', '\n'] :=
  rfl

theorem head?_afterDash (unit column : ℕ) (value : YamlValue) (tail : List Char) :
    ∀ next ∈ ((afterDash unit column value).toList ++ tail).head?, next = ' ' ∨
      next = '\n' := by
  have spaced (body : String) : ∀ next ∈ ((" " ++ body).toList ++ tail).head?,
      next = ' ' ∨ next = '\n' := by
    rw [toList_space_append]
    simp
  have broken (body : String) : ∀ next ∈ (("\n" ++ body).toList ++ tail).head?,
      next = ' ' ∨ next = '\n' := by
    rw [toList_break_append]
    simp
  match value with
  | word body =>
      rw [afterDash, toList_endLine_space]
      simp
  | text body =>
      rw [afterDash, toList_endLine_space]
      simp
  | list [] => exact spaced "[]\n"
  | list (item :: items) => exact broken _
  | mapping [] => exact spaced "\x7b\x7d\n"
  | mapping (entry :: entries) => exact spaced _

/-- One item of a list, which the first one opens. -/
theorem leads_item {unit : ℕ} {item : YamlValue} (dash : DashLeads unit item)
    {columns : List ℕ} {marks : List YamlToken}
    (opens : Opens inner .listStart columns marks (inner :: outer))
    (follows : Follows inner count rest) :
    Leads ⟨found, columns, true, inner,
        '-' :: ((afterDash unit inner item).toList ++ (List.replicate count ' ' ++ rest))⟩
      ⟨found ++ marks ++ .dash :: item.tokens, inner :: outer, true, count, rest⟩ := by
  have marked := leads_dash opens found
    (head?_afterDash unit inner item (List.replicate count ' ' ++ rest))
  have valued := dash (found ++ marks ++ [.dash]) outer follows
  simp only [List.append_assoc, List.cons_append, List.nil_append] at marked valued ⊢
  exact marked.trans valued

theorem toList_writeItems_cons (unit column : ℕ) (item : YamlValue)
    (items : List YamlValue) (tail : List Char) :
    (writeItems unit column (item :: items)).toList ++ tail =
      List.replicate column ' ' ++ '-' ::
        ((afterDash unit column item).toList ++
          ((writeItems unit column items).toList ++ tail)) := by
  have dash : ("-" : String).toList = ['-'] := rfl
  simp [writeItems, padding, Text.toList_pushn, dash]

theorem solid_dash (chars : List Char) : Solid ('-' :: chars) := by
  intro char isFirst
  cases isFirst
  decide

/-- The items after the first one, which start with the next line of the list or what
follows the list. -/
theorem leads_items {unit : ℕ} {items : List YamlValue}
    (each : ∀ item ∈ items, DashLeads unit item) (follows : Follows inner count rest) :
    ∃ count' rest', (writeItems unit inner items).toList ++
      (List.replicate count ' ' ++ rest) =
        List.replicate count' ' ' ++ rest' ∧
      Follows inner count' rest' ∧ ∀ found,
      Leads ⟨found, inner :: outer, true, count', rest'⟩
        ⟨found ++ itemTokens items, inner :: outer, true, count, rest⟩ := by
  induction items with
  | nil =>
      refine ⟨count, rest, rfl, follows, fun found => ?_⟩
      rw [itemTokens, List.append_nil]
      exact .refl _
  | cons item items ih =>
      obtain ⟨count', rest', written, goesOn, leads⟩ :=
        ih fun item mem => each item (List.mem_cons_of_mem _ mem)
      refine ⟨inner, _, toList_writeItems_cons unit inner item items _,
        ⟨le_rfl, solid_dash _⟩, fun found => ?_⟩
      rw [written]
      have first := @leads_item found inner outer count' rest' unit item
        (each item List.mem_cons_self) _ _ (.already outer) goesOn
      have others := leads (found ++ [] ++ .dash :: item.tokens)
      simp only [List.append_nil, List.append_assoc, List.cons_append] at first others
      exact first.trans others

/-- A list from its first dash to its last item. -/
theorem leads_list {unit : ℕ} {item : YamlValue} {items : List YamlValue}
    (each : ∀ other ∈ item :: items, DashLeads unit other)
    (inside : ∀ column ∈ outer.head?, column < inner)
    (follows : Follows inner count rest) : Leads ⟨found, outer, true, 0,
        (writeItems unit inner (item :: items)).toList ++
          (List.replicate count ' ' ++ rest)⟩
      ⟨found ++ .listStart :: itemTokens (item :: items), inner :: outer, true, count,
        rest⟩ := by
  obtain ⟨count', rest', written, goesOn, leads⟩ :=
    @leads_items inner outer count rest unit items
      (fun item mem => each item (List.mem_cons_of_mem _ mem)) follows
  have first := @leads_item found inner outer count' rest' unit item
    (each item List.mem_cons_self) _ _ (.anew inside) goesOn
  have others := leads (found ++ [.listStart] ++ .dash :: item.tokens)
  have indented := leads_spaces found outer true 0 inner
    ('-' :: ((afterDash unit inner item).toList ++ (List.replicate count' ' ' ++ rest')))
  rw [toList_writeItems_cons, written]
  simp only [List.append_assoc, List.cons_append, List.nil_append, Nat.zero_add]
    at indented first others
  exact indented.trans (first.trans others)

theorem head_of_allowsWord {body : String} (filled : body ≠ "")
    (allowed : allowsWord body.toList = true) :
    ∃ first chars, body.toList = first :: chars ∧ isBlank first = false ∧
      first ≠ '#' := by
  obtain ⟨first, chars, spelled⟩ := exists_cons_of_ne_empty filled
  rw [spelled] at allowed
  have solid := (@first_of_allowsWord first chars [] allowed).2.2.1 first rfl
  exact ⟨first, chars, spelled, solid.1, solid.2.2⟩

/-- The form of a text does not start like a comment. -/
theorem head_textForm (unit width : ℕ) (body : String) :
    ∃ first chars, (textForm unit width body).toList = first :: chars ∧
      isBlank first = false ∧ first ≠ '#' := by
  have double (chars : List Char) : ∃ first more,
      (doubleQuoted chars).toList = first :: more ∧
      isBlank first = false ∧ first ≠ '#' := by
    obtain ⟨more, written, -⟩ := doubleChars_doubleQuoted chars
    exact ⟨'"', more, written, by decide, by decide⟩
  unfold textForm
  dsimp only
  split
  · split
    · have bar : ("|" : String).toList = ['|'] := rfl
      exact ⟨'|',
        (blockHints unit body.toList ++ blockBody width .header
          body.toList).toList, by simp [literalBlock, bar], by decide, by decide⟩
    · exact double _
  · split
    · split
      · rename_i isText plain
        have filled : body ≠ "" := by
          rintro rfl
          exact absurd isText (by decide)
        exact head_of_allowsWord filled plain
      · split
        · have quote : ("'" : String).toList = ['\''] := rfl
          exact ⟨'\'', (singleBody width false body.toList ++ "'").toList,
            by simp [singleQuoted, quote], by decide, by decide⟩
        · exact double _
    · exact double _

theorem afterColon_afterColon (unit column : ℕ) {value : YamlValue} (kept : Kept value)
    (tail : List Char) : AfterColon ((afterColon unit column value).toList ++ tail) := by
  have spaced {body tail : List Char} (head : ∃ first chars, body = first :: chars ∧
      isBlank first = false ∧ first ≠ '#') : AfterColon (' ' :: (body ++ tail)) := by
    obtain ⟨first, chars, rfl, solid, uncommented⟩ := head
    have blank : isBlank ' ' = true := rfl
    exact ⟨by simp, by simp [blank, solid, uncommented]⟩
  have broken (body : String) : AfterColon (("\n" ++ body).toList ++ tail) := by
    have solid : isBlank '\n' = false := rfl
    rw [toList_break_append]
    exact ⟨by simp, by simp [solid]⟩
  match value, kept with
  | word body, .word filled allowed =>
      rw [afterColon, toList_endLine_space]
      exact spaced (head_of_allowsWord filled allowed)
  | text body, _ =>
      rw [afterColon, toList_endLine_space]
      exact spaced (head_textForm unit _ body)
  | list [], _ =>
      rw [afterColon, toList_brackets, List.cons_append]
      exact spaced ⟨'[', _, rfl, by decide, by decide⟩
  | list (item :: items), _ => exact broken _
  | mapping [], _ =>
      rw [afterColon, toList_braces, List.cons_append]
      exact spaced ⟨'\x7b', _, rfl, by decide, by decide⟩
  | mapping (entry :: entries), _ => exact broken _

theorem toList_writeEntries_cons (unit column : ℕ) (indented : Bool) (name : String)
    (value : YamlValue) (entries : List (YamlValue × YamlValue)) (tail : List Char) :
    (writeEntries unit column indented ((word name, value) :: entries)).toList ++ tail =
      List.replicate (if indented then column else 0) ' ' ++ (name.toList ++ ':' ::
        ((afterColon unit column value).toList ++
          ((writeEntries unit column true entries).toList ++ tail))) := by
  have colon : (":" : String).toList = [':'] := rfl
  cases indented <;> simp [writeEntries, keyForm, padding, Text.toList_pushn, colon]

/-- One entry of a mapping, which the first one opens. -/
theorem leads_entry {unit : ℕ} {name : String} {value : YamlValue}
    (key : IsKey (word name)) (kept : Kept value) (colon : ColonLeads unit value)
    {columns : List ℕ} {marks : List YamlToken}
    (opens : Opens inner .mappingStart columns marks (inner :: outer))
    (follows : Follows inner count rest) :
    Leads ⟨found, columns, true, inner, name.toList ++ ':' ::
        ((afterColon unit inner value).toList ++ (List.replicate count ' ' ++ rest))⟩
      ⟨found ++ marks ++ .key :: .scalar (word name) :: .colon :: value.tokens,
        inner :: outer, true, count, rest⟩ := by
  obtain ⟨other, same, filled, allowed, short⟩ := key
  cases same
  obtain ⟨first, chars, spelled⟩ := exists_cons_of_ne_empty filled
  have whole : String.ofList (first :: chars) = name := by
    rw [← spelled, String.ofList_toList]
  have length : chars.length < 1024 := by
    rw [← String.length_toList, spelled] at short
    exact short
  rw [spelled] at allowed ⊢
  have marked := leads_key opens found allowed length
    (afterColon_afterColon unit inner kept (List.replicate count ' ' ++ rest))
  rw [whole] at marked
  have valued := @colon (found ++ marks ++ [.key, .scalar (word name), .colon])
    inner outer (inner + (chars.length + 1) + 1) count rest (by omega) follows
  simp only [List.append_assoc, List.cons_append, List.nil_append] at marked valued ⊢
  exact marked.trans valued

theorem solid_key {name : String} (key : IsKey (word name)) (chars : List Char) :
    Solid (name.toList ++ chars) := by
  obtain ⟨other, same, filled, allowed, -⟩ := key
  cases same
  obtain ⟨first, more, spelled⟩ := exists_cons_of_ne_empty filled
  rw [spelled] at allowed ⊢
  exact (first_of_allowsWord allowed).2.2.1

/-- The entries after the first one, which start with the next line of the mapping or what
follows the mapping. -/
theorem leads_entries {unit : ℕ} {entries : List (YamlValue × YamlValue)}
    (keys : ∀ entry ∈ entries, IsKey entry.1) (kept : ∀ entry ∈ entries, Kept entry.2)
    (each : ∀ entry ∈ entries, ColonLeads unit entry.2)
    (follows : Follows inner count rest) :
    ∃ count' rest', (writeEntries unit inner true entries).toList ++
          (List.replicate count ' ' ++ rest) = List.replicate count' ' ' ++ rest' ∧
      Follows inner count' rest' ∧ ∀ found,
      Leads ⟨found, inner :: outer, true, count', rest'⟩
        ⟨found ++ entryTokens entries, inner :: outer, true, count, rest⟩ := by
  induction entries with
  | nil =>
      refine ⟨count, rest, rfl, follows, fun found => ?_⟩
      rw [entryTokens, List.append_nil]
      exact .refl _
  | cons entry entries ih =>
      obtain ⟨key, value⟩ := entry
      obtain ⟨count', rest', written, goesOn, leads⟩ :=
        ih (fun entry mem => keys entry (List.mem_cons_of_mem _ mem))
          (fun entry mem => kept entry (List.mem_cons_of_mem _ mem))
          (fun entry mem => each entry (List.mem_cons_of_mem _ mem))
      have isKey := keys (key, value) List.mem_cons_self
      obtain ⟨name, rfl⟩ : ∃ name, key = word name := ⟨_, isKey.choose_spec.1⟩
      refine ⟨inner, _, toList_writeEntries_cons unit inner true name value entries _,
        ⟨le_rfl, solid_key isKey _⟩, fun found => ?_⟩
      rw [written]
      have first := @leads_entry found inner outer count' rest' unit name value isKey
        (kept (word name, value) List.mem_cons_self)
          (each (word name, value) List.mem_cons_self)
        _ _ (.already outer) goesOn
      have others :=
        leads (found ++ [] ++ .key :: .scalar (word name) :: .colon :: value.tokens)
      simp only [List.append_nil, List.append_assoc, List.cons_append] at first others
      exact first.trans others

/-- A mapping from its first key to its last entry. -/
theorem leads_mapping {unit : ℕ} {indented : Bool} {entry : YamlValue × YamlValue}
    {entries : List (YamlValue × YamlValue)}
    (keys : ∀ other ∈ entry :: entries, IsKey other.1)
    (kept : ∀ other ∈ entry :: entries, Kept other.2)
    (each : ∀ other ∈ entry :: entries, ColonLeads unit other.2)
    (inside : ∀ column ∈ outer.head?, column < inner)
    (follows : Follows inner count rest) :
    Leads ⟨found, outer, true, if indented then 0 else inner,
        (writeEntries unit inner indented (entry :: entries)).toList ++
          (List.replicate count ' ' ++ rest)⟩
      ⟨found ++ .mappingStart :: entryTokens (entry :: entries), inner :: outer,
        true, count, rest⟩ := by
  obtain ⟨key, value⟩ := entry
  have isKey := keys (key, value) List.mem_cons_self
  obtain ⟨name, rfl⟩ : ∃ name, key = word name := ⟨_, isKey.choose_spec.1⟩
  obtain ⟨count', rest', written, goesOn, leads⟩ :=
    @leads_entries inner outer count rest unit entries
      (fun entry mem => keys entry (List.mem_cons_of_mem _ mem))
      (fun entry mem => kept entry (List.mem_cons_of_mem _ mem))
      (fun entry mem => each entry (List.mem_cons_of_mem _ mem)) follows
  have first := @leads_entry found inner outer count' rest' unit name value isKey
    (kept (word name, value) List.mem_cons_self)
    (each (word name, value) List.mem_cons_self)
    _ _ (.anew inside) goesOn
  have others := leads
    (found ++ [.mappingStart] ++ .key :: .scalar (word name) :: .colon :: value.tokens)
  have start := leads_spaces found outer true (if indented then 0 else inner)
    (if indented then inner else 0) (name.toList ++ ':' ::
      ((afterColon unit inner value).toList ++ (List.replicate count' ' ' ++ rest')))
  have place : (if indented = true then 0 else inner) +
      (if indented = true then inner else 0) = inner := by
    cases indented <;> simp
  rw [toList_writeEntries_cons, written]
  rw [place] at start
  simp only [List.append_assoc, List.cons_append, List.nil_append] at first others
  exact start.trans (first.trans others)

theorem lt_deeper {unit : ℕ} (positive : 0 < unit) (column : ℕ) :
    column < deeper unit column := by
  have parts := Nat.div_add_mod (column + unit) unit
  have less := Nat.mod_lt (column + unit) positive
  unfold deeper
  omega

/-- A list in a block, with its end. -/
theorem leads_listBlock {unit deep : ℕ} {item : YamlValue} {items : List YamlValue}
    (each : ∀ other ∈ item :: items, DashLeads unit other) (inside : inner < deep)
    (follows : Follows inner count rest) :
    Leads ⟨found, inner :: outer, true, 0,
        (writeItems unit deep (item :: items)).toList ++
          (List.replicate count ' ' ++ rest)⟩
      ⟨found ++ (list (item :: items)).tokens, inner :: outer, true, count, rest⟩ := by
  have left := follows.left
  have opened := @leads_list found deep (inner :: outer) count rest unit item items each
    (by simpa using inside) ⟨by omega, follows.solid⟩
  have closed := leads_close (found ++ .listStart :: itemTokens (item :: items))
    (inner :: outer) true follows.solid (.inr (by omega : count < deep))
  rw [List.append_assoc, List.cons_append] at closed
  exact opened.trans closed

/-- A mapping in a block, with its end. -/
theorem leads_mappingBlock {unit deep : ℕ} {indented : Bool}
    {entry : YamlValue × YamlValue} {entries : List (YamlValue × YamlValue)}
    (keys : ∀ other ∈ entry :: entries, IsKey other.1)
    (kept : ∀ other ∈ entry :: entries, Kept other.2)
    (each : ∀ other ∈ entry :: entries, ColonLeads unit other.2) (inside : inner < deep)
    (follows : Follows inner count rest) :
    Leads ⟨found, inner :: outer, true, if indented then 0 else deep,
        (writeEntries unit deep indented (entry :: entries)).toList ++
          (List.replicate count ' ' ++ rest)⟩
      ⟨found ++ (mapping (entry :: entries)).tokens, inner :: outer, true, count,
        rest⟩ := by
  have left := follows.left
  have opened := @leads_mapping found deep (inner :: outer) count rest unit indented
    entry entries keys kept each (by simpa using inside) ⟨by omega, follows.solid⟩
  have closed := leads_close (found ++ .mappingStart :: entryTokens (entry :: entries))
    (inner :: outer) true follows.solid (.inr (by omega : count < deep))
  rw [List.append_assoc, List.cons_append] at closed
  exact opened.trans closed

/-- An empty list or mapping after a space. -/
theorem leads_emptyForm {openMark closeMark : Char} {openToken closeToken : YamlToken}
    (brackets : Brackets openMark openToken closeMark closeToken) (right : inner < column)
    (tail : List Char) (count : ℕ) :
    Leads ⟨found, inner :: outer, allowed, column,
        [' ', openMark, closeMark, '\n'] ++ (List.replicate count ' ' ++ tail)⟩
      ⟨found ++ [openToken, closeToken], inner :: outer, true, count, tail⟩ := by
  have spaces := leads_spaces (found ++ [openToken, closeToken])
    (inner :: outer) true 0 count tail
  rw [Nat.zero_add] at spaces
  exact (leads_space _ _ _ _ _).trans ((leads_empty brackets (by omega) _).trans spaces)

/-- Every value whose words and texts are read back is read from what follows a colon or a
dash. -/
theorem leads_of_kept {unit : ℕ} (positive : 0 < unit) {value : YamlValue}
    (kept : Kept value) : ColonLeads unit value ∧ DashLeads unit value := by
  induction kept with
  | @word body filled allowed =>
      constructor
      · intro found inner outer column count rest right follows
        rw [afterColon, toList_endLine_space]
        exact (leads_space _ _ _ _ _).trans
          (leads_wordForm filled allowed (by omega) follows)
      · intro found inner outer count rest follows
        rw [afterDash, toList_endLine_space]
        exact (leads_space _ _ _ _ _).trans
          (leads_wordForm filled allowed (by omega) follows)
  | @text body keeps =>
      constructor
      · intro found inner outer column count rest right follows
        rw [afterColon, toList_endLine_space]
        exact (leads_space _ _ _ _ _).trans
          (leads_textForm keeps (by omega) (lt_deeper positive inner) follows)
      · intro found inner outer count rest follows
        rw [afterDash, toList_endLine_space]
        exact (leads_space _ _ _ _ _).trans
          (leads_textForm keeps (by omega) (by omega) follows)
  | @list items kept each =>
      have dashes : ∀ item ∈ items, DashLeads unit item :=
        fun item mem => (each item mem).2
      cases items with
      | nil =>
          constructor
          · intro found inner outer column count rest right follows
            rw [afterColon, toList_brackets, YamlValue.tokens]
            exact leads_emptyForm .list right rest count
          · intro found inner outer count rest follows
            rw [afterDash, toList_brackets, YamlValue.tokens]
            exact leads_emptyForm .list (Nat.lt_succ_self inner) rest count
      | cons item items =>
          constructor
          · intro found inner outer column count rest right follows
            simp only [afterColon, toList_break_append]
            exact (leads_break _ _ _ _ _).trans
              (leads_listBlock dashes (lt_deeper positive inner) follows)
          · intro found inner outer count rest follows
            simp only [afterDash, toList_break_append]
            exact (leads_break _ _ _ _ _).trans
              (leads_listBlock dashes (by omega : inner < inner + 2) follows)
  | @mapping entries keys kept each =>
      have colons : ∀ entry ∈ entries, ColonLeads unit entry.2 :=
        fun entry mem => (each entry mem).1
      cases entries with
      | nil =>
          constructor
          · intro found inner outer column count rest right follows
            rw [afterColon, toList_braces, YamlValue.tokens]
            exact leads_emptyForm .mapping right rest count
          · intro found inner outer count rest follows
            rw [afterDash, toList_braces, YamlValue.tokens]
            exact leads_emptyForm .mapping (Nat.lt_succ_self inner) rest count
      | cons entry entries =>
          constructor
          · intro found inner outer column count rest right follows
            simp only [afterColon, toList_break_append]
            exact (leads_break _ _ _ _ _).trans
              (@leads_mappingBlock _ _ _ _ _ _ _ true _ _ keys kept colons
                (lt_deeper positive inner) follows)
          · intro found inner outer count rest follows
            simp only [afterDash, toList_space_append]
            exact (leads_space _ _ _ _ _).trans
              (@leads_mappingBlock _ _ _ _ _ _ _ false _ _ keys kept colons
                (by omega : inner < inner + 2) follows)

/-- At the end of the text the last block is closed. -/
theorem ends_of_shows {scan : YamlScan}
    (shows : Shows scan ⟨found, [inner], true, column, []⟩) :
    ∃ final, Ends scan final ∧ final.tokens.toList = found ++ [.blockEnd, .textEnd] := by
  let final : YamlScan := { scan with
    tokens := (scan.tokens.push .blockEnd).push .textEnd
    columns := [], possible := none }
  have finished : final.isFinished = true := by
    simp [final, isFinished, YamlToken.isTextEnd]
  obtain ⟨index, line, placed⟩ := shows.rest
  have step : scan.next? = some final := by
    have solid : Solid [] := by simp [Solid]
    rw [next?, skip_of_solid shows.outer placed solid, placed]
    simp only [Spot.placeFrom, finish?]
    rw [closeBlocks_cons shows.outer shows.columns rfl]
    simp [closeBlocks, inBrackets, shows.outer, dropKey?, shows.possible, push, final]
  refine ⟨final, ⟨finished, fun steps enough => ?_⟩, by simp [final, shows.tokens]⟩
  obtain ⟨steps, rfl⟩ : ∃ fewer, steps = fewer + 1 := ⟨steps - 1, by omega⟩
  have stays : run steps final = final := by
    cases steps with
    | zero => rfl
    | succ steps => simp [run, finished]
  simp [run, shows.unfinished, step, stays]

/-- A mapping as a document. -/
theorem tokens_ofChars_document {unit : ℕ} (positive : 0 < unit)
    {entry : YamlValue × YamlValue} {entries : List (YamlValue × YamlValue)}
    (kept : Kept (mapping (entry :: entries))) :
    (ofChars (document unit (mapping (entry :: entries))).toList).isFinished = true ∧
      (ofChars (document unit (mapping (entry :: entries))).toList).tokens.toList =
        (mapping (entry :: entries)).tokens ++ [.textEnd] := by
  obtain ⟨keys, values⟩ : (∀ other ∈ entry :: entries, IsKey other.1) ∧
      ∀ other ∈ entry :: entries, Kept other.2 := by
    cases kept with
    | mapping keys values => exact ⟨keys, values⟩
  have leads := @leads_mapping [] 0 [] 0 [] unit true entry entries keys values
    (fun other mem => (leads_of_kept positive (values other mem)).1) (by simp)
    ⟨le_rfl, by simp [Solid]⟩
  obtain ⟨last, shows, back⟩ := leads
    { rest := Spot.place (document unit (mapping (entry :: entries))).toList }
    ⟨rfl, rfl, rfl, ⟨0, 0, by simp [document, Spot.place]⟩, rfl, rfl, rfl⟩
  obtain ⟨final, ends, found⟩ := ends_of_shows shows
  have reached := (back final ends).2
    ((document unit (mapping (entry :: entries))).toList.length + 1)
    (by simp [Spot.place])
  rw [ofChars, reached]
  refine ⟨ends.1, ?_⟩
  rw [found]
  simp [YamlValue.tokens]

end Leads

end YamlValue

end CostTape
