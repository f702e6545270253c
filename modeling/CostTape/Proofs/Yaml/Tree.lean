import CostTape.Proofs.Yaml.RoundTrip
import CostTape.Yaml.Tree

/-! Trees are read back from the blocks that are written for them. -/

namespace CostTape

/-- Each scalar, list and mapping of the tree comes back as it was written. -/
def YamlLibrary.ReadsBack {Text Document : Type} (library : YamlLibrary Text Document)
    (tree : YamlTree Text) : Prop :=
  library.read? (library.write tree) = some tree

/-- The functions on items and entries go through a list as `List.map` does. -/
theorem eq_map_of_cons {α β : Type} {each : List α → List β} {one : α → β}
    (nil : each [] = [])
    (cons : ∀ item items, each (item :: items) = one item :: each items)
    (items : List α) : each items = items.map one := by
  induction items with
  | nil => exact nil
  | cons item items ih => rw [cons, ih, List.map_cons]

namespace YamlValue

theorem itemsAsRead_eq_map : ∀ items, itemsAsRead items = items.map asRead :=
  eq_map_of_cons rfl fun _ _ => rfl

theorem entriesAsRead_eq_map : ∀ entries,
    entriesAsRead entries = entries.map fun entry => (entry.1, entry.2.asRead) :=
  eq_map_of_cons rfl fun _ _ => rfl

theorem itemTrees_eq_map : ∀ items, itemTrees items = items.map tree :=
  eq_map_of_cons rfl fun _ _ => rfl

theorem entryTrees_eq_map : ∀ entries,
    entryTrees entries = entries.map fun entry => (entry.1.tree, entry.2.tree) :=
  eq_map_of_cons rfl fun _ _ => rfl

end YamlValue

namespace YamlTree

open YamlValue (allowsWord KeepsText)

theorem itemForms_eq_map : ∀ items, itemForms items = items.map form :=
  eq_map_of_cons rfl fun _ _ => rfl

theorem entryForms_eq_map : ∀ entries,
    entryForms entries = entries.map fun entry => (entry.1.form, entry.2.form) :=
  eq_map_of_cons rfl fun _ _ => rfl

/-- A text that is a key without quotes. -/
structure IsName (name : String) : Prop where
  isText : YamlWord.isText name = true
  allowed : allowsWord name.toList = true
  short : name.length ≤ 1024
  unmarked : name ≠ "<<"

/-- A tree that blocks keep.  The mark of a merge is no text for them, and a block that
starts with a blank or a line break is not kept. -/
inductive Kept : YamlTree → Prop
  | word {body : String} (filled : body ≠ "") (allowed : allowsWord body.toList = true)
      (other : YamlWord.ofWord body ≠ .text) : Kept (word body)
  | text {body : String} (keeps : KeepsText body) (unmarked : body ≠ "<<") :
    Kept (text body)
  | list {items : List YamlTree} (kept : ∀ item ∈ items, Kept item) : Kept (list items)
  | mapping {entries : List (YamlTree × YamlTree)}
      (keys : ∀ entry ∈ entries, ∃ name, entry.1 = text name ∧ IsName name)
      (kept : ∀ entry ∈ entries, Kept entry.2) : Kept (mapping entries)

/-- The written form is kept, reading does not change it, and it says what the tree
says. -/
structure Survives (tree : YamlTree) : Prop where
  kept : tree.form.Kept
  asRead : tree.form.asRead = tree.form
  tree_form : tree.form.tree = tree

theorem ofWord_of_isText {body : String} (isText : YamlWord.isText body = true) :
    YamlWord.ofWord body = .text := by
  simp only [YamlWord.isText, Bool.and_eq_true, beq_iff_eq] at isText
  exact isText.1.1

theorem ne_empty_of_isText {body : String} (isText : YamlWord.isText body = true) :
    body ≠ "" := by
  rintro rfl
  exact absurd isText (by decide)

theorem tree_word_of_isText {body : String} (isText : YamlWord.isText body = true)
    (unmarked : body ≠ "<<") : (YamlValue.word body).tree = text body := by
  rw [YamlValue.tree, if_pos ⟨ofWord_of_isText isText, unmarked⟩]

theorem survives_text {body : String} (keeps : KeepsText body) (unmarked : body ≠ "<<") :
    Survives (text body) := by
  by_cases plain : body.toList.contains '\n' = false ∧ YamlWord.isText body = true ∧
      allowsWord body.toList = true
  · have form : (text body).form = .word body := by
      rw [form, YamlValue.ofText, if_pos plain]
    obtain ⟨-, isText, allowed⟩ := plain
    refine ⟨?_, ?_, ?_⟩ <;> rw [form]
    · exact .word (ne_empty_of_isText isText) allowed
    · rw [YamlValue.asRead]
    · exact tree_word_of_isText isText unmarked
  · have quoted : YamlValue.ofText body = .text body := by
      rw [YamlValue.ofText, if_neg plain]
    refine ⟨?_, ?_, ?_⟩ <;> rw [form, quoted]
    · exact .text keeps
    · rw [YamlValue.asRead, quoted]
    · rw [YamlValue.tree]

theorem IsName.form_text {name : String} (isName : IsName name) :
    (text name).form = .word name := by
  have unbroken : name.toList.contains '\n' = false := by
    rw [List.contains_eq_mem, decide_eq_false_iff_not]
    intro broken
    exact absurd ((YamlValue.runs_of_allowsWord isName.allowed).plain _ broken).2
      (by decide)
  rw [form, YamlValue.ofText, if_pos ⟨unbroken, isName.isText, isName.allowed⟩]

theorem survives_list {items : List YamlTree} (survive : ∀ item ∈ items, Survives item) :
    Survives (list items) := by
  refine ⟨?_, ?_, ?_⟩ <;> rw [form, itemForms_eq_map]
  · refine .list fun value member => ?_
    obtain ⟨item, inside, rfl⟩ := List.mem_map.mp member
    exact (survive item inside).kept
  · rw [YamlValue.asRead, YamlValue.itemsAsRead_eq_map, List.map_map]
    exact congrArg _ (List.map_congr_left fun item inside => (survive item inside).asRead)
  · rw [YamlValue.tree, YamlValue.itemTrees_eq_map, List.map_map]
    exact congrArg _ ((List.map_congr_left fun item inside =>
      (survive item inside).tree_form).trans (List.map_id _))

theorem survives_mapping {entries : List (YamlTree × YamlTree)}
    (keys : ∀ entry ∈ entries, ∃ name, entry.1 = text name ∧ IsName name)
    (survive : ∀ entry ∈ entries, Survives entry.2) : Survives (mapping entries) := by
  refine ⟨?_, ?_, ?_⟩ <;> rw [form, entryForms_eq_map]
  · refine .mapping ?_ ?_ <;> intro entry member <;>
      obtain ⟨entry, inside, rfl⟩ := List.mem_map.mp member
    · obtain ⟨name, key, isName⟩ := keys entry inside
      refine ⟨name, ?_, ne_empty_of_isText isName.isText, isName.allowed, isName.short⟩
      rw [key, isName.form_text]
    · exact (survive entry inside).kept
  · rw [YamlValue.asRead, YamlValue.entriesAsRead_eq_map, List.map_map]
    exact congrArg _ (List.map_congr_left fun entry inside =>
      congrArg (Prod.mk entry.1.form) (survive entry inside).asRead)
  · rw [YamlValue.tree, YamlValue.entryTrees_eq_map, List.map_map]
    refine congrArg _ ((List.map_congr_left fun entry inside => ?_).trans (List.map_id _))
    obtain ⟨name, key, isName⟩ := keys entry inside
    refine Prod.ext ?_ (survive entry inside).tree_form
    show entry.1.form.tree = entry.1
    rw [key, isName.form_text]
    exact tree_word_of_isText isName.isText isName.unmarked

theorem survives_of_kept {tree : YamlTree} (kept : Kept tree) : Survives tree := by
  induction kept with
  | word filled allowed other =>
      refine ⟨?_, ?_, ?_⟩ <;> rw [form]
      · exact .word filled allowed
      · rw [YamlValue.asRead]
      · rw [YamlValue.tree, if_neg fun text => other text.1]
  | text keeps unmarked => exact survives_text keeps unmarked
  | list kept survive => exact survives_list survive
  | mapping keys kept survive => exact survives_mapping keys survive

theorem readsBack_blocks {unit : ℕ} (positive : 0 < unit) {entry : YamlTree × YamlTree}
    {entries : List (YamlTree × YamlTree)} (kept : Kept (mapping (entry :: entries))) :
    (YamlLibrary.blocks unit).ReadsBack (mapping (entry :: entries)) := by
  have survives := survives_of_kept kept
  have written : (mapping (entry :: entries)).form =
      .mapping ((entry.1.form, entry.2.form) :: entryForms entries) := by
    rw [form, entryForms]
  have read :
      YamlValue.read? (YamlValue.document unit (mapping (entry :: entries)).form) =
      some (mapping (entry :: entries)).form.asRead := by
    have kept := survives.kept
    rw [written] at kept ⊢
    exact YamlValue.read?_document positive kept
  refine (congrArg (Option.map YamlValue.tree) read).trans ?_
  rw [Option.map_some, survives.asRead, survives.tree_form]

end YamlTree

end CostTape
