import CostTape.Yaml.Reading

/-! What YAML documents say, and the libraries that write and read them. -/

namespace CostTape

/-- A YAML document with its scalars told apart: texts, and words that mean something
else. -/
inductive YamlTree (Text : Type := String) where
  | word (body : String)
  | text (body : Text)
  | list (items : List (YamlTree Text))
  | mapping (entries : List (YamlTree Text × YamlTree Text))

structure YamlLibrary (Text Document : Type) where
  write : YamlTree Text → Document
  read? : Document → Option (YamlTree Text)

namespace YamlTree

mutual

def form : YamlTree → YamlValue
  | word body => .word body
  | text body => .ofText body
  | list items => .list (itemForms items)
  | mapping entries => .mapping (entryForms entries)

def itemForms : List YamlTree → List YamlValue
  | [] => []
  | item :: items => form item :: itemForms items

def entryForms : List (YamlTree × YamlTree) → List (YamlValue × YamlValue)
  | [] => []
  | (key, value) :: entries => (form key, form value) :: entryForms entries

end

end YamlTree

namespace YamlValue

mutual

/-- What a value says.  The mark of a merge is no text. -/
def tree : YamlValue → YamlTree
  | word body =>
      if YamlWord.ofWord body = .text ∧ body ≠ "<<" then .text body else .word body
  | text body => .text body
  | list items => .list (itemTrees items)
  | mapping entries => .mapping (entryTrees entries)

def itemTrees : List YamlValue → List YamlTree
  | [] => []
  | item :: items => tree item :: itemTrees items

def entryTrees : List (YamlValue × YamlValue) → List (YamlTree × YamlTree)
  | [] => []
  | (key, value) :: entries => (tree key, tree value) :: entryTrees entries

end

end YamlValue

/-- The library of the modules here.  It writes blocks with an indentation unit, and reads
what has no tags, anchors, aliases and directives; a document with any of these is
refused. -/
def YamlLibrary.blocks (unit : Nat) : YamlLibrary String String where
  write tree := YamlValue.document unit tree.form
  read? document := (YamlValue.read? document).map YamlValue.tree

end CostTape
