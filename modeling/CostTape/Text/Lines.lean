import CostTape.Text.Glyph

/-! Texts of several lines. -/

namespace CostTape.Text

/-- The lines of a text; one that ends in a carriage return drops it. -/
def splitLines : List Char → List (List Char)
  | [] => [[]]
  | char :: rest =>
      match splitLines rest with
      | [] => [[char]]
      | line :: lines =>
          if char = '\n' then [] :: line :: lines
          else if char = '\r' ∧ rest.head? = some '\n' then line :: lines
          else (char :: line) :: lines

def expandTabs (line : List Char) : List Char :=
  line.flatMap fun char => if char = '\t' then [' ', ' ', ' ', ' '] else [char]

def padTo (columns : Nat) (line : List Char) : List Char :=
  line ++ List.replicate (columns - width line) ' '

def widest (lines : List (List Char)) : Nat :=
  (lines.map width).foldl max 0

def even (lines : List (List Char)) : List (List Char) :=
  lines.map (padTo (widest lines))

def evenLines (text : String) : List (List Char) :=
  even ((splitLines text.toList).map expandTabs)

end CostTape.Text
