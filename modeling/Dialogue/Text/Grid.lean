import Dialogue.Text.Width

/-!
# Grids

Tables of text with a title, drawn with `+`, `-` and `|`. Every column is as wide as its widest
cell.
-/

namespace Dialogue

inductive Align where
  | left
  | right
  deriving DecidableEq

structure Grid where
  title : String
  columns : List (String × Align)
  rows : List (List String)

namespace Grid

def fill (n : Nat) (c : Char) : String :=
  String.ofList (List.replicate n c)

def pad (align : Align) (w : Nat) (cell : String) : String :=
  let blanks := fill (w - Text.width cell) ' '
  match align with
  | .left => cell ++ blanks
  | .right => blanks ++ cell

def heads (g : Grid) : List String :=
  g.columns.map (·.1.toUpper)

/-- The greater one of the width of a cell and a width so far, column by column. -/
def widen (widths : List Nat) (row : List String) : List Nat :=
  List.zipWith (fun w cell => max w (Text.width cell)) widths row

def widths (g : Grid) : List Nat :=
  g.rows.foldl widen (g.heads.map Text.width)

def layout (g : Grid) : List (Align × Nat) :=
  (g.columns.map Prod.snd).zip g.widths

def line (layout : List (Align × Nat)) (cells : List String) : String :=
  "| " ++ " | ".intercalate (List.zipWith (fun (align, w) cell => pad align w cell) layout cells)
    ++ " |\n"

def border (layout : List (Align × Nat)) : String :=
  "+" ++ "+".intercalate (layout.map fun (_, w) => fill (w + 2) '-') ++ "+"

def innerWidth (layout : List (Align × Nat)) : Nat :=
  layout.foldr (fun (_, w) n => w + 2 + n) (layout.length - 1)

/-- The drawing of a grid, without a line end after the last line. -/
def render (g : Grid) : String :=
  let layout := g.layout
  "+" ++ fill (innerWidth layout) '-' ++ "+\n"
    ++ "| " ++ pad .left (innerWidth layout - 2) g.title ++ " |\n"
    ++ border layout ++ "\n" ++ line layout g.heads ++ border layout ++ "\n"
    ++ String.join (g.rows.map (line layout)) ++ border layout

end Grid

end Dialogue
