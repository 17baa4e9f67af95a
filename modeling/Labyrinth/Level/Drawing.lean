import Labyrinth.Level.Grid

/-!
# Grids changed and drawn

A grid is made from a filled one by changes of single cells, some of which also put the start or the
goal somewhere. It is drawn without looking at any cell: the row of all tiles is cut off line by
line, as many as there are columns, and every tile becomes its character.
-/

namespace Labyrinth

/-- A change of a grid. -/
inductive GridEdit where
  /-- Gives a cell another tile. -/
  | set (p : Position) (t : Tile)
  /-- Puts the start somewhere. -/
  | placeStart (p : Position)
  /-- Puts the goal somewhere. -/
  | placeGoal (p : Position)
  deriving DecidableEq, Repr

/-- A list cut into pieces of `n + 1` elements each, and the rest. -/
def pieces {α : Type} (n : Nat) : List α → List (List α)
  | [] => []
  | a :: as => (a :: as.take n) :: pieces n (as.drop n)
termination_by as => as.length
decreasing_by
  rw [List.length_drop, List.length_cons]
  omega

namespace Grid

/-- Makes one change. -/
def edit (g : Grid) : GridEdit → Grid
  | .set p t => g.set p t
  | .placeStart p => g.placeStart p
  | .placeGoal p => g.placeGoal p

/-- Makes changes one after another. -/
def editAll (g : Grid) (edits : List GridEdit) : Grid := edits.foldl edit g

/-- The lines of a grid as they are cut off; without columns there is nothing to cut. -/
def cutLines (g : Grid) : List (List Tile) := pieces (g.width - 1) g.tiles.toList

/-- The grid as text, line by line. -/
def draw (g : Grid) : String :=
  String.join (g.cutLines.map fun line => String.ofList (line.map Tile.glyph ++ ['\n']))

end Grid

end Labyrinth
