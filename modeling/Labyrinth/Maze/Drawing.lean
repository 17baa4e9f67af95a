import Labyrinth.Maze
import Labyrinth.Text.Quoted

/-!
# Mazes drawn with characters

A maze can be drawn as rows of characters, one for each cell. The rows are read from
the top and every row from the left; all rows have the width of the first. A row of
another width is found before its characters are read.
-/

namespace Labyrinth

/-- Why a drawing shows no maze. -/
inductive DrawingError where
  /-- A row has another width than the first. -/
  | raggedRow (row found width : Nat)
  /-- A character means nothing. -/
  | unknownGlyph (glyph : Char) (column row : Nat)
  /-- The drawing shows a layout that is no maze. -/
  | faulty (fault : MazeError)
  /-- An open grid of this size is no maze. -/
  | faultyOpen (fault : MazeError)
  deriving DecidableEq, Repr

/-- A cell with its coordinates named. -/
def Position.fields (p : Position) : String :=
  "Position \x7b x: " ++ toString p.x ++ ", y: " ++ toString p.y ++ " \x7d"

/-- A maze error by name and contents. -/
def MazeError.fields : MazeError → String
  | emptyGrid => "EmptyGrid"
  | tooLarge w h => "TooLarge \x7b width: " ++ toString w ++ ", height: " ++ toString h ++ " \x7d"
  | outOfBounds what pos =>
    "OutOfBounds \x7b what: \"" ++ what.name ++ "\", pos: " ++ pos.fields ++ " \x7d"
  | blockedCell what pos =>
    "BlockedCell \x7b what: \"" ++ what.name ++ "\", pos: " ++ pos.fields ++ " \x7d"

/-- The message of a drawing error. -/
def DrawingError.message : DrawingError → String
  | raggedRow row found width =>
    "assertion `left == right` failed: row " ++ toString row ++ " has a different width\n  left: "
      ++ toString found ++ "\n right: " ++ toString width
  | unknownGlyph glyph column row =>
    "unknown maze glyph " ++ Text.quoted glyph ++ " at (" ++ toString column ++ ", "
      ++ toString row ++ ")"
  | faulty fault => "fixture maze is invalid: " ++ fault.fields
  | faultyOpen fault => "open maze dimensions are invalid: " ++ fault.fields

/-- What a character shows in a cell; nothing for a character without meaning. -/
def glyphEdits? (p : Position) : Char → Option (List LayoutEdit)
  | '#' => some [.walls [p]]
  | '.' => some []
  | 'S' => some [.start p]
  | 'G' => some [.goal p]
  | 'X' => some [.hazards [p]]
  | '*' => some [.rewards [p]]
  | 'B' => some [.rewards [p], .hazards [p]]
  | _ => none

namespace Layout

/-- Adds a row of characters, from the column `x` on. -/
def drawRow (l : Layout) (y x : Nat) : List Char → Except DrawingError Layout
  | [] => .ok l
  | c :: cs =>
    match glyphEdits? ⟨x, y⟩ c with
    | some edits => (l.editAll edits).drawRow y (x + 1) cs
    | none => .error (.unknownGlyph c x y)

/-- Adds rows of characters, from the row `y` on. -/
def drawRows (l : Layout) (y : Nat) : List (List Char) → Except DrawingError Layout
  | [] => .ok l
  | row :: rows =>
    if row.length ≠ l.width then .error (.raggedRow y row.length l.width)
    else
      match l.drawRow y 0 row with
      | .ok next => next.drawRows (y + 1) rows
      | .error e => .error e

end Layout

namespace Maze

/-- The maze that rows of characters show. -/
def ofDrawing (rows : List String) : Except DrawingError Maze :=
  let rows := rows.map String.toList
  match (Layout.blank (rows.headD []).length rows.length).drawRows 0 rows with
  | .ok l => l.toMaze.mapError .faulty
  | .error e => .error e

/-- The maze of a size without walls. -/
def openField (width height : Nat) : Except DrawingError Maze :=
  (Layout.blank width height).toMaze.mapError .faultyOpen

end Maze

end Labyrinth
