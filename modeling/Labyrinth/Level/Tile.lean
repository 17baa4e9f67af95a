/-!
# Tiles

The six kinds of cells of a generated grid, each with a number and a character of its
own. `Tile.ordinal_injective` and `Tile.glyph_injective` say that these tell them apart.
-/

namespace Labyrinth

/-- What a cell of a generated grid is. -/
inductive Tile where
  /-- A cell that cannot be entered. -/
  | wall
  /-- Plain floor. -/
  | path
  /-- Where the player begins. -/
  | start
  /-- The goal. -/
  | exit
  /-- Floor with an enemy. -/
  | hazard
  /-- Floor with a strawberry. -/
  | reward
  deriving DecidableEq, Repr, Inhabited

namespace Tile

/-- All kinds of tiles, by number. -/
def all : List Tile := [wall, path, start, exit, hazard, reward]

/-- The number of a kind of tile. -/
def ordinal : Tile → UInt8
  | wall => 0
  | path => 1
  | start => 2
  | exit => 3
  | hazard => 4
  | reward => 5

/-- Whether the player may stand on a tile. -/
def isWalkable (t : Tile) : Bool := t != wall

/-- The character of a kind of tile. -/
def glyph : Tile → Char
  | wall => '#'
  | path => '.'
  | start => 'S'
  | exit => 'E'
  | hazard => 'X'
  | reward => '*'

theorem mem_all (t : Tile) : t ∈ all := by cases t <;> decide

/-- Different tiles have different numbers. -/
theorem ordinal_injective {t u : Tile} (h : t.ordinal = u.ordinal) : t = u := by
  revert h
  cases t <;> cases u <;> decide

/-- Different tiles have different characters. -/
theorem glyph_injective {t u : Tile} (h : t.glyph = u.glyph) : t = u := by
  revert h
  cases t <;> cases u <;> decide

end Tile

end Labyrinth
