import Labyrinth.Maze
import Labyrinth.Random.ChaCha
import Labyrinth.Level.Spawn

/-!
# Levels

A level is a generated grid with enemies and strawberries on it. Its seed is mixed from
a base seed, the level number and the mode. The maze of a level has the hazards and
strawberries of the grid first, then the enemies and the strawberries placed later.
-/

namespace Labyrinth

/-- A complete level. -/
structure Level where
  /-- The level number, from 1. -/
  number : UInt32
  /-- The mode. -/
  mode : Mode
  /-- What the level teaches. -/
  concepts : List Concept
  /-- The seed that everything was generated from. -/
  seed : UInt64
  /-- The grid. -/
  grid : Grid
  /-- The enemies. -/
  enemies : List Enemy
  /-- The cells of the strawberries. -/
  collectibles : List Position
  deriving BEq

namespace Level

/-- The seed of a level. -/
def seedOf (base : UInt64) (number : UInt32) (mode : Mode) : UInt64 :=
  base ^^^ number.toUInt64 <<< 16 ^^^ mode.ordinal

/-- The cells of enemies. -/
def enemyCells (enemies : List Enemy) : OrderedSet Position :=
  .ofList (enemies.map Enemy.position)

/-- The level of a number, from the sources of randomness that belong to seeds; number 0 counts
as 1. Grid, enemies and strawberries have a seed each. -/
def buildFrom {σ : Type} [WordSource σ] (source : UInt64 → σ) (base : UInt64) (number : UInt32)
    (mode : Mode) : Level :=
  let number := max number 1
  let seed := seedOf base number mode
  let params := Params.forLevel number.toNat mode
  let concepts := Concept.taughtAt number.toNat
  let grid := Grid.grow params concepts (source seed)
  let enemies := Spawn.enemies grid params.enemyCap (source (Spawn.enemySeed seed))
  let avoid := enemyCells enemies
  { number, mode, concepts, seed, grid, enemies
    collectibles := Spawn.collectibles grid concepts avoid (source (Spawn.collectibleSeed seed)) }

/-- The level of a number. -/
def build (base : UInt64) (number : UInt32) (mode : Mode) : Level :=
  buildFrom ChaCha.ofSeed base number mode

/-- The layout of a level. -/
def layout (l : Level) : Layout :=
  (Layout.blank l.grid.width l.grid.height).editAll
    [.start l.grid.start, .goal l.grid.goal, .walls (l.grid.positionsOf .wall),
      .hazards (l.grid.positionsOf .hazard), .hazards (l.enemies.map Enemy.position),
      .rewards (l.grid.positionsOf .reward), .rewards l.collectibles]

/-- The maze of a level. -/
def toMaze (l : Level) : Except MazeError Maze := l.layout.toMaze

end Level

end Labyrinth
