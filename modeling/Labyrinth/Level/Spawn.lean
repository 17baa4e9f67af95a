import Labyrinth.OrderedSet
import Labyrinth.Level.Generate

/-!
# Enemies and strawberries

Enemies stand on plain cells off the border, each with a certain chance, row by row
until there are enough. Strawberries lie on the cells generated for them and, if these
are too few, on plain cells drawn from those that are not to be avoided. Each of the two
has a stream of randomness of its own.
-/

namespace Labyrinth

/-- An enemy of a level. -/
structure Enemy where
  /-- The cell it stands on. -/
  position : Position
  /-- Its speed, in cells for each tick. -/
  speed : Float
  /-- How many cells far it sees. -/
  vision : Nat
  deriving BEq

namespace Spawn

/-- What sets the stream of the enemies apart from that of the grid. -/
def enemyStream : UInt64 := 0x454E454D59000001

/-- What sets the stream of the strawberries apart from that of the grid. -/
def collectibleStream : UInt64 := 0x434F4C4C45430002

/-- The seed of the enemies of a level. -/
def enemySeed (seed : UInt64) : UInt64 := seed ^^^ enemyStream

/-- The seed of the strawberries of a level. -/
def collectibleSeed (seed : UInt64) : UInt64 := seed ^^^ collectibleStream

/-- The chance of an enemy on a cell. -/
def enemyChance (cap : Nat) : Float := if 5 ≤ cap then 0.15 else 0.08

/-- An enemy, as strong as the most enemies of its level allow. -/
def enemyAt (cap : Nat) (p : Position) : Enemy := ⟨p, 1.0 + 0.25 * Float.ofNat cap, 2 + cap / 2⟩

/-- Draws for one cell after another whether it is taken, until `most` are. -/
def takeByChance {σ : Type} [WordSource σ] (chance : Float) (most : Nat) (s : σ) :
    List Position → List Position
  | [] => []
  | p :: ps =>
    match most with
    | 0 => []
    | fewer + 1 =>
      let (taken, s) := WordSource.chance chance s
      if taken then p :: takeByChance chance fewer s ps
      else takeByChance chance (fewer + 1) s ps

/-- The cells where enemies may stand, row by row. -/
def enemyCells (g : Grid) : List Position :=
  (g.positionsOf .path).filter (fun p => g.Interior p)

/-- At most `cap` enemies on a grid. -/
def enemies {σ : Type} [WordSource σ] (g : Grid) (cap : Nat) (s : σ) : List Enemy :=
  (takeByChance (enemyChance cap) cap s (enemyCells g)).map (enemyAt cap)

/-- The strawberries that a grid of so many cells should have. -/
def collectibleTarget (cells : Nat) (concepts : List Concept) : Nat :=
  3 + cells / 60 + if concepts.contains .loops then 2 else 0

/-- Draws cells from a pool, at most `most`, until the pool is empty. The last cell of the pool
takes the place of the one drawn. -/
def drawCells {σ : Type} [WordSource σ] (most : Nat) (pool : Array Position) (s : σ) :
    List Position :=
  match most with
  | 0 => []
  | fewer + 1 =>
    if pool.isEmpty then []
    else
      let (i, s) := WordSource.below pool.size s
      match pool[i]? with
      | none => []
      | some p => p :: drawCells fewer (pool.swapIfInBounds i (pool.size - 1)).pop s

/-- The cells of the strawberries of a grid. -/
def collectibles {σ : Type} [WordSource σ] (g : Grid) (concepts : List Concept)
    (avoid : OrderedSet Position) (s : σ) : List Position :=
  let target := collectibleTarget g.cellCount concepts
  let placed := (g.positionsOf .reward).take target
  let pool := (g.positionsOf .path).filter (· ∉ avoid)
  placed ++ drawCells (target - placed.length) pool.toArray s

end Spawn

end Labyrinth
