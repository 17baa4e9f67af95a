import Labyrinth.Instruction

/-!
# Sample programs

Programs of a known shape: a single move under many one-shot loops, a doubling nest
of loops, and a walk that sweeps a rectangle row by row.
-/

namespace Labyrinth

namespace Program

/-- A program wrapped `depth` times in a loop of `count` rounds. -/
def nested (count : Int) (p : Program) (depth : Nat) : Program :=
  Nat.repeat (fun q => [.repeated count q]) depth p

/-- One move to the right under `depth` loops of one round. -/
def nestedOnce (depth : Nat) : Program := nested 1 [.move .right] depth

/-- A step right and back under `depth` loops of two rounds. -/
def nestedTwice (depth : Nat) : Program := nested 2 [.move .right, .move .left] depth

/-- A walk right along one row and back along the next, down the whole rectangle. -/
def sweep (width height : Nat) : Program :=
  let along (d : Direction) : Instruction := .repeated (width - 1 : Nat) [.move d]
  [.repeated (height / 2 : Nat) [along .right, .move .down, along .left, .move .down]]

end Program

end Labyrinth
