import Labyrinth.Instruction

/-!
# Depth and number of instructions

The levels of a program are the nesting levels of its instructions, outermost 1, in
the order of the text. They are gathered with a list of programs still to visit, so
that no nesting is too deep for them. The depth of a program is its greatest level
and its size the number of levels.
-/

namespace Labyrinth

namespace Instruction

/-- A bound on the visits still to make: two for every instruction, which may open a program,
and one for the end of every program. -/
def visitsLeft : List (Program × Nat) → Nat
  | [] => 0
  | (p, _) :: pending => 2 * programSize p + 1 + visitsLeft pending

/-- The levels found so far, last first, followed by those of the programs still to visit. -/
def gatherLevels (found : List Nat) : List (Program × Nat) → List Nat
  | [] => found.reverse
  | ([], _) :: pending => gatherLevels found pending
  | (.block _ body :: rest, level) :: pending =>
    gatherLevels (level :: found) ((body, level + 1) :: (rest, level) :: pending)
  | (.move _ :: rest, level) :: pending => gatherLevels (level :: found) ((rest, level) :: pending)
  | (.call :: rest, level) :: pending => gatherLevels (level :: found) ((rest, level) :: pending)
  | (.noop :: rest, level) :: pending => gatherLevels (level :: found) ((rest, level) :: pending)
termination_by pending => visitsLeft pending
decreasing_by all_goals (simp only [visitsLeft, programSize, size]; omega)

end Instruction

namespace Program

/-- The nesting level of every instruction, in the order of the text. -/
def levels (p : Program) : List Nat := Instruction.gatherLevels [] [(p, 1)]

/-- The deepest nesting level: 0 for the empty program, 1 for one without blocks. -/
def maxDepth (p : Program) : Nat := p.levels.foldl max 0

/-- The number of instructions at all levels. -/
def count (p : Program) : Nat := p.levels.length

end Program

end Labyrinth
